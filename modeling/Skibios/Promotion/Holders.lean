import Skibios.Sharing.WakeUp

/-! PRIORITY_PROMOTE reads the word again and promotes the slot it names, whoever is there. -/

namespace Skibios.Promotion.Holders

open Function Library.Words Library.Runs
open Kernel State TaskServices Services Events
open Sharing Threads

variable {B : Build} {s t : KernelState} {call : Call} {m : ℕ}

/-- The word `w` is the id that `mutex_lock` recorded for a live task. -/
def Holder (B : Build) (s : KernelState) (w : ℕ) : Prop :=
  Live B s (w >>> 16) ∧ s.taskId (w >>> 16) = w

/-- `m` is locked by a live task, or it is the mutex that stands for the base task. -/
def Promotable (B : Build) (s : KernelState) (m : ℕ) : Prop := Holder B s (s.mem m) ∨ m = B.baseMutex

instance (s : KernelState) (w : ℕ) : Decidable (Holder B s w) := inferInstanceAs (Decidable (_ ∧ _))

instance (s : KernelState) (m : ℕ) : Decidable (Promotable B s m) :=
  inferInstanceAs (Decidable (_ ∨ _))

structure OnHolder (B : Build) (s t : KernelState) (m : ℕ) : Prop where
  priorities : ∀ k, t.prioCurrent k ≠ s.prioCurrent k ∨ t.prioStashed k ≠ s.prioStashed k →
    Promotable B s m
  hold : s.state s.currentTask ≠ .hold → t.state s.currentTask = .hold → Promotable B s m
  otherwise : ¬ Promotable B s m → t = s

/-- The service stays inside the tables and acts on a live holder only. -/
def PromotesHolder (B : Build) (call : Call) (s : KernelState) : Prop :=
  ∃ r call' t, svcServicePriorityPromote B call s = some (r, call', t) ∧ OnHolder B s t call.arg0

lemma promote_outside (h : B.maxTaskCount ≤ s.mem call.arg0 >>> 16) :
    svcServicePriorityPromote B call s = none := if_pos h

lemma promote_inside (h : s.mem call.arg0 >>> 16 < B.maxTaskCount) :
    svcServicePriorityPromote B call s =
      some (errorNone, call, promoteSlot s call.arg0 (s.mem call.arg0 >>> 16)) :=
  if_neg (not_le.mpr h)

lemma promoteSlot_ne {i : ℕ} (hth : InThread s) : promoteSlot s m i ≠ s := by
  intro h
  have hpending : (promoteSlot s m i).schedulerPending = true := rfl
  rw [h, hth.1] at hpending
  cases hpending

/-- A call in any state acts on a live holder if and only if the word names a slot of the table, and
there the task whose id the word is, unless the mutex is `base_mutex`. -/
theorem promotes_holder (hth : InThread s) : PromotesHolder B call s ↔
    s.mem call.arg0 >>> 16 < B.maxTaskCount ∧ Promotable B s call.arg0 := by
  constructor
  · rintro ⟨r, call', t, hcall, ht⟩
    have hin : s.mem call.arg0 >>> 16 < B.maxTaskCount := by
      by_contra hout
      rw [promote_outside (not_lt.mp hout)] at hcall
      cases hcall
    refine ⟨hin, ?_⟩
    by_contra hno
    rw [promote_inside hin] at hcall
    obtain ⟨-, -, rfl⟩ := by simpa using hcall
    exact promoteSlot_ne hth (ht.otherwise hno)
  · rintro ⟨hin, hp⟩
    refine ⟨_, _, _, promote_inside hin, fun _ _ => hp, fun _ _ => hp, fun hno => absurd hp hno⟩

section Instances

open WakeUp (fourSlots Locking start attempt gap)

def turns : List Action := List.replicate 6 .advance

/-- Slot 2 is about to promote slot 1, which holds 200. -/
def timely : System := reached fourSlots 20 (Locking fourSlots [200]) start (attempt ++ turns)

/-- Slot 2 is about to promote slot 1, which has unlocked 200 since. -/
def late : System := reached fourSlots 20 (Locking fourSlots [200]) start (attempt ++ gap ++ turns)

def garbled : KernelState := (step fourSlots 20 late.kernel (.store 200 0x70000)).getD late.kernel

def promotion : Call := ⟨svcPriorityPromote, 200, 0, 0, 0⟩

theorem promotes_holder_timely : timely.pc timely.running = .promote 200 3 ∧
    PromotesHolder fourSlots promotion timely.kernel := by
  have hs : timely.pc timely.running = .promote 200 3 ∧ InThread timely.kernel ∧
      timely.kernel.mem promotion.arg0 >>> 16 < fourSlots.maxTaskCount ∧
      Promotable fourSlots timely.kernel promotion.arg0 := by
    decide +kernel
  exact ⟨hs.1, (promotes_holder hs.2.1).mpr hs.2.2⟩

/-- The low byte of the word is 0 by then: slot 1, which holds nothing, is raised to 128 and the
caller waits in HOLD. A word that names slot 7 is followed out of the table. -/
theorem promotes_holder_fails :
    Run (Admitted fourSlots (Locking fourSlots [200])) start (attempt ++ gap ++ turns) late ∧
      (late.pc late.running = .promote 200 3 ∧ late.running = 2 ∧ InThread late.kernel) ∧
      (late.kernel.mem 200 = 0x10000 ∧ late.kernel.taskId 1 = 0x10002 ∧ late.holds 1 200 = false) ∧
      ((svcServicePriorityPromote fourSlots promotion late.kernel).any fun r =>
        decide (late.kernel.prioCurrent 1 = 1 ∧ r.2.2.prioCurrent 1 = 128 ∧
          r.2.2.state 2 = .hold)) = true ∧
      ¬ PromotesHolder fourSlots promotion late.kernel ∧
      Step fourSlots late.kernel (.store 200 0x70000) garbled ∧
      ¬ PromotesHolder fourSlots promotion garbled := by
  refine ⟨run_reached (by decide +kernel), by decide +kernel, by decide +kernel, by decide +kernel,
    ?_, step_getD rfl, ?_⟩
  · rintro ⟨r, call, t, hcall, ht⟩
    have hs : late.kernel.mem promotion.arg0 >>> 16 < fourSlots.maxTaskCount ∧ InThread late.kernel ∧
        ¬ Promotable fourSlots late.kernel promotion.arg0 := by decide +kernel
    rw [promote_inside hs.1] at hcall
    obtain ⟨-, -, rfl⟩ := by simpa using hcall
    exact promoteSlot_ne hs.2.1 (ht.otherwise hs.2.2)
  · rintro ⟨r, call, t, hcall, -⟩
    rw [promote_outside (by decide +kernel)] at hcall
    cases hcall

end Instances

end Skibios.Promotion.Holders
