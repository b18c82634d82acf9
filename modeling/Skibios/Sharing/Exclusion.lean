import Skibios.Tasks.Invariants

/-! Mutual exclusion: the lock stores a task's whole id and tests one byte of it. -/

namespace Skibios.Sharing.Exclusion

open Function Library.Words Library.Runs
open Kernel State TaskServices Services Events Effects Tasks Invariants

inductive Owner
  | free
  | task (k : ℕ)
  -- killed while it held the mutex
  | gone
  deriving DecidableEq

variable {B : Build} {s t : KernelState} {c d : KernelState × Owner} {e : Event} {es : List Event}
variable {m : ℕ}

def Owner.next (m : ℕ) (s : KernelState) (o : Owner) : Event → Owner
  | .mutexLock a => if a = m ∧ (mutexLock s m).1 = 0 then .task s.currentTask else o
  | .clearMutex a => if a = m then .free else o
  | .killTask pid => if o = .task (slotNumber pid) then .gone else o
  | .endTask => if o = .task s.currentTask then .gone else o
  | _ => o

/-- The mutex is unlocked by its holder and not written otherwise. -/
def ByHolder (m : ℕ) (c : KernelState × Owner) : Event → Prop
  | .clearMutex a => a = m → c.2 = .task c.1.currentTask
  | .store a _ => a ≠ m
  | _ => True

instance (m : ℕ) (c : KernelState × Owner) (e : Event) : Decidable (ByHolder m c e) :=
  match e with
  | .clearMutex _ => inferInstanceAs (Decidable (_ → _))
  | .store .. => inferInstanceAs (Decidable (_ ≠ _))
  | .createTask .. | .startScheduler | .killTask _ | .endTask | .hibernate .. | .handOver
  | .invokeBase _ | .releaseBase _ | .grantPermission .. | .promote _ | .mutexLock _
  | .unlockTest _ | .fillTask .. | .tick | .scheduler | .contextSwitch =>
    inferInstanceAs (Decidable True)

structure Traced (B : Build) (m : ℕ) (c : KernelState × Owner) (e : Event) (d : KernelState × Owner) :
    Prop where
  step : Step B c.1 e d.1
  holder : ByHolder m c e
  owner : d.2 = c.2.next m c.1 e

/-- From a lock to its unlock, `mutex_lock` fails whichever task calls it. -/
def Excludes (m : ℕ) (c : KernelState × Owner) : Prop :=
  c.2 ≠ .free → ∀ k, (mutexLock { c.1 with currentTask := k } m).1 = 1

/-- A task that takes the mutex has an id whose low byte is not 0. -/
def Telling (m : ℕ) (s : KernelState) : Event → Prop
  | .mutexLock a => a = m → (mutexLock s m).1 = 0 → s.taskId s.currentTask % 256 ≠ 0
  | _ => True

instance (m : ℕ) (s : KernelState) (e : Event) : Decidable (Telling m s e) :=
  match e with
  | .mutexLock _ => inferInstanceAs (Decidable (_ → _ → _))
  | .createTask .. | .startScheduler | .killTask _ | .endTask | .hibernate .. | .handOver
  | .invokeBase _ | .releaseBase _ | .grantPermission .. | .promote _ | .clearMutex _
  | .unlockTest _ | .store .. | .fillTask .. | .tick | .scheduler | .contextSwitch =>
    inferInstanceAs (Decidable True)

lemma mutexLock_taken (h : s.mem m % 256 ≠ 0) : mutexLock s m = (1, s) := if_pos h

lemma mutexLock_free (h : s.mem m % 256 = 0) :
    mutexLock s m = (0, { s with mem := update s.mem m (s.taskId s.currentTask) }) :=
  if_neg (not_not.mpr h)

lemma excludes_iff : Excludes m c ↔ (c.2 ≠ .free → c.1.mem m % 256 ≠ 0) := by
  apply imp_congr_right
  intro _
  constructor
  · intro h hfree
    have hone := h 0
    rw [mutexLock_free (s := { c.1 with currentTask := 0 }) hfree] at hone
    cases hone
  · intro h k
    rw [mutexLock_taken (s := { c.1 with currentTask := k }) h]

lemma Owner.next_free {o : Owner} (hl : e ≠ .mutexLock m) (h : o.next m s e ≠ .free) : o ≠ .free := by
  rintro rfl
  apply h
  cases e with
  | mutexLock a =>
    apply if_neg
    rintro ⟨rfl, -⟩
    exact hl rfl
  | clearMutex a => exact ite_self _
  | _ => rfl

lemma Traced.excludes_iff (h : Traced B m c e d) (hc : Excludes m c) :
    Excludes m d ↔ Telling m c.1 e := by
  have he := step_effect h.step
  rw [Exclusion.excludes_iff] at hc ⊢
  rw [h.owner]
  by_cases hl : e = .mutexLock m
  · subst hl
    generalize hd : d.1 = t at he
    cases he with
    | lockRefused _ htaken =>
      have hsame : c.2.next m c.1 (.mutexLock m) = c.2 := by
        apply if_neg
        rw [mutexLock_taken htaken]
        exact nofun
      rw [hsame]
      refine iff_of_true hc ?_
      intro _ hzero
      rw [mutexLock_taken htaken] at hzero
      cases hzero
    | locked _ hfree =>
      have htask : c.2.next m c.1 (.mutexLock m) = .task c.1.currentTask :=
        if_pos ⟨rfl, by rw [mutexLock_free hfree]⟩
      have hword : update c.1.mem m (c.1.taskId c.1.currentTask) m = c.1.taskId c.1.currentTask :=
        update_self ..
      rw [htask, Telling, mutexLock_free hfree]
      dsimp only
      rw [hword]
      exact ⟨fun h _ _ => h nofun, fun h _ => h rfl rfl⟩
  · have htelling : Telling m c.1 e := by
      cases e with
      | mutexLock a =>
        rintro rfl
        exact (hl rfl).elim
      | _ => trivial
    refine iff_of_true (fun howner => ?_) htelling
    have hmem : d.1.mem m = c.1.mem m := by
      apply he.mem_eq hl
      · rintro rfl
        exact howner (if_pos rfl)
      · rintro v rfl
        exact h.holder rfl
    rw [hmem]
    exact hc (Owner.next_free hl howner)

variable {mem : ℕ → ℕ} {objs : ℕ → TaskObject} {stack : ℕ → ℕ}

/-- As long as every task that takes the mutex has a telling id no other task takes it, and the first
lock by a task without one leaves it open to all. -/
theorem mutual_exclusion
    (h : Run (fun c e d => Telling m c.1 e ∧ Traced B m c e d) (bootState B mem objs stack, .free) es c) :
    Excludes m c ∧ ∀ e d, Traced B m c e d → (Excludes m d ↔ Telling m c.1 e) := by
  have hc : Excludes m c := by
    apply h.invariant (I := Excludes m)
    · rintro c e d hc ⟨htelling, hstep⟩
      exact (hstep.excludes_iff hc).mpr htelling
    · exact fun hfree => (hfree rfl).elim
  exact ⟨hc, fun e d hstep => hstep.excludes_iff hc⟩

section Instances

def threeSlots : Build := Build.three

def start : KernelState × Owner :=
  (bootState threeSlots (fun _ => 0) (fun _ => ⟨0, 0, 1, 0, 0, 0, 0, 0⟩) (fun _ => 0), .free)

def rounds (n : ℕ) : List Event := (List.replicate n [.createTask 10 0, .killTask 0x10000]).flatten

def dispatch : List Event := [.scheduler, .contextSwitch]

def handover : List Event :=
  [.createTask 10 0, .startScheduler] ++ dispatch ++ [.mutexLock 200, .handOver] ++ dispatch

def tracedStep (ok : KernelState → Event → Prop) [∀ s e, Decidable (ok s e)]
    (c : KernelState × Owner) (e : Event) : Option (KernelState × Owner) :=
  if ok c.1 e ∧ ByHolder 200 c e then
    (step threeSlots 20 c.1 e).map fun t => (t, c.2.next 200 c.1 e)
  else none

lemma tracedStep_sound {ok : KernelState → Event → Prop} [∀ s e, Decidable (ok s e)]
    (c : KernelState × Owner) (e : Event) (d : KernelState × Owner) (h : tracedStep ok c e = some d) :
    ok c.1 e ∧ Traced threeSlots 200 c e d := by
  unfold tracedStep at h
  split_ifs at h with hok
  obtain ⟨t, ht, rfl⟩ := Option.map_eq_some_iff.mp h
  exact ⟨hok.1, ⟨20, ht⟩, hok.2, rfl⟩

theorem mutual_exclusion_handover : ∃ c, (c.2 = .task 1 ∧ c.1.currentTask = 0) ∧ Excludes 200 c := by
  have hexec : (exec (tracedStep (Telling 200)) start (rounds 1 ++ handover)).any
      (fun c => decide (c.2 = .task 1 ∧ c.1.currentTask = 0)) = true := by decide +kernel
  obtain ⟨c, hrun, hc⟩ := exec_any_run tracedStep_sound hexec
  exact ⟨c, hc, (mutual_exclusion hrun).1⟩

/-- The 256th task has the id `0x10100`: it holds the mutex and the base task's lock succeeds. -/
theorem mutual_exclusion_fails : ∃ c,
    Run (fun c e d => Regular threeSlots c.1 e ∧ Traced threeSlots 200 c e d) start
        (rounds 254 ++ handover) c ∧
      c.2 = .task 1 ∧ Live threeSlots c.1 1 ∧ InThread c.1 ∧ c.1.currentTask = 0 ∧
      (mutexLock c.1 200).1 = 0 :=
  exec_any_run tracedStep_sound (by decide +kernel)

end Instances

end Skibios.Sharing.Exclusion
