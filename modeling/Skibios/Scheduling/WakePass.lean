import Skibios.Kernel.Services
import Skibios.Kernel.SchedulerLoops
import Skibios.Library.Rounds
import Skibios.Tasks.Counters

/-! The wake-up pass of `scheduler()` beside the busy-wait of `hibernate()`. -/

namespace Skibios.Scheduling.WakePass

open Function Library.Words Library.Loops Library.Rings Library.Counting Library.Rounds
open Kernel State TaskServices Services Scheduler SchedulerLoops
open Tasks.Counters (Hibernating)

variable {B : Build} {s t w : KernelState} {k : ℕ}

/-- `*op1 - *op2` is still on the wrong side of `value`. -/
def Waits (mem : ℕ → ℕ) (op1 op2 value : ℕ) (reverse : Bool) : Prop :=
  if reverse then value < sub32 (mem op1) (mem op2) else sub32 (mem op1) (mem op2) < value

instance (mem : ℕ → ℕ) (op1 op2 value : ℕ) (reverse : Bool) :
    Decidable (Waits mem op1 op2 value reverse) := inferInstanceAs (Decidable (ite _ _ _))

/-- A turn of the loop in which `hibernate()` waits when there is a single task. -/
def waitTurn (mem : ℕ → ℕ) (op1 op2 value : ℕ) (reverse : Bool) (_ : Unit) : Turn Unit Unit :=
  if Waits mem op1 op2 value reverse then .again () else .leave ()

def StopsWaiting (mem : ℕ → ℕ) (op1 op2 value : ℕ) (reverse : Bool) : Prop :=
  ∃ n, runLoop (waitTurn mem op1 op2 value reverse) n () = some ()

lemma stopsWaiting_iff {mem : ℕ → ℕ} {op1 op2 value : ℕ} {reverse : Bool} :
    StopsWaiting mem op1 op2 value reverse ↔ ¬ Waits mem op1 op2 value reverse := by
  constructor
  · rintro ⟨n, hn⟩ hw
    have hturn : ∀ u : Unit, True → ∃ v,
        waitTurn mem op1 op2 value reverse u = .again v ∧ True := fun _ _ => ⟨(), if_pos hw, trivial⟩
    rw [runLoop_stuck hturn n trivial] at hn
    cases hn
  · intro hw
    exact ⟨1, runLoop_leave (if_neg hw)⟩

/-- `merged`, which `hibernate()` hands to the service. -/
def merged (s : KernelState) (reverse : Bool) : ℕ :=
  s.currentTask ||| if reverse then hibernateRevMask else 0

def reversed (st : TaskState) : Bool := st = .hibernateL

lemma merged_and (hc : s.currentTask < 65536) (reverse : Bool) :
    merged s reverse &&& hibernateRevMask = hibernateRevMask ↔ reverse = true := by
  have hlow : s.currentTask &&& hibernateRevMask = 0 := by
    refine Nat.eq_of_testBit_eq fun i => ?_
    rw [Nat.testBit_and, show hibernateRevMask = 2 ^ 16 from rfl, Nat.testBit_two_pow, Nat.zero_testBit]
    rcases eq_or_ne 16 i with rfl | hne
    · rw [Nat.testBit_lt_two_pow hc, Bool.false_and]
    · rw [decide_eq_false hne, Bool.and_false]
  cases reverse with
  | false =>
    rw [merged, if_neg Bool.false_ne_true, Nat.or_zero, hlow]
    decide
  | true =>
    rw [merged, if_pos rfl, Nat.and_or_distrib_right, hlow]
    decide

lemma hibernate_records (hc : s.currentTask < 65536) (op1 op2 value : ℕ) (reverse : Bool) :
    ∃ t, svc B s svcHibernate (merged s reverse) op1 op2 value = some (errorNone, t) ∧
      Hibernating (t.state s.currentTask) ∧ reversed (t.state s.currentTask) = reverse ∧
      t.op1 s.currentTask = op1 ∧ t.op2 s.currentTask = op2 ∧ t.hibValue s.currentTask = value := by
  refine ⟨_, svc_hibernate .., ?_⟩
  have hstate : (hibernateState s (merged s reverse) op1 op2 value).state s.currentTask =
      if merged s reverse &&& hibernateRevMask = hibernateRevMask then .hibernateL else .hibernateG :=
    update_self ..
  rw [hstate]
  refine ⟨?_, ?_, update_self .., update_self .., update_self ..⟩
  · split
    · exact Or.inr rfl
    · exact Or.inl rfl
  · cases reverse with
    | false =>
      rw [if_neg (mt (merged_and hc false).mp Bool.false_ne_true)]
      rfl
    | true =>
      rw [if_pos ((merged_and hc true).mpr rfl)]
      rfl

/-- The pass wakes a task exactly when its own busy-wait would stop. -/
lemma wakeCondition_iff : WakeCondition s k ↔ Hibernating (s.state k) ∧
    StopsWaiting s.mem (s.op1 k) (s.op2 k) (s.hibValue k) (reversed (s.state k)) := by
  rw [stopsWaiting_iff, Waits, WakeCondition, Hibernating, elapsed]
  cases hst : s.state k <;> simp [reversed]

def Woke (s t : KernelState) (k : ℕ) : Prop :=
  WakeCondition s k ∧ t.state k = .sleep ∧ s.prioCurrent k = s.maxLevel

instance (s t : KernelState) : DecidablePred (Woke s t) :=
  fun _ => inferInstanceAs (Decidable (_ ∧ _ ∧ _))

structure Counted (B : Build) (s t : KernelState) : Prop where
  wakes : Wakes s t
  sum : uint8 (t.alc + t.hlc) = uint8 (s.alc + s.hlc)
  hlc : uint8 (t.hlc + count B.maxTaskCount (Woke s t)) = uint8 s.hlc
  -- without a wrap
  exact : s.hlc < 256 → count B.maxTaskCount (Woke s t) ≤ s.hlc →
    t.hlc + count B.maxTaskCount (Woke s t) = s.hlc

lemma Counted.refl (s : KernelState) : Counted B s s := by
  have hnone : count B.maxTaskCount (Woke s s) = 0 :=
    count_eq_zero_iff.mpr fun k _ hk => WakeCondition.ne_sleep hk.1 hk.2.1
  refine ⟨Wakes.refl s, rfl, ?_, ?_⟩ <;> rw [hnone, Nat.add_zero]
  exact fun _ _ => rfl

lemma woke_wakeSlot (hw : WakeCondition t k) {j : ℕ} (hne : j ≠ k) :
    Woke s t j ↔ Woke s (wakeSlot t k) j := by
  rw [Woke, Woke, wakeSlot_state hw, update_of_ne hne]

lemma Counted.wake (h : Counted B s t) (hk : k < B.maxTaskCount) : Counted B s (wakeSlot t k) := by
  by_cases hw : WakeCondition t k
  swap
  · rwa [wakeSlot_skip hw]
  have hframe : t.prioCurrent k = s.prioCurrent k ∧ t.maxLevel = s.maxLevel := by
    obtain ⟨⟨st, a, c, rfl⟩, -⟩ := h.wakes
    exact ⟨rfl, rfl⟩
  obtain ⟨hprio, hlevel⟩ := hframe
  have hsum := h.sum
  have hhlc := h.hlc
  have hexact := h.exact
  by_cases hp : s.prioCurrent k = s.maxLevel
  · have hcount := count_insert (p := Woke s t) (q := Woke s (wakeSlot t k)) hk
      (fun hwoke => WakeCondition.ne_sleep hw hwoke.2.1)
      ⟨h.wakes.condition hw, by rw [wakeSlot_state hw, update_self], hp⟩
      fun j _ hne => woke_wakeSlot hw hne
    have hboth : WakeCondition t k ∧ t.prioCurrent k = t.maxLevel := ⟨hw, by rw [hprio, hlevel, hp]⟩
    have hnew : (wakeSlot t k).hlc = uint8 (t.hlc + 255) ∧ (wakeSlot t k).alc = uint8 (t.alc + 1) :=
      ⟨if_pos hboth, if_pos hboth⟩
    refine ⟨h.wakes.wakeSlot k, ?_, ?_, fun hlt hle => ?_⟩
    · rw [hnew.1, hnew.2]
      unfold uint8 at *
      omega
    · rw [hnew.1, hcount]
      unfold uint8 at *
      omega
    · rw [hcount] at hle
      have hold := hexact hlt (by omega)
      rw [hnew.1, hcount]
      unfold uint8
      omega
  · have hcount : count B.maxTaskCount (Woke s (wakeSlot t k)) = count B.maxTaskCount (Woke s t) := by
      refine count_congr fun j _ => ?_
      rcases eq_or_ne j k with rfl | hne
      · exact iff_of_false (fun hj => hp hj.2.2) fun hj => hp hj.2.2
      · exact (woke_wakeSlot hw hne).symm
    have hnot : ¬ (WakeCondition t k ∧ t.prioCurrent k = t.maxLevel) := by
      rw [hprio, hlevel]
      exact fun hboth => hp hboth.2
    have hnew : (wakeSlot t k).hlc = t.hlc ∧ (wakeSlot t k).alc = t.alc := ⟨if_neg hnot, if_neg hnot⟩
    refine ⟨h.wakes.wakeSlot k, ?_, ?_, ?_⟩
    · rw [hnew.1, hnew.2, hsum]
    · rw [hnew.1, hcount, hhlc]
    · rw [hnew.1, hcount]
      exact hexact

def Passes (B : Build) (s w : KernelState) (ks : List ℕ) : Prop :=
  ∃ n, runLoop (traced Prod.snd (wakeTurn B)) n ((s, uint8 s.nextTask), []) = some (w, ks)

lemma passes_lap (hr : RingFrom (hop s) (Live B s) s.nextTask) : ∃ w ks, Passes B s w ks ∧
    ks.Nodup ∧ ∀ k, k ∈ ks ↔ Live B s k := by
  have hnext : uint8 s.nextTask = s.nextTask :=
    uint8_eq (hr.start.1.trans_le (B.maxTaskCount_le.trans (by norm_num)))
  have halong := wake_along hr
  have hturn : ∀ j, j + 1 < minimalPeriod (hop s) s.nextTask → (hop s)^[j + 1] s.nextTask ≠ s.nextTask := by
    intro j hj he
    rw [position_eq_start_iff, Nat.mod_eq_of_lt hj] at he
    cases he
  have hwalk := traced_walk (f := Prod.snd) hr.length_pos
    (fun j hj => halong.again j id (hturn j hj))
    (r := wakeAlong s (minimalPeriod (hop s) s.nextTask))
    (fun j hj => by
      rw [← hj]
      exact halong.leave j id (hj ▸ iterate_minimalPeriod))
  refine ⟨_, _, ⟨_, by rw [hnext]; exact hwalk⟩, ?_, fun k => ?_⟩
  · refine List.Nodup.map_on ?_ List.nodup_range
    intro i hi j hj he
    exact iterate_injOn_Iio_minimalPeriod (List.mem_range.mp hi) (List.mem_range.mp hj) he
  · simp only [List.mem_map, List.mem_range]
    constructor
    · rintro ⟨i, -, rfl⟩
      exact hr.position i
    · intro hk
      obtain ⟨i, hi, rfl⟩ := hr.index hk
      exact ⟨i, hi, rfl⟩

def Changed (s w : KernelState) (k : ℕ) : Prop := w.state k ≠ s.state k

instance (s w : KernelState) : DecidablePred (Changed s w) :=
  fun _ => inferInstanceAs (Decidable (_ ≠ _))

/-- Its busy-wait would stop. -/
def Due (s : KernelState) (k : ℕ) : Prop := Hibernating (s.state k) ∧
  StopsWaiting s.mem (s.op1 k) (s.op2 k) (s.hibValue k) (reversed (s.state k))

structure PassSpec (B : Build) (s w : KernelState) (ks : List ℕ) : Prop where
  nodup : ks.Nodup
  examined : ∀ k, k ∈ ks ↔ Live B s k
  frame : ∃ st a h, w = { s with state := st, alc := a, hlc := h }
  changed : ∀ k < B.maxTaskCount, Changed s w k ↔ Due s k
  woken : ∀ k < B.maxTaskCount, Changed s w k → w.state k = .sleep
  sum : uint8 (w.alc + w.hlc) = uint8 (s.alc + s.hlc)
  hlc : uint8 (w.hlc + count B.maxTaskCount fun k => Changed s w k ∧ s.prioCurrent k = s.maxLevel) =
    uint8 s.hlc
  exact : s.hlc < 256 →
    (count B.maxTaskCount fun k => Changed s w k ∧ s.prioCurrent k = s.maxLevel) ≤ s.hlc →
      w.hlc + (count B.maxTaskCount fun k => Changed s w k ∧ s.prioCurrent k = s.maxLevel) = s.hlc

lemma changed_iff (hw : Woken B s w) : Changed s w k ↔ WakeCondition s k ∧ w.state k = .sleep := by
  constructor
  · intro hne
    exact (hw.slot k).resolve_left hne
  · rintro ⟨hc, hst⟩ he
    exact WakeCondition.ne_sleep hc (he.symm.trans hst)

lemma woken_spec {n : ℕ} {ks : List ℕ} (hw : Woken B s w)
    (hrun : runLoop (wakeTurn B) n (s, k) = some w) (hnodup : ks.Nodup)
    (hks : ∀ k, k ∈ ks ↔ Live B s k) : PassSpec B s w ks := by
  have hcounted : Counted B s w :=
    wake_pass_invariant (fun _ _ hk ht => ht.wake hk) (Counted.refl s) hrun
  have hdue : ∀ k < B.maxTaskCount, WakeCondition s k → w.state k = .sleep :=
    fun k hk hc => (hw.sleep_iff ⟨hk, WakeCondition.ne_idle hc⟩).mpr (Or.inr hc)
  have hcount : (count B.maxTaskCount fun k => Changed s w k ∧ s.prioCurrent k = s.maxLevel) =
      count B.maxTaskCount (Woke s w) := by
    refine count_congr fun k hk => ?_
    rw [changed_iff hw, Woke, and_assoc]
  have hhlc := hcounted.hlc
  have hexact := hcounted.exact
  rw [← hcount] at hhlc hexact
  refine ⟨hnodup, hks, hw.frame, fun k hk => ?_, fun k hk hc => ?_, hcounted.sum, hhlc, hexact⟩
  · rw [changed_iff hw, Due, ← wakeCondition_iff]
    exact and_iff_left_of_imp (hdue k hk)
  · exact ((changed_iff hw).mp hc).2

/-- The pass ends, in one way, and wakes the tasks whose busy-wait would stop. -/
theorem wake_pass_busy_wait (hr : RingFrom (hop s) (Live B s) s.nextTask) :
    ∃ w, (∀ v, (∃ n, runLoop (wakeTurn B) n (s, uint8 s.nextTask) = some v) ↔ v = w) ∧
      ∃ ks, Passes B s w ks ∧ PassSpec B s w ks := by
  have hnext : uint8 s.nextTask = s.nextTask :=
    uint8_eq (hr.start.1.trans_le (B.maxTaskCount_le.trans (by norm_num)))
  obtain ⟨w, hw, huniq⟩ := wake_pass hr
  obtain ⟨v, ks, ⟨n, hpass⟩, hnodup, hks⟩ := passes_lap hr
  have hrun : runLoop (wakeTurn B) n (s, s.nextTask) = some v := hnext ▸ traced_fst hpass
  obtain rfl := (huniq v).mp ⟨n, hrun⟩
  rw [hnext]
  exact ⟨v, huniq, ks, ⟨n, hpass⟩, woken_spec hw hrun hnodup hks⟩

section Instances

def threeSlots : Build := Build.three

/-- The words watched by slot 1 differ by 5, those watched by slot 2 by -1. -/
def dormant : KernelState :=
  { reset threeSlots (fun a => if a = 100 then 5 else if a = 201 then 1 else 0)
      (fun _ => ⟨0, 0, 0, 0, 0, 0, 0, 0⟩) (fun _ => 0) with
    maxLevel := 5
    hlc := 2
    prioCurrent := fun k => if k = 0 then 0 else 5
    jmpList := fun k => if k = 2 then -2 else 1
    state := fun k => if 3 ≤ k then .idle else if k = 1 then .hibernateG else if k = 2 then .hibernateL
      else .sleep
    op1 := fun k => 100 * k
    op2 := fun k => 100 * k + 1
    hibValue := fun _ => 5 }

lemma dormant_ring : RingFrom (hop dormant) (Live threeSlots dormant) dormant.nextTask :=
  .of_positions (n := 3) (b := 3) (by decide) rfl (fun _ hk => hk.1) (by decide) (by decide)

theorem wake_pass_busy_wait_dormant : ∃ w ks, Passes threeSlots dormant w ks ∧ w.state 1 = .sleep ∧
    w.state 2 = .hibernateL := by
  obtain ⟨w, -, ks, hpass, hspec⟩ := wake_pass_busy_wait dormant_ring
  have hone : Due dormant 1 := ⟨Or.inl rfl, stopsWaiting_iff.mpr (by decide)⟩
  have htwo : ¬ Due dormant 2 := fun h => stopsWaiting_iff.mp h.2 (by decide)
  refine ⟨w, ks, hpass, hspec.woken 1 (by decide) ((hspec.changed 1 (by decide)).mpr hone), ?_⟩
  exact not_not.mp (mt (hspec.changed 2 (by decide)).mp htwo)

end Instances

end Skibios.Scheduling.WakePass
