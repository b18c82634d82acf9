import Skibios.Kernel.Effects
import Skibios.Library.Counting

/-! The task table and the phase the kernel is in, over every step of a running system. -/

namespace Skibios.Tasks.Invariants

open Function Library.Words Library.Loops Library.Rings Library.Counting Library.Runs
open Kernel State TaskServices Services Scheduler SchedulerLoops Events Effects

variable {B : Build} {s t : KernelState} {e : Event} {i k : ℕ}

/-- The ring runs through the live slots in increasing order, an idle slot has jump 0, and the
per-slot records and the count agree with the states. -/
structure Table (B : Build) (s : KernelState) : Prop where
  base : Live B s 0
  ring : Sorted (Live B s) (hop s)
  jumps : ∀ k < B.maxTaskCount, -128 ≤ s.jmpList k ∧ s.jmpList k ≤ 127
  free : ∀ k < B.maxTaskCount, s.state k = .idle → s.jmpList k = 0
  objects : ∀ k < B.maxTaskCount, s.taskObj k ≠ 0 ↔ s.state k ≠ .idle
  ids : ∀ k < B.maxTaskCount, s.taskId k ≠ 0 ↔ s.state k ≠ .idle
  counted : s.taskCount = count B.maxTaskCount (fun k => s.state k ≠ .idle)
  total : s.totalTaskCount < 65536

/-- Who runs: in thread mode the current task, which is `next_task` and the only one that may be
ACTIVE; nobody once the scheduler is pending; the pick between the scheduler and the switch. -/
structure Phase (B : Build) (s : KernelState) : Prop where
  flags : s.schedulerPending = !s.normalSchedule
  apart : s.schedulerPending = true → s.switchPending = false
  selfKill : s.selfKill = false
  dws : s.enableDws = true
  next : Live B s s.nextTask
  single : ∀ k < B.maxTaskCount, s.state k = .active → k = s.nextTask
  pending : s.schedulerPending = true → ∀ k < B.maxTaskCount, s.state k ≠ .active
  switching : s.switchPending = true → s.state s.nextTask = .active
  current : s.switchPending = false → Live B s s.currentTask → s.currentTask = s.nextTask
  running : InThread s → Live B s s.currentTask
  awake : InThread s → s.state s.currentTask = .active ∨ s.state s.currentTask = .sleep

/-- What the callers of the kernel promise: task objects set up by `task_init`, a scheduler started
by the boot thread, no kill of the base task or of the caller, and an end only by a task whose id
carries its own slot. -/
def Regular (B : Build) (s : KernelState) : Event → Prop
  | .createTask p _ => p ≠ 0 ∧ (s.objs p).hibernate &&& hibernateStateMask ≠ hibernateStateMask
  | .startScheduler => s.currentTask = 0
  | .killTask pid =>
    Live B s (slotNumber pid) ∧ slotNumber pid ≠ 0 ∧ slotNumber pid ≠ s.currentTask
  | .endTask => s.currentTask ≠ 0 ∧ slotNumber (s.taskId s.currentTask) = s.currentTask
  | _ => True

instance (s : KernelState) (e : Event) : Decidable (Regular B s e) :=
  match e with
  | .createTask _ _ => inferInstanceAs (Decidable (_ ∧ _))
  | .startScheduler => inferInstanceAs (Decidable (_ = _))
  | .killTask _ => inferInstanceAs (Decidable (_ ∧ _ ∧ _))
  | .endTask => inferInstanceAs (Decidable (_ ∧ _))
  | .hibernate .. | .handOver | .invokeBase _ | .releaseBase _ | .grantPermission .. | .promote _
  | .mutexLock _ | .clearMutex _ | .unlockTest _ | .store .. | .fillTask .. | .tick | .scheduler
  | .contextSwitch => isTrue trivial

lemma update_idle_iff {st : ℕ → TaskState} {v : TaskState} (hi : st i ≠ .idle) (hv : v ≠ .idle)
    (k : ℕ) : update st i v k = .idle ↔ st k = .idle := by
  rcases eq_or_ne k i with rfl | hk
  · simp [hi, hv]
  · rw [update_of_ne hk]

lemma dropped_live {f : Bool} {ptr : ℕ} {stash : ℕ → ℕ} :
    Live B (dropTask B s i f ptr stash) k ↔ Live B s k ∧ k ≠ i := by
  change _ ∧ update s.state i .idle k ≠ .idle ↔ _
  rcases eq_or_ne k i with rfl | hne
  · simp
  · simp [hne, Live]

namespace Table

lemma jump (h : Table B s) (hk : Live B s k) : (k : ℤ) + s.jmpList k = hop s k := by
  have hlt := (h.ring k hk).mem.1
  have hN := B.maxTaskCount_le
  obtain ⟨h1, h2⟩ := h.jumps k hk.1
  have hkN := hk.1
  unfold hop at hlt ⊢
  omega

lemma ringFrom (h : Table B s) (hk : Live B s k) : RingFrom (hop s) (Live B s) k :=
  h.ring.ring (fun _ hj => hj.1) hk

lemma keep (h : Table B s) (hs : ∀ k < B.maxTaskCount, t.state k = .idle ↔ s.state k = .idle)
    (hj : t.jmpList = s.jmpList) (ho : t.taskObj = s.taskObj) (hi : t.taskId = s.taskId)
    (hc : t.taskCount = s.taskCount) (ht : t.totalTaskCount = s.totalTaskCount) : Table B t := by
  have hlive : ∀ k, Live B s k ↔ Live B t k :=
    fun k => and_congr_right fun hk => not_congr (hs k hk).symm
  refine ⟨(hlive 0).mp h.base, ?_, hj ▸ h.jumps, ?_, ?_, ?_, ?_, ht ▸ h.total⟩
  · intro k hk
    have hhop : hop t k = hop s k := by simp [hop, hj]
    rw [hhop]
    exact (h.ring k ((hlive k).mpr hk)).congr hlive
  · intro k hk hi
    rw [hj]
    exact h.free k hk ((hs k hk).mp hi)
  · intro k hk
    rw [ho, h.objects k hk]
    exact not_congr (hs k hk).symm
  · intro k hk
    rw [hi, h.ids k hk]
    exact not_congr (hs k hk).symm
  · rw [hc, h.counted]
    exact count_congr fun k hk => not_congr (hs k hk).symm

lemma newTaskId_pos (hs : s.totalTaskCount < 65536) (hi : i < 128) : newTaskId s i ≠ 0 := by
  have hlt : i <<< 16 ||| (s.totalTaskCount + 1) < 2 ^ 32 := by
    refine Nat.or_lt_two_pow ?_ (by omega)
    rw [Nat.shiftLeft_eq]
    omega
  have hle : s.totalTaskCount + 1 ≤ i <<< 16 ||| (s.totalTaskCount + 1) := Nat.right_le_or
  rw [newTaskId, uint32_eq (by simpa using hlt)]
  omega

lemma idleSlot_idle (hi : idleSlot B s < B.maxTaskCount) : s.state (idleSlot B s) = .idle := by
  simpa [idleSlot] using firstIndex_spec hi

lemma idleSlot_min (hk : k < idleSlot B s) (hi : idleSlot B s < B.maxTaskCount) : Live B s k :=
  ⟨hk.trans hi, by simpa using firstIndex_min hk⟩

lemma newState_eq {p : ℕ} (h : (s.objs p).hibernate &&& hibernateStateMask ≠ hibernateStateMask) :
    newState s p i = update s.state i .sleep := by
  rw [newState, if_pos h]

lemma filled_live {p arg ptr : ℕ} {stash : ℕ → ℕ}
    (hib : (s.objs p).hibernate &&& hibernateStateMask ≠ hibernateStateMask)
    (hi : idleSlot B s < B.maxTaskCount) :
    Live B (fillSlot B s p arg ptr stash) k ↔ Live B s k ∨ k = idleSlot B s := by
  have hst : (fillSlot B s p arg ptr stash).state = update s.state (idleSlot B s) .sleep :=
    newState_eq hib
  unfold Live
  rw [hst]
  rcases eq_or_ne k (idleSlot B s) with rfl | hk
  · simp [hi]
  · simp [hk]

lemma idleSlot_pos (h : Table B s) (hi : idleSlot B s < B.maxTaskCount) : idleSlot B s ≠ 0 :=
  fun h0 => h.base.2 (h0 ▸ idleSlot_idle hi)

lemma filled_jmpList (h : Table B s) (p arg ptr : ℕ) (stash : ℕ → ℕ)
    (hi : idleSlot B s < B.maxTaskCount) : (fillSlot B s p arg ptr stash).jmpList =
      update (update s.jmpList (idleSlot B s) (s.jmpList (idleSlot B s - 1) - 1))
        (idleSlot B s - 1) 1 := by
  have hN := B.maxTaskCount_le
  have hi0 := h.idleSlot_pos hi
  have hpred : Live B s (idleSlot B s - 1) := idleSlot_min (by omega) hi
  have hjump := h.jump hpred
  have hhop := (h.ring _ hpred).mem.1
  set i := idleSlot B s
  change linkSlot s.jmpList i = _
  rw [linkSlot, if_neg hi0, show ((i : ℤ) - ((i - 1 : ℕ) : ℤ)) = 1 by omega,
    int8_eq (by omega) (by omega), int8_eq (by omega) (by omega)]

lemma filled_hop (h : Table B s) (p arg ptr : ℕ) (stash : ℕ → ℕ)
    (hi : idleSlot B s < B.maxTaskCount) : hop (fillSlot B s p arg ptr stash) =
      update (update (hop s) (idleSlot B s) (hop s (idleSlot B s - 1)))
        (idleSlot B s - 1) (idleSlot B s) := by
  have hjmp := h.filled_jmpList p arg ptr stash hi
  have hi0 := h.idleSlot_pos hi
  have hN := B.maxTaskCount_le
  set i := idleSlot B s
  funext k
  simp only [hop, hjmp]
  rcases eq_or_ne k (i - 1) with rfl | hk
  · rw [update_self, update_self]
    omega
  rw [update_of_ne hk, update_of_ne hk]
  rcases eq_or_ne k i with rfl | hki
  · rw [update_self, update_self]
    congr 2
    omega
  · rw [update_of_ne hki, update_of_ne hki]
    rfl

lemma fill (h : Table B s) {p arg ptr : ℕ} {stash : ℕ → ℕ} (hp : p ≠ 0)
    (hib : (s.objs p).hibernate &&& hibernateStateMask ≠ hibernateStateMask)
    (hi : idleSlot B s < B.maxTaskCount) : Table B (fillSlot B s p arg ptr stash) := by
  have hlive : ∀ k, Live B (fillSlot B s p arg ptr stash) k ↔ Live B s k ∨ k = idleSlot B s :=
    fun _ => filled_live hib hi
  have hjmp := h.filled_jmpList p arg ptr stash hi
  have hf := h.filled_hop p arg ptr stash hi
  have hst : (fillSlot B s p arg ptr stash).state = update s.state (idleSlot B s) .sleep :=
    newState_eq hib
  have hidle : s.state (idleSlot B s) = .idle := idleSlot_idle hi
  have hN := B.maxTaskCount_le
  have hi0 := h.idleSlot_pos hi
  have hpred : Live B s (idleSlot B s - 1) := idleSlot_min (by omega) hi
  have hjump := h.jump hpred
  have hhop := (h.ring _ hpred).mem.1
  have hbound := h.jumps (idleSlot B s - 1) hpred.1
  set i := idleSlot B s
  refine ⟨(hlive 0).mpr (Or.inl h.base), ?_, ?_, ?_, ?_, ?_, ?_, uint16_lt _⟩
  · rw [hf]
    intro k hk
    refine (h.ring.insert hpred (by omega) ?_ k ((hlive k).mp hk)).congr fun j => (hlive j).symm
    intro j h1 h2 hj
    obtain rfl : j = i := by omega
    exact hj.2 hidle
  · intro k hk
    rw [hjmp]
    rcases eq_or_ne k (i - 1) with rfl | hk1
    · simp
    rw [update_of_ne hk1]
    rcases eq_or_ne k i with rfl | hki
    · rw [update_self]
      omega
    · rw [update_of_ne hki]
      exact h.jumps k hk
  · intro k hk hki
    rw [hst] at hki
    rcases eq_or_ne k i with rfl | hne
    · simp at hki
    rw [update_of_ne hne] at hki
    have hne' : k ≠ i - 1 := fun he => hpred.2 (by rwa [← he])
    rw [hjmp, update_of_ne hne', update_of_ne hne]
    exact h.free k hk hki
  · intro k hk
    rw [hst]
    change update s.taskObj i p k ≠ 0 ↔ _
    rcases eq_or_ne k i with rfl | hne
    · simp [hp]
    · rw [update_of_ne hne, update_of_ne hne]
      exact h.objects k hk
  · intro k hk
    rw [hst]
    change update s.taskId i (newTaskId s i) k ≠ 0 ↔ _
    rcases eq_or_ne k i with rfl | hne
    · simp [newTaskId_pos h.total (show i < 128 by omega)]
    · rw [update_of_ne hne, update_of_ne hne]
      exact h.ids k hk
  · have hle := count_le B.maxTaskCount (fun k => s.state k ≠ .idle)
    rw [hst]
    change uint16 (s.taskCount + 1) = _
    rw [h.counted, uint16_eq (by omega)]
    refine (count_insert hi (by simpa using hidle) (by simp) fun k _ hk => ?_).symm
    rw [update_of_ne hk]

lemma predecessor_spec (h : Table B s) (hi : Live B s i) (h0 : i ≠ 0) :
    Live B s (predecessor s i) ∧ predecessor s i < i ∧ hop s (predecessor s i) = i := by
  have hN := B.maxTaskCount_le
  have hiN := hi.1
  obtain ⟨p, hp, hpi, hpp⟩ :=
    h.ring.pred (n := B.maxTaskCount) (fun k hk => hk.1) h.base hi (Nat.pos_of_ne_zero h0)
  have hfound : decide ((i : ℤ) = p + s.jmpList p) = true := by
    have hjump := h.jump hp
    rw [hpp] at hjump
    simpa using hjump.symm
  have hlt : predecessor s i < i := (firstIndex_le_of hfound).trans_lt hpi
  have hspec : (i : ℤ) = predecessor s i + s.jmpList (predecessor s i) := by
    simpa [predecessor] using firstIndex_spec hlt
  have hlive : Live B s (predecessor s i) := by
    refine ⟨by omega, fun hidle => ?_⟩
    rw [h.free _ (by omega) hidle] at hspec
    omega
  refine ⟨hlive, hlt, ?_⟩
  have hjump := h.jump hlive
  omega

lemma unlinkPred_eq (h : Table B s) (hi : Live B s i) (h0 : i ≠ 0) : unlinkPred s i =
    update s.jmpList (predecessor s i) (s.jmpList (predecessor s i) + s.jmpList i) := by
  obtain ⟨hp, hpi, hpp⟩ := h.predecessor_spec hi h0
  have hj := h.jump hp
  have hji := h.jump hi
  have hnext := (h.ring i hi).mem.1
  have hN := B.maxTaskCount_le
  have hiN := hi.1
  rw [unlinkPred, int8_eq (by omega) (by omega)]

lemma dropped_jmpList (h : Table B s) (f : Bool) (ptr : ℕ) (stash : ℕ → ℕ) (hi : Live B s i)
    (h0 : i ≠ 0) : (dropTask B s i f ptr stash).jmpList = update (update s.jmpList
      (predecessor s i) (s.jmpList (predecessor s i) + s.jmpList i)) i 0 := by
  change update (unlinkPred s i) i 0 = _
  rw [h.unlinkPred_eq hi h0]

lemma dropped_hop (h : Table B s) (f : Bool) (ptr : ℕ) (stash : ℕ → ℕ) (hi : Live B s i)
    (h0 : i ≠ 0) (hk : k ≠ i) :
    hop (dropTask B s i f ptr stash) k = update (hop s) (predecessor s i) (hop s i) k := by
  obtain ⟨hp, -, hpp⟩ := h.predecessor_spec hi h0
  have hj := h.jump hp
  have hji := h.jump hi
  simp only [hop, h.dropped_jmpList f ptr stash hi h0, update_of_ne hk]
  rcases eq_or_ne k (predecessor s i) with rfl | hkp
  · rw [update_self, update_self]
    congr 2
    omega
  · rw [update_of_ne hkp, update_of_ne hkp]
    rfl

lemma drop (h : Table B s) {f : Bool} {ptr : ℕ} {stash : ℕ → ℕ} (hi : Live B s i) (h0 : i ≠ 0) :
    Table B (dropTask B s i f ptr stash) := by
  obtain ⟨hp, hpi, hpp⟩ := h.predecessor_spec hi h0
  have hj := h.jump hp
  have hji := h.jump hi
  have hnext := (h.ring i hi).mem.1
  have hN := B.maxTaskCount_le
  have hiN := hi.1
  have hst : (dropTask B s i f ptr stash).state = update s.state i .idle := rfl
  have hjmp := h.dropped_jmpList f ptr stash hi h0
  have hlive : ∀ k, Live B (dropTask B s i f ptr stash) k ↔ Live B s k ∧ k ≠ i :=
    fun _ => dropped_live
  refine ⟨(hlive 0).mpr ⟨h.base, h0.symm⟩, ?_, ?_, ?_, ?_, ?_, ?_, h.total⟩
  · intro k hk
    have hki := ((hlive k).mp hk).2
    rw [h.dropped_hop f ptr stash hi h0 hki]
    exact (h.ring.remove hp hpi hi hpp k ((hlive k).mp hk)).congr fun j => (hlive j).symm
  · intro k hk
    rw [hjmp]
    rcases eq_or_ne k i with rfl | hki
    · simp
    rw [update_of_ne hki]
    rcases eq_or_ne k (predecessor s i) with rfl | hkp
    · rw [update_self]
      omega
    · rw [update_of_ne hkp]
      exact h.jumps k hk
  · intro k hk hki
    rw [hjmp]
    rcases eq_or_ne k i with rfl | hne
    · exact update_self ..
    rw [hst, update_of_ne hne] at hki
    rw [update_of_ne hne, update_of_ne (fun he => hp.2 (by rwa [← he]))]
    exact h.free k hk hki
  · intro k hk
    rw [hst]
    change update s.taskObj i 0 k ≠ 0 ↔ _
    rcases eq_or_ne k i with rfl | hne
    · simp
    · rw [update_of_ne hne, update_of_ne hne]
      exact h.objects k hk
  · intro k hk
    rw [hst]
    change update s.taskId i 0 k ≠ 0 ↔ _
    rcases eq_or_ne k i with rfl | hne
    · simp
    · rw [update_of_ne hne, update_of_ne hne]
      exact h.ids k hk
  · have hle := count_le B.maxTaskCount (fun k => s.state k ≠ .idle)
    have hins := count_insert (p := fun k => update s.state i .idle k ≠ .idle)
      (q := fun k => s.state k ≠ .idle) hi.1 (by simp) hi.2 fun k _ hk => by rw [update_of_ne hk]
    rw [hst]
    change uint16 (s.taskCount + 65535) = _
    rw [h.counted, hins, uint16]
    omega

end Table

namespace Phase

lemma in_thread (h : Phase B s) (hth : InThread s) :
    s.currentTask = s.nextTask ∧ Live B s s.currentTask ∧ s.normalSchedule = true := by
  have hlive := h.running hth
  have hflags := h.flags
  rw [hth.1] at hflags
  exact ⟨h.current hth.2 hlive, hlive, by simpa using hflags.symm⟩

lemma keep (h : Phase B s) (hth : InThread s)
    (ha : ∀ k < B.maxTaskCount, t.state k = .active → s.state k = .active)
    (hst : t.state s.nextTask = s.state s.nextTask) (hnext : t.nextTask = s.nextTask)
    (hcur : t.currentTask = s.currentTask) (hd : t.enableDws = s.enableDws)
    (hk : t.selfKill = s.selfKill) (hf : t.normalSchedule = s.normalSchedule)
    (hp : t.schedulerPending = s.schedulerPending) (hq : t.switchPending = s.switchPending) :
    Phase B t := by
  have hc := (h.in_thread hth).1
  have hn : Live B t s.nextTask := ⟨h.next.1, hst ▸ h.next.2⟩
  refine ⟨by rw [hp, hf, h.flags], fun hs => ?_, hk.trans h.selfKill, hd.trans h.dws, hnext ▸ hn,
    fun k hk hs => hnext ▸ h.single k hk (ha k hk hs), fun hs => ?_, fun hs => ?_, fun _ _ => ?_,
    fun _ => ?_, fun _ => ?_⟩
  · rw [hq, hth.2]
  · rw [hp, hth.1] at hs
    cases hs
  · rw [hq, hth.2] at hs
    cases hs
  · rw [hcur, hnext, hc]
  · rwa [hcur, hc]
  · rw [hcur, hc, hst, ← hc]
    exact h.awake hth

lemma park (h : Phase B s) (hth : InThread s) (ha : ∀ k < B.maxTaskCount, t.state k ≠ .active)
    (hl : ∀ k < B.maxTaskCount, t.state k = .idle ↔ s.state k = .idle)
    (hnext : t.nextTask = s.nextTask) (hcur : t.currentTask = s.currentTask)
    (hd : t.enableDws = s.enableDws) (hk : t.selfKill = false) (hf : t.normalSchedule = false)
    (hp : t.schedulerPending = true) (hq : t.switchPending = s.switchPending) : Phase B t := by
  obtain ⟨hc, hlive, -⟩ := h.in_thread hth
  have hkeep : ∀ k, Live B s k → Live B t k :=
    fun k hk => ⟨hk.1, fun hi => hk.2 ((hl k hk.1).mp hi)⟩
  refine ⟨by rw [hp, hf]; rfl, fun _ => hq.trans hth.2, hk, hd.trans h.dws, hnext ▸ hkeep _ h.next,
    fun k hk hs => absurd hs (ha k hk), fun _ => ha, fun hs => ?_, fun _ _ => ?_, fun hs => ?_,
    fun hs => ?_⟩
  · rw [hq, hth.2] at hs
    cases hs
  · rw [hcur, hnext, hc]
  all_goals
    rw [InThread, hp] at hs
    cases hs.1

lemma park_current (h : Phase B s) (hth : InThread s) {v : TaskState} (hv : v ≠ .active)
    {st : ℕ → TaskState} (hst : ∀ k, st k = .active → s.state k = .active) :
    ∀ k < B.maxTaskCount, update st s.currentTask v k ≠ .active := by
  intro k hk
  rcases eq_or_ne k s.currentTask with rfl | hne
  · rwa [update_self]
  · rw [update_of_ne hne]
    intro hs
    exact hne ((h.single k hk (hst k hs)).trans (h.in_thread hth).1.symm)

end Phase

structure Consistent (B : Build) (s : KernelState) : Prop extends Table B s, Phase B s

namespace Consistent

lemma live_enter (h : Consistent B s) (hq : s.switchPending = false) :
    Live B (enterScheduler s) k ↔ Live B s k := by
  refine SchedulerLoops.live_enter fun hn => h.running ⟨?_, hq⟩
  simpa [hn] using h.flags

lemma enter_inactive (h : Consistent B s) (hq : s.switchPending = false)
    (hk : k < B.maxTaskCount) : (enterScheduler s).state k ≠ .active := by
  cases hp : s.schedulerPending with
  | false =>
    have hn := (h.in_thread ⟨hp, hq⟩).2.2
    simp only [enterScheduler, hn, if_true]
    exact h.park_current ⟨hp, hq⟩ (by decide) (fun _ hs => hs) k hk
  | true =>
    have hn : s.normalSchedule = false := by simpa [hp] using h.flags
    simpa [enterScheduler, hn] using h.pending hp k hk

variable {w : KernelState} {c : Selection}

lemma pick_live (h : Consistent B s) (hq : s.switchPending = false) (hs : Scheduled B s w c) :
    Live B w c.next := by
  have hw := hs.wakes
  have hlive : ∀ k, Live B s k ↔ Live B w k :=
    fun k => (h.live_enter hq).symm.trans hw.live.symm
  have hhop : hop w = hop s := hw.hop
  obtain ⟨n, hn⟩ := hs.selected
  have hnext : w.nextTask = s.nextTask := by
    obtain ⟨⟨st, a, b, he⟩, -⟩ := hw
    rw [he]
    rfl
  refine select_live ?_ ?_ hn
  · intro k hk
    rw [hhop]
    exact (h.ring k ((hlive k).mpr hk)).congr hlive
  · rw [hnext]
    exact (hlive _).mp h.next

lemma scheduled (h : Consistent B s) (hq : s.switchPending = false) (hs : Scheduled B s w c) :
    Consistent B (leaveScheduler w c) := by
  have hpick := h.pick_live hq hs
  have hw := hs.wakes
  have hidle : ∀ k < B.maxTaskCount, w.state k = .idle ↔ s.state k = .idle := by
    intro k hk
    have hlive : Live B w k ↔ Live B s k := hw.live.trans (h.live_enter hq)
    simpa [Live, hk] using not_congr hlive
  obtain ⟨⟨st, a, b, hframe⟩, hslot⟩ := hw
  have hinactive : ∀ k < B.maxTaskCount, w.state k ≠ .active := by
    intro k hk
    rcases hslot k with hk' | ⟨_, hk'⟩ <;> rw [hk']
    · exact h.enter_inactive hq hk
    · decide
  refine ⟨h.keep (fun k hk => (update_idle_iff hpick.2 (by decide) k).trans (hidle k hk))
    (by rw [hframe]; rfl) (by rw [hframe]; rfl) (by rw [hframe]; rfl) (by rw [hframe]; rfl)
    (by rw [hframe]; rfl), ?_⟩
  refine ⟨?_, ?_, ?_, ?_, ?_, fun k hk ha => ?_, ?_, fun _ => update_self .., ?_, ?_, ?_⟩
  · rw [hframe]; rfl
  · rw [hframe]; intro hp; cases hp
  · rw [hframe]; exact h.selfKill
  · rw [hframe]; exact h.dws
  · exact ⟨hpick.1, by simp [leaveScheduler]⟩
  · by_contra hne
    have ha' : update w.state c.next .active k = .active := ha
    have hne' : k ≠ c.next := hne
    rw [update_of_ne hne'] at ha'
    exact hinactive k hk ha'
  · rw [hframe]; intro hp; cases hp
  · intro hp; cases hp
  · intro hp; cases hp.2
  · intro hp; cases hp.2

lemma keep (h : Consistent B s) (hs : t.state = s.state) (hj : t.jmpList = s.jmpList)
    (ho : t.taskObj = s.taskObj) (hi : t.taskId = s.taskId) (hc : t.taskCount = s.taskCount)
    (ht : t.totalTaskCount = s.totalTaskCount) (hnext : t.nextTask = s.nextTask)
    (hcur : t.currentTask = s.currentTask) (hd : t.enableDws = s.enableDws)
    (hk : t.selfKill = s.selfKill) (hf : t.normalSchedule = s.normalSchedule)
    (hp : t.schedulerPending = s.schedulerPending) (hq : t.switchPending = s.switchPending) :
    Consistent B t := by
  refine ⟨h.toTable.keep (fun k _ => by rw [hs]) hj ho hi hc ht, ?_⟩
  obtain ⟨h1, h2, h3, h4, h5, h6, h7, h8, h9, h10, h11⟩ := h.toPhase
  constructor
  all_goals
    simp only [Live, InThread, hs, hnext, hcur, hd, hk, hf, hp, hq] at *
    assumption

lemma handOver (h : Consistent B s) (hth : InThread s) : Consistent B (handOverState s) := by
  have hst : (handOverState s).state = update s.state s.currentTask .sleep := by
    simp [handOverState, h.selfKill]
  have hidle := update_idle_iff (v := .sleep) (h.in_thread hth).2.1.2 (by decide)
  refine ⟨h.toTable.keep (fun k _ => hst ▸ hidle k) rfl rfl rfl rfl rfl, ?_⟩
  refine h.park hth ?_ (fun k _ => hst ▸ hidle k) rfl rfl rfl rfl rfl rfl rfl
  rw [hst]
  exact h.park_current hth (by decide) fun _ hs => hs

lemma hibernate (h : Consistent B s) (hth : InThread s) (n a b v : ℕ) :
    Consistent B (hibernateState s n a b v) := by
  obtain ⟨x, hx, hst⟩ : ∃ x : TaskState, (x ≠ .active ∧ x ≠ .idle) ∧
      (hibernateState s n a b v).state = update s.state s.currentTask x := by
    refine ⟨_, ?_, rfl⟩
    split <;> decide
  have hidle := update_idle_iff (h.in_thread hth).2.1.2 hx.2
  refine ⟨h.toTable.keep (fun k _ => hst ▸ hidle k) rfl rfl rfl rfl rfl, ?_⟩
  refine h.park hth ?_ (fun k _ => hst ▸ hidle k) rfl rfl rfl h.selfKill rfl rfl rfl
  rw [hst]
  exact h.park_current hth hx.1 fun _ hs => hs

lemma promote (h : Consistent B s) (hth : InThread s) (m i : ℕ) :
    Consistent B (promoteSlot s m i) := by
  have hidle := update_idle_iff (v := .hold) (h.in_thread hth).2.1.2 (by decide)
  refine ⟨h.toTable.keep (fun k _ => hidle k) rfl rfl rfl rfl rfl, ?_⟩
  refine h.park hth ?_ (fun k _ => hidle k) rfl rfl rfl h.selfKill rfl rfl rfl
  exact h.park_current hth (by decide) fun _ hs => hs

lemma waiter_hold {m : ℕ} (hw : waiter B s m < B.maxTaskCount) :
    s.state (waiter B s m) = .hold ∧ s.op1 (waiter B s m) = m := by
  simpa [waiter] using firstIndex_spec hw

lemma demote_idle_iff (s : KernelState) (k : ℕ) :
    (demoteCurrent B s).state k = .idle ↔ s.state k = .idle := by
  simp only [demoteCurrent]
  split
  · rename_i hw
    exact update_idle_iff (by rw [(waiter_hold hw).1]; decide) (by decide) k
  · rfl

lemma demote_active (s : KernelState) {k : ℕ} (hk : (demoteCurrent B s).state k = .active) :
    s.state k = .active := by
  simp only [demoteCurrent] at hk
  split at hk
  · rcases eq_or_ne k (waiter B s (s.mutexStash s.currentTask)) with rfl | hne
    · simp at hk
    · rwa [update_of_ne hne] at hk
  · exact hk

lemma demote (h : Consistent B s) (hth : InThread s) : Consistent B (demoteCurrent B s) := by
  have hidle := demote_idle_iff (B := B) s
  have hnext : (demoteCurrent B s).state s.nextTask = s.state s.nextTask := by
    simp only [demoteCurrent]
    split
    · rename_i hw
      refine update_of_ne (fun heq => ?_) _ _
      have hhold := (waiter_hold hw).1
      rw [← heq, ← (h.in_thread hth).1] at hhold
      rcases h.awake hth with ha | ha <;> rw [hhold] at ha <;> cases ha
    · rfl
  refine ⟨h.toTable.keep (fun k _ => hidle k) ?_ ?_ ?_ ?_ ?_,
    h.toPhase.keep hth (fun k _ hk => demote_active s hk) hnext ?_ ?_ ?_ ?_ ?_ ?_ ?_⟩ <;>
  dsimp only [demoteCurrent]

lemma created (h : Consistent B s) (hth : InThread s) {p arg ptr : ℕ} {stash : ℕ → ℕ} (hp : p ≠ 0)
    (hib : (s.objs p).hibernate &&& hibernateStateMask ≠ hibernateStateMask)
    (hi : idleSlot B s < B.maxTaskCount) : Consistent B (fillSlot B s p arg ptr stash) := by
  have hst : (fillSlot B s p arg ptr stash).state = update s.state (idleSlot B s) .sleep :=
    Table.newState_eq hib
  refine ⟨h.fill hp hib hi, h.toPhase.keep hth (fun k _ hk => ?_) ?_ rfl rfl rfl rfl
    rfl rfl rfl⟩
  · rw [hst] at hk
    rcases eq_or_ne k (idleSlot B s) with rfl | hne
    · simp at hk
    · rwa [update_of_ne hne] at hk
  · have hne : s.nextTask ≠ idleSlot B s := fun he =>
      h.next.2 (by rw [he]; exact Table.idleSlot_idle hi)
    rw [hst, update_of_ne hne]

lemma killed (h : Consistent B s) (hth : InThread s) {ptr : ℕ} {stash : ℕ → ℕ}
    (hi : Live B s i) (h0 : i ≠ 0) (hc : i ≠ s.currentTask) :
    Consistent B (dropTask B s i s.selfKill ptr stash) := by
  have hcur := (h.in_thread hth).1
  have hst : (dropTask B s i s.selfKill ptr stash).state = update s.state i .idle := rfl
  refine ⟨h.drop hi h0, h.toPhase.keep hth (fun k _ hk => ?_) ?_ ?_ rfl rfl rfl
    rfl rfl rfl⟩
  · rw [hst] at hk
    rcases eq_or_ne k i with rfl | hne
    · simp at hk
    · rwa [update_of_ne hne] at hk
  · rw [hst, update_of_ne (hcur ▸ hc.symm)]
  · simp [dropTask, h.selfKill]

lemma ended (h : Consistent B s) (hth : InThread s) {ptr : ℕ} {stash : ℕ → ℕ}
    (h0 : s.currentTask ≠ 0) :
    Consistent B (handOverState (dropTask B s s.currentTask true ptr stash)) := by
  obtain ⟨hcur, hlive, -⟩ := h.in_thread hth
  have hdrop : Table B (dropTask B s s.currentTask true ptr stash) := h.drop hlive h0
  have hst : (handOverState (dropTask B s s.currentTask true ptr stash)).state =
      update s.state s.currentTask .idle := rfl
  have hpred := h.predecessor_spec hlive h0
  have hnext : (dropTask B s s.currentTask true ptr stash).nextTask = hop s s.currentTask := by
    have hjmp : unlinkPred s s.currentTask s.currentTask = s.jmpList s.currentTask := by
      rw [h.unlinkPred_eq hlive h0, update_of_ne hpred.2.1.ne']
    simp only [dropTask, if_true, hjmp, ← hcur, hop]
  have hne : hop s s.currentTask ≠ s.currentTask := fun he =>
    hpred.2.1.ne (h.ring.inj hpred.1 hlive (hpred.2.2.trans he.symm))
  have hmem := (h.ring _ hlive).mem
  have hinactive : ∀ k < B.maxTaskCount,
      (handOverState (dropTask B s s.currentTask true ptr stash)).state k ≠ .active := by
    rw [hst]
    exact h.park_current hth (by decide) fun _ hs => hs
  refine ⟨hdrop.keep (fun _ _ => Iff.rfl) rfl rfl rfl rfl rfl, ?_⟩
  refine ⟨rfl, fun _ => hth.2, rfl, h.dws, ?_, fun k hk hs => absurd hs (hinactive k hk),
    fun _ => hinactive, fun hq => ?_, fun _ hl => ?_, fun hp => ?_, fun hp => ?_⟩
  · change Live B _ (dropTask B s s.currentTask true ptr stash).nextTask
    rw [hnext]
    exact ⟨hmem.1, by rw [hst, update_of_ne hne]; exact hmem.2⟩
  · exact absurd (hth.2.symm.trans hq) (by decide)
  · exact absurd (update_self ..) hl.2
  · exact Bool.noConfusion hp.1
  · exact Bool.noConfusion hp.1

lemma switched (h : Consistent B s) (hq : s.switchPending = true) :
    Consistent B (contextSwitch s) := by
  refine ⟨h.toTable.keep (fun _ _ => Iff.rfl) rfl rfl rfl rfl rfl, ?_⟩
  exact ⟨h.flags, fun _ => rfl, h.selfKill, h.dws, h.next, h.single, h.pending,
    fun hs => Bool.noConfusion hs, fun _ _ => rfl, fun _ => h.next, fun _ => Or.inl (h.switching hq)⟩

lemma step (h : Consistent B s) (hok : Regular B s e) (he : Effect B s e t) : Consistent B t := by
  cases he with
  | refused hth | granted hth | locked hth | cleared hth | stored | filled =>
    exact h.keep rfl rfl rfl rfl rfl rfl rfl rfl rfl rfl rfl rfl rfl
  | alreadyStarted | invokeRefused | releaseRefused | grantRefused | lockRefused | kept => exact h
  | created hth hc => exact h.created hth hok.1 hok.2 hc.slot
  | started hth =>
    have hc : s.currentTask = 0 := hok
    have hstart : Consistent B (startState B { s with currentTask := 0 }) :=
      h.keep rfl rfl rfl rfl rfl rfl rfl hc.symm rfl h.selfKill.symm rfl rfl rfl
    exact hstart.handOver hth
  | killed hth => exact h.killed hth hok.1 hok.2.1 hok.2.2
  | ended hth =>
    rw [hok.2]
    exact h.ended hth hok.1
  | hibernated hth => exact h.hibernate hth ..
  | handedOver hth => exact h.handOver hth
  | invoked hth =>
    have hinvoke : ∀ args, Consistent B (invokeState s args) := fun args =>
      h.keep rfl rfl rfl rfl rfl rfl rfl rfl rfl rfl rfl rfl rfl
    exact (hinvoke _).promote hth _ _
  | released hth =>
    have hanswer : ∀ i v, Consistent B (answerState s i v) := fun i v =>
      h.keep rfl rfl rfl rfl rfl rfl rfl rfl rfl rfl rfl rfl rfl
    exact ((hanswer _ _).demote hth).handOver hth
  | promoted hth => exact h.promote hth _ _
  | demoted hth => exact (h.demote hth).handOver hth
  | ticked hth _ hs => exact h.scheduled hth.2 hs
  | scheduled _ hq hs => exact h.scheduled hq hs
  | switched hq => exact h.switched hq

end Consistent

section Boot

variable (B : Build) (mem : ℕ → ℕ) (objs : ℕ → TaskObject) (stack : ℕ → ℕ)

lemma booted_live (k : ℕ) : Live B (booted B mem objs stack) k ↔ k = 0 := by
  change k < B.maxTaskCount ∧ update (fun _ => TaskState.idle) 0 .sleep k ≠ .idle ↔ k = 0
  rcases eq_or_ne k 0 with rfl | hk
  · simp [B.maxTaskCount_pos]
  · simp [hk]

lemma booted_consistent : Consistent B (booted B mem objs stack) := by
  have hN := B.maxTaskCount_pos
  have hlive := booted_live B mem objs stack
  have hstate : ∀ k, (booted B mem objs stack).state k = if k = 0 then .sleep else .idle :=
    fun k => update_apply (fun _ => TaskState.idle) 0 .sleep k
  have hinactive : ∀ k < B.maxTaskCount, (booted B mem objs stack).state k ≠ .active := by
    intro k _
    rw [hstate]
    split <;> decide
  refine ⟨⟨(hlive 0).mpr rfl, fun k hk => ?_, fun k _ => ?_, fun k _ _ => rfl, fun k _ => ?_,
    fun k _ => ?_, ?_, by simp [booted]⟩, ?_⟩
  · obtain rfl := (hlive k).mp hk
    refine ⟨(hlive _).mpr rfl, Or.inr ⟨le_rfl, fun j hj h => ?_, fun j hj => absurd hj (by simp [hop, booted, reset])⟩⟩
    exact hj.ne' ((hlive j).mp h)
  · simp [booted, reset]
  · rw [hstate]
    change update (fun _ => 0) 0 B.baseTask k ≠ 0 ↔ _
    rcases eq_or_ne k 0 with rfl | hk <;> simp [B.baseTask_ne, *]
  · rw [hstate]
    change update (fun _ => 0) 0 1 k ≠ 0 ↔ _
    rcases eq_or_ne k 0 with rfl | hk <;> simp [*]
  · have hone := count_insert (n := B.maxTaskCount) (p := fun _ => False)
      (q := fun k => (booted B mem objs stack).state k ≠ .idle) hN (by simp) (by simp [hstate])
      fun k _ hk => by simp [hstate, hk]
    rw [hone, count_eq_zero_iff.mpr (by simp)]
    rfl
  · exact ⟨rfl, fun _ => rfl, rfl, rfl, (hlive 0).mpr rfl, fun k hk hs => absurd hs (hinactive k hk),
      fun _ => hinactive, fun hs => Bool.noConfusion hs, fun _ _ => rfl, fun _ => (hlive 0).mpr rfl,
      fun _ => Or.inr rfl⟩

lemma boot_consistent : Consistent B (bootState B mem objs stack) := by
  obtain ⟨objs', stack', h⟩ := bootState_eq B mem objs stack
  exact h ▸ booted_consistent B mem objs' stack'

end Boot

lemma run_consistent {ok : KernelState → Event → Prop} (hok : ∀ s e, ok s e → Regular B s e)
    {es : List Event} (hs : Consistent B s) (h : Run (Guarded B ok) s es t) : Consistent B t :=
  h.invariant (fun s e _ hI hg => hI.step (hok s e hg.1) (step_effect hg.2)) hs

end Skibios.Tasks.Invariants
