import Skibios.Switching.Access
import Skibios.Switching.Mpc.Frames
import Skibios.Switching.Mpc.Preemption

/-! What the services and the scheduler of the MPC57x8 port do to the stacks, to the saved stack
pointers and to the tasks that are to run. -/

namespace Skibios.Switching.Mpc.Kernels

open Function Library.Words Kernel
open State TaskServices Services Scheduler SchedulerLoops Events Effects Tasks.Invariants
open Tasks Frames Preemption Access

variable {B : Build} {s t u w : KernelState} {c d : Core} {e : Event} {l : Preemption.Label} {k i : ℕ}

/-- The stacks fit into the address space and have room for a first frame below the initial one. -/
structure Wide (B : Build) : Prop where
  size : 48 ≤ B.taskStackSize
  fits : bottom B B.maxTaskCount < 4294967296

structure Awake (B : Build) (c : Core) : Prop where
  slot : c.kernel.currentTask < B.maxTaskCount
  thread : c.stage = .outside → c.kernel.switchPending = false → Live B c.kernel c.kernel.currentTask
  next : c.kernel.switchPending = true → Live B c.kernel c.kernel.nextTask
  chosen : ∀ n l, c.stage = .chosen n l → Live B c.kernel n
  stored : c.stage = .stored → Live B c.kernel c.kernel.currentTask

section Kernel

/-- A service leaves the running task alive, unless the scheduler is called next. -/
structure Kept (B : Build) (s u : KernelState) : Prop where
  current : u.currentTask = s.currentTask
  heap : u.pstackAddr = s.pstackAddr
  running : u.schedulerPending = false → Live B u s.currentTask
  switch : u.switchPending = s.switchPending

structure Calm (B : Build) (s u : KernelState) : Prop where
  stack : u.stack = s.stack
  psp : u.pspArray = s.pspArray
  live : ∀ k, Live B u k → Live B s k ∨ k = s.currentTask

lemma effect_kept (he : Effect B s e u) (hask : Asked s e) (hreg : Regular B s e)
    (hlive : Live B s s.currentTask) : Kept B s u := by
  cases he with
  | created hth hc =>
    refine ⟨rfl, rfl, fun _ => ?_, rfl⟩
    exact (Table.filled_live hreg.2 hc.slot).mpr (Or.inl hlive)
  | started => exact ⟨hreg.symm, rfl, fun hp => Bool.noConfusion hp, rfl⟩
  | killed hth =>
    refine ⟨rfl, rfl, fun _ => ?_, rfl⟩
    exact dropped_live.mpr ⟨hlive, fun heq => hreg.2.2 heq.symm⟩
  | ended | hibernated | promoted | invoked | handedOver =>
    exact ⟨rfl, rfl, fun hp => Bool.noConfusion hp, rfl⟩
  | demoted | released =>
    refine ⟨?_, ?_, fun hp => Bool.noConfusion hp, ?_⟩ <;>
      dsimp only [handOverState, demoteCurrent, answerState]
  | ticked | scheduled | switched | lockRefused | locked | cleared => exact hask.elim
  | _ => exact ⟨rfl, rfl, fun _ => hlive, rfl⟩

lemma effect_calm (he : Effect B s e u) (hask : Asked s e) (hreg : Regular B s e)
    (hcreate : ∀ p arg, e ≠ .createTask p arg) : Calm B s u := by
  have hpark : ∀ v k, k < B.maxTaskCount ∧ update s.state s.currentTask v k ≠ .idle →
      Live B s k ∨ k = s.currentTask := by
    rintro v k ⟨hk, hne⟩
    rcases eq_or_ne k s.currentTask with rfl | hc
    · exact Or.inr rfl
    · rw [update_of_ne hc] at hne
      exact Or.inl ⟨hk, hne⟩
  have hhand : ∀ t : KernelState, t.currentTask = s.currentTask →
      (∀ k, t.state k = .idle ↔ s.state k = .idle) →
      ∀ k, Live B (handOverState t) k → Live B s k ∨ k = s.currentTask := by
    rintro t hcur hst k ⟨hk, hne⟩
    rcases eq_or_ne k s.currentTask with rfl | hc
    · exact Or.inr rfl
    · refine Or.inl ⟨hk, fun hi => hne ?_⟩
      change (if t.selfKill then t.state else update t.state t.currentTask .sleep) k = _
      rw [hcur]
      split
      · exact (hst k).mpr hi
      · rw [update_of_ne hc]
        exact (hst k).mpr hi
  cases he with
  | refused | created => exact absurd rfl (hcreate _ _)
  | started => exact ⟨rfl, rfl, hhand _ hreg.symm fun _ => Iff.rfl⟩
  | killed => exact ⟨rfl, rfl, fun k hk => Or.inl (dropped_live.mp hk).1⟩
  | @ended ptr stash hth =>
    refine ⟨rfl, rfl, fun k hk => Or.inl ?_⟩
    have hk : Live B (dropTask B s (slotNumber (s.taskId s.currentTask)) true ptr stash) k := hk
    exact (dropped_live.mp hk).1
  | hibernated | promoted | invoked => exact ⟨rfl, rfl, hpark _⟩
  | handedOver => exact ⟨rfl, rfl, hhand _ rfl fun _ => Iff.rfl⟩
  | demoted | released =>
    refine ⟨?_, ?_, hhand _ ?_ fun k => Consistent.demote_idle_iff _ k⟩ <;>
      dsimp only [handOverState, demoteCurrent, answerState]
  | ticked | scheduled | switched | lockRefused | locked | cleared => exact hask.elim
  | _ => exact ⟨rfl, rfl, fun k hk => Or.inl hk⟩

structure Stays (B : Build) (s t : KernelState) : Prop extends Calm B s t where
  current : t.currentTask = s.currentTask
  heap : t.pstackAddr = s.pstackAddr
  alive : ∀ k, Live B s k → Live B t k

/-- `scheduler()` asks for a switch to a task it has found. -/
structure Picked (B : Build) (s t : KernelState) : Prop extends Stays B s t where
  next : Live B t t.nextTask
  switch : t.switchPending = true

lemma scheduled_picked {x : Selection} (hs : Scheduled B s w x) : Picked B s (leaveScheduler w x) := by
  have hwake : ∀ k, Live B w k ↔ Live B (enterScheduler s) k := fun k => hs.wakes.live
  have hpick : Live B w x.next := ⟨hs.chosen.bound, by rw [hs.chosen.sleeping]; decide⟩
  have hidle := update_idle_iff (v := .active) hpick.2 (by decide)
  have henter : ∀ k, k ≠ s.currentTask → (Live B (enterScheduler s) k ↔ Live B s k) := by
    intro k hk
    change _ ∧ (if s.normalSchedule then update s.state s.currentTask .sleep else s.state) k ≠ _ ↔ _
    split
    · rw [update_of_ne hk]
      exact Iff.rfl
    · exact Iff.rfl
  have hleave : ∀ k, Live B (leaveScheduler w x) k ↔ Live B w k := fun k =>
    and_congr_right fun _ => not_congr (hidle k)
  have hcurrent : Live B s s.currentTask → Live B (enterScheduler s) s.currentTask := by
    rintro ⟨hk, hne⟩
    refine ⟨hk, ?_⟩
    change (if s.normalSchedule then update s.state s.currentTask .sleep else s.state) _ ≠ _
    split
    · rw [update_self]
      decide
    · exact hne
  obtain ⟨⟨st, a, b, hframe⟩, -⟩ := hs.wakes
  refine ⟨⟨⟨by rw [hframe]; rfl, by rw [hframe]; rfl, fun k hk => ?_⟩, by rw [hframe]; rfl,
    by rw [hframe]; rfl, fun k hk => ?_⟩, (hleave _).mpr hpick, rfl⟩
  · rcases eq_or_ne k s.currentTask with rfl | hc
    · exact Or.inr rfl
    · exact Or.inl ((henter k hc).mp ((hwake k).mp ((hleave k).mp hk)))
  · refine (hleave k).mpr ((hwake k).mpr ?_)
    rcases eq_or_ne k s.currentTask with rfl | hc
    · exact hcurrent hk
    · exact (henter k hc).mpr hk

lemma triggered_stays (h : Triggered B u t) : Stays B u t := by
  rcases h.cases with ⟨-, rfl⟩ | ⟨w, x, -, -, hs, rfl⟩
  · exact ⟨⟨rfl, rfl, fun _ hk => Or.inl hk⟩, rfl, rfl, fun _ hk => hk⟩
  · exact (scheduled_picked hs).toStays

lemma Calm.stays (h : Calm B s u) (hs : Stays B u t) (hcur : u.currentTask = s.currentTask) :
    Calm B s t := by
  refine ⟨hs.stack.trans h.stack, hs.psp.trans h.psp, fun k hk => ?_⟩
  rcases hs.live k hk with hu | rfl
  · exact h.live k hu
  · exact Or.inr hcur

lemma serves_calm (h : Serves B s e u) (hask : Asked s e) (hreg : Regular B s e)
    (hcreate : ∀ p arg, e ≠ .createTask p arg) : Calm B s u := by
  cases e with
  | createTask => exact absurd rfl (hcreate _ _)
  | _ => exact effect_calm (step_effect h) hask hreg hcreate

lemma serves_kept (h : Serves B s e u) (hask : Asked s e) (hreg : Regular B s e)
    (hlive : Live B s s.currentTask) : Kept B s u := by
  obtain ⟨v, hv, hu⟩ := h.effect
  have hkept := effect_kept hv hask hreg hlive
  rw [hu]
  exact ⟨hkept.current, hkept.heap, hkept.running, hkept.switch⟩

lemma start_pending (hfirst : c.kernel.firstStart = false)
    (hs : Preemption.Step B c (.call .startScheduler) d) :
    d.kernel.switchPending = true := by
  cases hs with
  | call outside idle asked regular serves triggered =>
    rcases triggered.cases with ⟨hserved, -⟩ | ⟨w, x, -, -, hsched, rfl⟩
    · cases step_effect serves with
      | alreadyStarted _ hstarted => exact Bool.noConfusion (hfirst.symm.trans hstarted)
      | started => exact Bool.noConfusion hserved
    · exact (scheduled_picked hsched).switch

lemma Awake.step (h : Awake B c) (hs : Preemption.Step B c l d) : Awake B d := by
  cases hs with
  | call outside running asked regular serves triggered =>
    have hkept := serves_kept serves asked regular (h.thread outside running)
    have hno : ∀ n l, c.stage ≠ .chosen n l := fun n l hn => by
      rw [outside] at hn
      cases hn
    have hstored : c.stage ≠ .stored := fun hn => by
      rw [outside] at hn
      cases hn
    rcases triggered.cases with ⟨hserved, rfl⟩ | ⟨w, x, -, -, hsched, rfl⟩
    · refine ⟨hkept.current.symm ▸ h.slot, fun _ _ => hkept.current.symm ▸ hkept.running hserved,
        fun hp => ?_, fun n l hn => absurd hn (hno n l), fun hn => absurd hn hstored⟩
      exact Bool.noConfusion ((hkept.switch.trans running).symm.trans hp)
    · have hpicked := scheduled_picked hsched
      refine ⟨?_, fun _ hp => Bool.noConfusion hp, fun _ => hpicked.next,
        fun n l hn => absurd hn (hno n l), fun hn => absurd hn hstored⟩
      rw [hpicked.current, hkept.current]
      exact h.slot
  | isr => exact ⟨h.slot, h.thread, h.next, h.chosen, h.stored⟩
  | tick timer scheduler =>
    obtain ⟨w, x, hsched, rfl⟩ := scheduled_effect scheduler
    have hpicked := scheduled_picked hsched
    exact ⟨hpicked.current.symm ▸ h.slot, fun _ hp => Bool.noConfusion hp, fun _ => hpicked.next,
      fun n l hn => hpicked.alive n (h.chosen n l hn),
      fun hn => hpicked.current.symm ▸ hpicked.alive _ (h.stored hn)⟩
  | fetch outside pending =>
    refine ⟨h.slot, fun ho => ?_, h.next, fun n l hn => ?_, fun hn => ?_⟩
    · cases ho
    · obtain ⟨rfl, -⟩ := Stage.chosen.inj hn
      exact h.next pending
    · cases hn
  | load chosen =>
    refine ⟨h.slot, fun ho => ?_, h.next, fun n l hn => ?_, fun hn => ?_⟩
    · cases ho
    · obtain ⟨rfl, -⟩ := Stage.chosen.inj hn
      exact h.chosen _ _ chosen
    · cases hn
  | store chosen =>
    refine ⟨(h.chosen _ _ chosen).1, fun ho => ?_, h.next, fun n l hn => ?_, fun _ => h.chosen _ _ chosen⟩
    · cases ho
    · cases hn
  | clear stored =>
    refine ⟨h.slot, fun _ _ => h.stored stored, fun hp => Bool.noConfusion hp, fun n l hn => ?_, fun hn => ?_⟩
    · cases hn
    · cases hn

end Kernel

section Creation

variable {p arg : ℕ}

structure Created (B : Build) (s : KernelState) (p : ℕ) (u : KernelState) (i : ℕ) : Prop where
  free : s.state i = .idle
  lives : Live B u i
  live : ∀ k, Live B u k → Live B s k ∨ k = i
  psp : ∀ k, k ≠ i → u.pspArray k = s.pspArray k
  outside : ∀ a, a < bottom B i ∨ bottom B (i + 1) ≤ a → u.stack a = s.stack a
  launched : Launched B (bottom B (i + 1)) (s.objs p).ptrFunc
    (framed (bottom B (i + 1)) (u.pspArray i) u.stack)
  low : bottom B i + 0x50 ≤ u.pspArray i
  high : u.pspArray i + 0x50 ≤ bottom B (i + 1)

lemma Created.stays (h : Created B s p u i) (hs : Stays B u t) (hcur : u.currentTask = s.currentTask)
    (hlive : Live B s s.currentTask) : Created B s p t i := by
  refine ⟨h.free, hs.alive i h.lives, fun k hk => ?_, fun k hk => ?_, fun a ha => ?_, ?_, ?_, ?_⟩
  · rcases hs.live k hk with hu | rfl
    · exact h.live k hu
    · exact Or.inl (hcur.symm ▸ hlive)
  · rw [hs.psp, h.psp k hk]
  · rw [hs.stack, h.outside a ha]
  · rw [hs.psp, hs.stack]
    exact h.launched
  · rw [hs.psp]
    exact h.low
  · rw [hs.psp]
    exact h.high

lemma bottom_le (h : Wide B) (hi : i < B.maxTaskCount) : bottom B (i + 1) ≤ 4294967296 :=
  (bottom_mono B (Nat.succ_le_of_lt hi)).trans h.fits.le

lemma slotStack_bottom (hw : Wide B) (hheap : s.pstackAddr = B.procHeapAddr) (hi : i < B.maxTaskCount) :
    slotStack B s i = bottom B i := by
  have hle := bottom_le hw hi
  have hsize := hw.size
  rw [bottom_succ] at hle
  have hmul : i * B.taskStackSize * 4 = 4 * B.taskStackSize * i := by ring
  rw [slotStack, hheap, hmul, uint32_eq]
  · rfl
  · change bottom B i < _
    omega

lemma placed_outside (hsize : 48 ≤ B.taskStackSize) {base f arg a : ℕ} {stack : ℕ → ℕ}
    (hend : base + 4 * B.taskStackSize ≤ 4294967296) (ha : a < base ∨ base + 4 * B.taskStackSize ≤ a) :
    Stacks.archTaskStackInit .mpc57x8 B (Stacks.clearStack B stack base) base f arg a = stack a := by
  have hpsp := initialPsp_eq (by omega) hend
  rw [init_stack (by omega) hend, update_of_ne (by omega), update_of_ne (by omega), update_of_ne (by omega),
    update_of_ne (by omega)]
  refine (Stacks.clear_apply _).2 a fun j hj => ?_
  have := Nat.div_le_self B.taskStackSize 4
  rw [Stacks.wordAddress, uint32_eq (by omega)]
  omega

lemma placed_live {base ptr : ℕ} {stash : ℕ → ℕ} (hreg : Regular B s (.createTask p arg))
    (hi : idleSlot B s < B.maxTaskCount) :
    Live B (Stacks.placeTask .mpc57x8 B s p arg (idleSlot B s) base ptr stash) k ↔
      Live B s k ∨ k = idleSlot B s :=
  show Live B (fillSlot B s p arg ptr stash) k ↔ _ from Table.filled_live hreg.2 hi

lemma create_cases (hw : Wide B) (hheap : s.pstackAddr = B.procHeapAddr)
    (hreg : Regular B s (.createTask p arg)) (h : Serves B s (.createTask p arg) u) :
    (u.stack = s.stack ∧ u.pspArray = s.pspArray ∧ u.state = s.state) ∨ ∃ i, Created B s p u i := by
  obtain ⟨-, v, call, h⟩ := h
  simp only [Stacks.svcServiceTaskCreate] at h
  split_ifs at h with h1 h2 h3 h4
  · obtain ⟨-, -, rfl⟩ := by simpa using h
    exact Or.inl ⟨rfl, rfl, rfl⟩
  · rw [slotStack_bottom hw hheap (not_le.mp h3), bottom] at h4
    have := B.procHeapAddr_pos
    omega
  · obtain ⟨⟨ptr, stash⟩, -, he⟩ := Option.map_eq_some_iff.mp h
    obtain ⟨-, -, rfl⟩ := by simpa using he
    have hi : idleSlot B s < B.maxTaskCount := not_le.mp h3
    have hbase := slotStack_bottom hw hheap hi
    have hend := bottom_le hw hi
    have hsize := hw.size
    rw [bottom_succ] at hend
    have hpsp : (Stacks.placeTask .mpc57x8 B s p arg (idleSlot B s) (slotStack B s (idleSlot B s)) ptr
        stash).pspArray = update s.pspArray (idleSlot B s)
          (Stacks.initialPsp .mpc57x8 B (bottom B (idleSlot B s))) := by
      rw [← hbase]
      rfl
    have hstack : (Stacks.placeTask .mpc57x8 B s p arg (idleSlot B s) (slotStack B s (idleSlot B s)) ptr
        stash).stack = Stacks.archTaskStackInit .mpc57x8 B (Stacks.clearStack B s.stack
          (bottom B (idleSlot B s))) (bottom B (idleSlot B s)) (s.objs p).ptrFunc arg := by
      rw [← hbase]
      rfl
    have hnum := initialPsp_eq (by omega) hend
    refine Or.inr ⟨idleSlot B s, Table.idleSlot_idle hi, (placed_live hreg hi).mpr (Or.inr rfl),
      fun k hk => (placed_live hreg hi).mp hk, fun k hk => ?_, fun a ha => ?_, ?_, ?_, ?_⟩
    · rw [hpsp, update_of_ne hk]
    · rw [bottom_succ] at ha
      rw [hstack]
      exact placed_outside hsize hend ha
    · rw [hpsp, update_self, hstack, bottom_succ]
      exact init_launched (by omega) hend _ _
    · rw [hpsp, update_self]
      omega
    · rw [hpsp, update_self, bottom_succ]
      omega
  · obtain ⟨-, -, rfl⟩ := by simpa using h
    exact Or.inl ⟨rfl, rfl, rfl⟩

/-- Where the argument of a new task goes, no register of its first frame is loaded from. -/
lemma create_argument (hw : Wide B) (hheap : s.pstackAddr = B.procHeapAddr) {arg' v v' : ℕ} {r r' : Call}
    (hreg : Regular B s (.createTask p arg))
    (h : Stacks.svcServiceTaskCreate .mpc57x8 B ⟨svcCreateTask, p, arg, 0, 0⟩ s = some (v, r, t))
    (h' : Stacks.svcServiceTaskCreate .mpc57x8 B ⟨svcCreateTask, p, arg', 0, 0⟩ s = some (v', r', u)) :
    v = v' ∧ t.pspArray = u.pspArray ∧ ∀ k, Live B t k → ¬ Live B s k →
      framed (bottom B (k + 1)) (t.pspArray k) t.stack = framed (bottom B (k + 1)) (u.pspArray k) u.stack := by
  simp only [Stacks.svcServiceTaskCreate] at h h'
  split_ifs at h h' with h1 h2 h3 h4
  · obtain ⟨rfl, -, rfl⟩ := by simpa using h
    obtain ⟨rfl, -, rfl⟩ := by simpa using h'
    exact ⟨rfl, rfl, fun k hk hno => absurd hk hno⟩
  · rw [slotStack_bottom hw hheap (not_le.mp h3), bottom] at h4
    have := B.procHeapAddr_pos
    omega
  · obtain ⟨⟨ptr, stash⟩, hins, he⟩ := Option.map_eq_some_iff.mp h
    rw [hins] at h'
    obtain ⟨rfl, -, rfl⟩ := by simpa using he
    obtain ⟨rfl, -, rfl⟩ := by simpa using h'
    have hi : idleSlot B s < B.maxTaskCount := not_le.mp h3
    have hbase := slotStack_bottom hw hheap hi
    have hend := bottom_le hw hi
    have hsize := hw.size
    rw [bottom_succ] at hend
    refine ⟨rfl, rfl, fun k hk hno => ?_⟩
    obtain rfl : k = idleSlot B s := ((placed_live hreg hi).mp hk).resolve_left hno
    simp only [Stacks.placeTask, hbase, update_self]
    exact init_argument (by omega) hend _ _ _ _
  · obtain ⟨rfl, -, rfl⟩ := by simpa using h
    obtain ⟨rfl, -, rfl⟩ := by simpa using h'
    exact ⟨rfl, rfl, fun k hk hno => absurd hk hno⟩

lemma windows_apart {j : ℕ} (hne : k ≠ j) {a : ℕ} (hj : bottom B j ≤ a ∧ a < bottom B (j + 1)) :
    a < bottom B k ∨ bottom B (k + 1) ≤ a := by
  rcases lt_or_gt_of_ne hne with h | h
  · have hle : bottom B (k + 1) ≤ bottom B j := bottom_mono B h
    omega
  · have hle : bottom B (j + 1) ≤ bottom B k := bottom_mono B h
    omega

structure Called (B : Build) (c : Core) (e : Event) (d : Core) : Prop where
  outside : c.stage = .outside
  stage : d.stage = c.stage
  idle : c.kernel.switchPending = false
  current : d.kernel.currentTask = c.kernel.currentTask
  heap : d.kernel.pstackAddr = c.kernel.pstackAddr
  slot : Live B c.kernel c.kernel.currentTask
  moves : Calm B c.kernel d.kernel ∨ ∃ p arg i, e = .createTask p arg ∧ Created B c.kernel p d.kernel i

lemma Awake.called (h : Awake B c) (hw : Wide B) (hheap : c.kernel.pstackAddr = B.procHeapAddr)
    (hs : Preemption.Step B c (.call e) d) : Called B c e d := by
  cases hs with
  | @call _ u t outside idle asked regular serves triggered =>
    have hlive := h.thread outside idle
    have hstays := triggered_stays triggered
    have hkept := serves_kept serves asked regular hlive
    refine ⟨outside, rfl, idle, hstays.current.trans hkept.current, hstays.heap.trans hkept.heap, hlive, ?_⟩
    by_cases hcreate : ∃ p arg, e = .createTask p arg
    · obtain ⟨p, arg, rfl⟩ := hcreate
      rcases create_cases hw hheap regular serves with ⟨hstack, hpsp, hstate⟩ | ⟨i, hc⟩
      · have hcalm : Calm B c.kernel u := ⟨hstack, hpsp, fun k hk => Or.inl (by rwa [Live, ← hstate])⟩
        exact Or.inl (hcalm.stays hstays hkept.current)
      · exact Or.inr ⟨p, arg, i, rfl, hc.stays hstays hkept.current hlive⟩
    · have hcalm := serves_calm serves asked regular fun p arg he => hcreate ⟨p, arg, he⟩
      exact Or.inl (hcalm.stays hstays hkept.current)

lemma Called.spares (h : Called B c e d) {a : ℕ} (hl : bottom B c.kernel.currentTask ≤ a)
    (hu : a < bottom B (c.kernel.currentTask + 1)) : d.kernel.stack a = c.kernel.stack a := by
  rcases h.moves with hcalm | ⟨p, arg, i, -, hc⟩
  · rw [hcalm.stack]
  · refine hc.outside a (windows_apart (fun hi => ?_) ⟨hl, hu⟩)
    exact h.slot.2 (hi ▸ hc.free)

end Creation

end Skibios.Switching.Mpc.Kernels
