import Skibios.Switching.Access
import Skibios.Switching.Cortex
import Skibios.Tasks.Invariants

/-! What the moves of the kernel do to the stacks of the tasks: a creation prepares one stack, all
others leave every stack and every saved stack pointer alone. -/

namespace Skibios.Switching.Moves

open Function Library.Words Library.Loops Library.Blocks Kernel
open State TaskServices Services Scheduler SchedulerLoops Events Effects Tasks.Invariants
open Access (bottom bottom_succ bottom_mono Wired)

variable {B : Build} {s t : KernelState} {e : Event} {i k : ℕ}

structure Quiet (B : Build) (s t : KernelState) : Prop where
  current : t.currentTask = s.currentTask
  stack : t.stack = s.stack
  psp : t.pspArray = s.pspArray
  heap : t.pstackAddr = s.pstackAddr
  live : ∀ k, Live B t k → Live B s k

lemma Quiet.of_eq (hcur : t.currentTask = s.currentTask) (hst : t.state = s.state) (hstack : t.stack = s.stack)
    (hpsp : t.pspArray = s.pspArray) (hheap : t.pstackAddr = s.pstackAddr) : Quiet B s t :=
  ⟨hcur, hstack, hpsp, hheap, fun k hk => by rwa [Live, hst] at hk⟩

lemma Quiet.park {st : ℕ → TaskState} {v : TaskState} (hlive : Live B s s.currentTask)
    (hcur : t.currentTask = s.currentTask) (hst : t.state = update st s.currentTask v) (hst' : ∀ k, st k = .idle ↔ s.state k = .idle)
    (hv : v ≠ .idle) (hstack : t.stack = s.stack) (hpsp : t.pspArray = s.pspArray)
    (hheap : t.pstackAddr = s.pstackAddr) : Quiet B s t := by
  refine ⟨hcur, hstack, hpsp, hheap, fun k hk => ⟨hk.1, fun hi => hk.2 ?_⟩⟩
  rw [hst, update_idle_iff (fun h => hlive.2 ((hst' _).mp h)) hv, hst', hi]

lemma Quiet.scheduled {w : KernelState} {c : Selection} (h : Consistent B s)
    (hq : s.switchPending = false) (hs : Scheduled B s w c) : Quiet B s (leaveScheduler w c) := by
  have hpick := h.pick_live hq hs
  have hlive : ∀ k, Live B w k ↔ Live B s k := fun k => hs.wakes.live.trans (h.live_enter hq)
  obtain ⟨⟨st, a, b, hframe⟩, -⟩ := hs.wakes
  refine ⟨by rw [hframe]; rfl, by rw [hframe]; rfl, by rw [hframe]; rfl, by rw [hframe]; rfl,
    fun k hk => ?_⟩
  refine (hlive k).mp ⟨hk.1, fun hi => hk.2 ?_⟩
  exact (update_idle_iff hpick.2 (by decide) k).mpr hi

lemma Quiet.handOver (h : Consistent B s) (hth : InThread s) {u : KernelState}
    (hstate : ∀ k, u.state k = .idle ↔ s.state k = .idle) (hcur : u.currentTask = s.currentTask)
    (hkill : u.selfKill = s.selfKill) (hstack : u.stack = s.stack) (hpsp : u.pspArray = s.pspArray)
    (hheap : u.pstackAddr = s.pstackAddr) : Quiet B s (handOverState u) := by
  have hst : (handOverState u).state = update u.state s.currentTask .sleep := by
    simp [handOverState, hkill, h.selfKill, hcur]
  exact Quiet.park (h.in_thread hth).2.1 hcur hst hstate (by decide) hstack hpsp hheap

lemma Quiet.step (h : Consistent B s) (hok : Regular B s e) (he : Effect B s e t)
    (hc : ∀ p arg, e ≠ .createTask p arg) (hswitch : e ≠ .contextSwitch) : Quiet B s t := by
  cases he with
  | refused => exact absurd rfl (hc _ _)
  | created => exact absurd rfl (hc _ _)
  | started hth => exact Quiet.handOver h hth (fun _ => Iff.rfl) hok.symm h.selfKill.symm rfl rfl rfl
  | handedOver hth => exact Quiet.handOver h hth (fun _ => Iff.rfl) rfl rfl rfl rfl rfl
  | killed => exact ⟨rfl, rfl, rfl, rfl, fun k hk => (dropped_live.mp hk).1⟩
  | @ended ptr stash hth =>
    refine ⟨rfl, rfl, rfl, rfl, fun k hk => ?_⟩
    have hk : Live B (dropTask B s (slotNumber (s.taskId s.currentTask)) true ptr stash) k := hk
    exact (dropped_live.mp hk).1
  | hibernated hth =>
    refine Quiet.park (h.in_thread hth).2.1 rfl rfl (fun _ => Iff.rfl) ?_ rfl rfl rfl
    split <;> decide
  | invoked hth | promoted hth =>
    exact Quiet.park (h.in_thread hth).2.1 rfl rfl (fun _ => Iff.rfl) (by decide) rfl rfl rfl
  | released hth | demoted hth =>
    exact Quiet.handOver h hth (Consistent.demote_idle_iff _) rfl rfl rfl rfl rfl
  | ticked hth _ hs => exact Quiet.scheduled h hth.2 hs
  | scheduled _ hq hs => exact Quiet.scheduled h hq hs
  | switched => exact absurd rfl hswitch
  | _ => exact Quiet.of_eq rfl rfl rfl rfl rfl

section Creation

open Cortex (Context saved framed view popFrame loadContext fpFrame psrBits frameSize)

/-- How a task begins: its argument, its function, and a return into `resolve_end`. The registers
the frame says nothing about hold what the stack memory held. -/
structure Launched (B : Build) (top ptrFunc arg : ℕ) (x : Context) : Prop where
  arg : x.low 0 = arg
  link : x.low 5 = B.resolveEnd
  entry : x.low 6 = ptrFunc
  psr : x.low 7 = 0x01000000
  psp : x.psp + 4 = top
  nPriv : x.nPriv = true
  fp : x.fp = none

structure Created (B : Build) (s : KernelState) (p arg : ℕ) (t : KernelState) (i : ℕ) : Prop where
  current : t.currentTask = s.currentTask
  slot : i < B.maxTaskCount
  fresh : ¬ Live B s i
  lives : Live B t i
  live : ∀ k, Live B t k → Live B s k ∨ k = i
  psp : ∀ k, k ≠ i → t.pspArray k = s.pspArray k
  heap : t.pstackAddr = s.pstackAddr
  outside : ∀ a, a < bottom B i ∨ bottom B (i + 1) ≤ a → t.stack a = s.stack a
  launched : ∀ stkalign cpu, Launched B (bottom B (i + 1)) (s.objs p).ptrFunc arg
    (saved stkalign (bottom B (i + 1)) (t.pspArray i) cpu t.stack)

variable {c : Protection.UserRegions.Config} {lo hi p arg : ℕ}

lemma slotStack_bottom (hw : Wired B c lo hi) (hheap : s.pstackAddr = B.procHeapAddr)
    (hi : i < B.maxTaskCount) : slotStack B s i = bottom B i := by
  have hle := bottom_mono B (Nat.succ_le_of_lt hi)
  have := hw.high
  have := hw.fits
  have := hw.size
  rw [bottom_succ] at hle
  have hmul : i * B.taskStackSize * 4 = 4 * B.taskStackSize * i := by ring
  rw [slotStack, hheap, hmul, uint32_eq]
  · rfl
  · change bottom B i < _
    omega

lemma storeWords_apply {stack : ℕ → ℕ} {base a : ℕ} {ws : List (ℕ × ℕ)}
    (ha : ∀ w ∈ ws, a ≠ base + 4 * w.1) : storeWords stack base ws a = stack a := by
  induction ws generalizing stack with
  | nil => rfl
  | cons w ws ih =>
    refine (ih fun v hv => ha v (List.mem_cons_of_mem w hv)).trans ?_
    exact update_of_ne (ha w List.mem_cons_self) _ _

lemma clearStack_apply {stack : ℕ → ℕ} {base a : ℕ} (ha : a < base ∨ base + 4 * B.taskStackSize ≤ a) :
    clearStack B stack base a = stack a := by
  refine forRange_invariant (fun _ (st : ℕ → ℕ) => st a = stack a) _ rfl fun j st hj hst => ?_
  rw [update_of_ne _, hst]
  have := Nat.div_le_self B.taskStackSize 4
  omega

lemma init_words (stack : ℕ → ℕ) (psp f arg : ℕ) :
    let st := archTaskStackInit B stack psp f arg
    let sp := initialPsp B psp
    st sp = 0xFFFFFFFD ∧ st (sp + 4) = 3 ∧ st (sp + 40) = arg ∧ st (sp + 60) = B.resolveEnd ∧
      st (sp + 64) = f ∧ st (sp + 68) = 0x01000000 := by
  simp [archTaskStackInit, storeWords]

lemma initialPsp_eq (hw : 32 ≤ B.taskStackSize) {base : ℕ}
    (hend : base + 4 * B.taskStackSize ≤ 4294967296) :
    initialPsp B base + 76 = base + 4 * B.taskStackSize := by
  rw [initialPsp]
  omega

lemma launched (hw : 32 ≤ B.taskStackSize) {base : ℕ} {stack : ℕ → ℕ}
    (hend : base + 4 * B.taskStackSize ≤ 4294967296) (f arg : ℕ) (stkalign : Bool) (cpu : Cortex.Cpu) :
    Launched B (base + 4 * B.taskStackSize) f arg
      (saved stkalign (base + 4 * B.taskStackSize) (initialPsp B base) cpu
        (archTaskStackInit B stack base f arg)) := by
  have hsp := initialPsp_eq hw hend
  obtain ⟨h0, h1, h10, h15, h16, h17⟩ := init_words (B := B) stack base f arg
  have hfp : fpFrame 0xFFFFFFFD = false := by decide
  have hpsr : psrBits 0x01000000 = 0x01000000 := by decide
  simp only [saved, framed, loadContext, popFrame, h0, hfp, h1, view, Bool.false_eq_true, if_false,
    add_assoc, Nat.reduceAdd, h17, hpsr]
  refine ⟨h10, h15, h16, by simp only [update_self, hpsr], ?_, rfl, rfl⟩
  have halign : (if (false || stkalign) = true then 0x01000000 / 512 % 2 else 0) = 0 := by
    split <;> rfl
  simp only [halign, frameSize, Bool.false_eq_true, if_false, zero_mul, Nat.or_zero]
  omega

lemma filled_created (hw : Wired B c lo hi) (hheap : s.pstackAddr = B.procHeapAddr) {ptr : ℕ}
    {stash : ℕ → ℕ} (hc : Creates B s p ptr stash) (hok : Regular B s (.createTask p arg)) :
    Created B s p arg (fillSlot B s p arg ptr stash) (idleSlot B s) := by
  have hbase := slotStack_bottom hw hheap hc.slot
  have hend : bottom B (idleSlot B s) + 4 * B.taskStackSize ≤ 4294967296 := by
    have hle := bottom_mono B (Nat.succ_le_of_lt hc.slot)
    have := hw.high
    have := hw.fits
    rw [bottom_succ] at hle
    omega
  have hsp := initialPsp_eq hw.size hend
  have hstack : (fillSlot B s p arg ptr stash).stack = archTaskStackInit B
      (clearStack B s.stack (bottom B (idleSlot B s))) (bottom B (idleSlot B s)) (s.objs p).ptrFunc arg := by
    rw [← hbase]
    rfl
  have hpsp : (fillSlot B s p arg ptr stash).pspArray =
      update s.pspArray (idleSlot B s) (initialPsp B (bottom B (idleSlot B s))) := by
    rw [← hbase]
    rfl
  refine ⟨rfl, hc.slot, fun hl => hl.2 (Table.idleSlot_idle hc.slot), ?_, fun k hk => ?_, fun k hk => ?_,
    rfl, fun a ha => ?_, fun stkalign cpu => ?_⟩
  · exact (Table.filled_live hok.2 hc.slot).mpr (Or.inr rfl)
  · exact (Table.filled_live hok.2 hc.slot).mp hk
  · rw [hpsp, update_of_ne hk]
  · rw [bottom_succ] at ha
    rw [hstack, archTaskStackInit, storeWords_apply, clearStack_apply ha]
    have hsize := hw.size
    intro w hmem
    simp only [List.mem_cons, List.not_mem_nil, or_false] at hmem
    rcases hmem with rfl | rfl | rfl | rfl | rfl | rfl <;> dsimp only <;> omega
  · rw [hpsp, update_self, hstack, bottom_succ]
    exact launched hw.size hend _ _ _ _

lemma create_moves (hw : Wired B c lo hi) (hheap : s.pstackAddr = B.procHeapAddr)
    (hok : Regular B s (.createTask p arg)) (h : Step B s (.createTask p arg) t) :
    Quiet B s t ∨ Created B s p arg t (idleSlot B s) := by
  obtain ⟨fuel, h⟩ := h
  obtain ⟨hth, h⟩ := inThread_some h
  obtain ⟨⟨r, t⟩, hr, rfl⟩ := Option.map_eq_some_iff.mp h
  rw [svc_createTask] at hr
  obtain ⟨⟨r', call, t'⟩, hs, he⟩ := Option.map_eq_some_iff.mp hr
  obtain ⟨rfl, rfl⟩ := Prod.mk.inj he
  simp only [svcServiceTaskCreate] at hs
  split_ifs at hs with h1 h2 h3 h4
  · obtain ⟨-, -, rfl⟩ := by simpa using hs
    exact Or.inl (Quiet.of_eq rfl rfl rfl rfl rfl)
  · rw [slotStack_bottom hw hheap (not_le.mp h3), bottom] at h4
    have := B.procHeapAddr_pos
    omega
  · obtain ⟨⟨ptr, stash⟩, hi, he⟩ := Option.map_eq_some_iff.mp hs
    obtain ⟨-, -, rfl⟩ := by simpa using he
    rw [not_or, not_lt, not_and] at h2
    refine Or.inr (filled_created hw hheap ⟨h1, h2.1, fun h0 => ?_, not_le.mp h3, hi⟩ hok)
    simpa using h2.2 h0
  · obtain ⟨-, -, rfl⟩ := by simpa using hs
    exact Or.inl (Quiet.of_eq rfl rfl rfl rfl rfl)

end Creation

end Skibios.Switching.Moves
