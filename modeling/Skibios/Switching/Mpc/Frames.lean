import Mathlib.Data.Fin.VecNotation
import Skibios.Library.Blocks
import Skibios.Library.Words
import Skibios.Tasks.Stacks

/-! The registers of an e200z4 core and the frames that `IVOR4_Handler` and `svc_handler` keep on the
stack of the task they interrupt. -/

namespace Skibios.Switching.Mpc.Frames

open Function Library.Words Library.Blocks Library.Loops Kernel State Tasks.Stacks

structure Cpu where
  -- r0, r3 to r12
  gpr : Fin 11 → ℕ
  -- CR, LR, CTR, XER
  spr : Fin 4 → ℕ
  -- r2, r13 to r31
  upper : Fin 20 → ℕ
  r1 : ℕ
  pc : ℕ
  msr : ℕ

/-- The prologue of `IVOR4_Handler`: r1 and the stack when the ISR at `isr` is branched to. r3 holds
its address by the time the general purpose registers are saved. -/
def prologue (isr : ℕ) (cpu : Cpu) (stack : ℕ → ℕ) : ℕ × (ℕ → ℕ) :=
  let r1 := sub32 cpu.r1 0x50
  let stack := store (update stack r1 cpu.r1) (r1 + 0x0c) ![cpu.pc, cpu.msr]
  let stack := store (update stack (r1 + 0x08) (cpu.gpr 1)) (r1 + 0x14) cpu.spr
  (r1, store stack (r1 + 0x24) (update cpu.gpr 1 isr))

/-- Its epilogue, up to `se_rfi`. -/
def epilogue (cpu : Cpu) (stack : ℕ → ℕ) : Cpu where
  gpr := update (load stack (cpu.r1 + 0x24) 11) 1 (stack (cpu.r1 + 0x08))
  spr := load stack (cpu.r1 + 0x14) 4
  upper := cpu.upper
  r1 := cpu.r1 + 0x50
  pc := stack (cpu.r1 + 0x0c)
  msr := stack (cpu.r1 + 0x10)

/-- `svc_handler` saves r4 to r9 and SRR0-1 on the stack of the task, where `task_sp` then points. -/
def enterService (cpu : Cpu) (stack : ℕ → ℕ) : ℕ × (ℕ → ℕ) :=
  let r1 := sub32 cpu.r1 32
  (r1, store (store stack r1 ![cpu.gpr 2, cpu.gpr 3, cpu.gpr 4, cpu.gpr 5, cpu.gpr 6, cpu.gpr 7])
    (r1 + 24) ![cpu.pc, cpu.msr])

/-- The end of `svc_handler`: LR comes from the kernel stack, r3 holds the result, r0, r10 to r12, CR,
CTR and XER hold what the services have left there. -/
def leaveService (taskSp v : ℕ) (cpu left : Cpu) (stack : ℕ → ℕ) : Cpu where
  gpr := ![left.gpr 0, v, stack taskSp, stack (taskSp + 4), stack (taskSp + 8), stack (taskSp + 12),
    stack (taskSp + 16), stack (taskSp + 20), left.gpr 8, left.gpr 9, left.gpr 10]
  spr := update left.spr 1 (cpu.spr 1)
  upper := cpu.upper
  r1 := taskSp + 32
  pc := stack (taskSp + 24)
  msr := stack (taskSp + 28)

/-- What a task can see of the core and of its stack, which ends at `top`, that no other task uses. -/
structure Context where
  gpr : Fin 11 → ℕ
  spr : Fin 4 → ℕ
  r1 : ℕ
  pc : ℕ
  msr : ℕ
  stack : ℕ → ℕ

def stackAbove (sp top : ℕ) (stack : ℕ → ℕ) : ℕ → ℕ := fun a =>
  if sp ≤ a ∧ a < top then stack a else 0

def view (top : ℕ) (cpu : Cpu) (stack : ℕ → ℕ) : Context :=
  ⟨cpu.gpr, cpu.spr, cpu.r1, cpu.pc, cpu.msr, stackAbove cpu.r1 top stack⟩

/-- What the task sees once `IVOR4_Handler` returns from the frame at `r1`. -/
def framed (top r1 : ℕ) (stack : ℕ → ℕ) : Context where
  gpr := update (load stack (r1 + 0x24) 11) 1 (stack (r1 + 0x08))
  spr := load stack (r1 + 0x14) 4
  r1 := r1 + 0x50
  pc := stack (r1 + 0x0c)
  msr := stack (r1 + 0x10)
  stack := stackAbove (r1 + 0x50) top stack

def answered (x : Context) (v : ℕ) (left : Cpu) : Context :=
  { x with
    gpr := ![left.gpr 0, v, x.gpr 2, x.gpr 3, x.gpr 4, x.gpr 5, x.gpr 6, x.gpr 7, left.gpr 8,
      left.gpr 9, left.gpr 10]
    spr := update left.spr 1 (x.spr 1) }

def Roomy (bottom top r1 : ℕ) : Prop := bottom + 0x50 ≤ r1 ∧ r1 ≤ top

variable {cpu left : Cpu} {stack stack' : ℕ → ℕ} {isr bottom top r1 sp v a : ℕ}

lemma epilogue_view (top : ℕ) (cpu : Cpu) (stack : ℕ → ℕ) :
    view top (epilogue cpu stack) stack = framed top cpu.r1 stack := rfl

lemma stackAbove_congr (h : ∀ a, sp ≤ a → a < top → stack a = stack' a) :
    stackAbove sp top stack = stackAbove sp top stack' := by
  funext a
  rw [stackAbove, stackAbove]
  split_ifs with ha
  · exact h a ha.1 ha.2
  · rfl

lemma framed_congr (h : ∀ a, r1 ≤ a → a < top → stack' a = stack a) (htop : r1 + 0x50 ≤ top) :
    framed top r1 stack' = framed top r1 stack := by
  simp only [framed]
  rw [load_congr h (by omega) (by omega), load_congr h (by omega) (by omega), h _ (by omega) (by omega),
    h _ (by omega) (by omega), h _ (by omega) (by omega)]
  congr 1
  exact stackAbove_congr fun a ha hlt => h a (by omega) hlt

lemma prologue_frame (isr : ℕ) (stack : ℕ → ℕ) (h : 0x50 ≤ cpu.r1) (hlt : cpu.r1 < 4294967296) :
    (prologue isr cpu stack).1 + 0x50 = cpu.r1 ∧
      ∀ a, a < (prologue isr cpu stack).1 ∨ cpu.r1 ≤ a → (prologue isr cpu stack).2 a = stack a := by
  have hsub : (prologue isr cpu stack).1 = cpu.r1 - 0x50 := sub32_eq h hlt
  refine ⟨by omega, fun a ha => ?_⟩
  rw [hsub] at ha
  have hsub' : sub32 cpu.r1 0x50 = cpu.r1 - 0x50 := hsub
  simp only [prologue, hsub']
  rw [store_outside (by omega), store_outside (by omega), update_of_ne (by omega),
    store_outside (by omega), update_of_ne (by omega)]

lemma prologue_framed (isr top : ℕ) (stack : ℕ → ℕ) (h : 0x50 ≤ cpu.r1) (hlt : cpu.r1 < 4294967296) :
    framed top (prologue isr cpu stack).1 (prologue isr cpu stack).2 = view top cpu stack := by
  obtain ⟨hplace, houtside⟩ := prologue_frame isr stack h hlt
  have hmem : (prologue isr cpu stack).2 = store (store (update (store (update stack
      (prologue isr cpu stack).1 cpu.r1) ((prologue isr cpu stack).1 + 0x0c) ![cpu.pc, cpu.msr])
      ((prologue isr cpu stack).1 + 0x08) (cpu.gpr 1)) ((prologue isr cpu stack).1 + 0x14) cpu.spr)
      ((prologue isr cpu stack).1 + 0x24) (update cpu.gpr 1 isr) := rfl
  generalize hr1 : (prologue isr cpu stack).1 = r1 at *
  generalize (prologue isr cpu stack).2 = m at *
  have hgpr : load m (r1 + 0x24) 11 = update cpu.gpr 1 isr := by rw [hmem, load_store]
  have hspr : load m (r1 + 0x14) 4 = cpu.spr := by rw [hmem, load_store_apart (by omega), load_store]
  have hr3 : m (r1 + 0x08) = cpu.gpr 1 := by
    rw [hmem, store_outside (by omega), store_outside (by omega), update_self]
  have hsrr : load m (r1 + 0x0c) 2 = ![cpu.pc, cpu.msr] := by
    rw [hmem, load_store_apart (by omega), load_store_apart (by omega), load_update_apart (by omega),
      load_store]
  have hpc : m (r1 + 0x0c) = cpu.pc := by simpa [load] using congrFun hsrr 0
  have hmsr : m (r1 + 0x10) = cpu.msr := by simpa [load] using congrFun hsrr 1
  have habove : stackAbove cpu.r1 top m = stackAbove cpu.r1 top stack :=
    stackAbove_congr fun a ha _ => houtside a (Or.inr ha)
  rw [framed, hgpr, hspr, hr3, hpc, hmsr, hplace, update_idem, update_eq_self, habove, view]

lemma enterService_frame (stack : ℕ → ℕ) (h : 32 ≤ cpu.r1) (hlt : cpu.r1 < 4294967296) :
    (enterService cpu stack).1 + 32 = cpu.r1 ∧
      ∀ a, a < (enterService cpu stack).1 ∨ cpu.r1 ≤ a → (enterService cpu stack).2 a = stack a := by
  have hsub : (enterService cpu stack).1 = cpu.r1 - 32 := sub32_eq h hlt
  refine ⟨by omega, fun a ha => ?_⟩
  rw [hsub] at ha
  have hsub' : sub32 cpu.r1 32 = cpu.r1 - 32 := hsub
  simp only [enterService, hsub']
  rw [store_outside (by omega), store_outside (by omega)]

lemma leaveService_view (h : 32 ≤ cpu.r1) (hlt : cpu.r1 < 4294967296)
    (hstack : ∀ a, cpu.r1 - 32 ≤ a → a < top → stack' a = (enterService cpu stack).2 a)
    (htop : cpu.r1 ≤ top) :
    view top (leaveService (enterService cpu stack).1 v cpu left stack') stack' =
      answered (view top cpu stack) v left := by
  obtain ⟨hplace, houtside⟩ := enterService_frame stack h hlt
  have hmem : (enterService cpu stack).2 = store (store stack (enterService cpu stack).1
      ![cpu.gpr 2, cpu.gpr 3, cpu.gpr 4, cpu.gpr 5, cpu.gpr 6, cpu.gpr 7])
      ((enterService cpu stack).1 + 24) ![cpu.pc, cpu.msr] := rfl
  generalize (enterService cpu stack).1 = r1 at *
  generalize (enterService cpu stack).2 = m at *
  have hsaved : load m r1 6 = ![cpu.gpr 2, cpu.gpr 3, cpu.gpr 4, cpu.gpr 5, cpu.gpr 6, cpu.gpr 7] := by
    rw [hmem, load_store_apart (by omega), load_store]
  have hsrr : load m (r1 + 24) 2 = ![cpu.pc, cpu.msr] := by rw [hmem, load_store]
  have hgpr : ∀ i : Fin 6, stack' (r1 + 4 * i) =
      ![cpu.gpr 2, cpu.gpr 3, cpu.gpr 4, cpu.gpr 5, cpu.gpr 6, cpu.gpr 7] i := by
    intro i
    have := i.isLt
    rw [hstack _ (by omega) (by omega), ← hsaved, load]
  have hpc : stack' (r1 + 24) = cpu.pc := by
    rw [hstack _ (by omega) (by omega)]
    simpa [load] using congrFun hsrr 0
  have hmsr : stack' (r1 + 28) = cpu.msr := by
    rw [hstack _ (by omega) (by omega)]
    simpa [load] using congrFun hsrr 1
  have h0 : stack' r1 = cpu.gpr 2 := by simpa using hgpr 0
  have h1 : stack' (r1 + 4) = cpu.gpr 3 := by simpa using hgpr 1
  have h2 : stack' (r1 + 8) = cpu.gpr 4 := by simpa using hgpr 2
  have h3 : stack' (r1 + 12) = cpu.gpr 5 := by simpa using hgpr 3
  have h4 : stack' (r1 + 16) = cpu.gpr 6 := by simpa using hgpr 4
  have h5 : stack' (r1 + 20) = cpu.gpr 7 := by simpa using hgpr 5
  have habove : stackAbove cpu.r1 top stack' = stackAbove cpu.r1 top stack := by
    refine stackAbove_congr fun a ha hlt => (hstack a (by omega) hlt).trans ?_
    exact houtside a (Or.inr ha)
  rw [view, leaveService, answered, view, hplace, hpc, hmsr, habove]
  dsimp only
  rw [h0, h1, h2, h3, h4, h5]

section Launch

/-- How a task begins. Its argument is not among what it finds: `IVOR4_Handler` takes r3 from the
word below the saved registers, where nothing has been stored. -/
structure Launched (B : Build) (top ptrFunc : ℕ) (x : Context) : Prop where
  entry : x.pc = ptrFunc
  msr : x.msr = 0xD000
  link : x.spr 1 = B.resolveEnd
  r1 : x.r1 + 12 = top

variable {B : Build} {base f arg arg' : ℕ}

lemma initialPsp_eq (hsize : 32 ≤ B.taskStackSize) (hend : base + 4 * B.taskStackSize ≤ 4294967296) :
    initialPsp .mpc57x8 B base + 92 = base + 4 * B.taskStackSize := by
  rw [initialPsp, Port.frameWords]
  omega

lemma init_word (hsize : 32 ≤ B.taskStackSize) (hend : base + 4 * B.taskStackSize ≤ 4294967296) {k : ℕ}
    (hk : k < 22) : wordAddress (initialPsp .mpc57x8 B base) k = initialPsp .mpc57x8 B base + 4 * k := by
  have := initialPsp_eq hsize hend
  rw [wordAddress, uint32_eq (by omega)]

lemma init_stack (hsize : 32 ≤ B.taskStackSize) (hend : base + 4 * B.taskStackSize ≤ 4294967296)
    (f arg : ℕ) : archTaskStackInit .mpc57x8 B stack base f arg =
      update (update (update (update stack (initialPsp .mpc57x8 B base + 12) f)
        (initialPsp .mpc57x8 B base + 16) 0xD000) (initialPsp .mpc57x8 B base + 24) B.resolveEnd)
        (initialPsp .mpc57x8 B base + 40) arg := by
  simp [archTaskStackInit, storeWords, Port.stored, init_word hsize hend]

lemma init_launched (hsize : 32 ≤ B.taskStackSize) (hend : base + 4 * B.taskStackSize ≤ 4294967296)
    (f arg : ℕ) : Launched B (base + 4 * B.taskStackSize) f (framed (base + 4 * B.taskStackSize)
      (initialPsp .mpc57x8 B base) (archTaskStackInit .mpc57x8 B stack base f arg)) := by
  have hpsp := initialPsp_eq hsize hend
  rw [init_stack hsize hend]
  refine ⟨?_, ?_, ?_, ?_⟩
  · simp [framed]
  · simp [framed]
  · simp [framed, load]
  · simp only [framed]
    omega

lemma init_argument (hsize : 32 ≤ B.taskStackSize) (hend : base + 4 * B.taskStackSize ≤ 4294967296)
    (top f arg arg' : ℕ) :
    framed top (initialPsp .mpc57x8 B base) (archTaskStackInit .mpc57x8 B stack base f arg) =
      framed top (initialPsp .mpc57x8 B base) (archTaskStackInit .mpc57x8 B stack base f arg') := by
  rw [init_stack hsize hend, init_stack hsize hend]
  generalize update (update (update stack _ _) _ _) _ B.resolveEnd = m
  generalize initialPsp .mpc57x8 B base = sp
  have happart : ∀ {a v}, a ≠ sp + 40 → update m (sp + 40) v a = m a := fun h => update_of_ne h _ _
  have hgpr : ∀ v, update (load (update m (sp + 40) v) (sp + 0x24) 11) 1 (m (sp + 0x08)) =
      update (load m (sp + 0x24) 11) 1 (m (sp + 0x08)) := by
    intro v
    funext i
    rcases eq_or_ne i 1 with rfl | hi
    · rw [update_self, update_self]
    · rw [update_of_ne hi, update_of_ne hi, load, load, happart]
      have : (i : ℕ) ≠ 1 := fun h => hi (Fin.ext h)
      omega
  have hstack : ∀ v, stackAbove (sp + 0x50) top (update m (sp + 40) v) = stackAbove (sp + 0x50) top m :=
    fun v => stackAbove_congr fun a ha _ => happart (by omega)
  have hspr : ∀ v, load (update m (sp + 40) v) (sp + 0x14) 4 = load m (sp + 0x14) 4 :=
    fun v => load_update_apart (by omega)
  simp only [framed, hstack, hspr, ne_eq, Nat.add_left_cancel_iff, Nat.reduceEqDiff, not_false_eq_true,
    happart, hgpr]

end Launch

end Skibios.Switching.Mpc.Frames
