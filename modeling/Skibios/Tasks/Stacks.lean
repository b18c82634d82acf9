import Skibios.Kernel.Events

/-! The stack a created task gets, on the ports that have `arch_task_stack_init`: the loop before it
clears a quarter of the words. -/

namespace Skibios.Tasks.Stacks

open Function Library.Words Library.Loops Kernel State
open TaskServices (slotStack idleSlot insertLevel setError)
open Events (bootState)

inductive Port
  | armM3m4
  | mpc57x8
  deriving DecidableEq

/-- The words of the initial frame, on MPC57x8 with the two words for padding. -/
def Port.frameWords : Port → ℕ
  | armM3m4 => 18
  | mpc57x8 => 22

/-- The words `arch_task_stack_init` stores, by their place in the frame. -/
def Port.stored (B : Build) (ptrFunc procArg : ℕ) : Port → List (ℕ × ℕ)
  | armM3m4 => [(0, 0xFFFFFFFD), (1, 3), (10, procArg), (15, B.resolveEnd), (16, ptrFunc),
      (17, 0x01000000)]
  | mpc57x8 => [(3, ptrFunc), (4, 0xD000), (6, B.resolveEnd), (10, procArg)]

def Port.places : Port → List ℕ
  | armM3m4 => [0, 1, 10, 15, 16, 17]
  | mpc57x8 => [3, 4, 6, 10]

/-- The address of `pheap_ptr[j]`, where `pheap_ptr` is `base`. -/
def wordAddress (base j : ℕ) : ℕ := uint32 (base + 4 * j)

def storeWords (stack : ℕ → ℕ) (base : ℕ) (ws : List (ℕ × ℕ)) : ℕ → ℕ :=
  ws.foldl (fun st w => update st (wordAddress base w.1) w.2) stack

def clearStack (B : Build) (stack : ℕ → ℕ) (psp : ℕ) : ℕ → ℕ :=
  forRange (B.taskStackSize / 4) (fun j st => update st (wordAddress psp j) 0) stack

/-- What `arch_task_stack_init` makes of `PSP_Array[task_index]`. -/
def initialPsp (P : Port) (B : Build) (psp : ℕ) : ℕ :=
  (((psp : ℤ) + ((B.taskStackSize : ℤ) - 1) * 4 - P.frameWords * 4) % 4294967296).toNat

def archTaskStackInit (P : Port) (B : Build) (stack : ℕ → ℕ) (psp ptrFunc procArg : ℕ) : ℕ → ℕ :=
  storeWords stack (initialPsp P B psp) (P.stored B ptrFunc procArg)

def placeTask (P : Port) (B : Build) (s : KernelState) (p arg i psp ptr : ℕ) (stash : ℕ → ℕ) :
    KernelState :=
  { TaskServices.placeTask B s p arg i psp ptr stash with
    pspArray := update s.pspArray i (initialPsp P B psp)
    stack := archTaskStackInit P B (clearStack B s.stack psp) psp (s.objs p).ptrFunc arg }

/-- `svc_service_task_create` with the `arch_task_stack_init` of the port. -/
def svcServiceTaskCreate (P : Port) (B : Build) : Service := fun call s =>
  let p := call.arg0
  if s.taskCount < B.maxTaskCount then
    let i := idleSlot B s
    if 127 < (s.objs p).priority ∨ ((s.objs p).priority = 0 ∧ s.firstStart = true) then
      some (errorInvalidTaskPriority, call, setError s p errorInvalidTaskPriority)
    else if B.maxTaskCount ≤ i then none
    else if slotStack B s i = 0 then
      some (errorOutOfMemory, call,
        { setError s p errorOutOfMemory with pspArray := update s.pspArray i 0 })
    else
      (insertLevel B s (s.objs p).priority).map fun (ptr, stash) =>
        (errorNone, call, placeTask P B s p call.arg1 i (slotStack B s i) ptr stash)
  else some (errorMaxProcessCount, call, setError s p errorMaxProcessCount)

def window (B : Build) (s : KernelState) (i : ℕ) : Set ℕ :=
  {a | ∃ j < B.taskStackSize, a = wordAddress (slotStack B s i) j}

/-- The words the clearing loop leaves out. -/
def upper (B : Build) (s : KernelState) (i : ℕ) : Set ℕ :=
  {a | a ∈ window B s i ∧ ∀ j < B.taskStackSize / 4, a ≠ wordAddress (slotStack B s i) j}

/-- The words of the window that `arch_task_stack_init` stores to. -/
def framed (P : Port) (B : Build) (s : KernelState) (i : ℕ) : Set ℕ :=
  {a | ∃ k ∈ P.places, a = wordAddress (slotStack B s i) (B.taskStackSize - 1 - P.frameWords + k)}

/-- Only words of the slot's window have changed, the initial stack pointer and the frame are in it,
and all else in it is 0. -/
structure Clean (P : Port) (B : Build) (s t : KernelState) (i : ℕ) : Prop where
  outside : ∀ a, a ∉ window B s i → t.stack a = s.stack a
  mem : t.mem = s.mem
  pointer : t.pspArray i ∈ window B s i
  frame : ∀ k < P.frameWords, wordAddress (t.pspArray i) k ∈ window B s i
  blank : ∀ a ∈ window B s i, a ∉ framed P B s i → t.stack a = 0

variable {P : Port} {B : Build} {s t : KernelState} {call call' : Call} {stack : ℕ → ℕ}
  {ws : List (ℕ × ℕ)} {a base i j k n : ℕ}

section Words

lemma wordAddress_add (base j k : ℕ) : wordAddress (wordAddress base j) k = wordAddress base (j + k) := by
  unfold wordAddress uint32
  omega

lemma storeWords_apply (ha : ∀ w ∈ ws, a ≠ wordAddress base w.1) : storeWords stack base ws a = stack a := by
  induction ws generalizing stack with
  | nil => rfl
  | cons w ws ih =>
    refine (ih fun v hv => ha v (List.mem_cons_of_mem w hv)).trans ?_
    exact update_of_ne (ha w List.mem_cons_self) _ _

lemma clear_apply (n : ℕ) : (∀ j < n, forRange n (fun j st => update st (wordAddress base j) 0) stack
      (wordAddress base j) = 0) ∧ ∀ a, (∀ j < n, a ≠ wordAddress base j) →
        forRange n (fun j st => update st (wordAddress base j) 0) stack a = stack a := by
  induction n with
  | zero => exact ⟨by simp, fun _ _ => rfl⟩
  | succ n ih =>
    rw [forRange_succ]
    refine ⟨fun j hj => ?_, fun a ha => ?_⟩
    · rcases eq_or_ne (wordAddress base j) (wordAddress base n) with heq | hne
      · rw [heq, update_self]
      · rw [update_of_ne hne]
        rcases Nat.lt_succ_iff_lt_or_eq.mp hj with hj | rfl
        · exact ih.1 j hj
        · exact absurd rfl hne
    · rw [update_of_ne (ha n n.lt_succ_self)]
      exact ih.2 a fun j hj => ha j (hj.trans n.lt_succ_self)

lemma Port.stored_places (P : Port) (B : Build) (f arg : ℕ) :
    (P.stored B f arg).map Prod.fst = P.places := by
  cases P <;> rfl

lemma Port.places_lt {P : Port} (hk : k ∈ P.places) : k < P.frameWords := by
  cases P <;> simp [Port.places, Port.frameWords] at hk ⊢ <;> omega

lemma Port.frameWords_le (P : Port) : P.frameWords ≤ 22 := by
  cases P <;> decide

lemma initialPsp_eq (P : Port) (hsize : 32 ≤ B.taskStackSize) (base : ℕ) :
    initialPsp P B base = wordAddress base (B.taskStackSize - 1 - P.frameWords) := by
  have := P.frameWords_le
  unfold initialPsp wordAddress uint32
  omega

end Words

section Windows

/-- Where no address wraps, the ARM creation is the one the other services run with. -/
lemma create_armM3m4 (hsize : 32 ≤ B.taskStackSize)
    (hend : slotStack B s (idleSlot B s) + 4 * B.taskStackSize ≤ 4294967296) :
    svcServiceTaskCreate .armM3m4 B call s = TaskServices.svcServiceTaskCreate B call s := by
  have hword : ∀ j < B.taskStackSize, wordAddress (slotStack B s (idleSlot B s)) j =
      slotStack B s (idleSlot B s) + 4 * j := by
    intro j hj
    rw [wordAddress, uint32, Nat.mod_eq_of_lt (by omega)]
  have hclear : clearStack B s.stack (slotStack B s (idleSlot B s)) =
      TaskServices.clearStack B s.stack (slotStack B s (idleSlot B s)) := by
    refine forRange_congr fun j hj st => ?_
    rw [hword j (hj.trans_le (Nat.div_le_self _ _))]
  have hframe : ∀ k < 18, wordAddress (initialPsp .armM3m4 B (slotStack B s (idleSlot B s))) k =
      TaskServices.initialPsp B (slotStack B s (idleSlot B s)) + 4 * k := by
    intro k hk
    have hpsp : TaskServices.initialPsp B (slotStack B s (idleSlot B s)) = wordAddress _ _ :=
      initialPsp_eq .armM3m4 hsize _
    rw [initialPsp_eq .armM3m4 hsize, wordAddress_add, hpsp]
    simp only [Port.frameWords]
    rw [hword _ (by omega), hword _ (by omega)]
    omega
  have hplace : ∀ p arg ptr stash, placeTask .armM3m4 B s p arg (idleSlot B s)
      (slotStack B s (idleSlot B s)) ptr stash = TaskServices.placeTask B s p arg (idleSlot B s)
      (slotStack B s (idleSlot B s)) ptr stash := by
    intro p arg ptr stash
    have hstack : ∀ f st, archTaskStackInit .armM3m4 B st (slotStack B s (idleSlot B s)) f arg =
        TaskServices.archTaskStackInit B st (slotStack B s (idleSlot B s)) f arg := by
      intro f st
      simp [archTaskStackInit, TaskServices.archTaskStackInit, storeWords, TaskServices.storeWords,
        Port.stored, hframe]
    rw [placeTask, hclear, hstack]
    rfl
  simp only [svcServiceTaskCreate, TaskServices.svcServiceTaskCreate, hplace]

lemma framed_subset (P : Port) (hsize : 32 ≤ B.taskStackSize) : framed P B s i ⊆ window B s i := by
  rintro a ⟨k, hk, rfl⟩
  have := P.frameWords_le
  have := Port.places_lt hk
  exact ⟨_, by omega, rfl⟩

lemma archTaskStackInit_apply (hsize : 32 ≤ B.taskStackSize) (f arg : ℕ) (ha : a ∉ framed P B s i) :
    archTaskStackInit P B stack (slotStack B s i) f arg a = stack a := by
  refine storeWords_apply fun w hw heq => ha ⟨w.1, ?_, ?_⟩
  · rw [← P.stored_places B f arg]
    exact List.mem_map_of_mem hw
  · rw [heq, initialPsp_eq P hsize, wordAddress_add]

lemma clearStack_upper (ha : a ∈ upper B s i) : clearStack B stack (slotStack B s i) a = stack a :=
  (clear_apply _).2 a ha.2

lemma clearStack_lower (ha : a ∈ window B s i) (hu : a ∉ upper B s i) :
    clearStack B stack (slotStack B s i) a = 0 := by
  have : ∃ j < B.taskStackSize / 4, a = wordAddress (slotStack B s i) j := by
    by_contra hno
    push Not at hno
    exact hu ⟨ha, hno⟩
  obtain ⟨j, hj, rfl⟩ := this
  exact (clear_apply _).1 j hj

lemma clearStack_outside (ha : a ∉ window B s i) : clearStack B stack (slotStack B s i) a = stack a := by
  refine (clear_apply _).2 a fun j hj heq => ha ⟨j, ?_, heq⟩
  exact hj.trans_le (Nat.div_le_self _ _)

lemma create_cases (h : svcServiceTaskCreate P B call s = some (errorNone, call', t)) :
    t.mem = s.mem ∧ t.pspArray (idleSlot B s) = initialPsp P B (slotStack B s (idleSlot B s)) ∧
    t.stack = archTaskStackInit P B (clearStack B s.stack (slotStack B s (idleSlot B s)))
      (slotStack B s (idleSlot B s)) (s.objs call.arg0).ptrFunc call.arg1 := by
  simp only [svcServiceTaskCreate] at h
  split_ifs at h with h1 h2 h3 h4
  · exact absurd h (by simp [errorInvalidTaskPriority, errorNone])
  · exact absurd h (by simp [errorOutOfMemory, errorNone])
  · obtain ⟨⟨ptr, stash⟩, -, he⟩ := Option.map_eq_some_iff.mp h
    obtain ⟨-, rfl⟩ := by simpa using he
    exact ⟨rfl, update_self _ _ _, rfl⟩
  · exact absurd h (by simp [errorMaxProcessCount, errorNone])

end Windows

/-- The words of the window beyond its first `TASK_STACK_SIZE / 4` keep what they held, unless the
frame is stored over them. -/
theorem created_clean (hsize : 32 ≤ B.taskStackSize)
    (h : svcServiceTaskCreate P B call s = some (errorNone, call', t)) :
    Clean P B s t (idleSlot B s) ↔
      ∀ a ∈ upper B s (idleSlot B s), a ∉ framed P B s (idleSlot B s) → s.stack a = 0 := by
  obtain ⟨hmem, hpsp, hstack⟩ := create_cases h
  have hP := P.frameWords_le
  have hword : ∀ a, a ∉ framed P B s (idleSlot B s) →
      t.stack a = clearStack B s.stack (slotStack B s (idleSlot B s)) a := by
    intro a ha
    rw [hstack]
    exact archTaskStackInit_apply hsize _ _ ha
  constructor
  · intro hc a ha hf
    have hkept : t.stack a = s.stack a := (hword a hf).trans (clearStack_upper ha)
    rw [← hkept]
    exact hc.blank a ha.1 hf
  intro hzero
  refine ⟨fun a ha => ?_, hmem, ?_, fun k hk => ?_, fun a ha hf => ?_⟩
  · rw [hword a fun hf => ha (framed_subset P hsize hf)]
    exact clearStack_outside ha
  · rw [hpsp, initialPsp_eq P hsize]
    exact ⟨_, by omega, rfl⟩
  · rw [hpsp, initialPsp_eq P hsize, wordAddress_add]
    exact ⟨_, by omega, rfl⟩
  · rw [hword a hf]
    by_cases hu : a ∈ upper B s (idleSlot B s)
    · rw [clearStack_upper hu]
      exact hzero a hu hf
    · exact clearStack_lower ha hu

section Leftover

def twoSlots : Build := { Build.two with taskStackSize := 32 }

/-- The RAM is full of ones at power-up, the task object at 100 has priority 5. -/
def dirtyBoot : KernelState :=
  bootState twoSlots (fun _ => 0) (fun _ => ⟨0, 0, 5, 1000, 0, 0, 0, 0⟩) fun _ => 1

def createCall : Call := ⟨0, 100, 7, 0, 0⟩

def created (P : Port) : KernelState :=
  ((svcServiceTaskCreate P twoSlots createCall dirtyBoot).map fun r => r.2.2).getD dirtyBoot

lemma created_runs (P : Port) :
    svcServiceTaskCreate P twoSlots createCall dirtyBoot = some (errorNone, createCall, created P) := by
  cases P <;> rfl

lemma slot_dirty : slotStack twoSlots dirtyBoot (idleSlot twoSlots dirtyBoot) = 4224 := by
  decide +kernel

theorem created_clean_mpc57x8 : Clean .mpc57x8 twoSlots dirtyBoot (created .mpc57x8)
    (idleSlot twoSlots dirtyBoot) ↔ ∀ a ∈ upper twoSlots dirtyBoot (idleSlot twoSlots dirtyBoot),
      a ∉ framed .mpc57x8 twoSlots dirtyBoot (idleSlot twoSlots dirtyBoot) → dirtyBoot.stack a = 0 :=
  created_clean (by decide) (created_runs .mpc57x8)

/-- The word at 4256, the first that is not cleared, is still 1. -/
theorem created_clean_fails :
    svcServiceTaskCreate .armM3m4 twoSlots createCall dirtyBoot =
      some (errorNone, createCall, created .armM3m4) ∧
    ¬ Clean .armM3m4 twoSlots dirtyBoot (created .armM3m4) (idleSlot twoSlots dirtyBoot) := by
  refine ⟨created_runs .armM3m4, fun hc => ?_⟩
  have hin : 4256 ∈ window twoSlots dirtyBoot (idleSlot twoSlots dirtyBoot) :=
    ⟨8, by decide, by rw [slot_dirty]; decide⟩
  have hout : 4256 ∉ framed .armM3m4 twoSlots dirtyBoot (idleSlot twoSlots dirtyBoot) := by
    rintro ⟨k, hk, heq⟩
    rw [slot_dirty] at heq
    revert k
    decide
  have hone : (created .armM3m4).stack 4256 = 1 := by decide +kernel
  have hzero := hc.blank 4256 hin hout
  rw [hone] at hzero
  exact one_ne_zero hzero

end Leftover

end Skibios.Tasks.Stacks
