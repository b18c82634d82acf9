import Skibios.Library.Banks
import Skibios.Switching.Transparency

/-! What a maintainer may count on: tasks keep their registers and stacks over any run of the ARM
system on a layout of `objgen`, and the MPU confines the running one. -/

namespace Skibios.Switching.Isolation

open Function Library.Words Library.Runs Library.Banks Kernel State Services Events Cortex Moves
open Exceptions Contexts Transparency Protection.UserRegions
open Access (bottom Wired Generated UserWritable)
open Layout Objgen
open Regions (Protected)

variable {D : Device} {R : Resources} {P : Params} {S : Sections} {B : Build} {c : Config}
  {stkalign : Bool} {mpu : Mpu} {cpu : Cpu} {mem stack : ℕ → ℕ} {objs : ℕ → TaskObject}
  {m n : Machine} {l : Label} {ls : List Label} {k : ℕ}

section Resumption

/-- Steps while the task in slot `k` lives and does not run. -/
def Away (B : Build) (stkalign : Bool) (c : Config) (k : ℕ) (m : Machine) (l : Label) (n : Machine) :
    Prop :=
  Exceptions.Step B stkalign c m l n ∧ Live B n.kernel k ∧
    ¬ (m.mode = .thread ∧ m.kernel.currentTask = k)

/-- What a step out of thread mode does to the task that made it or was interrupted. -/
def reply : Label → Context → Context
  | .call _ v => fun x => answered x v
  | .region _ v => fun x => answered x v
  | _ => id

variable {a b : Contexts.Tasks}

/-- Whose context a step works on once the scheduler runs, and what it does to it. -/
def acting (a : Contexts.Tasks) : Label → Option ℕ
  | .work .. | .call .. | .region .. => some a.kernel.currentTask
  | _ => none

def acts (B : Build) (a : Contexts.Tasks) : Label → Context → Context
  | .work cpu stack => fun _ => view (bottom B (a.kernel.currentTask + 1)) cpu stack
  | l => reply l

lemma launches_bank {s t : KernelState} {e : Event} {ctx ctx' : ℕ → Context}
    (h : Launches B s e t ctx ctx') : Launch (Live B s) ctx ctx' := by
  rcases h with rfl | ⟨p, arg, i, x, -, hfree, -, -, rfl⟩
  · exact .none
  · exact .fresh hfree

lemma step_turn (h : Contexts.Step B a l b) (hmain : a.mode ≠ .main) :
    Turn (Live B a.kernel) (acts B a l) a.ctx (acting a l) b.ctx := by
  cases h with
  | work => exact .own .none
  | own _ _ _ launch => exact .rest (launches_bank launch)
  | start mode => exact absurd mode hmain
  | call _ _ launch => exact .own (launches_bank launch)
  | region => exact .own .none
  | interrupt | tick | scratch | scheduler | pendsv | leave => exact .rest .none

lemma step_passes (h : Contexts.Step B a l b) (hmain : a.mode ≠ .main) (hk : Live B a.kernel k)
    (haway : ¬ (a.mode = .thread ∧ a.kernel.currentTask = k)) :
    Passes (Live B a.kernel) k a.ctx b.ctx := by
  refine ⟨_, _, step_turn h hmain, hk, fun ho => ?_⟩
  cases h with
  | work mode | call mode | region mode => exact haway ⟨mode, Option.some.inj ho⟩
  | _ => cases ho

lemma step_mode (h : Contexts.Step B a l b) (hmain : a.mode ≠ .main) : b.mode ≠ .main := by
  cases h with
  | work | own | scratch | scheduler | pendsv => exact hmain
  | start mode => exact absurd mode hmain
  | call | region | interrupt | tick | leave => nofun

lemma step_reply (h : Contexts.Step B a l b) (hm : a.mode = .thread) (hb : b.mode = .handler)
    (hk : InThread a.kernel → Live B a.kernel a.kernel.currentTask) :
    b.ctx a.kernel.currentTask = reply l (a.ctx a.kernel.currentTask) := by
  have hthread : a.mode ≠ .handler := by rw [hm]; decide
  have hmain : a.mode ≠ .main := by rw [hm]; decide
  have hturn := step_turn h hmain
  cases h with
  | work | own => exact absurd hb hthread
  | start mode => exact absurd mode hmain
  | call _ move =>
    obtain ⟨s, t, hs, ⟨hth, -⟩, -⟩ := move
    exact hturn.acted (hk (hs ▸ hth))
  | region => simp only [update_self, reply]
  | interrupt | tick => rfl
  | scratch mode | scheduler mode | pendsv mode | leave mode => exact absurd mode hthread

lemma away_keeps (hw : Wired B c lo hi) {a : Contexts.Tasks} (hr : Refines B stkalign c m a)
    (hmain : m.mode ≠ .main) (hk : Live B m.kernel k) (h : Run (Away B stkalign c k) m ls n) :
    ∃ b, Refines B stkalign c n b ∧ b.ctx k = a.ctx k := by
  have hstep : ∀ m a l n, (Refines B stkalign c m a ∧ m.mode ≠ .main ∧ Live B m.kernel k) →
      Away B stkalign c k m l n → ∃ b, Passes (Live B a.kernel) k a.ctx b.ctx ∧
        (Refines B stkalign c n b ∧ n.mode ≠ .main ∧ Live B n.kernel k) := by
    rintro m a l n ⟨hr, hmain, hk⟩ ⟨hs, hlive, haway⟩
    obtain ⟨b, hb, hr'⟩ := hr.step hw hs
    rw [← hr.mode] at hmain haway
    rw [← hr'.mode]
    refine ⟨b, step_passes hb hmain ?_ ?_, hr', step_mode hb hmain, hlive⟩
    · rwa [hr.kernel]
    · rwa [hr.kernel]
  obtain ⟨b, hb, hr', -⟩ := Run.simulated hstep ⟨hr, hmain, hk⟩ h
  exact ⟨b, hr', Run.entry_kept (fun _ _ _ h => h) hb⟩

end Resumption

section Overflow

lemma pendsv_stack (m : Machine) (stack : ℕ → ℕ) : ((m.withStack stack).pendsv c).kernel.stack =
    (saveContext m.excReturn m.cpu stack).2 := rfl

/-- PendSV stores what a handler keeps as privileged code, so nothing stops it below the stack: it
spares the stack below whatever that holds exactly where there is room for ten words, or for
twenty-six after floating-point instructions. -/
theorem pendsv_spares_iff (hg : Generated D R P S B c) (hp : Protected D P c.kernelRegionSrd)
    (hk : k + 1 < B.maxTaskCount)
    (hcur : m.kernel.currentTask = k + 1) (hl : bottom B (k + 1) ≤ m.cpu.psp)
    (hu : m.cpu.psp ≤ bottom B (k + 1 + 1)) :
    (∀ stack, Elsewhere B (k + 1) stack ((m.withStack stack).pendsv c).kernel.stack) ↔
      bottom B (k + 1) + saveSize (fpFrame m.excReturn) ≤ m.cpu.psp := by
  have hw := hg.wired hp
  have hlt := bottom_lt hw hk
  have hsize := hw.size
  have hbelow := Access.bottom_succ B k
  have hsave : saveSize (fpFrame m.excReturn) ≤ 104 := by cases fpFrame m.excReturn <;> decide
  have hstored : ∀ stack, Stored m.excReturn m.cpu stack (saveContext m.excReturn m.cpu stack).1
      (saveContext m.excReturn m.cpu stack).2 := fun stack => save_stored (by omega) (by omega)
  have hplace := fun stack => (hstored stack).place
  simp only [pendsv_stack]
  constructor
  · intro h
    by_contra hroom
    let stack : ℕ → ℕ := fun _ => m.excReturn + 1
    have hsp := hplace stack
    have hlink := (hstored stack).link
    have hword : (saveContext m.excReturn m.cpu stack).2 (saveContext m.excReturn m.cpu stack).1 =
        m.excReturn + 1 := h stack k (by omega) (by omega) _ (by omega) (by omega)
    exact Nat.succ_ne_self _ (hword.symm.trans hlink)
  · intro hroom stack
    refine Elsewhere.of_outside ?_ hu (hstored stack).outside
    have := hplace stack
    omega

end Overflow

section Instances

open Windows (sections resources params_sections params_count)
open Regions (tm4c1294 params params_accepted)

/-- The build for 24 tasks in 16 KB of the SRAM. -/
def board : Build :=
  { Build.small 24 (by decide) (by decide) with
    taskStackSize := 128
    procHeapAddr := 0x20000C00
    procHeapAddr_pos := by decide
    procHeapAddr_lt := by decide }

def boardConfig : Config where
  kernelRegionSize := 0b01101
  kernelRegionSrd := 0
  mpuPstackSize := 0b01000
  mpuTable i := ((List.range 24).flatMap fun i =>
    [uint32 (0x20000C00 + i * 512 + 23), 0b01000 <<< 1 ||| Objgen.mpuKernelDefault |||
      mpuApPrwUrw <<< 24 ||| Objgen.mpuRegionEnable]).getD i 0

lemma board_generated : Generated tm4c1294 resources (params 0x20000000 16) sections board boardConfig := by
  have hfloor : ⌊(24 : ℚ)⌋₊ = 24 := by norm_num
  have hpower : nextPowerOf2 16 = 2 ^ 4 := nextPowerOf2_eq (by norm_num) (by norm_num)
  refine ⟨params_sections, Or.inl rfl, ?_, ?_, rfl, ⟨_, ?_, fun i => rfl⟩, ?_, ?_, rfl⟩
  · exact params_accepted 0x20000000 4 (le_refl 16) (by norm_num) (by norm_num) rfl
  · change kernelRegionToString 16 = _
    rw [kernelRegionToString, hpower]
    rfl
  · change (pstackSizeToString 512).map _ = _
    rw [pstackSizeToString, Option.map_some]
    simp only [sections, hfloor, params]
  · simp [generateParamHeader, sections, board, Build.small]
  · norm_num [generateParamHeader, params, board]

lemma board_protected : Protected tm4c1294 (params 0x20000000 16) boardConfig.kernelRegionSrd := by
  have h := params_accepted 0x20000000 4 (le_refl 16) (by norm_num) (by norm_num) rfl
  exact (Regions.protected_iff (by decide) h).mpr
    ⟨Or.inl rfl, ⟨1, by norm_num, 4, by norm_num [params]⟩, by decide⟩

def moved (e : Event) (m : Machine) : Machine :=
  { m with kernel := (Events.step board 64 m.kernel e).getD m.kernel }

def boardMpu : Mpu := ⟨0x800, 0, 0, fun _ => 0, fun _ => 0⟩

def boardCpu : Cpu := ⟨fun _ => 1, fun _ => 2, 0, false, false, fun _ => 0, fun _ => 0⟩

def boardInitial : Machine :=
  initial board boardConfig boardMpu boardCpu (fun _ => 0) (fun _ => ⟨0, 0, 5, 1000, 0, 0, 0, 0⟩) fun _ => 0

def boardMain : Machine := moved (.createTask 100 7) boardInitial

/-- The handler of the SVC that starts the scheduler is about to return. -/
def boardStarted : Machine :=
  let m := (boardMain.switchMcuMode boardMain.cpu).enter true
  ({ m with
    kernel := handOverState (startState board { m.kernel with currentTask := 0 })
    cpu := { m.cpu with psp := m.kernel.pspArray 0 + 40 } } : Machine).answer errorNone

/-- The scheduler, PendSV and the return. -/
def resumed (m : Machine) : Machine := ((moved .scheduler m).pendsv boardConfig).leave true

def handedOver (m : Machine) : Machine :=
  ({ m.enter true with kernel := handOverState (m.enter true).kernel } : Machine).answer errorNone

/-- The first task, after a hand-over to the base task, after the hand-over back. -/
def boardFirst : Machine := resumed boardStarted
def boardSecond : Machine := resumed (handedOver boardFirst)
def boardThird : Machine := resumed (handedOver boardSecond)

lemma resumed_away (hm : m.mode = .handler)
    (hsome : (Events.step board 64 m.kernel .scheduler).isSome = true)
    (hpending : (moved .scheduler m).kernel.switchPending = true)
    (hthread : InThread ((moved .scheduler m).pendsv boardConfig).kernel)
    (hlive : Live board (moved .scheduler m).kernel k) :
    Run (Away board true boardConfig k) m [.scheduler, .pendsv, .leave] (resumed m) := by
  have hmode : (moved .scheduler m).mode = .handler := hm
  have hout : ∀ {n : Machine}, n.mode = .handler → ¬ (n.mode = .thread ∧ n.kernel.currentTask = k) := by
    rintro n hn ⟨ht, -⟩
    rw [hn] at ht
    cases ht
  refine Run.cons ⟨.scheduler hm (step_getD hsome), hlive, hout hm⟩ ?_
  refine Run.cons ⟨.pendsv hmode hpending, hlive, hout hmode⟩ ?_
  exact Run.single ⟨.leave hmode hthread, hlive, hout (n := (moved .scheduler m).pendsv boardConfig) hmode⟩

lemma resumed_run (hm : m.mode = .handler)
    (hsome : (Events.step board 64 m.kernel .scheduler).isSome = true)
    (hpending : (moved .scheduler m).kernel.switchPending = true)
    (hthread : InThread ((moved .scheduler m).pendsv boardConfig).kernel)
    (hlive : Live board (moved .scheduler m).kernel k) :
    Run (Exceptions.Step board true boardConfig) m [.scheduler, .pendsv, .leave] (resumed m) :=
  (resumed_away hm hsome hpending hthread hlive).mono fun _ _ _ h => h.1

lemma handedOver_step (hm : m.mode = .thread) (hth : InThread m.kernel) :
    Exceptions.Step board true boardConfig m (.call .handOver errorNone) (handedOver m) :=
  .call hm trivial ⟨hth, _, rfl, rfl⟩

lemma boardStarted_run : Run (Exceptions.Step board true boardConfig) boardInitial
    [.own (.createTask 100 7), .start boardMain.cpu] boardStarted := by
  have hsome : (Events.step board 64 boardInitial.kernel (.createTask 100 7)).isSome = true := by
    decide +kernel
  refine Run.cons (.own (by decide) rfl ⟨by decide, by decide⟩ (step_getD hsome)) ?_
  exact Run.single (.start rfl (by decide +kernel) (by decide +kernel) rfl)

lemma boardFirst_run : Run (Exceptions.Step board true boardConfig) boardInitial
    [.own (.createTask 100 7), .start boardMain.cpu, .scheduler, .pendsv, .leave] boardFirst :=
  boardStarted_run.append (resumed_run (k := 0) rfl (by decide +kernel) (by decide +kernel)
    (by decide +kernel) (by decide +kernel))

lemma boardFirst_thread : InThread boardFirst.kernel := by decide +kernel

lemma boardSecond_thread : InThread boardSecond.kernel := by decide +kernel

lemma boardSecond_away : Run (Away board true boardConfig 1) (handedOver boardFirst)
    [.scheduler, .pendsv, .leave, .call .handOver 0, .scheduler, .pendsv, .leave] boardThird := by
  have hback : Away board true boardConfig 1 boardSecond (.call .handOver 0) (handedOver boardSecond) :=
    ⟨handedOver_step rfl boardSecond_thread, by decide +kernel, by decide +kernel⟩
  have hsecond : Run (Away board true boardConfig 1) (handedOver boardFirst)
      [.scheduler, .pendsv, .leave] boardSecond :=
    resumed_away rfl (by decide +kernel) (by decide +kernel) (by decide +kernel) (by decide +kernel)
  have hthird : Run (Away board true boardConfig 1) (handedOver boardSecond)
      [.scheduler, .pendsv, .leave] boardThird :=
    resumed_away rfl (by decide +kernel) (by decide +kernel) (by decide +kernel) (by decide +kernel)
  exact hsecond.append (hthird.cons hback)

/-- A frame with two words below it. -/
def boardCrowded : Machine :=
  { handedOver boardFirst with cpu := { (handedOver boardFirst).cpu with psp := 0x20000E08 } }

theorem pendsv_spares_iff_board : ¬ ∀ stack, Elsewhere board 1 stack
    ((boardCrowded.withStack stack).pendsv boardConfig).kernel.stack := by
  have hbottom : bottom board 1 = 0x20000E00 ∧ bottom board 2 = 0x20001000 := by decide
  have h := pendsv_spares_iff (k := 0) (m := boardCrowded) board_generated board_protected (by decide)
    (by decide +kernel) (by rw [hbottom.1]; decide) (by rw [hbottom.2]; decide)
  have hfp : fpFrame boardCrowded.excReturn = false := by decide +kernel
  rw [hfp, hbottom.1] at h
  exact fun hall => absurd (h.mp hall) (by decide)

end Instances

end Skibios.Switching.Isolation
