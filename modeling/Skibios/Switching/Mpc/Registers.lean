import Skibios.Library.Banks
import Skibios.Switching.Mpc.Refinement

/-! What a task of the MPC57x8 port has for itself: r0, r1, r3 to r12, CR, LR, CTR, XER and its stack
survive whatever the others do, r2 and r13 to r31 are those of whoever worked last. -/

namespace Skibios.Switching.Mpc.Registers

open Function Library.Runs Library.Banks Kernel State Services Events Effects Tasks.Invariants
open Tasks Frames Preemption Access Kernels Machines Refinement
open Exceptions (Mode)

variable {B : Build} {cpu : Cpu} {mem stack : ℕ → ℕ} {objs : ℕ → TaskObject} {m n : Machine} {a b : Bank}
  {l : Machines.Label} {ls : List Machines.Label} {k : ℕ}

/-- Every run of the system is one of the machine that has a bank of registers for each task but
shares r2 and r13 to r31, and the running task sees what it would see there. -/
theorem switching_shares_upper (hw : Wide B)
    (h : Run (Machines.Step B) (Machines.initial B cpu mem objs stack) ls m) :
    ∃ x a, Launched B (bottom B 1) B.baseTaskEntry x ∧ Run (BankStep B)
      ⟨bare (Preemption.initial B mem objs stack), update (fun _ => none) 0 (some x), cpu.upper, .main⟩
      ls a ∧
      a.core = bare m.core ∧ a.mode = m.mode ∧ (m.mode ≠ .main → m.cpu.upper = a.upper) ∧
      (m.mode = .thread → m.kernel.switchPending = false → a.ctx m.kernel.currentTask =
        some (view (bottom B (m.kernel.currentTask + 1)) m.cpu m.kernel.stack)) := by
  obtain ⟨x, a, hx, ha, hr⟩ := run_refines hw h
  refine ⟨x, a, hx, ha, hr.core, hr.mode, hr.upper, fun hm hq => ?_⟩
  obtain ⟨y, hy, hview, -⟩ := hr.thread hm hq
  rw [hy, hview]

section Resumption

def Departs : Machines.Label → Prop
  | .call .. | .interrupt _ => True
  | _ => False

/-- Steps while the task in slot `k` lives and does not run. -/
def Away (B : Build) (k : ℕ) (m : Machine) (l : Machines.Label) (n : Machine) : Prop :=
  Machines.Step B m l n ∧ Live B n.kernel k ∧
    ¬ (m.mode = .thread ∧ m.kernel.switchPending = false ∧ m.kernel.currentTask = k)

/-- What a step does to the task that leaves off by it. -/
def reply : Machines.Label → Context → Context
  | .call _ v left => fun x => answered x v left
  | _ => id

def upperAfter (u : Fin 20 → ℕ) : Machines.Label → Fin 20 → ℕ
  | .work cpu _ | .start cpu _ => cpu.upper
  | _ => u

/-- Whose context a step works on, and what it does to it. -/
def acting (a : Bank) : Machines.Label → Option ℕ
  | .work .. | .call .. => some a.core.kernel.currentTask
  | _ => none

def acts (B : Build) (a : Bank) : Machines.Label → Option Context → Option Context
  | .work cpu stack => fun _ => some (view (bottom B (a.core.kernel.currentTask + 1)) cpu stack)
  | l => Option.map (reply l)

lemma launches_bank {s t : KernelState} {e : Event} {ctx ctx' : ℕ → Option Context}
    (h : Machines.Launches B s e t ctx ctx') : Launch (Live B s) ctx ctx' := by
  rcases h with rfl | ⟨p, arg, i, x, -, hfree, -, -, rfl⟩
  · exact .none
  · exact .fresh fun hlive => hlive.2 hfree

lemma step_turn (h : BankStep B a l b) :
    Turn (Live B a.core.kernel) (acts B a l) a.ctx (acting a l) b.ctx := by
  cases h with
  | work => exact .own .none
  | own _ _ _ launch => exact .rest (launches_bank launch)
  | @call e v left c ctx x _ _ launch own =>
    have hact : acts B a (.call e v left) (ctx a.core.kernel.currentTask) = some (answered x v left) := by
      rw [own]
      rfl
    rw [← hact]
    exact .own (launches_bank launch)
  | start | interrupt | scratch | core | leave => exact .rest .none

lemma call_idle {c d : Core} {e : Event} (h : Preemption.Step B c (.call e) d) :
    c.kernel.switchPending = false := by
  cases h with
  | call outside running => exact running

lemma step_passes (h : BankStep B a l b) (hk : Live B a.core.kernel k)
    (haway : ¬ (a.mode = .thread ∧ a.core.kernel.switchPending = false ∧
      a.core.kernel.currentTask = k)) : Passes (Live B a.core.kernel) k a.ctx b.ctx := by
  refine ⟨_, _, step_turn h, hk, fun ho => ?_⟩
  cases h with
  | work mode running => exact haway ⟨mode, running, Option.some.inj ho⟩
  | call mode step =>
    obtain ⟨c, d, hc, ⟨hstep, -⟩, -⟩ := step
    have hrunning := call_idle hstep
    have hidle : a.core.kernel.switchPending = false := by
      rw [← hc]
      exact hrunning
    exact haway ⟨mode, hidle, Option.some.inj ho⟩
  | _ => cases ho

lemma step_upper (h : BankStep B a l b) : b.upper = upperAfter a.upper l := by
  cases h <;> rfl

lemma run_upper (h : Run (BankStep B) a ls b) : b.upper = ls.foldl upperAfter a.upper := by
  induction h with
  | nil => rfl
  | snoc _ hs ih => rw [List.foldl_concat, ← ih, step_upper hs]

lemma step_reply {x : Context} (h : BankStep B a l b) (hl : Departs l)
    (hk : Live B a.core.kernel a.core.kernel.currentTask)
    (hx : a.ctx a.core.kernel.currentTask = some x) :
    b.ctx a.core.kernel.currentTask = some (reply l x) := by
  have hturn := step_turn h
  cases h with
  | call => exact (hturn.acted hk).trans (congrArg _ hx)
  | interrupt => exact hx
  | work | own | start | scratch | core | leave => exact hl.elim

lemma away_keeps (hw : Wide B) (hr : Refines B m a) (hk : Live B m.kernel k) (h : Run (Away B k) m ls n) :
    ∃ b, Refines B n b ∧ b.ctx k = a.ctx k ∧ b.upper = ls.foldl upperAfter a.upper := by
  have hstep : ∀ m a l n, (Refines B m a ∧ Live B m.kernel k) → Away B k m l n →
      ∃ b, (BankStep B a l b ∧ Passes (Live B a.core.kernel) k a.ctx b.ctx) ∧
        (Refines B n b ∧ Live B n.kernel k) := by
    rintro m a l n ⟨hr, hk⟩ ⟨hs, hlive, haway⟩
    obtain ⟨b, hb, hr'⟩ := hr.step hw hs
    refine ⟨b, ⟨hb, step_passes hb ?_ ?_⟩, hr', hlive⟩
    · rw [hr.core]
      exact hk
    · rw [hr.mode, hr.core]
      exact haway
  obtain ⟨b, hb, hr', -⟩ := Run.simulated hstep ⟨hr, hk⟩ h
  exact ⟨b, hr', Run.entry_kept (fun _ _ _ h => h.2) hb, run_upper (hb.mono fun _ _ _ h => h.1)⟩

/-- A task that is interrupted or calls the kernel finds the registers of its bank and its stack as they
were when it runs again, with the answer in r3 after a call. In r2 and r13 to r31 it finds what the
task that worked last has left there. -/
theorem task_resumes_shared (hw : Wide B)
    (h : Run (Machines.Step B) (Machines.initial B cpu mem objs stack) ls m) (hm : m.mode = .thread)
    (hq : m.kernel.switchPending = false) (hk : m.kernel.currentTask = k) {m₁ n : Machine}
    {ls' : List Machines.Label} (hout : Machines.Step B m l m₁) (hl : Departs l)
    (hlive : Live B m₁.kernel k) (haway : Run (Away B k) m₁ ls' n) (hn : n.mode = .thread)
    (hq' : n.kernel.switchPending = false) (hk' : n.kernel.currentTask = k) :
    view (bottom B (k + 1)) n.cpu n.kernel.stack =
        reply l (view (bottom B (k + 1)) m.cpu m.kernel.stack) ∧
      n.cpu.upper = ls'.foldl upperAfter m.cpu.upper := by
  obtain ⟨x, a, -, -, hr⟩ := run_refines hw h
  obtain ⟨b, hb, hr₁⟩ := hr.step hw hout
  obtain ⟨d, hd, hctx, hupper⟩ := away_keeps hw hr₁ hlive haway
  have hcur : a.core.kernel.currentTask = k := by
    rw [hr.core]
    exact hk
  have hrunning : Live B a.core.kernel a.core.kernel.currentTask := by
    rw [hr.core]
    exact hr.awake.thread (hr.stage (by rw [hm]; decide)) hq
  obtain ⟨y, hy, hview, -⟩ := hr.thread hm hq
  obtain ⟨z, hz, hview', -⟩ := hd.thread hn hq'
  rw [hk] at hy hview
  rw [hk'] at hz hview'
  have hreply := step_reply hb hl hrunning (hcur.symm ▸ hy)
  rw [hcur] at hreply
  have hz : z = reply l y := Option.some.inj (hz.symm.trans (hctx.trans hreply))
  have hstep : b.upper = a.upper := by
    rw [step_upper hb]
    cases l with
    | call | interrupt => rfl
    | _ => exact hl.elim
  refine ⟨by rw [hview', hview, hz], ?_⟩
  rw [hd.upper (by rw [hn]; decide), hupper, hstep, hr.upper (by rw [hm]; decide)]

end Resumption

/-- No task of this port receives its argument: whatever it is created with, `main` or a task that
creates it gets the same answer and the task begins with the same registers and the same stack. -/
theorem argument_lost (hw : Wide B)
    (h : Run (Machines.Step B) (Machines.initial B cpu mem objs stack) ls m) {stack' : ℕ → ℕ}
    {p arg arg' v v' : ℕ} {t u : KernelState} (hreg : Regular B m.kernel (.createTask p arg))
    (ht : Replies B (m.withStack stack').kernel (.createTask p arg) v t)
    (hu : Replies B (m.withStack stack').kernel (.createTask p arg') v' u) :
    v = v' ∧ t.pspArray = u.pspArray ∧ ∀ k, Live B t k → ¬ Live B m.kernel k →
      framed (bottom B (k + 1)) (t.pspArray k) t.stack = framed (bottom B (k + 1)) (u.pspArray k) u.stack := by
  obtain ⟨x, a, -, -, hr⟩ := run_refines hw h
  obtain ⟨-, r, ht⟩ := ht
  obtain ⟨-, r', hu⟩ := hu
  exact create_argument hw (s := (m.withStack stack').kernel) hr.heap hreg ht hu

section Instances

def wide : Build := { Build.four with taskStackSize := 64 }

lemma wide_fits : Wide wide := ⟨by decide, by decide⟩

def bench : Cpu := ⟨fun _ => 1, fun _ => 2, fun _ => 3, 0, 4, 0x8000⟩

def booted : Machine :=
  Machines.initial wide bench (fun _ => 0) (fun _ => ⟨0, 0, 5, 1000, 0, 0, 0, 0⟩) fun _ => 0

def created : Machine := { booted with core := called wide (.createTask 100 7) booted.core }

def creation (arg : ℕ) : KernelState :=
  ((Stacks.svcServiceTaskCreate .mpc57x8 wide ⟨svcCreateTask, 100, arg, 0, 0⟩ booted.kernel).map
    fun r => r.2.2).getD booted.kernel

def started : Machine :=
  { (created.switchMcuMode bench).leaveService errorNone bench
      (called wide .startScheduler (created.switchMcuMode bench).enterService.core).kernel with
    mode := .thread }

/-- The software interrupt and the return to the task it goes to. -/
def switched (m : Machine) : Machine :=
  let c := m.storePsp.core
  let cpu := { m.cpu with r1 := c.kernel.pspArray c.kernel.nextTask }
  { core := ⟨{ c.kernel with currentTask := c.kernel.nextTask, switchPending := false }, .outside⟩
    cpu := epilogue cpu c.kernel.stack
    mode := .thread
    first := false }

def resumed (m : Machine) : Machine := switched (m.enter 0x100)

def handedOver (m : Machine) : Machine :=
  m.leaveService errorNone bench
    ((triggered wide (handOverState m.enterService.kernel)).getD m.enterService.kernel)

/-- The first task, the base task after a hand-over with other values in r2 and r13 to r31, and the
first task after a hand-over back. -/
def first : Machine := resumed started
def worked (m : Machine) : Machine := { m with cpu := { m.cpu with upper := fun _ => 7 } }
def second : Machine := worked (resumed (handedOver first))
def third : Machine := resumed (handedOver second)

def switchLabels : List Machines.Label :=
  [.core .fetch, .core .load, .core .store, .core .clear, .leave]

lemma switched_away (hm : m.mode = .handler) (hout : m.core.stage = .outside)
    (hq : m.kernel.switchPending = true) (hk : Live B m.kernel k) :
    Run (Away B k) m switchLabels (switched m) := by
  have haway : ∀ {n : Machine}, n.mode = .handler →
      ¬ (n.mode = .thread ∧ n.kernel.switchPending = false ∧ n.kernel.currentTask = k) := by
    rintro n hn ⟨ht, -⟩
    rw [hn] at ht
    cases ht
  refine Run.cons ⟨.fetch hm (.fetch hout hq), hk, haway hm⟩ ?_
  refine Run.cons ⟨.load hm rfl (.load rfl), hk, haway hm⟩ ?_
  refine Run.cons ⟨.store hm (.store rfl), hk, haway hm⟩ ?_
  refine Run.cons ⟨.clear hm (.clear rfl), hk, haway hm⟩ ?_
  exact Run.single ⟨.leave hm rfl, hk, haway hm⟩

lemma entered_away (stack : ℕ → ℕ) (cpu : Cpu) (hout : m.core.stage = .outside)
    (hq : m.kernel.switchPending = true) (hk : Live B m.kernel k) :
    Live B ({ m.withStack stack with cpu := cpu, mode := .handler } : Machine).kernel k ∧
      Run (Away B k) { m.withStack stack with cpu := cpu, mode := .handler } switchLabels
        (switched { m.withStack stack with cpu := cpu, mode := .handler }) :=
  ⟨hk, switched_away rfl hout hq hk⟩

lemma resumed_away (hm : m.mode = .thread) (hout : m.core.stage = .outside)
    (hq : m.kernel.switchPending = true) (hk : Live B m.kernel k) :
    Run (Away B k) m (.interrupt 0x100 :: switchLabels) (resumed m) := by
  obtain ⟨hlive, hrun⟩ := entered_away _ _ hout hq hk
  refine Run.cons ⟨.interrupt hm, hlive, fun h => ?_⟩ hrun
  exact Bool.noConfusion (hq.symm.trans h.2.1)

lemma handOver_replies {s : KernelState} (hth : InThread s) :
    Replies B s .handOver errorNone (handOverState s) := ⟨hth, _, rfl, rfl⟩

lemma handedOver_step (hm : m.mode = .thread) (hq : m.kernel.switchPending = false)
    (hth : InThread m.enterService.kernel)
    (h : (triggered wide (handOverState m.enterService.kernel)).isSome = true) :
    Machines.Step wide m (.call .handOver errorNone bench) (handedOver m) := by
  obtain ⟨t, ht⟩ := Option.isSome_iff_exists.mp h
  rw [handedOver, ht]
  exact .call hm hq trivial trivial (handOver_replies hth) (triggered_sound ht)

lemma creation_replies (arg : ℕ) (h : (Stacks.svcServiceTaskCreate .mpc57x8 wide
      ⟨svcCreateTask, 100, arg, 0, 0⟩ booted.kernel).isSome = true) :
    ∃ v, Replies wide booted.kernel (.createTask 100 arg) v (creation arg) := by
  obtain ⟨⟨v, r, t⟩, ht⟩ := Option.isSome_iff_exists.mp h
  refine ⟨v, by decide +kernel, r, ?_⟩
  rw [creation, ht]
  rfl

theorem argument_lost_bench : framed (bottom wide 2) ((creation 7).pspArray 1) (creation 7).stack =
    framed (bottom wide 2) ((creation 8).pspArray 1) (creation 8).stack := by
  obtain ⟨v, hv⟩ := creation_replies 7 (by decide +kernel)
  obtain ⟨w, hw⟩ := creation_replies 8 (by decide +kernel)
  have hrun : Run (Machines.Step wide) booted [] booted := .nil
  exact (argument_lost wide_fits hrun ⟨by decide, by decide +kernel⟩ hv hw).2.2 1 (by decide +kernel)
    (by decide +kernel)

lemma first_run : Run (Machines.Step wide) booted
    (.own (.createTask 100 7) :: .start bench bench :: .interrupt 0x100 :: switchLabels) first := by
  refine Run.cons (.own (by decide) rfl (called_sound rfl (by decide +kernel) trivial ?_
    (by decide +kernel))) ?_
  · exact ⟨by decide, by decide +kernel⟩
  refine Run.cons (.start rfl (by decide +kernel) (called_sound rfl (by decide +kernel) trivial ?_
    (by decide +kernel))) ?_
  · decide +kernel
  exact (resumed_away (k := 0) rfl rfl (by decide +kernel) (by decide +kernel)).mono fun _ _ _ h => h.1

lemma first_step : Machines.Step wide first (.call .handOver errorNone bench) (handedOver first) :=
  handedOver_step rfl rfl (by decide +kernel) (by decide +kernel)

lemma second_step : Machines.Step wide second (.call .handOver errorNone bench) (handedOver second) :=
  handedOver_step rfl rfl (by decide +kernel) (by decide +kernel)

lemma worked_step (hm : m.mode = .thread) (hq : m.kernel.switchPending = false)
    (hroom : Roomy (bottom B m.kernel.currentTask) (bottom B (m.kernel.currentTask + 1)) m.cpu.r1) :
    Machines.Step B m (.work (worked m).cpu m.kernel.stack) (worked m) :=
  .work hm hq hroom rfl fun _ hb => absurd rfl hb

lemma second_away : Run (Away wide 1) (handedOver first)
    (.interrupt 0x100 :: switchLabels ++ .work second.cpu (resumed (handedOver first)).kernel.stack ::
      .call .handOver errorNone bench :: .interrupt 0x100 :: switchLabels) third := by
  refine (resumed_away (k := 1) rfl rfl (by decide +kernel) (by decide +kernel)).append ?_
  refine Run.cons ⟨worked_step rfl rfl ⟨by decide +kernel, by decide +kernel⟩, by decide +kernel,
    by decide +kernel⟩ ?_
  refine Run.cons ⟨second_step, by decide +kernel, by decide +kernel⟩ ?_
  exact resumed_away rfl rfl (by decide +kernel) (by decide +kernel)

theorem switching_shares_upper_bench : ∃ x a, Launched wide (bottom wide 1) 16 x ∧ Run (BankStep wide)
    ⟨bare (Preemption.initial wide (fun _ => 0) (fun _ => ⟨0, 0, 5, 1000, 0, 0, 0, 0⟩) fun _ => 0),
      update (fun _ => none) 0 (some x), fun _ => 3, .main⟩
    (.own (.createTask 100 7) :: .start bench bench :: .interrupt 0x100 :: switchLabels) a ∧
    a.upper = (fun _ => 3) ∧ a.ctx 1 = some (view (bottom wide 2) first.cpu first.kernel.stack) := by
  obtain ⟨x, a, hx, ha, -, -, hupper, hview⟩ := switching_shares_upper wide_fits first_run
  have hcur : first.kernel.currentTask = 1 := by decide +kernel
  have hsaved := hview rfl rfl
  rw [hcur] at hsaved
  exact ⟨x, a, hx, ha, (hupper (by decide)).symm, hsaved⟩

/-- r13 of the first task holds 3 when it hands over and 7 when it goes on. -/
theorem task_resumes_shared_bench : view (bottom wide 2) third.cpu third.kernel.stack =
      answered (view (bottom wide 2) first.cpu first.kernel.stack) 0 bench ∧
    third.cpu.upper = fun _ => 7 :=
  task_resumes_shared wide_fits first_run rfl rfl (by decide +kernel) first_step trivial
    (by decide +kernel) second_away rfl rfl (by decide +kernel)

end Instances

end Skibios.Switching.Mpc.Registers
