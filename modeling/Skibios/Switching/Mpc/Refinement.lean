import Skibios.Switching.Mpc.Machines
import Skibios.Switching.Mpc.Kernels
import Skibios.Switching.Transparency

/-! Every step of the MPC57x8 system is one of the machine that shares r2 and r13 to r31 between its
tasks. -/

namespace Skibios.Switching.Mpc.Refinement

open Function Library.Words Library.Blocks Library.Runs Kernel
open State TaskServices Services Scheduler SchedulerLoops Events Effects Tasks.Invariants
open Tasks Frames Preemption Access Contexts Kernels Machines
open Exceptions (Mode)
open Transparency (answered_step)

variable {B : Build} {s t u w : KernelState} {c d : Core} {e : Event} {l : Preemption.Label} {k i : ℕ}

section Relation

/-- The slot whose context is in the registers, or in the frame that r1 points to. -/
def running (m : Machine) : Option ℕ :=
  match m.mode, m.core.stage with
  | .main, _ => none
  | .thread, _ | .handler, .outside => if m.first then none else some m.kernel.currentTask
  | .handler, .chosen _ false => none
  | .handler, .chosen n true => some n
  | .handler, .stored => some m.kernel.currentTask

structure FramedAt (B : Build) (k r1 : ℕ) (stack : ℕ → ℕ) (x : Context) : Prop where
  framed : framed (bottom B (k + 1)) r1 stack = x
  low : bottom B k ≤ r1
  high : r1 + 0x50 ≤ bottom B (k + 1)

def Holds (B : Build) (m : Machine) (k : ℕ) (x : Context) : Prop :=
  match m.mode with
  | .handler => FramedAt B k m.cpu.r1 m.kernel.stack x
  | _ => view (bottom B (k + 1)) m.cpu m.kernel.stack = x ∧
      Roomy (bottom B k) (bottom B (k + 1)) m.cpu.r1

/-- Every context of the bank is in the processor or in the frame its task was left with. While none
is in the processor, it works below the frame of the current slot. -/
structure Refines (B : Build) (m : Machine) (a : Bank) : Prop where
  core : a.core = bare m.core
  mode : a.mode = m.mode
  upper : m.mode ≠ .main → m.cpu.upper = a.upper
  heap : m.kernel.pstackAddr = B.procHeapAddr
  awake : Awake B m.core
  stage : m.mode ≠ .handler → m.core.stage = .outside
  first : m.first = true → m.mode ≠ .main → m.kernel.switchPending = true
  main : m.mode = .main → m.first = true ∧ m.kernel.currentTask = 0 ∧
    bottom B 0 + 0x50 ≤ m.kernel.pspArray 0
  known : ∀ k, Live B m.kernel k → ∃ x, a.ctx k = some x
  current : ∃ x, a.ctx m.kernel.currentTask = some x
  bound : ∀ k x, a.ctx k = some x → k < B.maxTaskCount
  runs : ∀ k, running m = some k → ∃ x, a.ctx k = some x ∧ Holds B m k x
  saved : ∀ k x, a.ctx k = some x → running m ≠ some k → FramedAt B k (m.kernel.pspArray k) m.kernel.stack x
  rest : running m = none → m.mode ≠ .main →
    bottom B m.kernel.currentTask + (if m.mode = .thread then 0x50 else 0) ≤ m.cpu.r1 ∧
      m.cpu.r1 + (if m.mode = .handler ∧ m.core.stage = .outside then 0x50 else 0) ≤
        m.kernel.pspArray m.kernel.currentTask

variable {m : Machine} {a : Bank} {x : Context} {stack stack' : ℕ → ℕ} {r1 j : ℕ}

lemma FramedAt.congr (h : FramedAt B k r1 stack x)
    (hs : ∀ a, r1 ≤ a → a < bottom B (k + 1) → stack' a = stack a) : FramedAt B k r1 stack' x :=
  ⟨(framed_congr hs h.high).trans h.framed, h.low, h.high⟩

lemma FramedAt.spared {r : ℕ} (h : FramedAt B k r1 stack x)
    (hs : ∀ a, stack' a ≠ stack a → bottom B j ≤ a ∧ a < r) (hr : r ≤ bottom B (j + 1))
    (hown : k = j → r ≤ r1) : FramedAt B k r1 stack' x := by
  refine h.congr fun a ha hlt => ?_
  by_contra hne
  obtain ⟨hl, hu⟩ := hs a hne
  rcases eq_or_ne k j with rfl | hkj
  · exact absurd (hown rfl) (by omega)
  · have := windows_apart hkj ⟨hl, hu.trans_le hr⟩
    have := h.low
    omega

lemma FramedAt.holds (h : FramedAt B k m.cpu.r1 m.kernel.stack x) (hm : m.mode = .handler) :
    Holds B m k x := by
  rwa [Holds, hm]

lemma Holds.framed (h : Holds B m k x) (hm : m.mode = .handler) :
    FramedAt B k m.cpu.r1 m.kernel.stack x := by
  rwa [Holds, hm] at h

lemma Holds.viewed (h : Holds B m k x) (hm : m.mode = .thread) :
    view (bottom B (k + 1)) m.cpu m.kernel.stack = x ∧
      Roomy (bottom B k) (bottom B (k + 1)) m.cpu.r1 := by
  rwa [Holds, hm] at h

lemma Holds.congr {c : Core} (h : Holds B m k x)
    (hs : ∀ a, bottom B k ≤ a → m.cpu.r1 ≤ a → a < bottom B (k + 1) →
      c.kernel.stack a = m.kernel.stack a) :
    Holds B { m with core := c } k x := by
  rw [Holds] at h ⊢
  change match m.mode with
    | .handler => FramedAt B k m.cpu.r1 c.kernel.stack x
    | _ => view (bottom B (k + 1)) m.cpu c.kernel.stack = x ∧
        Roomy (bottom B k) (bottom B (k + 1)) m.cpu.r1
  split at h
  · exact h.congr fun a ha hlt => hs a (h.low.trans ha) ha hlt
  · obtain ⟨hview, hlow, hhigh⟩ := h
    refine ⟨?_, hlow, hhigh⟩
    rw [← hview, view, view]
    congr 1
    exact stackAbove_congr fun a ha hlt => hs a (by omega) ha hlt

end Relation

section Steps

variable {m n : Machine} {a : Bank} {x : Context} {cpu left : Cpu} {stack : ℕ → ℕ} {isr v : ℕ}

lemma thread_not_main (hm : m.mode = .thread) : m.mode ≠ .main := by simp [hm]

lemma thread_not_handler (hm : m.mode = .thread) : m.mode ≠ .handler := by simp [hm]

lemma handler_not_main (hm : m.mode = .handler) : m.mode ≠ .main := by simp [hm]

lemma handler_not_thread (hm : m.mode = .handler) : m.mode ≠ .thread := by simp [hm]

lemma Refines.owner_thread (h : Refines B m a) (hm : m.mode = .thread) : m.owner = m.kernel.currentTask := by
  rw [Machine.owner, h.stage (thread_not_handler hm)]

lemma running_thread (hm : m.mode = .thread) (hf : m.first = false) : running m = some m.kernel.currentTask := by
  simp [running, hm, hf]

lemma Refines.notFirst (h : Refines B m a) (hm : m.mode = .thread) (hq : m.kernel.switchPending = false) :
    m.first = false := by
  cases hf : m.first with
  | false => rfl
  | true =>
    have hp := h.first hf (thread_not_main hm)
    exact Bool.noConfusion (hq.symm.trans hp)

lemma Refines.thread (h : Refines B m a) (hm : m.mode = .thread) (hq : m.kernel.switchPending = false) :
    ∃ x, a.ctx m.kernel.currentTask = some x ∧
      view (bottom B (m.kernel.currentTask + 1)) m.cpu m.kernel.stack = x ∧
      Roomy (bottom B m.kernel.currentTask) (bottom B (m.kernel.currentTask + 1)) m.cpu.r1 := by
  obtain ⟨x, hx, hh⟩ := h.runs _ (running_thread hm (h.notFirst hm hq))
  exact ⟨x, hx, hh.viewed hm⟩

lemma Refines.work (h : Refines B m a) (hm : m.mode = .thread) (hf : m.first = false) (cpu : Cpu)
    (stack : ℕ → ℕ)
    (hroom : Roomy (bottom B m.kernel.currentTask) (bottom B (m.kernel.currentTask + 1)) cpu.r1)
    (hwrites : ∀ a, stack a ≠ m.kernel.stack a →
      bottom B m.kernel.currentTask ≤ a ∧ a < bottom B (m.kernel.currentTask + 1)) :
    Refines B { m.withStack stack with cpu := cpu } { a with
      ctx := update a.ctx m.kernel.currentTask
        (some (view (bottom B (m.kernel.currentTask + 1)) cpu stack))
      upper := cpu.upper } := by
  have hrun := running_thread hm hf
  have hrun' : running { m.withStack stack with cpu := cpu } = some m.kernel.currentTask := hrun
  have hsome : ∀ k, (∃ x, a.ctx k = some x) → ∃ x, update a.ctx m.kernel.currentTask
      (some (view (bottom B (m.kernel.currentTask + 1)) cpu stack)) k = some x := by
    intro k hk
    rcases eq_or_ne k m.kernel.currentTask with rfl | hne
    · exact ⟨_, update_self ..⟩
    · rwa [update_of_ne hne]
  refine ⟨h.core, h.mode, fun _ => rfl, h.heap, ⟨h.awake.slot, h.awake.thread, h.awake.next, h.awake.chosen,
    h.awake.stored⟩, h.stage, h.first, fun hmain => ?_, fun k hk => hsome k (h.known k hk), hsome _ h.current,
    fun k x hx => ?_, fun k hk => ?_, fun k x hx hne => ?_, fun hnone => ?_⟩
  · exact absurd (hm.symm.trans hmain) (by decide)
  · rcases eq_or_ne k m.kernel.currentTask with rfl | hne
    · exact h.awake.slot
    · exact h.bound k x ((update_of_ne hne _ _).symm.trans hx)
  · obtain rfl := Option.some.inj (hrun'.symm.trans hk)
    refine ⟨_, update_self .., ?_⟩
    have hm' : ({ m.withStack stack with cpu := cpu } : Machine).mode = .thread := hm
    rw [Holds, hm']
    exact ⟨rfl, hroom⟩
  · have hk : k ≠ m.kernel.currentTask := fun heq => hne (heq ▸ hrun')
    have hsaved := h.saved k x ((update_of_ne hk _ _).symm.trans hx) fun heq =>
      hk (Option.some.inj (heq.symm.trans hrun))
    exact hsaved.spared hwrites le_rfl fun heq => absurd heq hk
  · exact absurd (hrun'.symm.trans hnone) (by simp)

lemma running_owner (hstage : m.mode ≠ .handler → m.core.stage = .outside) (hr : running m = some k) :
    k = m.owner := by
  cases hmode : m.mode with
  | main => simp [running, hmode] at hr
  | thread =>
    have hout := hstage (by rw [hmode]; decide)
    simp only [running, hmode, Machine.owner, hout] at hr ⊢
    split at hr
    · cases hr
    · exact (Option.some.inj hr).symm
  | handler =>
    cases hst : m.core.stage with
    | outside =>
      simp only [running, hmode, Machine.owner, hst] at hr ⊢
      split at hr
      · cases hr
      · exact (Option.some.inj hr).symm
    | chosen n loaded =>
      cases loaded with
      | false => simp [running, hmode, hst] at hr
      | true =>
        simp only [running, hmode, Machine.owner, hst] at hr ⊢
        exact (Option.some.inj hr).symm
    | stored =>
      simp only [running, hmode, Machine.owner, hst] at hr ⊢
      exact (Option.some.inj hr).symm

lemma owner_rest (hstage : m.mode ≠ .handler → m.core.stage = .outside) (hr : running m = none) :
    m.owner = m.kernel.currentTask := by
  cases hst : m.core.stage with
  | outside | stored => rw [Machine.owner, hst]
  | chosen n loaded =>
    cases loaded with
    | false => rw [Machine.owner, hst]
    | true =>
      have hmode : m.mode = .handler := by
        by_contra hne
        have hout := hstage hne
        rw [hst] at hout
        cases hout
      simp [running, hmode, hst] at hr

lemma Refines.within (h : Refines B m a) (hm : m.mode ≠ .main) :
    m.cpu.r1 ≤ bottom B (m.owner + 1) ∧
      ∀ x, a.ctx m.owner = some x → running m ≠ some m.owner → m.cpu.r1 ≤ m.kernel.pspArray m.owner := by
  cases hr : running m with
  | none =>
    obtain ⟨x, hx⟩ := h.current
    have hrest := h.rest hr hm
    have hframe := h.saved _ x hx (by rw [hr]; simp)
    have := hframe.high
    rw [owner_rest h.stage hr]
    exact ⟨by omega, fun _ _ _ => by omega⟩
  | some k =>
    obtain rfl := running_owner h.stage hr
    refine ⟨?_, fun _ _ hne => absurd rfl hne⟩
    obtain ⟨x, -, hh⟩ := h.runs _ hr
    rw [Holds] at hh
    split at hh
    · have := hh.high
      omega
    · exact hh.2.2

lemma Refines.dig (h : Refines B m a) (hm : m.mode ≠ .main) (stack : ℕ → ℕ)
    (hwrites : ∀ a, stack a ≠ m.kernel.stack a → bottom B m.owner ≤ a ∧ a < m.cpu.r1) :
    Refines B (m.withStack stack) a := by
  obtain ⟨hwithin, hown⟩ := h.within hm
  refine ⟨h.core, h.mode, h.upper, h.heap, ⟨h.awake.slot, h.awake.thread, h.awake.next, h.awake.chosen,
    h.awake.stored⟩, h.stage, h.first, h.main, h.known, h.current, h.bound, fun k hk => ?_,
    fun k x hx hne => ?_, h.rest⟩
  · have hk : running m = some k := hk
    obtain ⟨x, hx, hh⟩ := h.runs k hk
    refine ⟨x, hx, hh.congr (c := (m.withStack stack).core) fun a _ ha _ => ?_⟩
    change stack a = m.kernel.stack a
    by_contra hne
    exact absurd (hwrites a hne).2 (by omega)
  · have hne : running m ≠ some k := hne
    have hsaved := h.saved k x hx hne
    refine hsaved.spared hwrites hwithin fun hk => ?_
    subst hk
    exact hown x hx hne

lemma Refines.room (h : Refines B m a) (hm : m.mode = .thread) :
    Roomy (bottom B m.kernel.currentTask) (bottom B (m.kernel.currentTask + 1)) m.cpu.r1 := by
  have hmain := thread_not_main hm
  have howner := h.owner_thread hm
  refine ⟨?_, howner ▸ (h.within hmain).1⟩
  cases hf : m.first with
  | false =>
    obtain ⟨x, -, hh⟩ := h.runs _ (running_thread hm hf)
    exact (hh.viewed hm).2.1
  | true =>
    have hrest := (h.rest (by simp [running, hm, hf]) hmain).1
    rwa [if_pos hm] at hrest

lemma Refines.r1_lt (h : Refines B m a) (hw : Wide B) (hm : m.mode = .thread) : m.cpu.r1 < 4294967296 := by
  have hle := bottom_mono B (Nat.succ_le_of_lt h.awake.slot)
  exact (h.room hm).2.trans_lt (hle.trans_lt hw.fits)

lemma Refines.pushed (h : Refines B m a) (hm : m.mode = .thread) {r : ℕ} (hr : r + 0x50 = m.cpu.r1)
    (houtside : ∀ b, b < r ∨ m.cpu.r1 ≤ b → stack b = m.kernel.stack b)
    (hview : framed (bottom B (m.kernel.currentTask + 1)) r stack =
      view (bottom B (m.kernel.currentTask + 1)) m.cpu m.kernel.stack) :
    Refines B { m.withStack stack with cpu := { m.cpu with r1 := r }, mode := .handler }
      { a with mode := .handler } := by
  have hmain := thread_not_main hm
  have hout := h.stage (thread_not_handler hm)
  have howner := h.owner_thread hm
  obtain ⟨hlow, hhigh⟩ := h.room hm
  have hdug := h.dig hmain stack fun b hb => by
    rw [howner]
    by_contra hno
    exact hb (houtside b (by omega))
  have hrun : running { m.withStack stack with cpu := { m.cpu with r1 := r }, mode := .handler } =
      running m := by
    simp [running, Machine.withStack, hm, hout, Machine.kernel]
  refine ⟨h.core, rfl, fun _ => h.upper hmain, h.heap, hdug.awake, fun hne => absurd rfl hne,
    fun hf _ => h.first hf hmain, fun hm' => ?_, h.known, h.current, h.bound, fun k hk => ?_,
    fun k x hx hne => ?_, fun hnone _ => ?_⟩
  · cases hm'
  · rw [hrun] at hk
    obtain ⟨x, hx, hh⟩ := h.runs k hk
    obtain rfl : k = m.kernel.currentTask := (running_owner h.stage hk).trans howner
    have hframed := hview.trans (hh.viewed hm).1
    exact ⟨x, hx, hframed, by dsimp only; omega, by dsimp only; omega⟩
  · rw [hrun] at hne
    exact hdug.saved k x hx hne
  · rw [hrun] at hnone
    have hrest := (h.rest hnone hmain).2
    have hnot : ¬ (m.mode = .handler ∧ m.core.stage = .outside) := fun hc =>
      absurd (hm.symm.trans hc.1) (by decide)
    rw [if_neg hnot] at hrest
    have hin : Mode.handler = Mode.handler ∧ m.core.stage = .outside := ⟨rfl, hout⟩
    have hno : ¬ Mode.handler = Mode.thread := by decide
    change bottom B m.kernel.currentTask + (if Mode.handler = Mode.thread then 0x50 else 0) ≤ r ∧
      r + (if Mode.handler = Mode.handler ∧ m.core.stage = .outside then 0x50 else 0) ≤
        m.kernel.pspArray m.kernel.currentTask
    rw [if_neg hno, if_pos hin]
    exact ⟨by omega, by omega⟩

lemma Refines.enter (h : Refines B m a) (hw : Wide B) (hm : m.mode = .thread) (isr : ℕ) :
    Refines B (m.enter isr) { a with mode := .handler } := by
  obtain ⟨hlow, hhigh⟩ := h.room hm
  have hlt := h.r1_lt hw hm
  have hroom : 0x50 ≤ m.cpu.r1 := by omega
  obtain ⟨hplace, houtside⟩ := prologue_frame isr m.kernel.stack hroom hlt
  exact h.pushed hm hplace houtside
    (prologue_framed isr (bottom B (m.kernel.currentTask + 1)) m.kernel.stack hroom hlt)

lemma Refines.advance (h : Refines B m a) (fresh : Set ℕ) {t : KernelState} {ctx : ℕ → Option Context}
    (hcur : t.currentTask = m.kernel.currentTask) (hheap : t.pstackAddr = m.kernel.pstackAddr)
    (hawake : Awake B ⟨t, m.core.stage⟩)
    (hfirst : m.first = true → m.mode ≠ .main → t.switchPending = true)
    (hlive : ∀ k, Live B t k → Live B m.kernel k ∨ k = m.kernel.currentTask ∨ k ∈ fresh)
    (hcurrent : m.kernel.currentTask ∉ fresh)
    (hsame : ∀ k, k ∉ fresh → ctx k = a.ctx k ∧ t.pspArray k = m.kernel.pspArray k ∧
      ∀ a, bottom B k ≤ a → a < bottom B (k + 1) → t.stack a = m.kernel.stack a)
    (hfresh : ∀ k, k ∈ fresh → k < B.maxTaskCount ∧ running m ≠ some k ∧
      ∃ x, ctx k = some x ∧ FramedAt B k (t.pspArray k) t.stack x) :
    Refines B { m with core := ⟨t, m.core.stage⟩ }
      { a with core := bare ⟨t, m.core.stage⟩, ctx := ctx } := by
  have hrun : running { m with core := ⟨t, m.core.stage⟩ } = running m := by
    simp only [running, Machine.kernel, hcur]
  have hpsp := (hsame _ hcurrent).2.1
  refine ⟨rfl, h.mode, h.upper, hheap.trans h.heap, hawake, h.stage, hfirst, fun hm => ?_, fun k hk => ?_,
    ?_, fun k x hx => ?_, fun k hk => ?_, fun k x hx hne => ?_, fun hnone hm => ?_⟩
  · obtain ⟨hf, h0, hlow⟩ := h.main hm
    refine ⟨hf, hcur.trans h0, ?_⟩
    rw [h0] at hpsp
    exact hlow.trans hpsp.ge
  · by_cases hin : k ∈ fresh
    · obtain ⟨-, -, x, hx, -⟩ := hfresh k hin
      exact ⟨x, hx⟩
    · change ∃ x, ctx k = some x
      rw [(hsame k hin).1]
      rcases hlive k hk with hl | rfl | hl
      · exact h.known k hl
      · exact h.current
      · exact absurd hl hin
  · change ∃ x, ctx t.currentTask = some x
    rw [hcur, (hsame _ hcurrent).1]
    exact h.current
  · by_cases hin : k ∈ fresh
    · exact (hfresh k hin).1
    · exact h.bound k x ((hsame k hin).1 ▸ hx)
  · rw [hrun] at hk
    have hin : k ∉ fresh := fun hin => (hfresh k hin).2.1 hk
    obtain ⟨x, hx, hh⟩ := h.runs k hk
    obtain ⟨hctx, -, hstack⟩ := hsame k hin
    exact ⟨x, hctx.trans hx, hh.congr fun b hb _ hlt => hstack b hb hlt⟩
  · rw [hrun] at hne
    by_cases hin : k ∈ fresh
    · obtain ⟨-, -, y, hy, hframe⟩ := hfresh k hin
      obtain rfl := Option.some.inj (hy.symm.trans hx)
      exact hframe
    · obtain ⟨hctx, hp, hstack⟩ := hsame k hin
      have hsaved := h.saved k x (hctx.symm.trans hx) hne
      change FramedAt B k (t.pspArray k) t.stack x
      rw [hp]
      exact hsaved.congr fun b hb hlt => hstack b (hsaved.low.trans hb) hlt
  · rw [hrun] at hnone
    have hrest := h.rest hnone hm
    change bottom B t.currentTask + _ ≤ m.cpu.r1 ∧ m.cpu.r1 + _ ≤ t.pspArray t.currentTask
    rw [hcur, hpsp]
    exact hrest

lemma Refines.calm (h : Refines B m a) {t : KernelState} (hs : Calm B m.kernel t)
    (hcur : t.currentTask = m.kernel.currentTask) (hheap : t.pstackAddr = m.kernel.pstackAddr)
    (hawake : Awake B ⟨t, m.core.stage⟩)
    (hfirst : m.first = true → m.mode ≠ .main → t.switchPending = true) :
    Refines B { m with core := ⟨t, m.core.stage⟩ } { a with core := bare ⟨t, m.core.stage⟩ } := by
  refine h.advance ∅ hcur hheap hawake hfirst (fun k hk => ?_) (Set.notMem_empty _)
    (fun k _ => ⟨rfl, congrFun hs.psp k, fun b _ _ => congrFun hs.stack b⟩)
    fun k hk => absurd hk (Set.notMem_empty k)
  exact (hs.live k hk).imp_right Or.inl

lemma Refines.created (h : Refines B m a) {t : KernelState} {p arg : ℕ} (hc : Created B m.kernel p t i)
    (hcur : t.currentTask = m.kernel.currentTask) (hheap : t.pstackAddr = m.kernel.pstackAddr)
    (hlive : Live B m.kernel m.kernel.currentTask) (hrun : running m ≠ some i)
    (hawake : Awake B ⟨t, m.core.stage⟩)
    (hfirst : m.first = true → m.mode ≠ .main → t.switchPending = true) :
    ∃ ctx, Launches B a.core.kernel (.createTask p arg) (bare ⟨t, m.core.stage⟩).kernel a.ctx ctx ∧
      Refines B { m with core := ⟨t, m.core.stage⟩ }
        { a with core := bare ⟨t, m.core.stage⟩, ctx := ctx } := by
  have hne : m.kernel.currentTask ≠ i := by
    rintro rfl
    exact hlive.2 hc.free
  let x := framed (bottom B (i + 1)) (t.pspArray i) t.stack
  refine ⟨update a.ctx i (some x), Or.inr ⟨p, arg, i, x, rfl, ?_, hc.lives, ?_, rfl⟩, ?_⟩
  · rw [h.core]
    exact hc.free
  · rw [h.core]
    exact hc.launched
  refine h.advance {i} hcur hheap hawake hfirst (fun k hk => ?_) hne (fun k hk => ?_) fun k hk => ?_
  · exact (hc.live k hk).imp_right Or.inr
  · have hk : k ≠ i := hk
    exact ⟨update_of_ne hk _ _, hc.psp k hk, fun b hl hu => hc.outside b (windows_apart hk.symm ⟨hl, hu⟩)⟩
  · obtain rfl : k = i := hk
    have hlow := hc.low
    exact ⟨hc.lives.1, hrun, x, update_self .., rfl, by omega, hc.high⟩

lemma Refines.moved (h : Refines B m a) (hw : Wide B) (hs : Preemption.Step B m.core (.call e) c) :
    ∃ ctx, Launches B a.core.kernel e (bare c).kernel a.ctx ctx ∧
      Refines B { m with core := c } { a with core := bare c, ctx := ctx } := by
  have hawake := h.awake.step hs
  have hcalled := h.awake.called hw h.heap hs
  have hout := hcalled.outside
  have hlive := h.awake.thread hout hcalled.idle
  obtain ⟨t, st⟩ := c
  obtain rfl : st = m.core.stage := hcalled.stage
  have hfirst : m.first = true → m.mode ≠ .main → t.switchPending = true := fun hf hmain =>
    Bool.noConfusion (hcalled.idle.symm.trans (h.first hf hmain))
  rcases hcalled.moves with hcalm | ⟨p, arg, i, rfl, hc⟩
  · exact ⟨a.ctx, Or.inl rfl, h.calm hcalm hcalled.current hcalled.heap hawake hfirst⟩
  · have hrun : running m ≠ some i := fun hr => by
      have howner := running_owner h.stage hr
      rw [Machine.owner, hout] at howner
      obtain rfl : i = m.kernel.currentTask := howner
      exact hlive.2 hc.free
    exact h.created hc hcalled.current hcalled.heap hlive hrun hawake hfirst

lemma Refines.scratch (h : Refines B m a) (hm : m.mode = .handler) (hr : cpu.r1 = m.cpu.r1)
    (hupper : cpu.upper = m.cpu.upper) : Refines B { m with cpu := cpu } a := by
  have hmain := handler_not_main hm
  have hrun : running { m with cpu := cpu } = running m := rfl
  refine ⟨h.core, h.mode, fun hm' => hupper.trans (h.upper hm'), h.heap, h.awake, h.stage, h.first, h.main,
    h.known, h.current, h.bound, fun k hk => ?_, h.saved, fun hnone hm' => ?_⟩
  · obtain ⟨x, hx, hh⟩ := h.runs k hk
    have hframe := hh.framed hm
    rw [← hr] at hframe
    exact ⟨x, hx, FramedAt.holds hframe hm⟩
  · change _ ≤ cpu.r1 ∧ cpu.r1 + _ ≤ _
    rw [hr]
    exact h.rest hnone hm'

lemma Refines.fetch (h : Refines B m a) (hm : m.mode = .handler) (hout : m.core.stage = .outside)
    (n : ℕ) (hn : Live B m.kernel n) :
    Refines B { m.storePsp with core := { m.storePsp.core with stage := .chosen n false } }
      { a with core := bare { m.storePsp.core with stage := .chosen n false } } := by
  have hmain := handler_not_main hm
  have hnone : running { m.storePsp with core := { m.storePsp.core with stage := .chosen n false } } = none := by
    simp [running, Machine.storePsp, hm]
  refine ⟨rfl, h.mode, h.upper, h.heap, ⟨h.awake.slot, fun ho => ?_, h.awake.next, fun k l hk => ?_,
    fun ho => ?_⟩, fun hne => absurd hm hne, h.first, fun hm' => absurd hm' hmain, h.known, h.current, h.bound,
    fun k hk => ?_, fun k x hx _ => ?_, fun _ _ => ?_⟩
  · cases ho
  · obtain ⟨rfl, -⟩ := Stage.chosen.inj hk
    exact hn
  · cases ho
  · rw [hnone] at hk
    cases hk
  · change FramedAt B k ((if m.first then m.kernel.pspArray
      else update m.kernel.pspArray m.kernel.currentTask m.cpu.r1) k) m.kernel.stack x
    cases hf : m.first with
    | true =>
      refine h.saved k x hx ?_
      simp [running, hm, hout, hf]
    | false =>
      have hrun : running m = some m.kernel.currentTask := by simp [running, hm, hout, hf]
      rw [if_neg (by decide)]
      rcases eq_or_ne k m.kernel.currentTask with rfl | hne
      · obtain ⟨y, hy, hh⟩ := h.runs _ hrun
        obtain rfl := Option.some.inj (hy.symm.trans hx)
        rw [update_self]
        exact hh.framed hm
      · rw [update_of_ne hne]
        refine h.saved k x hx ?_
        rw [hrun]
        exact fun heq => hne (Option.some.inj heq).symm
  · change bottom B m.kernel.currentTask + (if m.mode = .thread then 0x50 else 0) ≤ m.cpu.r1 ∧
      m.cpu.r1 + (if m.mode = .handler ∧ Stage.chosen n false = .outside then 0x50 else 0) ≤
        (if m.first then m.kernel.pspArray
          else update m.kernel.pspArray m.kernel.currentTask m.cpu.r1) m.kernel.currentTask
    rw [if_neg (handler_not_thread hm), if_neg (fun hc => by cases hc.2)]
    cases hf : m.first with
    | true =>
      have hrest := h.rest (by simp [running, hm, hout, hf]) hmain
      rw [if_neg (handler_not_thread hm), if_pos ⟨hm, hout⟩] at hrest
      rw [if_pos rfl]
      omega
    | false =>
      obtain ⟨x, -, hh⟩ := h.runs m.kernel.currentTask (by simp [running, hm, hout, hf])
      have hlow := (hh.framed hm).low
      rw [if_neg (by decide), update_self]
      omega

lemma Refines.load (h : Refines B m a) (hm : m.mode = .handler) {n : ℕ}
    (hst : m.core.stage = .chosen n false) :
    Refines B { m with
        core := { m.core with stage := .chosen n true }
        cpu := { m.cpu with r1 := m.kernel.pspArray n } }
      { a with core := bare { m.core with stage := .chosen n true } } := by
  have hmain := handler_not_main hm
  have hbefore : running m = none := by simp [running, hm, hst]
  have hafter : running { m with
      core := { m.core with stage := .chosen n true }
      cpu := { m.cpu with r1 := m.kernel.pspArray n } } = some n := by
    simp [running, hm]
  have hn := h.awake.chosen n false hst
  refine ⟨rfl, h.mode, h.upper, h.heap, ⟨h.awake.slot, fun ho => ?_, h.awake.next, fun k l hk => ?_,
    fun ho => ?_⟩, fun hne => absurd hm hne, h.first, fun hm' => absurd hm' hmain, h.known, h.current, h.bound,
    fun k hk => ?_, fun k x hx _ => ?_, fun hnone _ => ?_⟩
  · cases ho
  · obtain ⟨rfl, -⟩ := Stage.chosen.inj hk
    exact hn
  · cases ho
  · obtain rfl := Option.some.inj (hafter.symm.trans hk)
    obtain ⟨x, hx⟩ := h.known n hn
    exact ⟨x, hx, FramedAt.holds (h.saved n x hx (by rw [hbefore]; simp)) hm⟩
  · exact h.saved k x hx (by rw [hbefore]; simp)
  · rw [hafter] at hnone
    cases hnone

lemma Refines.store (h : Refines B m a) (hm : m.mode = .handler) {n : ℕ}
    (hst : m.core.stage = .chosen n true) :
    Refines B { m with core := ⟨{ m.kernel with currentTask := n }, .stored⟩ }
      { a with core := bare ⟨{ m.kernel with currentTask := n }, .stored⟩ } := by
  have hmain := handler_not_main hm
  have hrun : running { m with core := ⟨{ m.kernel with currentTask := n }, .stored⟩ } = running m := by
    simp [running, hm, hst, Machine.kernel]
  have hn := h.awake.chosen n true hst
  refine ⟨rfl, h.mode, h.upper, h.heap, ⟨hn.1, fun ho => ?_, h.awake.next, fun k l hk => ?_, fun _ => hn⟩,
    fun hne => absurd hm hne, h.first, fun hm' => absurd hm' hmain, h.known, h.known n hn, h.bound,
    fun k hk => ?_, fun k x hx hne => ?_, fun hnone _ => ?_⟩
  · cases ho
  · cases hk
  · rw [hrun] at hk
    obtain ⟨x, hx, hh⟩ := h.runs k hk
    exact ⟨x, hx, FramedAt.holds (hh.framed hm) hm⟩
  · rw [hrun] at hne
    exact h.saved k x hx hne
  · rw [hrun] at hnone
    simp [running, hm, hst] at hnone

lemma Refines.clear (h : Refines B m a) (hm : m.mode = .handler) (hst : m.core.stage = .stored) :
    Refines B { m with core := ⟨{ m.kernel with switchPending := false }, .outside⟩, first := false }
      { a with core := bare ⟨{ m.kernel with switchPending := false }, .outside⟩ } := by
  have hmain := handler_not_main hm
  have hrun : running { m with
      core := ⟨{ m.kernel with switchPending := false }, .outside⟩
      first := false } = running m := by
    simp [running, hm, hst, Machine.kernel]
  have hlive := h.awake.stored hst
  refine ⟨rfl, h.mode, h.upper, h.heap, ⟨hlive.1, fun _ _ => hlive, fun hp => ?_, fun k l hk => ?_,
    fun ho => ?_⟩, fun _ => rfl, fun hf => ?_, fun hm' => absurd hm' hmain, h.known, h.current, h.bound,
    fun k hk => ?_, fun k x hx hne => ?_, fun hnone _ => ?_⟩
  · cases hp
  · cases hk
  · cases ho
  · cases hf
  · rw [hrun] at hk
    obtain ⟨x, hx, hh⟩ := h.runs k hk
    exact ⟨x, hx, FramedAt.holds (hh.framed hm) hm⟩
  · rw [hrun] at hne
    exact h.saved k x hx hne
  · rw [hrun] at hnone
    simp [running, hm, hst] at hnone

lemma Refines.leave (h : Refines B m a) (hm : m.mode = .handler) (hout : m.core.stage = .outside) :
    Refines B { m with cpu := epilogue m.cpu m.kernel.stack, mode := .thread } { a with mode := .thread } := by
  have hmain := handler_not_main hm
  have hrun : running { m with cpu := epilogue m.cpu m.kernel.stack, mode := .thread } = running m := by
    simp [running, hm, hout, Machine.kernel]
  refine ⟨h.core, rfl, fun _ => h.upper hmain, h.heap, h.awake, fun _ => hout, fun hf _ => h.first hf hmain,
    fun hm' => ?_, h.known, h.current, h.bound, fun k hk => ?_, fun k x hx hne => ?_, fun hnone _ => ?_⟩
  · cases hm'
  · rw [hrun] at hk
    obtain ⟨x, hx, hh⟩ := h.runs k hk
    obtain ⟨hframed, hlow, hhigh⟩ := hh.framed hm
    refine ⟨x, hx, (epilogue_view _ _ _).trans hframed, ?_, hhigh⟩
    exact Nat.add_le_add_right hlow 0x50
  · rw [hrun] at hne
    exact h.saved k x hx hne
  · rw [hrun] at hnone
    have hrest := h.rest hnone hmain
    rw [if_neg (handler_not_thread hm), if_pos ⟨hm, hout⟩] at hrest
    change bottom B m.kernel.currentTask + (if Mode.thread = Mode.thread then 0x50 else 0) ≤
        m.cpu.r1 + 0x50 ∧
      m.cpu.r1 + 0x50 + (if Mode.thread = Mode.handler ∧ m.core.stage = .outside then 0x50 else 0) ≤
        m.kernel.pspArray m.kernel.currentTask
    rw [if_pos rfl, if_neg (fun hc => by cases hc.1)]
    omega

lemma replies_serves {s u : KernelState} (h : Replies B s e v u) : Serves B s e u := by
  cases e with
  | createTask p arg =>
    obtain ⟨hth, r, hr⟩ := h
    exact ⟨hth, v, r, hr⟩
  | _ => exact answered_step h

lemma Refines.replied (h : Refines B m a) (hw : Wide B) (hm : m.mode = .thread)
    (hq : m.kernel.switchPending = false) {d : Core}
    (hwrites : ∀ b, stack b ≠ m.kernel.stack b → bottom B m.kernel.currentTask ≤ b ∧ b < m.cpu.r1)
    (hs : Preemption.Step B (m.withStack stack).core (.call e) d) (hr : cpu.r1 = m.cpu.r1)
    (hupper : cpu.upper = m.cpu.upper)
    (hview : view (bottom B (m.kernel.currentTask + 1)) cpu d.kernel.stack =
      answered (view (bottom B (m.kernel.currentTask + 1)) m.cpu m.kernel.stack) v left) :
    ∃ ctx x, Launches B a.core.kernel e (bare d).kernel a.ctx ctx ∧
      ctx m.kernel.currentTask = some x ∧
      Refines B { m with core := d, cpu := cpu }
        { a with
          core := bare d
          ctx := update ctx m.kernel.currentTask (some (answered x v left)) } := by
  have hmain := thread_not_main hm
  have howner := h.owner_thread hm
  have hdug := h.dig hmain stack (howner.symm ▸ hwrites)
  have hcalled := hdug.awake.called hw hdug.heap hs
  obtain ⟨ctx, hlaunch, hmoved⟩ := hdug.moved hw hs
  have hfirst := h.notFirst hm hq
  have hroom := h.room hm
  rw [← hr] at hroom
  have hcur : d.kernel.currentTask = m.kernel.currentTask := hcalled.current
  have hx : ctx m.kernel.currentTask =
      some (view (bottom B (m.kernel.currentTask + 1)) m.cpu m.kernel.stack) := by
    obtain ⟨x, hx, hh⟩ := hmoved.runs m.kernel.currentTask (by
      simp [running, Machine.withStack, hm, hfirst, Machine.kernel, hcur])
    have hfound : view (bottom B (m.kernel.currentTask + 1)) m.cpu d.kernel.stack = x :=
      (hh.viewed hm).1
    refine hx.trans (congrArg some (hfound.symm.trans ?_))
    rw [view, view]
    congr 1
    refine stackAbove_congr fun b hb hlt => (hcalled.spares ?_ hlt).trans ?_
    · exact (Nat.le_of_add_right_le (hr ▸ hroom).1).trans hb
    · by_contra hne
      exact absurd (hwrites b hne).2 (by omega)
  refine ⟨ctx, _, hlaunch, hx, ?_⟩
  have hdone := hmoved.work hm hfirst cpu d.kernel.stack (hcur.symm ▸ hroom)
    fun b hb => absurd rfl hb
  rw [← hview, ← hcur, ← h.upper hmain, ← hupper]
  exact hdone

lemma Refines.served (h : Refines B m a) (hw : Wide B) (hm : m.mode = .thread)
    (hq : m.kernel.switchPending = false) {d : Core} {taskSp : ℕ} (hplace : taskSp + 32 = m.cpu.r1)
    (houtside : ∀ b, b < taskSp ∨ m.cpu.r1 ≤ b → stack b = m.kernel.stack b)
    (hs : Preemption.Step B (m.withStack stack).core (.call e) d)
    (hview : ∀ stack' : ℕ → ℕ,
      (∀ b, m.cpu.r1 - 32 ≤ b → b < bottom B (m.kernel.currentTask + 1) → stack' b = stack b) →
      view (bottom B (m.kernel.currentTask + 1)) (Frames.leaveService taskSp v m.cpu left stack') stack' =
        answered (view (bottom B (m.kernel.currentTask + 1)) m.cpu m.kernel.stack) v left) :
    ∃ ctx x, Launches B a.core.kernel e (bare d).kernel a.ctx ctx ∧
      ctx m.kernel.currentTask = some x ∧
      Refines B { m with core := d, cpu := Frames.leaveService taskSp v m.cpu left d.kernel.stack }
        { a with
          core := bare d
          ctx := update ctx m.kernel.currentTask (some (answered x v left)) } := by
  have hmain := thread_not_main hm
  have howner := h.owner_thread hm
  obtain ⟨hlow, hhigh⟩ := h.room hm
  have hwrites : ∀ b, stack b ≠ m.kernel.stack b → bottom B m.kernel.currentTask ≤ b ∧ b < m.cpu.r1 :=
    fun b hb => by
      by_contra hno
      exact hb (houtside b (by omega))
  have hdug := h.dig hmain stack (howner.symm ▸ hwrites)
  have hcalled := hdug.awake.called hw hdug.heap hs
  refine h.replied hw hm hq hwrites hs hplace rfl (hview _ fun b hb hu => ?_)
  exact hcalled.spares (show bottom B m.kernel.currentTask ≤ b by omega) hu

lemma Refines.call (h : Refines B m a) (hw : Wide B) (hm : m.mode = .thread)
    (hq : m.kernel.switchPending = false) (v : ℕ) (left : Cpu) {t : KernelState}
    (hs : Preemption.Step B m.enterService.core (.call e) ⟨t, m.core.stage⟩) :
    ∃ ctx x, Launches B a.core.kernel e (bare ⟨t, m.core.stage⟩).kernel a.ctx ctx ∧
      ctx m.kernel.currentTask = some x ∧
      Refines B (m.leaveService v left t)
        { a with
          core := bare ⟨t, m.core.stage⟩
          ctx := update ctx m.kernel.currentTask (some (answered x v left)) } := by
  obtain ⟨hlow, hhigh⟩ := h.room hm
  have hlt := h.r1_lt hw hm
  have hroom : 32 ≤ m.cpu.r1 := by omega
  obtain ⟨hplace, houtside⟩ := enterService_frame m.kernel.stack hroom hlt
  exact h.served hw hm hq hplace houtside hs fun _ hkept => leaveService_view hroom hlt hkept hhigh

/-- The first switch abandons what `main` has put on the stack below the frame of the base task. -/
lemma Refines.started (h : Refines B m a) (hw : Wide B) (hm : m.mode = .main)
    (hfirst : m.kernel.firstStart = false) {d : Core} {taskSp : ℕ} (hplace : taskSp + 32 = m.kernel.pspArray 0)
    (houtside : ∀ b, b < taskSp ∨ m.kernel.pspArray 0 ≤ b → stack b = m.kernel.stack b)
    (hs : Preemption.Step B (m.withStack stack).core (.call .startScheduler) d) (cpu : Cpu)
    (hr : cpu.r1 = m.kernel.pspArray 0) :
    Refines B { m with core := d, cpu := cpu, mode := .thread }
      { a with core := bare d, upper := cpu.upper, mode := .thread } := by
  obtain ⟨hf, h0, hlow⟩ := h.main hm
  have hnone : running m = none := by simp [running, hm]
  have hafter : running { m with core := d, cpu := cpu, mode := .thread } = none := by simp [running, hf]
  have hready : Awake B (m.withStack stack).core :=
    ⟨h.awake.slot, h.awake.thread, h.awake.next, h.awake.chosen, h.awake.stored⟩
  have hcalled := hready.called hw h.heap hs
  have hcur : d.kernel.currentTask = m.kernel.currentTask := hcalled.current
  have hcalm : Calm B (m.withStack stack).kernel d.kernel := by
    rcases hcalled.moves with hcalm | ⟨p, arg, i, he, -⟩
    · exact hcalm
    · cases he
  have hstack : d.kernel.stack = stack := hcalm.stack
  have hpsp : d.kernel.pspArray = m.kernel.pspArray := hcalm.psp
  have hbase : m.kernel.pspArray 0 + 0x50 ≤ bottom B 1 := by
    obtain ⟨x, hx⟩ := h.current
    rw [h0] at hx
    exact (h.saved 0 x hx (by rw [hnone]; simp)).high
  have hlive : ∀ k, Live B d.kernel k → Live B m.kernel k ∨ k = m.kernel.currentTask := hcalm.live
  have hpending : d.kernel.switchPending = true :=
    start_pending (show (m.withStack stack).core.kernel.firstStart = false from hfirst) hs
  refine ⟨rfl, rfl, fun _ => rfl, hcalled.heap.trans h.heap, hready.step hs,
    fun _ => hcalled.stage.trans hcalled.outside, fun _ _ => hpending, fun hm' => ?_,
    fun k hk => ?_, ?_, h.bound, fun k hk => ?_, fun k x hx _ => ?_, fun _ _ => ?_⟩
  · cases hm'
  · rcases hlive k hk with hl | rfl
    · exact h.known k hl
    · exact h.current
  · change ∃ x, a.ctx d.kernel.currentTask = some x
    rw [hcur]
    exact h.current
  · rw [hafter] at hk
    cases hk
  · have hsaved := h.saved k x hx (by rw [hnone]; simp)
    change FramedAt B k (d.kernel.pspArray k) d.kernel.stack x
    rw [hpsp, hstack]
    refine hsaved.spared (j := 0) (r := m.kernel.pspArray 0) (fun b hb => ?_) (by rw [zero_add]; omega)
      fun hk => by rw [hk]
    by_contra hno
    exact hb (houtside b (by omega))
  · change bottom B d.kernel.currentTask + (if Mode.thread = Mode.thread then 0x50 else 0) ≤ cpu.r1 ∧
      cpu.r1 + (if Mode.thread = Mode.handler ∧ d.stage = .outside then 0x50 else 0) ≤
        d.kernel.pspArray d.kernel.currentTask
    rw [if_pos rfl, if_neg (fun hc => by cases hc.1), hcur, hpsp, h0, hr]
    exact ⟨hlow, le_rfl⟩

lemma Refines.start (h : Refines B m a) (hw : Wide B) (hm : m.mode = .main)
    (hfirst : m.kernel.firstStart = false) {t : KernelState}
    (hs : Preemption.Step B (m.switchMcuMode cpu).enterService.core (.call .startScheduler)
      ⟨t, m.core.stage⟩) :
    Refines B { (m.switchMcuMode cpu).leaveService v left t with mode := .thread }
      { a with core := bare ⟨t, m.core.stage⟩, upper := cpu.upper, mode := .thread } := by
  obtain ⟨hf, h0, hlow⟩ := h.main hm
  have hhigh : m.kernel.pspArray 0 + 0x50 ≤ bottom B 1 := by
    obtain ⟨x, hx⟩ := h.current
    rw [h0] at hx
    exact (h.saved 0 x hx (by simp [running, hm])).high
  have hle : bottom B 1 ≤ 4294967296 := bottom_le hw (h0 ▸ h.awake.slot)
  have hroom : 32 ≤ (m.switchMcuMode cpu).cpu.r1 := by
    change 32 ≤ m.kernel.pspArray 0
    omega
  have hlt : (m.switchMcuMode cpu).cpu.r1 < 4294967296 := by
    change m.kernel.pspArray 0 < _
    omega
  obtain ⟨hplace, houtside⟩ := enterService_frame m.kernel.stack hroom hlt
  exact h.started hw hm hfirst hplace houtside hs (Frames.leaveService _ v (m.switchMcuMode cpu).cpu left
    t.stack) hplace

end Steps

section Simulation

variable {m n : Machine} {a : Bank} {stack : ℕ → ℕ} {v : ℕ}

lemma bare_withStack (m : Machine) (stack : ℕ → ℕ) : bare (m.withStack stack).core = bare m.core := rfl

lemma entered_step (stack : ℕ → ℕ) (hout : m.core.stage = .outside) (hq : m.kernel.switchPending = false)
    (hask : Asked m.kernel e) (hreg : Regular B m.kernel e)
    (hrep : Replies B (m.withStack stack).kernel e v u) (ht : Triggered B u t) :
    Preemption.Step B (m.withStack stack).core (.call e) ⟨t, m.core.stage⟩ := by
  refine Preemption.Step.call (c := (m.withStack stack).core) hout hq ?_ ?_ (replies_serves hrep) ht
  · cases e <;> exact hask
  · cases e <;> exact hreg

lemma entered_stage (m : Machine) (stack : ℕ → ℕ)
    (hs : Preemption.Step B (m.withStack stack).core (.call e) d) : ∃ t, d = ⟨t, m.core.stage⟩ := by
  cases hs with
  | @call _ _ t => exact ⟨t, rfl⟩

lemma Refines.step (hw : Wide B) (h : Refines B m a) {l : Machines.Label} (hs : Machines.Step B m l n) :
    ∃ b, BankStep B a l b ∧ Refines B n b := by
  have hcur : a.core.kernel.currentTask = m.kernel.currentTask := by rw [h.core]; rfl
  cases hs with
  | work mode running room msr writes =>
    have hidle : a.core.kernel.switchPending = false := by
      rw [h.core]
      exact running
    refine ⟨_, .work (h.mode.trans mode) hidle, ?_⟩
    rw [hcur]
    exact h.work mode (h.notFirst mode running) _ _ room writes
  | own mode own step =>
    obtain ⟨ctx, hl, hr⟩ := h.moved hw step
    exact ⟨_, .own (h.mode ▸ mode) (h.mode ▸ own) ⟨_, _, h.core.symm, step, rfl⟩ hl, hr⟩
  | @start cpu left c mode first step =>
    have hbare : bare (m.switchMcuMode cpu).enterService.core = a.core :=
      (bare_withStack (m.switchMcuMode cpu) _).trans h.core.symm
    obtain ⟨t, rfl⟩ := entered_stage (m.switchMcuMode cpu) _ step
    exact ⟨_, .start (h.mode.trans mode) ⟨_, _, hbare, step, rfl⟩, h.start hw mode first step⟩
  | @call e v left u t mode running asked regular replies triggered =>
    have hout := h.stage (by rw [mode]; decide)
    have hbare : bare m.enterService.core = a.core := (bare_withStack m _).trans h.core.symm
    have hstep : Preemption.Step B m.enterService.core (.call _) _ :=
      entered_step _ hout running asked regular replies triggered
    obtain ⟨ctx, x, hl, hx, hr⟩ := h.call hw mode running v left hstep
    rw [← hcur] at hx hr
    exact ⟨_, .call (h.mode.trans mode) ⟨_, _, hbare, ⟨hstep, _, replies, triggered⟩, rfl⟩ hl hx, hr⟩
  | interrupt mode => exact ⟨_, .interrupt (h.mode.trans mode), h.enter hw mode _⟩
  | scratch mode r1 upper writes =>
    have hdug := h.dig (by rw [mode]; decide) _ writes
    exact ⟨_, .scratch (h.mode.trans mode), hdug.scratch mode r1 upper⟩
  | isr mode step =>
    have hawake := h.awake.step step
    refine ⟨_, .core (h.mode.trans mode) ⟨_, _, h.core.symm, step, rfl⟩, ?_⟩
    cases step with
    | isr =>
      exact h.calm ⟨rfl, rfl, fun _ hk => Or.inl hk⟩ rfl rfl hawake fun hf hm => h.first hf hm
  | tick mode step =>
    have hawake := h.awake.step step
    refine ⟨_, .core (h.mode.trans mode) ⟨_, _, h.core.symm, step, rfl⟩, ?_⟩
    cases step with
    | tick timer scheduler =>
      obtain ⟨w, x, hsched, rfl⟩ := scheduled_effect scheduler
      have hpicked := scheduled_picked hsched
      exact h.calm hpicked.toCalm hpicked.current hpicked.heap hawake fun _ _ => hpicked.switch
  | fetch mode step =>
    refine ⟨_, .core (h.mode.trans mode) ⟨m.storePsp.core, _, h.core.symm, step, rfl⟩, ?_⟩
    cases step with
    | fetch outside pending => exact h.fetch mode outside _ (h.awake.next pending)
  | load mode chosen step =>
    refine ⟨_, .core (h.mode.trans mode) ⟨_, _, h.core.symm, step, rfl⟩, ?_⟩
    cases step with
    | load found =>
      rw [chosen] at found
      obtain ⟨rfl, -⟩ := Stage.chosen.inj found
      exact h.load mode chosen
  | store mode step =>
    refine ⟨_, .core (h.mode.trans mode) ⟨_, _, h.core.symm, step, rfl⟩, ?_⟩
    cases step with
    | store chosen => exact h.store mode chosen
  | clear mode step =>
    refine ⟨_, .core (h.mode.trans mode) ⟨_, _, h.core.symm, step, rfl⟩, ?_⟩
    cases step with
    | clear stored => exact h.clear mode stored
  | leave mode outside =>
    refine ⟨_, .leave (h.mode.trans mode) ?_, h.leave mode outside⟩
    rw [h.core]
    exact outside

end Simulation

section Boot

variable (mem : ℕ → ℕ) (objs : ℕ → TaskObject) (stack : ℕ → ℕ)

lemma boot_live (k : ℕ) : Live B (bootMpc B mem objs stack) k ↔ k = 0 := by
  obtain ⟨objs', stack', hb⟩ := bootState_eq B mem objs stack
  change Live B (bootState B mem objs stack) k ↔ k = 0
  rw [hb]
  exact booted_live B mem objs' stack' k

lemma boot_quiet : (bootMpc B mem objs stack).switchPending = false ∧
    (bootMpc B mem objs stack).pstackAddr = B.procHeapAddr := by
  obtain ⟨objs', stack', hb⟩ := bootState_eq B mem objs stack
  change (bootState B mem objs stack).switchPending = false ∧
    (bootState B mem objs stack).pstackAddr = B.procHeapAddr
  rw [hb]
  exact ⟨rfl, rfl⟩

lemma boot_framed (hw : Wide B) : ∃ x, Launched B (bottom B 1) B.baseTaskEntry x ∧
    FramedAt B 0 ((bootMpc B mem objs stack).pspArray 0) (bootMpc B mem objs stack).stack x ∧
    bottom B 0 + 0x50 ≤ (bootMpc B mem objs stack).pspArray 0 := by
  have hsize := hw.size
  have hend : B.procHeapAddr + 4 * B.taskStackSize ≤ 4294967296 := by
    have hle := bottom_le hw B.maxTaskCount_pos
    rwa [bottom_succ] at hle
  have htop : bottom B 1 = B.procHeapAddr + 4 * B.taskStackSize := bottom_succ B 0
  have hnum : Stacks.initialPsp .mpc57x8 B B.procHeapAddr + 92 = B.procHeapAddr + 4 * B.taskStackSize :=
    initialPsp_eq (by omega) hend
  have hpsp : (bootMpc B mem objs stack).pspArray 0 = Stacks.initialPsp .mpc57x8 B B.procHeapAddr := by
    change update (beforeBase B mem objs stack).pspArray 0 (Stacks.initialPsp .mpc57x8 B B.procHeapAddr) 0 = _
    rw [update_self]
  have hfunc : ((beforeBase B mem objs stack).objs B.baseTask).ptrFunc = B.baseTaskEntry := by
    rw [beforeBase_eq]
    simp [baseObject]
  have hstack : (bootMpc B mem objs stack).stack = Stacks.archTaskStackInit .mpc57x8 B
      (Stacks.clearStack B (beforeBase B mem objs stack).stack B.procHeapAddr) B.procHeapAddr
      B.baseTaskEntry 0 := by
    rw [← hfunc]
    rfl
  refine ⟨framed (bottom B 1) ((bootMpc B mem objs stack).pspArray 0) (bootMpc B mem objs stack).stack, ?_,
    ⟨rfl, ?_, ?_⟩, ?_⟩
  · rw [hpsp, hstack, htop]
    exact init_launched (by omega) hend _ _
  · rw [hpsp, bottom]
    omega
  · rw [hpsp, zero_add, htop]
    omega
  · rw [hpsp, bottom]
    omega

lemma initial_refines (hw : Wide B) (cpu : Cpu) : ∃ x, Launched B (bottom B 1) B.baseTaskEntry x ∧
    Refines B (Machines.initial B cpu mem objs stack)
      ⟨bare (Preemption.initial B mem objs stack), update (fun _ => none) 0 (some x), cpu.upper, .main⟩ := by
  obtain ⟨x, hx, hframe, hlow⟩ := boot_framed mem objs stack hw
  obtain ⟨hq, hheap⟩ := boot_quiet (B := B) mem objs stack
  have hlive : ∀ k, Live B (bootMpc B mem objs stack) k → k = 0 := fun k => (boot_live mem objs stack k).mp
  have hctx : ∀ k y, update (fun _ => none) 0 (some x) k = some y → k = 0 ∧ y = x := by
    intro k y hy
    rcases eq_or_ne k 0 with rfl | hne
    · rw [update_self] at hy
      exact ⟨rfl, (Option.some.inj hy).symm⟩
    · rw [update_of_ne hne] at hy
      cases hy
  refine ⟨x, hx, rfl, rfl, fun _ => rfl, hheap, ⟨B.maxTaskCount_pos, fun _ _ => ?_, fun hp => ?_,
    fun n l hn => ?_, fun hn => ?_⟩, fun _ => rfl, fun _ hm => absurd rfl hm, fun _ => ⟨rfl, rfl, hlow⟩,
    fun k hk => ?_, ⟨x, rfl⟩, fun k y hy => ?_, fun k hk => ?_,
    fun k y hy _ => ?_, fun _ hm => absurd rfl hm⟩
  · exact (boot_live mem objs stack 0).mpr rfl
  · exact Bool.noConfusion (hq.symm.trans hp)
  · cases hn
  · cases hn
  · obtain rfl := hlive k hk
    exact ⟨x, rfl⟩
  · obtain ⟨rfl, -⟩ := hctx k y hy
    exact B.maxTaskCount_pos
  · cases hk
  · obtain ⟨rfl, rfl⟩ := hctx k y hy
    exact hframe

end Boot

lemma run_refines (hw : Wide B) {cpu : Cpu} {mem stack : ℕ → ℕ} {objs : ℕ → TaskObject}
    {ls : List Machines.Label} {m : Machine}
    (h : Run (Machines.Step B) (Machines.initial B cpu mem objs stack) ls m) :
    ∃ x a, Launched B (bottom B 1) B.baseTaskEntry x ∧ Run (BankStep B)
      ⟨bare (Preemption.initial B mem objs stack), update (fun _ => none) 0 (some x), cpu.upper, .main⟩
      ls a ∧ Refines B m a := by
  obtain ⟨x, hx, hinit⟩ := initial_refines mem objs stack hw cpu
  obtain ⟨a, ha, hr⟩ := Run.simulated (fun _ _ _ _ hr hs => hr.step hw hs) hinit h
  exact ⟨x, a, hx, ha, hr⟩

end Skibios.Switching.Mpc.Refinement
