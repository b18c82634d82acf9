import Skibios.Switching.Contexts

/-! The ARM system refines the machine with private contexts: no exception, service, interrupt or
switch changes what a task sees of its registers and its stack. -/

namespace Skibios.Switching.Transparency

open Function Library.Words Library.Blocks Library.Runs Kernel State Services Events Effects
open Skibios.Tasks.Invariants Cortex Moves Exceptions Contexts
open Protection.UserRegions (Config Mpu)
open Access (bottom bottom_succ bottom_mono Wired Mapped UserWritable)

variable {B : Build} {stkalign : Bool} {c : Config} {lo hi : ℕ} {m n : Machine} {a : Contexts.Tasks}
  {stack stack' : ℕ → ℕ} {i j k : ℕ}

/-- A context that leaves room on the stack of its slot for a switch away, in unprivileged mode. -/
structure Fit (B : Build) (k : ℕ) (x : Context) : Prop where
  roomy : x.Roomy (bottom B k) (bottom B (k + 1))
  nPriv : x.nPriv = true

def Elsewhere (B : Build) (j : ℕ) (stack stack' : ℕ → ℕ) : Prop :=
  ∀ k < B.maxTaskCount, k ≠ j → ∀ a, bottom B k ≤ a → a < bottom B (k + 1) → stack' a = stack a

/-- Outside `main` the current slot has its stack even after its task has ended. -/
def Owned (B : Build) (m : Machine) (k : ℕ) : Prop :=
  Live B m.kernel k ∨ (m.mode ≠ .main ∧ k = m.kernel.currentTask)

structure Refines (B : Build) (stkalign : Bool) (c : Config) (m : Machine) (a : Contexts.Tasks) :
    Prop where
  kernel : a.kernel = shown m.kernel
  mode : a.mode = m.mode
  consistent : Consistent B m.kernel
  heap : m.kernel.pstackAddr = B.procHeapAddr
  current : m.kernel.currentTask < B.maxTaskCount
  -- the base task is still as it was created when `main` starts the scheduler
  base : m.mode = .main → m.kernel.currentTask = 0 ∧ (a.ctx 0).fp = none ∧
    (a.ctx 0).psp + 4 = bottom B 1
  mapped : Mapped c m.mpu m.kernel.currentTask
  fit : ∀ k, Owned B m k → Fit B k (a.ctx k)
  -- what the memory and the registers hold of the contexts
  suspended : ∀ k, Live B m.kernel k → (m.mode = .main ∨ k ≠ m.kernel.currentTask) →
    saved stkalign (bottom B (k + 1)) (m.kernel.pspArray k) m.cpu m.kernel.stack = a.ctx k
  running : m.mode = .thread → view (bottom B (m.kernel.currentTask + 1)) m.cpu m.kernel.stack =
    a.ctx m.kernel.currentTask
  handling : m.mode = .handler → framed stkalign (bottom B (m.kernel.currentTask + 1)) m.excReturn
    m.cpu m.kernel.stack = a.ctx m.kernel.currentTask

section Stacks

lemma bottom_disjoint (hkj : k ≠ j) : bottom B (k + 1) ≤ bottom B j ∨ bottom B (j + 1) ≤ bottom B k := by
  rcases Nat.lt_or_gt_of_ne hkj with h | h
  · exact Or.inl (bottom_mono B h)
  · exact Or.inr (bottom_mono B h)

lemma Elsewhere.of_outside {p q : ℕ} (hp : bottom B j ≤ p) (hq : q ≤ bottom B (j + 1))
    (h : ∀ a, a < p ∨ q ≤ a → stack' a = stack a) : Elsewhere B j stack stack' := by
  intro k _ hkj a hl hu
  refine h a ?_
  rcases bottom_disjoint (B := B) hkj with hd | hd <;> omega

lemma Elsewhere.trans {stack'' : ℕ → ℕ} (h : Elsewhere B j stack stack')
    (h' : Elsewhere B j stack' stack'') : Elsewhere B j stack stack'' :=
  fun k hk hkj a hl hu => (h' k hk hkj a hl hu).trans (h k hk hkj a hl hu)

lemma saved_elsewhere {cpu cpu' : Cpu} {sp : ℕ} {x : Context} (hk : k < B.maxTaskCount) (hkj : k ≠ j)
    (hst : Elsewhere B j stack stack') (hx : Fit B k x)
    (h : saved stkalign (bottom B (k + 1)) sp cpu stack = x) :
    saved stkalign (bottom B (k + 1)) sp cpu' stack' = x := by
  subst h
  obtain ⟨hl, hu, -⟩ := saved_bounds hx.roomy
  exact saved_congr (fun a ha hlt => hst k hk hkj a (hl.trans ha) hlt) hu

lemma view_elsewhere {cpu : Cpu} {x : Context} (hk : k < B.maxTaskCount) (hkj : k ≠ j)
    (hst : Elsewhere B j stack stack') (hx : Fit B k x) (h : view (bottom B (k + 1)) cpu stack = x) :
    view (bottom B (k + 1)) cpu stack' = x := by
  subst h
  have hl : bottom B k ≤ cpu.psp := (Nat.le_add_right _ _).trans hx.roomy.1
  have hstack : stackAbove cpu.psp (bottom B (k + 1)) stack' = stackAbove cpu.psp (bottom B (k + 1)) stack :=
    stackAbove_congr fun a ha hlt => hst k hk hkj a (hl.trans ha) hlt
  rw [view, hstack]
  rfl

lemma framed_elsewhere {cpu : Cpu} {excReturn : ℕ} {x : Context} (hk : k < B.maxTaskCount)
    (hkj : k ≠ j) (hst : Elsewhere B j stack stack') (hx : Fit B k x)
    (h : framed stkalign (bottom B (k + 1)) excReturn cpu stack = x) :
    framed stkalign (bottom B (k + 1)) excReturn cpu stack' = x := by
  subst h
  obtain ⟨hl, hu, -⟩ := framed_bounds hx.roomy
  exact framed_congr rfl rfl rfl (fun _ => rfl) (fun a ha => hst k hk hkj a (by omega)) hu

lemma framed_answer {cpu : Cpu} {excReturn v : ℕ} {x : Context}
    (h : framed stkalign (bottom B (k + 1)) excReturn cpu stack = x) :
    framed stkalign (bottom B (k + 1)) excReturn cpu (update stack cpu.psp v) = answered x v := by
  subst h
  have hload : load (update stack cpu.psp v) cpu.psp 8 = update (load stack cpu.psp 8) 0 v := by
    funext i
    rcases eq_or_ne i 0 with rfl | hi
    · rw [update_self]
      exact update_self _ _ _
    · have hne : (i : ℕ) ≠ 0 := fun h => hi (Fin.ext h)
      rw [update_of_ne hi]
      exact update_of_ne (by omega) _ _
  have hpsr : update stack cpu.psp v (cpu.psp + 28) = stack (cpu.psp + 28) :=
    update_of_ne (by omega) _ _
  have hfloats : load (update stack cpu.psp v) (cpu.psp + 32) 17 = load stack (cpu.psp + 32) 17 := by
    funext i
    exact update_of_ne (by omega) _ _
  have hcomm : ∀ (f : Fin 8 → ℕ) (u w : ℕ), update (update f 0 u) 7 w = update (update f 7 w) 0 u :=
    fun f u w => update_comm (by decide) _ _ _
  simp only [framed, view, popFrame, hload, hpsr, hfloats, answered, hcomm]
  congr 1
  refine stackAbove_congr fun a ha _ => update_of_ne ?_ _ _
  have hle : cpu.psp + frameSize (fpFrame excReturn) ≤ a := Nat.left_le_or.trans ha
  have hsize : 32 ≤ frameSize (fpFrame excReturn) := by cases fpFrame excReturn <;> decide
  omega

end Stacks

section Steps

lemma Refines.restack (h : Refines B stkalign c m a) (mode : Mode) (excReturn : ℕ) (cpu : Cpu)
    (x : Context) (hmode : mode ≠ .main)
    (hst : Elsewhere B m.kernel.currentTask m.kernel.stack stack)
    (hx : Fit B m.kernel.currentTask x)
    (hrun : mode = .thread → view (bottom B (m.kernel.currentTask + 1)) cpu stack = x)
    (hhandle : mode = .handler → framed stkalign (bottom B (m.kernel.currentTask + 1)) excReturn cpu
      stack = x) :
    Refines B stkalign c { m.withStack stack with cpu := cpu, mode := mode, excReturn := excReturn }
      { a with ctx := update a.ctx m.kernel.currentTask x, mode := mode } := by
  refine ⟨h.kernel, rfl, ?_, h.heap, h.current, fun hm => absurd hm hmode, h.mapped, fun k hk => ?_,
    fun k hk hsus => ?_, fun ht => ?_, fun hh => ?_⟩ <;> dsimp only [Machine.withStack] at *
  · exact h.consistent.keep rfl rfl rfl rfl rfl rfl rfl rfl rfl rfl rfl rfl rfl
  · rcases eq_or_ne k m.kernel.currentTask with rfl | hne
    · rw [update_self]
      exact hx
    · rw [update_of_ne hne]
      refine h.fit k (Or.inl ?_)
      rcases hk with hk | hk
      · exact hk
      · exact absurd hk.2 hne
  · have hne : k ≠ m.kernel.currentTask := by
      rcases hsus with hm | hne
      · exact absurd hm hmode
      · exact hne
    rw [update_of_ne hne]
    exact saved_elsewhere hk.1 hne hst (h.fit k (Or.inl hk)) (h.suspended k hk (Or.inr hne))
  · rw [update_self]
    exact hrun ht
  · rw [update_self]
    exact hhandle hh

lemma Refines.restack_same (h : Refines B stkalign c m a) (cpu : Cpu) (x : Context)
    (hm : m.mode ≠ .main) (hst : Elsewhere B m.kernel.currentTask m.kernel.stack stack)
    (hx : Fit B m.kernel.currentTask x)
    (hrun : m.mode = .thread → view (bottom B (m.kernel.currentTask + 1)) cpu stack = x)
    (hhandle : m.mode = .handler → framed stkalign (bottom B (m.kernel.currentTask + 1)) m.excReturn
      cpu stack = x) :
    Refines B stkalign c { m.withStack stack with cpu := cpu }
      { a with ctx := update a.ctx m.kernel.currentTask x } := by
  have hsame : ({ a with ctx := update a.ctx m.kernel.currentTask x } : Contexts.Tasks) =
      { a with ctx := update a.ctx m.kernel.currentTask x, mode := m.mode } := by rw [← h.mode]
  rw [hsame]
  exact h.restack m.mode m.excReturn cpu x hm hst hx hrun hhandle

lemma Refines.quiet (h : Refines B stkalign c m a) {t : KernelState} (hq : Quiet B m.kernel t)
    (hc : Consistent B t) :
    Refines B stkalign c { m with kernel := t } { a with kernel := shown t } := by
  obtain ⟨hcur, hstack, hpsp, hheap, hlive⟩ := hq
  refine ⟨rfl, h.mode, hc, hheap.trans h.heap, ?_, fun hm => ?_, ?_, fun k hk => ?_,
    fun k hk hsus => ?_, fun ht => ?_, fun hh => ?_⟩ <;> dsimp only [Owned] at * <;>
    try rw [hcur] at *
  · exact h.current
  · exact h.base hm
  · exact h.mapped
  · exact h.fit k (hk.imp_left (hlive k))
  · rw [hstack, hpsp]
    exact h.suspended k (hlive k hk) hsus
  · rw [hstack]
    exact h.running ht
  · rw [hstack]
    exact h.handling hh

lemma launched_fit {x : Context} {f arg : ℕ} (hw : Wired B c lo hi)
    (hx : Launched B (bottom B (i + 1)) f arg x) : Fit B i x := by
  have hpsp := hx.psp
  have hsize := hw.size
  have hword := hw.word
  rw [bottom_succ] at hpsp
  have hmod : bottom B i % 4 = 0 := by
    rw [bottom, mul_assoc, Nat.add_mul_mod_self_left, hword]
  refine ⟨⟨?_, ?_, ?_⟩, hx.nPriv⟩
  · rw [hx.fp]
    simp only [room, Option.isSome_none, Bool.false_eq_true, if_false]
    omega
  · rw [bottom_succ]
    omega
  · omega

lemma Refines.created (h : Refines B stkalign c m a) (hw : Wired B c lo hi) {t : KernelState}
    {p arg : ℕ} (hcr : Created B m.kernel p arg t i) (hc : Consistent B t)
    (hne : m.mode = .main ∨ i ≠ m.kernel.currentTask) :
    ∃ ctx, Launches B m.kernel (.createTask p arg) t a.ctx ctx ∧
      Refines B stkalign c { m with kernel := t } { a with kernel := shown t, ctx := ctx } := by
  have hlaunched := hcr.launched stkalign m.cpu
  have hst : Elsewhere B i m.kernel.stack t.stack := by
    intro k _ hki a hl hu
    rcases bottom_disjoint (B := B) hki with hd | hd
    · exact hcr.outside a (Or.inl (by omega))
    · exact hcr.outside a (Or.inr (by omega))
  refine ⟨update a.ctx i (saved stkalign (bottom B (i + 1)) (t.pspArray i) m.cpu t.stack),
    Or.inr ⟨p, arg, i, _, rfl, hcr.fresh, hcr.lives, hlaunched, rfl⟩, ?_⟩
  refine ⟨rfl, h.mode, hc, hcr.heap.trans h.heap, ?_, fun hm => ?_, ?_, fun k hk => ?_,
    fun k hk hsus => ?_, fun ht => ?_, fun hh => ?_⟩ <;> dsimp only [Owned] at * <;>
    try rw [hcr.current] at *
  · exact h.current
  · have hi0 : (0 : ℕ) ≠ i := by
      rintro rfl
      exact hcr.fresh h.consistent.base
    rw [update_of_ne hi0]
    exact h.base hm
  · exact h.mapped
  · rcases eq_or_ne k i with rfl | hki
    · rw [update_self]
      exact launched_fit hw hlaunched
    · rw [update_of_ne hki]
      refine h.fit k (hk.imp_left fun hl => ?_)
      exact (hcr.live k hl).resolve_right hki
  · rcases eq_or_ne k i with rfl | hki
    · rw [update_self]
    · rw [update_of_ne hki, hcr.psp k hki]
      have hl := (hcr.live k hk).resolve_right hki
      exact saved_elsewhere hk.1 hki hst (h.fit k (Or.inl hl)) (h.suspended k hl hsus)
  · have hci : m.kernel.currentTask ≠ i := by
      rcases hne with hm | hne
      · rw [ht] at hm
        cases hm
      · exact hne.symm
    rw [update_of_ne hci]
    exact view_elsewhere h.current hci hst (h.fit _ (Or.inr ⟨by rw [ht]; decide, rfl⟩)) (h.running ht)
  · have hci : m.kernel.currentTask ≠ i := by
      rcases hne with hm | hne
      · rw [hh] at hm
        cases hm
      · exact hne.symm
    rw [update_of_ne hci]
    exact framed_elsewhere h.current hci hst (h.fit _ (Or.inr ⟨by rw [hh]; decide, rfl⟩))
      (h.handling hh)

lemma Refines.runs (h : Refines B stkalign c m a) (hm : m.mode ≠ .main) :
    Fit B m.kernel.currentTask (a.ctx m.kernel.currentTask) := h.fit _ (Or.inr ⟨hm, rfl⟩)

lemma bottom_lt (hw : Wired B c lo hi) (hk : k < B.maxTaskCount) : bottom B (k + 1) < 4294967296 :=
  (bottom_mono B hk).trans_lt (hw.high.trans_lt hw.fits)

lemma Refines.enter (h : Refines B stkalign c m a) (hw : Wired B c lo hi) (hm : m.mode = .thread) :
    Refines B stkalign c (m.enter stkalign) { a with mode := .handler } := by
  have hfit := h.runs (by rw [hm]; decide)
  have hview := h.running hm
  have hlt := bottom_lt hw h.current
  have hsize := hw.size
  rw [← hview] at hfit
  obtain ⟨hlow, htop, hmod⟩ := hfit.roomy
  have hroom : bottom B m.kernel.currentTask + frameSize m.cpu.fpca + 4 + saveSize m.cpu.fpca ≤
      m.cpu.psp := by
    cases hf : m.cpu.fpca <;> simp only [view, hf, if_true, Bool.false_eq_true, if_false,
      Option.isSome_none, Option.isSome_some, room, frameSize, saveSize] at hlow ⊢ <;> omega
  have hpos : 0 < frameSize m.cpu.fpca := by cases m.cpu.fpca <;> decide
  have hlt' : m.cpu.psp < 4294967296 := lt_of_le_of_lt htop hlt
  have hentered : Entered stkalign m.cpu m.kernel.stack _ _ _ := push_entered hmod (by omega) hlt'
  have hst : Elsewhere B m.kernel.currentTask m.kernel.stack
      (pushFrame stkalign m.cpu m.kernel.stack).2.2 := by
    refine Elsewhere.of_outside ?_ htop hentered.outside
    have hplace := hentered.place
    have := alignBit_lt stkalign m.cpu
    omega
  have h' := h.restack .handler (pushFrame stkalign m.cpu m.kernel.stack).1
    (pushFrame stkalign m.cpu m.kernel.stack).2.1 _ (by decide) hst (hview ▸ hfit)
    (fun ht => by cases ht) fun _ => (push_framed hmod (by omega) hlt').trans hview
  rwa [update_eq_self] at h'

lemma Refines.answer (h : Refines B stkalign c m a) (hm : m.mode = .handler) (v : ℕ) :
    Refines B stkalign c (m.answer v) { a with
      ctx := update a.ctx m.kernel.currentTask (answered (a.ctx m.kernel.currentTask) v) } := by
  have hfit := h.runs (by rw [hm]; decide)
  have hhandle := h.handling hm
  have hst : Elsewhere B m.kernel.currentTask m.kernel.stack (update m.kernel.stack m.cpu.psp v) := by
    rw [← hhandle] at hfit
    obtain ⟨hl, hu, -⟩ := framed_bounds hfit.roomy
    have hpos : 0 < frameSize (fpFrame m.excReturn) := by cases fpFrame m.excReturn <;> decide
    exact Elsewhere.of_outside (p := m.cpu.psp) (q := m.cpu.psp + 1) (by omega) (by omega)
      fun a ha => update_of_ne (by omega) _ _
  refine h.restack_same m.cpu (answered (a.ctx m.kernel.currentTask) v) (by rw [hm]; decide) hst
    ⟨hfit.roomy, hfit.nPriv⟩ (fun ht => ?_) fun _ => framed_answer hhandle
  rw [hm] at ht
  cases ht

lemma Elsewhere.refl (B : Build) (j : ℕ) (stack : ℕ → ℕ) : Elsewhere B j stack stack :=
  fun _ _ _ _ _ _ => rfl

lemma Refines.leave (h : Refines B stkalign c m a) (hm : m.mode = .handler) :
    Refines B stkalign c (m.leave stkalign) { a with mode := .thread } := by
  have h' := h.restack .thread m.excReturn (popFrame stkalign m.excReturn m.cpu m.kernel.stack) _
    (by decide) (Elsewhere.refl B _ _) (h.runs (by rw [hm]; decide)) (fun _ => h.handling hm)
    fun hh => by cases hh
  rwa [update_eq_self] at h'

lemma Refines.scratch (h : Refines B stkalign c m a) (hm : m.mode = .handler) (low : Fin 8 → ℕ)
    (fpLow : Fin 17 → ℕ) :
    Refines B stkalign c { m with cpu := { m.cpu with low := low, fpLow := fpLow } } a := by
  have hfit := h.runs (by rw [hm]; decide)
  have hhandle := h.handling hm
  have hframe := (framed_bounds (hhandle ▸ hfit).roomy).2.1
  have hpop : framed stkalign (bottom B (m.kernel.currentTask + 1)) m.excReturn
      { m.cpu with low := low, fpLow := fpLow } m.kernel.stack = a.ctx m.kernel.currentTask := by
    rw [← hhandle]
    exact framed_congr rfl rfl rfl (fun _ => rfl) (fun _ _ _ => rfl) hframe
  have h' := h.restack_same { m.cpu with low := low, fpLow := fpLow } _ (by rw [hm]; decide)
    (Elsewhere.refl B _ _) hfit (fun ht => by rw [hm] at ht; cases ht) fun _ => hpop
  rwa [update_eq_self] at h'

/-- The MPU keeps the stores of a task out of the stacks of the others. -/
lemma Refines.work (h : Refines B stkalign c m a) (hw : Wired B c lo hi) (hm : m.mode = .thread)
    {cpu : Cpu} (hroom : (view (bottom B (m.kernel.currentTask + 1)) cpu stack).Roomy
      (bottom B m.kernel.currentTask) (bottom B (m.kernel.currentTask + 1)))
    (hpriv : cpu.nPriv = m.cpu.nPriv)
    (hwrites : ∀ a, stack a ≠ m.kernel.stack a → m.cpu.nPriv = false ∨ UserWritable m.mpu a) :
    Refines B stkalign c { m.withStack stack with cpu := cpu } { a with
      ctx := update a.ctx m.kernel.currentTask (view (bottom B (m.kernel.currentTask + 1)) cpu stack) } := by
  have hfit := h.runs (by rw [hm]; decide)
  have hrun := h.running hm
  have hn : m.cpu.nPriv = true := by
    rw [← hrun] at hfit
    exact hfit.nPriv
  have hst : Elsewhere B m.kernel.currentTask m.kernel.stack stack := by
    intro k hk hne x hl hu
    by_contra hdiff
    rcases hwrites x hdiff with hp | hp
    · rw [hn] at hp
      cases hp
    · have hlo : lo ≤ x := hw.low.trans ((Nat.le_add_right _ _).trans hl)
      have hhi : x < hi := hu.trans_le ((bottom_mono B hk).trans hw.high)
      obtain ⟨hl', hu'⟩ := (h.mapped.writable_iff hw h.current hlo hhi).mp hp
      rcases bottom_disjoint (B := B) hne with hd | hd <;> omega
  refine h.restack_same cpu _ (by rw [hm]; decide) hst ⟨hroom, hpriv.trans hn⟩ (fun _ => rfl)
    fun hh => ?_
  rw [hm] at hh
  cases hh

lemma Refines.pendsv (h : Refines B stkalign c m a) (hw : Wired B c lo hi) (hm : m.mode = .handler)
    (hq : m.kernel.switchPending = true) :
    Refines B stkalign c (m.pendsv c) { a with kernel := Scheduler.contextSwitch a.kernel } := by
  have hfit := h.runs (by rw [hm]; decide)
  have hhandle := h.handling hm
  have hnext := h.consistent.next
  have hlt := bottom_lt hw h.current
  rw [← hhandle] at hfit
  obtain ⟨hl, hu, -⟩ := framed_bounds hfit.roomy
  have hpos : 0 < frameSize (fpFrame m.excReturn) := by cases fpFrame m.excReturn <;> decide
  have hstored : Stored m.excReturn m.cpu m.kernel.stack _ _ := save_stored (by omega) (by omega)
  have hst : Elsewhere B m.kernel.currentTask m.kernel.stack
      (saveContext m.excReturn m.cpu m.kernel.stack).2 := by
    refine Elsewhere.of_outside ?_ (by omega) hstored.outside
    have hplace := hstored.place
    omega
  -- the task that is left and those that were away are saved alike
  have hsaved : ∀ (cpu : Cpu) (k : ℕ), Live B m.kernel k → saved stkalign (bottom B (k + 1))
      (update m.kernel.pspArray m.kernel.currentTask
        (saveContext m.excReturn m.cpu m.kernel.stack).1 k) cpu
      (saveContext m.excReturn m.cpu m.kernel.stack).2 = a.ctx k := by
    intro cpu k hk
    rcases eq_or_ne k m.kernel.currentTask with rfl | hne
    · rw [update_self, hstored.saved hu, hhandle]
    · rw [update_of_ne hne]
      exact saved_elsewhere hk.1 hne hst (h.fit k (Or.inl hk)) (h.suspended k hk (Or.inr hne))
  have hnot : m.mode ≠ .main := by rw [hm]; decide
  refine ⟨?_, h.mode, ?_, h.heap, hnext.1, fun hmain => absurd hmain hnot, ?_, fun k hk => ?_,
    fun k hk _ => hsaved _ k hk, fun ht => ?_, fun _ => hsaved m.cpu _ hnext⟩
  · rw [h.kernel]
    rfl
  · exact (h.consistent.switched hq).keep rfl rfl rfl rfl rfl rfl rfl rfl rfl rfl rfl rfl rfl
  · exact h.mapped.switched (hw.entry _ hnext.1).1
  · refine h.fit k (Or.inl ?_)
    rcases hk with hk | ⟨-, rfl⟩
    · exact hk
    · exact hnext
  · have ht : m.mode = .thread := ht
    rw [hm] at ht
    cases ht

lemma framed_saved {cpu cpu' : Cpu} {sp top excReturn : ℕ} (hfp : fpFrame excReturn = false)
    (hnone : (saved stkalign top sp cpu stack).fp = none) (hpsp : cpu'.psp = sp + 40)
    (hpriv : cpu'.nPriv = (saved stkalign top sp cpu stack).nPriv) :
    framed stkalign top excReturn cpu' stack =
      { saved stkalign top sp cpu stack with high := cpu'.high } := by
  have hlink : fpFrame (stack sp) = false := by
    cases hf : fpFrame (stack sp) with
    | false => rfl
    | true =>
      simp only [saved, framed, view, popFrame, loadContext, hf, if_true] at hnone
      cases hnone
  simp only [saved, framed, view, popFrame, loadContext, hlink, hfp, hpsp, Bool.false_eq_true,
    if_false] at hpriv ⊢
  rw [hpriv]

lemma saved_psp_le {cpu : Cpu} {sp top : ℕ} (hnone : (saved stkalign top sp cpu stack).fp = none) :
    (saved stkalign top sp cpu stack).psp ≤ sp + 76 := by
  cases hf : fpFrame (stack sp) with
  | false =>
    simp only [saved, framed, view, popFrame, loadContext, hf, frameSize, Bool.false_eq_true, if_false]
    refine (or_align_bounds _ ?_).2.1
    split <;> omega
  | true =>
    simp only [saved, framed, view, popFrame, loadContext, hf, if_true] at hnone
    cases hnone

lemma started_step {s t : KernelState} {v : ℕ} (hth : InThread s)
    (h : startScheduler B s = some (v, t)) : Events.Step B s .startScheduler t := by
  refine ⟨0, ?_⟩
  rw [Events.step, inThread, if_pos hth, h]
  rfl

/-- The frame of the SVC that starts the scheduler has room below the first stack pointer, above which
the base task is saved as it was created. -/
lemma Refines.first_frame (h : Refines B stkalign c m a) (hw : Wired B c lo hi) (hm : m.mode = .main)
    (cpu : Cpu) : Elsewhere B 0 m.kernel.stack ((m.switchMcuMode cpu).enter stkalign).kernel.stack ∧
      saved stkalign (bottom B 1) (m.kernel.pspArray 0) m.cpu
        ((m.switchMcuMode cpu).enter stkalign).kernel.stack = a.ctx 0 := by
  obtain ⟨-, hnone, htop⟩ := h.base hm
  have hlive : Live B m.kernel 0 := h.consistent.toTable.base
  have hsus : saved stkalign (bottom B 1) (m.kernel.pspArray 0) m.cpu m.kernel.stack = a.ctx 0 :=
    h.suspended 0 hlive (Or.inl hm)
  have hroomy : (a.ctx 0).Roomy (bottom B 0) (bottom B 1) := (h.fit 0 (Or.inl hlive)).roomy
  have hlt : bottom B 1 < 4294967296 := bottom_lt hw hlive.1
  have hsize := hw.size
  have hsucc : bottom B 1 = bottom B 0 + 4 * B.taskStackSize := bottom_succ B 0
  rw [← hsus] at hroomy hnone htop
  obtain ⟨-, hu, hmod⟩ := saved_bounds hroomy
  have hpsp := saved_psp_le hnone
  have hsave : 40 ≤ saveSize (fpFrame (m.kernel.stack (m.kernel.pspArray 0))) := by
    cases fpFrame (m.kernel.stack (m.kernel.pspArray 0)) <;> decide
  have hroom : 36 ≤ m.kernel.pspArray 0 := by omega
  let first : Cpu := (m.switchMcuMode cpu).cpu
  have hentered : Entered stkalign first m.kernel.stack _ _
      ((m.switchMcuMode cpu).enter stkalign).kernel.stack :=
    push_entered hmod hroom (by change m.kernel.pspArray 0 < _; omega)
  have hplace : (pushFrame stkalign first m.kernel.stack).2.1.psp + 32 + 4 * alignBit stkalign first =
      m.kernel.pspArray 0 := hentered.place
  have hbit := alignBit_lt stkalign first
  constructor
  · exact Elsewhere.of_outside (by omega) (show m.kernel.pspArray 0 ≤ bottom B (0 + 1) by
      rw [zero_add]; omega) hentered.outside
  · rw [← hsus]
    exact saved_congr (fun x hx _ => hentered.outside x (Or.inr hx)) hu

/-- `svc_handler` once START_SCHEDULER and `btask_psp_correction` are through. -/
def startedMachine (stkalign : Bool) (m : Machine) (cpu : Cpu) (t : KernelState) : Machine :=
  { (m.switchMcuMode cpu).enter stkalign with
    kernel := t
    cpu := { ((m.switchMcuMode cpu).enter stkalign).cpu with psp := t.pspArray 0 + 40 } }

lemma Refines.started (h : Refines B stkalign c m a) (hw : Wired B c lo hi) (hm : m.mode = .main)
    {cpu : Cpu} {t : KernelState} (hq : Quiet B ((m.switchMcuMode cpu).enter stkalign).kernel t)
    (hct : Consistent B t) : Refines B stkalign c (startedMachine stkalign m cpu t)
      ⟨shown t, update a.ctx 0 { a.ctx 0 with high := cpu.high }, .handler⟩ := by
  obtain ⟨hcur, hnone, -⟩ := h.base hm
  obtain ⟨hst, habove⟩ := h.first_frame hw hm cpu
  obtain ⟨hcurrent, hstack, hpspArray, hheap, hback⟩ := hq
  have hlive : Live B m.kernel 0 := h.consistent.toTable.base
  have hpriv : (a.ctx 0).nPriv = true := (h.fit 0 (Or.inl hlive)).nPriv
  have hcur' : t.currentTask = 0 := hcurrent.trans hcur
  have hpsp' : t.pspArray 0 = m.kernel.pspArray 0 := congrFun hpspArray 0
  let x : Context := { a.ctx 0 with high := cpu.high }
  refine ⟨rfl, rfl, hct, hheap.trans h.heap, ?_, fun hmain => ?_, ?_, fun k hk => ?_,
    fun k hk hsus' => ?_, fun ht => ?_, fun _ => ?_⟩
  · exact hcur' ▸ hlive.1
  · cases hmain
  · have hmapped := h.mapped
    rw [hcur] at hmapped
    exact hcur' ▸ hmapped
  · change Fit B k (update a.ctx 0 x k)
    rcases eq_or_ne k 0 with rfl | hne
    · rw [update_self]
      exact ⟨(h.fit 0 (Or.inl hlive)).roomy, hpriv⟩
    · rw [update_of_ne hne]
      refine h.fit k (Or.inl (hback k ?_))
      rcases hk with hk | ⟨-, hk⟩
      · exact hk
      · exact absurd (hk.trans hcur') hne
  · have hne : k ≠ 0 := by
      rcases hsus' with hmain | hne
      · cases hmain
      · exact hcur' ▸ hne
    have hk' : Live B m.kernel k := hback k hk
    change saved stkalign (bottom B (k + 1)) (t.pspArray k) _ t.stack = update a.ctx 0 x k
    rw [update_of_ne hne, hpspArray, hstack]
    exact saved_elsewhere hk.1 hne hst (h.fit k (Or.inl hk')) (h.suspended k hk' (Or.inl hm))
  · cases ht
  · change framed stkalign (bottom B (t.currentTask + 1)) (startedMachine stkalign m cpu t).excReturn
      (startedMachine stkalign m cpu t).cpu t.stack = update a.ctx 0 x t.currentTask
    rw [hcur', hstack, update_self]
    change _ = { a.ctx 0 with high := cpu.high }
    rw [← habove]
    refine framed_saved (fpFrame_entry false) ?_ ?_ ?_
    · rw [habove, hnone]
    · change t.pspArray 0 + 40 = _
      rw [hpsp']
    · rw [habove, hpriv]
      rfl

lemma Refines.start (h : Refines B stkalign c m a) (hw : Wired B c lo hi) (hm : m.mode = .main)
    (hth : InThread m.kernel) {cpu : Cpu} {v : ℕ} {t : KernelState}
    (hmove : startScheduler B ((m.switchMcuMode cpu).enter stkalign).kernel = some (v, t)) :
    Refines B stkalign c (({ (m.switchMcuMode cpu).enter stkalign with
        kernel := t
        cpu := { ((m.switchMcuMode cpu).enter stkalign).cpu with psp := t.pspArray 0 + 40 } } :
          Machine).answer v)
      ⟨shown t, update a.ctx 0 (answered { a.ctx 0 with high := cpu.high } v), .handler⟩ := by
  obtain ⟨hcur, -⟩ := h.base hm
  -- the kernel starts from the same variables over the new stack
  have hcons : Consistent B ((m.switchMcuMode cpu).enter stkalign).kernel :=
    h.consistent.keep rfl rfl rfl rfl rfl rfl rfl rfl rfl rfl rfl rfl rfl
  have hstep := step_effect
    (started_step (s := ((m.switchMcuMode cpu).enter stkalign).kernel) hth hmove)
  have hregular : Regular B ((m.switchMcuMode cpu).enter stkalign).kernel .startScheduler := hcur
  have hquiet := Quiet.step hcons hregular hstep (by simp) (by simp)
  have hanswer := (h.started hw hm hquiet (hcons.step hregular hstep)).answer rfl v
  have hcur' : t.currentTask = 0 := hquiet.current.trans hcur
  change Refines B stkalign c _ ⟨shown t, update (update a.ctx 0 { a.ctx 0 with high := cpu.high })
    t.currentTask (answered (update a.ctx 0 { a.ctx 0 with high := cpu.high } t.currentTask) v),
    .handler⟩ at hanswer
  rwa [hcur', update_self, update_idem] at hanswer

end Steps

section Simulation

lemma answered_step {s t : KernelState} {e : Event} {v : ℕ} (h : Answered B s e v t) :
    Events.Step B s e t := by
  obtain ⟨hth, c, hreq, hsvc⟩ := h
  refine ⟨0, ?_⟩
  cases e <;> simp only [request, Option.some.injEq, reduceCtorEq] at hreq
  case unlockTest m =>
    split_ifs at hreq with hm
    obtain rfl := Option.some.inj hreq
    simp only at hsvc
    simp only [Events.step, inThread, if_pos hth, unlockTest, if_pos hm, hsvc, Option.map_some]
  all_goals
    subst hreq
    simp only at hsvc
    simp only [Events.step, inThread, if_pos hth, hsvc, Option.map_some]

lemma answered_not_switch {s t : KernelState} {e : Event} {v : ℕ} (h : Answered B s e v t) :
    e ≠ .contextSwitch := by
  rintro rfl
  obtain ⟨-, c, hreq, -⟩ := h
  cases hreq

lemma Refines.moved (h : Refines B stkalign c m a) (hw : Wired B c lo hi) {e : Event}
    {t : KernelState} (hok : Regular B m.kernel e) (hs : Events.Step B m.kernel e t)
    (hne : e ≠ .contextSwitch) : t.currentTask = m.kernel.currentTask ∧
      ∃ ctx, Launches B m.kernel e t a.ctx ctx ∧
        Refines B stkalign c { m with kernel := t } { a with kernel := shown t, ctx := ctx } := by
  have heffect := step_effect hs
  have hc := h.consistent.step hok heffect
  by_cases hcreate : ∃ p arg, e = .createTask p arg
  · obtain ⟨p, arg, rfl⟩ := hcreate
    rcases create_moves hw h.heap hok hs with hq | hcr
    · exact ⟨hq.current, a.ctx, Or.inl rfl, h.quiet hq hc⟩
    · refine ⟨hcr.current, h.created hw hcr hc (Or.inr fun heq => hcr.fresh ?_)⟩
      obtain ⟨fuel, hs⟩ := hs
      rw [heq]
      exact h.consistent.running (inThread_some hs).1
  · have hq := Quiet.step h.consistent hok heffect (fun p arg he => hcreate ⟨p, arg, he⟩) hne
    exact ⟨hq.current, a.ctx, Or.inl rfl, h.quiet hq hc⟩

lemma Refines.moved_same (h : Refines B stkalign c m a) (hw : Wired B c lo hi) {e : Event}
    {t : KernelState} (hok : Regular B m.kernel e) (hs : Events.Step B m.kernel e t)
    (hne : e ≠ .contextSwitch) (hcreate : ∀ p arg, e ≠ .createTask p arg) :
    Refines B stkalign c { m with kernel := t } { a with kernel := shown t } := by
  obtain ⟨-, ctx, hl, hr⟩ := h.moved hw hok hs hne
  rcases hl with rfl | ⟨p, arg, i, x, rfl, -⟩
  · exact hr
  · exact absurd rfl (hcreate p arg)

lemma shown_move {R : KernelState → KernelState → Prop} {s t : KernelState} {b : Contexts.Tasks}
    (hb : b.kernel = shown s) (hR : R s t) : Shown R b.kernel (shown t) :=
  ⟨s, t, hb.symm, hR, rfl⟩

lemma Refines.step (hw : Wired B c lo hi) (h : Refines B stkalign c m a) {l : Label}
    (hs : Exceptions.Step B stkalign c m l n) :
    ∃ b, Contexts.Step B a l b ∧ Refines B stkalign c n b := by
  have hcur : a.kernel.currentTask = m.kernel.currentTask := by rw [h.kernel]; rfl
  cases hs with
  | work mode room nPriv writes =>
    refine ⟨_, .work (h.mode.trans mode), ?_⟩
    rw [hcur]
    exact h.work hw mode room nPriv writes
  | own mode own regular move =>
    obtain ⟨-, ctx, hl, hr⟩ := h.moved hw regular move fun he => by rw [he] at own; exact own
    refine ⟨_, .own (h.mode ▸ mode) ?_ (shown_move h.kernel move) ?_, hr⟩
    · rw [h.mode, h.kernel]
      exact own
    · rw [h.kernel]
      exact hl
  | @start cpu v t mode thread first move =>
    have hsame : a.kernel = shown ((m.switchMcuMode cpu).enter stkalign).kernel := h.kernel
    exact ⟨_, .start (h.mode.trans mode) (shown_move hsame move), h.start hw mode thread move⟩
  | @call _ v t mode regular move =>
    have hentered := h.enter hw mode
    obtain ⟨hcur', ctx, hl, hr⟩ := hentered.moved hw regular (answered_step move)
      (answered_not_switch move)
    have hanswer := hr.answer hr.mode.symm v
    have ht : t.currentTask = a.kernel.currentTask := hcur'.trans hcur.symm
    dsimp only at hanswer
    rw [ht] at hanswer
    refine ⟨_, .call (h.mode.trans mode) (shown_move hentered.kernel move) ?_, hanswer⟩
    rw [h.kernel]
    exact hl
  | @region q mode =>
    have hentered := h.enter hw mode
    have hr : Refines B stkalign c { m.enter stkalign with mpu := (q.run m.mpu).2 }
        { a with mode := .handler } :=
      { hentered with mapped := hentered.mapped.requested q }
    have hanswer := hr.answer rfl (q.run m.mpu).1
    refine ⟨_, .region (h.mode.trans mode), ?_⟩
    rw [hcur]
    exact hanswer
  | interrupt mode => exact ⟨_, .interrupt (h.mode.trans mode), h.enter hw mode⟩
  | tick mode move =>
    have hentered := h.enter hw mode
    exact ⟨_, .tick (h.mode.trans mode) (shown_move hentered.kernel move),
      hentered.moved_same (e := .tick) hw trivial move (by simp) (by simp)⟩
  | scratch mode => exact ⟨_, .scratch (h.mode.trans mode), h.scratch mode _ _⟩
  | scheduler mode move =>
    exact ⟨_, .scheduler (h.mode.trans mode) (shown_move h.kernel move),
      h.moved_same (e := .scheduler) hw trivial move (by simp) (by simp)⟩
  | pendsv mode pending =>
    refine ⟨_, .pendsv (h.mode.trans mode) ?_, h.pendsv hw mode pending⟩
    rw [h.kernel]
    exact pending
  | leave mode thread =>
    refine ⟨_, .leave (h.mode.trans mode) ?_, h.leave mode⟩
    rw [h.kernel]
    exact thread

end Simulation

section Boot

variable (mem : ℕ → ℕ) (objs : ℕ → TaskObject) (stack : ℕ → ℕ)

lemma boot_launched (hw : Wired B c lo hi) (stkalign : Bool) (cpu : Cpu) :
    Launched B (bottom B 1) B.baseTaskEntry 0 (saved stkalign (bottom B 1)
      ((bootState B mem objs stack).pspArray 0) cpu (bootState B mem objs stack).stack) := by
  have hbase : bottom B 1 = B.procHeapAddr + 4 * B.taskStackSize := by rw [bottom, mul_one]
  have hend : B.procHeapAddr + 4 * B.taskStackSize ≤ 4294967296 := by
    rw [← hbase]
    exact (bottom_lt (k := 0) hw B.maxTaskCount_pos).le
  have hpsp : (bootState B mem objs stack).pspArray = update (beforeBase B mem objs stack).pspArray 0
      (TaskServices.initialPsp B B.procHeapAddr) := rfl
  have hfunc : ((beforeBase B mem objs stack).objs B.baseTask).ptrFunc = B.baseTaskEntry := by
    rw [beforeBase_eq]
    simp [baseObject]
  have hstack : (bootState B mem objs stack).stack = TaskServices.archTaskStackInit B
      (TaskServices.clearStack B (beforeBase B mem objs stack).stack B.procHeapAddr) B.procHeapAddr
      B.baseTaskEntry 0 := by
    rw [← hfunc]
    rfl
  rw [hpsp, update_self, hstack, hbase]
  exact launched hw.size hend _ _ _ _

lemma initial_refines (hw : Wired B c lo hi) {mpu : Mpu} (hmpu : mpu.mputype ≠ 0) (stkalign : Bool)
    (cpu : Cpu) :
    ∃ x, Launched B (bottom B 1) B.baseTaskEntry 0 x ∧
      Refines B stkalign c (initial B c mpu cpu mem objs stack)
        ⟨shown (bootState B mem objs stack), fun _ => x, .main⟩ := by
  have hx := boot_launched mem objs stack hw stkalign cpu
  have hlive : ∀ k, Live B (bootState B mem objs stack) k → k = 0 := by
    obtain ⟨objs', stack', hboot⟩ := bootState_eq B mem objs stack
    rw [hboot]
    exact fun k => (booted_live B mem objs' stack' k).mp
  have hheap : (bootState B mem objs stack).pstackAddr = B.procHeapAddr := by
    obtain ⟨objs', stack', hboot⟩ := bootState_eq B mem objs stack
    rw [hboot]
    rfl
  refine ⟨_, hx, rfl, rfl, boot_consistent B mem objs stack, hheap, B.maxTaskCount_pos,
    fun _ => ⟨rfl, hx.fp, hx.psp⟩, Access.init_mapped hw hmpu, fun k hk => ?_, fun k hk _ => ?_,
    fun ht => ?_, fun hh => ?_⟩
  · rcases hk with hk | ⟨hmain, -⟩
    · obtain rfl := hlive k hk
      exact launched_fit hw hx
    · exact absurd rfl hmain
  · obtain rfl := hlive k hk
    rfl
  · cases ht
  · cases hh

end Boot

lemma run_refines (hw : Wired B c lo hi) {mpu : Mpu} (hmpu : mpu.mputype ≠ 0) {cpu : Cpu}
    {mem : ℕ → ℕ} {objs : ℕ → TaskObject} {ls : List Label}
    (h : Run (Exceptions.Step B stkalign c) (initial B c mpu cpu mem objs stack) ls m) :
    ∃ x a, Launched B (bottom B 1) B.baseTaskEntry 0 x ∧ Run (Contexts.Step B)
      ⟨shown (bootState B mem objs stack), fun _ => x, .main⟩ ls a ∧ Refines B stkalign c m a := by
  obtain ⟨x, hx, hinit⟩ := initial_refines mem objs stack hw hmpu stkalign cpu
  have hstep : ∀ m a l n, Refines B stkalign c m a → Exceptions.Step B stkalign c m l n →
      ∃ b, Contexts.Step B a l b ∧ Refines B stkalign c n b := fun _ _ _ _ hr hs => hr.step hw hs
  obtain ⟨a, ha, hr⟩ := Run.simulated hstep hinit h
  exact ⟨x, a, hx, ha, hr⟩

end Skibios.Switching.Transparency
