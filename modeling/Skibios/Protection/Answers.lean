import Skibios.Protection.Requests

/-! Every request is answered to its caller before the next one is taken. -/

namespace Skibios.Protection.Answers

open Function Library.Words Library.Runs
open Kernel State TaskServices Services Events Effects
open Tasks Invariants
open Sharing.Threads (System Pc Outcome isException move_outcome)
open Sharing.WakeUp (Kept Locking target)
open Invocation Bystanders Requests

variable {B : Build} {mutexes : List ℕ} {c d : Desk} {a : Sharing.Threads.Action} {t : KernelState}
variable {k m args : ℕ}

def failed : Pc → Option ℕ
  | .readWord m _ | .compare _ m _ _ | .promote m _ => some m
  | .app | .attempt .. | .yield .. | .unlockTest _ => none

lemma failed_target {p : Pc} (h : failed p = some m) : target p = some m := by
  cases p with
  | readWord | compare | promote => exact h
  | app | attempt | yield | unlockTest => cases h

def Fetched (b : BaseTask) (id args : ℕ) : Prop :=
  match b.pc with
  | .test | .fetch => True
  | .fetchArgs => b.taskId = id
  | .readCode | .checkCode | .grant | .release | .halted => b.taskId = id ∧ b.args = args

structure Idle (B : Build) (c : Desk) : Prop where
  resting : Resting B c.kernel
  request : c.request = none
  pc : c.base.pc = .test

structure Busy (B : Build) (c : Desk) (k args : ℕ) : Prop where
  asked : Asked B c.kernel k args
  request : c.request = some (k, args)
  calling : c.calling k = true
  fetched : Fetched c.base (c.kernel.taskId k) args

structure Settled (B : Build) (mutexes : List ℕ) (c : Desk) : Prop where
  kept : Kept B c.kernel
  word : c.kernel.mem B.baseMutex = 1
  upright : Upright c.kernel
  callers : ∀ k, c.calling k = true → Live B c.kernel k ∧ k ≠ 0
  answered : ∀ k, c.calling k = true → (∀ args, c.request ≠ some (k, args)) →
    c.computed k = some (c.kernel.hibValue k)
  named : ∀ m ∈ mutexes, Named c.kernel m
  targets : ∀ k m, target (c.sys.pc k) = some m → m ∈ mutexes
  failures : ∀ k m, failed (c.sys.pc k) = some m → c.kernel.mem m >>> 16 ≠ 0
  phase : Idle B c ∨ ∃ k args, Busy B c k args

structure Aside (B : Build) (mutexes : List ℕ) (c : Desk) (t : KernelState) : Prop where
  kept : Kept B t
  live : ∀ k, Live B c.kernel k → Live B t k
  word : t.mem B.baseMutex = c.kernel.mem B.baseMutex
  upright : Upright t
  words : ∀ m ∈ mutexes, (Named c.kernel m → Named t m) ∧
    (c.kernel.mem m >>> 16 ≠ 0 → t.mem m >>> 16 ≠ 0)
  answers : ∀ k, c.calling k = true → t.hibValue k = c.kernel.hibValue k
  invocation : t.invocatedTask = c.kernel.invocatedTask ∧ t.invocatedArgs = c.kernel.invocatedArgs
  resting : Resting B c.kernel → Resting B t

lemma Aside.refl (h : Settled B mutexes c) : Aside B mutexes c c.kernel :=
  ⟨h.kept, fun _ hk => hk, rfl, h.upright, fun _ _ => ⟨id, id⟩, fun _ _ => rfl, ⟨rfl, rfl⟩, id⟩

lemma Aside.of_effect (h : Settled B mutexes c) (hB : B.baseMutex ∉ mutexes) {e : Event}
    (hok : Foreign B mutexes c.kernel e)
    (hcall : isException e = true ∨ c.calling c.running = false) (he : Effect B c.kernel e t) :
    Aside B mutexes c t := by
  have hs := h.kept.consistent
  obtain ⟨hkept, hlive⟩ := h.kept.step hok.1 hok.2.1 he
  refine ⟨hkept, hlive, hok.baseMutex hB he, h.upright.step hs hok he,
    fun m hm => hok.words h.kept he hm, ?_, hok.invocation he, ?_⟩
  · intro k hk
    apply hok.hibValue he
    refine hcall.imp_right fun hnot => ?_
    rintro rfl
    exact Bool.noConfusion (hk.symm.trans hnot)
  · intro hr
    refine ⟨(hok.invocation he).1.trans hr.invocated, (hok.prio hs he).trans hr.prio, ?_⟩
    exact fun k hk hw => hr.waiters k hk (hok.waiters hB hs he hk hw)

lemma Settled.keep (h : Settled B mutexes c) (ha : Aside B mutexes c d.kernel)
    (hcall : ∀ k, d.calling k = true → c.calling k = true) (hr : d.request = c.request)
    (hc : d.computed = c.computed) (ht : ∀ k m, target (d.sys.pc k) = some m → m ∈ mutexes)
    (hf : ∀ k m, failed (d.sys.pc k) = some m → d.kernel.mem m >>> 16 ≠ 0)
    (hp : Idle B d ∨ ∃ k args, Busy B d k args) : Settled B mutexes d := by
  refine ⟨ha.kept, ha.word.trans h.word, ha.upright, ?_, ?_, ?_, ht, hf, hp⟩
  · intro k hk
    obtain ⟨hlive, h0⟩ := h.callers k (hcall k hk)
    exact ⟨ha.live k hlive, h0⟩
  · intro k hk hne
    rw [hr] at hne
    rw [hc, ha.answers k (hcall k hk)]
    exact h.answered k (hcall k hk) hne
  · exact fun m hm => (ha.words m hm).1 (h.named m hm)

lemma Aside.protocol (ha : Aside B mutexes c d.kernel) (hr : d.request = c.request)
    {b : Action} (hb : b ≠ .readStatus)
    (hp : c.kernel.firstStart = true → d.kernel.permissions = c.kernel.permissions) :
    Protocol c b d := by
  refine ⟨fun k args hk => Or.inl ⟨hr.trans hk, ha.invocation⟩, fun h => (hb h).elim, ?_⟩
  exact fun hf => Or.inl (hp hf)

lemma update_places {f : Pc → Option ℕ} {P : ℕ → Prop} {pc : ℕ → Pc} {i : ℕ} {p : Pc}
    (h : ∀ k m, f (pc k) = some m → P m) (hp : ∀ m, f p = some m → P m) :
    ∀ k m, f (update pc i p k) = some m → P m := by
  intro k m hk
  rcases eq_or_ne k i with rfl | hne
  · rw [update_self] at hk
    exact hp m hk
  · rw [update_of_ne hne] at hk
    exact h k m hk

lemma after_places {f : Pc → Option ℕ} {P : ℕ → Prop} {s : System} {e : Event}
    (h : ∀ k m, f (s.pc k) = some m → P m) (hp : ∀ m, f .app = some m → P m) :
    ∀ k m, f ((s.after B e t).pc k) = some m → P m := by
  intro k m hk
  rcases System.after_pc s e t k with hpc | hpc
  · exact h k m (hpc ▸ hk)
  · exact hp m (hpc ▸ hk)

section Tasks

variable {sys : System} (h : Settled B mutexes c) (ho : Outcome B c.sys a sys)
include h ho

lemma Settled.targets_step (hl : Locking B mutexes c.sys a) :
    ∀ k m, target (sys.pc k) = some m → m ∈ mutexes := by
  have hmem : ∀ {p m}, c.sys.pc c.running = p → target p = some m → m ∈ mutexes := by
    rintro p m rfl hp
    exact h.targets _ m hp
  cases ho with
  | event => exact after_places h.targets nofun
  | @lock m retry =>
    apply update_places h.targets
    intro n hn
    split at hn
    · cases hn
    · cases hn
      exact hl
  | unlock =>
    apply update_places h.targets
    rintro n ⟨⟩
    exact hl
  | locked | unlocked => exact update_places h.targets nofun
  | failed _ hpc | wordRead _ hpc | promoted _ hpc =>
    apply update_places h.targets
    rintro n ⟨⟩
    exact hmem hpc rfl
  | @compared m index left test _ hpc =>
    apply update_places h.targets
    intro n hn
    rcases test.next_cases c.kernel m index left with hnext | hnext | hnext | ⟨after, hnext⟩
    all_goals
      change target (test.next c.kernel m index left) = some n at hn
      rw [hnext] at hn
      cases hn
      exact hmem hpc rfl
  | yielded _ hpc hnext =>
    apply update_places h.targets
    intro n hn
    rcases hnext with rfl | ⟨l, rfl⟩
    · cases hn
    · cases hn
      exact hmem hpc rfl

lemma Settled.failures_step (ha : Aside B mutexes c sys.kernel) :
    ∀ k m, failed (sys.pc k) = some m → sys.kernel.mem m >>> 16 ≠ 0 := by
  have hold : ∀ k m, failed (c.sys.pc k) = some m → sys.kernel.mem m >>> 16 ≠ 0 := fun k m hk =>
    (ha.words m (h.targets k m (failed_target hk))).2 (h.failures k m hk)
  have hread : ∀ {p m}, c.sys.pc c.running = p → failed p = some m → sys.kernel.mem m >>> 16 ≠ 0 := by
    rintro p m rfl hp
    exact hold _ m hp
  cases ho with
  | event => exact after_places hold nofun
  | lock =>
    apply update_places hold
    intro n hn
    split at hn <;> cases hn
  | failed _ hpc htaken =>
    apply update_places hold
    rintro n ⟨⟩
    have hm := h.targets _ _ (congrArg target hpc)
    apply (ha.words _ hm).2
    apply (h.named _ hm).resolve_left
    intro hzero
    apply htaken
    change c.kernel.mem _ % 256 = 0
    rw [hzero]
  | wordRead _ hpc =>
    apply update_places hold
    rintro n ⟨⟩
    exact hread hpc rfl
  | @compared m index left test _ hpc =>
    apply update_places hold
    intro n hn
    change failed (test.next c.kernel m index left) = some n at hn
    rcases test.next_cases c.kernel m index left with hnext | hnext | hnext | ⟨after, hnext⟩
    all_goals
      rw [hnext] at hn
      cases hn
    · exact hread hpc rfl
    · exact hread hpc rfl
  | yielded _ _ hnext =>
    apply update_places hold
    intro n hn
    rcases hnext with rfl | ⟨l, rfl⟩ <;> cases hn
  | unlock | locked | promoted | unlocked => exact update_places hold nofun

lemma Settled.foreign (hfree : c.Free a) (hp : Playing B mutexes c (.task a)) :
    sys.kernel = c.kernel ∨ ∃ e, Foreign B mutexes c.kernel e ∧ Effect B c.kernel e sys.kernel ∧
      (isException e = true ∨ c.calling c.running = false) := by
  obtain ⟨hl, hx⟩ := hp
  have hmem : ∀ {p m}, c.sys.pc c.running = p → target p = some m → m ∈ mutexes := by
    rintro p m rfl hp
    exact h.targets _ m hp
  cases ho with
  | @event e t hstep =>
    rw [System.after_kernel]
    refine Or.inr ⟨e, ?_, step_effect hstep, hfree.imp_right And.left⟩
    cases e with
    | createTask | startScheduler => exact ⟨hl, trivial, trivial⟩
    | store => exact ⟨trivial, trivial, hl, hx⟩
    | hibernate => exact ⟨trivial, trivial, hx⟩
    | grantPermission =>
      rcases hfree with hexc | hfree
      · cases hexc
      · exact ⟨trivial, trivial, hfree.2⟩
    | handOver | fillTask | tick | scheduler | contextSwitch => exact ⟨trivial, trivial, trivial⟩
    | _ => exact hl.elim
  | lock | wordRead | compared => exact Or.inl rfl
  | @unlock m t hstep =>
    have hok : Foreign B mutexes c.kernel (.clearMutex m) := ⟨trivial, trivial, hfree.2, hl⟩
    exact Or.inr ⟨_, hok, step_effect hstep, Or.inr hfree.1⟩
  | @locked m _ _ hstep hpc | @failed m _ _ hstep hpc =>
    have hok : Foreign B mutexes c.kernel (.mutexLock m) :=
      ⟨trivial, trivial, hfree.2, hmem hpc rfl⟩
    exact Or.inr ⟨_, hok, step_effect hstep, Or.inr hfree.1⟩
  | @promoted m _ _ hstep hpc =>
    have hok : Foreign B mutexes c.kernel (.promote m) :=
      ⟨trivial, trivial, hfree.2, hmem hpc rfl, h.failures _ _ (congrArg failed hpc)⟩
    exact Or.inr ⟨_, hok, step_effect hstep, Or.inr hfree.1⟩
  | yielded hstep =>
    have hok : Foreign B mutexes c.kernel .handOver := ⟨trivial, trivial, trivial⟩
    exact Or.inr ⟨_, hok, step_effect hstep, Or.inr hfree.1⟩
  | @unlocked m _ hstep =>
    have hok : Foreign B mutexes c.kernel (.unlockTest m) := ⟨trivial, trivial, hfree.2⟩
    exact Or.inr ⟨_, hok, step_effect hstep, Or.inr hfree.1⟩

end Tasks

lemma Busy.exception (h : Busy B c k args) (hfree : c.Free a) : ∃ e, a = .event e ∧ isException e = true := by
  have hnot : ¬ (c.calling c.running = false ∧ (c.running ≠ 0 ∨ c.kernel.firstStart = false)) := by
    rintro ⟨hcall, hrun⟩
    have hwaits : c.running = k → False := by
      rintro rfl
      exact Bool.noConfusion (h.calling.symm.trans hcall)
    cases h.asked.stage with
    | handedIn _ hcur => exact hwaits hcur
    | picked _ hcur => exact hwaits hcur
    | served _ hcur =>
      rcases hrun with hne | hfirst
      · exact hne hcur
      · exact Bool.noConfusion (h.asked.first.symm.trans hfirst)
  cases a with
  | event e => exact ⟨e, rfl, hfree.resolve_right hnot⟩
  | lock | unlock | advance => exact (hnot ⟨hfree.1, Or.inl hfree.2⟩).elim

lemma Busy.effect (h : Busy B c k args) (hs : Consistent B c.kernel) {e : Event}
    (hexc : isException e = true) (he : Effect B c.kernel e t) : Asked B t k args := by
  cases he with
  | ticked hth htimer =>
    rw [(h.asked.serving hth).2] at htimer
    cases htimer
  | scheduled hpending hq hsch =>
    cases h.asked.stage with
    | handedIn _ hcur hbase => exact h.asked.scheduled hs hbase hcur hq hsch
    | picked hswitch =>
      rw [hq] at hswitch
      cases hswitch
    | served hth =>
      rw [hth.1] at hpending
      cases hpending
  | switched hq => exact h.asked.switched hs hq
  | _ => cases hexc

lemma Settled.task {sys : System} (h : Settled B mutexes c) (hB : B.baseMutex ∉ mutexes)
    (hfree : c.Free a) (hp : Playing B mutexes c (.task a)) (ho : Outcome B c.sys a sys) :
    Settled B mutexes { c with sys := sys } ∧ Protocol c (.task a) { c with sys := sys } := by
  obtain ⟨ha, hperm⟩ : Aside B mutexes c sys.kernel ∧
      (c.kernel.firstStart = true → sys.kernel.permissions = c.kernel.permissions) := by
    rcases h.foreign ho hfree hp with heq | ⟨e, hok, he, hcall⟩
    · rw [heq]
      exact ⟨.refl h, fun _ => rfl⟩
    · exact ⟨.of_effect h hB hok hcall he, hok.permissions he⟩
  refine ⟨?_, ha.protocol (d := { c with sys := sys }) rfl nofun hperm⟩
  refine h.keep ha (fun _ hk => hk) rfl rfl (h.targets_step ho hp.1) (h.failures_step ho ha) ?_
  rcases h.phase with hi | ⟨k, args, hb⟩
  · exact Or.inl ⟨ha.resting hi.resting, hi.request, hi.pc⟩
  · obtain ⟨e, rfl, hexc⟩ := hb.exception hfree
    have hasked : Asked B sys.kernel k args := by
      cases ho with
      | event hstep =>
        rw [System.after_kernel]
        exact hb.effect h.kept.consistent hexc (step_effect hstep)
    refine Or.inr ⟨k, args, hasked, hb.request, hb.calling, ?_⟩
    have hid : sys.kernel.taskId k = c.kernel.taskId k := by
      rw [← hasked.invocated, ha.invocation.1, hb.asked.invocated]
    change Fetched c.base (sys.kernel.taskId k) args
    rw [hid]
    exact hb.fetched

lemma Settled.baseRun (h : Settled B mutexes c) (hth : InThread c.kernel)
    (hf : c.kernel.firstStart = true) (h0 : c.running ≠ 0)
    (hx : Exclusive B c.kernel) {r : ℕ × KernelState}
    (hr : svc B c.kernel svcInvokeBase args 0 0 0 = some r) :
    Settled B mutexes (c.handIn r.2 r.1 args) ∧ Protocol c (.baseRun args) (c.handIn r.2 r.1 args) := by
  have hs := h.kept.consistent
  have hslot : c.kernel.mem B.baseMutex >>> 16 = 0 := by
    rw [h.word]
    rfl
  have hN := B.maxTaskCount_pos
  have hcur : ¬ c.kernel.currentTask = 0 := h0
  rw [svc_invokeBase, if_neg hcur, hslot, if_neg (not_le.mpr hN)] at hr
  obtain rfl := Option.some.inj hr
  obtain hi : Idle B c := by
    rcases h.phase with hi | ⟨k, args, hb⟩
    · exact hi
    · exact (h0 (hb.asked.serving hth).1).elim
  have he : Effect B c.kernel (.invokeBase args)
      (promoteSlot (invokeState c.kernel args) B.baseMutex 0) := by
    rw [← hslot]
    exact .invoked hth h0 (hslot.trans_lt hN)
  obtain ⟨hkept, hlive⟩ := h.kept.step (e := .invokeBase args) trivial trivial he
  have hasked := hi.resting.invoke hs hth h.upright h0 hf hx args
  have hupright : Upright (invokeState c.kernel args) := h.upright
  refine ⟨⟨hkept, h.word, hupright.promote h0 _ _, ?_, ?_, h.named, h.targets, h.failures, ?_⟩, ?_⟩
  · intro k hk
    change update c.calling c.running true k = true at hk
    rcases eq_or_ne k c.running with rfl | hne
    · exact ⟨hasked.caller.1, h0⟩
    · rw [update_of_ne hne] at hk
      obtain ⟨hk, hk0⟩ := h.callers k hk
      exact ⟨hlive k hk, hk0⟩
  · intro k hk hother
    have hne : k ≠ c.running := by
      rintro rfl
      exact hother args rfl
    change update c.calling c.running true k = true at hk
    change update c.computed c.running none k = some (c.kernel.hibValue k)
    rw [update_of_ne hne] at hk ⊢
    apply h.answered k hk
    rw [hi.request]
    exact nofun
  · refine Or.inr ⟨c.running, args, hasked, rfl, ?_, ?_⟩
    · exact update_self c.running true c.calling
    · change Fetched c.base _ args
      rw [Fetched, hi.pc]
      trivial
  · refine ⟨fun k args hk => ?_, nofun, fun _ => Or.inl rfl⟩
    rw [hi.request] at hk
    cases hk

lemma Settled.readStatus (h : Settled B mutexes c) (hth : InThread c.kernel)
    (hcall : c.calling c.running = true) :
    Settled B mutexes { c with calling := update c.calling c.running false } ∧
      Protocol c .readStatus { c with calling := update c.calling c.running false } := by
  have hi : Idle B c := by
    rcases h.phase with hi | ⟨k, args, hb⟩
    · exact hi
    · exact ((h.callers _ hcall).2 (hb.asked.serving hth).1).elim
  constructor
  · refine h.keep (.refl h) ?_ rfl rfl h.targets h.failures (Or.inl ⟨hi.resting, hi.request, hi.pc⟩)
    intro k hk
    change update c.calling c.running false k = true at hk
    rcases eq_or_ne k c.running with rfl | hne
    · exact hcall
    · rwa [update_of_ne hne] at hk
  · refine ⟨fun k args hk => Or.inl ⟨hk, rfl, rfl⟩, fun _ => ?_, fun _ => Or.inl rfl⟩
    apply h.answered _ hcall
    rw [hi.request]
    exact nofun

section Base

variable (h : Settled B mutexes c) (hb : Busy B c k args)
include h hb

lemma Settled.read {b : BaseTask} (hf : Fetched b (c.kernel.taskId k) args) :
    Settled B mutexes { c with base := b } ∧ Protocol c .base { c with base := b } := by
  constructor
  · refine h.keep (.refl h) (fun _ hk => hk) rfl rfl h.targets h.failures ?_
    exact Or.inr ⟨k, args, hb.asked, hb.request, hb.calling, hf⟩
  · exact ⟨fun k args hk => Or.inl ⟨hk, rfl, rfl⟩, nofun, fun _ => Or.inl rfl⟩

lemma Settled.grant (hth : InThread c.kernel) (hpc : c.base.pc = .grant) {r : ℕ × KernelState}
    (hr : svc B c.kernel svcGrantPermission c.base.taskId c.base.accessCode 0 0 = some r) :
    Settled B mutexes { c.withKernel r.2 with base := { c.base with pc := .release, error := r.1 } } ∧
      Protocol c .base
        { c.withKernel r.2 with base := { c.base with pc := .release, error := r.1 } } := by
  have h0 := (hb.asked.serving hth).1
  have hfetched := hb.fetched
  rw [Fetched, hpc] at hfetched
  obtain ⟨hid, hargs⟩ := hfetched
  have hslot := hb.asked.slotOf_caller h.kept
  have hk := hb.asked.caller.1.1
  rw [svc_grantPermission, if_neg (not_not.mpr h0), hid, hslot, if_neg hk.ne] at hr
  obtain rfl := Option.some.inj hr
  have he : Effect B c.kernel (.grantPermission c.base.taskId c.base.accessCode)
      (grantState c.kernel k c.base.accessCode) := by
    have hfound : slotOf B c.kernel c.base.taskId = k := by rw [hid, hslot]
    rw [← hfound]
    exact .granted hth h0 (hfound.trans_lt hk)
  obtain ⟨hkept, -⟩ :=
    h.kept.step (e := .grantPermission c.base.taskId c.base.accessCode) trivial trivial he
  have ha : Aside B mutexes c (grantState c.kernel k c.base.accessCode) :=
    ⟨hkept, fun _ hk => hk, rfl, h.upright, fun _ _ => ⟨id, id⟩, fun _ _ => rfl, ⟨rfl, rfl⟩,
      fun hr => ⟨hr.invocated, hr.prio, hr.waiters⟩⟩
  constructor
  · refine h.keep ha (fun _ hk => hk) rfl rfl h.targets h.failures ?_
    exact Or.inr ⟨k, args, hb.asked.granted _ _, hb.request, hb.calling, ⟨hid, hargs⟩⟩
  · refine ⟨fun k args hk => Or.inl ⟨hk, rfl, rfl⟩, nofun, fun _ => Or.inr ?_⟩
    exact ⟨k, args, rfl, hpc, hb.request, hid, hargs, rfl⟩

lemma Settled.release (hth : InThread c.kernel) (hpc : c.base.pc = .release) {r : ℕ × KernelState}
    (hr : svc B c.kernel svcReleaseBase (uint8 c.base.error) 0 0 0 = some r) :
    Settled B mutexes (c.handOut r.2 r.1) ∧ Protocol c .base (c.handOut r.2 r.1) := by
  have hs := h.kept.consistent
  have h0 := (hb.asked.serving hth).1
  have hfetched := hb.fetched
  rw [Fetched, hpc] at hfetched
  obtain ⟨hid, hargs⟩ := hfetched
  have hk := hb.asked.caller.1.1
  have hslot : slotOf B c.kernel c.kernel.invocatedTask = k := by
    rw [hb.asked.invocated]
    exact hb.asked.slotOf_caller h.kept
  rw [svc_releaseBase, if_neg (not_not.mpr h0), hslot, if_neg hk.ne] at hr
  obtain rfl := Option.some.inj hr
  set t := handOverState (demoteCurrent B (answerState c.kernel k (uint8 c.base.error))) with ht
  have he : Effect B c.kernel (.releaseBase (uint8 c.base.error)) t := by
    rw [ht, ← hslot]
    exact .released hth h0 (hslot.trans_lt hk)
  obtain ⟨hkept, hlive⟩ :=
    h.kept.step (e := .releaseBase (uint8 c.base.error)) trivial trivial he
  have hmem : t.mem = c.kernel.mem := by dsimp only [t, handOverState, demoteCurrent, answerState]
  have hvalue : t.hibValue = update c.kernel.hibValue k (uint8 c.base.error) := by
    dsimp only [t, handOverState, demoteCurrent, answerState]
  have hupright : Upright (answerState c.kernel k (uint8 c.base.error)) := h.upright
  have hrequest : (c.handOut t errorNone).request = none := by
    change (if errorNone = errorNone then none else c.request) = none
    rw [if_pos rfl]
  have hcomputed : (c.handOut t errorNone).computed =
      update c.computed k (some (uint8 c.base.error)) := by
    change (if errorNone = errorNone then c.answer (uint8 c.base.error) else c.computed) = _
    rw [if_pos rfl, Desk.answer, hb.request]
  constructor
  · refine ⟨hkept, ?_, hupright.demote.handOver, ?_, ?_, ?_, h.targets, ?_, ?_⟩
    · change t.mem B.baseMutex = 1
      rw [hmem]
      exact h.word
    · intro j hj
      obtain ⟨hj, hj0⟩ := h.callers j hj
      exact ⟨hlive j hj, hj0⟩
    · intro j hj _
      change _ = some (t.hibValue j)
      rw [hcomputed, hvalue]
      rcases eq_or_ne j k with rfl | hne
      · rw [update_self, update_self]
      · rw [update_of_ne hne, update_of_ne hne]
        apply h.answered j hj
        rw [hb.request]
        rintro args' heq
        obtain ⟨rfl, -⟩ := Prod.mk.inj (Option.some.inj heq)
        exact hne rfl
    · intro m hm
      change t.mem m = 0 ∨ t.mem m >>> 16 ≠ 0
      rw [hmem]
      exact h.named m hm
    · intro j m hj
      change t.mem m >>> 16 ≠ 0
      rw [hmem]
      exact h.failures j m hj
    · exact Or.inl ⟨hb.asked.release hs hth _ _, hrequest, rfl⟩
  · refine ⟨fun j args' hj => Or.inr ?_, nofun, fun _ => Or.inl ?_⟩
    · rw [hb.request] at hj
      obtain ⟨rfl, rfl⟩ := Prod.mk.inj (Option.some.inj hj)
      refine ⟨rfl, hpc, hrequest, hid, hargs, ?_⟩
      rw [hcomputed, update_self]
    · change t.permissions = _
      dsimp only [t, handOverState, demoteCurrent, answerState]

lemma Settled.busy_turn (hth : InThread c.kernel) (ht : c.turn B = some d) :
    Settled B mutexes d ∧ Protocol c .base d := by
  have hne : c.kernel.invocatedTask ≠ 0 := by
    rw [hb.asked.invocated]
    exact (h.kept.consistent.ids k hb.asked.caller.1.1).mpr hb.asked.caller.1.2
  have hfetched := hb.fetched
  rw [Desk.turn] at ht
  cases hpc : c.base.pc with
  | test =>
    rw [hpc] at ht
    obtain rfl := Option.some.inj ht
    apply h.read hb
    rw [Fetched, if_pos hne]
    trivial
  | fetch =>
    rw [hpc] at ht
    obtain rfl := Option.some.inj ht
    apply h.read hb
    rw [if_neg hne]
    exact hb.asked.invocated
  | fetchArgs =>
    rw [hpc] at ht
    obtain rfl := Option.some.inj ht
    rw [Fetched, hpc] at hfetched
    apply h.read hb
    exact ⟨hfetched, hb.asked.arguments⟩
  | readCode =>
    rw [hpc] at ht
    obtain rfl := Option.some.inj ht
    rw [Fetched, hpc] at hfetched
    apply h.read hb
    exact hfetched
  | checkCode =>
    rw [hpc] at ht
    obtain rfl := Option.some.inj ht
    rw [Fetched, hpc] at hfetched
    apply h.read hb
    rw [Fetched]
    split_ifs <;> exact hfetched
  | grant =>
    rw [hpc] at ht
    obtain ⟨r, hr, rfl⟩ := Option.map_eq_some_iff.mp ht
    exact h.grant hb hth hpc hr
  | release =>
    rw [hpc] at ht
    obtain ⟨r, hr, rfl⟩ := Option.map_eq_some_iff.mp ht
    exact h.release hb hth hpc hr
  | halted =>
    rw [hpc] at ht
    cases ht

end Base

lemma Settled.idle_turn (h : Settled B mutexes c) (hi : Idle B c) (ht : c.turn B = some d) :
    Settled B mutexes d ∧ Protocol c .base d := by
  rw [Desk.turn, hi.pc] at ht
  obtain rfl := Option.some.inj ht
  constructor
  · refine h.keep (.refl h) (fun _ hk => hk) rfl rfl h.targets h.failures (Or.inl ?_)
    exact ⟨hi.resting, hi.request, if_neg (not_not.mpr hi.resting.invocated)⟩
  · exact ⟨fun k args hk => Or.inl ⟨hk, rfl, rfl⟩, nofun, fun _ => Or.inl rfl⟩

lemma Settled.step {b : Action} (h : Settled B mutexes c) (hB : B.baseMutex ∉ mutexes)
    (hm : Admitted B (Fair B mutexes) c b d) : Settled B mutexes d ∧ Protocol c b d := by
  obtain ⟨⟨hplay, hfair⟩, fuel, hm⟩ := hm
  cases b with
  | task a =>
    simp only [Desk.move] at hm
    split_ifs at hm with hfree
    obtain ⟨sys, hsys, rfl⟩ := Option.map_eq_some_iff.mp hm
    exact h.task hB hfree hplay (move_outcome ⟨fuel, hsys⟩)
  | baseRun args =>
    simp only [Desk.move] at hm
    split_ifs at hm with hguard
    obtain ⟨hth, hf, h0, -, -⟩ := hguard
    obtain ⟨r, hr, rfl⟩ := Option.map_eq_some_iff.mp hm
    exact h.baseRun hth hf h0 hfair hr
  | readStatus =>
    simp only [Desk.move] at hm
    split_ifs at hm with hguard
    obtain rfl := Option.some.inj hm
    exact h.readStatus hguard.1 hguard.2
  | base =>
    simp only [Desk.move] at hm
    split_ifs at hm with hguard
    rcases h.phase with hi | ⟨k, args, hb⟩
    · exact h.idle_turn hi hm
    · exact h.busy_turn hb hguard.1 hm

lemma Settled.quiet (h : Settled B mutexes c) : Quiet B c.kernel := by
  rcases h.phase with hi | ⟨k, args, hb⟩
  · exact hi.resting.quiet
  · intro hzero
    rw [hb.asked.invocated] at hzero
    exact absurd hzero ((h.kept.consistent.ids k hb.asked.caller.1.1).mpr hb.asked.caller.1.2)

variable {mem : ℕ → ℕ} {objs : ℕ → TaskObject} {stack : ℕ → ℕ} {as : List Action}

lemma Settled.booted (hm : ∀ m ∈ mutexes, (bootState B mem objs stack).mem m = 0) :
    Settled B mutexes (initial (bootState B mem objs stack)) := by
  obtain ⟨objs', stack', hb⟩ := bootState_eq B mem objs stack
  rw [hb] at hm ⊢
  have hkept : Kept B (Events.booted B mem objs' stack') := by
    refine ⟨booted_consistent B mem objs' stack', ?_, rfl⟩
    intro k hk
    obtain rfl := (booted_live B mem objs' stack' k).mp hk
    change 1 >>> 16 = 0
    decide
  refine ⟨hkept, ?_, Or.inl ?_, nofun, nofun, fun m hmem => Or.inl (hm m hmem), nofun, nofun,
    Or.inl ⟨⟨rfl, rfl, ?_⟩, rfl, rfl⟩⟩
  · exact update_self B.baseMutex 1 mem
  · change update (fun _ => TaskState.idle) 0 .sleep 0 = .sleep
    rw [update_self]
  · rintro k - ⟨hstate, -⟩
    change update (fun _ => TaskState.idle) 0 .sleep k = .hold at hstate
    rcases eq_or_ne k 0 with rfl | hk
    · rw [update_self] at hstate
      cases hstate
    · rw [update_of_ne hk] at hstate
      cases hstate

section Instances

def sixSlots : Build := Build.six

def newTask (p priority : ℕ) : List Action :=
  [.task (.event (.fillTask p ⟨0, 0, priority, 0, 0, 0, 0, 0⟩)), .task (.event (.createTask p 0))]

def dispatch : List Action := [.task (.event .scheduler), .task (.event .contextSwitch)]

def preempt : List Action := [.task (.event .tick), .task (.event .contextSwitch)]

def hibernate (op1 op2 : ℕ) : List Action := .task (.event (.hibernate 2 op1 op2 1)) :: dispatch

def start : Desk :=
  initial (bootState sixSlots (fun _ => 0) (fun _ => ⟨0, 0, 1, 0, 0, 0, 0, 0⟩) (fun _ => 0))

def request : List Action :=
  newTask 10 1 ++ [.task (.event .startScheduler)] ++ dispatch ++
    [.task (.event (.store 55 7)), .baseRun 55] ++ dispatch

def service : List Action := List.replicate 7 .base ++ dispatch

def answered : Desk := reached sixSlots 40 (Fair sixSlots [200]) start (request ++ service)

/-- The task of slot 2 (priority 5) hibernates, that of slot 3 (priority 1) locks 200, and the former
wakes, fails and promotes it. -/
def promotion : List Action :=
  newTask 10 1 ++ newTask 11 5 ++ newTask 12 1 ++ newTask 13 1 ++ [.task (.event .startScheduler)] ++
    dispatch ++ hibernate 100 101 ++
    [.task (.lock 200 3), .task .advance, .task (.event (.store 100 1))] ++ preempt ++
    .task (.lock 200 3) :: List.replicate 8 (.task .advance) ++ dispatch

def crossing : List Action :=
  promotion ++ hibernate 102 103 ++ [.baseRun 55] ++ dispatch ++ preempt

def crossed : Desk := reached sixSlots 40 (Playing sixSlots [200]) start crossing

end Instances

end Skibios.Protection.Answers
