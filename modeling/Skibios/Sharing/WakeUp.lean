import Skibios.Sharing.Threads

/-! Whether every task in HOLD on a mutex will be woken by the unlock of a holder. -/

namespace Skibios.Sharing.WakeUp

open Function Library.Words Library.Counting Library.Runs
open Kernel State TaskServices Services Scheduler SchedulerLoops Events Effects
open Tasks Invariants Identity Promotion Rungs Waiters Threads

variable {B : Build} {mutexes : List ℕ} {c d : System} {a : Action} {s t : KernelState} {e : Event}
variable {k m : ℕ}

/-- Tasks that lock and unlock, hibernate, hand over and create tasks; nobody is killed, and no
store goes to a mutex. -/
def Locking (B : Build) (mutexes : List ℕ) (c : System) : Action → Prop
  | .event e =>
    match e with
    | .createTask .. | .startScheduler => Regular B c.kernel e
    | .store a _ => a ∉ mutexes
    | .hibernate .. | .handOver | .grantPermission .. | .fillTask .. | .tick | .scheduler
    | .contextSwitch => True
    | _ => False
  | .lock m _ | .unlock m => m ∈ mutexes
  | .advance => True

/-- When PRIORITY_PROMOTE is issued, the mutex is still locked or its last holder has only just
cleared it, and that holder has no `mutex_stash` entry yet. -/
def Timely (c : System) : Prop :=
  ∀ m left, c.pc c.running = .promote m left →
    (c.kernel.mem m % 256 ≠ 0 ∨ c.pc (c.kernel.mem m >>> 16) = .unlockTest m) ∧
      c.kernel.mutexStash (c.kernel.mem m >>> 16) = 0

/-- Such tasks, with timely promotions only. -/
def Fair (B : Build) (mutexes : List ℕ) (c : System) (a : Action) : Prop :=
  Locking B mutexes c a ∧
    match a with
    | .advance => Timely c
    | _ => True

instance (B : Build) (mutexes : List ℕ) (c : System) (a : Action) :
    Decidable (Locking B mutexes c a) :=
  match a with
  | .event (.createTask p arg) => inferInstanceAs (Decidable (Regular B c.kernel (.createTask p arg)))
  | .event .startScheduler => inferInstanceAs (Decidable (Regular B c.kernel .startScheduler))
  | .event (.store ..) => inferInstanceAs (Decidable (_ ∉ mutexes))
  | .event (.hibernate ..) | .event .handOver | .event (.grantPermission ..)
  | .event (.fillTask ..) | .event .tick | .event .scheduler | .event .contextSwitch
  | .advance => inferInstanceAs (Decidable True)
  | .event (.killTask _) | .event .endTask | .event (.invokeBase _) | .event (.releaseBase _)
  | .event (.promote _) | .event (.mutexLock _) | .event (.clearMutex _)
  | .event (.unlockTest _) => inferInstanceAs (Decidable False)
  | .lock .. | .unlock _ => inferInstanceAs (Decidable (_ ∈ mutexes))

instance (c : System) : Decidable (Timely c) :=
  match h : c.pc c.running with
  | .promote m _ =>
    decidable_of_iff ((c.kernel.mem m % 256 ≠ 0 ∨ c.pc (c.kernel.mem m >>> 16) = .unlockTest m) ∧
      c.kernel.mutexStash (c.kernel.mem m >>> 16) = 0) (by simp [Timely, h])
  | .app | .attempt .. | .readWord .. | .compare .. | .yield .. | .unlockTest _ =>
    isTrue fun _ _ hp => by simp [h] at hp

instance (B : Build) (mutexes : List ℕ) (c : System) (a : Action) : Decidable (Fair B mutexes c a) :=
  match a with
  | .advance => inferInstanceAs (Decidable (_ ∧ Timely c))
  | .event _ | .lock .. | .unlock _ => inferInstanceAs (Decidable (_ ∧ True))

def Woken (B : Build) (c : System) : Prop :=
  ∀ k, Live B c.kernel k → c.kernel.state k = .hold → ∃ j, Live B c.kernel j ∧
    c.holds j (c.kernel.op1 k) = true ∧ c.kernel.mutexStash j = c.kernel.op1 k

def target : Pc → Option ℕ
  | .app => none
  | .attempt m _ | .readWord m _ | .compare _ m _ _ | .promote m _ | .yield m _ | .unlockTest m => some m

structure Served (B : Build) (mutexes : List ℕ) (c : System) : Prop where
  consistent : Consistent B c.kernel
  numbered : Numbered B c.kernel
  total : c.kernel.totalTaskCount = c.kernel.taskCount
  targets : ∀ k m, target (c.pc k) = some m → m ∈ mutexes
  locked : ∀ m ∈ mutexes, c.kernel.mem m % 256 ≠ 0 → c.kernel.mem m >>> 16 < B.maxTaskCount ∧
    c.holds (c.kernel.mem m >>> 16) m = true
  unlocking : ∀ k m, c.pc k = .unlockTest m → c.holds k m = true ∧
    (c.kernel.mem m % 256 ≠ 0 → c.kernel.mem m >>> 16 ≠ k)
  live : ∀ k m, c.holds k m = true → Live B c.kernel k
  entries : ∀ k m, Carries c.kernel m k → k < B.maxTaskCount → c.holds k m = true
  balanced : Balanced B c.kernel

lemma Served.woken (h : Served B mutexes c) : Woken B c := by
  intro k hk hs
  obtain ⟨j, hj, hc⟩ := h.balanced.carrier hk.1 ⟨hs, rfl⟩
  have hheld := h.entries j _ hc hj
  exact ⟨j, h.live j _ hheld, hheld, hc.1⟩

structure Kept (B : Build) (s : KernelState) : Prop where
  consistent : Consistent B s
  numbered : Numbered B s
  total : s.totalTaskCount = s.taskCount

def KillsNobody : Event → Prop
  | .killTask _ | .endTask => False
  | _ => True

lemma effect_ids (he : Effect B s e t) (hk : KillsNobody e) :
    (∃ p arg ptr stash, Creates B s p ptr stash ∧ t = fillSlot B s p arg ptr stash) ∨
      t.taskId = s.taskId ∧ t.totalTaskCount = s.totalTaskCount ∧ t.taskCount = s.taskCount := by
  cases he with
  | created _ h => exact Or.inl ⟨_, _, _, _, h, rfl⟩
  | killed | ended => exact hk.elim
  | ticked _ _ h | scheduled _ _ h =>
    obtain ⟨⟨st, a, c, hframe⟩, -⟩ := h.wakes
    exact Or.inr ⟨by rw [hframe]; rfl, by rw [hframe]; rfl, by rw [hframe]; rfl⟩
  | demoted | released =>
    refine Or.inr ⟨?_, ?_, ?_⟩ <;> dsimp only [handOverState, demoteCurrent, answerState]
  | _ => exact Or.inr ⟨rfl, rfl, rfl⟩

lemma Kept.step (h : Kept B s) (hreg : Regular B s e) (hk : KillsNobody e) (he : Effect B s e t) :
    Kept B t ∧ ∀ k, Live B s k → Live B t k := by
  have hs := h.consistent
  have ht := hs.step hreg he
  have hN := B.maxTaskCount_le
  have hcount : ∀ p ptr stash, Creates B s p ptr stash → s.totalTaskCount < 65535 := by
    intro p ptr stash hc
    have hlt := hc.count
    rw [h.total]
    omega
  have hnum : Numbered B t := by
    refine h.numbered.step hs ht ?_ he
    rintro p arg rfl
    have hle := count_le B.maxTaskCount (fun k => s.state k ≠ .idle)
    rw [h.total, hs.counted]
    omega
  rcases effect_ids he hk with ⟨p, arg, ptr, stash, hc, rfl⟩ | ⟨hid, htotal, hnow⟩
  · refine ⟨⟨ht, hnum, ?_⟩, fun k hk => ⟨hk.1, fun hidle => ?_⟩⟩
    · change uint16 (s.totalTaskCount + 1) = uint16 (s.taskCount + 1)
      rw [h.total]
    · have hid := mt (ht.ids k hk.1).mp (not_not.mpr hidle)
      have hne : k ≠ idleSlot B s := by
        rintro rfl
        exact hk.2 (Table.idleSlot_idle hc.slot)
      rw [not_not, fillSlot_taskId, update_of_ne hne] at hid
      exact (hs.ids k hk.1).mpr hk.2 hid
  · refine ⟨⟨ht, hnum, by rw [htotal, hnow, h.total]⟩, fun k hk => ⟨hk.1, ?_⟩⟩
    rw [← ht.ids k hk.1, hid]
    exact (hs.ids k hk.1).mpr hk.2

/-- A kernel step that touches neither mutexes nor promotions. -/
structure Calm (B : Build) (mutexes : List ℕ) (s t : KernelState) : Prop where
  kept : Kept B t
  live : ∀ k, Live B s k → Live B t k
  words : ∀ m ∈ mutexes, t.mem m = s.mem m
  waiters : SameWaiters B s t

lemma Calm.refl (h : Kept B s) : Calm B mutexes s s :=
  ⟨h, fun _ hk => hk, fun _ _ => rfl, ⟨rfl, fun _ _ => Iff.rfl, fun _ _ _ => rfl⟩⟩

lemma calm_event (h : Kept B c.kernel) (hok : Locking B mutexes c (.event e))
    (he : Effect B c.kernel e t) : Calm B mutexes c.kernel t := by
  have hreg : Regular B c.kernel e := by
    cases e with
    | createTask | startScheduler => exact hok
    | killTask | endTask => exact hok.elim
    | _ => trivial
  have hplain : Plain e := by
    cases e with
    | killTask | endTask | promote | unlockTest | invokeBase | releaseBase => exact hok.elim
    | _ => trivial
  have hkills : KillsNobody e := by
    cases e with
    | killTask | endTask => exact hok.elim
    | _ => trivial
  obtain ⟨hkept, hlive⟩ := h.step hreg hkills he
  refine ⟨hkept, hlive, fun m hm => ?_, effect_waiters h.consistent hreg hplain he⟩
  apply he.mem_eq
  · rintro rfl
    exact hok
  · rintro rfl
    exact hok
  · rintro v rfl
    exact hok hm

namespace Served

lemma kept (h : Served B mutexes c) : Kept B c.kernel := ⟨h.consistent, h.numbered, h.total⟩

lemma keep (h : Served B mutexes c) (hc : Calm B mutexes c.kernel t) {pc : ℕ → Pc}
    (ht : ∀ k m, target (pc k) = some m → m ∈ mutexes)
    (hu : ∀ k m, pc k = .unlockTest m → c.pc k = .unlockTest m) :
    Served B mutexes ⟨t, pc, c.holds⟩ := by
  refine ⟨hc.kept.consistent, hc.kept.numbered, hc.kept.total, ht, ?_, ?_, ?_, ?_, ?_⟩
  · intro m hm
    change t.mem m % 256 ≠ 0 → t.mem m >>> 16 < _ ∧ c.holds (t.mem m >>> 16) m = true
    rw [hc.words m hm]
    exact h.locked m hm
  · intro k m hk
    change pc k = .unlockTest m at hk
    have hm : m ∈ mutexes := ht k m (by rw [hk]; rfl)
    change _ ∧ (t.mem m % 256 ≠ 0 → t.mem m >>> 16 ≠ k)
    rw [hc.words m hm]
    exact h.unlocking k m (hu k m hk)
  · exact fun k m hk => hc.live k (h.live k m hk)
  · intro k m hk hkN
    refine h.entries k m ?_ hkN
    rwa [Carries, hc.waiters.mutexes] at hk
  · exact h.balanced.keep hc.waiters

lemma event (h : Served B mutexes c) (hok : Locking B mutexes c (.event e))
    (he : Effect B c.kernel e t) : Served B mutexes (c.after B e t) := by
  have hholds : (c.after B e t).holds = c.holds := System.after_holds fun i hi m => by
    rw [← Bool.not_eq_true]
    exact fun hheld => (h.live i m hheld).2 (filled_idle he hi).2
  have hsame : c.after B e t =
      ⟨(c.after B e t).kernel, (c.after B e t).pc, (c.after B e t).holds⟩ := rfl
  rw [hsame, System.after_kernel, hholds]
  apply h.keep (calm_event h.kept hok he)
  · intro k m hk
    rcases System.after_pc c e t k with hpc | hpc
    · exact h.targets k m (hpc ▸ hk)
    · rw [hpc] at hk
      cases hk
  · intro k m hk
    rcases System.after_pc c e t k with hpc | hpc
    · exact hpc ▸ hk
    · rw [hpc] at hk
      cases hk

lemma goto (h : Served B mutexes c) (hc : Calm B mutexes c.kernel t) {p : Pc}
    (ht : ∀ m, target p = some m → m ∈ mutexes) (hu : ∀ m, p ≠ .unlockTest m) :
    Served B mutexes (c.goto t p) := by
  apply h.keep hc
  · intro k m hk
    rcases eq_or_ne k c.running with rfl | hne
    · rw [update_self] at hk
      exact ht m hk
    · rw [update_of_ne hne] at hk
      exact h.targets k m hk
  · intro k m hk
    rcases eq_or_ne k c.running with rfl | hne
    · rw [update_self] at hk
      exact (hu m hk).elim
    · rwa [update_of_ne hne] at hk

lemma target_mem (h : Served B mutexes c) {p : Pc} (hpc : c.pc k = p) (hp : target p = some m) :
    m ∈ mutexes :=
  h.targets k m (by rw [hpc, hp])

lemma hold_apply (c : System) (m : ℕ) (b : Bool) (k n : ℕ) : (c.hold m b).holds k n =
    if k = c.running ∧ n = m then b else c.holds k n := by
  change update c.holds c.running (update (c.holds c.running) m b) k n = _
  rcases eq_or_ne k c.running with rfl | hk
  · rw [update_self]
    rcases eq_or_ne n m with rfl | hn
    · simp
    · simp [hn]
  · simp [hk]

lemma targets_goto (h : Served B mutexes c) {p : Pc} (ht : ∀ m, target p = some m → m ∈ mutexes)
    (k m : ℕ) (hk : target (update c.pc c.running p k) = some m) : m ∈ mutexes := by
  rcases eq_or_ne k c.running with rfl | hne
  · rw [update_self] at hk
    exact ht m hk
  · rw [update_of_ne hne] at hk
    exact h.targets k m hk

lemma unlockTest_elsewhere {p : Pc} {k n : ℕ} (hk : update c.pc c.running p k = .unlockTest n)
    (hp : p ≠ .unlockTest n) : k ≠ c.running ∧ c.pc k = .unlockTest n := by
  have hne : k ≠ c.running := by
    rintro rfl
    rw [update_self] at hk
    exact hp hk
  rw [update_of_ne hne] at hk
  exact ⟨hne, hk⟩

lemma locked_move (h : Served B mutexes c) (hth : InThread c.kernel) {left : ℕ}
    (hpc : c.pc c.running = .attempt m left) : Served B mutexes ((c.hold m true).goto
      { c.kernel with mem := update c.kernel.mem m (c.kernel.taskId c.running) } .app) := by
  have hs := h.consistent
  have hlive : Live B c.kernel c.running := (hs.in_thread hth).2.1
  have hslot : c.kernel.taskId c.running >>> 16 = c.running := h.numbered _ hlive
  have hkept : Kept B { c.kernel with mem := update c.kernel.mem m (c.kernel.taskId c.running) } :=
    ⟨hs.keep rfl rfl rfl rfl rfl rfl rfl rfl rfl rfl rfl rfl rfl, h.numbered, h.total⟩
  have hgrow : ∀ k n, c.holds k n = true → (c.hold m true).holds k n = true := by
    intro k n hk
    rw [hold_apply]
    split
    · rfl
    · exact hk
  refine ⟨hkept.consistent, h.numbered, h.total, h.targets_goto (fun _ hm => by cases hm), ?_, ?_, ?_, ?_, h.balanced⟩
  · intro n hn
    change update c.kernel.mem m _ n % 256 ≠ 0 → update c.kernel.mem m _ n >>> 16 < _ ∧
      (c.hold m true).holds (update c.kernel.mem m _ n >>> 16) n = true
    rcases eq_or_ne n m with rfl | hne
    · rw [update_self, hslot]
      intro _
      refine ⟨hlive.1, ?_⟩
      rw [hold_apply, if_pos ⟨rfl, rfl⟩]
    · rw [update_of_ne hne]
      intro hb
      obtain ⟨hlt, hheld⟩ := h.locked n hn hb
      exact ⟨hlt, hgrow _ _ hheld⟩
  · intro k n hk
    obtain ⟨hne, hk⟩ := unlockTest_elsewhere hk (fun heq => by cases heq)
    obtain ⟨hheld, hother⟩ := h.unlocking k n hk
    refine ⟨hgrow _ _ hheld, ?_⟩
    change update c.kernel.mem m _ n % 256 ≠ 0 → update c.kernel.mem m _ n >>> 16 ≠ k
    rcases eq_or_ne n m with rfl | hnm
    · rw [update_self, hslot]
      exact fun _ => hne.symm
    · rw [update_of_ne hnm]
      exact hother
  · intro k n hk
    change (c.hold m true).holds k n = true at hk
    rw [hold_apply] at hk
    split at hk
    · rename_i heq
      rw [heq.1]
      exact hlive
    · exact h.live k n hk
  · exact fun k n hk hkN => hgrow k n (h.entries k n hk hkN)

lemma unlock_move (h : Served B mutexes c) (hm : m ∈ mutexes) (hheld : c.holds c.running m = true) :
    Served B mutexes (c.goto (clearMutex c.kernel m) (.unlockTest m)) := by
  have hs := h.consistent
  have hzero : (clearMutex c.kernel m).mem m % 256 = 0 := by
    change update c.kernel.mem m _ m % 256 = 0
    rw [update_self]
    omega
  have hother : ∀ n, n ≠ m → (clearMutex c.kernel m).mem n = c.kernel.mem n :=
    fun n hn => update_of_ne hn ..
  refine ⟨hs.keep rfl rfl rfl rfl rfl rfl rfl rfl rfl rfl rfl rfl rfl, h.numbered, h.total, ?_, ?_, ?_,
    h.live, h.entries, h.balanced⟩
  · apply h.targets_goto
    intro n hn
    cases hn
    exact hm
  · intro n hn
    change (clearMutex c.kernel m).mem n % 256 ≠ 0 → (clearMutex c.kernel m).mem n >>> 16 < _ ∧
      c.holds ((clearMutex c.kernel m).mem n >>> 16) n = true
    rcases eq_or_ne n m with rfl | hne
    · exact fun hb => (hb hzero).elim
    · rw [hother n hne]
      exact h.locked n hn
  · intro k n hk
    change update c.pc c.running (.unlockTest m) k = .unlockTest n at hk
    change _ ∧ ((clearMutex c.kernel m).mem n % 256 ≠ 0 → (clearMutex c.kernel m).mem n >>> 16 ≠ k)
    rcases eq_or_ne k c.running with rfl | hne
    · rw [update_self] at hk
      cases hk
      exact ⟨hheld, fun hb => (hb hzero).elim⟩
    · rw [update_of_ne hne] at hk
      obtain ⟨hheld', hword⟩ := h.unlocking k n hk
      refine ⟨hheld', ?_⟩
      rcases eq_or_ne n m with rfl | hnm
      · exact fun hb => (hb hzero).elim
      · rw [hother n hnm]
        exact hword

lemma promote_move (h : Served B mutexes c) (h0 : 0 ∉ mutexes) (hth : InThread c.kernel) {left : ℕ}
    (hpc : c.pc c.running = .promote m left) (ht : Timely c)
    (hi : c.kernel.mem m >>> 16 < B.maxTaskCount) :
    Served B mutexes (c.goto (promoteSlot c.kernel m (c.kernel.mem m >>> 16)) (.yield m left)) := by
  have hs := h.consistent
  have hm : m ∈ mutexes := h.target_mem hpc rfl
  have hne : m ≠ 0 := by
    rintro rfl
    exact h0 hm
  obtain ⟨hlock, hnone⟩ := ht m left hpc
  have hheld : c.holds (c.kernel.mem m >>> 16) m = true := by
    rcases hlock with hb | hu
    · exact (h.locked m hm hb).2
    · exact (h.unlocking _ m hu).1
  have hkept := h.kept.step (e := .promote m) trivial trivial (.promoted hth hi)
  refine ⟨hkept.1.consistent, hkept.1.numbered, hkept.1.total, ?_, h.locked, ?_, ?_, ?_, ?_⟩
  · apply h.targets_goto
    intro n hn
    cases hn
    exact hm
  · intro k n hk
    exact h.unlocking k n (unlockTest_elsewhere hk (fun heq => by cases heq)).2
  · exact fun k n hk => hkept.2 k (h.live k n hk)
  · intro k n hk hkN
    rw [Carries] at hk
    change update c.kernel.mutexStash (c.kernel.mem m >>> 16) m k = n ∧ n ≠ 0 at hk
    rcases eq_or_ne k (c.kernel.mem m >>> 16) with rfl | hki
    · rw [update_self] at hk
      rw [← hk.1]
      exact hheld
    · rw [update_of_ne hki] at hk
      exact h.entries k n hk hkN
  · exact h.balanced.promote hs hth hi hnone hne

lemma tested_entry (he : Effect B c.kernel (.unlockTest m) t) {k n : ℕ} (hk : Carries t n k) :
    Carries c.kernel n k ∧ (k = c.running → n ≠ m) := by
  cases he with
  | kept hth hne =>
    refine ⟨hk, ?_⟩
    rintro rfl rfl
    exact hne hk.1
  | demoted hth heq =>
    rw [Carries] at hk
    dsimp only [handOverState, demoteCurrent] at hk
    rcases eq_or_ne k c.kernel.currentTask with rfl | hne
    · rw [update_self] at hk
      exact (hk.2 hk.1.symm).elim
    · rw [update_of_ne hne] at hk
      exact ⟨hk, fun heq => (hne heq).elim⟩

lemma tested_balanced (h : Served B mutexes c) (h0 : 0 ∉ mutexes) (hm : m ∈ mutexes)
    (he : Effect B c.kernel (.unlockTest m) t) : Balanced B t := by
  cases he with
  | kept => exact h.balanced
  | demoted hth heq =>
    have hc := (h.consistent.in_thread hth).2.1.1
    have hp : Promoted c.kernel c.kernel.currentTask := by
      rw [Promoted, heq]
      rintro rfl
      exact h0 hm
    exact (h.balanced.demote hc hp).keep
      (handOver_waiters (current_not_hold (h.consistent.demote hth) hth))

lemma unlocked_move (h : Served B mutexes c) (h0 : 0 ∉ mutexes)
    (hpc : c.pc c.running = .unlockTest m) (hstep : Step B c.kernel (.unlockTest m) t) :
    Served B mutexes ((c.hold m false).goto t .app) := by
  have hm : m ∈ mutexes := h.target_mem hpc rfl
  have he := step_effect hstep
  have hkept := h.kept.step (e := .unlockTest m) trivial trivial he
  have hmem : t.mem = c.kernel.mem := by
    cases he with
    | kept => rfl
    | demoted => dsimp only [handOverState, demoteCurrent]
  have hheld : ∀ k n, c.holds k n = true → (k = c.running → n ≠ m) →
      (c.hold m false).holds k n = true := by
    intro k n hk hne
    rwa [hold_apply, if_neg fun heq => hne heq.1 heq.2]
  refine ⟨hkept.1.consistent, hkept.1.numbered, hkept.1.total, h.targets_goto (fun _ hm => by cases hm), ?_, ?_, ?_, ?_,
    h.tested_balanced h0 hm he⟩
  · intro n hn
    change t.mem n % 256 ≠ 0 → t.mem n >>> 16 < _ ∧ (c.hold m false).holds (t.mem n >>> 16) n = true
    rw [hmem]
    intro hb
    obtain ⟨hlt, hold⟩ := h.locked n hn hb
    refine ⟨hlt, hheld _ _ hold ?_⟩
    rintro heq rfl
    exact (h.unlocking c.running n hpc).2 hb heq
  · intro k n hk
    obtain ⟨hne, hk⟩ := unlockTest_elsewhere hk (fun heq => by cases heq)
    obtain ⟨hold, hword⟩ := h.unlocking k n hk
    refine ⟨hheld _ _ hold fun heq => (hne heq).elim, ?_⟩
    change t.mem n % 256 ≠ 0 → t.mem n >>> 16 ≠ k
    rw [hmem]
    exact hword
  · intro k n hk
    change (c.hold m false).holds k n = true at hk
    rw [hold_apply] at hk
    split at hk
    · cases hk
    · exact hkept.2 k (h.live k n hk)
  · intro k n hk hkN
    obtain ⟨hold, hne⟩ := tested_entry he hk
    exact hheld _ _ (h.entries k n hold hkN) hne

lemma step (h : Served B mutexes c) (h0 : 0 ∉ mutexes) (hf : Admitted B (Fair B mutexes) c a d) :
    Served B mutexes d := by
  obtain ⟨⟨hok, htimely⟩, hmove⟩ := hf
  have hk := h.kept
  cases move_outcome hmove with
  | @event e t hstep => exact h.event hok (step_effect hstep)
  | @lock m retry hth hpc =>
    apply h.goto (Calm.refl hk)
    · intro n hn
      split at hn
      · cases hn
      · cases hn
        exact hok
    · intro n hn
      split at hn <;> cases hn
  | unlock hstep hpc hheld =>
    cases step_effect hstep with
    | cleared => exact h.unlock_move hok hheld
  | locked hstep hpc hfree =>
    cases step_effect hstep with
    | lockRefused _ htaken => exact (htaken hfree).elim
    | locked hth => exact h.locked_move hth hpc
  | failed hstep hpc htaken =>
    cases step_effect hstep with
    | locked _ hfree => exact (htaken hfree).elim
    | lockRefused =>
      apply h.goto (Calm.refl hk)
      · intro n hn
        cases hn
        exact h.target_mem hpc rfl
      · exact nofun
  | wordRead _ hpc =>
    apply h.goto (Calm.refl hk)
    · intro n hn
      cases hn
      exact h.target_mem hpc rfl
    · exact nofun
  | @compared m index left test _ hpc =>
    have hm : m ∈ mutexes := h.target_mem hpc rfl
    rcases test.next_cases c.kernel m index left with hnext | hnext | hnext | ⟨after, hnext⟩
    all_goals
      rw [hnext]
      apply h.goto (Calm.refl hk)
      · rintro n ⟨⟩
        exact hm
      · exact nofun
  | promoted hstep hpc =>
    cases step_effect hstep with
    | promoted hth hi => exact h.promote_move h0 hth hpc htimely hi
  | @yielded m left t p hstep hpc hnext =>
    have hm : m ∈ mutexes := h.target_mem hpc rfl
    have hcalm : Calm B mutexes c.kernel t := calm_event (e := .handOver) hk trivial (step_effect hstep)
    apply h.goto hcalm
    · intro n hn
      rcases hnext with rfl | ⟨l, rfl⟩
      · cases hn
      · cases hn
        exact hm
    · rintro n rfl
      rcases hnext with hn | ⟨l, hn⟩ <;> cases hn
  | unlocked hstep hpc => exact h.unlocked_move h0 hpc hstep

end Served

variable {mem : ℕ → ℕ} {objs : ℕ → TaskObject} {stack : ℕ → ℕ} {as : List Action}

lemma Served.booted (hm : ∀ m ∈ mutexes, (bootState B mem objs stack).mem m = 0) :
    Served B mutexes (System.initial (bootState B mem objs stack)) := by
  obtain ⟨objs', stack', hb⟩ := bootState_eq B mem objs stack
  rw [hb] at hm ⊢
  have hnone : ∀ n k, ¬ Carries (Events.booted B mem objs' stack') n k := fun n k hk => hk.2 hk.1.symm
  have hcalm : ∀ k, (Events.booted B mem objs' stack').state k ≠ .hold := by
    intro k
    rcases eq_or_ne k 0 with rfl | hk
    · exact nofun
    · change update (fun _ => TaskState.idle) 0 .sleep k ≠ .hold
      rw [update_of_ne hk]
      decide
  refine ⟨booted_consistent B mem objs' stack', ?_, rfl, nofun, ?_, nofun, nofun,
    fun k n hk => (hnone n k hk).elim, ?_⟩
  · intro k hk
    obtain rfl := (booted_live B mem objs' stack' k).mp hk
    change 1 >>> 16 = 0
    decide
  · intro m hmem hb
    rw [System.initial, hm m hmem] at hb
    exact (hb rfl).elim
  · intro n
    rw [System.initial, count_eq_zero_iff.mpr fun k _ hk => hcalm k hk.1]
    exact Nat.zero_le _

/-- In every run whose promotions are timely, each task in HOLD on a mutex has a live holder that
will wake it. -/
theorem no_lost_wakeup (h0 : 0 ∉ mutexes)
    (hm : ∀ m ∈ mutexes, (bootState B mem objs stack).mem m = 0)
    (h : Run (Admitted B (Fair B mutexes)) (System.initial (bootState B mem objs stack)) as c) : Woken B c := by
  have hserved : Served B mutexes c :=
    h.invariant (fun _ _ _ hs hf => hs.step h0 hf) (Served.booted hm)
  exact hserved.woken

section Instances

def fourSlots : Build := Build.four

def newTask (p priority : ℕ) : List Action :=
  [.event (.fillTask p ⟨0, 0, priority, 0, 0, 0, 0, 0⟩), .event (.createTask p 0)]

def dispatch : List Action := [.event .scheduler, .event .contextSwitch]

def preempt : List Action := [.event .tick, .event .contextSwitch]

def start : System :=
  .initial (bootState fourSlots (fun _ => 0) (fun _ => ⟨0, 0, 1, 0, 0, 0, 0, 0⟩) (fun _ => 0))

/-- The task of slot 1 (priority 1) locks 200 while those of slots 2 and 3 (priority 5) hibernate;
the former wakes and its first attempt fails. -/
def attempt : List Action :=
  newTask 10 1 ++ newTask 11 5 ++ newTask 12 5 ++ [.event .startScheduler] ++ dispatch ++
    [.event (.hibernate 2 100 101 1)] ++ dispatch ++ [.event (.hibernate 2 102 103 1)] ++ dispatch ++
    [.lock 200 3, .advance, .event (.store 100 1)] ++ preempt ++ [.lock 200 3, .advance]

def promotion : List Action := List.replicate 7 .advance

def gap : List Action := preempt ++ [.unlock 200, .advance] ++ preempt

def waiting : System := reached fourSlots 20 (Fair fourSlots [200]) start (attempt ++ promotion)

def stranded : System :=
  reached fourSlots 20 (Locking fourSlots [200]) start (attempt ++ gap ++ promotion)

theorem no_lost_wakeup_waiting :
    (Live fourSlots waiting.kernel 2 ∧ waiting.kernel.state 2 = .hold) ∧ Woken fourSlots waiting := by
  have hrun : Run (Admitted fourSlots (Fair fourSlots [200])) start (attempt ++ promotion) waiting :=
    run_reached (by decide +kernel)
  refine ⟨by decide +kernel, no_lost_wakeup (by decide) ?_ hrun⟩
  decide +kernel

/-- The waiter promotes a task that no longer holds the mutex. -/
theorem no_lost_wakeup_fails :
    Run (Admitted fourSlots (Locking fourSlots [200])) start (attempt ++ gap ++ promotion) stranded ∧
      ¬ Woken fourSlots stranded := by
  refine ⟨run_reached (by decide +kernel), fun h => ?_⟩
  have hfree : ∀ j < fourSlots.maxTaskCount, stranded.holds j (stranded.kernel.op1 2) = false := by
    decide +kernel
  obtain ⟨j, hj, hheld, -⟩ := h 2 (by decide +kernel) (by decide +kernel)
  rw [hfree j hj.1] at hheld
  cases hheld

end Instances

end Skibios.Sharing.WakeUp
