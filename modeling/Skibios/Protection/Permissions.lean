import Skibios.Tasks.Identity

/-! Permissions are kept by slot and granted by id. -/

namespace Skibios.Protection.Permissions

open Function Library.Words Library.Loops Library.Runs
open Kernel State TaskServices Services Scheduler Events Effects Tasks Invariants Identity

variable {B : Build} {s t u : KernelState} {e : Event} {es fs : List Event} {k : ℕ}

abbrev Grants := ℕ → Option ℕ

variable {g g' : Grants}

def record (B : Build) (s : KernelState) (g : Grants) : Event → Grants
  | .createTask .. => update g (idleSlot B s) none
  | .grantPermission pid permission =>
    if s.currentTask = 0 then
      fun k => if k < B.maxTaskCount ∧ s.taskId k = pid then some (uint16 permission) else g k
    else g
  | _ => g

/-- A task without a grant has no permission, and the others have what was granted last. -/
def Granted (B : Build) (s : KernelState) (g : Grants) : Prop :=
  ∀ k, k ≠ 0 → Live B s k → s.permissions k = (g k).getD 0

/-- A creation finds no permission in the slot it fills, and a grant names no two slots and no idle
one. -/
def Clean (B : Build) (s : KernelState) (e : Event) : Prop :=
  Regular B s e ∧
    match e with
    | .createTask .. => idleSlot B s < B.maxTaskCount → s.permissions (idleSlot B s) = 0
    | .grantPermission pid _ =>
      pid ≠ 0 ∧ ∀ i < B.maxTaskCount, ∀ j < B.maxTaskCount, s.taskId i = pid → s.taskId j = pid → i = j
    | _ => True

instance (s : KernelState) (e : Event) : Decidable (Clean B s e) :=
  match e with
  | .createTask .. => inferInstanceAs (Decidable (_ ∧ (_ → _)))
  | .grantPermission .. => inferInstanceAs (Decidable (_ ∧ (_ ∧ _)))
  | .startScheduler | .killTask _ | .endTask | .hibernate .. | .handOver | .invokeBase _
  | .releaseBase _ | .promote _ | .mutexLock _ | .clearMutex _ | .unlockTest _ | .store ..
  | .fillTask .. | .tick | .scheduler | .contextSwitch => inferInstanceAs (Decidable (_ ∧ True))

def Recorded (B : Build) (ok : KernelState → Event → Prop) (c : KernelState × Grants) (e : Event)
    (d : KernelState × Grants) : Prop :=
  Guarded B ok c.1 e d.1 ∧ d.2 = record B c.1 c.2 e

lemma effect_permissions (he : Effect B s e t) (hf : s.firstStart = true) :
    t.permissions = s.permissions ∨ ∃ pid permission, e = .grantPermission pid permission ∧
      s.currentTask = 0 ∧ slotOf B s pid < B.maxTaskCount ∧
      t.permissions = update s.permissions (slotOf B s pid) (uint16 permission) := by
  cases he with
  | granted _ h0 hfound => exact Or.inr ⟨_, _, rfl, h0, hfound, rfl⟩
  | started _ hfirst =>
    rw [hf] at hfirst
    cases hfirst
  | ticked _ _ h | scheduled _ _ h =>
    obtain ⟨⟨st, a, c, hframe⟩, -⟩ := h.wakes
    exact Or.inl (by rw [hframe]; rfl)
  | demoted | released =>
    left
    dsimp only [handOverState, demoteCurrent, answerState]
  | _ => exact Or.inl rfl

lemma effect_firstStart (he : Effect B s e t) (hf : s.firstStart = true) : t.firstStart = true := by
  cases he with
  | started => rfl
  | ticked _ _ h | scheduled _ _ h =>
    obtain ⟨⟨st, a, c, hframe⟩, -⟩ := h.wakes
    rw [hframe]
    exact hf
  | demoted | released =>
    dsimp only [handOverState, demoteCurrent, answerState]
    exact hf
  | _ => exact hf

lemma slotOf_spec {pid : ℕ} (h : slotOf B s pid < B.maxTaskCount) : s.taskId (slotOf B s pid) = pid := by
  simpa [slotOf] using firstIndex_spec h

structure Kept (B : Build) (s : KernelState) (g : Grants) : Prop where
  consistent : Consistent B s
  first : s.firstStart = true
  granted : Granted B s g

lemma granted_grant (h : Granted B s g) {pid permission : ℕ} (h0 : s.currentTask = 0)
    (hok : Clean B s (.grantPermission pid permission)) (hfound : slotOf B s pid < B.maxTaskCount)
    (ht : t.permissions = update s.permissions (slotOf B s pid) (uint16 permission))
    (hlive : ∀ k, Live B t k → Live B s k) :
    Granted B t (record B s g (.grantPermission pid permission)) := by
  intro k hk0 hk
  rw [ht, record, if_pos h0]
  have hid := slotOf_spec hfound
  rcases eq_or_ne k (slotOf B s pid) with rfl | hne
  · rw [update_self, if_pos ⟨hk.1, hid⟩]
    rfl
  · have hother : ¬ (k < B.maxTaskCount ∧ s.taskId k = pid) := by
      rintro ⟨hkN, hkid⟩
      exact hne (hok.2.2 k hkN _ hfound hkid hid)
    rw [update_of_ne hne, if_neg hother]
    exact h k hk0 (hlive k hk)

lemma record_missed {pid permission : ℕ} (h : s.currentTask ≠ 0 ∨ slotOf B s pid = B.maxTaskCount) :
    record B s g (.grantPermission pid permission) = g := by
  rw [record]
  split
  · rename_i h0
    funext k
    apply if_neg
    rintro ⟨hk, hid⟩
    have hle : slotOf B s pid ≤ k := firstIndex_le_of (by simpa using hid)
    have hmiss := h.resolve_left (not_not.mpr h0)
    omega
  · rfl

lemma Kept.step (h : Kept B s g) (hok : Clean B s e) (he : Effect B s e t) :
    Kept B t (record B s g e) := by
  have hs := h.consistent
  have ht := hs.step hok.1 he
  refine ⟨ht, effect_firstStart he h.first, ?_⟩
  rcases effect_permissions he h.first with heq | ⟨pid, permission, rfl, h0, hfound, heq⟩
  · cases e with
    | createTask p arg =>
      intro k hk0 hk
      rw [heq, record]
      rcases eq_or_ne k (idleSlot B s) with rfl | hne
      · rw [update_self]
        exact hok.2 hk.1
      · rw [update_of_ne hne]
        rcases live_before hs ht he hk with hold | ⟨_, _, _, hi⟩
        · exact h.granted k hk0 hold
        · exact (hne hi).elim
    | grantPermission pid permission =>
      cases he with
      | grantRefused _ hmiss =>
        rw [record_missed hmiss]
        exact h.granted
      | granted _ h0 hfound => exact granted_grant h.granted h0 hok hfound rfl fun _ hk => hk
    | _ =>
      intro k hk0 hk
      rw [heq]
      rcases live_before hs ht he hk with hold | ⟨_, _, hc, _⟩
      · exact h.granted k hk0 hold
      · cases hc
  · refine granted_grant h.granted h0 hok hfound heq fun k hk => ?_
    rcases live_before hs ht he hk with hold | ⟨_, _, hc, _⟩
    · exact hold
    · cases hc

lemma idle_untouched (hs : Consistent B s) {pid permission : ℕ}
    (hok : Clean B s (.grantPermission pid permission))
    (he : Effect B s (.grantPermission pid permission) t) (hk : k < B.maxTaskCount)
    (hi : s.state k = .idle) : t.permissions k = s.permissions k := by
  cases he with
  | grantRefused => rfl
  | granted _ _ hfound =>
    apply update_of_ne
    rintro rfl
    have hid := slotOf_spec hfound
    rw [← hid] at hok
    exact (hs.ids _ hk).mp hok.2.1 hi

variable {mem : ℕ → ℕ} {objs : ℕ → TaskObject} {stack : ℕ → ℕ}

lemma started_kept (hs : Consistent B s) (hf : s.firstStart = false)
    (h : Guarded B (Regular B) s .startScheduler t) : Kept B t fun _ => none := by
  have he := step_effect h.2
  refine ⟨hs.step h.1 he, ?_, fun k hk0 hk => ?_⟩
  · cases he with
    | started => rfl
    | alreadyStarted _ hfirst => exact hfirst
  · cases he with
    | started =>
      change (if k = 0 then 0xFFFF else if k < B.maxTaskCount then 0 else s.permissions k) = 0
      rw [if_neg hk0, if_pos hk.1]
    | alreadyStarted _ hfirst =>
      rw [hf] at hfirst
      cases hfirst

/-- From the start of the scheduler on, in every run of clean steps, each task has the permission
granted to it last and none before, and no grant touches an idle slot. -/
theorem permissions_granted (h : Run (Guarded B (Regular B)) (bootState B mem objs stack) es s)
    (hf : s.firstStart = false) (hstart : Guarded B (Regular B) s .startScheduler t)
    (hrun : Run (Recorded B (Clean B)) (t, fun _ => none) fs (u, g)) :
    (∀ k, k ≠ 0 → Live B u k → u.permissions k = (g k).getD 0) ∧
      ∀ pid permission v, Guarded B (Clean B) u (.grantPermission pid permission) v →
        ∀ k < B.maxTaskCount, u.state k = .idle → v.permissions k = u.permissions k := by
  have hs : Consistent B s := run_consistent (fun _ _ h => h) (boot_consistent B mem objs stack) h
  have hu : Kept B u g := by
    refine hrun.invariant (I := fun c => Kept B c.1 c.2) ?_ (started_kept hs hf hstart)
    rintro c e d hc ⟨hg, hrec⟩
    rw [hrec]
    exact hc.step hg.1 (step_effect hg.2)
  refine ⟨hu.granted, fun pid permission v hg k hk hi => ?_⟩
  exact idle_untouched hu.consistent hg.1 (step_effect hg.2) hk hi

section Instances

def threeSlots : Build := Build.three

def boot : KernelState :=
  bootState threeSlots (fun _ => 0) (fun _ => ⟨0, 0, 1, 0, 0, 0, 0, 0⟩) (fun _ => 0)

def idle : KernelState := after threeSlots 20 (Regular threeSlots) boot [.createTask 10 0]

def begun : KernelState := (step threeSlots 20 idle .startScheduler).getD idle

def recordedStep (ok : KernelState → Event → Prop) [∀ s e, Decidable (ok s e)]
    (c : KernelState × Grants) (e : Event) : Option (KernelState × Grants) :=
  (guardedStep threeSlots 20 (fun s e => decide (ok s e)) c.1 e).map fun t =>
    (t, record threeSlots c.1 c.2 e)

lemma recordedStep_sound {ok : KernelState → Event → Prop} [∀ s e, Decidable (ok s e)]
    (c : KernelState × Grants) (e : Event) (d : KernelState × Grants)
    (h : recordedStep ok c e = some d) : Recorded threeSlots ok c e d := by
  obtain ⟨t, ht, rfl⟩ := Option.map_eq_some_iff.mp h
  obtain ⟨hok, hstep⟩ := guardedStep_sound ht
  exact ⟨⟨of_decide_eq_true hok, hstep⟩, rfl⟩

lemma idle_run : Run (Guarded threeSlots (Regular threeSlots)) boot [.createTask 10 0] idle :=
  run_after (by decide +kernel)

lemma begun_step : Guarded threeSlots (Regular threeSlots) idle .startScheduler begun :=
  ⟨by decide +kernel, step_getD (by decide +kernel)⟩

def granting : List Event :=
  [.scheduler, .contextSwitch, .handOver, .scheduler, .contextSwitch, .grantPermission 0x10002 4]

def reuse : List Event := granting ++ [.killTask 0x10002, .createTask 11 0]

theorem permissions_granted_one : ∃ c : KernelState × Grants,
    (Live threeSlots c.1 1 ∧ c.1.permissions 1 = 4) ∧ c.1.permissions 1 = (c.2 1).getD 0 := by
  have hexec : (exec (recordedStep (Clean threeSlots)) (begun, fun _ => none) granting).any
      (fun c => decide (Live threeSlots c.1 1 ∧ c.1.permissions 1 = 4)) = true := by
    decide +kernel
  obtain ⟨c, hrun, hlive, hperm⟩ := exec_any_run recordedStep_sound hexec
  exact ⟨c, ⟨hlive, hperm⟩, (permissions_granted idle_run (by decide +kernel) begun_step hrun).1 1
    (by decide) hlive⟩

/-- The new task of slot 1 has the permission of the one before it. -/
theorem permissions_granted_fails : ∃ c : KernelState × Grants,
    Run (Recorded threeSlots (Regular threeSlots)) (begun, fun _ => none) reuse c ∧
      Live threeSlots c.1 1 ∧ c.2 1 = none ∧ c.1.permissions 1 = 4 :=
  exec_any_run recordedStep_sound (by decide +kernel)

end Instances

end Skibios.Protection.Permissions
