import Skibios.Protection.Permissions
import Skibios.Promotion.Rungs

/-! RELEASE_BASE answers the first slot whose id is `invocated_task`; the id 0 of no invocation is
also the id of an idle slot. -/

namespace Skibios.Protection.Unasked

open Function Library.Words Library.Loops Library.Runs
open Kernel State TaskServices Services Events
open Promotion Rungs
open Permissions (slotOf_spec)

variable {B : Build} {s t : KernelState} {c : KernelState × ℕ} {j k pid error : ℕ}

/-- The slot of the task whose INVOKE_BASE was accepted last. -/
def asker (s : KernelState) (j : ℕ) : Event → ℕ
  | .invokeBase _ => if s.currentTask = 0 then j else s.currentTask
  | _ => j

structure Traced (B : Build) (c : KernelState × ℕ) (e : Event) (d : KernelState × ℕ) : Prop where
  step : Step B c.1 e d.1
  asker : d.2 = asker c.1 c.2 e

structure Untouched (s t : KernelState) : Prop where
  prioCurrent : t.prioCurrent = s.prioCurrent
  prioStashed : t.prioStashed = s.prioStashed
  maxLevel : t.maxLevel = s.maxLevel
  maxpLevel : t.maxpLevel = s.maxpLevel
  alc : t.alc = s.alc
  hlc : t.hlc = s.hlc
  hibValue : t.hibValue = s.hibValue
  state : t.state = s.state

def Rejects (B : Build) (s : KernelState) : Prop :=
  ∀ error < 4294967296, ∃ r t, svc B s svcReleaseBase error 0 0 0 = some (r, t) ∧ r ≠ errorNone ∧
    Untouched s t

/-- The status of an invocation goes to the slot `j` only. -/
def Answers (B : Build) (s : KernelState) (j : ℕ) : Prop :=
  ∀ error < 4294967296, ∃ r t, svc B s svcReleaseBase error 0 0 0 = some (r, t) ∧
    ∀ k, t.hibValue k ≠ s.hibValue k → k = j

lemma slotOf_lt (hk : k < B.maxTaskCount) (h : s.taskId k = pid) : slotOf B s pid < B.maxTaskCount := by
  refine lt_of_le_of_lt ?_ hk
  exact firstIndex_le_of (decide_eq_true h)

lemma slotOf_missing (h : ∀ k < B.maxTaskCount, s.taskId k ≠ pid) : slotOf B s pid = B.maxTaskCount := by
  by_contra hne
  have hlt : slotOf B s pid < B.maxTaskCount := lt_of_le_of_ne (firstIndex_le _ _) hne
  exact h _ hlt (slotOf_spec hlt)

lemma release_missing (h0 : s.currentTask = 0) (h : slotOf B s s.invocatedTask = B.maxTaskCount) :
    svc B s svcReleaseBase error 0 0 0 = some (errorUnknownProcessId, s) := by
  rw [svc_releaseBase, if_neg (not_not.mpr h0), if_pos h]

lemma release_found (error : ℕ) (h0 : s.currentTask = 0) (h : slotOf B s s.invocatedTask < B.maxTaskCount) :
    ∃ t, svc B s svcReleaseBase error 0 0 0 = some (errorNone, t) ∧
      t.hibValue = update s.hibValue (slotOf B s s.invocatedTask) error := by
  refine ⟨handOverState (demoteCurrent B (answerState s (slotOf B s s.invocatedTask) error)), ?_, ?_⟩
  · rw [svc_releaseBase, if_neg (not_not.mpr h0), if_neg h.ne]
  · dsimp only [handOverState, demoteCurrent, answerState]

lemma rejects_iff (h0 : s.currentTask = 0) :
    Rejects B s ↔ ∀ k < B.maxTaskCount, s.taskId k ≠ s.invocatedTask := by
  constructor
  · intro h k hk hid
    obtain ⟨r, t, hr, hne, -⟩ := h 0 (by decide)
    obtain ⟨u, hu, -⟩ := release_found 0 h0 (slotOf_lt hk hid)
    rw [hu] at hr
    obtain ⟨rfl, -⟩ := by simpa using hr
    exact hne rfl
  · intro h error _
    refine ⟨_, s, release_missing h0 (slotOf_missing h), by decide, ?_⟩
    exact ⟨rfl, rfl, rfl, rfl, rfl, rfl, rfl, rfl⟩

lemma answers_iff (h0 : s.currentTask = 0) : Answers B s j ↔
    ∀ k < B.maxTaskCount, s.taskId k = s.invocatedTask → j ≤ k ∧ s.taskId j = s.invocatedTask := by
  constructor
  · intro h k hk hid
    have hfound := slotOf_lt hk hid
    have hfirst : slotOf B s s.invocatedTask = j := by
      -- a status that differs from what the slot holds
      obtain ⟨error, hlt, hne⟩ : ∃ error < 4294967296,
          error ≠ s.hibValue (slotOf B s s.invocatedTask) := by
        by_cases hz : s.hibValue (slotOf B s s.invocatedTask) = 0
        · exact ⟨1, by decide, by omega⟩
        · exact ⟨0, by decide, by omega⟩
      obtain ⟨r, t, hr, ht⟩ := h error hlt
      obtain ⟨u, hu, hvalue⟩ := release_found error h0 hfound
      rw [hu] at hr
      obtain ⟨-, rfl⟩ := by simpa using hr
      apply ht
      rw [hvalue, update_self]
      exact hne
    rw [← hfirst]
    exact ⟨firstIndex_le_of (decide_eq_true hid), slotOf_spec hfound⟩
  · intro h error _
    by_cases hfound : slotOf B s s.invocatedTask < B.maxTaskCount
    · obtain ⟨t, ht, hvalue⟩ := release_found error h0 hfound
      refine ⟨_, t, ht, fun k hk => ?_⟩
      obtain ⟨hle, hid⟩ := h _ hfound (slotOf_spec hfound)
      have hge : slotOf B s s.invocatedTask ≤ j := firstIndex_le_of (decide_eq_true hid)
      by_contra hne
      apply hk
      rw [hvalue, update_of_ne (by omega)]
    · have hmissing := le_antisymm (firstIndex_le _ _) (not_lt.mp hfound)
      exact ⟨_, s, release_missing h0 hmissing, fun k hk => absurd rfl hk⟩

variable {mem : ℕ → ℕ} {objs : ℕ → TaskObject} {stack : ℕ → ℕ}

/-- In whatever state base runs, its RELEASE_BASE is rejected without an invocation if and only if no
slot has the id 0, and answers the invoker alone if and only if the invoker comes first among the
slots with its id. -/
theorem release_base : ∀ es c, Run (Traced B) (bootState B mem objs stack, 0) es c →
    c.1.currentTask = 0 →
    (((c.1.invocatedTask = 0 → ¬ Promoted c.1 0 → Rejects B c.1) ∧
        (c.1.invocatedTask ≠ 0 → Answers B c.1 c.2)) ↔
      (c.1.invocatedTask = 0 → ¬ Promoted c.1 0 → ∀ k < B.maxTaskCount, c.1.taskId k ≠ 0) ∧
        (c.1.invocatedTask ≠ 0 → ∀ k < B.maxTaskCount, c.1.taskId k = c.1.invocatedTask →
          c.2 ≤ k ∧ c.1.taskId c.2 = c.1.invocatedTask)) := by
  intro es c _ h0
  refine and_congr ?_ ?_
  · apply imp_congr_right
    intro hnone
    rw [rejects_iff h0, hnone]
  · apply imp_congr_right
    intro _
    exact answers_iff h0

section Instances

def twoSlots : Build := Build.two
def threeSlots : Build := Build.three

def start (B : Build) : KernelState × ℕ :=
  (bootState B (fun _ => 0) (fun _ => ⟨0, 0, 1, 0, 0, 0, 0, 0⟩) (fun _ => 0), 0)

def dispatch : List Event := [.scheduler, .contextSwitch]

/-- The base task runs while the only other task hibernates. -/
def lull : List Event :=
  [.createTask 10 0, .startScheduler] ++ dispatch ++ [.hibernate 2 100 101 1] ++ dispatch

def tracedStep (B : Build) (c : KernelState × ℕ) (e : Event) : Option (KernelState × ℕ) :=
  (step B 20 c.1 e).map fun t => (t, asker c.1 c.2 e)

lemma tracedStep_sound (c : KernelState × ℕ) (e : Event) (d : KernelState × ℕ)
    (h : tracedStep B c e = some d) : Traced B c e d := by
  obtain ⟨t, ht, rfl⟩ := Option.map_eq_some_iff.mp h
  exact ⟨⟨20, ht⟩, rfl⟩

def reached (B : Build) : KernelState × ℕ := (exec (tracedStep B) (start B) lull).getD (start B)

lemma reached_run (h : (exec (tracedStep B) (start B) lull).isSome = true) :
    Run (Traced B) (start B) lull (reached B) := exec_getD_run tracedStep_sound h

theorem release_base_full :
    (reached twoSlots).1.invocatedTask = 0 ∧ Rejects twoSlots (reached twoSlots).1 := by
  have hrun : Run (Traced twoSlots) (start twoSlots) lull (reached twoSlots) :=
    reached_run (by decide +kernel)
  have hs : (reached twoSlots).1.currentTask = 0 ∧ (reached twoSlots).1.invocatedTask = 0 ∧
      ¬ Promoted (reached twoSlots).1 0 ∧
      ∀ k < twoSlots.maxTaskCount, (reached twoSlots).1.taskId k ≠ 0 := by decide +kernel
  refine ⟨hs.2.1, ((release_base lull _ hrun hs.1).mpr ⟨?_, ?_⟩).1 hs.2.1 hs.2.2.1⟩
  · intro _ _
    exact hs.2.2.2
  · intro hne
    exact absurd hs.2.1 hne

/-- A third slot is idle: it is answered, PRIORITY_DEMOTE takes one from `max_level`, and all is
reported well. -/
theorem release_base_fails : Run (Traced threeSlots) (start threeSlots) lull (reached threeSlots) ∧
    ((reached threeSlots).1.currentTask = 0 ∧ InThread (reached threeSlots).1 ∧
      (reached threeSlots).1.invocatedTask = 0 ∧ ¬ Promoted (reached threeSlots).1 0) ∧
    ((svc threeSlots (reached threeSlots).1 svcReleaseBase 5 0 0 0).any fun r =>
      decide (r.1 = errorNone ∧ (reached threeSlots).1.maxLevel = 1 ∧ r.2.maxLevel = 0 ∧
        r.2.hibValue 2 = 5)) = true ∧
    ¬ Rejects threeSlots (reached threeSlots).1 := by
  refine ⟨reached_run (by decide +kernel), by decide +kernel, by decide +kernel, fun h => ?_⟩
  have hs : (reached threeSlots).1.currentTask = 0 ∧
      (reached threeSlots).1.taskId 2 = (reached threeSlots).1.invocatedTask := by decide +kernel
  exact (rejects_iff hs.1).mp h 2 (by decide) hs.2

end Instances

end Skibios.Protection.Unasked
