import Skibios.Tasks.Insertion
import Skibios.Tasks.Objects

/-! `task_start` and `task_kill` as calls nobody interrupts: which slot they find for an object, and
what they tell their caller. -/

namespace Skibios.Tasks.Calls

open Function Library.Words Library.Loops Library.Runs
open Kernel State TaskServices Services Scheduler Events Effects Invariants LevelStash Insertion
open Objects (System Pc Action Move)

variable {B : Build} {s t : KernelState} {e : Event} {es : List Event} {p arg obj pid i k : ℕ}

/-- With argument 0 this is `task_start`. -/
def taskStartArg (B : Build) (s : KernelState) (p arg : ℕ) : Option (ℕ × KernelState) :=
  if ∃ i < B.maxTaskCount, s.taskObj i = p then some (errorProcessAlreadyRunning, s)
  else (svc B s svcCreateTask p arg 0 0).map fun r => (errorNone, r.2)

def errorProcessIsIdle : ℕ := 6

/-- What `task_kill` reads of the two tables, the KILL_TASK it issues and what it returns. -/
structure KillCall where
  objReads : List ℕ
  idReads : List ℕ
  service : Option ℕ
  error : ℕ

/-- `obj` and `pid` are the words behind `task_obj` and `task_id`: a search that finds nothing leaves
`i` at `MAX_TASK_COUNT`. -/
def taskKill (B : Build) (s : KernelState) (obj pid p : ℕ) : KillCall :=
  let i := firstIndex (fun i => s.taskObj i = p) B.maxTaskCount
  let o := if i < B.maxTaskCount then s.taskObj i else obj
  if o ≠ p then ⟨List.range (i + 1), [], none, errorProcessIsIdle⟩
  else ⟨List.range (i + 1), [i], some (if i < B.maxTaskCount then s.taskId i else pid), errorNone⟩

def KillCall.after (B : Build) (s : KernelState) (c : KillCall) : Option KernelState :=
  match c.service with
  | none => some s
  | some pid => (svc B s svcKillTask pid 0 0 0).map Prod.snd

section Kill

def Holds (B : Build) (s : KernelState) (p k : ℕ) : Prop := Live B s k ∧ s.taskObj k = p

instance (s : KernelState) (p : ℕ) : DecidablePred (Holds B s p) :=
  fun _ => inferInstanceAs (Decidable (_ ∧ _))

structure Resolves (B : Build) (s : KernelState) (p : ℕ) (c : KillCall) : Prop where
  objects : ∀ i ∈ c.objReads, i < B.maxTaskCount
  ids : ∀ i ∈ c.idReads, i < B.maxTaskCount
  idle : (¬ ∃ k, Holds B s p k) → c.error = errorProcessIsIdle ∧ c.service = none
  holder : ∀ k, Holds B s p k → c.service = some (s.taskId k)

def First (s : KernelState) (p i : ℕ) : Prop := s.taskObj i = p ∧ ∀ j < i, s.taskObj j ≠ p

lemma first_firstIndex (h : firstIndex (fun i => s.taskObj i = p) B.maxTaskCount < B.maxTaskCount) :
    First s p (firstIndex (fun i => s.taskObj i = p) B.maxTaskCount) := by
  refine ⟨by simpa using firstIndex_spec h, fun j hj => ?_⟩
  simpa using firstIndex_min hj

lemma First.unique (h : First s p i) (hk : First s p k) : i = k := by
  rcases lt_trichotomy i k with hlt | heq | hgt
  · exact absurd h.1 (hk.2 i hlt)
  · exact heq
  · exact absurd hk.1 (h.2 k hgt)

lemma taskKill_found (h : First s p i) (hi : i < B.maxTaskCount) :
    taskKill B s obj pid p = ⟨List.range (i + 1), [i], some (s.taskId i), errorNone⟩ := by
  have hle : firstIndex (fun i => s.taskObj i = p) B.maxTaskCount ≤ i :=
    firstIndex_le_of (by simpa using h.1)
  have heq := (first_firstIndex (B := B) (hle.trans_lt hi)).unique h
  rw [taskKill, heq]
  simp [h.1, hi]

lemma taskKill_missing (h : ∀ i < B.maxTaskCount, s.taskObj i ≠ p) :
    B.maxTaskCount ∈ (taskKill B s obj pid p).objReads := by
  have heq : firstIndex (fun i => s.taskObj i = p) B.maxTaskCount = B.maxTaskCount := by
    refine le_antisymm (firstIndex_le _ _) (not_lt.mp fun hlt => ?_)
    exact h _ hlt (first_firstIndex hlt).1
  rw [taskKill, heq]
  split <;> split <;> simp

lemma exists_first (hi : i < B.maxTaskCount) (h : s.taskObj i = p) :
    ∃ k < B.maxTaskCount, First s p k := by
  have hle : firstIndex (fun i => s.taskObj i = p) B.maxTaskCount ≤ i := firstIndex_le_of (by simpa using h)
  exact ⟨_, hle.trans_lt hi, first_firstIndex (hle.trans_lt hi)⟩

/-- `task_kill` finds the task it is asked for if and only if the object has one, and the first entry
with the object carries the id of every task that has it. -/
theorem task_kill_resolves : Resolves B s p (taskKill B s obj pid p) ↔
    (∃ k, Holds B s p k) ∧ ∀ i, First s p i → ∀ k, Holds B s p k → s.taskId k = s.taskId i := by
  by_cases hex : ∃ i < B.maxTaskCount, s.taskObj i = p
  · obtain ⟨j, hj, hjp⟩ := hex
    obtain ⟨i, hi, hfirst⟩ := exists_first hj hjp
    rw [taskKill_found hfirst hi]
    constructor
    · intro h
      refine ⟨?_, fun i' hi' k hk => ?_⟩
      · by_contra hnone
        exact absurd (h.idle hnone).2 (Option.some_ne_none _)
      · rw [hi'.unique hfirst]
        exact (Option.some.inj (h.holder k hk)).symm
    · rintro ⟨hlive, hid⟩
      refine ⟨fun j hj => ?_, fun j hj => ?_, fun hnone => absurd hlive hnone, fun k hk => ?_⟩
      · have hle := List.mem_range.mp hj
        omega
      · rwa [List.mem_singleton.mp hj]
      · rw [hid i hfirst k hk]
  · have hmissing : ∀ i < B.maxTaskCount, s.taskObj i ≠ p := fun i hi hp => hex ⟨i, hi, hp⟩
    refine iff_of_false (fun h => ?_) ?_
    · exact absurd (h.objects _ (taskKill_missing hmissing)) (lt_irrefl _)
    · rintro ⟨⟨k, hk⟩, -⟩
      exact hmissing k hk.1.1 hk.2

/-- Where the statements of `task_kill` lead to when nothing comes between them. -/
def KillCall.pc (c : KillCall) : Pc :=
  match c.service with
  | none => .out
  | some pid => .kill pid

section Statements

variable {c : System}

lemma goto_goto (x y : Pc) : (c.goto x).goto y = c.goto y := by
  simp [System.goto, System.running]

lemma goto_pc (x : Pc) : (c.goto x).pc (c.goto x).running = x := update_self ..

variable (hth : InThread c.kernel)
include hth

lemma advance_goto {x y : Pc} (h : (c.goto x).advance B 0 obj pid = some (c.goto y)) :
    Move B (c.goto x) (.advance obj pid) (c.goto y) :=
  ⟨0, (if_pos hth).trans h⟩

lemma statement_search (hi : i < B.maxTaskCount) : Move B (c.goto (.search p i)) (.advance obj pid)
    (c.goto (if c.kernel.taskObj i = p then .test p i else .search p (i + 1))) := by
  apply advance_goto hth
  simp only [System.advance, goto_pc, if_pos hi, goto_goto]
  rfl

lemma statement_over (hi : ¬ i < B.maxTaskCount) :
    Move B (c.goto (.search p i)) (.advance obj pid) (c.goto (.test p i)) := by
  apply advance_goto hth
  simp only [System.advance, goto_pc, if_neg hi, goto_goto]

lemma search_run (hi : i ≤ B.maxTaskCount) (hne : ∀ j < i, c.kernel.taskObj j ≠ p)
    (hstop : i < B.maxTaskCount → c.kernel.taskObj i = p) :
    Run (Move B) (c.goto (.search p 0)) (List.replicate (i + 1) (.advance obj pid))
      (c.goto (.test p i)) := by
  have hreach : ∀ j ≤ i, Run (Move B) (c.goto (.search p 0)) (List.replicate j (.advance obj pid))
      (c.goto (.search p j)) := by
    intro j hj
    induction j with
    | zero => exact .nil
    | succ j ih =>
      have hstep : Move B (c.goto (.search p j)) (.advance obj pid) _ :=
        statement_search hth (hj.trans hi)
      rw [if_neg (hne j hj)] at hstep
      rw [List.replicate_succ']
      exact (ih (Nat.le_of_succ_le hj)).snoc hstep
  rw [List.replicate_succ']
  refine (hreach i le_rfl).snoc ?_
  by_cases hlt : i < B.maxTaskCount
  · have hstep : Move B (c.goto (.search p i)) (.advance obj pid) _ := statement_search hth hlt
    rwa [if_pos (hstop hlt)] at hstep
  · exact statement_over hth hlt

lemma kill_statements (hout : c.pc c.running = .out) : ∃ n, Run (Move B) c
    (.kill p :: List.replicate n (.advance obj pid)) (c.goto (taskKill B c.kernel obj pid p).pc) := by
  have hcall : Move B c (.kill p) (c.goto (.search p 0)) := ⟨0, if_pos ⟨hth, hout⟩⟩
  let i := firstIndex (fun i => c.kernel.taskObj i = p) B.maxTaskCount
  have htest : Run (Move B) (c.goto (.search p 0)) (List.replicate (i + 1) (.advance obj pid))
      (c.goto (.test p i)) := by
    refine search_run hth (firstIndex_le _ _) (fun j hj => ?_) fun hlt => (first_firstIndex hlt).1
    simpa using firstIndex_min hj
  have hleave : Move B (c.goto (.test p i)) (.advance obj pid) (c.goto
      (if (if i < B.maxTaskCount then c.kernel.taskObj i else obj) = p then .fetch i else .out)) := by
    apply advance_goto hth
    simp only [System.advance, goto_pc, goto_goto]
    rfl
  have hstop := htest.snoc hleave
  rw [← List.replicate_succ'] at hstop
  by_cases ho : (if i < B.maxTaskCount then c.kernel.taskObj i else obj) = p
  · rw [if_pos ho] at hstop
    have hfetch : Move B (c.goto (.fetch i)) (.advance obj pid)
        (c.goto (.kill (if i < B.maxTaskCount then c.kernel.taskId i else pid))) := by
      apply advance_goto hth
      simp only [System.advance, goto_pc, goto_goto]
      rfl
    have hkill := hstop.snoc hfetch
    rw [← List.replicate_succ'] at hkill
    have hpc : (taskKill B c.kernel obj pid p).pc =
        .kill (if i < B.maxTaskCount then c.kernel.taskId i else pid) := by
      rw [taskKill, if_neg (not_not.mpr ho)]
      rfl
    rw [hpc]
    exact ⟨_, hkill.cons hcall⟩
  · rw [if_neg ho] at hstop
    have hpc : (taskKill B c.kernel obj pid p).pc = .out := by
      rw [taskKill, if_pos ho]
      rfl
    rw [hpc]
    exact ⟨_, hstop.cons hcall⟩

end Statements

end Kill

section Start

def Occupies (B : Build) (s t : KernelState) (p : ℕ) : Prop :=
  ∃ i, Holds B t p i ∧ s.state i = .idle ∧ ∀ k, Holds B t p k → k = i

/-- What stands against starting the object, with the error for it. -/
inductive Obstacle (B : Build) (s : KernelState) (p : ℕ) : ℕ → Prop
  | running (h : ∃ i < B.maxTaskCount, s.taskObj i = p) : Obstacle B s p errorProcessAlreadyRunning
  | full (h : B.maxTaskCount ≤ s.taskCount) : Obstacle B s p errorMaxProcessCount
  | priority (h : 127 < (s.objs p).priority) : Obstacle B s p errorInvalidTaskPriority
  | base (h : (s.objs p).priority = 0) (hf : s.firstStart = true) :
      Obstacle B s p errorInvalidTaskPriority
  | stack (h : slotStack B s (idleSlot B s) = 0) : Obstacle B s p errorOutOfMemory

structure SameTables (s t : KernelState) : Prop where
  state : t.state = s.state
  jmpList : t.jmpList = s.jmpList
  levelStash : t.levelStash = s.levelStash
  prioCurrent : t.prioCurrent = s.prioCurrent
  prioStashed : t.prioStashed = s.prioStashed
  taskObj : t.taskObj = s.taskObj
  taskId : t.taskId = s.taskId
  pspArray : t.pspArray = s.pspArray
  lstashPtr : t.lstashPtr = s.lstashPtr
  taskCount : t.taskCount = s.taskCount
  totalTaskCount : t.totalTaskCount = s.totalTaskCount
  maxLevel : t.maxLevel = s.maxLevel
  alc : t.alc = s.alc
  hlc : t.hlc = s.hlc

/-- ERROR_NONE tells of a task that has been started; any other answer tells why none has been, with
every table as before. -/
def Reports (B : Build) (s : KernelState) (p : ℕ) (r : Option (ℕ × KernelState)) : Prop :=
  ∃ error t, r = some (error, t) ∧ (error = errorNone ↔ Occupies B s t p) ∧
    (¬ Occupies B s t p → Obstacle B s p error ∧ SameTables s t)

structure Startable (B : Build) (s : KernelState) (p : ℕ) : Prop where
  count : s.taskCount < B.maxTaskCount
  priority : (s.objs p).priority ≤ 127
  base : (s.objs p).priority = 0 → s.firstStart = false
  awake : (s.objs p).hibernate &&& hibernateStateMask ≠ hibernateStateMask
  slot : ∃ i < B.maxTaskCount, s.state i = .idle
  stack : slotStack B s (idleSlot B s) ≠ 0
  levels : InTable B s (s.objs p).priority

variable (hfree : ¬ ∃ i < B.maxTaskCount, s.taskObj i = p)
include hfree

lemma not_occupies (h : t.taskObj = s.taskObj) : ¬ Occupies B s t p := by
  rintro ⟨i, hi, -⟩
  exact hfree ⟨i, hi.1.1, h ▸ hi.2⟩

lemma not_reports (h : t.taskObj = s.taskObj) : ¬ Reports B s p (some (errorNone, t)) := by
  rintro ⟨error, u, hr, hiff, -⟩
  obtain ⟨rfl, rfl⟩ := Prod.mk.inj (Option.some.inj hr)
  exact not_occupies hfree h (hiff.mp rfl)

lemma taskStartArg_free : taskStartArg B s p arg =
    (svcServiceTaskCreate B ⟨svcCreateTask, p, arg, 0, 0⟩ s).map fun r => (errorNone, r.2.2) := by
  rw [taskStartArg, if_neg hfree, svc_createTask, Option.map_map]
  rfl

omit hfree in
lemma idleSlot_lt_of (h : ∃ i < B.maxTaskCount, s.state i = .idle) : idleSlot B s < B.maxTaskCount := by
  obtain ⟨i, hi, hidle⟩ := h
  have hle : idleSlot B s ≤ i := firstIndex_le_of (by simpa using hidle)
  exact hle.trans_lt hi

lemma create_starts (arg : ℕ) (h : Startable B s p) (hptr : s.lstashPtr < 256) :
    ∃ ptr stash, taskStartArg B s p arg = some (errorNone, fillSlot B s p arg ptr stash) := by
  obtain ⟨⟨ptr, stash⟩, hins⟩ := Option.ne_none_iff_exists'.mp ((insertLevel_ne_none hptr).mpr h.levels)
  have hok : ¬ (127 < (s.objs p).priority ∨ (s.objs p).priority = 0 ∧ s.firstStart = true) := by
    rintro (hgt | ⟨h0, hf⟩)
    · exact absurd h.priority (not_le.mpr hgt)
    · exact absurd ((h.base h0).symm.trans hf) (by decide)
  have hslot := idleSlot_lt_of h.slot
  refine ⟨ptr, stash, ?_⟩
  rw [taskStartArg_free hfree]
  simp only [svcServiceTaskCreate, if_pos h.count, if_neg hok, if_neg (not_le.mpr hslot), if_neg h.stack,
    hins]
  rfl

lemma started_occupies {ptr : ℕ} {stash : ℕ → ℕ} (h : Startable B s p) :
    Occupies B s (fillSlot B s p arg ptr stash) p := by
  have hslot := idleSlot_lt_of h.slot
  have hobj : (fillSlot B s p arg ptr stash).taskObj = update s.taskObj (idleSlot B s) p := rfl
  have hstate : (fillSlot B s p arg ptr stash).state = update s.state (idleSlot B s) .sleep := if_pos h.awake
  refine ⟨idleSlot B s, ⟨⟨hslot, ?_⟩, ?_⟩, Table.idleSlot_idle hslot, fun k hk => ?_⟩
  · rw [hstate, update_self]
    decide
  · rw [hobj, update_self]
  · by_contra hne
    have hkp := hk.2
    rw [hobj, update_of_ne hne] at hkp
    exact hfree ⟨k, hk.1.1, hkp⟩

lemma idle_not_occupies {ptr : ℕ} {stash : ℕ → ℕ} (hslot : idleSlot B s < B.maxTaskCount)
    (h : (s.objs p).hibernate &&& hibernateStateMask = hibernateStateMask) :
    ¬ Occupies B s (fillSlot B s p arg ptr stash) p := by
  rintro ⟨i, ⟨hlive, hobj⟩, -⟩
  change update s.taskObj (idleSlot B s) p i = p at hobj
  rcases eq_or_ne i (idleSlot B s) with rfl | hne
  · have hstate : (fillSlot B s p arg ptr stash).state = s.state := if_neg (not_not.mpr h)
    apply hlive.2
    rw [hstate]
    exact Table.idleSlot_idle hslot
  · rw [update_of_ne hne] at hobj
    exact hfree ⟨i, hlive.1, hobj⟩

lemma startable_of_reports (arg : ℕ) (hptr : s.lstashPtr < 256) (h : Reports B s p (taskStartArg B s p arg)) :
    Startable B s p := by
  rw [taskStartArg_free hfree] at h
  simp only [svcServiceTaskCreate] at h
  split_ifs at h with hcount hprio hslot hstack
  · exact (not_reports hfree (by rfl) h).elim
  · obtain ⟨_, _, hnone, -⟩ := h
    cases hnone
  · exact (not_reports hfree (by rfl) h).elim
  · rw [not_or, not_lt, not_and] at hprio
    rw [not_le] at hslot
    cases hins : insertLevel B s (s.objs p).priority with
    | none =>
      rw [hins] at h
      obtain ⟨_, _, hnone, -⟩ := h
      cases hnone
    | some r =>
      rw [hins] at h
      obtain ⟨error, t, hr, hiff, -⟩ := h
      obtain ⟨rfl, rfl⟩ := Prod.mk.inj (Option.some.inj hr)
      refine ⟨hcount, hprio.1, fun h0 => by simpa using hprio.2 h0, fun hhib => ?_,
        ⟨_, hslot, Table.idleSlot_idle hslot⟩, hstack,
        (insertLevel_ne_none hptr).mp (by rw [hins]; exact Option.some_ne_none _)⟩
      exact idle_not_occupies hfree hslot hhib (hiff.mp rfl)
  · exact (not_reports hfree (by rfl) h).elim

end Start

lemma reports_running (h : ∃ i < B.maxTaskCount, s.taskObj i = p) :
    Reports B s p (taskStartArg B s p arg) := by
  have hno : ¬ Occupies B s s p := by
    rintro ⟨i, hi, hidle, -⟩
    exact hi.1.2 hidle
  refine ⟨errorProcessAlreadyRunning, s, if_pos h, ⟨nofun, fun ho => absurd ho hno⟩, fun _ => ?_⟩
  exact ⟨.running h, ⟨rfl, rfl, rfl, rfl, rfl, rfl, rfl, rfl, rfl, rfl, rfl, rfl, rfl, rfl⟩⟩

lemma reports_iff (arg : ℕ) (hptr : s.lstashPtr < 256) : Reports B s p (taskStartArg B s p arg) ↔
    (∃ i < B.maxTaskCount, s.taskObj i = p) ∨ Startable B s p := by
  by_cases hheld : ∃ i < B.maxTaskCount, s.taskObj i = p
  · exact iff_of_true (reports_running hheld) (Or.inl hheld)
  · rw [or_iff_right hheld]
    refine ⟨startable_of_reports hheld arg hptr, fun h => ?_⟩
    obtain ⟨ptr, stash, hr⟩ := create_starts hheld arg h hptr
    have hocc : Occupies B s (fillSlot B s p arg ptr stash) p := started_occupies hheld h
    exact ⟨_, _, hr, iff_of_true rfl hocc, fun hno => absurd hocc hno⟩

variable {mem : ℕ → ℕ} {objs : ℕ → TaskObject} {stack : ℕ → ℕ}

/-- In every state a kernel can reach `task_start` tells the truth if and only if the object is in the
table already, or can be started. -/
theorem task_start_reports (h : Run (Step B) (bootState B mem objs stack) es s) :
    (Reports B s p (taskStart B s p) ↔
      (∃ i < B.maxTaskCount, s.taskObj i = p) ∨ Startable B s p) ∧
    ∀ arg, (Reports B s p (taskStartArg B s p arg) ↔
      (∃ i < B.maxTaskCount, s.taskObj i = p) ∨ Startable B s p) :=
  ⟨reports_iff 0 (lstashPtr_run h), fun arg => reports_iff arg (lstashPtr_run h)⟩

section Instances

def fiveSlots : Build := Build.five

def boot : KernelState :=
  bootState fiveSlots (fun _ => 0) (fun _ => ⟨0, 0, 1, 0, 0, 0, 0, 0⟩) (fun _ => 0)

def demanding : KernelState :=
  { boot with objs := update boot.objs 10 ⟨0, 0, 200, 0, 0, 0, 0, 0⟩ }

lemma run_demanding : Run (Step fiveSlots) boot [.fillTask 10 ⟨0, 0, 200, 0, 0, 0, 0, 0⟩] demanding :=
  .single ⟨0, rfl⟩

theorem task_start_reports_boot : Run (Step fiveSlots) boot [] boot ∧
    (Reports fiveSlots boot 10 (taskStart fiveSlots boot 10) ↔
      (∃ i < fiveSlots.maxTaskCount, boot.taskObj i = 10) ∨ Startable fiveSlots boot 10) ∧
    ∀ arg, (Reports fiveSlots boot 10 (taskStartArg fiveSlots boot 10 arg) ↔
      (∃ i < fiveSlots.maxTaskCount, boot.taskObj i = 10) ∨ Startable fiveSlots boot 10) :=
  ⟨.nil, task_start_reports .nil⟩

/-- A start that is refused for its priority returns ERROR_NONE. -/
theorem task_start_reports_fails : ∃ es, Run (Step fiveSlots) boot es demanding ∧
    ¬ Reports fiveSlots demanding 10 (taskStart fiveSlots demanding 10) := by
  refine ⟨_, run_demanding, fun h => ?_⟩
  have hfree : ¬ ∃ i < fiveSlots.maxTaskCount, demanding.taskObj i = 10 := by decide +kernel
  have hstart := startable_of_reports hfree 0 (by decide +kernel) h
  have hprio : ¬ (demanding.objs 10).priority ≤ 127 := by decide
  exact hprio hstart.priority

/-- NULL is the object of every idle slot, and the id of an idle slot is that of the base task. -/
theorem task_kill_resolves_fails : Run (Step fiveSlots) boot [] boot ∧
    (¬ ∃ k, Holds fiveSlots boot 0 k) ∧ ¬ Resolves fiveSlots boot 0 (taskKill fiveSlots boot 7 7 0) ∧
    ((taskKill fiveSlots boot 7 7 0).after fiveSlots boot).map (fun t => t.state 0) = some .idle := by
  have hnone : ¬ ∃ k, Holds fiveSlots boot 0 k := by
    rintro ⟨k, hk⟩
    have hall : ∀ k < fiveSlots.maxTaskCount, ¬ Holds fiveSlots boot 0 k := by decide +kernel
    exact hall k hk.1.1 hk
  have hkills : (taskKill fiveSlots boot 7 7 0).service = some 0 := by decide +kernel
  refine ⟨.nil, hnone, fun h => ?_, by decide +kernel⟩
  rw [(h.idle hnone).2] at hkills
  cases hkills

end Instances

end Skibios.Tasks.Calls
