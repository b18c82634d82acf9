import Skibios.Kernel.Effects

/-! `task_start` and `task_kill` as the tasks run them: the checks are made in user mode, one table
entry after the other, and only the service at the end is atomic. -/

namespace Skibios.Tasks.Objects

open Function Library.Words Library.Loops Library.Runs
open Kernel State TaskServices Services Scheduler Events Effects

inductive Pc
  | out
  -- `task_start` and `task_start_arg`: at entry `i` of the check, and before CREATE_TASK
  | check (p arg i : ℕ)
  | create (p arg : ℕ)
  -- `task_kill`: at entry `i` of the search, at the test behind it, at `task_id[i]`, before KILL_TASK
  | search (p i : ℕ)
  | test (p i : ℕ)
  | fetch (i : ℕ)
  | kill (pid : ℕ)
  deriving DecidableEq

structure System where
  kernel : KernelState
  pc : ℕ → Pc

inductive Action
  | event (e : Event)
  | start (p arg : ℕ)
  | kill (p : ℕ)
  -- the words behind `task_obj[]` and `task_id[]`, for a search that has found nothing
  | advance (obj pid : ℕ)

def isOther : Event → Bool
  | .createTask .. | .killTask _ => false
  | _ => true

def isException : Event → Bool
  | .tick | .scheduler | .contextSwitch => true
  | _ => false

namespace System

variable (B : Build) (fuel : ℕ) (c : System)

def running : ℕ := c.kernel.currentTask

def goto (p : Pc) : System := { c with pc := update c.pc c.running p }

/-- After a service; a slot whose object has changed has a new task or none. -/
def serve (t : KernelState) : System :=
  { kernel := t
    pc := fun k => if k = c.running ∨ t.taskObj k ≠ c.kernel.taskObj k then .out else c.pc k }

/-- The next statement of the running task's `task_start` or `task_kill`. -/
def advance (obj pid : ℕ) : Option System :=
  let s := c.kernel
  match c.pc c.running with
  | .out => none
  | .check p arg i =>
    if i < B.maxTaskCount then
      some (c.goto (if s.taskObj i = p then .out else .check p arg (i + 1)))
    else some (c.goto (.create p arg))
  | .create p arg => (step B fuel s (.createTask p arg)).map c.serve
  | .search p i =>
    if i < B.maxTaskCount then
      some (c.goto (if s.taskObj i = p then .test p i else .search p (i + 1)))
    else some (c.goto (.test p i))
  | .test p i =>
    some (c.goto (if (if i < B.maxTaskCount then s.taskObj i else obj) = p then .fetch i else .out))
  | .fetch i => some (c.goto (.kill (if i < B.maxTaskCount then s.taskId i else pid)))
  | .kill pid => (step B fuel s (.killTask pid)).map c.serve

def move : Action → Option System
  | .event e =>
    if isOther e = true ∧ (isException e = true ∨ c.pc c.running = .out) then
      (step B fuel c.kernel e).map fun t =>
        if isException e = true then { c with kernel := t } else c.serve t
    else none
  | .start p arg =>
    if InThread c.kernel ∧ c.pc c.running = .out then some (c.goto (.check p arg 0)) else none
  | .kill p =>
    if InThread c.kernel ∧ c.pc c.running = .out then some (c.goto (.search p 0)) else none
  | .advance obj pid => if InThread c.kernel then c.advance B fuel obj pid else none

end System

def Move (B : Build) (c : System) (a : Action) (d : System) : Prop :=
  ∃ fuel, c.move B fuel a = some d

def System.initial (s : KernelState) : System := ⟨s, fun _ => .out⟩

def Unused (B : Build) (s : KernelState) (p : ℕ) : Prop := ∀ i < B.maxTaskCount, s.taskObj i ≠ p

instance (B : Build) (s : KernelState) : DecidablePred (Unused B s) :=
  fun p => inferInstanceAs (Decidable (∀ i < B.maxTaskCount, s.taskObj i ≠ p))

/-- An object is set up by the application while no slot holds it. -/
def Owned (B : Build) (c : System) : Action → Prop
  | .event (.fillTask p _) => Unused B c.kernel p
  | _ => True

instance (B : Build) (c : System) (a : Action) : Decidable (Owned B c a) :=
  match a with
  | .event (.fillTask _ _) => inferInstanceAs (Decidable (Unused _ _ _))
  | .event (.createTask ..) | .event .startScheduler | .event (.killTask _) | .event .endTask
  | .event (.hibernate ..) | .event .handOver | .event (.invokeBase _) | .event (.releaseBase _)
  | .event (.grantPermission ..) | .event (.promote _) | .event (.mutexLock _)
  | .event (.clearMutex _) | .event (.unlockTest _) | .event (.store ..) | .event .tick
  | .event .scheduler | .event .contextSwitch | .start .. | .kill _ | .advance .. => isTrue trivial

/-- When CREATE_TASK is issued no slot holds the object. -/
def FreshAt (B : Build) (s : KernelState) : Pc → Prop
  | .create p _ => Unused B s p
  | _ => True

instance (B : Build) (s : KernelState) : DecidablePred (FreshAt B s)
  | .create p _ => inferInstanceAs (Decidable (Unused B s p))
  | .out | .check .. | .search .. | .test .. | .fetch _ | .kill _ => isTrue trivial

/-- Nobody has started the object between the check of `task_start` and its service. -/
def Fresh (B : Build) (c : System) : Action → Prop
  | .advance .. => FreshAt B c.kernel (c.pc c.running)
  | _ => True

instance (B : Build) (c : System) (a : Action) : Decidable (Fresh B c a) :=
  match a with
  | .advance .. => inferInstanceAs (Decidable (FreshAt _ _ _))
  | .event _ | .start .. | .kill _ => isTrue trivial

/-- Objects are in one slot at most, and carry its id. -/
structure Registered (B : Build) (s : KernelState) : Prop where
  distinct : ∀ i < B.maxTaskCount, ∀ j < B.maxTaskCount, s.taskObj i ≠ 0 →
    s.taskObj i = s.taskObj j → i = j
  ids : ∀ i < B.maxTaskCount, s.taskObj i ≠ 0 → (s.objs (s.taskObj i)).taskId = s.taskId i

variable {B : Build} {s t : KernelState} {e : Event} {c d : System} {a : Action} {as : List Action}
variable {i p : ℕ}

namespace Registered

lemma keep (h : Registered B s) (ho : t.taskObj = s.taskObj) (hi : t.taskId = s.taskId)
    (hf : ∀ i < B.maxTaskCount, (t.objs (s.taskObj i)).taskId = (s.objs (s.taskObj i)).taskId) :
    Registered B t := by
  constructor
  · rw [ho]
    exact h.distinct
  · intro i hi' h0
    rw [ho] at h0 ⊢
    rw [hf i hi', hi]
    exact h.ids i hi' h0

lemma fill (h : Registered B s) {arg ptr : ℕ} {stash : ℕ → ℕ} (hp : Unused B s p) :
    Registered B (fillSlot B s p arg ptr stash) := by
  have hobj : (fillSlot B s p arg ptr stash).taskObj = update s.taskObj (idleSlot B s) p := rfl
  have hid : (fillSlot B s p arg ptr stash).taskId =
      update s.taskId (idleSlot B s) (newTaskId s (idleSlot B s)) := rfl
  have hobjs : (fillSlot B s p arg ptr stash).objs =
      update s.objs p { s.objs p with taskId := newTaskId s (idleSlot B s) } := rfl
  constructor
  · intro i hi j hj h0 he
    rw [hobj] at h0 he
    rcases eq_or_ne i (idleSlot B s) with rfl | hin <;> rcases eq_or_ne j (idleSlot B s) with rfl | hjn
    · rfl
    · rw [update_self, update_of_ne hjn] at he
      exact absurd he.symm (hp j hj)
    · rw [update_self, update_of_ne hin] at he
      exact absurd he (hp i hi)
    · rw [update_of_ne hin] at h0 he
      rw [update_of_ne hjn] at he
      exact h.distinct i hi j hj h0 he
  · intro i hi h0
    rw [hobj, hid, hobjs] at *
    rcases eq_or_ne i (idleSlot B s) with rfl | hin
    · rw [update_self, update_self, update_self]
    · rw [update_of_ne hin] at h0 ⊢
      rw [update_of_ne hin, update_of_ne (hp i hi)]
      exact h.ids i hi h0

lemma drop (h : Registered B s) {f : Bool} {ptr : ℕ} {stash : ℕ → ℕ} (hk : i < B.maxTaskCount)
    (hobj : s.taskObj i ≠ 0) : Registered B (dropTask B s i f ptr stash) := by
  have ho : (dropTask B s i f ptr stash).taskObj = update s.taskObj i 0 := rfl
  have hid : (dropTask B s i f ptr stash).taskId = update s.taskId i 0 := rfl
  have hobjs : (dropTask B s i f ptr stash).objs =
      update s.objs (s.taskObj i) { s.objs (s.taskObj i) with taskId := 0 } := rfl
  constructor
  · intro j hj k hk' h0 he
    rw [ho] at h0 he
    rcases eq_or_ne j i with rfl | hjn
    · simp at h0
    rcases eq_or_ne k i with rfl | hkn
    · rw [update_self] at he
      exact absurd he h0
    · rw [update_of_ne hjn] at h0 he
      rw [update_of_ne hkn] at he
      exact h.distinct j hj k hk' h0 he
  · intro j hj h0
    rw [ho] at h0 ⊢
    rcases eq_or_ne j i with rfl | hjn
    · simp at h0
    · rw [update_of_ne hjn] at h0 ⊢
      have hne : s.taskObj j ≠ s.taskObj i := fun he => hjn (h.distinct j hj i hk h0 he)
      rw [hid, hobjs, update_of_ne hjn, update_of_ne hne]
      exact h.ids j hj h0

lemma step (h : Registered B s) (hc : ∀ p arg, e = .createTask p arg → Unused B s p)
    (hf : ∀ p o, e = .fillTask p o → Unused B s p) (he : Effect B s e t) : Registered B t := by
  cases he with
  | @refused p arg err psp =>
    refine h.keep rfl rfl fun i _ => ?_
    change (update s.objs p { s.objs p with error := err } (s.taskObj i)).taskId = _
    rcases eq_or_ne (s.taskObj i) p with heq | hne
    · rw [heq, update_self]
    · rw [update_of_ne hne]
  | @created p arg => exact h.fill (hc p arg rfl)
  | killed _ hk => exact h.drop hk.slot hk.object
  | @ended ptr stash _ hk =>
    refine (@drop _ _ _ h true ptr stash hk.slot hk.object).keep rfl rfl ?_
    exact fun _ _ => rfl
  | @filled p o =>
    refine h.keep rfl rfl fun i hi => ?_
    change (update s.objs p o (s.taskObj i)).taskId = _
    rw [update_of_ne (hf p o rfl i hi)]
  | ticked _ _ hs | scheduled _ _ hs =>
    obtain ⟨⟨st, a, b, hframe⟩, -⟩ := hs.wakes
    refine h.keep ?_ ?_ fun _ _ => ?_ <;> rw [hframe] <;> rfl
  | demoted | released =>
    refine h.keep ?_ ?_ fun _ _ => ?_ <;>
      dsimp only [handOverState, demoteCurrent, answerState]
  | _ => exact h.keep rfl rfl fun _ _ => rfl

end Registered

lemma move_kernel (h : Move B c a d) : d.kernel = c.kernel ∨
    (∃ obj pid p arg, a = .advance obj pid ∧ c.pc c.running = .create p arg ∧
      Step B c.kernel (.createTask p arg) d.kernel) ∨
    (∃ pid, Step B c.kernel (.killTask pid) d.kernel) ∨
    ∃ e, a = .event e ∧ isOther e = true ∧ Step B c.kernel e d.kernel := by
  obtain ⟨fuel, h⟩ := h
  cases a with
  | event e =>
    simp only [System.move] at h
    split_ifs at h with hok
    all_goals
      obtain ⟨t, ht, rfl⟩ := Option.map_eq_some_iff.mp h
      exact Or.inr (Or.inr (Or.inr ⟨e, rfl, hok.1, fuel, ht⟩))
  | start p arg =>
    simp only [System.move] at h
    split_ifs at h
    obtain rfl := Option.some.inj h
    exact Or.inl rfl
  | kill p =>
    simp only [System.move] at h
    split_ifs at h
    obtain rfl := Option.some.inj h
    exact Or.inl rfl
  | advance obj pid =>
    simp only [System.move] at h
    split_ifs at h
    unfold System.advance at h
    cases hpc : c.pc c.running with
    | out => simp [hpc] at h
    | create p arg =>
      simp only [hpc] at h
      obtain ⟨t, ht, rfl⟩ := Option.map_eq_some_iff.mp h
      exact Or.inr (Or.inl ⟨obj, pid, p, arg, rfl, rfl, fuel, ht⟩)
    | kill pid' =>
      simp only [hpc] at h
      obtain ⟨t, ht, rfl⟩ := Option.map_eq_some_iff.mp h
      exact Or.inr (Or.inr (Or.inl ⟨pid', fuel, ht⟩))
    | check p arg i | search p i =>
      left
      simp only [hpc] at h
      split at h <;> obtain rfl := Option.some.inj h <;> rfl
    | test p i | fetch i =>
      left
      simp only [hpc] at h
      obtain rfl := Option.some.inj h
      rfl

lemma Registered.move (h : Registered B c.kernel) (hown : Owned B c a) (hfresh : Fresh B c a)
    (hm : Move B c a d) : Registered B d.kernel := by
  rcases move_kernel hm with hk | ⟨obj, pid, p, arg, rfl, hpc, hs⟩ | ⟨pid, hs⟩ | ⟨e, rfl, ho, hs⟩
  · rw [hk]
    exact h
  · have hp : FreshAt B c.kernel (c.pc c.running) := hfresh
    rw [hpc] at hp
    refine h.step (e := .createTask p arg) ?_ nofun (step_effect hs)
    rintro p' arg' he
    cases he
    exact hp
  · exact h.step (e := .killTask pid) nofun nofun (step_effect hs)
  · refine h.step ?_ ?_ (step_effect hs)
    · rintro p arg rfl
      cases ho
    · rintro p o rfl
      exact hown

section Boot

variable (B : Build) (mem : ℕ → ℕ) (objs : ℕ → TaskObject) (stack : ℕ → ℕ)

lemma boot_registered : Registered B (bootState B mem objs stack) := by
  have hs : beforeBase B mem objs stack = _ := beforeBase_eq B mem objs stack
  have hobj : (bootState B mem objs stack).taskObj = update (fun _ => 0) 0 B.baseTask := by
    change update (beforeBase B mem objs stack).taskObj 0 B.baseTask = _
    rw [hs]
    rfl
  have honly : ∀ i, (bootState B mem objs stack).taskObj i ≠ 0 → i = 0 := by
    intro i h0
    by_contra hne
    rw [hobj, update_of_ne hne] at h0
    exact h0 rfl
  constructor
  · intro i _ j _ h0 he
    rw [honly i h0, honly j (he ▸ h0)]
  · intro i _ h0
    obtain rfl := honly i h0
    rw [hobj, update_self]
    change (update (beforeBase B mem objs stack).objs B.baseTask _ B.baseTask).taskId = _
    rw [update_self]
    rfl

end Boot

def Admitted (B : Build) (ok : System → Action → Prop) (c : System) (a : Action) (d : System) :
    Prop :=
  (Owned B c a ∧ ok c a) ∧ Move B c a d

variable {mem : ℕ → ℕ} {objs : ℕ → TaskObject} {stack : ℕ → ℕ}

/-- Where nobody starts an object between the check and the service of another start of it, no
object is ever in two slots. -/
theorem objects_registered
    (h : Run (Admitted B (Fresh B)) (System.initial (bootState B mem objs stack)) as c) :
    Registered B c.kernel := by
  refine h.invariant (I := fun c => Registered B c.kernel) ?_ (boot_registered B mem objs stack)
  exact fun c a d hc ha => hc.move ha.1.1 ha.1.2 ha.2

section Instances

def fiveSlots : Build := Build.five

def boot : System :=
  .initial (bootState fiveSlots (fun _ => 0) (fun _ => ⟨0, 0, 1, 0, 0, 0, 0, 0⟩) (fun _ => 0))

def statements (n : ℕ) : List Action := List.replicate n (.advance 0 0)

def start (p : ℕ) : List Action :=
  [.event (.fillTask p ⟨0, 0, 1, 0, 0, 0, 0, 0⟩), .start p 0] ++ statements 7

def preempt : List Action := [.event .tick, .event .contextSwitch]

def two : List Action :=
  start 10 ++ start 11 ++ [.event .startScheduler, .event .scheduler, .event .contextSwitch]

/-- Slot 1 starts 12 and is preempted behind the check; slot 2 starts 12 completely. -/
def race : List Action :=
  two ++ [.start 12 0] ++ statements 6 ++ preempt ++ [.start 12 0] ++ statements 7 ++ preempt ++
    preempt ++ statements 1

def admittedStep (ok : System → Action → Prop) [∀ c a, Decidable (ok c a)] (c : System) (a : Action) :
    Option System :=
  if Owned fiveSlots c a ∧ ok c a then c.move fiveSlots 20 a else none

lemma admittedStep_sound {ok : System → Action → Prop} [∀ c a, Decidable (ok c a)] (c : System)
    (a : Action) (d : System) (h : admittedStep ok c a = some d) : Admitted fiveSlots ok c a d := by
  unfold admittedStep at h
  split_ifs at h with hok
  exact ⟨hok, 20, h⟩

theorem objects_registered_two : ∃ c : System,
    (c.kernel.taskObj 1 = 10 ∧ c.kernel.taskObj 2 = 11) ∧ Registered fiveSlots c.kernel := by
  obtain ⟨c, hr, hc⟩ : ∃ c, Run (Admitted fiveSlots (Fresh fiveSlots)) boot two c ∧
      c.kernel.taskObj 1 = 10 ∧ c.kernel.taskObj 2 = 11 :=
    exec_any_run admittedStep_sound (by decide +kernel)
  exact ⟨c, hc, objects_registered hr⟩

theorem objects_registered_fails : ∃ c : System,
    Run (Admitted fiveSlots fun _ _ => True) boot race c ∧ c.kernel.taskObj 3 = 12 ∧
      c.kernel.taskObj 4 = 12 ∧ (c.kernel.objs 12).taskId ≠ c.kernel.taskId 3 :=
  exec_any_run admittedStep_sound (by decide +kernel)

end Instances

end Skibios.Tasks.Objects
