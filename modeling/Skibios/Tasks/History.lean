import Skibios.Tasks.Churn

/-! What the ids of the live tasks say, over every sequence of creations and ends of tasks. -/

namespace Skibios.Tasks.History

open Function Library.Words Library.Loops Library.Runs
open Kernel State TaskServices Services Scheduler SchedulerLoops Events Effects Invariants Identity

variable {B : Build} {s t : KernelState} {e : Event} {k : ℕ}

/-- The ids given out so far with their slots, the latest first. -/
abbrev Grants := List (ℕ × ℕ)

def ownEntry (log : Grants) (k : ℕ) : ℕ := log.findIdx fun g => g.1 = k

def birth (log : Grants) (k : ℕ) : ℕ := log.length - 1 - ownEntry log k

def record (B : Build) (s t : KernelState) (log : Grants) : Event → Grants
  | .createTask _ _ =>
    if t.taskCount = s.taskCount then log else (idleSlot B s, t.taskId (idleSlot B s)) :: log
  | _ => log

def Logged (B : Build) (c : KernelState × Grants) (e : Event) (d : KernelState × Grants) : Prop :=
  Guarded B (Regular B) c.1 e d.1 ∧ d.2 = record B c.1 d.1 c.2 e

/-- A live task's id names its slot, has a non-zero count, and differs from every id its slot got
among the last 65535 creations. -/
structure Identified (s : KernelState) (log : Grants) (k : ℕ) : Prop where
  slot : s.taskId k >>> 16 = k
  count : s.taskId k % 65536 ≠ 0
  fresh : ∀ j g, ownEntry log k < j → j < 65535 → log[j]? = some g → g.1 = k → g.2 ≠ s.taskId k

/-- Entry `j` of the history was given after `length - 1 - j` others. -/
structure Faithful (B : Build) (s : KernelState) (log : Grants) : Prop where
  consistent : Consistent B s
  total : s.totalTaskCount = log.length % 65536
  entries : ∀ (j : ℕ) (g : ℕ × ℕ), log[j]? = some g →
    g.1 < 65536 ∧ g.2 = idOf g.1 (log.length - 1 - j)
  own : ∀ k, Live B s k → log[ownEntry log k]? = some (k, s.taskId k)

lemma ownEntry_cons (g : ℕ × ℕ) (log : Grants) (k : ℕ) :
    ownEntry (g :: log) k = if g.1 = k then 0 else ownEntry log k + 1 := by
  by_cases h : g.1 = k <;> simp [ownEntry, List.findIdx_cons, h]

namespace Faithful

variable {log : Grants}

lemma own_id (h : Faithful B s log) (hk : Live B s k) : s.taskId k = idOf k (birth log k) :=
  (h.entries _ _ (h.own k hk)).2

lemma identified_iff (h : Faithful B s log) (hk : Live B s k) :
    Identified s log k ↔ birth log k % 65536 ≠ 65535 := by
  have hid := h.own_id hk
  have hN := B.maxTaskCount_le
  have hk' : k < 65536 := by
    have hlt := hk.1
    omega
  constructor
  · intro hi hb
    exact hi.count (by rw [hid, idOf_last hb])
  · intro hb
    refine ⟨by rw [hid, idOf_slot hk' hb], by rw [hid, idOf_mod hk']; omega, ?_⟩
    intro j g hlt hj hg hgk
    obtain ⟨-, hv⟩ := h.entries j g hg
    obtain ⟨hjl, -⟩ := List.getElem?_eq_some_iff.mp hg
    rw [hgk] at hv
    rw [hid, hv]
    unfold birth
    exact idOf_inj hk' (by omega) (by omega)

lemma create (h : Faithful B s log) {p arg ptr : ℕ} {stash : ℕ → ℕ}
    (hc : Creates B s p ptr stash) (ht : Consistent B (fillSlot B s p arg ptr stash)) :
    Faithful B (fillSlot B s p arg ptr stash) ((idleSlot B s, newTaskId s (idleSlot B s)) :: log) := by
  have hN := B.maxTaskCount_le
  have hi := hc.slot
  refine ⟨ht, ?_, ?_, fun k hk => ?_⟩
  · change uint16 (s.totalTaskCount + 1) = _
    rw [h.total, uint16, List.length_cons]
    omega
  · intro j g hg
    cases j with
    | zero =>
      rw [List.getElem?_cons_zero, Option.some.injEq] at hg
      subst hg
      exact ⟨by dsimp only; omega, newTaskId_eq h.total⟩
    | succ j =>
      rw [List.getElem?_cons_succ] at hg
      refine ⟨(h.entries j g hg).1, (h.entries j g hg).2.trans ?_⟩
      rw [List.length_cons]
      congr 1
      omega
  · rw [ownEntry_cons, fillSlot_taskId]
    rcases eq_or_ne k (idleSlot B s) with rfl | hne
    · simp
    · have hid := (ht.ids k hk.1).mpr hk.2
      rw [fillSlot_taskId, update_of_ne hne] at hid
      rw [if_neg hne.symm, List.getElem?_cons_succ, update_of_ne hne]
      exact h.own k ⟨hk.1, (h.consistent.ids k hk.1).mp hid⟩

lemma step (h : Faithful B s log) (hok : Regular B s e) (he : Effect B s e t) :
    Faithful B t (record B s t log e) := by
  have ht := h.consistent.step hok he
  rcases he.taskId with ⟨p, arg, ptr, stash, rfl, hc, rfl⟩ | hnone
  · have hN := B.maxTaskCount_le
    have hcount := hc.count
    have hne : (fillSlot B s p arg ptr stash).taskCount ≠ s.taskCount := by
      change uint16 (s.taskCount + 1) ≠ s.taskCount
      rw [uint16_eq (by omega)]
      omega
    have hrec : record B s (fillSlot B s p arg ptr stash) log (.createTask p arg) =
        (idleSlot B s, newTaskId s (idleSlot B s)) :: log := by
      rw [record, if_neg hne, fillSlot_taskId, update_self]
    rw [hrec]
    exact h.create hc ht
  · have hrec : record B s t log e = log := by
      cases e with
      | createTask p arg => exact if_pos (hnone.refused p arg rfl)
      | _ => rfl
    rw [hrec]
    refine ⟨ht, hnone.total.trans h.total, h.entries, fun k hk => ?_⟩
    obtain ⟨hlive, hid⟩ := live_kept h.consistent ht hnone hk
    rw [hid]
    exact h.own k hlive

lemma boot (B : Build) (mem : ℕ → ℕ) (objs : ℕ → TaskObject) (stack : ℕ → ℕ) :
    Faithful B (bootState B mem objs stack) [(0, 1)] := by
  obtain ⟨objs', stack', h⟩ := bootState_eq B mem objs stack
  rw [h]
  refine ⟨booted_consistent B mem objs' stack', rfl, fun j g hg => ?_, fun k hk => ?_⟩
  · cases j with
    | zero =>
      obtain rfl := Option.some.inj hg
      exact ⟨by decide, by decide⟩
    | succ j => simp at hg
  · obtain rfl := (booted_live B mem objs' stack' k).mp hk
    rfl

end Faithful

/-- Exactly the tasks created when `total_task_count` stands at 65535 are badly identified. -/
theorem identity {mem : ℕ → ℕ} {objs : ℕ → TaskObject} {stack : ℕ → ℕ} {es : List Event}
    {log : Grants} (h : Run (Logged B) (bootState B mem objs stack, [(0, 1)]) es (t, log)) :
    (∀ k, Live B t k → Identified t log k) ↔ ∀ k, Live B t k → birth log k % 65536 ≠ 65535 := by
  have hf : Faithful B t log := by
    refine h.invariant (I := fun c => Faithful B c.1 c.2) ?_ (Faithful.boot B mem objs stack)
    rintro ⟨s, log⟩ e ⟨t, log'⟩ hs ⟨hg, hrec⟩
    change log' = record B s t log e at hrec
    exact hrec ▸ hs.step hg.1 (step_effect hg.2)
  exact forall₂_congr fun k hk => hf.identified_iff hk

lemma logged_run {ok : KernelState → Event → Prop} (hok : ∀ s e, ok s e → Regular B s e)
    {es : List Event} (h : Run (Guarded B ok) s es t) (log : Grants) :
    ∃ log', Run (Logged B) (s, log) es (t, log') := by
  induction h with
  | nil => exact ⟨log, .nil⟩
  | @snoc es t u e _ he ih =>
    obtain ⟨log', hr⟩ := ih
    exact ⟨record B t u log' e, hr.snoc ⟨⟨hok _ _ he.1, he.2⟩, rfl⟩⟩

section Instances

def threeSlots : Build := Build.three

def plainObject : TaskObject := ⟨0, 0, 1, 0, 0, 0, 0, 0⟩

def blank : KernelState := bootState threeSlots (fun _ => 0) (fun _ => plainObject) (fun _ => 0)

def prepared : KernelState := { blank with objs := update blank.objs 4 plainObject }

lemma prepared_alone : Churn.Alone threeSlots prepared 4 1 :=
  Churn.booted_alone _ _ _ _ 4 plainObject (by decide) (by decide)

lemma prepared_run (log : Grants) : Run (Logged threeSlots) (blank, log) [.fillTask 4 plainObject]
    (prepared, log) :=
  Run.single ⟨⟨trivial, 0, rfl⟩, rfl⟩

def loggedStep (c : KernelState × Grants) (e : Event) : Option (KernelState × Grants) :=
  if Regular threeSlots c.1 e then
    (step threeSlots 20 c.1 e).map fun t => (t, record threeSlots c.1 t c.2 e)
  else none

lemma loggedStep_sound (c : KernelState × Grants) (e : Event) (d : KernelState × Grants)
    (h : loggedStep c e = some d) : Logged threeSlots c e d := by
  unfold loggedStep at h
  split_ifs at h with hok
  obtain ⟨t, ht, rfl⟩ := Option.map_eq_some_iff.mp h
  exact ⟨⟨hok, 20, ht⟩, rfl⟩

def reuse : List Event :=
  [.fillTask 4 plainObject, .createTask 4 0, .fillTask 5 plainObject, .createTask 5 0,
    .killTask 0x10002, .createTask 4 0]

/-- The third task gets the slot of the first one, which has been killed. -/
theorem identity_reused_slot : ∃ c : KernelState × Grants,
    c.2 = [(1, 0x10004), (2, 0x20003), (1, 0x10002), (0, 1)] ∧
      (∀ k < 3, Live threeSlots c.1 k) ∧ ∀ k, Live threeSlots c.1 k → Identified c.1 c.2 k := by
  have hexec : (exec loggedStep (blank, [(0, 1)]) reuse).any (fun c => decide
      (c.2 = [(1, 0x10004), (2, 0x20003), (1, 0x10002), (0, 1)] ∧ (∀ k < 3, Live threeSlots c.1 k) ∧
        ∀ k < 3, birth c.2 k % 65536 ≠ 65535)) = true := by decide +kernel
  obtain ⟨⟨t, log⟩, hrun, hlog, hlive, hbirth⟩ := exec_any_run loggedStep_sound hexec
  exact ⟨(t, log), hlog, hlive, (identity hrun).mpr fun k hk => hbirth k hk.1⟩

/-- The 65536th creation puts a task in slot 1 whose id has no count left in it. -/
theorem identity_fails : ¬ ∀ (B : Build) (mem : ℕ → ℕ) (objs : ℕ → TaskObject) (stack : ℕ → ℕ)
    (es : List Event) (t : KernelState) (log : Grants),
    Run (Logged B) (bootState B mem objs stack, [(0, 1)]) es (t, log) →
      ∀ k, Live B t k → Identified t log k := by
  intro h
  obtain ⟨es, s, hr, hs⟩ := prepared_alone.cycles (by decide) (by decide) 65534
  have hcreate := hs.create (by decide) (by decide)
  have hi := hs.idleSlot_eq (by decide)
  obtain ⟨log, hl⟩ := logged_run (fun _ _ hc => hc.1) (hr.snoc hcreate) [(0, 1)]
  have hid := h threeSlots _ _ _ _ _ log ((prepared_run _).append hl) 1 ⟨by decide, ?_⟩
  · refine hid.count ?_
    rw [fillSlot_taskId, hi, update_self, newTaskId_eq hs.total]
    exact idOf_last (by decide)
  · change newState s 4 (idleSlot threeSlots s) 1 ≠ .idle
    rw [hi, Table.newState_eq (hs.regular (by decide)).2, update_self]
    decide

end Instances

end Skibios.Tasks.History
