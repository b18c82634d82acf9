import Skibios.Sharing.Waiters

/-! What KILL_TASK leaves of a promotion: it rebuilds `max_level` from the priorities and knows
nothing of `mutex_stash`, `maxp_level` and the tasks in HOLD. -/

namespace Skibios.Promotion.Orphans

open Function Library.Words Library.Loops Library.Runs
open Kernel State TaskServices Services Scheduler Events Effects
open Tasks Invariants Counters Rungs Sharing Waiters

variable {B : Build} {s t : KernelState} {i k ptr : ℕ} {stash : ℕ → ℕ} {f : Bool}

/-- The kill of the task in slot `i` leaves no waiter and no promotion of that task behind. -/
structure Orphanless (B : Build) (s t : KernelState) (i : ℕ) : Prop where
  waiters : ∀ k < B.maxTaskCount, Promoted s i → ¬ WaitsOn t (s.mutexStash i) k
  stash : t.mutexStash i = 0
  levels : (∀ k, Live B t k → ¬ Promoted t k) →
    t.maxpLevel = 127 ∧ Top B t.prioCurrent t.state t.maxLevel ∧ 127 < promotedLevel t

lemma dropped_top (hc : Live B s s.currentTask) (hne : s.currentTask ≠ i) :
    Top B (dropTask B s i f ptr stash).prioCurrent (dropTask B s i f ptr stash).state
      (dropTask B s i f ptr stash).maxLevel := by
  apply highestLevel_top
  exact ⟨s.currentTask, hc.1, (CountersExact.update_ne_idle_iff _ _ _).mpr ⟨hc.2, hne⟩⟩

lemma promotedLevel_of_base (h : t.maxpLevel = 127) : promotedLevel t = 128 := by
  rw [promotedLevel, if_pos h]
  rfl

lemma dropped_levels (hc : Live B s s.currentTask) (hne : s.currentTask ≠ i) :
    ((∀ k, Live B (dropTask B s i f ptr stash) k → ¬ Promoted (dropTask B s i f ptr stash) k) →
      (dropTask B s i f ptr stash).maxpLevel = 127 ∧
        Top B (dropTask B s i f ptr stash).prioCurrent (dropTask B s i f ptr stash).state
          (dropTask B s i f ptr stash).maxLevel ∧
        127 < promotedLevel (dropTask B s i f ptr stash)) ↔
      (∃ k, Live B s k ∧ k ≠ i ∧ Promoted s k) ∨ s.maxpLevel = 127 := by
  have hsaved : (dropTask B s i f ptr stash).maxpLevel = s.maxpLevel := rfl
  constructor
  · intro h
    by_cases hex : ∃ k, Live B s k ∧ k ≠ i ∧ Promoted s k
    · exact Or.inl hex
    · right
      rw [← hsaved]
      refine (h fun k hk hp => hex ⟨k, ?_⟩).1
      obtain ⟨hl, hki⟩ := dropped_live.mp hk
      exact ⟨hl, hki, hp⟩
  · rintro (⟨k, hk, hki, hp⟩ | hbase) hnone
    · exact absurd hp (hnone k (dropped_live.mpr ⟨hk, hki⟩))
    · refine ⟨hsaved.trans hbase, dropped_top hc hne, ?_⟩
      rw [promotedLevel_of_base (hsaved.trans hbase)]
      omega

/-- A kill by a live task leaves nothing of a promotion behind if and only if the victim was not
promoted and either somebody else still is or no level had been saved. -/
theorem kill_orphans {pid : ℕ} (hc : Live B s s.currentTask)
    (hne : slotNumber pid ≠ s.currentTask)
    (hstep : Step B s (.killTask pid) t) :
    Orphanless B s t (slotNumber pid) ↔ ¬ Promoted s (slotNumber pid) ∧
      ((∃ k, Live B s k ∧ k ≠ slotNumber pid ∧ Promoted s k) ∨ s.maxpLevel = 127) := by
  cases step_effect hstep with
  | @killed _ ptr stash hth hk =>
    have hlevels := @dropped_levels B s _ ptr stash s.selfKill hc hne.symm
    constructor
    · intro h
      exact ⟨fun hp => hp h.stash, hlevels.mp h.levels⟩
    · rintro ⟨hp, hrest⟩
      exact ⟨fun _ _ hp' => absurd hp' hp, not_not.mp hp, hlevels.mpr hrest⟩

section Instances

def sixSlots : Build := Build.six

def created (p priority : ℕ) : List Event :=
  [.fillTask p ⟨0, 0, priority, 0, 0, 0, 0, 0⟩, .createTask p 0]

def switch : List Event := [.scheduler, .contextSwitch]

def boot : KernelState :=
  bootState sixSlots (fun _ => 0) (fun _ => ⟨0, 0, 1, 0, 0, 0, 0, 0⟩) (fun _ => 0)

def opening : List Event :=
  created 10 1 ++ created 11 5 ++ [.startScheduler] ++ switch ++ [.hibernate 2 100 101 1] ++ switch

/-- Slot 1 locks 200, slot 2 wakes and promotes it, and slot 1 sleeps with the mutex taken: the base
task runs. -/
def holding : List Event :=
  opening ++ [.mutexLock 200, .store 100 1, .tick, .contextSwitch, .mutexLock 200, .promote 200] ++
    switch ++ [.hibernate 2 102 103 1] ++ switch

def bystander : List Event := holding ++ created 12 1

def plain : KernelState := after sixSlots 20 (Regular sixSlots) boot (opening ++ [.handOver] ++ switch)
def held : KernelState := after sixSlots 20 (Regular sixSlots) boot holding
def watched : KernelState := after sixSlots 20 (Regular sixSlots) boot bystander

/-- A kill while nobody is promoted, and the kill of slot 3 while slot 1 stays promoted. -/
theorem kill_orphans_plain :
    Orphanless sixSlots plain ((step sixSlots 20 plain (.killTask 0x20003)).getD plain) 2 ∧
      Promoted watched 1 ∧
      Orphanless sixSlots watched ((step sixSlots 20 watched (.killTask 0x30004)).getD watched) 3 := by
  have hs : Live sixSlots plain plain.currentTask ∧
      slotNumber 0x20003 ≠ plain.currentTask ∧
      (step sixSlots 20 plain (.killTask 0x20003)).isSome = true ∧
      ¬ Promoted plain (slotNumber 0x20003) ∧ plain.maxpLevel = 127 := by decide +kernel
  have hw : Live sixSlots watched watched.currentTask ∧
      slotNumber 0x30004 ≠ watched.currentTask ∧
      (step sixSlots 20 watched (.killTask 0x30004)).isSome = true ∧
      ¬ Promoted watched (slotNumber 0x30004) ∧ Live sixSlots watched 1 ∧ Promoted watched 1 := by
    decide +kernel
  refine ⟨(kill_orphans hs.1 hs.2.1 (step_getD hs.2.2.1)).mpr ⟨hs.2.2.2.1, Or.inr hs.2.2.2.2⟩,
    hw.2.2.2.2.2, (kill_orphans hw.1 hw.2.1 (step_getD hw.2.2.1)).mpr ⟨hw.2.2.2.1, Or.inl ?_⟩⟩
  exact ⟨1, hw.2.2.2.2.1, by decide, hw.2.2.2.2.2⟩

/-- The base task kills the promoted holder: the waiter stays in HOLD, the entry of `mutex_stash`
stays, and the next promotion raises its holder to 6. -/
theorem kill_orphans_fails : ∃ t, Run (Guarded sixSlots (Regular sixSlots)) boot holding held ∧
    Live sixSlots held 1 ∧ held.currentTask = 0 ∧ Step sixSlots held (.killTask 0x10002) t ∧
      Promoted held 1 ∧ WaitsOn t (held.mutexStash 1) 2 ∧ t.mutexStash 1 = 200 ∧
      (∀ k < 6, k ≠ 1 → ¬ Promoted t k) ∧ t.maxpLevel = 5 ∧ promotedLevel t = 6 := by
  refine ⟨(step sixSlots 20 held (.killTask 0x10002)).getD held, run_after (by decide +kernel), ?_⟩
  have hs : (Live sixSlots held 1 ∧ held.currentTask = 0) ∧
      (step sixSlots 20 held (.killTask 0x10002)).isSome = true ∧ Promoted held 1 := by
    decide +kernel
  refine ⟨hs.1.1, hs.1.2, step_getD hs.2.1, hs.2.2, ?_⟩
  decide +kernel

end Instances

end Skibios.Promotion.Orphans
