import Skibios.Kernel.Events

/-! `mutex_unlock` of the two ports: the ARM one compares addresses, the MPC one compares words. -/

namespace Skibios.Sharing.Ports

open Function Library.Words Kernel State TaskServices Services Events

/-- `mutex_unlock` of `arm-m3m4/mutex.S`: the state before the comparison, and whether
PRIORITY_DEMOTE is issued. -/
def armMutexUnlock (s : KernelState) (m : ℕ) : KernelState × Bool :=
  let t := clearMutex s m
  (t, t.mutexStash t.currentTask = m)

/-- `mutex_unlock` of `mpc57x8/mutex.S`. -/
def mpcMutexUnlock (s : KernelState) (m : ℕ) : KernelState × Bool :=
  let r7 := s.mem m
  let t := { s with mem := update s.mem m 0 }
  let r6 := t.mutexStash t.currentTask
  if r6 = 0 then (t, false)
  -- the stashed mutex is read after the store
  else (t, t.mem r6 = r7)

/-- `mutex_lock` of `mpc57x8/mutex.S`: LHARX tests the low half of the word, both halves of the id
are stored. The pair is taken to be atomic. -/
def mpcMutexLock (s : KernelState) (m : ℕ) : ℕ × KernelState :=
  if s.mem m % 65536 ≠ 0 then (1, s)
  else
    let r6 := s.taskId s.currentTask
    (0, { s with mem := update s.mem m (r6 / 65536 % 65536 * 65536 + r6 % 65536) })

/-- The rest of `mutex_unlock`, on either port. -/
def finish (B : Build) (u : KernelState × Bool) (m : ℕ) : Option KernelState :=
  if u.2 then (svc B u.1 svcPriorityDemote m 0 0 0).map Prod.snd else some u.1

variable {B : Build} {s : KernelState} {m : ℕ}

lemma finish_arm : finish B (armMutexUnlock s m) m = unlockTest B (clearMutex s m) m := by
  dsimp only [finish, armMutexUnlock, unlockTest]
  by_cases h : (clearMutex s m).mutexStash (clearMutex s m).currentTask = m
  · rw [if_pos h, if_pos (decide_eq_true h)]
  · rw [if_neg h, if_neg (by simpa using h)]

/-- Each port demotes for the stashed mutex only, and the mutex can be locked again. -/
structure Agree (s : KernelState) (m : ℕ) : Prop where
  arm : (armMutexUnlock s m).2 = true ↔ s.mutexStash s.currentTask = m
  mpc : (mpcMutexUnlock s m).2 = true ↔ s.mutexStash s.currentTask = m
  armFree : (mutexLock (armMutexUnlock s m).1 m).1 = 0
  mpcFree : (mpcMutexLock (mpcMutexUnlock s m).1 m).1 = 0

lemma arm_demotes : (armMutexUnlock s m).2 = true ↔ s.mutexStash s.currentTask = m :=
  decide_eq_true_iff

lemma arm_free : (mutexLock (armMutexUnlock s m).1 m).1 = 0 := by
  have hmem : (armMutexUnlock s m).1.mem m = s.mem m / 256 * 256 := update_self ..
  rw [mutexLock, hmem, if_neg (by omega)]

lemma mpc_mem : (mpcMutexUnlock s m).1.mem = update s.mem m 0 := by
  dsimp only [mpcMutexUnlock]
  split <;> rfl

lemma mpc_free : (mpcMutexLock (mpcMutexUnlock s m).1 m).1 = 0 := by
  rw [mpcMutexLock, mpc_mem, update_self, if_neg (by omega)]

lemma mpc_demotes : (mpcMutexUnlock s m).2 = true ↔ s.mutexStash s.currentTask ≠ 0 ∧
    update s.mem m 0 (s.mutexStash s.currentTask) = s.mem m := by
  dsimp only [mpcMutexUnlock]
  by_cases h : s.mutexStash s.currentTask = 0
  · rw [if_pos h]
    exact iff_of_false Bool.false_ne_true fun hw => hw.1 h
  · rw [if_neg h, decide_eq_true_iff]
    exact (and_iff_right h).symm

/-- The ports agree if and only if the stashed mutex, when it is the one unlocked, held the word 0,
and when it is another one, held another word. -/
theorem unlock_agree : Agree s m ↔
    (s.mutexStash s.currentTask = m → m ≠ 0 ∧ s.mem m = 0) ∧
    (s.mutexStash s.currentTask ≠ m → s.mutexStash s.currentTask ≠ 0 →
      s.mem (s.mutexStash s.currentTask) ≠ s.mem m) := by
  constructor
  · intro h
    have hmpc := mpc_demotes.symm.trans h.mpc
    constructor
    · intro hm
      obtain ⟨h0, hword⟩ := hmpc.mpr hm
      rw [hm] at h0 hword
      rw [update_self] at hword
      exact ⟨h0, hword.symm⟩
    · intro hm h0 hword
      refine hm (hmpc.mp ⟨h0, ?_⟩)
      rw [update_of_ne hm, hword]
  · rintro ⟨hsame, hother⟩
    refine ⟨arm_demotes, mpc_demotes.trans ⟨?_, ?_⟩, arm_free, mpc_free⟩
    · rintro ⟨h0, hword⟩
      by_contra hm
      rw [update_of_ne hm] at hword
      exact hother hm h0 hword
    · intro hm
      obtain ⟨h0, hword⟩ := hsame hm
      rw [hm, update_self]
      exact ⟨h0, hword.symm⟩

section Instances

def threeSlots : Build := Build.three

def promoted : KernelState :=
  { reset threeSlots (fun a => if a = 200 ∨ a = 204 then 0x10002 else 0)
      (fun _ => ⟨0, 0, 0, 0, 0, 0, 0, 0⟩) (fun _ => 0) with
    currentTask := 1
    taskId := update (fun _ => 0) 1 0x10002
    mutexStash := update (fun _ => 0) 1 200 }

/-- The MPC port does not demote for the stashed mutex, and does for the other one. -/
theorem unlock_agree_fails : (armMutexUnlock promoted 200).2 = true ∧
    (mpcMutexUnlock promoted 200).2 = false ∧ (armMutexUnlock promoted 204).2 = false ∧
    (mpcMutexUnlock promoted 204).2 = true ∧ ¬ Agree promoted 200 ∧ ¬ Agree promoted 204 := by
  have hunlock : (armMutexUnlock promoted 200).2 = true ∧ (mpcMutexUnlock promoted 200).2 = false ∧
      (armMutexUnlock promoted 204).2 = false ∧ (mpcMutexUnlock promoted 204).2 = true := by
    decide
  obtain ⟨ha, hm, ha', hm'⟩ := hunlock
  refine ⟨ha, hm, ha', hm', fun h => ?_, fun h => ?_⟩
  · have hd := h.mpc.mpr (h.arm.mp ha)
    rw [hm] at hd
    cases hd
  · have hd := h.arm.mpr (h.mpc.mp hm')
    rw [ha'] at hd
    cases hd

end Instances

end Skibios.Sharing.Ports
