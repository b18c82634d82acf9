import Skibios.Sharing.Waiters

/-! The tasks' own code: `spin_lock` and `mutex_unlock`, cut wherever a preemption can fall. -/

namespace Skibios.Sharing.Threads

open Function Library.Words Library.Runs
open Kernel State TaskServices Events Effects Tasks Invariants

/-- The reads of the two `if`s of `spin_lock`, with the priority that has been read before. -/
inductive Test
  | owner
  | ownerLevel (priority : ℕ)
  | caller
  | callerLevel (priority : ℕ)
  | limit
  deriving DecidableEq

/-- Where a task is in `share.c` and `mutex.S`; `left` is `retry - loop`. -/
inductive Pc
  | app
  | attempt (m left : ℕ)
  | readWord (m left : ℕ)
  | compare (test : Test) (m index left : ℕ)
  | promote (m left : ℕ)
  | yield (m left : ℕ)
  | unlockTest (m : ℕ)
  deriving DecidableEq

structure System where
  kernel : KernelState
  pc : ℕ → Pc
  -- `holds k m` from a successful `mutex_lock(m)` of task `k` to the end of its `mutex_unlock(m)`
  holds : ℕ → ℕ → Bool

inductive Action
  | event (e : Event)
  | lock (m retry : ℕ)
  | unlock (m : ℕ)
  | advance

/-- Exceptions fall anywhere; every other event is a call by application code. -/
def isException : Event → Bool
  | .tick | .scheduler | .contextSwitch => true
  | _ => false

def Test.next (s : KernelState) (m index left : ℕ) : Test → Pc
  | .owner => .compare (.ownerLevel (s.prioCurrent index)) m index left
  | .ownerLevel p => if p < s.maxLevel then .compare .caller m index left else .yield m left
  | .caller => .compare (.callerLevel (s.prioCurrent s.currentTask)) m index left
  | .callerLevel p => if p = s.maxLevel then .compare .limit m index left else .yield m left
  -- `continue` leaves `loop` alone
  | .limit => if 127 < s.prioCurrent index then .attempt m left else .promote m left

def filled (B : Build) (s : KernelState) (e : Event) (t : KernelState) : Option ℕ :=
  match e with
  | .createTask .. => if t.taskCount = s.taskCount then none else some (idleSlot B s)
  | _ => none

namespace System

variable (B : Build) (fuel : ℕ) (c : System)

def running : ℕ := c.kernel.currentTask

def goto (t : KernelState) (p : Pc) : System :=
  { c with kernel := t, pc := update c.pc c.running p }

def hold (m : ℕ) (b : Bool) : System :=
  { c with holds := update c.holds c.running (update (c.holds c.running) m b) }

/-- A new task begins in `app` and holds nothing, wherever the last one of its slot was killed. -/
def after (e : Event) (t : KernelState) : System :=
  match filled B c.kernel e t with
  | none => { c with kernel := t }
  | some k => ⟨t, update c.pc k .app, update c.holds k fun _ => false⟩

def advance : Option System :=
  match c.pc c.running with
  | .app => none
  | .attempt m left =>
    (step B fuel c.kernel (.mutexLock m)).map fun t =>
      if (mutexLock c.kernel m).1 = 0 then (c.hold m true).goto t .app else c.goto t (.readWord m left)
  | .readWord m left =>
    some (c.goto c.kernel (.compare .owner m (uint8 (c.kernel.mem m >>> 16)) left))
  | .compare test m index left =>
    if B.maxTaskCount ≤ index then none
    else some (c.goto c.kernel (test.next c.kernel m index left))
  | .promote m left =>
    (step B fuel c.kernel (.promote m)).map fun t => c.goto t (.yield m left)
  | .yield m left =>
    (step B fuel c.kernel .handOver).map fun t =>
      c.goto t (if left ≤ 1 then .app else .attempt m (left - 1))
  | .unlockTest m =>
    (step B fuel c.kernel (.unlockTest m)).map fun t => (c.hold m false).goto t .app

/-- `mutex_unlock` is called by the holder only. -/
def move : Action → Option System
  | .event e =>
    if isException e = true ∨ c.pc c.running = .app then
      (step B fuel c.kernel e).map fun t => c.after B e t
    else none
  | .lock m retry =>
    if InThread c.kernel ∧ c.pc c.running = .app then
      some (c.goto c.kernel (if retry = 0 then .app else .attempt m retry))
    else none
  | .unlock m =>
    if c.pc c.running = .app ∧ c.holds c.running m = true then
      (step B fuel c.kernel (.clearMutex m)).map fun t => c.goto t (.unlockTest m)
    else none
  | .advance => if InThread c.kernel then c.advance B fuel else none

end System

def Move (B : Build) (c : System) (a : Action) (d : System) : Prop :=
  ∃ fuel, c.move B fuel a = some d

def Admitted (B : Build) (ok : System → Action → Prop) (c : System) (a : Action) (d : System) : Prop :=
  ok c a ∧ Move B c a d

def reached (B : Build) (fuel : ℕ) (ok : System → Action → Prop) [∀ c a, Decidable (ok c a)]
    (c : System) (as : List Action) : System :=
  (exec (fun c a => if ok c a then c.move B fuel a else none) c as).getD c

lemma run_reached {B : Build} {fuel : ℕ} {ok : System → Action → Prop} [∀ c a, Decidable (ok c a)]
    {c : System} {as : List Action}
    (h : (exec (fun c a => if ok c a then c.move B fuel a else none) c as).isSome = true) :
    Run (Admitted B ok) c as (reached B fuel ok c as) := by
  refine exec_getD_run (fun c a d hm => ?_) h
  split_ifs at hm with hok
  exact ⟨hok, fuel, hm⟩

def System.initial (s : KernelState) : System := ⟨s, fun _ => .app, fun _ _ => false⟩

inductive Outcome (B : Build) (c : System) : Action → System → Prop
  | event {e : Event} {t : KernelState} (h : Step B c.kernel e t)
      (pc : isException e = true ∨ c.pc c.running = .app) : Outcome B c (.event e) (c.after B e t)
  | lock {m retry : ℕ} (thread : InThread c.kernel) (pc : c.pc c.running = .app) :
      Outcome B c (.lock m retry) (c.goto c.kernel (if retry = 0 then .app else .attempt m retry))
  | unlock {m : ℕ} {t : KernelState} (h : Step B c.kernel (.clearMutex m) t)
      (pc : c.pc c.running = .app) (held : c.holds c.running m = true) :
      Outcome B c (.unlock m) (c.goto t (.unlockTest m))
  | locked {m left : ℕ} {t : KernelState} (h : Step B c.kernel (.mutexLock m) t)
      (pc : c.pc c.running = .attempt m left) (free : c.kernel.mem m % 256 = 0) :
      Outcome B c .advance ((c.hold m true).goto t .app)
  | failed {m left : ℕ} {t : KernelState} (h : Step B c.kernel (.mutexLock m) t)
      (pc : c.pc c.running = .attempt m left) (taken : c.kernel.mem m % 256 ≠ 0) :
      Outcome B c .advance (c.goto t (.readWord m left))
  | wordRead {m left : ℕ} (thread : InThread c.kernel) (pc : c.pc c.running = .readWord m left) :
      Outcome B c .advance (c.goto c.kernel (.compare .owner m (uint8 (c.kernel.mem m >>> 16)) left))
  | compared {m index left : ℕ} {test : Test} (thread : InThread c.kernel)
      (pc : c.pc c.running = .compare test m index left) :
      Outcome B c .advance (c.goto c.kernel (test.next c.kernel m index left))
  | promoted {m left : ℕ} {t : KernelState} (h : Step B c.kernel (.promote m) t)
      (pc : c.pc c.running = .promote m left) : Outcome B c .advance (c.goto t (.yield m left))
  | yielded {m left : ℕ} {t : KernelState} {p : Pc} (h : Step B c.kernel .handOver t)
      (pc : c.pc c.running = .yield m left) (next : p = .app ∨ ∃ l, p = .attempt m l) :
      Outcome B c .advance (c.goto t p)
  | unlocked {m : ℕ} {t : KernelState} (h : Step B c.kernel (.unlockTest m) t)
      (pc : c.pc c.running = .unlockTest m) : Outcome B c .advance ((c.hold m false).goto t .app)

variable {B : Build} {c d : System} {a : Action} {s t : KernelState} {e : Event} {k m n index left : ℕ}

lemma Test.next_cases (test : Test) (s : KernelState) (m index left : ℕ) :
    test.next s m index left = .attempt m left ∨ test.next s m index left = .promote m left ∨
      test.next s m index left = .yield m left ∨
        ∃ after, test.next s m index left = .compare after m index left := by
  cases test with
  | owner => exact Or.inr (Or.inr (Or.inr ⟨_, rfl⟩))
  | ownerLevel p =>
    rw [Test.next]
    split
    · exact Or.inr (Or.inr (Or.inr ⟨_, rfl⟩))
    · exact Or.inr (Or.inr (Or.inl rfl))
  | caller => exact Or.inr (Or.inr (Or.inr ⟨_, rfl⟩))
  | callerLevel p =>
    rw [Test.next]
    split
    · exact Or.inr (Or.inr (Or.inr ⟨_, rfl⟩))
    · exact Or.inr (Or.inr (Or.inl rfl))
  | limit =>
    rw [Test.next]
    split
    · exact Or.inl rfl
    · exact Or.inr (Or.inl rfl)

namespace System

@[simp]
lemma after_kernel : (c.after B e t).kernel = t := by
  rw [after]
  split <;> rfl

lemma after_pc (c : System) (e : Event) (t : KernelState) (k : ℕ) :
    (c.after B e t).pc k = c.pc k ∨ (c.after B e t).pc k = .app := by
  rw [after]
  split
  · exact Or.inl rfl
  · rename_i i _
    rcases eq_or_ne k i with rfl | hne
    · exact Or.inr (update_self ..)
    · exact Or.inl (update_of_ne hne ..)

lemma after_holds (h : ∀ i, filled B c.kernel e t = some i → ∀ m, c.holds i m = false) :
    (c.after B e t).holds = c.holds := by
  rw [after]
  split
  · rfl
  · rename_i i hi
    change update c.holds i _ = c.holds
    rw [update_eq_self_iff]
    exact funext fun m => (h i hi m).symm

end System

lemma filled_idle (he : Effect B s e t) (h : filled B s e t = some k) :
    k < B.maxTaskCount ∧ s.state k = .idle := by
  cases he with
  | created _ hc =>
    rw [filled] at h
    split_ifs at h
    obtain rfl := Option.some.inj h
    exact ⟨hc.slot, Table.idleSlot_idle hc.slot⟩
  | refused =>
    change (if s.taskCount = s.taskCount then none else _) = _ at h
    rw [if_pos rfl] at h
    cases h
  | _ => cases h

lemma advance_outcome {fuel : ℕ} (hth : InThread c.kernel) (h : c.advance B fuel = some d) :
    Outcome B c .advance d := by
  unfold System.advance at h
  split at h
  · cases h
  · rename_i m left hpc
    obtain ⟨t, ht, rfl⟩ := Option.map_eq_some_iff.mp h
    unfold mutexLock
    by_cases hfree : c.kernel.mem m % 256 = 0
    · simp only [hfree, ne_eq, not_true_eq_false, if_false, if_true]
      exact .locked ⟨fuel, ht⟩ hpc hfree
    · simp only [ne_eq, hfree, not_false_eq_true, if_true, one_ne_zero, if_false]
      exact .failed ⟨fuel, ht⟩ hpc hfree
  · rename_i m left hpc
    obtain rfl := Option.some.inj h
    exact .wordRead hth hpc
  · rename_i test m index left hpc
    split_ifs at h
    obtain rfl := Option.some.inj h
    exact .compared hth hpc
  · rename_i m left hpc
    obtain ⟨t, ht, rfl⟩ := Option.map_eq_some_iff.mp h
    exact .promoted ⟨fuel, ht⟩ hpc
  · rename_i m left hpc
    obtain ⟨t, ht, rfl⟩ := Option.map_eq_some_iff.mp h
    refine .yielded ⟨fuel, ht⟩ hpc ?_
    split
    · exact Or.inl rfl
    · exact Or.inr ⟨_, rfl⟩
  · rename_i m hpc
    obtain ⟨t, ht, rfl⟩ := Option.map_eq_some_iff.mp h
    exact .unlocked ⟨fuel, ht⟩ hpc

lemma move_outcome (h : Move B c a d) : Outcome B c a d := by
  obtain ⟨fuel, h⟩ := h
  cases a with
  | event e =>
    simp only [System.move] at h
    split_ifs at h with hpc
    obtain ⟨t, ht, rfl⟩ := Option.map_eq_some_iff.mp h
    exact .event ⟨fuel, ht⟩ hpc
  | lock m retry =>
    rw [System.move] at h
    by_cases hpc : InThread c.kernel ∧ c.pc c.running = .app
    · rw [if_pos hpc] at h
      obtain rfl := Option.some.inj h
      exact .lock hpc.1 hpc.2
    · rw [if_neg hpc] at h
      cases h
  | unlock m =>
    simp only [System.move] at h
    split_ifs at h with hpc
    obtain ⟨t, ht, rfl⟩ := Option.map_eq_some_iff.mp h
    exact .unlock ⟨fuel, ht⟩ hpc.1 hpc.2
  | advance =>
    simp only [System.move] at h
    split_ifs at h with hth
    exact advance_outcome hth h

end Skibios.Sharing.Threads
