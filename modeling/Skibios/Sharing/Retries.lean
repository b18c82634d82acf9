import Skibios.Sharing.Threads

/-! The calls of `spin_lock`: how many attempts they make and how they return. -/

namespace Skibios.Sharing.Retries

open Function Library.Words Library.Runs
open Kernel State TaskServices Services Events Effects Threads

def errorResourceLockedIndefinetly : ℕ := 3

/-- The last call of `spin_lock` by a task: its arguments, its failed attempts, whether one
succeeded, the moves made inside it and, once it has returned, its value. -/
structure SpinLock where
  mutex : ℕ
  retry : ℕ
  failed : ℕ
  won : Bool
  moves : ℕ
  error : Option ℕ

def SpinLock.enter (m retry : ℕ) : SpinLock where
  mutex := m
  retry := retry
  failed := 0
  won := false
  moves := 0
  error := if retry = 0 then some errorResourceLockedIndefinetly else none

def SpinLock.unused : SpinLock := ⟨0, 0, 0, false, 0, none⟩

/-- After the next move of the task that runs in `c`. -/
def SpinLock.next (r : SpinLock) (c : System) : SpinLock :=
  match c.pc c.running with
  | .attempt m _ =>
    if (mutexLock c.kernel m).1 = 0 then
      { r with won := true, moves := r.moves + 1, error := some errorNone }
    else { r with failed := r.failed + 1, moves := r.moves + 1 }
  | .yield _ left =>
    { r with
      moves := r.moves + 1
      error := if left ≤ 1 then some errorResourceLockedIndefinetly else none }
  | .readWord .. | .compare .. | .promote .. => { r with moves := r.moves + 1 }
  | .app | .unlockTest _ => r

structure Ledger where
  sys : System
  calls : ℕ → SpinLock

namespace Ledger

def initial (s : KernelState) : Ledger := ⟨.initial s, fun _ => .unused⟩

/-- After a move to `t`; a new task has called nothing. -/
def next (B : Build) (c : Ledger) (t : KernelState) : Action → ℕ → SpinLock
  | .lock m retry => update c.calls c.sys.running (.enter m retry)
  | .advance => update c.calls c.sys.running ((c.calls c.sys.running).next c.sys)
  | .event e =>
    match filled B c.sys.kernel e t with
    | none => c.calls
    | some k => update c.calls k .unused
  | .unlock _ => c.calls

end Ledger

structure Recorded (B : Build) (c : Ledger) (a : Action) (d : Ledger) : Prop where
  move : Move B c.sys a d.sys
  calls : d.calls = c.next B d.sys.kernel a

def InCall : Pc → Prop
  | .app | .unlockTest _ => False
  | _ => True

/-- The comparison finds its slot in the table, and in its last read, behind an owner below the top
and a caller at the top, no promoted owner; the service finds its own slot. -/
def Meets (B : Build) (c : System) : Pc → Prop
  | .compare test _ index _ => index < B.maxTaskCount ∧
      (test = .limit → c.kernel.prioCurrent index ≤ 127)
  | .promote m _ => c.kernel.mem m >>> 16 < B.maxTaskCount
  | _ => True

def Counts (B : Build) (c : System) : Action → Prop
  | .advance => Meets B c (c.pc c.running)
  | _ => True

instance (B : Build) (c : System) (p : Pc) : Decidable (Meets B c p) :=
  match p with
  | .compare .. => inferInstanceAs (Decidable (_ ∧ (_ → _)))
  | .promote .. => inferInstanceAs (Decidable (_ < _))
  | .app | .attempt .. | .readWord .. | .yield .. | .unlockTest _ => inferInstanceAs (Decidable True)

instance (B : Build) (c : System) (a : Action) : Decidable (Counts B c a) :=
  match a with
  | .advance => inferInstanceAs (Decidable (Meets B c _))
  | .event _ | .lock .. | .unlock _ => inferInstanceAs (Decidable True)

structure Bounded (B : Build) (c : Ledger) (k : ℕ) : Prop where
  attempts : (c.calls k).failed + (c.calls k).won.toNat ≤ (c.calls k).retry
  moves : (c.calls k).moves ≤ 9 * (c.calls k).retry
  running : InCall (c.sys.pc k) → (c.calls k).error = none
  unreturned : (c.calls k).error = none → InCall (c.sys.pc k) ∨ (c.calls k).retry = 0
  succeeded : (c.calls k).error = some errorNone ↔ (c.calls k).won = true
  returned : ∀ e, (c.calls k).error = some e → e = errorNone ∨
    e = errorResourceLockedIndefinetly ∧ (c.calls k).failed = (c.calls k).retry
  -- inside the call the task is never stuck, and when an attempt succeeds it holds the mutex
  goesOn : InCall (c.sys.pc k) → c.sys.running = k → InThread c.sys.kernel → Counts B c.sys .advance →
    ∃ d, Recorded B c .advance d
  holds : ∀ d, Recorded B c .advance d → (c.calls k).won = false → (d.calls k).won = true →
    d.sys.holds k (c.calls k).mutex = true ∧
      d.sys.kernel.mem (c.calls k).mutex = d.sys.kernel.taskId k

def ahead : Test → ℕ
  | .owner => 7
  | .ownerLevel _ => 6
  | .caller => 5
  | .callerLevel _ => 4
  | .limit => 3

def Follows (c : System) : Pc → Pc → Prop
  | .app, _ => False
  | .attempt m left, q => q = if (mutexLock c.kernel m).1 = 0 then .app else .readWord m left
  | .readWord m left, q => ∃ index, q = .compare .owner m index left
  | .compare test m index left, q => (∃ after, q = .compare after m index left ∧
      ahead after < ahead test) ∨ q = .promote m left ∨ q = .yield m left
  | .promote m left, q => q = .yield m left
  | .yield m left, q => q = if left ≤ 1 then .app else .attempt m (left - 1)
  | .unlockTest _, q => q = .app

structure Going (r : SpinLock) (m : ℕ) : Prop where
  mutex : r.mutex = m
  won : r.won = false
  error : r.error = none

inductive Settled (r : SpinLock) : Prop
  | none (won : r.won = false) (error : r.error = .none) (retry : r.retry = 0) (failed : r.failed = 0)
      (moves : r.moves = 0)
  | success (won : r.won = true) (error : r.error = some errorNone) (failed : r.failed < r.retry)
      (moves : r.moves ≤ 9 * r.failed + 1)
  | failure (won : r.won = false) (error : r.error = some errorResourceLockedIndefinetly)
      (failed : r.failed = r.retry) (moves : r.moves ≤ 9 * r.failed)

/-- `loop` is the number of failed attempts whose round is over; a round has nine moves. -/
def Within (r : SpinLock) : Pc → Prop
  | .app | .unlockTest _ => Settled r
  | .attempt m left => Going r m ∧ 0 < left ∧ r.failed + left = r.retry ∧ r.moves ≤ 9 * r.failed
  | .readWord m left =>
    Going r m ∧ 0 < left ∧ r.failed + left = r.retry + 1 ∧ r.moves + 8 ≤ 9 * r.failed
  | .compare test m _ left =>
    Going r m ∧ 0 < left ∧ r.failed + left = r.retry + 1 ∧ r.moves + ahead test ≤ 9 * r.failed
  | .promote m left =>
    Going r m ∧ 0 < left ∧ r.failed + left = r.retry + 1 ∧ r.moves + 2 ≤ 9 * r.failed
  | .yield m left =>
    Going r m ∧ 0 < left ∧ r.failed + left = r.retry + 1 ∧ r.moves + 1 ≤ 9 * r.failed

variable {B : Build} {c d : Ledger} {s : System} {a : Action} {r : SpinLock} {p q : Pc} {k m : ℕ}

lemma within_enter (m retry : ℕ) :
    Within (.enter m retry) (if retry = 0 then .app else .attempt m retry) := by
  split_ifs with h0
  · exact .failure rfl (if_pos h0) h0.symm (Nat.zero_le _)
  · exact ⟨⟨rfl, rfl, if_neg h0⟩, Nat.pos_of_ne_zero h0, Nat.zero_add _, Nat.zero_le _⟩

lemma ahead_pos (test : Test) : 3 ≤ ahead test := by
  cases test <;> simp [ahead]

lemma Within.next (h : Within r (s.pc s.running)) (hf : Follows s (s.pc s.running) q) :
    Within (r.next s) q := by
  unfold SpinLock.next
  generalize s.pc s.running = p at h hf
  cases p with
  | app => exact hf.elim
  | attempt m left =>
    obtain ⟨hg, hleft, hcount, hmoves⟩ := h
    obtain rfl : q = _ := hf
    dsimp only
    split_ifs with hwon
    · exact .success rfl rfl (by dsimp only; omega) (by dsimp only; omega)
    · refine ⟨⟨hg.mutex, hg.won, hg.error⟩, hleft, ?_, ?_⟩
      · dsimp only
        omega
      · dsimp only
        omega
  | readWord m left =>
    obtain ⟨hg, hleft, hcount, hmoves⟩ := h
    obtain ⟨index, rfl⟩ := hf
    exact ⟨⟨hg.mutex, hg.won, hg.error⟩, hleft, hcount, by dsimp only [ahead]; omega⟩
  | compare test m index left =>
    obtain ⟨hg, hleft, hcount, hmoves⟩ := h
    have hpos := ahead_pos test
    rcases hf with ⟨after, rfl, hless⟩ | rfl | rfl
    all_goals exact ⟨⟨hg.mutex, hg.won, hg.error⟩, hleft, hcount, by dsimp only; omega⟩
  | promote m left =>
    obtain ⟨hg, hleft, hcount, hmoves⟩ := h
    obtain rfl : q = _ := hf
    exact ⟨⟨hg.mutex, hg.won, hg.error⟩, hleft, hcount, by dsimp only; omega⟩
  | yield m left =>
    obtain ⟨hg, hleft, hcount, hmoves⟩ := h
    obtain rfl : q = _ := hf
    dsimp only
    split_ifs with hlast
    · exact .failure hg.won rfl (by dsimp only; omega) (by dsimp only; omega)
    · refine ⟨⟨hg.mutex, hg.won, rfl⟩, by omega, ?_, ?_⟩
      · dsimp only
        omega
      · dsimp only
        omega
  | unlockTest m =>
    obtain rfl : q = _ := hf
    exact h

lemma next_follows {test : Test} {m index left : ℕ} (hc : Meets B s (.compare test m index left)) :
    Follows s (.compare test m index left) (test.next s.kernel m index left) := by
  cases test with
  | owner | caller => exact Or.inl ⟨_, rfl, Nat.lt_succ_self _⟩
  | ownerLevel p | callerLevel p =>
    rw [Test.next]
    split
    · exact Or.inl ⟨_, rfl, Nat.lt_succ_self _⟩
    · exact Or.inr (Or.inr rfl)
  | limit =>
    rw [Test.next, if_neg (not_lt.mpr (hc.2 rfl))]
    exact Or.inr (Or.inl rfl)

lemma advance_follows {fuel : ℕ} {u : System} (hc : Counts B s .advance)
    (h : s.advance B fuel = some u) : ∃ q, Follows s (s.pc s.running) q ∧
      u.pc = update s.pc s.running q := by
  unfold System.advance at h
  change Meets B _ _ at hc
  generalize s.pc s.running = p at h hc
  cases p with
  | app => cases h
  | attempt m left =>
    obtain ⟨t, -, rfl⟩ := Option.map_eq_some_iff.mp h
    refine ⟨_, rfl, ?_⟩
    split_ifs <;> rfl
  | readWord m left =>
    obtain rfl := Option.some.inj h
    exact ⟨_, ⟨_, rfl⟩, rfl⟩
  | compare test m index left =>
    dsimp only at h
    split_ifs at h
    obtain rfl := Option.some.inj h
    exact ⟨_, next_follows hc, rfl⟩
  | promote m left =>
    obtain ⟨t, -, rfl⟩ := Option.map_eq_some_iff.mp h
    exact ⟨_, rfl, rfl⟩
  | yield m left =>
    obtain ⟨t, -, rfl⟩ := Option.map_eq_some_iff.mp h
    exact ⟨_, rfl, rfl⟩
  | unlockTest m =>
    obtain ⟨t, -, rfl⟩ := Option.map_eq_some_iff.mp h
    exact ⟨_, rfl, rfl⟩

def AllWithin (c : Ledger) : Prop := ∀ k, Within (c.calls k) (c.sys.pc k)

lemma within_unused : Settled .unused := .none rfl rfl rfl rfl rfl

lemma within_event (h : AllWithin c) (e : Event) (t : KernelState) (k : ℕ) :
    Within (c.next B t (.event e) k) ((c.sys.after B e t).pc k) := by
  simp only [Ledger.next, System.after]
  rcases filled B c.sys.kernel e t with _ | i
  · exact h k
  · change Within (update c.calls i .unused k) (update c.sys.pc i .app k)
    rcases eq_or_ne k i with rfl | hne
    · rw [update_self, update_self]
      exact within_unused
    · rw [update_of_ne hne, update_of_ne hne]
      exact h k

lemma within_lock (h : AllWithin c) (m retry k : ℕ) : Within (c.next B t (.lock m retry) k)
    ((c.sys.goto c.sys.kernel (if retry = 0 then .app else .attempt m retry)).pc k) := by
  dsimp only [Ledger.next, System.goto]
  rcases eq_or_ne k c.sys.running with rfl | hne
  · rw [update_self, update_self]
    exact within_enter m retry
  · rw [update_of_ne hne, update_of_ne hne]
    exact h k

lemma AllWithin.step (h : AllWithin c) (hc : Counts B c.sys a) (hr : Recorded B c a d) :
    AllWithin d := by
  obtain ⟨⟨fuel, hm⟩, hcalls⟩ := hr
  intro k
  rw [hcalls]
  cases a with
  | event e =>
    simp only [System.move] at hm
    split_ifs at hm
    obtain ⟨t, -, ht⟩ := Option.map_eq_some_iff.mp hm
    rw [← ht, System.after_kernel]
    exact within_event h e t k
  | lock m retry =>
    rw [System.move] at hm
    by_cases hpc : InThread c.sys.kernel ∧ c.sys.pc c.sys.running = .app
    · rw [if_pos hpc] at hm
      rw [← Option.some.inj hm]
      exact within_lock h m retry k
    · rw [if_neg hpc] at hm
      cases hm
  | unlock m =>
    simp only [System.move] at hm
    split_ifs at hm with hpc
    obtain ⟨t, -, ht⟩ := Option.map_eq_some_iff.mp hm
    rw [← ht]
    dsimp only [Ledger.next, System.goto]
    rcases eq_or_ne k c.sys.running with rfl | hne
    · have hk := h c.sys.running
      rw [hpc.1] at hk
      rw [update_self]
      exact hk
    · rw [update_of_ne hne]
      exact h k
  | advance =>
    simp only [System.move] at hm
    split_ifs at hm
    obtain ⟨q, hq, hpc⟩ := advance_follows hc hm
    rw [hpc]
    dsimp only [Ledger.next]
    rcases eq_or_ne k c.sys.running with rfl | hne
    · rw [update_self, update_self]
      exact (h _).next hq
    · rw [update_of_ne hne, update_of_ne hne]
      exact h k

lemma going_on (hcall : InCall (c.sys.pc c.sys.running)) (hth : InThread c.sys.kernel)
    (hc : Counts B c.sys .advance) : ∃ d, Recorded B c .advance d := by
  suffices hmove : ∃ u, c.sys.advance B 0 = some u by
    obtain ⟨u, hu⟩ := hmove
    refine ⟨⟨u, c.next B u.kernel .advance⟩, ⟨0, ?_⟩, rfl⟩
    rw [System.move, if_pos hth, hu]
  unfold System.advance
  change Meets B _ _ at hc
  generalize c.sys.pc c.sys.running = p at hcall hc
  cases p with
  | app | unlockTest _ => exact hcall.elim
  | attempt m left => simp only [step, inThread, if_pos hth, Option.map_some, Option.some.injEq, exists_eq']
  | readWord m left => exact ⟨_, rfl⟩
  | compare test m index left =>
    dsimp only at hc ⊢
    rw [if_neg (not_le.mpr hc.1)]
    exact ⟨_, rfl⟩
  | promote m left =>
    dsimp only at hc ⊢
    rw [step_promote hth hc]
    exact ⟨_, rfl⟩
  | yield m left =>
    dsimp only
    simp only [step, inThread, if_pos hth, svc_handOver, Option.map_some, Option.some.injEq,
      exists_eq']

lemma won_holds (hw : Within (c.calls k) (c.sys.pc k)) (hr : Recorded B c .advance d)
    (hno : (c.calls k).won = false) (hwon : (d.calls k).won = true) :
    d.sys.holds k (c.calls k).mutex = true ∧
      d.sys.kernel.mem (c.calls k).mutex = d.sys.kernel.taskId k := by
  obtain ⟨⟨fuel, hm⟩, hcalls⟩ := hr
  rw [hcalls] at hwon
  dsimp only [Ledger.next] at hwon
  rcases eq_or_ne k c.sys.running with rfl | hne
  · rw [update_self] at hwon
    simp only [System.move] at hm
    split_ifs at hm with hth
    unfold SpinLock.next at hwon
    unfold System.advance at hm
    generalize hp : c.sys.pc c.sys.running = p at hm hwon hw
    cases p with
    | attempt m left =>
      obtain ⟨t, ht, hd⟩ := Option.map_eq_some_iff.mp hm
      dsimp only at hwon hd
      split_ifs at hwon hd with hzero
      · rw [hw.1.mutex, ← hd]
        have hfree : c.sys.kernel.mem m % 256 = 0 := by
          by_contra hne
          simp [mutexLock, hne] at hzero
        simp only [step, inThread, if_pos hth, mutexLock, hfree] at ht
        obtain rfl := by simpa using ht
        refine ⟨?_, ?_⟩
        · simp [System.goto, System.hold]
        · simp [System.goto, System.hold, System.running]
      · dsimp only at hwon
        rw [hno] at hwon
        cases hwon
    | app | readWord _ _ | compare _ _ _ _ | promote _ _ | yield _ _ | unlockTest _ =>
      dsimp only at hwon
      rw [hno] at hwon
      cases hwon
  · rw [update_of_ne hne, hno] at hwon
    cases hwon

lemma Within.inside (h : Within r p) (hp : InCall p) :
    r.won = false ∧ r.error = none ∧ r.failed ≤ r.retry ∧ r.moves ≤ 9 * r.retry := by
  cases p with
  | app | unlockTest _ => exact hp.elim
  | attempt | readWord | promote | yield =>
    obtain ⟨hg, hleft, hcount, hmoves⟩ := h
    exact ⟨hg.won, hg.error, by omega, by omega⟩
  | compare test =>
    obtain ⟨hg, hleft, hcount, hmoves⟩ := h
    have hpos := ahead_pos test
    exact ⟨hg.won, hg.error, by omega, by omega⟩

lemma Within.settled (h : Within r p) (hp : ¬ InCall p) : Settled r := by
  cases p with
  | app | unlockTest _ => exact h
  | attempt | readWord | compare | promote | yield => exact absurd trivial hp

lemma AllWithin.bounded (h : AllWithin c) (k : ℕ) : Bounded B c k := by
  have hgoes : InCall (c.sys.pc k) → c.sys.running = k → InThread c.sys.kernel →
      Counts B c.sys .advance → ∃ d, Recorded B c .advance d := by
    rintro hcall rfl hth hc
    exact going_on hcall hth hc
  have hholds := fun d (hr : Recorded B c .advance d) => won_holds (h k) hr
  by_cases hp : InCall (c.sys.pc k)
  · obtain ⟨hwon, herror, hfailed, hmoves⟩ := (h k).inside hp
    refine ⟨?_, hmoves, fun _ => herror, fun _ => Or.inl hp, ?_, ?_, hgoes, hholds⟩
    · rw [hwon]
      exact hfailed
    · rw [herror, hwon]
      exact iff_of_false nofun nofun
    · intro e he
      rw [herror] at he
      cases he
  · cases (h k).settled hp with
    | none hwon herror hretry hfailed hmoves =>
      refine ⟨?_, by omega, fun hin => absurd hin hp, fun _ => Or.inr hretry, ?_, ?_, hgoes, hholds⟩
      · rw [hwon, hfailed]
        exact Nat.zero_le _
      · rw [herror, hwon]
        exact iff_of_false nofun nofun
      · intro e he
        rw [herror] at he
        cases he
    | success hwon herror hfailed hmoves =>
      refine ⟨?_, by omega, fun hin => absurd hin hp, ?_, iff_of_true herror hwon, ?_, hgoes, hholds⟩
      · rw [hwon]
        exact hfailed
      · intro hnone
        rw [herror] at hnone
        cases hnone
      · intro e he
        rw [herror] at he
        exact Or.inl (Option.some.inj he).symm
    | failure hwon herror hfailed hmoves =>
      refine ⟨?_, by omega, fun hin => absurd hin hp, ?_, ?_, ?_, hgoes, hholds⟩
      · rw [hwon, hfailed]
        exact le_refl _
      · intro hnone
        rw [herror] at hnone
        cases hnone
      · rw [herror, hwon]
        exact iff_of_false (by decide) nofun
      · intro e he
        rw [herror] at he
        exact Or.inr ⟨(Option.some.inj he).symm, hfailed⟩

variable {mem : ℕ → ℕ} {objs : ℕ → TaskObject} {stack : ℕ → ℕ} {as : List Action}

/-- The running task meets an owner that is promoted, below itself at the top. -/
structure Stuck (B : Build) (s : System) (m left : ℕ) : Prop where
  thread : InThread s.kernel
  pc : s.pc s.running = .attempt m left
  locked : s.kernel.mem m % 256 ≠ 0
  table : uint8 (s.kernel.mem m >>> 16) < B.maxTaskCount
  promoted : 127 < s.kernel.prioCurrent (uint8 (s.kernel.mem m >>> 16))
  below : s.kernel.prioCurrent (uint8 (s.kernel.mem m >>> 16)) < s.kernel.maxLevel
  top : s.kernel.prioCurrent s.running = s.kernel.maxLevel

def Ledger.reach (c : Ledger) (p : Pc) (r : SpinLock) : Ledger where
  sys := c.sys.goto c.sys.kernel p
  calls := update c.calls c.sys.running r

lemma reach_reach (p q : Pc) (r u : SpinLock) : (c.reach p r).reach q u = c.reach q u := by
  simp only [Ledger.reach, System.goto, System.running, update_idem]

lemma reach_self (h : c.sys.pc c.sys.running = p) :
    c.reach p (c.calls c.sys.running) = c := by
  simp only [Ledger.reach, System.goto, ← h, update_eq_self]

lemma reach_pc : (c.reach p r).sys.pc (c.reach p r).sys.running = p := update_self ..

lemma reach_call : (c.reach p r).calls (c.reach p r).sys.running = r := update_self ..

lemma recorded_reach (hth : InThread c.sys.kernel)
    (h : c.sys.advance B 0 = some (c.sys.goto c.sys.kernel p))
    (hr : (c.calls c.sys.running).next c.sys = r) : Recorded B c .advance (c.reach p r) := by
  refine ⟨⟨0, ?_⟩, ?_⟩
  · rw [System.move, if_pos hth, h]
    rfl
  · rw [← hr]
    rfl

def SpinLock.moved (r : SpinLock) : SpinLock := { r with moves := r.moves + 1 }

variable {left index : ℕ}

lemma attempt_fails (hth : InThread c.sys.kernel) (hp : c.sys.pc c.sys.running = .attempt m left)
    (hl : c.sys.kernel.mem m % 256 ≠ 0) : Recorded B c .advance (c.reach (.readWord m left)
      { (c.calls c.sys.running).moved with failed := (c.calls c.sys.running).failed + 1 }) := by
  have hlock : mutexLock c.sys.kernel m = (1, c.sys.kernel) := if_pos hl
  apply recorded_reach hth
  · simp only [System.advance, hp, step, inThread, if_pos hth, hlock, Option.map_some, one_ne_zero,
      if_false]
  · simp only [SpinLock.next, hp, hlock, one_ne_zero, if_false]
    rfl

lemma word_read (hth : InThread c.sys.kernel) (hp : c.sys.pc c.sys.running = .readWord m left) :
    Recorded B c .advance (c.reach (.compare .owner m (uint8 (c.sys.kernel.mem m >>> 16)) left)
      (c.calls c.sys.running).moved) := by
  apply recorded_reach hth
  · rw [System.advance, hp]
  · rw [SpinLock.next, hp]
    rfl

lemma compares {test : Test} (hth : InThread c.sys.kernel) (hi : index < B.maxTaskCount)
    (hp : c.sys.pc c.sys.running = .compare test m index left)
    (hq : test.next c.sys.kernel m index left = q) :
    Recorded B c .advance (c.reach q (c.calls c.sys.running).moved) := by
  apply recorded_reach hth
  · rw [System.advance, hp]
    dsimp only
    rw [if_neg (not_le.mpr hi), hq]
  · rw [SpinLock.next, hp]
    rfl

lemma loop_continues (hth : InThread c.sys.kernel)
    (hp : c.sys.pc c.sys.running = .compare .owner m index left) (hi : index < B.maxTaskCount)
    (hpromoted : 127 < c.sys.kernel.prioCurrent index)
    (hbelow : c.sys.kernel.prioCurrent index < c.sys.kernel.maxLevel)
    (htop : c.sys.kernel.prioCurrent c.sys.running = c.sys.kernel.maxLevel) :
    Run (Recorded B) c (List.replicate 5 .advance) (c.reach (.attempt m left)
      (c.calls c.sys.running).moved.moved.moved.moved.moved) := by
  generalize hr : c.calls c.sys.running = r
  have hlow : Test.next c.sys.kernel m index left (.ownerLevel (c.sys.kernel.prioCurrent index)) =
      .compare .caller m index left := if_pos hbelow
  have hhigh : Test.next c.sys.kernel m index left (.callerLevel (c.sys.kernel.prioCurrent
      c.sys.running)) = .compare .limit m index left := if_pos htop
  have hcap : Test.next c.sys.kernel m index left .limit = .attempt m left := if_pos hpromoted
  have h1 := compares hth hi hp rfl
  rw [hr] at h1
  have h2 := compares (c := c.reach (.compare _ m index left) r.moved) hth hi reach_pc hlow
  rw [reach_reach, reach_call] at h2
  have h3 := compares (c := c.reach (.compare .caller m index left) r.moved.moved) hth hi reach_pc rfl
  rw [reach_reach, reach_call] at h3
  have h4 := compares (c := c.reach (.compare _ m index left) r.moved.moved.moved) hth hi reach_pc
    hhigh
  rw [reach_reach, reach_call] at h4
  have h5 := compares (c := c.reach (.compare _ m index left) r.moved.moved.moved.moved) hth hi
    reach_pc hcap
  rw [reach_reach, reach_call] at h5
  exact .cons h1 (.cons h2 (.cons h3 (.cons h4 (.single h5))))

lemma Stuck.round (h : Stuck B c.sys m left) : ∃ r, Run (Recorded B) c (List.replicate 7 .advance)
    (c.reach (.attempt m left) r) ∧ r.failed = (c.calls c.sys.running).failed + 1 ∧
      r.retry = (c.calls c.sys.running).retry ∧ r.error = (c.calls c.sys.running).error := by
  have h1 := attempt_fails (B := B) h.thread h.pc h.locked
  generalize hr : ({ (c.calls c.sys.running).moved with
    failed := (c.calls c.sys.running).failed + 1 } : SpinLock) = r at h1
  have h2 := word_read (B := B) (c := c.reach (.readWord m left) r) h.thread reach_pc
  rw [reach_reach, reach_call] at h2
  have h3 := loop_continues
    (c := c.reach (.compare .owner m (uint8 (c.sys.kernel.mem m >>> 16)) left) r.moved)
    h.thread reach_pc h.table h.promoted h.below h.top
  rw [reach_reach, reach_call] at h3
  refine ⟨_, .cons h1 (.cons h2 h3), ?_, ?_, ?_⟩ <;> rw [← hr] <;> rfl

lemma Stuck.endless (h : Stuck B c.sys m left) (n : ℕ) : ∃ as r, Run (Recorded B) c as
    (c.reach (.attempt m left) r) ∧ r.failed = (c.calls c.sys.running).failed + n ∧
      r.retry = (c.calls c.sys.running).retry ∧ r.error = (c.calls c.sys.running).error := by
  induction n with
  | zero =>
    refine ⟨[], c.calls c.sys.running, ?_, rfl, rfl, rfl⟩
    rw [reach_self h.pc]
    exact .nil
  | succ n ih =>
    obtain ⟨as, r, hrun, hfailed, hretry, herror⟩ := ih
    have hcall : (c.reach (.attempt m left) r).calls (c.reach (.attempt m left) r).sys.running = r :=
      update_self ..
    have hstuck : Stuck B (c.reach (.attempt m left) r).sys m left :=
      ⟨h.thread, reach_pc, h.locked, h.table, h.promoted, h.below, h.top⟩
    obtain ⟨u, hround, hfailed', hretry', herror'⟩ := hstuck.round
    rw [hcall] at hfailed' hretry' herror'
    rw [reach_reach] at hround
    refine ⟨_, u, hrun.append hround, ?_, hretry'.trans hretry, herror'.trans herror⟩
    rw [hfailed', hfailed]
    rfl

lemma Stuck.spins (h : Stuck B c.sys m left) (hk : c.sys.running = k) (n : ℕ) :
    ∃ as d, Run (Recorded B) c as d ∧ d.sys.pc k = .attempt m left ∧
      (d.calls k).failed = (c.calls k).failed + n ∧ (d.calls k).retry = (c.calls k).retry ∧
      (d.calls k).error = (c.calls k).error := by
  obtain ⟨as, r, hrun, hr⟩ := h.endless n
  subst hk
  have hcall : (c.reach (.attempt m left) r).calls c.sys.running = r := reach_call
  refine ⟨as, _, hrun, reach_pc, ?_⟩
  rw [hcall]
  exact hr

section Instances

def fourSlots : Build := Build.four

def newTask (p priority : ℕ) : List Action :=
  [.event (.fillTask p ⟨0, 0, priority, 0, 0, 0, 0, 0⟩), .event (.createTask p 0)]

def dispatch : List Action := [.event .scheduler, .event .contextSwitch]

def wakeBy (a : ℕ) : List Action := [.event (.store a 1), .event .tick, .event .contextSwitch]

def attempt : List Action := List.replicate 8 .advance

def start : Ledger :=
  .initial (bootState fourSlots (fun _ => 0) (fun _ => ⟨0, 0, 1, 0, 0, 0, 0, 0⟩) (fun _ => 0))

/-- Slot 1 (priority 1) locks 208 and slot 2 (priority 3) locks 200, which slot 3 (priority 5) waits
for: slot 2 is promoted to 128. -/
def promotion : List Action :=
  newTask 10 1 ++ newTask 11 3 ++ newTask 12 5 ++ [.event .startScheduler] ++ dispatch ++
    [.event (.hibernate 2 100 101 1)] ++ dispatch ++ [.event (.hibernate 2 102 103 1)] ++ dispatch ++
    [.lock 208 1, .advance] ++ wakeBy 102 ++ [.lock 200 1, .advance] ++ wakeBy 100 ++
    .lock 200 1 :: attempt ++ dispatch

/-- Slot 2 waits for 208: slot 1 is promoted to 129 and calls `spin_lock(200, 1)`. -/
def nested : List Action :=
  promotion ++ .lock 208 1 :: attempt ++ dispatch ++ [.lock 200 1]

def recordedStep (ok : System → Action → Prop) [∀ s a, Decidable (ok s a)] (c : Ledger) (a : Action) :
    Option Ledger :=
  if ok c.sys a then (c.sys.move fourSlots 20 a).map fun s => ⟨s, c.next fourSlots s.kernel a⟩ else none

lemma recordedStep_sound {ok : System → Action → Prop} [∀ s a, Decidable (ok s a)] (c : Ledger)
    (a : Action) (d : Ledger) (h : recordedStep ok c a = some d) : ok c.sys a ∧ Recorded fourSlots c a d := by
  unfold recordedStep at h
  split_ifs at h with hok
  obtain ⟨s, hs, rfl⟩ := Option.map_eq_some_iff.mp h
  exact ⟨hok, ⟨20, hs⟩, rfl⟩

def reached (ok : System → Action → Prop) [∀ s a, Decidable (ok s a)] (as : List Action) : Ledger :=
  (exec (recordedStep ok) start as).getD start

lemma reached_run {ok : System → Action → Prop} [∀ s a, Decidable (ok s a)]
    (h : (exec (recordedStep ok) start as).isSome = true) :
    Run (fun c a d => ok c.sys a ∧ Recorded fourSlots c a d) start as (reached ok as) :=
  exec_getD_run recordedStep_sound h

def anyMove (_ : System) (_ : Action) : Prop := True

instance (s : System) (a : Action) : Decidable (anyMove s a) := isTrue trivial

def waited : Ledger := reached (Counts fourSlots) promotion
def spinning : Ledger := reached anyMove nested

end Instances

end Skibios.Sharing.Retries
