import Skibios.Library.Runs

/-! `semaphore_increment` and `semaphore_decrement` on ARM: any number of tasks retry a
load-exclusive and a store-exclusive of the low byte of one word. -/

namespace Skibios.Sharing.Semaphores

open Function Library.Runs

inductive Operation
  | increment
  | decrement
  deriving DecidableEq

def Operation.apply : Operation → ℕ → ℕ
  | .increment, r1 => r1 + 1
  | .decrement, r1 => r1 - 1

/-- Where a task is in `share.c` and `semaphore.S`; `left` is `retry - loop`. -/
inductive Pc
  | out
  | load (o : Operation) (left : ℕ)
  | store (o : Operation) (r1 left : ℕ)

structure Semaphore where
  word : ℕ
  pc : ℕ → Pc
  -- the task's reservation, lost when another task stores
  monitor : ℕ → Bool
  -- the calls that have returned ERROR_NONE
  incs : ℕ
  decs : ℕ

def storeByte (word r1 : ℕ) : ℕ := word / 256 * 256 + r1 % 256

namespace Semaphore

variable (c : Semaphore)

def goto (k : ℕ) (p : Pc) : Semaphore := { c with pc := update c.pc k p }

def done (k : ℕ) : Operation → Semaphore
  | .increment => { c.goto k .out with incs := c.incs + 1 }
  | .decrement => { c.goto k .out with decs := c.decs + 1 }

/-- LDREXB and the code behind it: `arch_semaphore_dec` returns 0 without a store where the byte
is 0. -/
def loadStep (k : ℕ) : Option Semaphore :=
  let r1 := c.word % 256
  let d := { c with monitor := update c.monitor k true }
  match c.pc k with
  | .load .increment left => some (d.goto k (.store .increment (r1 + 1) left))
  | .load .decrement left =>
    if r1 = 0 then some (d.done k .decrement)
    else some (d.goto k (.store .decrement (r1 - 1) left))
  | _ => none

def storeStep (k : ℕ) : Option Semaphore :=
  match c.pc k with
  | .store o r1 _ =>
    if c.monitor k = true then
      some ({ c with word := storeByte c.word r1, monitor := fun _ => false }.done k o)
    else none
  | _ => none

/-- A STREXB that fails, and the HAND_OVER before the next attempt. -/
def failStep (k : ℕ) : Option Semaphore :=
  match c.pc k with
  | .store o _ left =>
    let d := { c with monitor := update c.monitor k false }
    some (d.goto k (if left ≤ 1 then .out else .load o (left - 1)))
  | _ => none

end Semaphore

inductive Action
  | call (k : ℕ) (o : Operation) (retry : ℕ)
  | load (k : ℕ)
  | store (k : ℕ)
  | fail (k : ℕ)

def step (c : Semaphore) : Action → Option Semaphore
  | .call k o retry =>
    match c.pc k with
    | .out => some (c.goto k (if retry = 0 then .out else .load o retry))
    | _ => none
  | .load k => c.loadStep k
  | .store k => c.storeStep k
  | .fail k => c.failStep k

def initial (word : ℕ) : Semaphore := ⟨word, fun _ => .out, fun _ => false, 0, 0⟩

def Conserved (word : ℕ) (c : Semaphore) : Prop := c.word + c.decs = word + c.incs

instance (word : ℕ) (c : Semaphore) : Decidable (Conserved word c) :=
  inferInstanceAs (Decidable (_ = _))

def Pc.decrements : Pc → Bool
  | .load .decrement _ => true
  | _ => false

def Pc.increments : Pc → Bool
  | .store .increment _ _ => true
  | _ => false

/-- No decrement finds the byte 0 and no increment of the byte 255 is stored. -/
def Inside (c : Semaphore) : Action → Prop
  | .load k => (c.pc k).decrements = true → c.word % 256 ≠ 0
  | .store k => (c.pc k).increments = true → c.word % 256 ≠ 255
  | _ => True

instance (c : Semaphore) (a : Action) : Decidable (Inside c a) :=
  match a with
  | .load _ | .store _ => inferInstanceAs (Decidable (_ → _))
  | .call .. | .fail _ => isTrue trivial

def Admitted (c : Semaphore) (a : Action) (d : Semaphore) : Prop := Inside c a ∧ step c a = some d

variable {c d : Semaphore} {a : Action} {as : List Action} {k word : ℕ}

/-- A task with a reservation is about to store what its operation makes of the present byte. -/
def Linked (c : Semaphore) : Prop :=
  ∀ k o r1 left, c.pc k = .store o r1 left → c.monitor k = true →
    r1 = o.apply (c.word % 256) ∧ (o = .decrement → c.word % 256 ≠ 0)

lemma Linked.move (h : Linked c) (hw : d.word = c.word) (hpc : ∀ j, j ≠ k → d.pc j = c.pc j)
    (hm : ∀ j, j ≠ k → d.monitor j = c.monitor j)
    (hk : ∀ o r1 left, d.pc k = .store o r1 left → d.monitor k = true →
      r1 = o.apply (c.word % 256) ∧ (o = .decrement → c.word % 256 ≠ 0)) : Linked d := by
  intro j o r1 left hj hmon
  rw [hw]
  rcases eq_or_ne j k with rfl | hne
  · exact hk o r1 left hj hmon
  · rw [hpc j hne] at hj
    rw [hm j hne] at hmon
    exact h j o r1 left hj hmon

lemma goto_ne {p : Pc} {j : ℕ} (hj : j ≠ k) : (c.goto k p).pc j = c.pc j := update_of_ne hj _ _

lemma goto_self {p : Pc} : (c.goto k p).pc k = p := update_self ..

lemma storeByte_succ {w : ℕ} : storeByte w (w % 256 + 1) = w + 1 ↔ w % 256 ≠ 255 := by
  unfold storeByte
  omega

lemma storeByte_pred {w : ℕ} (hw : w % 256 ≠ 0) : storeByte w (w % 256 - 1) + 1 = w := by
  unfold storeByte
  omega

inductive Outcome (c : Semaphore) : Action → Semaphore → Prop
  | called {k left : ℕ} {o : Operation} {p : Pc} (hp : p = .out ∨ p = .load o left) :
      Outcome c (.call k o left) (c.goto k p)
  | loaded {k left : ℕ} {o : Operation} (hpc : c.pc k = .load o left)
      (hz : o = .decrement → c.word % 256 ≠ 0) :
      Outcome c (.load k) ({ c with monitor := update c.monitor k true }.goto k
        (.store o (o.apply (c.word % 256)) left))
  | drained {k left : ℕ} (hpc : c.pc k = .load .decrement left) (hz : c.word % 256 = 0) :
      Outcome c (.load k) ({ c with monitor := update c.monitor k true }.done k .decrement)
  | stored {k r1 left : ℕ} {o : Operation} (hpc : c.pc k = .store o r1 left)
      (hm : c.monitor k = true) :
      Outcome c (.store k) ({ c with word := storeByte c.word r1, monitor := fun _ => false }.done k o)
  | failed {k r1 left : ℕ} {o : Operation} {p : Pc} (hpc : c.pc k = .store o r1 left)
      (hp : p = .out ∨ p = .load o (left - 1)) :
      Outcome c (.fail k) ({ c with monitor := update c.monitor k false }.goto k p)

lemma step_outcome (h : step c a = some d) : Outcome c a d := by
  cases a with
  | call k o retry =>
    simp only [step] at h
    split at h
    · obtain rfl := Option.some.inj h
      apply Outcome.called
      split
      · exact Or.inl rfl
      · exact Or.inr rfl
    · cases h
  | load k =>
    simp only [step, Semaphore.loadStep] at h
    split at h
    · obtain rfl := Option.some.inj h
      exact .loaded (o := .increment) ‹_› nofun
    · split at h
      · obtain rfl := Option.some.inj h
        exact .drained ‹_› ‹_›
      · obtain rfl := Option.some.inj h
        exact .loaded (o := .decrement) ‹_› fun _ => ‹_›
    · cases h
  | store k =>
    simp only [step, Semaphore.storeStep] at h
    split at h
    · split at h
      · obtain rfl := Option.some.inj h
        exact .stored ‹_› ‹_›
      · cases h
    · cases h
  | fail k =>
    simp only [step, Semaphore.failStep] at h
    split at h
    · obtain rfl := Option.some.inj h
      refine .failed ‹_› ?_
      split
      · exact Or.inl rfl
      · exact Or.inr rfl
    · cases h

lemma Linked.step (h : Linked c) (ho : Outcome c a d) : Linked d := by
  cases ho with
  | @called k _ o p hp =>
    refine h.move (k := k) rfl (fun j hj => goto_ne hj) (fun _ _ => rfl) fun o' r1 left hk => ?_
    rw [goto_self] at hk
    rcases hp with rfl | rfl <;> cases hk
  | @loaded k _ o hpc hz =>
    refine h.move (k := k) rfl (fun j hj => goto_ne hj) (fun j hj => update_of_ne hj _ _) ?_
    intro o' r1 left hk _
    rw [goto_self] at hk
    cases hk
    exact ⟨rfl, hz⟩
  | @drained k _ hpc hz =>
    refine h.move (k := k) rfl (fun j hj => goto_ne hj) (fun j hj => update_of_ne hj _ _) ?_
    intro o' r1 left hk
    have hout : Pc.out = .store o' r1 left := (update_self ..).symm.trans hk
    cases hout
  | @stored k r1 left o hpc hm =>
    intro j o' r left' _ hmon
    cases o <;> cases hmon
  | @failed k _ _ o p hpc hp =>
    refine h.move (k := k) rfl (fun j hj => goto_ne hj) (fun j hj => update_of_ne hj _ _) ?_
    intro o' r1 left hk
    rw [goto_self] at hk
    rcases hp with rfl | rfl <;> cases hk

lemma conserved_step (hc : Conserved word c) (hl : Linked c) (ho : Outcome c a d) :
    Conserved word d ↔ Inside c a := by
  cases ho with
  | called | failed => exact iff_of_true hc trivial
  | @loaded k left o hpc hz =>
    refine iff_of_true hc ?_
    rw [Inside, hpc]
    cases o with
    | increment => nofun
    | decrement => exact fun _ => hz rfl
  | @drained k left hpc hz =>
    rw [Inside, hpc]
    refine iff_of_false (fun hd => ?_) fun hne => hne rfl hz
    have hd : c.word + (c.decs + 1) = word + c.incs := hd
    unfold Conserved at hc
    omega
  | @stored k r1 left o hpc hm =>
    obtain ⟨rfl, hz⟩ := hl k o r1 left hpc hm
    rw [Inside, hpc]
    unfold Conserved at hc
    cases o with
    | increment =>
      have hsucc := storeByte_succ (w := c.word)
      change storeByte c.word (c.word % 256 + 1) + c.decs = word + (c.incs + 1) ↔ (true = true → _)
      rw [imp_iff_right rfl, ← hsucc]
      omega
    | decrement =>
      have hpred := storeByte_pred (hz rfl)
      refine iff_of_true ?_ nofun
      change storeByte c.word (c.word % 256 - 1) + (c.decs + 1) = word + c.incs
      omega

/-- In every run whose operations stay inside the byte no increment is lost and no decrement is
made up, and the next step keeps it so if and only if it stays inside as well. -/
theorem conservation (h : Run Admitted (initial word) as c) : Conserved word c ∧
    ∀ a d, step c a = some d → (Conserved word d ↔ Inside c a) := by
  have hstart : Conserved word (initial word) ∧ Linked (initial word) :=
    ⟨rfl, fun _ _ _ _ _ hm => Bool.noConfusion hm⟩
  have hinv : Conserved word c ∧ Linked c := by
    refine h.invariant (I := fun c => Conserved word c ∧ Linked c) ?_ hstart
    rintro c a d ⟨hc, hl⟩ ⟨hok, hstep⟩
    have ho := step_outcome hstep
    exact ⟨(conserved_step hc hl ho).mpr hok, hl.step ho⟩
  exact ⟨hinv.1, fun a d hd => conserved_step hinv.1 hinv.2 (step_outcome hd)⟩

lemma admitted_of_exec (h : (if Inside c a then step c a else none) = some d) : Admitted c a d := by
  split_ifs at h with hok
  exact ⟨hok, h⟩

section Instances

def contended : List Action :=
  [.call 0 .increment 3, .call 1 .decrement 3, .load 1, .load 0, .store 0, .fail 1, .load 1, .store 1]

theorem conservation_contended : ∃ c, (c.word = 5 ∧ c.incs = 1 ∧ c.decs = 1) ∧ Conserved 5 c := by
  obtain ⟨c, hr, hc⟩ : ∃ c, Run Admitted (initial 5) contended c ∧
      c.word = 5 ∧ c.incs = 1 ∧ c.decs = 1 :=
    exec_any_run (f := fun c a => if Inside c a then step c a else none)
      (fun _ _ _ => admitted_of_exec) (by decide +kernel)
  exact ⟨c, hc, (conservation hr).1⟩

/-- A decrement of 0 returns ERROR_NONE, and so does an increment that turns 255 into 0. -/
theorem conservation_fails :
    (∃ c, Run (fun c a d => step c a = some d) (initial 0) [.call 0 .decrement 1, .load 0] c ∧
      c.word = 0 ∧ c.decs = 1 ∧ ¬ Conserved 0 c) ∧
    ∃ c, Run (fun c a d => step c a = some d) (initial 255)
        [.call 0 .increment 1, .load 0, .store 0] c ∧
      c.word = 0 ∧ c.incs = 1 ∧ ¬ Conserved 255 c :=
  ⟨exec_any_run (f := step) (fun _ _ _ h => h) (by decide +kernel),
    exec_any_run (f := step) (fun _ _ _ h => h) (by decide +kernel)⟩

end Instances

end Skibios.Sharing.Semaphores
