import Skibios.Library.Simulation
import Skibios.Tasks.Identity

/-! `mutex_lock` and `mutex_unlock` of the MPC57x8 port, cut wherever a preemption can fall. The core
has one reservation, which `context_switch_handler` leaves as it is and the next LHARX of any mutex
replaces. -/

namespace Skibios.Sharing.Reservations

open Function Library.Runs Tasks.Identity

/-- Ids that LHARX can tell from a free mutex. -/
structure Ids where
  id : ℕ → ℕ
  low : ∀ k, id k % 65536 ≠ 0
  lt : ∀ k, id k < 4294967296

/-- Those the kernel gives to the slots after `n` earlier creations, but for every 65536th. -/
def kernelIds (n : ℕ → ℕ) (h : ∀ k, n k % 65536 ≠ 65535) : Ids where
  id k := idOf (k % 65536) (n k)
  low k := by
    have hk := h k
    rw [idOf_mod (Nat.mod_lt k (by decide))]
    omega
  lt _ := Nat.mod_lt _ (by decide)

/-- Where a task is in `mutex.S`: before STHCX, before the store of the other half, after it. -/
inductive Pc
  | out
  | store
  | rest
  | hold
  deriving DecidableEq

/-- The LHARX that has set the reservation: of this mutex, with what it read, or of another one. -/
inductive Reservation
  | here (r6 : ℕ)
  | other
  deriving DecidableEq

structure Mutex where
  word : ℕ
  pc : ℕ → Pc
  reservation : Option Reservation

inductive Action
  | load (k : ℕ)
  | store (k : ℕ)
  | rest (k : ℕ)
  | unlock (k : ℕ)
  -- LHARX and STHCX of another mutex
  | loadOther
  | storeOther

namespace Mutex

variable (strict : Bool) (id : ℕ → ℕ) (c : Mutex)

def goto (k : ℕ) (p : Pc) : Mutex := { c with pc := update c.pc k p }

/-- LHARX of the low half, and the exit where it is not 0. -/
def loadStep (k : ℕ) : Option Mutex :=
  let r6 := c.word % 65536
  let d := { c with reservation := some (.here r6) }
  if c.pc k = .out then some (if r6 = 0 then d.goto k .store else d) else none

/-- Whether STHCX stores. The architecture leaves open what it does on a reservation of another address:
a strict core does not store. -/
def Passes : Prop :=
  match c.reservation with
  | some (.here _) => True
  | some .other => strict = false
  | none => False

instance : Decidable (c.Passes strict) := by
  unfold Passes
  split <;> infer_instance

def storeStep (k : ℕ) : Option Mutex :=
  if c.pc k = .store then
    let d := { c with reservation := none }
    if c.Passes strict then
      some { d.goto k .rest with word := c.word / 65536 * 65536 + id k % 65536 }
    else some (d.goto k .out)
  else none

def restStep (k : ℕ) : Option Mutex :=
  if c.pc k = .rest then
    some { c.goto k .hold with word := id k / 65536 % 65536 * 65536 + c.word % 65536 }
  else none

def unlockStep (k : ℕ) : Option Mutex :=
  if c.pc k = .hold then some { c.goto k .out with word := 0 } else none

def step : Action → Option Mutex
  | .load k => c.loadStep k
  | .store k => c.storeStep strict id k
  | .rest k => c.restStep id k
  | .unlock k => c.unlockStep k
  | .loadOther => some { c with reservation := some .other }
  | .storeOther => some { c with reservation := none }

end Mutex

open Mutex

def initial : Mutex := ⟨0, fun _ => .out, none⟩

def Step (strict : Bool) (id : ℕ → ℕ) (c : Mutex) (a : Action) (d : Mutex) : Prop :=
  step strict id c a = some d

/-- A task between its successful STHCX and its unlock. -/
def Inside (c : Mutex) (k : ℕ) : Prop := c.pc k = .rest ∨ c.pc k = .hold

instance (c : Mutex) (k : ℕ) : Decidable (Inside c k) := inferInstanceAs (Decidable (_ ∨ _))

def Exclusive (c : Mutex) : Prop := ∀ j k, Inside c j → Inside c k → j = k

/-- The STHCX stores into a locked mutex, on the reservation of an attempt that found it locked or of an
LHARX of another mutex. -/
def Steals (strict : Bool) (c : Mutex) : Action → Prop
  | .store _ => c.Passes strict ∧ c.reservation ≠ some (.here 0) ∧ c.word % 65536 ≠ 0
  | _ => False

variable {strict : Bool} {I : Ids} {id : ℕ → ℕ} {c d : Mutex} {a : Action} {as : List Action} {j k : ℕ} {p : Pc}

@[simp] lemma goto_self : (c.goto k p).pc k = p := update_self ..

@[simp] lemma goto_ne (h : j ≠ k) : (c.goto k p).pc j = c.pc j := update_of_ne h _ _

structure Clean (id : ℕ → ℕ) (c : Mutex) : Prop where
  single : Exclusive c
  locked : ∀ k, Inside c k → c.word % 65536 ≠ 0
  owned : c.word % 65536 ≠ 0 → ∃ k, Inside c k
  fresh : c.reservation = some (.here 0) → c.word % 65536 = 0
  unlocked : c.word % 65536 = 0 → c.word = 0
  half : ∀ k, c.pc k = .rest → c.word = id k % 65536
  whole : ∀ k, c.pc k = .hold → c.word = id k

inductive Move (strict : Bool) (id : ℕ → ℕ) (c : Mutex) : Action → Mutex → Prop
  | refused {k : ℕ} (hk : c.pc k = .out) (hw : c.word % 65536 ≠ 0) :
      Move strict id c (.load k) { c with reservation := some (.here (c.word % 65536)) }
  | reserved {k : ℕ} (hk : c.pc k = .out) (hw : c.word % 65536 = 0) :
      Move strict id c (.load k) { c.goto k .store with reservation := some (.here 0) }
  | stored {k : ℕ} (hk : c.pc k = .store) (hp : c.Passes strict) :
      Move strict id c (.store k) { c.goto k .rest with
        word := c.word / 65536 * 65536 + id k % 65536
        reservation := none }
  | failed {k : ℕ} (hk : c.pc k = .store) (hp : ¬ c.Passes strict) :
      Move strict id c (.store k) { c.goto k .out with reservation := none }
  | rest {k : ℕ} (hk : c.pc k = .rest) : Move strict id c (.rest k) { c.goto k .hold with
      word := id k / 65536 % 65536 * 65536 + c.word % 65536 }
  | unlock {k : ℕ} (hk : c.pc k = .hold) : Move strict id c (.unlock k) { c.goto k .out with word := 0 }
  | other {b : Action} {r : Option Reservation} (hb : b = .loadOther ∨ b = .storeOther)
      (hr : r ≠ some (.here 0)) : Move strict id c b { c with reservation := r }

lemma step_move (h : Step strict id c a d) : Move strict id c a d := by
  cases a with
  | load k =>
    simp only [Step, step, loadStep] at h
    split_ifs at h with hk hw
    · obtain rfl := Option.some.inj h
      rw [hw]
      exact .reserved hk hw
    · obtain rfl := Option.some.inj h
      exact .refused hk hw
  | store k =>
    simp only [Step, step, storeStep] at h
    split_ifs at h with hk hr
    · obtain rfl := Option.some.inj h
      exact .stored hk hr
    · obtain rfl := Option.some.inj h
      exact .failed hk hr
  | rest k =>
    simp only [Step, step, restStep] at h
    split_ifs at h with hk
    obtain rfl := Option.some.inj h
    exact .rest hk
  | unlock k =>
    simp only [Step, step, unlockStep] at h
    split_ifs at h with hk
    obtain rfl := Option.some.inj h
    exact .unlock hk
  | loadOther =>
    obtain rfl := Option.some.inj h
    exact .other (Or.inl rfl) (by simp)
  | storeOther =>
    obtain rfl := Option.some.inj h
    exact .other (Or.inr rfl) (by simp)

lemma inside_goto : Inside (c.goto k p) j ↔
    j = k ∧ (p = .rest ∨ p = .hold) ∨ j ≠ k ∧ Inside c j := by
  rcases eq_or_ne j k with rfl | hne
  · simp [Inside]
  · simp [Inside, hne]

lemma Clean.reserve (h : Clean id c) {r : Option Reservation}
    (hr : r = some (.here 0) → c.word % 65536 = 0) :
    Clean id { c with reservation := r } :=
  ⟨h.single, h.locked, h.owned, hr, h.unlocked, h.half, h.whole⟩

lemma Clean.aside (h : Clean id c) (hk : ¬ Inside c k) (hp : ¬ (p = .rest ∨ p = .hold)) :
    Clean id (c.goto k p) := by
  have hin : ∀ j, Inside (c.goto k p) j ↔ Inside c j := by
    intro j
    rw [inside_goto]
    constructor
    · rintro (⟨-, hj⟩ | ⟨-, hj⟩)
      · exact absurd hj hp
      · exact hj
    · intro hj
      exact Or.inr ⟨fun heq => hk (heq ▸ hj), hj⟩
  have hpc : ∀ j, (c.goto k p).pc j = .rest ∨ (c.goto k p).pc j = .hold → (c.goto k p).pc j = c.pc j := by
    intro j hj
    refine goto_ne fun heq => hk ?_
    exact heq ▸ (hin j).mp hj
  refine ⟨fun i j hi hj => h.single i j ((hin i).mp hi) ((hin j).mp hj),
    fun j hj => h.locked j ((hin j).mp hj), fun hw => ?_, h.fresh, h.unlocked,
    fun j hj => h.half j ((hpc j (Or.inl hj)).symm.trans hj),
    fun j hj => h.whole j ((hpc j (Or.inr hj)).symm.trans hj)⟩
  obtain ⟨j, hj⟩ := h.owned hw
  exact ⟨j, (hin j).mpr hj⟩

lemma clean_alone {pc : ℕ → Pc} {word : ℕ} (hk : pc k = .rest ∨ pc k = .hold)
    (hothers : ∀ j, j ≠ k → pc j ≠ .rest ∧ pc j ≠ .hold) (hlow : word % 65536 = id k % 65536)
    (hid : id k % 65536 ≠ 0) (hhalf : pc k = .rest → word = id k % 65536)
    (hwhole : pc k = .hold → word = id k) {r : Option Reservation} (hr : r ≠ some (.here 0)) :
    Clean id ⟨word, pc, r⟩ := by
  have honly : ∀ j, Inside ⟨word, pc, r⟩ j → j = k := by
    intro j hj
    by_contra hne
    obtain ⟨h1, h2⟩ := hothers j hne
    exact hj.elim h1 h2
  refine ⟨fun i j hi hj => (honly i hi).trans (honly j hj).symm, fun _ _ => hlow ▸ hid, fun _ => ⟨k, hk⟩,
    fun h => absurd h hr, fun h => absurd (hlow.symm.trans h) hid, fun j hj => ?_, fun j hj => ?_⟩
  · obtain rfl := honly j (Or.inl hj)
    exact hhalf hj
  · obtain rfl := honly j (Or.inr hj)
    exact hwhole hj

lemma clean_free {pc : ℕ → Pc} (hout : ∀ j, pc j ≠ .rest ∧ pc j ≠ .hold) (r : Option Reservation) :
    Clean id ⟨0, pc, r⟩ := by
  have hno : ∀ j, ¬ Inside ⟨0, pc, r⟩ j := fun j hj => hj.elim (hout j).1 (hout j).2
  exact ⟨fun i _ hi => absurd hi (hno i), fun j hj => absurd hj (hno j), fun hw => absurd rfl hw,
    fun _ => rfl, fun _ => rfl, fun j hj => absurd hj (hout j).1, fun j hj => absurd hj (hout j).2⟩

lemma Clean.others (h : Clean id c) (hk : Inside c k) (hne : j ≠ k) : c.pc j ≠ .rest ∧ c.pc j ≠ .hold :=
  ⟨fun hj => hne (h.single j k (Or.inl hj) hk), fun hj => hne (h.single j k (Or.inr hj) hk)⟩

lemma not_inside (hk : c.pc k = .out ∨ c.pc k = .store) : ¬ Inside c k := by
  rintro (h | h) <;> rw [h] at hk <;> simp at hk

lemma Clean.found (h : Clean id c) (hp : c.Passes strict) (hn : ¬ Steals strict c (.store k)) :
    c.word = 0 := by
  refine h.unlocked ?_
  by_contra hw
  exact hn ⟨hp, fun hr => hw (h.fresh hr), hw⟩

lemma Clean.step (hid : ∀ k, id k % 65536 ≠ 0) (hlt : ∀ k, id k < 4294967296) (h : Clean id c)
    (hs : Step strict id c a d) (hn : ¬ Steals strict c a) : Clean id d := by
  cases step_move hs with
  | refused hk hw => exact h.reserve fun hr => absurd (by simpa using hr) hw
  | reserved hk hw =>
    have haside : Clean id (c.goto _ .store) := h.aside (not_inside (Or.inl hk)) (by simp)
    exact haside.reserve fun _ => hw
  | @stored k hk hp =>
    have hw := h.found hp hn
    have hout : ∀ j, c.pc j ≠ .rest ∧ c.pc j ≠ .hold := fun j =>
      ⟨fun hj => h.locked j (Or.inl hj) (by rw [hw]), fun hj => h.locked j (Or.inr hj) (by rw [hw])⟩
    refine clean_alone (k := k) (Or.inl goto_self) (fun j hj => ?_) (by omega) (hid k) (fun _ => by omega)
      (fun hhold => ?_) (by simp)
    · rw [goto_ne hj]
      exact hout j
    · rw [goto_self] at hhold
      cases hhold
  | failed hk hr =>
    have haside : Clean id (c.goto _ .out) := h.aside (not_inside (Or.inr hk)) (by simp)
    exact haside.reserve (by simp)
  | @rest k hk =>
    have hword := h.half k hk
    have hbound := hlt k
    refine clean_alone (k := k) (Or.inr goto_self) (fun j hj => ?_) (by omega) (hid k) (fun hrest => ?_)
      (fun _ => by omega) fun hr => ?_
    · rw [goto_ne hj]
      exact h.others (Or.inl hk) hj
    · rw [goto_self] at hrest
      cases hrest
    · exact h.locked k (Or.inl hk) (h.fresh hr)
  | @unlock k hk =>
    refine clean_free (fun j => ?_) _
    rcases eq_or_ne j k with rfl | hj
    · rw [goto_self]
      exact ⟨by decide, by decide⟩
    · rw [goto_ne hj]
      exact h.others (Or.inr hk) hj
  | other _ hr => exact h.reserve fun heq => absurd heq hr

lemma Clean.stolen (h : Clean id c) (hs : Step strict id c a d) (hst : Steals strict c a) :
    ¬ Exclusive d := by
  cases step_move hs with
  | @stored k hk hp =>
    obtain ⟨j, hj⟩ := h.owned hst.2.2
    have hne : j ≠ k := fun heq => not_inside (Or.inr hk) (heq ▸ hj)
    refine fun hex => hne (hex j k ?_ (Or.inl goto_self))
    exact inside_goto.mpr (Or.inr ⟨hne, hj⟩)
  | failed hk hp => exact absurd hst.1 hp
  | other hb _ => rcases hb with rfl | rfl <;> exact hst.elim
  | refused | reserved | rest | unlock => exact hst.elim

lemma initial_clean : Clean id initial := clean_free (fun _ => ⟨by decide, by decide⟩) none

lemma clean_run (h : Run (fun c a d => Step strict I.id c a d ∧ ¬ Steals strict c a) initial as c) :
    Clean I.id c :=
  h.invariant (I := Clean I.id) (fun _ _ _ hI hs => hI.step I.low I.lt hs.1 hs.2) initial_clean

/-- In any interleaving of any number of tasks, two of them get into the critical section exactly when
some STHCX steals the mutex. -/
theorem exclusion_lost_iff (h : Run (Step strict I.id) initial as c) :
    (∃ as₁ c₁ as₂, as = as₁ ++ as₂ ∧ Run (Step strict I.id) initial as₁ c₁ ∧
      Run (Step strict I.id) c₁ as₂ c ∧ ¬ Exclusive c₁) ↔
    ∃ as₁ c₁ a c₂ as₂, as = as₁ ++ a :: as₂ ∧ Run (Step strict I.id) initial as₁ c₁ ∧
      Step strict I.id c₁ a c₂ ∧ Steals strict c₁ a ∧ Run (Step strict I.id) c₂ as₂ c := by
  constructor
  · rintro ⟨as₁, c₁, as₂, rfl, h₁, h₂, hex⟩
    rcases h₁.all_or_split fun c a _ => Steals strict c a with hall | ⟨bs, u, a, v, bs', rfl, hu, hs, hst, hv⟩
    · exact absurd (clean_run hall).single hex
    · exact ⟨bs, u, a, v, bs' ++ as₂, by simp, hu, hs, hst, hv.append h₂⟩
  · rintro ⟨as₁, c₁, a, c₂, as₂, rfl, h₁, hs, hst, h₂⟩
    rcases h₁.all_or_first fun c a _ => Steals strict c a with hall | ⟨bs, u, b, v, bs', rfl, hu, hb, hst', hv⟩
    · exact ⟨as₁ ++ [a], c₂, as₂, by simp, h₁.snoc hs, h₂, (clean_run hall).stolen hs hst⟩
    · refine ⟨bs ++ [b], v, bs' ++ a :: as₂, by simp, (hu.mono fun _ _ _ h => h.1).snoc hb, ?_, ?_⟩
      · exact hv.append (h₂.cons hs)
      · exact (clean_run hu).stolen hb hst'

/-- While no STHCX steals it, the word of the mutex is the id of the task that holds it. -/
theorem word_names_holder
    (h : Run (fun c a d => Step strict I.id c a d ∧ ¬ Steals strict c a) initial as c) :
    (∀ k, c.pc k = .hold → c.word = I.id k) ∧ (c.word = 0 ↔ ∀ k, ¬ Inside c k) := by
  have hc := clean_run h
  refine ⟨hc.whole, fun hw k hk => hc.locked k hk (by rw [hw]), fun hno => hc.unlocked ?_⟩
  by_contra hw
  obtain ⟨k, hk⟩ := hc.owned hw
  exact hno k hk

section Instances

def ids : Ids := kernelIds (fun _ => 0) fun _ => by decide

/-- Task 2 takes the mutex between the two halves of the attempt of task 1, and task 3 fails to. -/
def thief : List Action := [.load 1, .load 2, .store 2, .rest 2, .load 3, .store 1]

def stolen : Mutex := (exec (step true ids.id) initial thief).getD initial

lemma thief_run : Run (Step true ids.id) initial thief stolen := exec_getD_run (fun _ _ _ h => h) (by decide)

theorem exclusion_lost_thief : ∃ as₁ c₁ a c₂ as₂, thief = as₁ ++ a :: as₂ ∧
    Run (Step true ids.id) initial as₁ c₁ ∧ Step true ids.id c₁ a c₂ ∧ Steals true c₁ a ∧ Run (Step true ids.id) c₂ as₂ stolen := by
  refine (exclusion_lost_iff thief_run).mp
    ⟨thief, stolen, [], by simp, thief_run, .nil, fun hex => ?_⟩
  exact absurd (hex 1 2 (by decide) (by decide)) (by decide)

def honest : Mutex := (exec (step true ids.id) initial [.load 1, .store 1, .rest 1]).getD initial

lemma honest_run : Run (fun c a d => Step true ids.id c a d ∧ ¬ Steals true c a) initial [.load 1, .store 1, .rest 1]
    honest := by
  exact Run.cons ⟨rfl, fun h => h⟩ (Run.cons ⟨rfl, fun h => h.2.1 rfl⟩ (Run.single ⟨rfl, fun h => h⟩))

theorem word_names_honest : honest.word = 65537 ∧ ¬ ∀ k, ¬ Inside honest k := by
  obtain ⟨hwhole, hfree⟩ := word_names_holder honest_run
  have hword : honest.word = ids.id 1 := hwhole 1 (by decide)
  refine ⟨hword, fun hno => ?_⟩
  have hzero := hword.symm.trans (hfree.mpr hno)
  exact absurd hzero (by decide)

end Instances

end Skibios.Sharing.Reservations
