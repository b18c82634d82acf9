import Mathlib.Algebra.Order.Group.Nat
import Mathlib.Data.Nat.Find
import Mathlib.Tactic.Common

/-! Loops of an imperative program: the body goes round again, leaves, or faults. -/

namespace Skibios.Library.Loops

variable {σ ρ : Type*}

inductive Turn (σ ρ : Type*)
  | again (s : σ)
  | leave (r : ρ)
  | fault

/-- `none` when the loop faults, or has not left after `n` turns. -/
def runLoop (body : σ → Turn σ ρ) : ℕ → σ → Option ρ
  | 0, _ => none
  | n + 1, s =>
    match body s with
    | .again t => runLoop body n t
    | .leave r => some r
    | .fault => none

variable {body : σ → Turn σ ρ}

lemma runLoop_again {n : ℕ} {s t : σ} (h : body s = .again t) :
    runLoop body (n + 1) s = runLoop body n t := by
  simp [runLoop, h]

lemma runLoop_leave {n : ℕ} {s : σ} {r : ρ} (h : body s = .leave r) :
    runLoop body (n + 1) s = some r := by
  simp [runLoop, h]

lemma runLoop_fault {n : ℕ} {s : σ} (h : body s = .fault) : runLoop body n s = none := by
  cases n <;> simp [runLoop, h]

lemma runLoop_mono {n m : ℕ} {s : σ} {r : ρ} (h : runLoop body n s = some r) (hm : n ≤ m) :
    runLoop body m s = some r := by
  induction n generalizing m s with
  | zero => simp [runLoop] at h
  | succ n ih =>
    obtain ⟨m, rfl⟩ : ∃ k, m = k + 1 := ⟨m - 1, by omega⟩
    cases hb : body s with
    | again t =>
      rw [runLoop_again hb] at h ⊢
      exact ih h (by omega)
    | leave t => rwa [runLoop_leave hb] at h ⊢
    | fault => simp [runLoop_fault hb] at h

lemma runLoop_invariant {I : σ → Prop} {Q : ρ → Prop}
    (ha : ∀ s t, I s → body s = .again t → I t) (hl : ∀ s r, I s → body s = .leave r → Q r)
    {n : ℕ} {s : σ} {r : ρ} (hs : I s) (h : runLoop body n s = some r) : Q r := by
  induction n generalizing s with
  | zero => simp [runLoop] at h
  | succ n ih =>
    cases hb : body s with
    | again t =>
      rw [runLoop_again hb] at h
      exact ih (ha s t hs hb) h
    | leave t =>
      rw [runLoop_leave hb, Option.some.injEq] at h
      exact h ▸ hl s t hs hb
    | fault => simp [runLoop_fault hb] at h

lemma runLoop_unique {n m : ℕ} {s : σ} {r r' : ρ} (h : runLoop body n s = some r)
    (h' : runLoop body m s = some r') : r = r' := by
  have hn := runLoop_mono h (le_max_left n m)
  rw [runLoop_mono h' (le_max_right n m), Option.some.injEq] at hn
  exact hn.symm

def Turn.map {τ ξ : Type*} (f : σ → τ) (g : ρ → ξ) : Turn σ ρ → Turn τ ξ
  | .again s => .again (f s)
  | .leave r => .leave (g r)
  | .fault => .fault

lemma runLoop_map {τ ξ : Type*} {f : σ → τ} {g : ρ → ξ} {body' : τ → Turn τ ξ}
    (h : ∀ s, body' (f s) = (body s).map f g) (n : ℕ) (s : σ) :
    runLoop body' n (f s) = (runLoop body n s).map g := by
  induction n generalizing s with
  | zero => rfl
  | succ n ih =>
    have hs := h s
    cases hb : body s with
    | again t =>
      rw [hb] at hs
      rw [runLoop_again hb, runLoop_again hs, ih]
    | leave r =>
      rw [hb] at hs
      rw [runLoop_leave hb, runLoop_leave hs, Option.map_some]
    | fault =>
      rw [hb] at hs
      rw [runLoop_fault hb, runLoop_fault hs, Option.map_none]

lemma runLoop_leaves {I : σ → Prop} (μ : σ → ℕ)
    (hI : ∀ s, I s → (∃ t, body s = .again t ∧ I t ∧ μ t < μ s) ∨ ∃ r, body s = .leave r) {s : σ}
    (hs : I s) : ∃ n r, runLoop body n s = some r := by
  induction hm : μ s using Nat.strong_induction_on generalizing s with
  | _ m ih =>
    rcases hI s hs with ⟨t, hb, ht, hlt⟩ | ⟨r, hb⟩
    · obtain ⟨n, r, hr⟩ := ih (μ t) (by omega) ht rfl
      exact ⟨n + 1, r, by rw [runLoop_again hb, hr]⟩
    · exact ⟨1, r, runLoop_leave hb⟩

/-- The configurations from which the loop makes its first `n` turns, fewer if it ends. -/
def visited (body : σ → Turn σ ρ) : ℕ → σ → List σ
  | 0, _ => []
  | n + 1, s => s :: match body s with
    | .again t => visited body n t
    | .leave _ | .fault => []

lemma visited_invariant {I : σ → Prop} (hI : ∀ s t, I s → body s = .again t → I t) {n : ℕ} {s t : σ}
    (hs : I s) (ht : t ∈ visited body n s) : I t := by
  induction n generalizing s with
  | zero => simp [visited] at ht
  | succ n ih =>
    unfold visited at ht
    rcases List.mem_cons.mp ht with rfl | ht
    · exact hs
    · cases hb : body s with
      | again u =>
        rw [hb] at ht
        exact ih (hI s u hs hb) ht
      | leave r => simp [hb] at ht
      | fault => simp [hb] at ht

lemma visited_walk {c : ℕ → σ} {m : ℕ} {r : ρ} (ha : ∀ j, j + 1 < m → body (c j) = .again (c (j + 1)))
    (hl : ∀ j, j + 1 = m → body (c j) = .leave r) : visited body m (c 0) = (List.range m).map c := by
  induction m generalizing c with
  | zero => rfl
  | succ m ih =>
    rw [visited, List.range_succ_eq_map, List.map_cons, List.map_map]
    congr 1
    rcases Nat.eq_zero_or_pos m with rfl | hpos
    · rw [hl 0 rfl]
      rfl
    · rw [ha 0 (by omega)]
      exact ih (c := fun j => c (j + 1)) (fun j hj => ha (j + 1) (by omega))
        fun j hj => hl (j + 1) (by omega)

lemma runLoop_walk {c : ℕ → σ} {m : ℕ} {r : ρ} (hm : 0 < m)
    (ha : ∀ j, j + 1 < m → body (c j) = .again (c (j + 1)))
    (hl : ∀ j, j + 1 = m → body (c j) = .leave r) : runLoop body m (c 0) = some r := by
  induction m generalizing c with
  | zero => omega
  | succ m ih =>
    rcases Nat.eq_zero_or_pos m with rfl | hpos
    · exact runLoop_leave (hl 0 rfl)
    · rw [runLoop_again (ha 0 (by omega))]
      exact ih (c := fun j => c (j + 1)) hpos (fun j hj => ha (j + 1) (by omega))
        fun j hj => hl (j + 1) (by omega)

lemma runLoop_left {c : ℕ → σ} (ha : ∀ j t, body (c j) = .again t → t = c (j + 1)) {n : ℕ} {r : ρ}
    (h : runLoop body n (c 0) = some r) :
    ∃ j, body (c j) = .leave r ∧ ∀ i < j, body (c i) = .again (c (i + 1)) := by
  induction n generalizing c with
  | zero => simp [runLoop] at h
  | succ n ih =>
    cases hb : body (c 0) with
    | again t =>
      obtain rfl := ha 0 t hb
      rw [runLoop_again hb] at h
      obtain ⟨j, hj, hbefore⟩ := ih (c := fun j => c (j + 1)) (fun j => ha (j + 1)) h
      refine ⟨j + 1, hj, fun i hi => ?_⟩
      cases i with
      | zero => exact hb
      | succ i => exact hbefore i (Nat.lt_of_succ_lt_succ hi)
    | leave t =>
      rw [runLoop_leave hb, Option.some.injEq] at h
      exact ⟨0, h ▸ hb, by simp⟩
    | fault => simp [runLoop_fault hb] at h

/-- The loop with a list of what `f` sees at each turn. -/
def traced {α : Type*} (f : σ → α) (body : σ → Turn σ ρ) (c : σ × List α) :
    Turn (σ × List α) (ρ × List α) :=
  match body c.1 with
  | .again t => .again (t, c.2 ++ [f c.1])
  | .leave r => .leave (r, c.2 ++ [f c.1])
  | .fault => .fault

section Traced

variable {α : Type*} {f : σ → α}

lemma traced_fst {n : ℕ} {c : σ × List α} {r : ρ × List α}
    (h : runLoop (traced f body) n c = some r) : runLoop body n c.1 = some r.1 := by
  induction n generalizing c with
  | zero => cases h
  | succ n ih =>
    cases hb : body c.1 with
    | again t =>
      rw [runLoop_again (t := (t, c.2 ++ [f c.1])) (by rw [traced, hb])] at h
      rw [runLoop_again hb]
      exact ih h
    | leave t =>
      rw [runLoop_leave (r := (t, c.2 ++ [f c.1])) (by rw [traced, hb])] at h
      rw [runLoop_leave hb, ← Option.some.inj h]
    | fault =>
      rw [runLoop_fault (by rw [traced, hb])] at h
      cases h

lemma traced_walk {c : ℕ → σ} {m : ℕ} {r : ρ} (hm : 0 < m)
    (ha : ∀ j, j + 1 < m → body (c j) = .again (c (j + 1)))
    (hl : ∀ j, j + 1 = m → body (c j) = .leave r) :
    runLoop (traced f body) m (c 0, []) = some (r, (List.range m).map fun j => f (c j)) := by
  have htrace : ∀ j, (List.range (j + 1)).map (fun j => f (c j)) =
      (List.range j).map (fun j => f (c j)) ++ [f (c j)] := by
    intro j
    rw [List.range_succ, List.map_append, List.map_singleton]
  refine runLoop_walk (c := fun j => (c j, (List.range j).map fun j => f (c j))) hm
    (fun j hj => ?_) fun j hj => ?_
  · rw [traced, ha j hj, htrace]
  · subst hj
    rw [traced, hl j rfl, htrace]

end Traced

/-- A computation with fuel that comes to a result, the same one for all more fuel. -/
def Returns (f : ℕ → Option ρ) : Prop := ∃ k r, ∀ m, k ≤ m → f m = some r

lemma Returns.pure (r : ρ) : Returns fun _ => some r := ⟨0, r, fun _ _ => rfl⟩

lemma Returns.loop {s : σ} (h : ∃ n r, runLoop body n s = some r) :
    Returns fun m => runLoop body m s := by
  obtain ⟨n, r, hr⟩ := h
  exact ⟨n, r, fun m hm => runLoop_mono hr hm⟩

lemma Returns.bind {τ : Type*} {f : ℕ → Option ρ} {g : ℕ → ρ → Option τ} (hf : Returns f)
    (hg : ∀ k r, f k = some r → Returns fun m => g m r) : Returns fun m => (f m).bind (g m) := by
  obtain ⟨k, r, hr⟩ := hf
  obtain ⟨l, t, ht⟩ := hg k r (hr k le_rfl)
  refine ⟨max k l, t, fun m hm => ?_⟩
  dsimp only at ht ⊢
  rw [hr m (le_of_max_le_left hm), Option.bind_some, ht m (le_of_max_le_right hm)]

lemma Returns.map {τ : Type*} {f : ℕ → Option ρ} (hf : Returns f) (g : ρ → τ) :
    Returns fun m => (f m).map g := by
  obtain ⟨k, r, hr⟩ := hf
  exact ⟨k, g r, fun m hm => by simp only [hr m hm, Option.map_some]⟩

lemma runLoop_stuck {I : σ → Prop} (hI : ∀ s, I s → ∃ t, body s = .again t ∧ I t) (n : ℕ) {s : σ}
    (hs : I s) : runLoop body n s = none := by
  induction n generalizing s with
  | zero => rfl
  | succ n ih =>
    obtain ⟨t, hb, ht⟩ := hI s hs
    rw [runLoop_again hb]
    exact ih ht

/-- A loop whose configurations `c 0, c 1, ...` are known in closed form: turn `j` arrives at
position `j + 1`, where it faults on `bad`, leaves on `hit` and goes on otherwise. -/
structure Along (body : σ → Turn σ ρ) (c : ℕ → σ) (out : ℕ → ρ) (bad hit : ℕ → Prop) : Prop where
  fault : ∀ j, bad (j + 1) → body (c j) = .fault
  leave : ∀ j, ¬ bad (j + 1) → hit (j + 1) → body (c j) = .leave (out (j + 1))
  again : ∀ j, ¬ bad (j + 1) → ¬ hit (j + 1) → body (c j) = .again (c (j + 1))

structure Exit (bad hit : ℕ → Prop) (m : ℕ) : Prop where
  pos : 0 < m
  here : hit m
  sound : ∀ j, 0 < j → j ≤ m → ¬ bad j
  first : ∀ j, 0 < j → j < m → ¬ hit j

lemma Exit.unique {bad hit : ℕ → Prop} {m n : ℕ} (hm : Exit bad hit m) (hn : Exit bad hit n) :
    m = n := by
  rcases lt_trichotomy m n with h | h | h
  · exact (hn.first m hm.pos h hm.here).elim
  · exact h
  · exact (hm.first n hn.pos h hn.here).elim

lemma Exit.of_hit {bad hit : ℕ → Prop} {k : ℕ} (hk : 0 < k) (hh : hit k)
    (hb : ∀ j, 0 < j → j ≤ k → ¬ bad j) : ∃ m ≤ k, Exit bad hit m := by
  classical
  have hex : ∃ j, 0 < j ∧ hit j := ⟨k, hk, hh⟩
  have hle : Nat.find hex ≤ k := Nat.find_min' hex ⟨hk, hh⟩
  obtain ⟨hpos, hhit⟩ := Nat.find_spec hex
  refine ⟨Nat.find hex, hle, hpos, hhit, fun j hj hjm => hb j hj (hjm.trans hle), fun j hj hjm h => ?_⟩
  exact Nat.find_min hex hjm ⟨hj, h⟩

lemma Along.exit {c : ℕ → σ} {out : ℕ → ρ} {bad hit : ℕ → Prop} (ha : Along body c out bad hit)
    {n k : ℕ} {r : ρ} (hs : ∀ j, 0 < j → j ≤ k → ¬ bad j ∧ ¬ hit j)
    (h : runLoop body n (c k) = some r) : ∃ m, Exit bad hit m ∧ r = out m := by
  induction n generalizing k with
  | zero => simp [runLoop] at h
  | succ n ih =>
    by_cases hb : bad (k + 1)
    · simp [runLoop_fault (ha.fault k hb)] at h
    by_cases hh : hit (k + 1)
    · rw [runLoop_leave (ha.leave k hb hh), Option.some.injEq] at h
      refine ⟨k + 1, ⟨by omega, hh, ?_, fun j hj hk => (hs j hj (by omega)).2⟩, h.symm⟩
      intro j hj hk
      rcases eq_or_lt_of_le hk with rfl | hk
      · exact hb
      · exact (hs j hj (by omega)).1
    · rw [runLoop_again (ha.again k hb hh)] at h
      refine ih (k := k + 1) ?_ h
      intro j hj hk
      rcases eq_or_lt_of_le hk with rfl | hk
      · exact ⟨hb, hh⟩
      · exact hs j hj (by omega)

lemma Along.reach {c : ℕ → σ} {out : ℕ → ρ} {bad hit : ℕ → Prop} (ha : Along body c out bad hit)
    {m : ℕ} (hm : Exit bad hit m) (k : ℕ) (hk : k < m) :
    runLoop body (m - k) (c k) = some (out m) := by
  refine runLoop_walk (c := fun j => c (k + j)) (by omega) (fun j hj => ?_) fun j hj => ?_
  · exact ha.again (k + j) (hm.sound _ (by omega) (by omega)) (hm.first _ (by omega) (by omega))
  · obtain rfl : m = k + j + 1 := by omega
    exact ha.leave (k + j) (hm.sound _ (by omega) le_rfl) hm.here

lemma Along.returns_iff {c : ℕ → σ} {out : ℕ → ρ} {bad hit : ℕ → Prop}
    (ha : Along body c out bad hit) (r : ρ) :
    (∃ n, runLoop body n (c 0) = some r) ↔ ∃ m, Exit bad hit m ∧ r = out m := by
  constructor
  · rintro ⟨n, h⟩
    exact ha.exit (by omega) h
  · rintro ⟨m, hm, rfl⟩
    exact ⟨m, ha.reach hm 0 hm.pos⟩

/-- `for(j = 0; j < n; j++)` with a body that never breaks. -/
def forRange (n : ℕ) (f : ℕ → σ → σ) (s : σ) : σ :=
  match n with
  | 0 => s
  | n + 1 => f n (forRange n f s)

@[simp] lemma forRange_zero (f : ℕ → σ → σ) (s : σ) : forRange 0 f s = s := rfl

@[simp] lemma forRange_succ (n : ℕ) (f : ℕ → σ → σ) (s : σ) :
    forRange (n + 1) f s = f n (forRange n f s) := rfl

lemma forRange_invariant {f : ℕ → σ → σ} {s : σ} (P : ℕ → σ → Prop) (n : ℕ) (hs : P 0 s)
    (hf : ∀ j t, j < n → P j t → P (j + 1) (f j t)) : P n (forRange n f s) := by
  induction n with
  | zero => exact hs
  | succ n ih => exact hf n _ (by omega) (ih fun j t hj => hf j t (by omega))

lemma forRange_congr {f g : ℕ → σ → σ} {s : σ} {n : ℕ} (h : ∀ j < n, ∀ t, f j t = g j t) :
    forRange n f s = forRange n g s := by
  induction n with
  | zero => rfl
  | succ n ih =>
    rw [forRange_succ, forRange_succ, ih fun j hj => h j (hj.trans n.lt_succ_self)]
    exact h n n.lt_succ_self _

/-- `for(i = 0; i < n; i++) if(p(i)) break;` leaves `i` at the first match, or at `n`. -/
def firstIndex (p : ℕ → Bool) (n : ℕ) : ℕ :=
  ((List.range n).find? p).getD n

lemma firstIndex_le (p : ℕ → Bool) (n : ℕ) : firstIndex p n ≤ n := by
  unfold firstIndex
  cases h : (List.range n).find? p with
  | none => simp
  | some i =>
    have := List.mem_of_find?_eq_some h
    simp only [List.mem_range] at this
    simpa using this.le

lemma firstIndex_spec {p : ℕ → Bool} {n : ℕ} (h : firstIndex p n < n) :
    p (firstIndex p n) = true := by
  unfold firstIndex at h ⊢
  cases hf : (List.range n).find? p with
  | none => simp [hf] at h
  | some i => simpa using List.find?_some hf

lemma firstIndex_min {p : ℕ → Bool} {n j : ℕ} (h : j < firstIndex p n) : p j = false := by
  unfold firstIndex at h
  cases hf : (List.range n).find? p with
  | none =>
    simp only [hf, Option.getD_none] at h
    have := List.find?_eq_none.mp hf j (List.mem_range.mpr h)
    simpa using this
  | some i =>
    simp only [hf, Option.getD_some] at h
    have := (List.find?_range_eq_some.mp hf).2.2 j h
    simpa using this

lemma firstIndex_le_of {p : ℕ → Bool} {n j : ℕ} (hp : p j = true) : firstIndex p n ≤ j := by
  by_contra h
  simp [firstIndex_min (not_le.mp h)] at hp

end Skibios.Library.Loops
