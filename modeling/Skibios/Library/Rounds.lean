import Skibios.Library.Rings
import Skibios.Library.Runs

/-! A lap of a ring as a list, the elements of it that have a property, and systems that take such a
list in turn. -/

namespace Skibios.Library.Rounds

open Function Rings Runs

variable {f : ℕ → ℕ} {L : ℕ → Prop} {a k m : ℕ}

noncomputable def lap (f : ℕ → ℕ) (a : ℕ) : List ℕ :=
  (List.range (minimalPeriod f a)).map fun i => f^[i + 1] a

lemma lap_length : (lap f a).length = minimalPeriod f a := by simp [lap]

lemma mem_lap (h : RingFrom f L a) : k ∈ lap f a ↔ L k := by
  simp only [lap, List.mem_map, List.mem_range]
  constructor
  · rintro ⟨i, -, rfl⟩
    exact h.position (i + 1)
  · intro hk
    obtain ⟨i, hi, rfl⟩ := h.index hk
    cases i with
    | zero =>
      have hpos := h.length_pos
      refine ⟨minimalPeriod f a - 1, by omega, ?_⟩
      rw [Nat.sub_add_cancel hpos]
      exact iterate_minimalPeriod
    | succ i => exact ⟨i, by omega, rfl⟩

lemma lap_nodup (h : a ∈ periodicPts f) : (lap f a).Nodup := by
  refine List.Nodup.map_on ?_ List.nodup_range
  intro i hi j hj he
  have hinj := iterate_injOn_Iio_minimalPeriod (f := f) (x := f a)
  rw [minimalPeriod_apply h] at hinj
  exact hinj (List.mem_range.mp hi) (List.mem_range.mp hj) he

lemma lap_from (hm : m ≤ minimalPeriod f a) (h : a ∈ periodicPts f) :
    lap f (f^[m] a) = (lap f a).drop m ++ (lap f a).take m := by
  have hperiod := minimalPeriod_apply_iterate h m
  apply List.ext_getElem
  · simp only [lap_length, List.length_append, List.length_drop, List.length_take, hperiod]
    omega
  · intro i hi _
    rw [lap_length, hperiod] at hi
    simp only [lap, List.getElem_map, List.getElem_range, List.getElem_append, List.length_drop,
      List.length_map, List.length_range, List.getElem_drop, List.getElem_take, ← iterate_add_apply]
    split_ifs with hlt
    · congr 1
      omega
    · -- past the end of the old lap
      have hwrap : i + 1 + m = i - (minimalPeriod f a - m) + 1 + minimalPeriod f a := by omega
      rw [hwrap, iterate_add_apply, iterate_minimalPeriod]

section Filter

variable {p : ℕ → Prop} [DecidablePred p]

lemma take_filter (hpos : 0 < m) (hm : m ≤ minimalPeriod f a) (hp : p (f^[m] a))
    (hfirst : ∀ j, 0 < j → j < m → ¬ p (f^[j] a)) : ((lap f a).take m).filter p = [f^[m] a] := by
  obtain ⟨j, rfl⟩ : ∃ j, m = j + 1 := ⟨m - 1, by omega⟩
  have hnone : (List.map (fun i => f^[i + 1] a) (List.range j)).filter p = [] := by
    rw [List.filter_eq_nil_iff]
    intro x hx
    obtain ⟨i, hi, rfl⟩ := List.mem_map.mp hx
    rw [decide_eq_true_iff]
    exact hfirst (i + 1) (Nat.succ_pos i) (Nat.succ_lt_succ (List.mem_range.mp hi))
  rw [lap, ← List.map_take, List.take_range, min_eq_left hm, List.range_succ, List.map_append,
    List.filter_append, hnone, List.nil_append, List.map_singleton]
  exact List.filter_cons_of_pos (decide_eq_true hp)

lemma lap_filter_turn (h : a ∈ periodicPts f) (hpos : 0 < m) (hm : m ≤ minimalPeriod f a)
    (hp : p (f^[m] a)) (hfirst : ∀ j, 0 < j → j < m → ¬ p (f^[j] a)) :
    ∃ rest, (lap f a).filter p = f^[m] a :: rest ∧
      (lap f (f^[m] a)).filter p = rest ++ [f^[m] a] := by
  have htake := take_filter hpos hm hp hfirst
  refine ⟨((lap f a).drop m).filter p, ?_, ?_⟩
  · rw [← List.singleton_append, ← htake, ← List.filter_append, List.take_append_drop]
  · rw [lap_from hm h, List.filter_append, htake]

end Filter

section Rotation

variable {σ α : Type*} {step : σ → α → σ → Prop} {I : σ → Prop} {o : σ → List α} {s t : σ}
  {xs : List α}

lemma run_rotates
    (hstep : ∀ s x t, I s → step s x t → I t ∧ ∃ rest, o s = x :: rest ∧ o t = rest ++ [x])
    (hs : I s) (h : Run step s xs t) (hle : xs.length ≤ (o s).length) :
    ∃ rest, o s = xs ++ rest ∧ o t = rest ++ xs := by
  induction h with
  | nil => exact ⟨o s, rfl, (List.append_nil _).symm⟩
  | @snoc ys u v x hrun hx ih =>
    rw [List.length_append, List.length_singleton] at hle
    obtain ⟨rest, hold, hnew⟩ := ih (by omega)
    have hu : I u := hrun.invariant (fun s x t hs hx => (hstep s x t hs hx).1) hs
    obtain ⟨-, tail, hhead, hturn⟩ := hstep u x v hu hx
    rw [hnew] at hhead
    cases rest with
    | nil =>
      rw [hold, List.append_nil] at hle
      omega
    | cons y rest =>
      obtain ⟨hx', rfl⟩ := List.cons.inj hhead
      obtain rfl := hx'.symm
      refine ⟨rest, ?_, ?_⟩
      · rw [hold, List.append_assoc, List.singleton_append]
      · rw [hturn]
        exact List.append_assoc rest ys [x]

end Rotation

end Skibios.Library.Rounds
