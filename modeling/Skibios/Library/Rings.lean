import Mathlib.Dynamics.PeriodicPts.Lemmas
import Mathlib.Tactic.Common
import Mathlib.Tactic.Push

/-! Rings: a successor function whose orbit visits a set of numbers, in particular the sorted
ring that visits a finite set in increasing order and wraps round to its least element. -/

namespace Skibios.Library.Rings

open Function

/-- Following `f` from `a` comes back to `a` and meets exactly the elements of `L`. -/
structure RingFrom (f : ℕ → ℕ) (L : ℕ → Prop) (a : ℕ) : Prop where
  periodic : a ∈ periodicPts f
  visits : ∀ k, L k ↔ ∃ i, f^[i] a = k

variable {f : ℕ → ℕ} {L : ℕ → Prop} {a b k : ℕ}

lemma position_eq_start_iff (i : ℕ) : f^[i] a = a ↔ i % minimalPeriod f a = 0 := by
  rw [← Nat.dvd_iff_mod_eq_zero, ← isPeriodicPt_iff_minimalPeriod_dvd]
  rfl

namespace RingFrom

lemma start (h : RingFrom f L a) : L a := (h.visits a).mpr ⟨0, rfl⟩

lemma position (h : RingFrom f L a) (i : ℕ) : L (f^[i] a) := (h.visits _).mpr ⟨i, rfl⟩

lemma length_pos (h : RingFrom f L a) : 0 < minimalPeriod f a :=
  minimalPeriod_pos_of_mem_periodicPts h.periodic

lemma index (h : RingFrom f L a) (hk : L k) : ∃ i < minimalPeriod f a, f^[i] a = k := by
  obtain ⟨i, hi⟩ := (h.visits k).mp hk
  exact ⟨i % minimalPeriod f a, Nat.mod_lt _ h.length_pos, by rw [iterate_mod_minimalPeriod_eq, hi]⟩

lemma move (h : RingFrom f L a) (m : ℕ) : RingFrom f L (f^[m] a) := by
  have hper : IsPeriodicPt f (minimalPeriod f a) a := isPeriodicPt_minimalPeriod f a
  refine ⟨mk_mem_periodicPts h.length_pos (hper.apply_iterate m), fun k => ?_⟩
  rw [h.visits]
  constructor
  · rintro ⟨i, rfl⟩
    refine ⟨i + (minimalPeriod f a * m - m), ?_⟩
    have hle : m ≤ minimalPeriod f a * m := Nat.le_mul_of_pos_left m h.length_pos
    rw [← iterate_add_apply, Nat.add_assoc, Nat.sub_add_cancel hle, iterate_add_apply,
      (hper.mul_const m).eq]
  · rintro ⟨i, rfl⟩
    exact ⟨i + m, iterate_add_apply f i m a⟩

lemma of_positions {n b : ℕ} (hn : 0 < n) (hcycle : f^[n] a = a) (hL : ∀ k, L k → k < b)
    (hvisits : ∀ k < b, L k ↔ ∃ i < n, f^[i] a = k) (hin : ∀ i < n, f^[i] a < b) :
    RingFrom f L a := by
  refine ⟨mk_mem_periodicPts hn hcycle, fun k => ⟨fun hk => ?_, ?_⟩⟩
  · obtain ⟨i, -, hi⟩ := (hvisits k (hL k hk)).mp hk
    exact ⟨i, hi⟩
  · rintro ⟨i, rfl⟩
    have hmod : f^[i % n] a = f^[i] a := IsPeriodicPt.iterate_mod_apply hcycle i
    rw [← hmod]
    exact (hvisits _ (hin _ (Nat.mod_lt i hn))).mpr ⟨i % n, Nat.mod_lt i hn, rfl⟩

end RingFrom

/-- `k'` comes after `k` on the sorted ring over `L`. -/
structure Follows (L : ℕ → Prop) (k k' : ℕ) : Prop where
  mem : L k'
  gap : (k < k' ∧ ∀ j, k < j → j < k' → ¬ L j) ∨
    (k' ≤ k ∧ (∀ j, k < j → ¬ L j) ∧ ∀ j, j < k' → ¬ L j)

def Sorted (L : ℕ → Prop) (f : ℕ → ℕ) : Prop := ∀ k, L k → Follows L k (f k)

lemma Follows.below_or_wrap {k k' j : ℕ} (h : Follows L k k') (hj : L j) (hk : k < j) :
    k < k' ∧ k' ≤ j := by
  rcases h.gap with ⟨hlt, hg⟩ | ⟨_, hg, _⟩
  · exact ⟨hlt, not_lt.mp fun hh => hg j hk hh hj⟩
  · exact (hg j hk hj).elim

lemma Follows.congr {L' : ℕ → Prop} {k k' : ℕ} (h : Follows L k k') (he : ∀ j, L j ↔ L' j) :
    Follows L' k k' := by
  obtain rfl : L = L' := funext fun j => propext (he j)
  exact h

lemma reach_up (hf : Sorted L f) (ha : L a) (hb : L b) (hab : a ≤ b) : ∃ i, f^[i] a = b := by
  induction hn : b - a using Nat.strong_induction_on generalizing a with
  | _ n ih =>
    rcases eq_or_lt_of_le hab with rfl | hlt
    · exact ⟨0, rfl⟩
    · obtain ⟨hl, hu⟩ := (hf a ha).below_or_wrap hb hlt
      obtain ⟨i, hi⟩ := ih (b - f a) (by omega) (hf a ha).mem hu rfl
      exact ⟨i + 1, by rw [iterate_succ_apply, hi]⟩

lemma exists_greatest {n : ℕ} (hn : ∀ k, L k → k < n) (ha : L a) :
    ∃ m, L m ∧ ∀ k, L k → k ≤ m := by
  induction n with
  | zero => exact absurd (hn a ha) (by omega)
  | succ n ih =>
    by_cases h : L n
    · exact ⟨n, h, fun k hk => by have := hn k hk; omega⟩
    · refine ih fun k hk => ?_
      have := hn k hk
      rcases eq_or_ne k n with rfl | hne
      · exact (h hk).elim
      · omega

lemma reach (hf : Sorted L f) {n : ℕ} (hn : ∀ k, L k → k < n) (ha : L a) (hb : L b) :
    ∃ i, f^[i + 1] a = b := by
  obtain ⟨m, hm, hmax⟩ := exists_greatest hn ha
  obtain ⟨i, hi⟩ := reach_up hf ha hm (hmax a ha)
  have hwrap : ∀ j, j < f m → ¬ L j := by
    rcases (hf m hm).gap with ⟨hlt, _⟩ | ⟨_, _, hleast⟩
    · exact absurd (hmax _ (hf m hm).mem) (by omega)
    · exact hleast
  obtain ⟨j, hj⟩ := reach_up hf (hf m hm).mem hb (not_lt.mp fun h => hwrap b h hb)
  refine ⟨j + i, ?_⟩
  rw [show j + i + 1 = j + (i + 1) by omega, iterate_add_apply, iterate_succ_apply', hi, hj]

lemma Sorted.ring (hf : Sorted L f) {n : ℕ} (hn : ∀ k, L k → k < n) (ha : L a) :
    RingFrom f L a := by
  refine ⟨?_, fun k => ⟨fun hk => ?_, ?_⟩⟩
  · obtain ⟨i, hi⟩ := reach hf hn ha ha
    exact mk_mem_periodicPts (Nat.succ_pos i) hi
  · obtain ⟨i, hi⟩ := reach hf hn ha hk
    exact ⟨i + 1, hi⟩
  · rintro ⟨i, rfl⟩
    induction i with
    | zero => exact ha
    | succ i ih => exact iterate_succ_apply' f i a ▸ (hf _ ih).mem

lemma Sorted.increasing (hf : Sorted L f) {n : ℕ} (hn : ∀ k, L k → k < n) (ha : L a)
    (hleast : ∀ k, L k → a ≤ k) {i j : ℕ} (hij : i < j) (hj : j < minimalPeriod f a) :
    f^[i] a < f^[j] a := by
  have hr := hf.ring hn ha
  have hstep : ∀ i, i + 1 < minimalPeriod f a → f^[i] a < f^[i + 1] a := by
    intro i hi
    have hnext := hf _ (hr.position i)
    rw [← iterate_succ_apply' f] at hnext
    rcases hnext.gap with ⟨hlt, _⟩ | ⟨_, _, hl⟩
    · exact hlt
    · have he : f^[i + 1] a = a :=
        le_antisymm (not_lt.mp fun h => hl a h ha) (hleast _ hnext.mem)
      have := (position_eq_start_iff (i + 1)).mp he
      rw [Nat.mod_eq_of_lt hi] at this
      omega
  induction j, hij using Nat.le_induction with
  | base => exact hstep i hj
  | succ j hij ih => exact (ih (by omega)).trans (hstep j hj)

lemma Sorted.inj (hf : Sorted L f) {j : ℕ} (hj : L j) (hk : L k) (he : f j = f k) : j = k := by
  by_contra hne
  wlog hlt : j < k generalizing j k
  · exact this hk hj he.symm (Ne.symm hne) (by omega)
  obtain ⟨h1, h2⟩ := (hf j hj).below_or_wrap hk hlt
  rcases (hf k hk).gap with ⟨h3, _⟩ | ⟨_, _, h3⟩
  · omega
  · exact h3 j (by omega) hj

lemma Sorted.insert (hf : Sorted L f) {p i : ℕ} (hp : L p) (hpi : p < i)
    (hgap : ∀ j, p < j → j ≤ i → ¬ L j) :
    Sorted (fun k => L k ∨ k = i) (update (update f i (f p)) p i) := by
  have hi : ¬ L i := hgap i hpi le_rfl
  intro k hk
  rcases eq_or_ne k p with rfl | hkp
  · rw [update_self]
    refine ⟨Or.inr rfl, Or.inl ⟨hpi, fun j h1 h2 => ?_⟩⟩
    rintro (hj | rfl)
    · exact hgap j h1 h2.le hj
    · omega
  rw [update_of_ne hkp]
  rcases eq_or_ne k i with rfl | hki
  · rw [update_self]
    have hfp := hf p hp
    refine ⟨Or.inl hfp.mem, ?_⟩
    rcases hfp.gap with ⟨h1, h2⟩ | ⟨h1, h2, h3⟩
    · refine Or.inl ⟨not_le.mp fun h => hgap _ h1 h hfp.mem, fun j hj hj' => ?_⟩
      rintro (h | rfl)
      · exact h2 j (by omega) hj' h
      · omega
    · refine Or.inr ⟨by omega, fun j hj => ?_, fun j hj => ?_⟩
      · rintro (h | rfl)
        · exact h2 j (by omega) h
        · omega
      · rintro (h | rfl)
        · exact h3 j hj h
        · omega
  · rw [update_of_ne hki]
    have hL : L k := hk.resolve_right hki
    have hfk := hf k hL
    have hside : i < k ∨ k < p := by
      by_contra h
      exact hgap k (by omega) (by omega) hL
    refine ⟨Or.inl hfk.mem, ?_⟩
    rcases hfk.gap with ⟨h1, h2⟩ | ⟨h1, h2, h3⟩
    · refine Or.inl ⟨h1, fun j hj hj' => ?_⟩
      rintro (h | rfl)
      · exact h2 j hj hj' h
      · rcases hside with h | h
        · omega
        · exact h2 p h (by omega) hp
    · have hpk : p ≤ k := not_lt.mp fun h => h2 p h hp
      refine Or.inr ⟨h1, fun j hj => ?_, fun j hj => ?_⟩
      · rintro (h | rfl)
        · exact h2 j hj h
        · omega
      · rintro (h | rfl)
        · exact h3 j hj h
        · exact h3 p (by omega) hp

lemma Sorted.remove (hf : Sorted L f) {p i : ℕ} (hp : L p) (hpi : p < i) (hi : L i)
    (hfp : f p = i) : Sorted (fun k => L k ∧ k ≠ i) (update f p (f i)) := by
  have hgap : ∀ j, p < j → j < i → ¬ L j := by
    rcases (hf p hp).gap with ⟨_, h⟩ | ⟨h, _⟩
    · simpa [hfp] using h
    · omega
  have hfi := hf i hi
  have hne : f i ≠ i := by
    intro he
    exact hpi.ne (hf.inj hp hi (by rw [hfp, he]))
  intro k hk
  rcases eq_or_ne k p with rfl | hkp
  · rw [update_self]
    refine ⟨⟨hfi.mem, hne⟩, ?_⟩
    rcases hfi.gap with ⟨h1, h2⟩ | ⟨h1, h2, h3⟩
    · refine Or.inl ⟨by omega, fun j hj hj' h => ?_⟩
      rcases lt_trichotomy j i with hlt | rfl | hgt
      · exact hgap j hj hlt h.1
      · exact h.2 rfl
      · exact h2 j hgt hj' h.1
    · refine Or.inr ⟨not_lt.mp fun h => h3 k h hk.1, fun j hj h => ?_, fun j hj h => h3 j hj h.1⟩
      rcases lt_trichotomy j i with hlt | rfl | hgt
      · exact hgap j hj hlt h.1
      · exact h.2 rfl
      · exact h2 j hgt h.1
  · rw [update_of_ne hkp]
    have hfk := hf k hk.1
    have hki : f k ≠ i := fun he => hkp (hf.inj hk.1 hp (he.trans hfp.symm))
    refine ⟨⟨hfk.mem, hki⟩, ?_⟩
    rcases hfk.gap with ⟨h1, h2⟩ | ⟨h1, h2, h3⟩
    · exact Or.inl ⟨h1, fun j hj hj' h => h2 j hj hj' h.1⟩
    · exact Or.inr ⟨h1, fun j hj h => h2 j hj h.1, fun j hj h => h3 j hj h.1⟩

lemma Sorted.pred (hf : Sorted L f) {n : ℕ} (hn : ∀ k, L k → k < n) (ha : L a) (hb : L b)
    (hab : a < b) : ∃ p, L p ∧ p < b ∧ f p = b := by
  obtain ⟨m, ⟨hm, hmb⟩, hmax⟩ := exists_greatest (L := fun k => L k ∧ k < b) (n := n)
    (fun k hk => hn k hk.1) ⟨ha, hab⟩
  obtain ⟨h1, h2⟩ := (hf m hm).below_or_wrap hb hmb
  refine ⟨m, hm, hmb, le_antisymm h2 (not_lt.mp fun h => ?_)⟩
  exact absurd (hmax _ ⟨(hf m hm).mem, h⟩) (by omega)

end Skibios.Library.Rings
