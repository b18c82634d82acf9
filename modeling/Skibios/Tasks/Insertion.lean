import Skibios.Library.Halving
import Skibios.Library.Listings
import Skibios.Tasks.LevelStash

/-! CREATE_TASK entering a level into `level_stash`. The search ends between two entries, but the
level goes where it looked last. -/

namespace Skibios.Tasks.Insertion

open Function Library.Words Library.Loops Library.Counting Library.Halving Library.Listings
open Kernel State TaskServices LevelStash

variable {B : Build} {s : KernelState} {stash : ℕ → ℕ} {c d : Search} {p n r i : ℕ}

/-- The entry the search looks at in its next turn. -/
def probe (c : Search) : ℕ := uint8 (c.lower + (c.upper - c.lower) / 2)

inductive Probes (B : Build) (stash : ℕ → ℕ) (p : ℕ) : Search → ℕ → Prop
  | here {c : Search} (h : c.lower ≤ c.upper) : Probes B stash p c (probe c)
  | later {c d : Search} {i : ℕ} (h : searchTurn B stash p c = .again d) (hd : Probes B stash p d i) :
      Probes B stash p c i

def shiftReads (low : ℕ) : ℕ → List ℕ
  | 0 => []
  | j + 1 => if low < j + 1 then j :: shiftReads low j else []

inductive Reads (B : Build) (s : KernelState) (p : ℕ) : ℕ → Prop
  | search {i : ℕ} (h : Probes B s.levelStash p ⟨0, s.lstashPtr, 0⟩ i) : Reads B s p i
  | shift {fuel index i : ℕ}
      (h : runLoop (searchTurn B s.levelStash p) fuel ⟨0, s.lstashPtr, 0⟩ = some (some index))
      (hi : i ∈ shiftReads index s.lstashPtr) : Reads B s p i

def Present (s : KernelState) (p : ℕ) : Prop := ∃ i < s.lstashPtr, s.levelStash i = p

instance (s : KernelState) (p : ℕ) : Decidable (Present s p) :=
  inferInstanceAs (Decidable (∃ i < _, _))

/-- An increasing list of levels from 0 on, in front of zeros. -/
structure Listing (B : Build) (s : KernelState) : Prop where
  increasing : Increasing s.lstashPtr s.levelStash
  first : s.levelStash 0 = 0
  behind : ∀ i < B.maxTaskCount, s.lstashPtr ≤ i → s.levelStash i = 0
  pos : 1 ≤ s.lstashPtr
  room : s.lstashPtr ≤ B.maxTaskCount - 1

/-- The level has been entered, and nothing has been read behind the entry at `lstash_ptr`. -/
structure Entered (B : Build) (s : KernelState) (p : ℕ) : Prop where
  returns : ∃ ptr stash, insertLevel B s p = some (ptr, stash) ∧
    Lists ptr stash (insert p {v | Present s v}) ∧ ptr = s.lstashPtr + if Present s p then 0 else 1
  reads : ∀ i, Reads B s p i → i ≤ s.lstashPtr

def rank (s : KernelState) (p : ℕ) : ℕ := count s.lstashPtr fun i => s.levelStash i < p

lemma pred_eq {x : ℕ} (h : 0 < x) (hx : x < 4294967296) : uint32 (x + 4294967295) = x - 1 := by
  unfold uint32
  omega

section Turns

variable (hle : c.lower ≤ c.upper)
include hle

lemma probe_eq (hu : c.upper < 256) : probe c = c.lower + (c.upper - c.lower) / 2 := by
  apply uint8_eq
  omega

variable (hN : probe c < B.maxTaskCount)
include hN

lemma turn_found (h : stash (probe c) = p) : searchTurn B stash p c = .leave none := by
  unfold probe at h hN
  rw [searchTurn, if_pos hle]
  dsimp only
  rw [if_neg (not_le.mpr hN), if_pos h]

lemma turn_right (h : stash (probe c) < p) :
    searchTurn B stash p c = .again ⟨probe c + 1, c.upper, probe c⟩ := by
  have hmax := B.maxTaskCount_le
  unfold probe at h hN ⊢
  rw [searchTurn, if_pos hle]
  dsimp only
  rw [if_neg (not_le.mpr hN), if_neg h.ne, if_pos h, uint8_eq (x := _ + 1) (by omega)]

lemma turn_left (h : p < stash (probe c)) :
    searchTurn B stash p c = .again ⟨c.lower, uint32 (probe c + 4294967295), probe c⟩ := by
  unfold probe at h hN ⊢
  rw [searchTurn, if_pos hle]
  dsimp only
  rw [if_neg (not_le.mpr hN), if_neg h.ne', if_neg h.not_gt]

lemma turn_left_pos (h : p < stash (probe c)) (h0 : 0 < probe c) :
    searchTurn B stash p c = .again ⟨c.lower, probe c - 1, probe c⟩ := by
  have hmax := B.maxTaskCount_le
  rw [turn_left hle hN h, pred_eq h0 (by omega)]

end Turns

lemma probe_inside (hle : c.lower ≤ c.upper) (hu : c.upper < B.maxTaskCount) :
    probe c < B.maxTaskCount ∧ probe c = c.lower + (c.upper - c.lower) / 2 := by
  have hmax := B.maxTaskCount_le
  have hin := probe_eq hle (hu.trans_le (by omega))
  omega

lemma turn_over (h : c.upper < c.lower) : searchTurn B stash p c = .leave (some c.index) := by
  rw [searchTurn, if_neg (not_le.mpr h)]

structure Splits (stash : ℕ → ℕ) (p n r : ℕ) : Prop where
  pos : 0 < r
  le : r ≤ n
  below : ∀ i < r, stash i < p
  above : ∀ i, r ≤ i → i < n → p < stash i
  behind : stash n < p

lemma search_lands (h : Splits stash p n r) (hn : n < B.maxTaskCount) {m f : ℕ}
    (hm : c.upper + 1 = c.lower + m) (hr : c.lower ≤ r) (hr' : r ≤ c.upper + 1) (hu : c.upper ≤ n)
    (hf : m < f) : ∃ x, runLoop (searchTurn B stash p) f c = some (some x) ∧
      (EndsLeft (m + 1) (r - c.lower) → x = r) ∧
      (¬ EndsLeft (m + 1) (r - c.lower) → x = if m = 0 then c.index else r - 1) := by
  induction m using Nat.strong_induction_on generalizing c f with
  | _ m ih =>
    obtain ⟨f, rfl⟩ : ∃ k, f = k + 1 := ⟨f - 1, by omega⟩
    rcases Nat.eq_zero_or_pos m with rfl | hpos
    · refine ⟨c.index, runLoop_leave (turn_over (by omega)), fun he => ?_, fun _ => by rw [if_pos rfl]⟩
      exact absurd he.two_le (by omega)
    have hle : c.lower ≤ c.upper := by omega
    obtain ⟨hprobe, hin⟩ := probe_inside hle (hu.trans_lt hn)
    rw [if_neg hpos.ne']
    rcases lt_or_ge (probe c) r with hlt | hge
    · -- the upper part
      rw [runLoop_again (turn_right hle hprobe (h.below _ hlt))]
      obtain ⟨x, hx, hyes, hno⟩ := ih (m - (m + 1) / 2) (by omega)
        (c := ⟨probe c + 1, c.upper, probe c⟩) (f := f) (by dsimp only; omega) hlt hr' hu (by omega)
      have hsplit : EndsLeft (m + 1) (r - c.lower) ↔
          EndsLeft (m - (m + 1) / 2 + 1) (r - (probe c + 1)) := by
        have hb : r - c.lower = (m + 1) / 2 + (r - (probe c + 1)) := by omega
        rw [hb, endsLeft_upper (by omega)]
        congr! 1
        omega
      refine ⟨x, hx, fun he => hyes (hsplit.mp he), fun he => ?_⟩
      rw [hno fun hc => he (hsplit.mpr hc)]
      split
      · dsimp only
        omega
      · rfl
    · rcases eq_or_lt_of_le (show probe c ≤ n by omega) with heq | hlt
      · -- only the entry behind the list is left
        have hmr : m = 1 ∧ r = n ∧ r = c.lower := by omega
        have hbelow : stash (probe c) < p := heq ▸ h.behind
        rw [runLoop_again (turn_right hle hprobe hbelow)]
        obtain ⟨f, rfl⟩ : ∃ k, f = k + 1 := ⟨f - 1, by omega⟩
        refine ⟨probe c, runLoop_leave (turn_over (by dsimp only; omega)), fun _ => by omega, ?_⟩
        intro he
        refine absurd ?_ he
        rw [hmr.2.2, Nat.sub_self, hmr.1]
        exact .last rfl
      · -- the lower part
        rw [runLoop_again (turn_left_pos hle hprobe (h.above _ hge hlt) (by have := h.pos; omega))]
        have hpos' := h.pos
        obtain ⟨x, hx, hyes, hno⟩ := ih ((m + 1) / 2 - 1) (by omega)
          (c := ⟨c.lower, probe c - 1, probe c⟩) (f := f) (by dsimp only; omega) hr
          (by dsimp only; omega) (by dsimp only; omega) (by omega)
        dsimp only at hyes hno
        have hhalf : (m + 1) / 2 - 1 + 1 = (m + 1) / 2 := by omega
        rw [hhalf] at hyes hno
        by_cases hone : (m + 1) / 2 = 1
        · have hrl : r = c.lower := by omega
          refine ⟨x, hx, fun _ => ?_, fun he => ?_⟩
          · rw [hno fun hc => absurd hc.two_le (by omega), if_pos (by omega)]
            omega
          · refine absurd ?_ he
            rw [hrl, Nat.sub_self]
            exact .last hone
        · have hsplit := endsLeft_lower (g := m + 1) (b := r - c.lower) (by omega) hone
          refine ⟨x, hx, fun he => hyes (hsplit.mp he), fun he => ?_⟩
          rw [hno fun hc => he (hsplit.mpr hc), if_neg (by omega)]

lemma search_finds (hinc : Increasing n stash) (hn : n < B.maxTaskCount)
    (hk : i < n) (hp : stash i = p) {m f : ℕ} (hm : c.upper + 1 = c.lower + m) (hl : c.lower ≤ i)
    (hiu : i ≤ c.upper) (hu : c.upper ≤ n) (hf : m < f) :
    runLoop (searchTurn B stash p) f c = some none := by
  induction m using Nat.strong_induction_on generalizing c f with
  | _ m ih =>
    obtain ⟨f, rfl⟩ : ∃ k, f = k + 1 := ⟨f - 1, by omega⟩
    have hle : c.lower ≤ c.upper := hl.trans hiu
    obtain ⟨hprobe, hin⟩ := probe_inside hle (hu.trans_lt hn)
    rcases lt_trichotomy (probe c) i with hlt | heq | hgt
    · have hbelow : stash (probe c) < p := hp ▸ hinc _ _ hlt hk
      rw [runLoop_again (turn_right hle hprobe hbelow)]
      refine ih (c.upper - probe c) (by omega) ?_ hlt hiu hu (by omega)
      dsimp only
      omega
    · exact runLoop_leave (turn_found hle hprobe (heq ▸ hp))
    · -- the middle lies below the upper end, so it is an entry of the list
      have habove : p < stash (probe c) := hp ▸ hinc _ _ hgt (by omega)
      rw [runLoop_again (turn_left_pos hle hprobe habove (by omega))]
      refine ih (probe c - c.lower) (by omega) ?_ hl ?_ ?_ (by omega) <;> dsimp only <;> omega

lemma Probes.le (h0 : stash 0 < p) (hn : n < B.maxTaskCount) (h : Probes B stash p c i)
    (hu : c.upper ≤ n) : i ≤ n := by
  induction h with
  | here hle =>
    obtain ⟨-, hin⟩ := probe_inside hle (hu.trans_lt hn)
    omega
  | @later c d i h _ ih =>
    apply ih
    rcases lt_or_ge c.upper c.lower with hlt | hle
    · simp [turn_over hlt] at h
    obtain ⟨hprobe, hin⟩ := probe_inside hle (hu.trans_lt hn)
    rcases lt_trichotomy (stash (probe c)) p with hlt | heq | hgt
    · rw [turn_right hle hprobe hlt] at h
      cases h
      exact hu
    · simp [turn_found hle hprobe heq] at h
    · have hpos : 0 < probe c := by
        rw [Nat.pos_iff_ne_zero]
        intro hz
        rw [hz] at hgt
        exact hgt.not_gt h0
      rw [turn_left_pos hle hprobe hgt hpos] at h
      cases h
      dsimp only
      omega

lemma lt_of_mem_shiftReads {low j : ℕ} (h : i ∈ shiftReads low j) : i < j := by
  induction j with
  | zero => simp [shiftReads] at h
  | succ j ih =>
    rw [shiftReads] at h
    split at h
    · rcases List.mem_cons.mp h with rfl | hi
      · exact Nat.lt_succ_self _
      · exact (ih hi).trans (Nat.lt_succ_self j)
    · simp at h

namespace Listing

lemma lt (h : Listing B s) : s.lstashPtr < B.maxTaskCount := by
  have hroom := h.room
  have hpos := B.maxTaskCount_pos
  omega

lemma lt_rank_iff (h : Listing B s) (hi : i < s.lstashPtr) : i < rank s p ↔ s.levelStash i < p := by
  apply lt_count_iff _ hi
  intro i j hij hj hlt
  exact (h.increasing i j hij hj).trans hlt

lemma splits (h : Listing B s) (hp : 0 < p) (ha : ¬ Present s p) :
    Splits s.levelStash p s.lstashPtr (rank s p) := by
  have hle : rank s p ≤ s.lstashPtr := count_le _ _
  refine ⟨(h.lt_rank_iff h.pos).mpr (by rwa [h.first]), hle, fun i hi => ?_, fun i hi hn => ?_, ?_⟩
  · exact (h.lt_rank_iff (hi.trans_le hle)).mp hi
  · have hge := mt (h.lt_rank_iff hn).mpr (not_lt.mpr hi)
    exact lt_of_le_of_ne (not_lt.mp hge) fun heq => ha ⟨i, hn, heq.symm⟩
  · rw [h.behind _ h.lt le_rfl]
    exact hp

lemma reads_le (h : Listing B s) (hp : 0 < p) (hi : Reads B s p i) : i ≤ s.lstashPtr := by
  cases hi with
  | search hi => exact hi.le (by rwa [h.first]) h.lt le_rfl
  | shift _ hi => exact (lt_of_mem_shiftReads hi).le

lemma insert_present (h : Listing B s) (hp : Present s p) :
    insertLevel B s p = some (s.lstashPtr, s.levelStash) := by
  obtain ⟨k, hk, hkp⟩ := hp
  have hfound : runLoop (searchTurn B s.levelStash p) (s.lstashPtr + 3) ⟨0, s.lstashPtr, 0⟩ = some none :=
    search_finds h.increasing h.lt hk hkp (m := s.lstashPtr + 1) (by dsimp only; omega) (Nat.zero_le k)
      hk.le le_rfl (by omega)
  rw [insertLevel, hfound]
  rfl

lemma insert_absent (h : Listing B s) (hp : 0 < p) (ha : ¬ Present s p) : ∃ x,
    insertLevel B s p = some (s.lstashPtr + 1, update (shiftUp s.levelStash x s.lstashPtr) x p) ∧
      (EndsLeft (s.lstashPtr + 2) (rank s p) → x = rank s p) ∧
      (¬ EndsLeft (s.lstashPtr + 2) (rank s p) → x = rank s p - 1) := by
  have hN := B.maxTaskCount_le
  have hlt := h.lt
  have hle : rank s p ≤ s.lstashPtr := count_le _ _
  obtain ⟨x, hx, hyes, hno⟩ := search_lands (c := ⟨0, s.lstashPtr, 0⟩) (m := s.lstashPtr + 1)
    (f := s.lstashPtr + 3) (h.splits hp ha) hlt (by dsimp only; omega) (Nat.zero_le _)
    (by dsimp only; omega) le_rfl (by omega)
  refine ⟨x, ?_, hyes, hno⟩
  rw [insertLevel, hx]
  change (if B.maxTaskCount ≤ s.lstashPtr then none else _) = _
  rw [if_neg (by omega), uint8_eq (by omega)]

end Listing

section Inserted

variable {x : ℕ}

lemma inserted_below (hx : x ≤ n) (hi : i < x) (stash : ℕ → ℕ) (p : ℕ) :
    update (shiftUp stash x n) x p i = stash i := by
  rw [inserted_apply hx, if_pos hi]

lemma inserted_above (hx : x < i) (hi : i ≤ n) (stash : ℕ → ℕ) (p : ℕ) :
    update (shiftUp stash x n) x p i = stash (i - 1) := by
  rw [inserted_apply (hx.le.trans hi), if_neg hx.not_gt, if_neg hx.ne', if_pos hi]

lemma inserted_members {v : ℕ} (hx : x ≤ n) (stash : ℕ → ℕ) (p : ℕ) :
    (∃ i < n + 1, update (shiftUp stash x n) x p i = v) ↔ v = p ∨ ∃ i < n, stash i = v := by
  constructor
  · rintro ⟨i, hi, rfl⟩
    rcases lt_trichotomy i x with hlt | rfl | hgt
    · exact Or.inr ⟨i, by omega, (inserted_below hx hlt stash p).symm⟩
    · exact Or.inl (update_self ..)
    · exact Or.inr ⟨i - 1, by omega, (inserted_above hgt (by omega) stash p).symm⟩
  · rintro (rfl | ⟨i, hi, rfl⟩)
    · exact ⟨x, by omega, update_self ..⟩
    · rcases lt_or_ge i x with hlt | hge
      · exact ⟨i, by omega, inserted_below hx hlt stash p⟩
      · exact ⟨i + 1, by omega, inserted_above (by omega) hi stash p⟩

lemma inserted_lists (hinc : Increasing n stash) (h : Splits stash p n r) :
    Lists (n + 1) (update (shiftUp stash r n) r p) (insert p {v | ∃ i < n, stash i = v}) := by
  have hle := h.le
  refine ⟨fun i j hij hj => ?_, fun v => inserted_members hle stash p⟩
  rcases lt_trichotomy j r with hjr | rfl | hjr
  · rw [inserted_below hle (hij.trans hjr), inserted_below hle hjr]
    exact hinc i j hij (by omega)
  · rw [inserted_below hle hij, update_self]
    exact h.below i hij
  · rw [inserted_above hjr (by omega)]
    rcases lt_trichotomy i r with hir | rfl | hir
    · rw [inserted_below hle hir]
      exact (h.below i hir).trans (h.above (j - 1) (by omega) (by omega))
    · rw [update_self]
      exact h.above (j - 1) (by omega) (by omega)
    · rw [inserted_above hir (by omega)]
      exact hinc (i - 1) (j - 1) (by omega) (by omega)

lemma misplaced_not_increasing (h : Splits stash p n r) :
    ¬ Increasing (n + 1) (update (shiftUp stash (r - 1) n) (r - 1) p) := by
  intro hinc
  have hpos := h.pos
  have hlt := hinc (r - 1) r (by omega) (Nat.lt_succ_of_le h.le)
  rw [update_self, inserted_above (by omega) h.le] at hlt
  exact hlt.not_gt (h.below (r - 1) (by omega))

end Inserted

lemma search_returns (hin : ∀ i, Probes B stash p c i → i < B.maxTaskCount) {m f : ℕ}
    (hm : c.upper + 1 = c.lower + m) (hu : c.upper < 256) (hf : m < f) :
    ∃ r, runLoop (searchTurn B stash p) f c = some r := by
  induction m using Nat.strong_induction_on generalizing c f with
  | _ m ih =>
    obtain ⟨f, rfl⟩ : ∃ k, f = k + 1 := ⟨f - 1, by omega⟩
    rcases Nat.eq_zero_or_pos m with rfl | hpos
    · exact ⟨_, runLoop_leave (turn_over (by omega))⟩
    have hle : c.lower ≤ c.upper := by omega
    have heq := probe_eq hle hu
    have hprobe := hin _ (.here hle)
    rcases lt_trichotomy (stash (probe c)) p with hlt | hfound | hgt
    · have hturn := turn_right hle hprobe hlt
      rw [runLoop_again hturn]
      refine ih (c.upper - probe c) (by omega) (fun i hi => hin i (.later hturn hi)) ?_ hu (by omega)
      dsimp only
      omega
    · exact ⟨_, runLoop_leave (turn_found hle hprobe hfound)⟩
    · rcases Nat.eq_zero_or_pos (probe c) with h0 | hpos'
      · -- left of index 0 the next probe is outside
        have hturn := turn_left hle hprobe hgt
        rw [h0] at hturn
        have hout := hin _ (.later hturn (.here (Nat.le_of_lt (by dsimp only [uint32]; omega))))
        exact absurd (probe_outside B (by dsimp only; omega) rfl) (not_le.mpr hout)
      · have hturn := turn_left_pos hle hprobe hgt hpos'
        rw [runLoop_again hturn]
        refine ih (probe c - c.lower) (by omega) (fun i hi => hin i (.later hturn hi)) ?_ ?_ (by omega) <;>
          dsimp only <;> omega

lemma Probes.lt (h : Probes B stash p c i) {fuel : ℕ} {x : Option ℕ}
    (hr : runLoop (searchTurn B stash p) fuel c = some x) : i < B.maxTaskCount := by
  induction h generalizing fuel with
  | @here c hle =>
    by_contra hge
    have hfault : searchTurn B stash p c = .fault := by
      rw [searchTurn, if_pos hle]
      exact if_pos (not_lt.mp hge)
    simp [runLoop_fault hfault] at hr
  | later hturn _ ih =>
    cases fuel with
    | zero => simp [runLoop] at hr
    | succ fuel =>
      rw [runLoop_again hturn] at hr
      exact ih hr

lemma Probes.ne (h : Probes B stash p c i) {fuel x : ℕ}
    (hr : runLoop (searchTurn B stash p) fuel c = some (some x)) : stash i ≠ p := by
  have hlt := h.lt hr
  induction h generalizing fuel with
  | @here c hle =>
    intro hp
    cases fuel with
    | zero => simp [runLoop] at hr
    | succ fuel => simp [runLoop_leave (turn_found hle hlt hp)] at hr
  | later hturn _ ih =>
    cases fuel with
    | zero => simp [runLoop] at hr
    | succ fuel =>
      rw [runLoop_again hturn] at hr
      exact ih hr hlt

lemma found_probed {fuel : ℕ} (hr : runLoop (searchTurn B stash p) fuel c = some none) :
    ∃ i, Probes B stash p c i ∧ stash i = p := by
  induction fuel generalizing c with
  | zero => simp [runLoop] at hr
  | succ fuel ih =>
    rcases hturn : searchTurn B stash p c with d | r | _
    · rw [runLoop_again hturn] at hr
      obtain ⟨i, hi, hp⟩ := ih hr
      exact ⟨i, .later hturn hi, hp⟩
    · rw [runLoop_leave hturn] at hr
      obtain rfl := Option.some.inj hr
      rcases lt_or_ge c.upper c.lower with hlt | hle
      · simp [turn_over hlt] at hturn
      · rw [searchTurn, if_pos hle] at hturn
        dsimp only at hturn
        split_ifs at hturn with _ hp
        exact ⟨_, .here hle, hp⟩
    · simp [runLoop_fault hturn] at hr

/-- The insertion accesses the table only: at every probe, and at `lstash_ptr` when it has not found
the level. -/
structure InTable (B : Build) (s : KernelState) (p : ℕ) : Prop where
  probes : ∀ i, Probes B s.levelStash p ⟨0, s.lstashPtr, 0⟩ i → i < B.maxTaskCount
  room : (∀ i, Probes B s.levelStash p ⟨0, s.lstashPtr, 0⟩ i → s.levelStash i ≠ p) →
    s.lstashPtr < B.maxTaskCount

lemma insertLevel_ne_none (hptr : s.lstashPtr < 256) : insertLevel B s p ≠ none ↔ InTable B s p := by
  constructor
  · intro h
    obtain ⟨r, hr⟩ := Option.ne_none_iff_exists'.mp h
    obtain ⟨x, hx, hins⟩ := Option.bind_eq_some_iff.mp hr
    refine ⟨fun i hi => hi.lt hx, fun habs => ?_⟩
    cases x with
    | none =>
      obtain ⟨i, hi, hp⟩ := found_probed hx
      exact absurd hp (habs i hi)
    | some index =>
      dsimp only at hins
      split_ifs at hins with hge
      exact not_le.mp hge
  · intro h
    obtain ⟨x, hx⟩ := search_returns h.probes (m := s.lstashPtr + 1) (f := s.lstashPtr + 3)
      (by dsimp only; omega) hptr (by omega)
    rw [insertLevel, hx]
    cases x with
    | none => exact Option.some_ne_none _
    | some index =>
      have hroom := h.room fun i hi => hi.ne hx
      change (if B.maxTaskCount ≤ s.lstashPtr then none else _) ≠ _
      rw [if_neg (not_le.mpr hroom)]
      exact Option.some_ne_none _

/-- A level enters the list as it should if and only if it is there already, or the last look of the
search falls on the entry behind its place. -/
theorem level_insertion (h : Listing B s) (hp : 0 < p) :
    Entered B s p ↔ Present s p ∨ EndsLeft (s.lstashPtr + 2) (rank s p) := by
  by_cases hpres : Present s p
  · refine iff_of_true ⟨⟨s.lstashPtr, s.levelStash, h.insert_present hpres, ⟨h.increasing, fun v => ?_⟩, ?_⟩,
      fun i => h.reads_le hp⟩ (Or.inl hpres)
    · rw [Set.insert_eq_of_mem (show p ∈ {v | Present s v} from hpres)]
      exact Iff.rfl
    · rw [if_pos hpres, Nat.add_zero]
  · obtain ⟨x, hx, hyes, hno⟩ := h.insert_absent hp hpres
    have hsplit := h.splits hp hpres
    rw [or_iff_right hpres]
    constructor
    · intro he
      obtain ⟨ptr, stash, hs, hlists, -⟩ := he.returns
      obtain ⟨rfl, rfl⟩ := Prod.mk.inj (Option.some.inj (hx.symm.trans hs))
      by_contra hends
      have hinc := hlists.increasing
      rw [hno hends] at hinc
      exact misplaced_not_increasing hsplit hinc
    · intro hends
      obtain rfl := hyes hends
      exact ⟨⟨_, _, hx, inserted_lists h.increasing hsplit, by rw [if_neg hpres]⟩, fun i => h.reads_le hp⟩

section Instances

def eightSlots : Build := Build.eight

def boot : KernelState :=
  reset eightSlots (fun _ => 0) (fun _ => ⟨0, 0, 1, 0, 0, 0, 0, 0⟩) (fun _ => 0)

def pair : KernelState := { boot with lstashPtr := 2, levelStash := update (fun _ => 0) 1 5 }

lemma pair_listing : Listing eightSlots pair := by
  refine ⟨?_, rfl, ?_, by decide, by decide⟩
  · intro i j hij hj
    have hj' : j < 2 := hj
    obtain ⟨rfl, rfl⟩ : i = 0 ∧ j = 1 := by omega
    decide
  · decide

theorem level_insertion_above : 0 < 6 ∧
    (Entered eightSlots pair 6 ↔ Present pair 6 ∨ EndsLeft (pair.lstashPtr + 2) (rank pair 6)) :=
  ⟨by decide, level_insertion pair_listing (by decide)⟩

/-- Priority 3 goes in front of the 0. -/
theorem level_insertion_fails : Listing eightSlots pair ∧ 0 < 3 ∧ 3 ≤ 127 ∧ ¬ Entered eightSlots pair 3 := by
  refine ⟨pair_listing, by decide, by decide, fun he => ?_⟩
  obtain ⟨ptr, stash, hs, hlists, -⟩ := he.returns
  have hlist : (insertLevel eightSlots pair 3).map (fun r => (r.1, r.2 0, r.2 1)) = some (3, 3, 0) := by
    decide
  rw [hs] at hlist
  obtain ⟨rfl, h3, h0⟩ := by simpa using hlist
  have hlt := hlists.increasing 0 1 (by decide) (by decide)
  omega

end Instances

end Skibios.Tasks.Insertion
