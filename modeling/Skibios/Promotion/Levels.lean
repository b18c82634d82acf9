import Skibios.Library.Listings
import Skibios.Promotion.Rungs
import Skibios.Tasks.Killing

/-! KILL_TASK taking a level out of `level_stash`. It asks which slots have the current priority of
the victim, where the list is about the base priorities of live tasks. -/

namespace Skibios.Promotion.Levels

open Function Library.Words Library.Counting Library.Listings Library.Runs
open Kernel State TaskServices Services Scheduler SchedulerLoops Events Effects
open Tasks Invariants LevelStash Killing Rungs

variable {B : Build} {s t : KernelState} {stash : ℕ → ℕ} {i k f pid flag ptr : ℕ}

def levels (B : Build) (s : KernelState) : Set ℕ := {v | ∃ k, Live B s k ∧ basePrio s k = v}

/-- `level_stash` lists the base priorities of the live tasks. -/
def Listed (B : Build) (s : KernelState) : Prop := Lists s.lstashPtr s.levelStash (levels B s)

def LastOf (B : Build) (s : KernelState) (i : ℕ) : Prop :=
  ∀ k, Live B s k → k ≠ i → basePrio s k ≠ basePrio s i

/-- The list is right again, and has lost an entry if and only if the victim was the last of its
level. -/
structure Delisted (B : Build) (s : KernelState) (i : ℕ) (t : KernelState) : Prop where
  listed : Listed B t
  gone : (∃ v, (∃ j < s.lstashPtr, s.levelStash j = v) ∧ ¬ ∃ j < t.lstashPtr, t.levelStash j = v) ↔
    LastOf B s i
  shorter : t.lstashPtr + 1 = s.lstashPtr ↔ LastOf B s i
  same : t.lstashPtr = s.lstashPtr ↔ ¬ LastOf B s i

def Shared (B : Build) (s : KernelState) (i : ℕ) : Prop :=
  ∃ j < B.maxTaskCount, j ≠ i ∧ s.prioCurrent j = s.prioCurrent i

lemma Listed.ptr_le (h : Listed B s) : s.lstashPtr ≤ B.maxTaskCount := by
  have hinj : Set.InjOn s.levelStash (Finset.range s.lstashPtr) := by
    intro j hj k hk he
    exact h.increasing.inj (Finset.mem_range.mp hj) (Finset.mem_range.mp hk) he
  have hcard := Finset.card_image_of_injOn hinj
  rw [Finset.card_range] at hcard
  rw [← hcard]
  refine (card_le_count (p := Live B s) (basePrio s) fun v hv => ?_).trans (count_le _ _)
  obtain ⟨j, hj, rfl⟩ := Finset.mem_image.mp hv
  obtain ⟨k, hk, hb⟩ := h.entry_mem (Finset.mem_range.mp hj)
  exact ⟨k, hk.1, hk, hb⟩

lemma dropped_levels (hi : Live B s i) (f : Bool) (ptr : ℕ) (stash : ℕ → ℕ) :
    (LastOf B s i → levels B (dropTask B s i f ptr stash) = levels B s \ {basePrio s i}) ∧
    (¬ LastOf B s i → levels B (dropTask B s i f ptr stash) = levels B s) := by
  have hbase : basePrio (dropTask B s i f ptr stash) = basePrio s := rfl
  constructor
  · intro hlast
    ext v
    constructor
    · rintro ⟨k, hk, rfl⟩
      obtain ⟨hlive, hne⟩ := dropped_live.mp hk
      exact ⟨⟨k, hlive, rfl⟩, hlast k hlive hne⟩
    · rintro ⟨⟨k, hk, rfl⟩, hne⟩
      refine ⟨k, dropped_live.mpr ⟨hk, ?_⟩, rfl⟩
      rintro rfl
      exact hne rfl
  · intro hlast
    ext v
    constructor
    · rintro ⟨k, hk, rfl⟩
      exact ⟨k, (dropped_live.mp hk).1, rfl⟩
    · rintro ⟨k, hk, rfl⟩
      rcases eq_or_ne k i with rfl | hne
      · simp only [LastOf, not_forall, not_not] at hlast
        obtain ⟨j, hj, hji, he⟩ := hlast
        exact ⟨j, dropped_live.mpr ⟨hj, hji⟩, he⟩
      · exact ⟨k, dropped_live.mpr ⟨hk, hne⟩, rfl⟩

lemma remove_shared (h : Shared B s i) : removeLevel B s i = some (s.lstashPtr, s.levelStash) := if_pos h

lemma remove_alone (h : ¬ Shared B s i) {d : Bool × (ℕ → ℕ)}
    (hd : dropLevel (s.prioCurrent i) s.lstashPtr s.levelStash = d) : removeLevel B s i =
      if B.maxTaskCount < s.lstashPtr ∨ (d.1 = true ∧ B.maxTaskCount ≤ s.lstashPtr) then none
      else some (uint8 (s.lstashPtr + 255), d.2) := by
  subst hd
  exact if_neg h

section Alone

variable (h : Listed B s) (ha : ¬ Shared B s i)
include h ha

lemma remove_found (hf : f < s.lstashPtr) (hp : s.levelStash f = s.prioCurrent i) :
    removeLevel B s i = if s.lstashPtr < B.maxTaskCount then some (s.lstashPtr - 1,
      fun j => if f ≤ j ∧ j < s.lstashPtr then s.levelStash (j + 1) else s.levelStash j) else none := by
  have hle := h.ptr_le
  have hN := B.maxTaskCount_le
  have hdrop : dropLevel (s.prioCurrent i) s.lstashPtr s.levelStash =
      (true, fun j => if f ≤ j ∧ j < s.lstashPtr then s.levelStash (j + 1) else s.levelStash j) := by
    rcases dropLevel_spec (s.prioCurrent i) s.lstashPtr s.levelStash with ⟨-, hnone⟩ | ⟨g, hg, hgp, hd⟩
    · exact absurd hp (hnone f hf)
    · obtain rfl := h.increasing.inj hg hf (hgp.trans hp.symm)
      exact hd
  rw [remove_alone ha hdrop]
  by_cases hlt : s.lstashPtr < B.maxTaskCount
  · rw [if_pos hlt, if_neg (by omega), show uint8 (s.lstashPtr + 255) = s.lstashPtr - 1 by simp only [uint8]; omega]
  · rw [if_neg hlt]
    exact if_pos (Or.inr ⟨rfl, not_lt.mp hlt⟩)

lemma remove_missing (hi : Live B s i) (hp : ∀ j < s.lstashPtr, s.levelStash j ≠ s.prioCurrent i) :
    removeLevel B s i = some (s.lstashPtr - 1, s.levelStash) := by
  have hle := h.ptr_le
  have hN := B.maxTaskCount_le
  have hpos := h.pos ⟨i, hi, rfl⟩
  have hdrop : dropLevel (s.prioCurrent i) s.lstashPtr s.levelStash = (false, s.levelStash) := by
    rcases dropLevel_spec (s.prioCurrent i) s.lstashPtr s.levelStash with ⟨hd, -⟩ | ⟨g, hg, hgp, -⟩
    · exact hd
    · exact absurd hgp (hp g hg)
  rw [remove_alone ha hdrop, if_neg (by rintro (hlt | ⟨hf, -⟩); exacts [absurd hle (not_le.mpr hlt), Bool.noConfusion hf]),
    show uint8 (s.lstashPtr + 255) = s.lstashPtr - 1 by simp only [uint8]; omega]

end Alone

lemma delisted (h : Listed B s) (hi : Live B s i) {flag : Bool}
    (hl : Listed B (dropTask B s i flag ptr stash))
    (hlast : LastOf B s i → ptr + 1 = s.lstashPtr) (hmore : ¬ LastOf B s i → ptr = s.lstashPtr) :
    Delisted B s i (dropTask B s i flag ptr stash) := by
  obtain ⟨hless, hequal⟩ := dropped_levels hi flag ptr stash
  have hptr : (dropTask B s i flag ptr stash).lstashPtr = ptr := rfl
  refine ⟨hl, ?_, ?_, ?_⟩
  · constructor
    · rintro ⟨v, hv, hgone⟩
      by_contra hno
      rw [hl.mem_iff, hequal hno] at hgone
      exact hgone ((h.mem_iff v).mp hv)
    · intro hyes
      refine ⟨basePrio s i, (h.mem_iff _).mpr ⟨i, hi, rfl⟩, fun hex => ?_⟩
      have hmem := (hl.mem_iff _).mp hex
      rw [hless hyes] at hmem
      exact hmem.2 rfl
  · rw [hptr]
    refine ⟨fun heq => ?_, hlast⟩
    by_contra hno
    have := hmore hno
    omega
  · rw [hptr]
    refine ⟨fun heq hyes => ?_, hmore⟩
    have := hlast hyes
    omega

/-- The kill finds the level of the victim and keeps the others. -/
structure Clean (B : Build) (s : KernelState) (i : ℕ) : Prop where
  object : s.taskObj i ≠ 0
  level : Shared B s i ∧ ¬ LastOf B s i ∨ ¬ Shared B s i ∧ LastOf B s i ∧
    (s.prioCurrent i = basePrio s i ∧ s.lstashPtr < B.maxTaskCount ∨
      s.prioCurrent i ∉ levels B s ∧ ∀ v ∈ levels B s, v ≤ basePrio s i)

lemma removal_shared (h : Listed B s) (hi : Live B s i) (hshared : Shared B s i) (flag : Bool) :
    (∃ ptr stash, removeLevel B s i = some (ptr, stash) ∧
      Delisted B s i (dropTask B s i flag ptr stash)) ↔ ¬ LastOf B s i := by
  rw [remove_shared hshared]
  constructor
  · rintro ⟨ptr, stash, hr, hd⟩
    obtain ⟨rfl, rfl⟩ := Prod.mk.inj (Option.some.inj hr)
    exact hd.same.mp rfl
  · intro hmore
    refine ⟨_, _, rfl, delisted h hi ?_ (fun hlast => absurd hlast hmore) fun _ => rfl⟩
    rw [Listed, (dropped_levels hi flag _ _).2 hmore]
    exact h

lemma removal_entry (h : Listed B s) (hi : Live B s i) {v : ℕ} {stash' : ℕ → ℕ}
    (hr : removeLevel B s i = some (s.lstashPtr - 1, stash'))
    (hl : Lists (s.lstashPtr - 1) stash' (levels B s \ {v})) (flag : Bool) :
    (∃ ptr stash, removeLevel B s i = some (ptr, stash) ∧
      Delisted B s i (dropTask B s i flag ptr stash)) ↔ LastOf B s i ∧ basePrio s i = v := by
  have hpos := h.pos ⟨i, hi, rfl⟩
  rw [hr]
  constructor
  · rintro ⟨ptr, stash, he, hd⟩
    obtain ⟨rfl, rfl⟩ := Prod.mk.inj (Option.some.inj he)
    have hlast : LastOf B s i := hd.shorter.mp (Nat.sub_add_cancel hpos)
    have hsets := hl.unique hd.listed
    rw [(dropped_levels hi flag _ _).1 hlast] at hsets
    refine ⟨hlast, ?_⟩
    by_contra hne
    have hstill : basePrio s i ∈ levels B s \ {v} := ⟨⟨i, hi, rfl⟩, hne⟩
    rw [hsets] at hstill
    exact hstill.2 rfl
  · rintro ⟨hlast, rfl⟩
    refine ⟨_, _, rfl, delisted h hi ?_ (fun _ => Nat.sub_add_cancel hpos)
      fun hmore => absurd hlast hmore⟩
    rw [Listed, (dropped_levels hi flag _ _).1 hlast]
    exact hl

lemma last_level (h : Listed B s) (hi : Live B s i) : basePrio s i = s.levelStash (s.lstashPtr - 1) ↔
    ∀ v ∈ levels B s, v ≤ basePrio s i := by
  have hpos := h.pos ⟨i, hi, rfl⟩
  constructor
  · intro heq v hv
    rw [heq]
    exact h.le_last hv
  · intro hmax
    exact le_antisymm (h.le_last ⟨i, hi, rfl⟩) (hmax _ (h.entry_mem (Nat.sub_lt hpos one_pos)))

lemma removal_iff (h : Listed B s) (hi : Live B s i) (hobj : s.taskObj i ≠ 0) (flag : Bool) :
    (∃ ptr stash, removeLevel B s i = some (ptr, stash) ∧
      Delisted B s i (dropTask B s i flag ptr stash)) ↔ Clean B s i := by
  by_cases hshared : Shared B s i
  · -- the list stays
    rw [removal_shared h hi hshared]
    constructor
    · exact fun hmore => ⟨hobj, Or.inl ⟨hshared, hmore⟩⟩
    · rintro ⟨-, ⟨-, hmore⟩ | ⟨halone, -⟩⟩
      · exact hmore
      · exact absurd hshared halone
  by_cases hfound : ∃ j < s.lstashPtr, s.levelStash j = s.prioCurrent i
  · -- the current level leaves
    obtain ⟨f, hf, hfp⟩ := hfound
    have hin : s.prioCurrent i ∈ levels B s := hfp ▸ h.entry_mem hf
    have hr := remove_found h hshared hf hfp
    by_cases hroom : s.lstashPtr < B.maxTaskCount
    · rw [if_pos hroom] at hr
      rw [removal_entry h hi hr (hfp ▸ h.erase hf)]
      constructor
      · rintro ⟨hlast, heq⟩
        exact ⟨hobj, Or.inr ⟨hshared, hlast, Or.inl ⟨heq.symm, hroom⟩⟩⟩
      · rintro ⟨-, ⟨hsh, -⟩ | ⟨-, hlast, ⟨heq, -⟩ | ⟨hout, -⟩⟩⟩
        · exact absurd hsh hshared
        · exact ⟨hlast, heq.symm⟩
        · exact absurd hin hout
    · rw [hr, if_neg hroom]
      refine iff_of_false (by rintro ⟨_, _, hr, -⟩; cases hr) ?_
      rintro ⟨-, ⟨hsh, -⟩ | ⟨-, -, ⟨-, hlt⟩ | ⟨hout, -⟩⟩⟩
      · exact hshared hsh
      · exact hroom hlt
      · exact hout hin
  · -- the last entry leaves
    have hout : s.prioCurrent i ∉ levels B s := fun hin => hfound ((h.mem_iff _).mpr hin)
    have hr := remove_missing h hshared hi fun j hj hp => hfound ⟨j, hj, hp⟩
    rw [removal_entry h hi hr (h.init (h.pos ⟨i, hi, rfl⟩)), last_level h hi]
    constructor
    · rintro ⟨hlast, hmax⟩
      exact ⟨hobj, Or.inr ⟨hshared, hlast, Or.inr ⟨hout, hmax⟩⟩⟩
    · rintro ⟨-, ⟨hsh, -⟩ | ⟨-, hlast, ⟨heq, -⟩ | ⟨-, hmax⟩⟩⟩
      · exact absurd hsh hshared
      · exact absurd (heq ▸ ⟨i, hi, rfl⟩) hout
      · exact ⟨hlast, hmax⟩

/-- KILL_TASK keeps `level_stash` if and only if the victim's current priority tells of its level what
its base priority would. -/
theorem level_removal (h : Listed B s) (hi : Live B s (slotNumber pid)) :
    (∃ r, kill B s pid flag = some r ∧ Delisted B s (slotNumber pid) r.2.2) ↔
      Clean B s (slotNumber pid) := by
  constructor
  · rintro ⟨r, hr, hd⟩
    obtain ⟨ptr, stash, hk, rfl⟩ := kill_iff.mp hr
    exact (removal_iff h hi hk.object _).mp ⟨ptr, stash, hk.remove, hd⟩
  · intro hclean
    obtain ⟨ptr, stash, hr, hd⟩ := (removal_iff h hi hclean.object (s.selfKill || flag = 1)).mpr hclean
    exact ⟨_, kill_iff.mpr ⟨ptr, stash, ⟨hi.1, hclean.object, hr⟩, rfl⟩, hd⟩

section Instances

def spawned : List Event := spawn 10 5 ++ spawn 11 5 ++ [.killTask 0x10002]

def haunted : KernelState := after fiveSlots 20 (Regular fiveSlots) Killing.boot spawned

lemma haunted_run : Run (Guarded fiveSlots (Regular fiveSlots)) Killing.boot spawned haunted :=
  run_after (by decide +kernel)

lemma haunted_live (k : ℕ) : Live fiveSlots haunted k ↔ k = 0 ∨ k = 2 := by
  constructor
  · intro hk
    have hall : ∀ k < fiveSlots.maxTaskCount, Live fiveSlots haunted k → k = 0 ∨ k = 2 := by
      decide +kernel
    exact hall k hk.1 hk
  · rintro (rfl | rfl) <;> decide +kernel

lemma haunted_listed : Listed fiveSlots haunted := by
  have hptr : haunted.lstashPtr = 2 := by decide +kernel
  have hstash : haunted.levelStash 0 = 0 ∧ haunted.levelStash 1 = 5 := by decide +kernel
  have hbase : basePrio haunted 0 = 0 ∧ basePrio haunted 2 = 5 := by decide +kernel
  constructor
  · intro i j hij hj
    rw [hptr] at hj
    obtain ⟨rfl, rfl⟩ : i = 0 ∧ j = 1 := by omega
    rw [hstash.1, hstash.2]
    decide
  · intro v
    rw [hptr]
    constructor
    · rintro ⟨i, hi, rfl⟩
      rcases (by omega : i = 0 ∨ i = 1) with rfl | rfl
      · exact ⟨0, (haunted_live 0).mpr (Or.inl rfl), hbase.1.trans hstash.1.symm⟩
      · exact ⟨2, (haunted_live 2).mpr (Or.inr rfl), hbase.2.trans hstash.2.symm⟩
    · rintro ⟨k, hk, rfl⟩
      rcases (haunted_live k).mp hk with rfl | rfl
      · exact ⟨0, by decide, hstash.1.trans hbase.1.symm⟩
      · exact ⟨1, by decide, hstash.2.trans hbase.2.symm⟩

lemma victim_live : Live fiveSlots haunted (slotNumber 0x20003) := (haunted_live _).mpr (by decide)

theorem level_removal_haunted :
    (∃ r, kill fiveSlots haunted 0x20003 0 = some r ∧
      Delisted fiveSlots haunted (slotNumber 0x20003) r.2.2) ↔
      Clean fiveSlots haunted (slotNumber 0x20003) :=
  level_removal haunted_listed victim_live

/-- The dead task of slot 1 keeps level 5 in the list. -/
theorem level_removal_fails :
    Run (Guarded fiveSlots (Regular fiveSlots)) Killing.boot spawned haunted ∧
    Listed fiveSlots haunted ∧ Live fiveSlots haunted (slotNumber 0x20003) ∧ slotNumber 0x20003 ≠ 0 ∧
    ¬ ∃ r, kill fiveSlots haunted 0x20003 0 = some r ∧
      Delisted fiveSlots haunted (slotNumber 0x20003) r.2.2 := by
  refine ⟨haunted_run, haunted_listed, victim_live, by decide, ?_⟩
  rintro ⟨r, hr, hd⟩
  have hlast : LastOf fiveSlots haunted (slotNumber 0x20003) := by
    intro k hk hne
    rcases (haunted_live k).mp hk with rfl | rfl
    · decide +kernel
    · exact absurd rfl hne
  have hsame : (kill fiveSlots haunted 0x20003 0).map (fun r => r.2.2.lstashPtr) = some 2 := by
    decide +kernel
  rw [hr] at hsame
  have hafter : r.2.2.lstashPtr = 2 := Option.some.inj hsame
  have hptr : haunted.lstashPtr = 2 := by decide +kernel
  have hshorter := hd.shorter.mpr hlast
  omega

end Instances

end Skibios.Promotion.Levels
