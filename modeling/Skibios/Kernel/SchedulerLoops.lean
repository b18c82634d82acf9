import Skibios.Kernel.Scheduler
import Skibios.Library.Rings

/-! Both loops of `scheduler()`: what a turn keeps, and their closed form along the ring. -/

namespace Skibios.Kernel.SchedulerLoops

open Function Library.Words Library.Loops Library.Rings State Scheduler

variable {B : Build} {s t u w : KernelState} {k : ℕ}

structure Wakes (s t : KernelState) : Prop where
  frame : ∃ st a h, t = { s with state := st, alc := a, hlc := h }
  slot : ∀ k, t.state k = s.state k ∨ WakeCondition s k ∧ t.state k = .sleep

lemma Wakes.refl (s : KernelState) : Wakes s s := ⟨⟨_, _, _, rfl⟩, fun _ => Or.inl rfl⟩

lemma wakeSlot_skip (h : ¬ WakeCondition s k) : wakeSlot s k = s := by
  simp [wakeSlot, h]

lemma wakeSlot_state (h : WakeCondition s k) : (wakeSlot s k).state = update s.state k .sleep := by
  simp [wakeSlot, h]

lemma WakeCondition.ne_sleep (h : WakeCondition s k) : s.state k ≠ .sleep := by
  rcases h with ⟨h, _⟩ | ⟨h, _⟩ <;> simp [h]

lemma WakeCondition.ne_idle (h : WakeCondition s k) : s.state k ≠ .idle := by
  rcases h with ⟨h, _⟩ | ⟨h, _⟩ <;> simp [h]

lemma Wakes.condition (hw : Wakes s t) (h : WakeCondition t k) : WakeCondition s k := by
  obtain ⟨⟨st, a, c, rfl⟩, slot⟩ := hw
  rcases slot k with hk | ⟨_, hk⟩
  · dsimp only at hk
    simpa only [WakeCondition, elapsed, hk] using h
  · exact absurd hk (WakeCondition.ne_sleep h)

lemma Wakes.wakeSlot (hw : Wakes s t) (k : ℕ) : Wakes s (wakeSlot t k) := by
  by_cases h : WakeCondition t k
  · refine ⟨?_, fun j => ?_⟩
    · obtain ⟨⟨st, a, c, rfl⟩, -⟩ := hw
      exact ⟨_, _, _, rfl⟩
    · rw [wakeSlot_state h]
      rcases eq_or_ne j k with rfl | hj
      · exact Or.inr ⟨hw.condition h, update_self ..⟩
      · rw [update_of_ne hj]
        exact hw.slot j
  · rwa [wakeSlot_skip h]

lemma wake_pass_invariant {I : KernelState → Prop}
    (hI : ∀ t k, k < B.maxTaskCount → I t → I (wakeSlot t k)) (hs : I s) {n : ℕ}
    (h : runLoop (wakeTurn B) n (s, k) = some t) : I t := by
  refine runLoop_invariant (I := fun c => I c.1) ?_ ?_ hs h
  · rintro ⟨a, i⟩ ⟨b, j⟩ ha hb
    simp only [wakeTurn] at hb
    split_ifs at hb with h1 h2
    obtain ⟨rfl, rfl⟩ := Prod.mk.inj (Turn.again.inj hb)
    exact hI a i (not_le.mp h1) ha
  · rintro ⟨a, i⟩ b ha hb
    simp only [wakeTurn] at hb
    split_ifs at hb with h1 h2
    obtain rfl := Turn.leave.inj hb
    exact hI a i (not_le.mp h1) ha

lemma wake_pass_wakes {n : ℕ} (h : runLoop (wakeTurn B) n (s, k) = some t) : Wakes s t :=
  wake_pass_invariant (fun _ k _ hw => hw.wakeSlot k) (Wakes.refl s) h

lemma Wakes.live (hw : Wakes s t) : Live B t k ↔ Live B s k := by
  refine and_congr_right fun _ => ?_
  rcases hw.slot k with h | ⟨hc, h⟩
  · rw [h]
  · simp [h, WakeCondition.ne_idle hc]

lemma Wakes.hop (hw : Wakes s t) : hop t = hop s := by
  obtain ⟨⟨st, a, c, rfl⟩, -⟩ := hw
  rfl

structure Woken (B : Build) (s t : KernelState) : Prop extends Wakes s t where
  awake : ∀ k, Live B s k → ¬ WakeCondition t k

lemma Woken.sleep_iff (hw : Woken B s t) (hk : Live B s k) :
    t.state k = .sleep ↔ s.state k = .sleep ∨ WakeCondition s k := by
  rcases hw.slot k with h | ⟨hc, h⟩
  · rw [h]
    refine (or_iff_left_of_imp fun hc => ?_).symm
    obtain ⟨⟨st, a, c, rfl⟩, -⟩ := hw.toWakes
    refine absurd ?_ (hw.awake k hk)
    dsimp only at h
    simpa only [WakeCondition, elapsed, h] using hc
  · simp [h, hc]

def wakeAlong (s : KernelState) : ℕ → KernelState
  | 0 => s
  | j + 1 => wakeSlot (wakeAlong s j) ((hop s)^[j] s.nextTask)

lemma wakeAlong_wakes (s : KernelState) (j : ℕ) : Wakes s (wakeAlong s j) := by
  induction j with
  | zero => exact Wakes.refl s
  | succ j ih => exact ih.wakeSlot _

lemma wakeAlong_awake {i j : ℕ} (hij : i < j) :
    ¬ WakeCondition (wakeAlong s j) ((hop s)^[i] s.nextTask) := by
  have hslot : ∀ t k, ¬ WakeCondition (wakeSlot t k) k := by
    intro t k h
    by_cases hc : WakeCondition t k
    · exact WakeCondition.ne_sleep h (by rw [wakeSlot_state hc, update_self])
    · exact hc (wakeSlot_skip hc ▸ h)
  induction j, hij using Nat.le_induction with
  | base => exact hslot _ _
  | succ j hij ih =>
    intro h
    exact ih (((Wakes.refl _).wakeSlot _).condition h)

lemma wake_along (hr : RingFrom (hop s) (Live B s) s.nextTask) :
    Along (wakeTurn B) (fun j => (wakeAlong s j, (hop s)^[j] s.nextTask)) (wakeAlong s)
      (fun _ => False) (fun j => (hop s)^[j] s.nextTask = s.nextTask) := by
  have hturn : ∀ j, wakeTurn B (wakeAlong s j, (hop s)^[j] s.nextTask) =
      if (hop s)^[j + 1] s.nextTask = s.nextTask then .leave (wakeAlong s (j + 1))
      else .again (wakeAlong s (j + 1), (hop s)^[j + 1] s.nextTask) := by
    intro j
    have hb : ¬ B.maxTaskCount ≤ (hop s)^[j] s.nextTask := not_le.mpr (hr.position j).1
    have hw := wakeAlong_wakes s (j + 1)
    have hbyte : byteHop (wakeAlong s (j + 1)) ((hop s)^[j] s.nextTask) =
        (hop s)^[j + 1] s.nextTask := by
      have hlt := (hr.position (j + 1)).1
      rw [iterate_succ_apply', ← hw.hop] at hlt ⊢
      exact byteHop_eq (hlt.trans_le (B.maxTaskCount_le.trans (by norm_num)))
    have hnext : (wakeAlong s (j + 1)).nextTask = s.nextTask := by
      obtain ⟨⟨st, a, c, he⟩, -⟩ := hw
      rw [he]
    simp only [wakeTurn, if_neg hb]
    rw [show wakeSlot (wakeAlong s j) ((hop s)^[j] s.nextTask) = wakeAlong s (j + 1) from rfl,
      hbyte, hnext]
  refine ⟨fun j h => h.elim, fun j _ h => ?_, fun j _ h => ?_⟩
  · rw [hturn, if_pos h]
  · rw [hturn, if_neg h]

lemma wake_pass (hr : RingFrom (hop s) (Live B s) s.nextTask) :
    ∃ w, Woken B s w ∧ ∀ t, (∃ n, runLoop (wakeTurn B) n (s, s.nextTask) = some t) ↔ t = w := by
  let n := minimalPeriod (hop s) s.nextTask
  have hexit : Exit (fun _ => False) (fun j => (hop s)^[j] s.nextTask = s.nextTask) n := by
    refine ⟨hr.length_pos, iterate_minimalPeriod, fun _ _ _ h => h, fun j hj hn h => ?_⟩
    rw [position_eq_start_iff, Nat.mod_eq_of_lt hn] at h
    omega
  refine ⟨wakeAlong s n, ⟨wakeAlong_wakes s n, fun k hk => ?_⟩, fun t => ?_⟩
  · obtain ⟨i, hi, rfl⟩ := hr.index hk
    exact wakeAlong_awake hi
  · refine ((wake_along hr).returns_iff t).trans ⟨?_, ?_⟩
    · rintro ⟨m, hm, rfl⟩
      rw [hm.unique hexit]
    · rintro rfl
      exact ⟨n, hexit, rfl⟩

def arrive (s : KernelState) (c : Selection) : Selection :=
  if s.currentTask = hop s c.next ∧ s.enableDws = true then
    ⟨hop s c.next, s.levelStash (uint8 (c.lptr + 255)), uint8 (c.lptr + 255)⟩
  else ⟨hop s c.next, c.level, c.lptr⟩

lemma arrive_next (s : KernelState) (c : Selection) : (arrive s c).next = hop s c.next := by
  unfold arrive
  split <;> rfl

def Outside (B : Build) (s : KernelState) (c : Selection) : Prop :=
  B.maxTaskCount ≤ c.next ∨
    ((s.currentTask = hop s c.next ∧ s.enableDws = true) ∧
      B.maxTaskCount ≤ uint8 (c.lptr + 255)) ∨
    B.maxTaskCount ≤ hop s c.next

instance (s : KernelState) (c : Selection) : Decidable (Outside B s c) :=
  inferInstanceAs (Decidable (_ ∨ _ ∨ _))

lemma selectTurn_eq (s : KernelState) (c : Selection) : selectTurn B s c =
    if Outside B s c then .fault
    else if s.state (arrive s c).next = .sleep ∧
        s.prioCurrent (arrive s c).next = (arrive s c).level then .leave (arrive s c)
    else .again (arrive s c) := by
  by_cases h : s.currentTask = hop s c.next ∧ s.enableDws = true <;>
    simp only [selectTurn, Outside, arrive, h, if_true, if_false, true_and, false_and, false_or]

structure Chosen (B : Build) (w : KernelState) (c : Selection) : Prop where
  bound : c.next < B.maxTaskCount
  sleeping : w.state c.next = .sleep
  level : w.prioCurrent c.next = c.level

lemma select_chosen {c d : Selection} {n : ℕ} (h : runLoop (selectTurn B w) n c = some d) :
    Chosen B w d := by
  refine runLoop_invariant (I := fun _ => True) (fun _ _ _ _ => trivial) ?_ trivial h
  intro c d _ hb
  rw [selectTurn_eq] at hb
  split_ifs at hb with h1 h2
  obtain rfl := Turn.leave.inj hb
  simp only [Outside, not_or, not_le] at h1
  exact ⟨by rw [arrive_next]; exact h1.2.2, h2.1, h2.2⟩

lemma select_invariant {I : Selection → Prop}
    (hI : ∀ c, I c → ¬ Outside B w c → I (arrive w c))
    {c d : Selection} {n : ℕ} (hc : I c) (h : runLoop (selectTurn B w) n c = some d) : I d := by
  have hturn : ∀ c r, I c → selectTurn B w c = .again r ∨ selectTurn B w c = .leave r → I r := by
    intro c r hc hr
    rw [selectTurn_eq] at hr
    split_ifs at hr with h1 h2 <;> simp only [false_or, or_false, or_self] at hr
    · exact Turn.leave.inj hr ▸ hI c hc h1
    · exact Turn.again.inj hr ▸ hI c hc h1
  exact runLoop_invariant (fun c r hc hr => hturn c r hc (Or.inl hr))
    (fun c r hc hr => hturn c r hc (Or.inr hr)) hc h

lemma select_live (hs : Sorted (Live B w) (hop w)) {c d : Selection} {n : ℕ}
    (hc : Live B w c.next) (h : runLoop (selectTurn B w) n c = some d) : Live B w d.next := by
  refine select_invariant (I := fun c => Live B w c.next) ?_ hc h
  intro c hc _
  rw [arrive_next]
  exact (hs _ hc).mem

def place (s : KernelState) (j : ℕ) : ℕ := (hop s)^[j] s.nextTask

/-- `lptr` and `level` once the walk has met the current task `r` times. -/
def pointerAt (s : KernelState) (r : ℕ) : ℕ := uint8 (s.lstashPtr + 255 + 255 * r)

def levelAt (s : KernelState) (r : ℕ) : ℕ :=
  if r = 0 then s.maxLevel else s.levelStash (pointerAt s r)

def selectionAt (s : KernelState) (lap : ℕ → ℕ) (j : ℕ) : Selection :=
  ⟨place s j, levelAt s (lap j), pointerAt s (lap j)⟩

structure Laps (s : KernelState) (lap : ℕ → ℕ) : Prop where
  start : lap 0 = 0
  met : ∀ j, place s (j + 1) = s.currentTask → lap (j + 1) = lap j + 1
  unmet : ∀ j, place s (j + 1) ≠ s.currentTask → lap (j + 1) = lap j

lemma pointerAt_succ (s : KernelState) (r : ℕ) :
    pointerAt s (r + 1) = uint8 (pointerAt s r + 255) := by
  simp only [pointerAt, uint8]
  omega

lemma pointerAt_eq {r : ℕ} (hr : r < s.lstashPtr) (hl : s.lstashPtr ≤ 128) :
    pointerAt s r = s.lstashPtr - 1 - r := by
  simp only [pointerAt, uint8]
  omega

lemma pointerAt_under (s : KernelState) : pointerAt s s.lstashPtr = 255 := by
  simp only [pointerAt, uint8]
  omega

lemma select_along {lap : ℕ → ℕ} (hp : ∀ j, place w j < B.maxTaskCount)
    (hd : w.enableDws = true) (hl : Laps w lap) :
    Along (selectTurn B w) (selectionAt w lap) (selectionAt w lap)
      (fun j => place w j = w.currentTask ∧ B.maxTaskCount ≤ pointerAt w (lap j))
      (fun j => w.state (place w j) = .sleep ∧
        w.prioCurrent (place w j) = levelAt w (lap j)) := by
  have hhop : ∀ j, hop w (place w j) = place w (j + 1) :=
    fun j => (iterate_succ_apply' _ _ _).symm
  have hnext : ∀ j, arrive w (selectionAt w lap j) = selectionAt w lap (j + 1) := by
    intro j
    by_cases hm : place w (j + 1) = w.currentTask
    · simp [arrive, selectionAt, hhop, hm, hd, hl.met j hm, levelAt, pointerAt_succ]
    · simp [arrive, selectionAt, hhop, Ne.symm hm, hl.unmet j hm]
  have hout : ∀ j, Outside B w (selectionAt w lap j) ↔
      place w (j + 1) = w.currentTask ∧ B.maxTaskCount ≤ pointerAt w (lap (j + 1)) := by
    intro j
    have hj := not_le.mpr (hp j)
    have hj' := not_le.mpr (hp (j + 1))
    by_cases hm : place w (j + 1) = w.currentTask
    · have hc : ¬ B.maxTaskCount ≤ w.currentTask := hm ▸ hj'
      simp [Outside, selectionAt, hhop, hm, hd, hl.met j hm, pointerAt_succ, hj, hc]
    · simp [Outside, selectionAt, hhop, hm, Ne.symm hm, hj, hj']
  refine ⟨fun j h => ?_, fun j h h' => ?_, fun j h h' => ?_⟩ <;>
    rw [selectTurn_eq, hnext]
  · rw [if_pos ((hout j).mpr h)]
  · rw [if_neg (mt (hout j).mp h)]
    exact if_pos h'
  · rw [if_neg (mt (hout j).mp h)]
    exact if_neg h'

structure Scheduled (B : Build) (s w : KernelState) (c : Selection) : Prop where
  woken : ∃ n, runLoop (wakeTurn B) n (enterScheduler s, uint8 s.nextTask) = some w
  selected : ∃ n, runLoop (selectTurn B w) n
    ⟨w.nextTask, w.maxLevel, uint8 (w.lstashPtr + 255)⟩ = some c

lemma scheduler_iff : (∃ n, scheduler B n s = some t) ↔
    ∃ w c, Scheduled B s w c ∧ t = leaveScheduler w c := by
  constructor
  · rintro ⟨n, h⟩
    obtain ⟨w, hw, hc⟩ := Option.bind_eq_some_iff.mp h
    obtain ⟨c, hs, rfl⟩ := Option.map_eq_some_iff.mp hc
    exact ⟨w, c, ⟨⟨n, hw⟩, ⟨n, hs⟩⟩, rfl⟩
  · rintro ⟨w, c, ⟨⟨n, hw⟩, ⟨m, hc⟩⟩, rfl⟩
    refine ⟨max n m, ?_⟩
    rw [scheduler, runLoop_mono hw (le_max_left n m)]
    exact Option.map_eq_some_iff.mpr ⟨c, runLoop_mono hc (le_max_right n m), rfl⟩

lemma live_enter (h : s.normalSchedule = true → Live B s s.currentTask) :
    Live B (enterScheduler s) k ↔ Live B s k := by
  cases hn : s.normalSchedule with
  | false => simp [Live, enterScheduler, hn]
  | true =>
    rcases eq_or_ne k s.currentTask with rfl | hk
    · simpa [Live, enterScheduler, hn] using fun hlt => (h hn).2
    · simp [Live, enterScheduler, hn, hk]

lemma Scheduled.wakes {c : Selection} (h : Scheduled B s w c) : Wakes (enterScheduler s) w := by
  obtain ⟨n, hn⟩ := h.woken
  exact wake_pass_wakes hn

lemma Scheduled.chosen {c : Selection} (h : Scheduled B s w c) : Chosen B w c := by
  obtain ⟨n, hn⟩ := h.selected
  exact select_chosen hn

lemma scheduled_on_ring
    (hr : RingFrom (hop s) (Live B (enterScheduler s)) s.nextTask) :
    ∃ w, Woken B (enterScheduler s) w ∧ ∀ v c, Scheduled B s v c ↔ v = w ∧
      ∃ n, runLoop (selectTurn B w) n
        ⟨w.nextTask, w.maxLevel, uint8 (w.lstashPtr + 255)⟩ = some c := by
  obtain ⟨w, hw, huniq⟩ := wake_pass (s := enterScheduler s) hr
  have hnext : uint8 s.nextTask = s.nextTask :=
    uint8_eq (hr.start.1.trans_le (B.maxTaskCount_le.trans (by norm_num)))
  refine ⟨w, hw, fun v c => ⟨?_, ?_⟩⟩
  · rintro ⟨hv, hc⟩
    rw [hnext] at hv
    obtain rfl := (huniq v).mp hv
    exact ⟨rfl, hc⟩
  · rintro ⟨rfl, hc⟩
    refine ⟨?_, hc⟩
    rw [hnext]
    exact (huniq v).mpr rfl

lemma ready_iff (hw : Woken B (enterScheduler s) w) :
    Ready B s k ↔ Live B w k ∧ w.state k = .sleep := by
  constructor
  · rintro ⟨hk, hr⟩
    exact ⟨hw.live.mpr hk, (hw.sleep_iff hk).mpr hr⟩
  · rintro ⟨hk, hr⟩
    exact ⟨hw.live.mp hk, (hw.sleep_iff (hw.live.mp hk)).mp hr⟩

def Underflows (B : Build) (s : KernelState) (lap : ℕ → ℕ) (j : ℕ) : Prop :=
  place s j = s.currentTask ∧ B.maxTaskCount ≤ pointerAt s (lap j)

def Suits (B : Build) (s : KernelState) (lap : ℕ → ℕ) (j : ℕ) : Prop :=
  Ready B s (place s j) ∧ s.prioCurrent (place s j) = levelAt s (lap j)

lemma picks_iff {lap : ℕ → ℕ} (hr : RingFrom (hop s) (Live B (enterScheduler s)) s.nextTask)
    (hd : s.enableDws = true) (hl : Laps s lap) (k : ℕ) :
    (∃ t, (∃ n, scheduler B n s = some t) ∧ t.nextTask = k) ↔
      ∃ m, Exit (Underflows B s lap) (Suits B s lap) m ∧ k = place s m := by
  obtain ⟨w, hw, hsched⟩ := scheduled_on_ring hr
  have hlive : ∀ j, Live B w (place s j) := fun j => hw.live.mpr (hr.position j)
  have hready : ∀ j, Ready B s (place s j) ↔ w.state (place s j) = .sleep := fun j =>
    (ready_iff hw).trans (and_iff_right (hlive j))
  obtain ⟨st, a, c, hframe⟩ := hw.frame
  have hplace : place w = place s := by rw [hframe]; rfl
  have hlevel : levelAt w = levelAt s := by rw [hframe]; rfl
  have hpointer : pointerAt w = pointerAt s := by rw [hframe]; rfl
  have hprio : w.prioCurrent = s.prioCurrent := by rw [hframe]; rfl
  have hcur : w.currentTask = s.currentTask := by rw [hframe]; rfl
  have hlaps : Laps w lap := by
    refine ⟨hl.start, ?_, ?_⟩ <;> rw [hplace, hcur]
    · exact hl.met
    · exact hl.unmet
  have halong := select_along (B := B) (w := w) (by rw [hplace]; exact fun j => (hlive j).1)
    (by rw [hframe]; exact hd) hlaps
  have hstart : selectionAt w lap 0 = ⟨w.nextTask, w.maxLevel, uint8 (w.lstashPtr + 255)⟩ := by
    simp [selectionAt, place, levelAt, pointerAt, hl.start]
  rw [hplace, hlevel, hpointer, hprio, hcur] at halong
  have hsuits : (fun j => w.state (place s j) = .sleep ∧
      s.prioCurrent (place s j) = levelAt s (lap j)) = Suits B s lap :=
    funext fun j => by rw [← hready]; rfl
  rw [hsuits] at halong
  constructor
  · rintro ⟨t, ht, rfl⟩
    obtain ⟨v, d, hv, rfl⟩ := scheduler_iff.mp ht
    obtain ⟨rfl, hd⟩ := (hsched v d).mp hv
    rw [← hstart] at hd
    obtain ⟨m, hm, rfl⟩ := (halong.returns_iff d).mp hd
    exact ⟨m, hm, congrFun hplace m⟩
  · rintro ⟨m, hm, rfl⟩
    have hd := (halong.returns_iff _).mpr ⟨m, hm, rfl⟩
    rw [hstart] at hd
    exact ⟨_, scheduler_iff.mpr ⟨w, _, (hsched w _).mpr ⟨rfl, hd⟩, rfl⟩, congrFun hplace m⟩

noncomputable def rounds (s : KernelState) (j : ℕ) : ℕ := j / minimalPeriod (hop s) s.nextTask

lemma place_eq_current_iff (hc : s.currentTask = s.nextTask) (j : ℕ) :
    place s j = s.currentTask ↔ minimalPeriod (hop s) s.nextTask ∣ j := by
  rw [hc, Nat.dvd_iff_mod_eq_zero]
  exact position_eq_start_iff j

lemma place_mod (s : KernelState) (j : ℕ) :
    place s (j % minimalPeriod (hop s) s.nextTask) = place s j :=
  iterate_mod_minimalPeriod_eq

lemma laps_rounds (hc : s.currentTask = s.nextTask) : Laps s (rounds s) := by
  refine ⟨Nat.zero_div _, fun j hj => ?_, fun j hj => ?_⟩
  · exact Nat.succ_div_of_dvd ((place_eq_current_iff hc _).mp hj)
  · exact Nat.succ_div_of_not_dvd (mt (place_eq_current_iff hc _).mpr hj)

lemma rounds_lt (hr : RingFrom (hop s) (Live B s) s.nextTask) (hc : s.currentTask = s.nextTask)
    (hpos : 0 < s.lstashPtr) {m : ℕ} (hm : Exit (Underflows B s (rounds s)) (Suits B s (rounds s)) m) :
    rounds s m < s.lstashPtr := by
  by_contra hle
  have hn := hr.length_pos
  have hreach : s.lstashPtr * minimalPeriod (hop s) s.nextTask ≤ m :=
    (Nat.le_div_iff_mul_le hn).mp (not_lt.mp hle)
  refine hm.sound (s.lstashPtr * minimalPeriod (hop s) s.nextTask) (Nat.mul_pos hpos hn) hreach
    ⟨(place_eq_current_iff hc _).mpr (dvd_mul_left _ _), ?_⟩
  rw [rounds, Nat.mul_div_cancel _ hn, pointerAt_under]
  exact B.maxTaskCount_le.trans (by norm_num)

lemma laps_of_gone (hr : RingFrom (hop s) (Live B s) s.nextTask) (hc : ¬ Live B s s.currentTask) :
    Laps s (fun _ => 0) :=
  ⟨rfl, fun j hj => absurd (hj ▸ hr.position (j + 1)) hc, fun _ _ => rfl⟩

end Skibios.Kernel.SchedulerLoops
