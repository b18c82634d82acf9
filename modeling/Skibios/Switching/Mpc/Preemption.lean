import Skibios.Library.Simulation
import Skibios.Tasks.Invariants
import Skibios.Tasks.Stacks

/-! `context_switch_handler` on the MPC57x8 port: the software interrupt that runs it has the lowest
priority, so ticks arrive while it waits and between its instructions. -/

namespace Skibios.Switching.Mpc.Preemption

open Function Library.Words Library.Loops Library.Runs Kernel
open State TaskServices Services Scheduler SchedulerLoops Events Effects Tasks Tasks.Invariants

/-- How far the handler has come; `next` is what it has read from `next_task`. -/
inductive Stage
  | outside
  | chosen (next : ℕ) (loaded : Bool)
  | stored
  deriving DecidableEq

/-- `switchPending` is the request of the software interrupt. -/
structure Core where
  kernel : KernelState
  stage : Stage

inductive Label
  | call (e : Event)
  -- an interrupt handler of the application stores a word
  | isr (a v : ℕ)
  | tick
  -- r4 <-- next_task, r1 <-- PSP_Array[next_task], current_task <-- r4, the request is cleared
  | fetch
  | load
  | store
  | clear

/-- The calls a task makes and its own stores; `mutex_lock` and `mutex_unlock` of the port are made
of stores and a PRIORITY_DEMOTE. -/
def Asked (s : KernelState) : Event → Prop
  | .mutexLock _ | .clearMutex _ | .tick | .scheduler | .contextSwitch => False
  | .unlockTest m => s.mutexStash s.currentTask = m
  | _ => True

/-- A service, with the frame this port prepares for a new task. -/
def Serves (B : Build) (s : KernelState) : Event → KernelState → Prop
  | .createTask p arg, t => InThread s ∧ ∃ v c, Stacks.svcServiceTaskCreate .mpc57x8 B
      ⟨svcCreateTask, p, arg, 0, 0⟩ s = some (v, c, t)
  | e, t => Events.Step B s e t

/-- `TRIGGER_SCHEDULER()` calls `scheduler()` before the service returns. -/
def Triggered (B : Build) (u t : KernelState) : Prop :=
  (u.schedulerPending = false ∧ t = u) ∨ Events.Step B u .scheduler t

inductive Step (B : Build) : Core → Label → Core → Prop
  | call {c : Core} {e : Event} {u t : KernelState} (outside : c.stage = .outside)
      (running : c.kernel.switchPending = false) (asked : Asked c.kernel e)
      (regular : Regular B c.kernel e) (serves : Serves B c.kernel e u)
      (triggered : Triggered B u t) : Step B c (.call e) { c with kernel := t }
  | isr {c : Core} {a v : ℕ} :
      Step B c (.isr a v) { c with kernel := { c.kernel with mem := update c.kernel.mem a v } }
  | tick {c : Core} {fuel : ℕ} {t : KernelState} (timer : c.kernel.timer = true)
      (scheduler : scheduler B fuel c.kernel = some t) : Step B c .tick { c with kernel := t }
  | fetch {c : Core} (outside : c.stage = .outside) (pending : c.kernel.switchPending = true) :
      Step B c .fetch { c with stage := .chosen c.kernel.nextTask false }
  | load {c : Core} {n : ℕ} (chosen : c.stage = .chosen n false) :
      Step B c .load { c with stage := .chosen n true }
  | store {c : Core} {n : ℕ} (chosen : c.stage = .chosen n true) :
      Step B c .store ⟨{ c.kernel with currentTask := n }, .stored⟩
  | clear {c : Core} (stored : c.stage = .stored) :
      Step B c .clear ⟨{ c.kernel with switchPending := false }, .outside⟩

/-- The kernel that `kernel_init` leaves: the base task has the frame of this port. -/
def bootMpc (B : Build) (mem : ℕ → ℕ) (objs : ℕ → TaskObject) (stack : ℕ → ℕ) : KernelState :=
  { Stacks.placeTask .mpc57x8 B (beforeBase B mem objs stack) B.baseTask 0 0 B.procHeapAddr 1 (fun _ => 0) with
    permissions := update (fun _ => 0) 0 0xFFFF
    currentTask := 0 }

def initial (B : Build) (mem : ℕ → ℕ) (objs : ℕ → TaskObject) (stack : ℕ → ℕ) : Core :=
  ⟨bootMpc B mem objs stack, .outside⟩

variable {B : Build} {s t u w : KernelState} {c d : Core} {e : Event} {l : Label} {k : ℕ}

section Effects

lemma refused_effect {p arg : ℕ} (hth : InThread s) (v : ℕ) :
    Effect B s (.createTask p arg) (setError s p v) := .refused hth

lemma Serves.effect (h : Serves B s e u) :
    ∃ v, Effect B s e v ∧ u = { v with stack := u.stack, pspArray := u.pspArray } := by
  cases e with
  | createTask p arg =>
    obtain ⟨hth, r, call, h⟩ := h
    simp only [Stacks.svcServiceTaskCreate] at h
    split_ifs at h with h1 h2 h3 h4
    · obtain ⟨-, -, rfl⟩ := by simpa using h
      exact ⟨_, refused_effect hth _, rfl⟩
    · obtain ⟨-, -, rfl⟩ := by simpa using h
      exact ⟨_, refused_effect hth _, rfl⟩
    · obtain ⟨⟨ptr, stash⟩, hi, he⟩ := Option.map_eq_some_iff.mp h
      obtain ⟨-, -, rfl⟩ := by simpa using he
      rw [not_or, not_lt, not_and] at h2
      refine ⟨_, .created hth ⟨h1, h2.1, fun h0 => ?_, not_le.mp h3, hi⟩, rfl⟩
      simpa using h2.2 h0
    · obtain ⟨-, -, rfl⟩ := by simpa using h
      exact ⟨_, refused_effect hth _, rfl⟩
  | _ => exact ⟨u, step_effect h, rfl⟩

lemma consistent_port (h : Consistent B s) (stack pspArray : ℕ → ℕ) :
    Consistent B { s with stack := stack, pspArray := pspArray } :=
  h.keep rfl rfl rfl rfl rfl rfl rfl rfl rfl rfl rfl rfl rfl

lemma scheduler_requested (b : Bool) (n : ℕ) :
    scheduler B n { s with switchPending := b } = scheduler B n s := by
  let f : KernelState → KernelState := fun s => { s with switchPending := b }
  have hwake : ∀ p : KernelState × ℕ, wakeTurn B (f p.1, p.2) =
      (wakeTurn B p).map (fun q => (f q.1, q.2)) f := by
    rintro ⟨a, k⟩
    have hturn : wakeTurn B (f a, k) = if B.maxTaskCount ≤ k then .fault
        else if byteHop (wakeSlot a k) k = (wakeSlot a k).nextTask then .leave (f (wakeSlot a k))
        else .again (f (wakeSlot a k), byteHop (wakeSlot a k) k) := rfl
    rw [hturn]
    simp only [wakeTurn]
    split_ifs <;> rfl
  have hloop := runLoop_map (f := fun q : KernelState × ℕ => (f q.1, q.2)) hwake n
    (enterScheduler s, uint8 s.nextTask)
  change (runLoop (wakeTurn B) n (f (enterScheduler s), uint8 s.nextTask)).bind _ = _
  rw [hloop, Option.bind_map]
  rfl

lemma scheduled_spares {c : Selection} (hs : Scheduled B s w c) (hk : s.state k = .active)
    (hne : k ≠ s.currentTask) : k ≠ c.next ∧ (leaveScheduler w c).state k = .active := by
  have henter : (enterScheduler s).state k = .active := by
    change (if s.normalSchedule then update s.state s.currentTask .sleep else s.state) k = _
    split
    · rwa [update_of_ne hne]
    · exact hk
  have hw : w.state k = .active := by
    rcases hs.wakes.slot k with h | ⟨h, -⟩
    · exact h.trans henter
    · rcases h with ⟨h, -⟩ | ⟨h, -⟩ <;> rw [henter] at h <;> cases h
  have hpick : k ≠ c.next := by
    rintro rfl
    have hsleep := hs.chosen.sleeping
    rw [hw] at hsleep
    cases hsleep
  exact ⟨hpick, (update_of_ne hpick _ _).trans hw⟩

structure Spares (s u : KernelState) (k : ℕ) : Prop where
  active : u.state k = .active
  current : u.currentTask = s.currentTask
  switch : u.switchPending = false

lemma effect_spares (h : Effect B s e u) (hask : Asked s e) (hreg : Regular B s e)
    (hq : s.switchPending = false) (hk : s.state k = .active) (hne : k ≠ s.currentTask)
    (hkill : ∀ pid, e = .killTask pid → slotNumber pid ≠ k) : Spares s u k := by
  have hpark : ∀ v, update s.state s.currentTask v k = .active := fun v => by
    rwa [update_of_ne hne]
  have hhand : ∀ t : KernelState, t.state k = .active → t.currentTask = s.currentTask →
      (handOverState t).state k = .active := by
    intro t ht hcur
    change (if t.selfKill then t.state else update t.state t.currentTask .sleep) k = _
    split
    · exact ht
    · rwa [hcur, update_of_ne hne]
  have hdemote : ∀ t : KernelState, t.state = s.state → (demoteCurrent B t).state k = .active := by
    intro t ht
    simp only [demoteCurrent]
    split
    · rename_i hw
      rw [update_of_ne, ht, hk]
      rintro heq
      have hhold := (Consistent.waiter_hold hw).1
      rw [← heq, ht, hk] at hhold
      cases hhold
    · rw [ht, hk]
  cases h with
  | created hth hc =>
    refine ⟨(congrFun (Table.newState_eq hreg.2) k).trans ?_, rfl, hq⟩
    rw [update_of_ne, hk]
    rintro rfl
    rw [Table.idleSlot_idle hc.slot] at hk
    cases hk
  | started =>
    exact ⟨hhand _ hk hreg.symm, hreg.symm, hq⟩
  | killed =>
    exact ⟨(update_of_ne (hkill _ rfl).symm _ _).trans hk, rfl, hq⟩
  | ended =>
    have hslot : k ≠ slotNumber (s.taskId s.currentTask) := hreg.2.symm ▸ hne
    exact ⟨(update_of_ne hslot _ _).trans hk, rfl, hq⟩
  | hibernated | promoted | invoked => exact ⟨hpark _, rfl, hq⟩
  | handedOver => exact ⟨hhand _ hk rfl, rfl, hq⟩
  | demoted | released =>
    refine ⟨hhand _ (hdemote _ rfl) ?_, ?_, ?_⟩ <;> dsimp only [handOverState, demoteCurrent, answerState]
    exact hq
  | ticked | scheduled | switched | lockRefused | locked | cleared => exact hask.elim
  | _ => exact ⟨hk, rfl, hq⟩

lemma Triggered.cases (h : Triggered B u t) : (u.schedulerPending = false ∧ t = u) ∨
    ∃ w c, u.switchPending = false ∧ u.schedulerPending = true ∧ Scheduled B u w c ∧
      t = leaveScheduler w c := by
  rcases h with h | h
  · exact Or.inl h
  · cases step_effect h with
    | scheduled hp hq hs => exact Or.inr ⟨_, _, hq, hp, hs, rfl⟩

lemma scheduled_current {c : Selection} (hs : Scheduled B s w c) :
    (leaveScheduler w c).currentTask = s.currentTask := by
  obtain ⟨⟨st, a, b, hframe⟩, -⟩ := hs.wakes
  rw [hframe]
  rfl

end Effects

section Forever

/-- The task in slot `k` is ACTIVE, does not run, and nothing is going to switch to it. -/
structure Stranded (B : Build) (c : Core) (k : ℕ) : Prop where
  slot : k < B.maxTaskCount
  active : c.kernel.state k = .active
  current : k ≠ c.kernel.currentTask
  next : c.stage = .outside → c.kernel.switchPending = true → k ≠ c.kernel.nextTask
  chosen : ∀ n l, c.stage = .chosen n l → k ≠ n

def Leaves (B : Build) (k : ℕ) (c : Core) (l : Label) (d : Core) : Prop :=
  Step B c l d ∧ ∀ pid, l = .call (.killTask pid) → slotNumber pid ≠ k

lemma Stranded.step (h : Stranded B c k) (hs : Leaves B k c l d) : Stranded B d k := by
  obtain ⟨hs, hkill⟩ := hs
  cases hs with
  | @call e u t outside running asked regular serves triggered =>
    obtain ⟨v, hv, hu⟩ := serves.effect
    have hspares : Spares c.kernel u k := by
      have hvs := effect_spares hv asked regular running h.active h.current
        fun pid he => hkill pid (he ▸ rfl)
      exact ⟨by rw [hu]; exact hvs.active, by rw [hu]; exact hvs.current, by rw [hu]; exact hvs.switch⟩
    rcases triggered.cases with ⟨-, rfl⟩ | ⟨w, x, -, -, hsched, rfl⟩
    · refine ⟨h.slot, hspares.active, hspares.current.symm ▸ h.current, fun _ hp => ?_, h.chosen⟩
      rw [hspares.switch] at hp
      cases hp
    · obtain ⟨hpick, hactive⟩ := scheduled_spares hsched hspares.active (hspares.current.symm ▸ h.current)
      refine ⟨h.slot, hactive, ?_, fun _ _ => hpick, h.chosen⟩
      rw [scheduled_current hsched, hspares.current]
      exact h.current
  | isr => exact ⟨h.slot, h.active, h.current, h.next, h.chosen⟩
  | tick timer scheduler =>
    obtain ⟨w, x, hsched, rfl⟩ := scheduled_effect scheduler
    obtain ⟨hpick, hactive⟩ := scheduled_spares hsched h.active h.current
    exact ⟨h.slot, hactive, (scheduled_current hsched).symm ▸ h.current, fun _ _ => hpick, h.chosen⟩
  | fetch outside pending =>
    refine ⟨h.slot, h.active, h.current, fun ho => (by cases ho), fun n l hn => ?_⟩
    obtain ⟨rfl, -⟩ := Stage.chosen.inj hn
    exact h.next outside pending
  | load chosen =>
    refine ⟨h.slot, h.active, h.current, fun ho => (by cases ho), fun n l hn => ?_⟩
    obtain ⟨rfl, -⟩ := Stage.chosen.inj hn
    exact h.chosen _ _ chosen
  | store chosen =>
    exact ⟨h.slot, h.active, h.chosen _ _ chosen, fun ho => (by cases ho), fun n l hn => by cases hn⟩
  | clear =>
    exact ⟨h.slot, h.active, h.current, fun _ hp => (by cases hp), fun n l hn => by cases hn⟩

/-- A task that is ACTIVE without running when no switch is on its way is lost: whatever calls and
interrupts follow, it never runs again unless it is killed. -/
theorem stranded_never_runs {ls : List Label} (hk : k < B.maxTaskCount)
    (hactive : c.kernel.state k = .active) (hcur : k ≠ c.kernel.currentTask)
    (hout : c.stage = .outside) (hq : c.kernel.switchPending = false)
    (h : Run (Leaves B k) c ls d) : d.kernel.state k = .active ∧ k ≠ d.kernel.currentTask := by
  have hstart : Stranded B c k := by
    refine ⟨hk, hactive, hcur, fun _ hp => ?_, fun n l hn => ?_⟩
    · rw [hq] at hp
      cases hp
    · rw [hout] at hn
      cases hn
  have hend := h.invariant (I := fun c => Stranded B c k) (fun _ _ _ hI hs => hI.step hs) hstart
  exact ⟨hend.active, hend.current⟩

end Forever

section Exactness

/-- The tick comes while a switch to another task than the running one waits for its interrupt, or after
the handler has read `next_task` and picks another task than it read. -/
def Strands (c d : Core) : Prop :=
  match c.stage with
  | .outside => c.kernel.switchPending = true ∧ c.kernel.nextTask ≠ c.kernel.currentTask
  | .chosen n _ => n ≠ d.kernel.nextTask
  | .stored => c.kernel.currentTask ≠ d.kernel.nextTask

structure Clean (B : Build) (c : Core) : Prop where
  consistent : Consistent B c.kernel
  served : c.kernel.schedulerPending = false
  pending : c.stage ≠ .outside → c.kernel.switchPending = true
  chosen : ∀ n l, c.stage = .chosen n l → c.kernel.nextTask = n
  stored : c.stage = .stored → c.kernel.currentTask = c.kernel.nextTask

structure Recalled (B : Build) (c : Core) (n : ℕ) (l : Bool) : Prop where
  stage : c.stage = .chosen n l
  other : n ≠ c.kernel.currentTask
  chosen : c.kernel.state n = .active
  slot : c.kernel.currentTask < B.maxTaskCount
  current : c.kernel.state c.kernel.currentTask = .active

def Doomed (B : Build) (c : Core) : Prop := (∃ k, Stranded B c k) ∨ ∃ n l, Recalled B c n l

def Spared (B : Build) (c : Core) (l : Label) (d : Core) : Prop :=
  Step B c l d ∧ ∀ pid, l = .call (.killTask pid) → c.kernel.state (slotNumber pid) ≠ .active

lemma Spared.leaves (h : Spared B c l d) (hk : c.kernel.state k = .active) : Leaves B k c l d :=
  ⟨h.1, fun pid hl heq => h.2 pid hl (heq ▸ hk)⟩

lemma Recalled.tick {n : ℕ} {b : Bool} {x : Selection} (h : Recalled B c n b)
    (hs : Scheduled B c.kernel w x) : Doomed B { c with kernel := leaveScheduler w x } := by
  obtain ⟨hpick, hactive⟩ := scheduled_spares hs h.chosen h.other
  have hcur := scheduled_current hs
  have hx : (leaveScheduler w x).state x.next = .active := update_self ..
  rcases eq_or_ne x.next c.kernel.currentTask with heq | hne
  · refine Or.inr ⟨n, b, h.stage, hcur.symm ▸ h.other, hactive, hcur.symm ▸ h.slot, ?_⟩
    rw [hcur, ← heq]
    exact hx
  · refine Or.inl ⟨x.next, hs.chosen.bound, hx, hcur.symm ▸ hne, fun ho => ?_, fun m b' hm => ?_⟩
    · rw [h.stage] at ho
      cases ho
    · rw [h.stage] at hm
      obtain ⟨rfl, -⟩ := Stage.chosen.inj hm
      exact hpick.symm

lemma Doomed.step (h : Doomed B c) (hs : Spared B c l d) : Doomed B d := by
  rcases h with ⟨k, hk⟩ | ⟨n, b, hn⟩
  · exact Or.inl ⟨k, hk.step (hs.leaves hk.active)⟩
  obtain ⟨hs, -⟩ := hs
  have hstage := hn.stage
  cases hs with
  | call outside | fetch outside =>
    rw [hstage] at outside
    cases outside
  | clear stored =>
    rw [hstage] at stored
    cases stored
  | isr => exact Or.inr ⟨n, b, hn.stage, hn.other, hn.chosen, hn.slot, hn.current⟩
  | tick timer scheduler =>
    obtain ⟨w, x, hsched, rfl⟩ := scheduled_effect scheduler
    exact hn.tick hsched
  | load chosen =>
    rw [hstage] at chosen
    obtain ⟨rfl, rfl⟩ := Stage.chosen.inj chosen
    exact Or.inr ⟨n, true, rfl, hn.other, hn.chosen, hn.slot, hn.current⟩
  | store chosen =>
    rw [hstage] at chosen
    obtain ⟨rfl, rfl⟩ := Stage.chosen.inj chosen
    refine Or.inl ⟨c.kernel.currentTask, hn.slot, hn.current, hn.other.symm, fun ho => ?_, fun m b hm => ?_⟩
    · cases ho
    · cases hm

lemma retarget (h : Consistent B s) (hq : s.switchPending = true) (n : ℕ) :
    Consistent B { s with currentTask := n } := by
  refine ⟨h.toTable.keep (fun _ _ => Iff.rfl) rfl rfl rfl rfl rfl, h.flags, h.apart, h.selfKill, h.dws,
    h.next, h.single, h.pending, h.switching, fun hf => ?_, fun hth => ?_, fun hth => ?_⟩
  · exact Bool.noConfusion (hq.symm.trans hf)
  · exact Bool.noConfusion (hq.symm.trans hth.2)
  · exact Bool.noConfusion (hq.symm.trans hth.2)

lemma released (h : Consistent B s) (hq : s.switchPending = true) (hcur : s.currentTask = s.nextTask) :
    Consistent B { s with switchPending := false } := by
  have hswitch : contextSwitch s = { s with switchPending := false } :=
    congrArg (fun n => ({ s with currentTask := n, switchPending := false } : KernelState)) hcur.symm
  exact hswitch ▸ h.switched hq

lemma Clean.ticked {fuel : ℕ} (h : Clean B c)
    (hcur : c.kernel.switchPending = true → c.kernel.currentTask = c.kernel.nextTask)
    (hs : scheduler B fuel c.kernel = some t) : Consistent B t := by
  cases hq : c.kernel.switchPending with
  | false =>
    obtain ⟨w, x, hsched, rfl⟩ := scheduled_effect hs
    exact h.consistent.scheduled hq hsched
  | true =>
    rw [← scheduler_requested false] at hs
    obtain ⟨w, x, hsched, rfl⟩ := scheduled_effect hs
    exact (released h.consistent hq (hcur hq)).scheduled rfl hsched

lemma Clean.outside (hout : c.stage = .outside) (ht : Consistent B t) (hp : t.schedulerPending = false) :
    Clean B { c with kernel := t } := by
  refine ⟨ht, hp, fun hn => absurd hout hn, fun n l hn => ?_, fun hn => ?_⟩
  · rw [hout] at hn
    cases hn
  · rw [hout] at hn
    cases hn

lemma scheduled_served {x : Selection} (hs : Scheduled B s w x) :
    (leaveScheduler w x).schedulerPending = false := by
  obtain ⟨⟨st, a, b, hframe⟩, -⟩ := hs.wakes
  rw [hframe]
  rfl

lemma Clean.tick {fuel : ℕ} (h : Clean B c) (hs : scheduler B fuel c.kernel = some t)
    (hn : ¬ Strands c { c with kernel := t }) : Clean B { c with kernel := t } := by
  obtain ⟨w, x, hsched, rfl⟩ := scheduled_effect hs
  have hserved := scheduled_served hsched
  cases hstage : c.stage with
  | outside =>
    have hcur : c.kernel.switchPending = true → c.kernel.currentTask = c.kernel.nextTask := by
      intro hq
      by_contra hne
      refine hn ?_
      rw [Strands, hstage]
      exact ⟨hq, Ne.symm hne⟩
    rw [← hstage]
    exact .outside hstage (h.ticked hcur hs) hserved
  | chosen n b =>
    have hnext := h.chosen n b hstage
    have hpending := h.pending (by rw [hstage]; exact Stage.noConfusion)
    have hpick : n = x.next := by
      by_contra hne
      refine hn ?_
      rw [Strands, hstage]
      exact hne
    -- `n` is ACTIVE, so it can only be picked when it is the task that was put to sleep
    have hcur : c.kernel.currentTask = n := by
      by_contra hne
      refine (scheduled_spares hsched ?_ (Ne.symm hne)).1 hpick
      rw [← hnext]
      exact h.consistent.switching hpending
    refine ⟨h.ticked (fun _ => hcur.trans hnext.symm) hs, hserved, fun _ => rfl, fun m b' hm => ?_, fun hm => ?_⟩
    · obtain ⟨rfl, -⟩ := Stage.chosen.inj hm
      exact hpick.symm
    · cases hm
  | stored =>
    have hcur := h.stored hstage
    refine ⟨h.ticked (fun _ => hcur) hs, hserved, fun _ => rfl, fun m b' hm => ?_, fun _ => ?_⟩
    · cases hm
    · by_contra hne
      refine hn ?_
      rw [Strands, hstage]
      rwa [scheduled_current hsched] at hne

lemma Clean.step (h : Clean B c) (hs : Step B c l d) (hn : ¬ (l = .tick ∧ Strands c d)) : Clean B d := by
  cases hs with
  | call outside running asked regular serves triggered =>
    obtain ⟨v, hv, hu⟩ := serves.effect
    have hvc := consistent_port (h.consistent.step regular hv)
    rcases triggered.cases with ⟨hserved, rfl⟩ | ⟨w, x, hq, -, hsched, rfl⟩
    · exact .outside outside (hu ▸ hvc _ _) hserved
    · exact .outside outside (Consistent.scheduled (hu ▸ hvc _ _) hq hsched) (scheduled_served hsched)
  | isr =>
    refine ⟨?_, h.served, h.pending, h.chosen, h.stored⟩
    exact h.consistent.keep rfl rfl rfl rfl rfl rfl rfl rfl rfl rfl rfl rfl rfl
  | tick timer scheduler => exact h.tick scheduler fun hst => hn ⟨rfl, hst⟩
  | fetch outside pending =>
    refine ⟨h.consistent, h.served, fun _ => pending, fun n l hn => ?_, fun hm => ?_⟩
    · exact (Stage.chosen.inj hn).1
    · cases hm
  | load chosen =>
    have hpending := h.pending (by rw [chosen]; exact Stage.noConfusion)
    refine ⟨h.consistent, h.served, fun _ => hpending, fun n l hn => ?_, fun hm => ?_⟩
    · obtain ⟨rfl, -⟩ := Stage.chosen.inj hn
      exact h.chosen _ _ chosen
    · cases hm
  | store chosen =>
    have hpending := h.pending (by rw [chosen]; exact Stage.noConfusion)
    refine ⟨retarget h.consistent hpending _, h.served, fun _ => hpending, fun n l hn => ?_, fun _ => ?_⟩
    · cases hn
    · exact (h.chosen _ _ chosen).symm
  | clear stored =>
    have hpending := h.pending (by rw [stored]; exact Stage.noConfusion)
    refine ⟨released h.consistent hpending (h.stored stored), h.served, fun hm => absurd rfl hm,
      fun n l hn => ?_, fun hm => ?_⟩
    · cases hn
    · cases hm

lemma Clean.strands (h : Clean B c) (hs : Step B c .tick d) (hst : Strands c d) : Doomed B d := by
  cases hs with
  | tick timer scheduler =>
    obtain ⟨w, x, hsched, rfl⟩ := scheduled_effect scheduler
    have hcur := scheduled_current hsched
    have hx : (leaveScheduler w x).state x.next = .active := update_self ..
    have hbound := hsched.chosen.bound
    rw [Strands] at hst
    cases hstage : c.stage with
    | outside =>
      rw [hstage] at hst
      have hactive := h.consistent.switching hst.1
      obtain ⟨hpick, hspared⟩ := scheduled_spares hsched hactive hst.2
      refine Or.inl ⟨c.kernel.nextTask, h.consistent.next.1, hspared, hcur.symm ▸ hst.2, fun _ _ => hpick,
        fun n l hn => ?_⟩
      cases hn
    | chosen n b =>
      rw [hstage] at hst
      have hnext := h.chosen n b hstage
      have hpending := h.pending (by rw [hstage]; exact Stage.noConfusion)
      rcases eq_or_ne x.next c.kernel.currentTask with heq | hne
      · have hother : n ≠ c.kernel.currentTask := fun hn => hst (hn.trans heq.symm)
        have hactive : c.kernel.state n = .active := hnext ▸ h.consistent.switching hpending
        refine Or.inr ⟨n, b, rfl, hcur.symm ▸ hother, (scheduled_spares hsched hactive hother).2,
          hcur.symm ▸ heq ▸ hbound, ?_⟩
        rw [hcur, ← heq]
        exact hx
      · refine Or.inl ⟨x.next, hbound, hx, hcur.symm ▸ hne, fun ho => ?_, fun m b' hm => ?_⟩
        · cases ho
        · obtain ⟨rfl, -⟩ := Stage.chosen.inj hm
          exact Ne.symm hst
    | stored =>
      rw [hstage] at hst
      refine Or.inl ⟨x.next, hbound, hx, hcur.symm ▸ Ne.symm hst, fun ho => ?_, fun m b' hm => ?_⟩
      · cases ho
      · cases hm

lemma Clean.single (h : Clean B c) (hq : c.kernel.switchPending = false) (hk : k < B.maxTaskCount)
    (hactive : c.kernel.state k = .active) : k = c.kernel.currentTask := by
  have hth : InThread c.kernel := ⟨h.served, hq⟩
  exact (h.consistent.single k hk hactive).trans (h.consistent.in_thread hth).1.symm

lemma Doomed.active (h : Doomed B c) (hout : c.stage = .outside) :
    ∃ k < B.maxTaskCount, c.kernel.state k = .active ∧ k ≠ c.kernel.currentTask := by
  rcases h with ⟨k, hk⟩ | ⟨n, b, hn⟩
  · exact ⟨k, hk.slot, hk.active, hk.current⟩
  · have hstage := hn.stage
    rw [hout] at hstage
    cases hstage

variable {mem stack : ℕ → ℕ} {objs : ℕ → TaskObject} {ls : List Label}

lemma initial_clean (B : Build) (mem : ℕ → ℕ) (objs : ℕ → TaskObject) (stack : ℕ → ℕ) :
    Clean B (initial B mem objs stack) := by
  obtain ⟨objs', stack', hb⟩ := bootState_eq B mem objs stack
  refine .outside (c := initial B mem objs stack) rfl
    (consistent_port (boot_consistent B mem objs stack) _ _) ?_
  change (bootState B mem objs stack).schedulerPending = false
  rw [hb]
  rfl

lemma clean_or_doomed (h : Run (Spared B) (initial B mem objs stack) ls d) : Clean B d ∨ Doomed B d := by
  refine h.invariant (I := fun c => Clean B c ∨ Doomed B c) (fun c l d hI hs => ?_)
    (Or.inl (initial_clean B mem objs stack))
  rcases hI with hc | hd
  · by_cases hst : l = .tick ∧ Strands c d
    · obtain ⟨rfl, hst⟩ := hst
      exact Or.inr (hc.strands hs.1 hst)
    · exact Or.inl (hc.step hs.1 hst)
  · exact Or.inr (hd.step hs)

/-- In a run that kills no ACTIVE task, an ACTIVE task other than the running one is there exactly
when some tick stranded it. -/
theorem stranded_iff (h : Run (Spared B) (initial B mem objs stack) ls d) (hout : d.stage = .outside)
    (hq : d.kernel.switchPending = false) :
    (∃ k < B.maxTaskCount, d.kernel.state k = .active ∧ k ≠ d.kernel.currentTask) ↔
      ∃ ls₁ c₁ c₂ ls₂, ls = ls₁ ++ .tick :: ls₂ ∧ Run (Spared B) (initial B mem objs stack) ls₁ c₁ ∧
        Spared B c₁ .tick c₂ ∧ Strands c₁ c₂ ∧ Run (Spared B) c₂ ls₂ d := by
  constructor
  · rintro ⟨k, hk, hactive, hne⟩
    rcases h.all_or_split fun c l d => l = .tick ∧ Strands c d with
      hall | ⟨ls₁, c₁, l, c₂, ls₂, hls, h₁, hs, ⟨rfl, hst⟩, h₂⟩
    · refine absurd ?_ hne
      have hclean := hall.invariant (I := Clean B) (fun c l d hI hs => hI.step hs.1.1 hs.2)
        (initial_clean B mem objs stack)
      exact hclean.single hq hk hactive
    · exact ⟨ls₁, c₁, c₂, ls₂, hls, h₁, hs, hst, h₂⟩
  · rintro ⟨ls₁, c₁, c₂, ls₂, -, h₁, hs, hst, h₂⟩
    have hdoomed : Doomed B c₂ := by
      rcases clean_or_doomed h₁ with hc | hd
      · exact hc.strands hs.1 hst
      · exact hd.step hs
    exact (h₂.invariant (I := Doomed B) (fun c l d hI hs => hI.step hs) hdoomed).active hout

end Exactness

section Instances

def Peaceful (c : Core) (l : Label) (d : Core) : Prop :=
  Step Build.four c l d ∧ ∀ pid, l ≠ .call (.killTask pid)

def served (B : Build) (s : KernelState) : Event → Option KernelState
  | .createTask p arg =>
    if InThread s then
      (Stacks.svcServiceTaskCreate .mpc57x8 B ⟨svcCreateTask, p, arg, 0, 0⟩ s).map fun r => r.2.2
    else none
  | e => Events.step B 64 s e

def triggered (B : Build) (s : KernelState) : Option KernelState :=
  if s.schedulerPending = true then Events.step B 64 s .scheduler else some s

def called (B : Build) (e : Event) (c : Core) : Core :=
  { c with kernel := ((served B c.kernel e).bind (triggered B)).getD c.kernel }

def ticked (c : Core) : Core := { c with kernel := (scheduler Build.four 64 c.kernel).getD c.kernel }

def switched (c : Core) : Core :=
  ⟨{ c.kernel with currentTask := c.kernel.nextTask, switchPending := false }, .outside⟩

lemma served_serves (h : served B s e = some t) : Serves B s e t := by
  cases e with
  | createTask p arg =>
    simp only [served] at h
    split_ifs at h with hth
    obtain ⟨⟨v, call, t⟩, hr, rfl⟩ := Option.map_eq_some_iff.mp h
    exact ⟨hth, v, call, hr⟩
  | _ => exact ⟨64, h⟩

lemma triggered_sound (h : triggered B s = some t) : Triggered B s t := by
  rw [triggered] at h
  split_ifs at h with hp
  · exact Or.inr ⟨64, h⟩
  · exact Or.inl ⟨by simpa using hp, (Option.some.inj h).symm⟩

lemma called_sound (hout : c.stage = .outside) (hq : c.kernel.switchPending = false)
    (hask : Asked c.kernel e) (hreg : Regular B c.kernel e)
    (h : ((served B c.kernel e).bind (triggered B)).isSome = true) : Step B c (.call e) (called B e c) := by
  obtain ⟨t, ht⟩ := Option.isSome_iff_exists.mp h
  obtain ⟨u, hu, hut⟩ := Option.bind_eq_some_iff.mp ht
  rw [called, ht]
  exact .call hout hq hask hreg (served_serves hu) (triggered_sound hut)

lemma called_step (hout : c.stage = .outside) (hq : c.kernel.switchPending = false)
    (hask : Asked c.kernel e) (hreg : Regular Build.four c.kernel e) (hkill : ∀ pid, e ≠ .killTask pid)
    (h : ((served Build.four c.kernel e).bind (triggered Build.four)).isSome = true) :
    Peaceful c (.call e) (called Build.four e c) :=
  ⟨called_sound hout hq hask hreg h, fun pid hl => hkill pid (Label.call.inj hl)⟩

lemma ticked_step (ht : c.kernel.timer = true) (h : (scheduler Build.four 64 c.kernel).isSome = true) :
    Peaceful c .tick (ticked c) := by
  obtain ⟨t, hs⟩ := Option.isSome_iff_exists.mp h
  refine ⟨?_, fun pid hl => by cases hl⟩
  rw [ticked, hs]
  exact .tick ht hs

lemma switched_run (hout : c.stage = .outside) (hq : c.kernel.switchPending = true) :
    Run Peaceful c [.fetch, .load, .store, .clear] (switched c) := by
  have hkill : ∀ {l : Label}, (∀ e, l ≠ .call e) → ∀ pid, l ≠ .call (.killTask pid) := fun h _ => h _
  refine Run.cons ⟨.fetch hout hq, hkill fun _ h => by cases h⟩ ?_
  refine Run.cons ⟨.load rfl, hkill fun _ h => by cases h⟩ ?_
  refine Run.cons ⟨.store rfl, hkill fun _ h => by cases h⟩ ?_
  exact Run.single ⟨.clear rfl, hkill fun _ h => by cases h⟩

def pair : Core :=
  switched (called .four .startScheduler (called .four (.createTask 200 0) (called .four (.createTask 100 0)
    (initial Build.four (fun _ => 0) (fun _ => ⟨0, 0, 5, 1000, 0, 0, 0, 0⟩) fun _ => 0))))

/-- A second tick before the handler has begun the switch to the second task. -/
def early : Core := switched (ticked (ticked pair))

def pairLabels : List Label :=
  [.call (.createTask 100 0), .call (.createTask 200 0), .call .startScheduler] ++
    [.fetch, .load, .store, .clear]

lemma pair_run : Run Peaceful (initial Build.four (fun _ => 0) (fun _ => ⟨0, 0, 5, 1000, 0, 0, 0, 0⟩)
    fun _ => 0) pairLabels pair := by
  refine Run.append ?_ (switched_run rfl (by decide +kernel))
  refine Run.cons (called_step rfl (by decide +kernel) trivial ?_ (fun _ h => by cases h)
    (by decide +kernel)) ?_
  · exact ⟨by decide, by decide +kernel⟩
  refine Run.cons (called_step rfl (by decide +kernel) trivial ?_ (fun _ h => by cases h)
    (by decide +kernel)) ?_
  · exact ⟨by decide, by decide +kernel⟩
  refine Run.single (called_step rfl (by decide +kernel) trivial ?_ (fun _ h => by cases h)
    (by decide +kernel))
  decide +kernel

lemma early_run : Run Peaceful pair ([.tick, .tick] ++ [.fetch, .load, .store, .clear]) early := by
  refine Run.append ?_ (switched_run rfl (by decide +kernel))
  refine Run.cons (ticked_step (by decide +kernel) (by decide +kernel)) ?_
  exact Run.single (ticked_step (by decide +kernel) (by decide +kernel))

lemma early_next_run : Run Peaceful early ([.tick] ++ [.fetch, .load, .store, .clear])
    (switched (ticked early)) :=
  (Run.single (ticked_step (by decide +kernel) (by decide +kernel))).append
    (switched_run rfl (by decide +kernel))

theorem stranded_iff_early : ∃ ls₁ c₁ c₂ ls₂,
    pairLabels ++ ([.tick, .tick] ++ [.fetch, .load, .store, .clear]) = ls₁ ++ .tick :: ls₂ ∧
    Run (Spared Build.four) (initial Build.four (fun _ => 0) (fun _ => ⟨0, 0, 5, 1000, 0, 0, 0, 0⟩)
      fun _ => 0) ls₁ c₁ ∧
    Spared Build.four c₁ .tick c₂ ∧ Strands c₁ c₂ ∧ Run (Spared Build.four) c₂ ls₂ early := by
  refine (stranded_iff ((pair_run.append early_run).mono fun c l d h => ?_) rfl (by decide +kernel)).mp ?_
  · exact ⟨h.1, fun pid hl => absurd hl (h.2 pid)⟩
  · exact ⟨2, by decide, by decide +kernel, by decide +kernel⟩

theorem stranded_never_runs_early : (switched (ticked early)).kernel.state 2 = .active ∧
    2 ≠ (switched (ticked early)).kernel.currentTask := by
  refine stranded_never_runs (B := Build.four) (by decide) (by decide +kernel) (by decide +kernel) rfl
    (by decide +kernel) (early_next_run.mono fun c l d h => ?_)
  exact ⟨h.1, fun pid hl => absurd hl (h.2 pid)⟩

end Instances

end Skibios.Switching.Mpc.Preemption
