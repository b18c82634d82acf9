import Skibios.Kernel.State
import Skibios.Library.Loops

/-! `scheduler()` and the PendSV context switch. -/

namespace Skibios.Kernel.Scheduler

open Function Library.Words Library.Loops State

/-- The tick stops the timer and puts the running task to sleep, unless a service that triggered
the scheduler has already stored the caller's state. -/
def enterScheduler (s : KernelState) : KernelState :=
  { s with
    timer := false
    state := if s.normalSchedule then update s.state s.currentTask .sleep else s.state
    normalSchedule := true
    schedulerPending := false }

def WakeCondition (s : KernelState) (k : ℕ) : Prop :=
  (s.state k = .hibernateG ∧ s.hibValue k ≤ elapsed s k) ∨
    (s.state k = .hibernateL ∧ elapsed s k ≤ s.hibValue k)

instance (s : KernelState) : DecidablePred (WakeCondition s) :=
  fun _ => inferInstanceAs (Decidable (_ ∨ _))

/-- The body of the wake-up pass; its two branches differ in their condition only. -/
def wakeSlot (s : KernelState) (k : ℕ) : KernelState :=
  { s with
    hlc := if WakeCondition s k ∧ s.prioCurrent k = s.maxLevel then uint8 (s.hlc + 255) else s.hlc
    alc := if WakeCondition s k ∧ s.prioCurrent k = s.maxLevel then uint8 (s.alc + 1) else s.alc
    state := if WakeCondition s k then update s.state k .sleep else s.state }

/-- One turn of `do { ... k = k + jmp_list[k]; } while(k != next_task);` -/
def wakeTurn (B : Build) (c : KernelState × ℕ) : Turn (KernelState × ℕ) KernelState :=
  if B.maxTaskCount ≤ c.2 then .fault
  else
    let t := wakeSlot c.1 c.2
    let k := byteHop t c.2
    if k = t.nextTask then .leave t else .again (t, k)

structure Selection where
  next : ℕ
  level : ℕ
  lptr : ℕ

/-- One turn of the selection loop. -/
def selectTurn (B : Build) (s : KernelState) (c : Selection) : Turn Selection Selection :=
  let next := hop s c.next
  let lowers := s.currentTask = next ∧ s.enableDws = true
  let lptr := if lowers then uint8 (c.lptr + 255) else c.lptr
  let level := if lowers then s.levelStash lptr else c.level
  if B.maxTaskCount ≤ c.next ∨ (lowers ∧ B.maxTaskCount ≤ lptr) ∨ B.maxTaskCount ≤ next then .fault
  else if s.state next = .sleep ∧ s.prioCurrent next = level then .leave ⟨next, level, lptr⟩
  else .again ⟨next, level, lptr⟩

/-- The timer stays off for a lone task of the top level. -/
def leaveScheduler (s : KernelState) (c : Selection) : KernelState :=
  { s with
    nextTask := c.next
    state := update s.state c.next .active
    timer := !(s.alc = 1 ∧ s.hlc = 0 : Bool) || (c.level ≠ s.maxLevel : Bool)
    switchPending := true }

/-- `none` if a loop reads outside a table or has not ended after `fuel` turns. -/
def scheduler (B : Build) (fuel : ℕ) (s : KernelState) : Option KernelState :=
  (runLoop (wakeTurn B) fuel (enterScheduler s, uint8 s.nextTask)).bind fun t =>
    (runLoop (selectTurn B t) fuel ⟨t.nextTask, t.maxLevel, uint8 (t.lstashPtr + 255)⟩).map
      (leaveScheduler t)

def contextSwitch (s : KernelState) : KernelState :=
  { s with currentTask := s.nextTask, switchPending := false }

/-- A task that is in SLEEP once the running task has been put to sleep and the wake-up pass is
over. -/
def Ready (B : Build) (s : KernelState) (k : ℕ) : Prop :=
  Live B (enterScheduler s) k ∧
    ((enterScheduler s).state k = .sleep ∨ WakeCondition (enterScheduler s) k)

instance (B : Build) (s : KernelState) : DecidablePred (Ready B s) :=
  fun _ => inferInstanceAs (Decidable (_ ∧ _))

end Skibios.Kernel.Scheduler
