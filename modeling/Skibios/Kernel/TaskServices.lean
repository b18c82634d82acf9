import Skibios.Kernel.State
import Skibios.Library.Loops

/-! The services of `svr_task.c`. -/

namespace Skibios.Kernel.TaskServices

open Function Library.Words Library.Loops State

def svcHandOver : ℕ := 11

/-- `lower_index`, `j` and `search_index` of the binary search over `level_stash`. -/
structure Search where
  lower : ℕ
  upper : ℕ
  index : ℕ

/-- Leaves with `none` at `goto proc_continue`, with `search_index` at the end of the loop. -/
def searchTurn (B : Build) (stash : ℕ → ℕ) (p : ℕ) (c : Search) : Turn Search (Option ℕ) :=
  if c.lower ≤ c.upper then
    let index := uint8 (c.lower + (c.upper - c.lower) / 2)
    if B.maxTaskCount ≤ index then .fault
    else if stash index = p then .leave none
    else if stash index < p then .again ⟨uint8 (index + 1), c.upper, index⟩
    else .again ⟨c.lower, uint32 (index + 4294967295), index⟩
  else .leave (some c.index)

/-- `for(j = top; j > low; j--) level_stash[j] = level_stash[j-1];` -/
def shiftUp (stash : ℕ → ℕ) (low : ℕ) : ℕ → ℕ → ℕ
  | 0 => stash
  | j + 1 => if low < j + 1 then shiftUp (update stash (j + 1) (stash j)) low j else stash

/-- The new `lstash_ptr` and `level_stash`. The interval shrinks at every turn that does not fault,
so the fuel is never what ends the search. -/
def insertLevel (B : Build) (s : KernelState) (p : ℕ) : Option (ℕ × (ℕ → ℕ)) :=
  (runLoop (searchTurn B s.levelStash p) (s.lstashPtr + 3) ⟨0, s.lstashPtr, 0⟩).bind fun
  | none => some (s.lstashPtr, s.levelStash)
  | some index =>
    if B.maxTaskCount ≤ s.lstashPtr then none
    else some (uint8 (s.lstashPtr + 1), update (shiftUp s.levelStash index s.lstashPtr) index p)

/-- `max_level`, `alc`, `hlc` and the timer switch, which create and kill work out together. -/
structure Levels where
  maxLevel : ℕ
  alc : ℕ
  hlc : ℕ
  timer : Bool

def raiseLevels (B : Build) (s : KernelState) (prio : ℕ → ℕ) (state : ℕ → TaskState) : Levels :=
  forRange B.maxTaskCount (fun j l =>
    if l.maxLevel < prio j ∧ state j ≠ .idle then ⟨prio j, 0, 0, s.firstStart || l.timer⟩ else l)
    ⟨s.maxLevel, s.alc, s.hlc, s.timer⟩

def countNew (l : Levels) (prio : ℕ) (st : TaskState) : Levels :=
  if prio = l.maxLevel then
    if st.code &&& hibernateStateMask = hibernateStateMask then { l with hlc := uint8 (l.hlc + 1) }
    else { l with alc := uint8 (l.alc + 1) }
  else l

def linkSlot (jmp : ℕ → ℤ) (i : ℕ) : ℕ → ℤ :=
  if i = 0 then update jmp i 0
  else update (update jmp i (int8 (jmp (i - 1) - (i - (i - 1 : ℕ) : ℤ)))) (i - 1)
    (int8 (i - (i - 1 : ℕ) : ℤ))

/-- `pheap_ptr[j] = w` for the listed `j` and `w`. -/
def storeWords (stack : ℕ → ℕ) (base : ℕ) (ws : List (ℕ × ℕ)) : ℕ → ℕ :=
  ws.foldl (fun st w => update st (base + 4 * w.1) w.2) stack

/-- The initial stack pointer `arch_task_stack_init` leaves in `PSP_Array`. -/
def initialPsp (B : Build) (psp : ℕ) : ℕ :=
  (((psp : ℤ) + ((B.taskStackSize : ℤ) - 1) * 4 - 18 * 4) % 4294967296).toNat

def clearStack (B : Build) (stack : ℕ → ℕ) (psp : ℕ) : ℕ → ℕ :=
  forRange (B.taskStackSize / 4) (fun j st => update st (psp + 4 * j) 0) stack

def archTaskStackInit (B : Build) (stack : ℕ → ℕ) (psp ptrFunc arg : ℕ) : ℕ → ℕ :=
  storeWords stack (initialPsp B psp)
    [(0, 0xFFFFFFFD), (1, 3), (10, arg), (15, B.resolveEnd), (16, ptrFunc), (17, 0x01000000)]

def newTaskId (s : KernelState) (i : ℕ) : ℕ := uint32 (i <<< 16 ||| (s.totalTaskCount + 1))

def newState (s : KernelState) (p i : ℕ) : ℕ → TaskState :=
  if (s.objs p).hibernate &&& hibernateStateMask ≠ hibernateStateMask then update s.state i .sleep
  else s.state

def newLevels (B : Build) (s : KernelState) (p i : ℕ) : Levels :=
  let l := countNew
    (raiseLevels B s (update s.prioCurrent i (s.objs p).priority) (newState s p i))
    (s.objs p).priority (newState s p i i)
  if l.alc + l.hlc = 2 ∧ s.firstStart = true then { l with timer := true } else l

/-- What a creation that passes its checks leaves behind, given the new level stash. -/
def placeTask (B : Build) (s : KernelState) (p arg i psp ptr : ℕ) (stash : ℕ → ℕ) : KernelState :=
  { s with
    pspArray := update s.pspArray i (initialPsp B psp)
    stack := archTaskStackInit B (clearStack B s.stack psp) psp (s.objs p).ptrFunc arg
    jmpList := linkSlot s.jmpList i
    taskObj := update s.taskObj i p
    objs := update s.objs p { s.objs p with taskId := newTaskId s i }
    taskId := update s.taskId i (newTaskId s i)
    state := newState s p i
    prioCurrent := update s.prioCurrent i (s.objs p).priority
    levelStash := stash
    lstashPtr := ptr
    totalTaskCount := uint16 (s.totalTaskCount + 1)
    taskCount := uint16 (s.taskCount + 1)
    maxLevel := (newLevels B s p i).maxLevel
    alc := (newLevels B s p i).alc
    hlc := (newLevels B s p i).hlc
    timer := (newLevels B s p i).timer }

def setError (s : KernelState) (p e : ℕ) : KernelState :=
  { s with objs := update s.objs p { s.objs p with error := e } }

def idleSlot (B : Build) (s : KernelState) : ℕ :=
  firstIndex (fun k => s.state k = .idle) B.maxTaskCount

def slotStack (B : Build) (s : KernelState) (i : ℕ) : ℕ :=
  uint32 (s.pstackAddr + i * B.taskStackSize * 4)

def svcServiceTaskCreate (B : Build) : Service := fun call s =>
  let p := call.arg0
  if s.taskCount < B.maxTaskCount then
    let i := idleSlot B s
    if 127 < (s.objs p).priority ∨ ((s.objs p).priority = 0 ∧ s.firstStart = true) then
      some (errorInvalidTaskPriority, call, setError s p errorInvalidTaskPriority)
    else if B.maxTaskCount ≤ i then none
    else if slotStack B s i = 0 then
      some (errorOutOfMemory, call,
        { setError s p errorOutOfMemory with pspArray := update s.pspArray i 0 })
    else
      (insertLevel B s (s.objs p).priority).map fun (ptr, stash) =>
        (errorNone, call, placeTask B s p call.arg1 i (slotStack B s i) ptr stash)
  else some (errorMaxProcessCount, call, setError s p errorMaxProcessCount)

/-- The loop that takes `p` out of `level_stash`, with its `found` flag. -/
def dropLevel (p ptr : ℕ) (stash : ℕ → ℕ) : Bool × (ℕ → ℕ) :=
  forRange ptr (fun j d =>
    if d.1 = true ∨ d.2 j = p then (true, update d.2 j (d.2 (j + 1))) else d) (false, stash)

/-- The new `lstash_ptr` and `level_stash`; every slot, idle or not, keeps its level in use. -/
def removeLevel (B : Build) (s : KernelState) (i : ℕ) : Option (ℕ × (ℕ → ℕ)) :=
  if ∃ j < B.maxTaskCount, j ≠ i ∧ s.prioCurrent j = s.prioCurrent i then
    some (s.lstashPtr, s.levelStash)
  else
    let d := dropLevel (s.prioCurrent i) s.lstashPtr s.levelStash
    -- the last turn reads level_stash[lstash_ptr] once the level has been found
    if B.maxTaskCount < s.lstashPtr ∨ (d.1 = true ∧ B.maxTaskCount ≤ s.lstashPtr) then none
    else some (uint8 (s.lstashPtr + 255), d.2)

def highestLevel (B : Build) (prio : ℕ → ℕ) (state : ℕ → TaskState) : ℕ :=
  forRange B.maxTaskCount (fun k m => if m ≤ prio k ∧ state k ≠ .idle then prio k else m) 0

/-- `alc` and `hlc` recounted over all slots, idle ones included. -/
def recount (B : Build) (prio : ℕ → ℕ) (state : ℕ → TaskState) (level : ℕ) : ℕ × ℕ :=
  forRange B.maxTaskCount (fun k c =>
    if prio k = level then
      if (state k).code &&& hibernateStateMask = hibernateStateMask then (c.1, uint8 (c.2 + 1))
      else (uint8 (c.1 + 1), c.2)
    else c) (0, 0)

/-- The slot whose jump leads to `i`. -/
def predecessor (s : KernelState) (i : ℕ) : ℕ :=
  firstIndex (fun j => (i : ℤ) = j + s.jmpList j) i

def unlinkPred (s : KernelState) (i : ℕ) : ℕ → ℤ :=
  update s.jmpList (predecessor s i) (int8 (s.jmpList (predecessor s i) + s.jmpList i))

def dropTask (B : Build) (s : KernelState) (i : ℕ) (selfKill : Bool) (ptr : ℕ) (stash : ℕ → ℕ) :
    KernelState :=
  let state := update s.state i .idle
  let level := highestLevel B s.prioCurrent state
  { s with
    levelStash := stash
    lstashPtr := ptr
    state := state
    objs := update s.objs (s.taskObj i) { s.objs (s.taskObj i) with taskId := 0 }
    taskId := update s.taskId i 0
    taskObj := update s.taskObj i 0
    selfKill := selfKill
    taskCount := uint16 (s.taskCount + 65535)
    nextTask := if selfKill then (((s.nextTask : ℤ) + unlinkPred s i i) % 4294967296).toNat
      else s.nextTask
    jmpList := update (unlinkPred s i) i 0
    maxLevel := level
    alc := (recount B s.prioCurrent state level).1
    hlc := (recount B s.prioCurrent state level).2
    timer := true }

/-- Writing `task_obj[i]->task_id` through a null `task_obj[i]` faults. -/
def svcServiceTaskKill (B : Build) : Service := fun call s =>
  let i := uint8 (call.arg0 >>> 16)
  let selfKillFlag := call.arg1
  if B.maxTaskCount ≤ i ∨ s.taskObj i = 0 then none
  else
    (removeLevel B s i).map fun (ptr, stash) =>
      (errorNone, { call with svcNum := if selfKillFlag = 1 then svcHandOver else call.svcNum },
        dropTask B s i (s.selfKill || selfKillFlag = 1) ptr stash)

def hibernateState (s : KernelState) (processNo op1 op2 value : ℕ) : KernelState :=
  let c := s.currentTask
  { s with
    state := update s.state c
      (if processNo &&& hibernateRevMask = hibernateRevMask then .hibernateL else .hibernateG)
    op1 := update s.op1 c op1
    op2 := update s.op2 c op2
    hibValue := update s.hibValue c value
    hlc := if s.prioCurrent c = s.maxLevel then uint8 (s.hlc + 1) else s.hlc
    alc := if s.prioCurrent c = s.maxLevel then uint8 (s.alc + 255) else s.alc
    normalSchedule := false
    schedulerPending := true }

def svcServiceHibernate : Service := fun call s =>
  some (errorNone, call, hibernateState s call.arg0 call.arg1 call.arg2 call.arg3)

/-- `max_level` after `max_level++`, which starts from 127 at the first promotion. -/
def promotedLevel (s : KernelState) : ℕ :=
  uint8 ((if s.maxpLevel = 127 then 127 else s.maxLevel) + 1)

def promoteSlot (s : KernelState) (m index : ℕ) : KernelState :=
  { s with
    maxpLevel := if s.maxpLevel = 127 then s.maxLevel else s.maxpLevel
    alcp := if s.maxpLevel = 127 then s.alc else s.alcp
    hlcp := if s.maxpLevel = 127 then s.hlc else s.hlcp
    alc := if s.maxpLevel = 127 then 1 else s.alc
    hlc := if s.maxpLevel = 127 then 0 else s.hlc
    maxLevel := promotedLevel s
    mutexStash := update s.mutexStash index m
    prioStashed := update s.prioStashed index (s.prioCurrent index)
    prioCurrent := update s.prioCurrent index (promotedLevel s)
    state := update s.state s.currentTask .hold
    op1 := update s.op1 s.currentTask m
    normalSchedule := false
    schedulerPending := true }

def svcServicePriorityPromote (B : Build) : Service := fun call s =>
  let index := s.mem call.arg0 >>> 16
  if B.maxTaskCount ≤ index then none
  else some (errorNone, call, promoteSlot s call.arg0 index)

def waiter (B : Build) (s : KernelState) (m : ℕ) : ℕ :=
  firstIndex (fun i => s.state i = .hold ∧ s.op1 i = m) B.maxTaskCount

def demoteCurrent (B : Build) (s : KernelState) : KernelState :=
  let c := s.currentTask
  let level := uint8 (s.maxLevel + 255)
  let w := waiter B s (s.mutexStash c)
  { s with
    prioCurrent := update s.prioCurrent c (s.prioStashed c)
    prioStashed := update s.prioStashed c 0
    maxLevel := if level = 127 then s.maxpLevel else level
    maxpLevel := if level = 127 then 127 else s.maxpLevel
    alc := if level = 127 then s.alcp else s.alc
    hlc := if level = 127 then s.hlcp else s.hlc
    state := if w < B.maxTaskCount then update s.state w .sleep else s.state
    mutexStash := update s.mutexStash c 0 }

def svcServicePriorityDemote (B : Build) : Service := fun call s =>
  some (errorNone, { call with svcNum := svcHandOver }, demoteCurrent B s)

end Skibios.Kernel.TaskServices
