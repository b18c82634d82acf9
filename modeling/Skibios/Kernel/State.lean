import Mathlib.Logic.Function.Basic
import Skibios.Library.Words

/-! The kernel variables of `kvar.c`, the task objects and the application memory. -/

namespace Skibios.Kernel.State

open Library.Words

inductive TaskState
  | active
  | sleep
  | idle
  | hold
  | hibernateG
  | hibernateL
  deriving DecidableEq, Repr

/-- The `TASK_STATE_*` bytes. -/
def TaskState.code : TaskState → ℕ
  | .active => 40
  | .sleep => 41
  | .idle => 42
  | .hold => 43
  | .hibernateG => 80
  | .hibernateL => 81

def hibernateStateMask : ℕ := 0x80
def hibernateRevMask : ℕ := 0x10000

def errorNone : ℕ := 0
def errorOutOfMemory : ℕ := 2
def errorMaxProcessCount : ℕ := 4
def errorInsufficientPermission : ℕ := 11
def errorInvalidTaskPriority : ℕ := 13
def errorBaseProcess : ℕ := 16
def errorUnknownProcessId : ℕ := 18
def errorSchedulerAlreadyRunning : ℕ := 19

/-- `task_t` -/
structure TaskObject where
  error : ℕ
  taskId : ℕ
  priority : ℕ
  ptrFunc : ℕ
  hibernate : ℕ
  op1 : ℕ
  op2 : ℕ
  value : ℕ

/-- The constants of `param.h` and the addresses the linker chooses. The region sizes that have an
MPU size constant (at most 64 KB, stacks of at least 512 bytes) leave at most 124 slots. -/
structure Build where
  maxTaskCount : ℕ
  taskStackSize : ℕ
  procHeapAddr : ℕ
  baseTask : ℕ
  baseTaskEntry : ℕ
  baseMutex : ℕ
  resolveEnd : ℕ
  handlerFrame : ℕ
  maxTaskCount_pos : 0 < maxTaskCount
  maxTaskCount_le : maxTaskCount ≤ 128
  procHeapAddr_pos : 0 < procHeapAddr
  procHeapAddr_lt : procHeapAddr < 4294967296
  baseTask_ne : baseTask ≠ 0
  baseMutex_ne : baseMutex ≠ 0

def Build.small (n : ℕ) (h : 0 < n) (h' : n ≤ 128) : Build where
  maxTaskCount := n
  taskStackSize := 4
  procHeapAddr := 4096
  baseTask := 8
  baseTaskEntry := 16
  baseMutex := 24
  resolveEnd := 32
  handlerFrame := 40
  maxTaskCount_pos := h
  maxTaskCount_le := h'
  procHeapAddr_pos := by decide
  procHeapAddr_lt := by decide
  baseTask_ne := by decide
  baseMutex_ne := by decide

def Build.two : Build := .small 2 (by decide) (by decide)
def Build.three : Build := .small 3 (by decide) (by decide)
def Build.four : Build := .small 4 (by decide) (by decide)
def Build.five : Build := .small 5 (by decide) (by decide)
def Build.six : Build := .small 6 (by decide) (by decide)
def Build.eight : Build := .small 8 (by decide) (by decide)

structure KernelState where
  currentTask : ℕ
  nextTask : ℕ
  maxLevel : ℕ
  maxpLevel : ℕ
  alc : ℕ
  hlc : ℕ
  alcp : ℕ
  hlcp : ℕ
  taskCount : ℕ
  totalTaskCount : ℕ
  lstashPtr : ℕ
  pstackAddr : ℕ
  taskObj : ℕ → ℕ
  pspArray : ℕ → ℕ
  prioCurrent : ℕ → ℕ
  prioStashed : ℕ → ℕ
  mutexStash : ℕ → ℕ
  levelStash : ℕ → ℕ
  jmpList : ℕ → ℤ
  state : ℕ → TaskState
  taskId : ℕ → ℕ
  permissions : ℕ → ℕ
  op1 : ℕ → ℕ
  op2 : ℕ → ℕ
  hibValue : ℕ → ℕ
  invocatedTask : ℕ
  invocatedArgs : ℕ
  selfKill : Bool
  enableDws : Bool
  firstStart : Bool
  normalSchedule : Bool
  -- words of application memory, task objects by address, words of the process stacks
  mem : ℕ → ℕ
  objs : ℕ → TaskObject
  stack : ℕ → ℕ
  -- SysTick enabled, SysTick pended by TRIGGER_SCHEDULER, PendSV pended by TRIGGER_CONTEXT_SWITCH
  timer : Bool
  schedulerPending : Bool
  switchPending : Bool

/-- `kvar.c` before `kernel_init`, over any application memory. -/
def reset (B : Build) (mem : ℕ → ℕ) (objs : ℕ → TaskObject) (stack : ℕ → ℕ) : KernelState where
  currentTask := 0
  nextTask := 0
  maxLevel := 0
  maxpLevel := 0
  alc := 0
  hlc := 0
  alcp := 0
  hlcp := 0
  taskCount := 0
  totalTaskCount := 0
  lstashPtr := 1
  pstackAddr := 0
  taskObj _ := 0
  pspArray _ := 0
  prioCurrent _ := 0
  prioStashed _ := 0
  mutexStash _ := 0
  levelStash _ := 0
  jmpList _ := 0
  state _ := .idle
  taskId _ := 0
  permissions _ := 0
  op1 _ := 0
  op2 _ := 0
  hibValue _ := 0
  invocatedTask := 0
  invocatedArgs := 0
  selfKill := false
  enableDws := true
  firstStart := false
  normalSchedule := true
  mem := Function.update mem B.baseMutex 1
  objs := objs
  stack := stack
  timer := false
  schedulerPending := false
  switchPending := false

def Live (B : Build) (s : KernelState) (k : ℕ) : Prop := k < B.maxTaskCount ∧ s.state k ≠ .idle

instance (B : Build) (s : KernelState) : DecidablePred (Live B s) :=
  fun k => inferInstanceAs (Decidable (k < B.maxTaskCount ∧ s.state k ≠ .idle))

/-- `k + jmp_list[k]` on `uint32_t`, as `next_task` follows the ring. -/
def hop (s : KernelState) (k : ℕ) : ℕ := (((k : ℤ) + s.jmpList k) % 4294967296).toNat

/-- `k + jmp_list[k]` on `uint8_t`, as the wake-up pass follows it. -/
def byteHop (s : KernelState) (k : ℕ) : ℕ := (((k : ℤ) + s.jmpList k) % 256).toNat

lemma byteHop_eq {s : KernelState} {k : ℕ} (h : hop s k < 256) : byteHop s k = hop s k := by
  unfold byteHop hop at *
  omega

/-- `*(op1[k]) - *(op2[k])` -/
def elapsed (s : KernelState) (k : ℕ) : ℕ := sub32 (s.mem (s.op1 k)) (s.mem (s.op2 k))

lemma code_and_mask (st : TaskState) : st.code &&& hibernateStateMask ≠ hibernateStateMask := by
  cases st <;> decide

/-- A service receives `*svc_num` and the four argument words by reference. -/
structure Call where
  svcNum : ℕ
  arg0 : ℕ
  arg1 : ℕ
  arg2 : ℕ
  arg3 : ℕ

/-- `none` is undefined behaviour: an access outside a kernel table or through a null pointer. -/
abbrev Service := Call → KernelState → Option (ℕ × Call × KernelState)

end Skibios.Kernel.State
