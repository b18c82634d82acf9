import Skibios.Kernel.Dispatch
import Skibios.Kernel.Effects

/-! Raw calls over the memory map of the ARM port. CREATE_TASK and KILL_TASK store into a task object
with the privileges of the kernel, wherever its pointer leads. -/

namespace Skibios.Protection.Pointers

open Function Library.Words
open Kernel State TaskServices Services Dispatch
open Effects (slotNumber)

/-- Where the linker puts what the kernel keeps in memory. -/
structure Placement where
  permissions : ℕ
  -- the bytes of the main stack, where the handler keeps the service code
  stack : ℕ → Bool
  -- those of the other variables, apart from `base_task`, and all addresses that alias a variable
  others : ℕ → Bool

/-- A store through the pointer to a task object, with its low byte first. -/
structure Store where
  addr : ℕ
  width : ℕ
  value : ℕ
  -- the service does nothing after it
  last : Bool

/-- What a task without permissions has to leave alone. -/
@[ext]
structure Assets where
  resets : ℕ
  permissions : ℕ → ℕ
  -- the registers written by HWREG_WRITE and the interrupt services
  written : List ℕ
  reload : ℕ

def assets (m : Machine) : Assets := ⟨m.resets, m.kernel.permissions, m.written, m.regs stReload⟩

/-- `task_obj->error` is the first byte of the object. -/
def errorStore (p error : ℕ) : Store := ⟨uint32 p, 1, error, true⟩

/-- `task_obj->task_id` is the word at offset 4. -/
def idStore (p id : ℕ) : Store := ⟨uint32 (p + 4), 4, id, false⟩

def creationStore (B : Build) (s : KernelState) (p : ℕ) : Store :=
  if s.taskCount < B.maxTaskCount then
    if 127 < (s.objs p).priority ∨ ((s.objs p).priority = 0 ∧ s.firstStart = true) then
      errorStore p errorInvalidTaskPriority
    else if slotStack B s (idleSlot B s) = 0 then errorStore p errorOutOfMemory
    else idStore p (newTaskId s (idleSlot B s))
  else errorStore p errorMaxProcessCount

def killStore (s : KernelState) (pid : ℕ) : Store := idStore (s.taskObj (slotNumber pid)) 0

def pointerStore (B : Build) (s : KernelState) (code a0 : ℕ) : Option Store :=
  if code = svcCreateTask then some (creationStore B s a0)
  else if code = svcKillTask then some (killStore s a0)
  else none

namespace Store

variable (L : Placement) (B : Build) (w : Store)

/-- The byte it puts at the address `y`. -/
def byte (y : ℕ) : Option ℕ :=
  let j := uint32 (y + 4294967296 - w.addr)
  if j < w.width then some (w.value / 256 ^ j % 256) else none

/-- `permissions[k]` is a halfword. -/
def onPermissions (permissions : ℕ → ℕ) : ℕ → ℕ := fun k =>
  if k < B.maxTaskCount then
    (w.byte (L.permissions + 2 * k)).getD (permissions k % 256) +
      256 * (w.byte (L.permissions + 2 * k + 1)).getD (permissions k / 256)
  else permissions k

/-- The reload register takes whole words. The key that AIRCR wants for a reset is in no task id. -/
def onReload (reload : ℕ) : Option ℕ :=
  if ∀ j < 4, w.byte (stReload + j) = none then some reload
  else if w.addr = stReload ∧ w.width = 4 then some (systickReloadMask &&& w.value)
  else none

def onAssets (a : Assets) : Option Assets :=
  (w.onReload a.reload).map fun reload =>
    { a with permissions := w.onPermissions L B a.permissions, reload := reload }

/-- It hits nothing that the handler or the rest of the service works with. -/
def Avoids : Prop := ∀ j < w.width, L.stack (uint32 (w.addr + j)) = false ∧
  (w.last = false → L.others (uint32 (w.addr + j)) = false)

instance : Decidable (w.Avoids L) := inferInstanceAs (Decidable (∀ j < _, _))

/-- What it puts into the permissions and the reload register is there already. -/
structure Spares (a : Assets) : Prop where
  low : ∀ k < B.maxTaskCount, ∀ v, w.byte (L.permissions + 2 * k) = some v → v = a.permissions k % 256
  high : ∀ k < B.maxTaskCount, ∀ v, w.byte (L.permissions + 2 * k + 1) = some v →
    v = a.permissions k / 256
  reload : (∀ j < 4, w.byte (stReload + j) = none) ∨
    w.addr = stReload ∧ w.width = 4 ∧ systickReloadMask &&& w.value = a.reload

end Store

/-- `svc_handler` with the store of its service; `none` also where that overwrites what the call goes on
with. -/
def rawSvc (B : Build) (P : Port) (L : Placement) (m : Machine) (code a0 a1 a2 a3 : ℕ) : Option Assets :=
  (machineSvc B P m code a0 a1 a2 a3).bind fun r =>
    match pointerStore B m.kernel code a0 with
    | none => some (assets r.2)
    | some w => if w.Avoids L then w.onAssets L B (assets r.2) else none

variable {B : Build} {P : Port} {L : Placement} {m : Machine} {w : Store} {a : Assets}
variable {code a0 a1 a2 a3 y v e : ℕ}

/-- The field the store sets. -/
def Store.onObject (w : Store) (o : TaskObject) : TaskObject :=
  if w.last = true then { o with error := w.value } else { o with taskId := w.value }

lemma create_stores {call : Call} {s : KernelState} {x : ℕ × Call × KernelState}
    (h : svcServiceTaskCreate B call s = some x) : x.2.2.objs =
      update s.objs call.arg0 ((creationStore B s call.arg0).onObject (s.objs call.arg0)) := by
  simp only [svcServiceTaskCreate] at h
  rw [creationStore]
  split_ifs at h ⊢
  · obtain rfl := Option.some.inj h
    rfl
  · obtain rfl := Option.some.inj h
    rfl
  · obtain ⟨d, -, rfl⟩ := Option.map_eq_some_iff.mp h
    rfl
  · obtain rfl := Option.some.inj h
    rfl

lemma kill_stores {call : Call} {s : KernelState} {x : ℕ × Call × KernelState}
    (h : svcServiceTaskKill B call s = some x) : x.2.2.objs =
      update s.objs (s.taskObj (slotNumber call.arg0))
        ((killStore s call.arg0).onObject (s.objs (s.taskObj (slotNumber call.arg0)))) := by
  simp only [svcServiceTaskKill] at h
  split at h
  · cases h
  · obtain ⟨d, -, rfl⟩ := Option.map_eq_some_iff.mp h
    rfl

lemma byte_lt (h : w.byte y = some v) : v < 256 := by
  simp only [Store.byte] at h
  split_ifs at h
  obtain rfl := Option.some.inj h
  exact Nat.mod_lt _ (by decide)

/-- Two bytes put into a halfword leave it as it is when they are its own. -/
lemma halves_iff {x z : Option ℕ} (hx : ∀ v, x = some v → v < 256) :
    x.getD (e % 256) + 256 * z.getD (e / 256) = e ↔
      (∀ v, x = some v → v = e % 256) ∧ ∀ v, z = some v → v = e / 256 := by
  have hlow : x.getD (e % 256) < 256 := by
    cases x with
    | none => exact Nat.mod_lt _ (by decide)
    | some v => exact hx v rfl
  have hsplit : x.getD (e % 256) + 256 * z.getD (e / 256) = e ↔
      x.getD (e % 256) = e % 256 ∧ z.getD (e / 256) = e / 256 := by omega
  rw [hsplit]
  cases x <;> cases z <;> simp

lemma onPermissions_iff : w.onPermissions L B a.permissions = a.permissions ↔
    ∀ k < B.maxTaskCount,
      (∀ v, w.byte (L.permissions + 2 * k) = some v → v = a.permissions k % 256) ∧
        ∀ v, w.byte (L.permissions + 2 * k + 1) = some v → v = a.permissions k / 256 := by
  rw [funext_iff]
  refine forall_congr' fun k => ?_
  rw [Store.onPermissions]
  split
  · rename_i hk
    rw [halves_iff fun v hv => byte_lt hv]
    exact ⟨fun h _ => h, fun h => h hk⟩
  · rename_i hk
    exact iff_of_true rfl fun h => absurd h hk

lemma onReload_iff : w.onReload e = some e ↔ (∀ j < 4, w.byte (stReload + j) = none) ∨
    w.addr = stReload ∧ w.width = 4 ∧ systickReloadMask &&& w.value = e := by
  rw [Store.onReload]
  split
  · rename_i h
    exact iff_of_true rfl (Or.inl h)
  · rename_i h
    rw [or_iff_right h]
    split
    · rename_i hw
      simp [hw]
    · rename_i hw
      refine iff_of_false (by simp) fun hs => hw ⟨hs.1, hs.2.1⟩

lemma onAssets_iff : w.onAssets L B a = some a ↔ w.Spares L B a := by
  have hsome : w.onAssets L B a = some a ↔
      w.onPermissions L B a.permissions = a.permissions ∧ w.onReload a.reload = some a.reload := by
    rw [Store.onAssets]
    cases w.onReload a.reload with
    | none => simp
    | some v => simp [Assets.ext_iff]
  rw [hsome, onPermissions_iff, onReload_iff]
  exact ⟨fun h => ⟨fun k hk => (h.1 k hk).1, fun k hk => (h.1 k hk).2, h.2⟩,
    fun h => ⟨fun k hk => ⟨h.low k hk, h.high k hk⟩, h.reload⟩⟩

/-- A defined call that leaves the assets alone before its store. -/
def Steady (B : Build) (P : Port) (m : Machine) (code a0 a1 a2 a3 : ℕ) : Prop :=
  ∃ r, machineSvc B P m code a0 a1 a2 a3 = some r ∧ assets r.2 = assets m

lemma rawSvc_plain (h : pointerStore B m.kernel code a0 = none) :
    rawSvc B P L m code a0 a1 a2 a3 = some (assets m) ↔ Steady B P m code a0 a1 a2 a3 := by
  simp only [rawSvc, h, Steady, Option.bind_eq_some_iff, Option.some.injEq]

lemma rawSvc_store (h : pointerStore B m.kernel code a0 = some w)
    (hkeep : ∀ r, machineSvc B P m code a0 a1 a2 a3 = some r → assets r.2 = assets m) :
    rawSvc B P L m code a0 a1 a2 a3 = some (assets m) ↔
      Steady B P m code a0 a1 a2 a3 ∧ w.Avoids L ∧ w.Spares L B (assets m) := by
  simp only [rawSvc, h, Option.bind_eq_some_iff]
  constructor
  · rintro ⟨r, hr, hw⟩
    split_ifs at hw with ha
    rw [hkeep r hr, onAssets_iff] at hw
    exact ⟨⟨r, hr, hkeep r hr⟩, ha, hw⟩
  · rintro ⟨⟨r, hr, he⟩, ha, hw⟩
    exact ⟨r, hr, by rw [if_pos ha, he, onAssets_iff]; exact hw⟩

end Skibios.Protection.Pointers
