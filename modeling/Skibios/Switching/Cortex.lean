import Mathlib.Data.Fin.VecNotation
import Skibios.Library.Blocks
import Skibios.Library.Words

/-! The registers of a Cortex-M core, exception entry and return on the process stack, and the two
halves of `pendsv_handler`. -/

namespace Skibios.Switching.Cortex

open Function Library.Words Library.Blocks

structure Cpu where
  -- the registers exception entry stacks: R0 to R3, R12, LR, PC, xPSR
  low : Fin 8 → ℕ
  -- R4 to R11
  high : Fin 8 → ℕ
  psp : ℕ
  nPriv : Bool
  fpca : Bool
  -- S0 to S15, FPSCR
  fpLow : Fin 17 → ℕ
  -- S16 to S31
  fpHigh : Fin 16 → ℕ

/-- xPSR without its reserved bit 9. -/
def psrBits (w : ℕ) : ℕ := w / 1024 * 1024 + w % 512

/-- Bit 4 of EXC_RETURN is clear for a frame with floating-point registers. -/
def fpFrame (excReturn : ℕ) : Bool := excReturn / 16 % 2 = 0

def frameSize (fp : Bool) : ℕ := if fp then 104 else 32

/-- Bit 2 of the stack pointer, where the frame has to be aligned to eight bytes. -/
def alignBit (stkalign : Bool) (cpu : Cpu) : ℕ := if cpu.fpca || stkalign then cpu.psp / 4 % 2 else 0

def framePtr (stkalign : Bool) (cpu : Cpu) : ℕ :=
  let sp := sub32 cpu.psp (frameSize cpu.fpca)
  if cpu.fpca || stkalign then sp / 8 * 8 else sp

/-- EXC_RETURN, registers and stack when a handler starts. `stkalign` is `CCR.STKALIGN`; bit 9 of the
stacked xPSR tells that a word of padding lies above the frame. -/
def pushFrame (stkalign : Bool) (cpu : Cpu) (stack : ℕ → ℕ) : ℕ × Cpu × (ℕ → ℕ) :=
  let frame := framePtr stkalign cpu
  let words := update cpu.low 7 (psrBits (cpu.low 7) + 512 * alignBit stkalign cpu)
  (if cpu.fpca then 0xFFFFFFED else 0xFFFFFFFD, { cpu with psp := frame, fpca := false },
    if cpu.fpca then store (store stack frame words) (frame + 32) cpu.fpLow
    else store stack frame words)

/-- The registers after `BX LR` with this EXC_RETURN. -/
def popFrame (stkalign : Bool) (excReturn : ℕ) (cpu : Cpu) (stack : ℕ → ℕ) : Cpu :=
  let fp := fpFrame excReturn
  let psr := stack (cpu.psp + 28)
  let align := if fp || stkalign then psr / 512 % 2 else 0
  { cpu with
    low := update (load stack cpu.psp 8) 7 (psrBits psr)
    psp := cpu.psp + frameSize fp ||| align * 4
    fpca := fp
    fpLow := if fp then load stack (cpu.psp + 32) 17 else cpu.fpLow }

/-- `VSTMDBEQ R0!, {S16-S31}` and `STMDB R0!, {R2-R11}`, with EXC_RETURN in R2 and CONTROL in R3: the
final R0 and the stack. In a handler CONTROL reads as `nPriv` alone. -/
def saveContext (excReturn : ℕ) (cpu : Cpu) (stack : ℕ → ℕ) : ℕ × (ℕ → ℕ) :=
  let r0 := if fpFrame excReturn then sub32 cpu.psp 64 else cpu.psp
  let stack := if fpFrame excReturn then store stack r0 cpu.fpHigh else stack
  let sp := sub32 r0 40
  (sp, store (store stack sp ![excReturn, if cpu.nPriv then 1 else 0]) (sp + 8) cpu.high)

/-- `LDMIA R0!, {R2-R11}` and `VLDMIAEQ R0!, {S16-S31}` from the stack pointer `sp`. -/
def loadContext (sp : ℕ) (cpu : Cpu) (stack : ℕ → ℕ) : ℕ × Cpu :=
  let excReturn := stack sp
  (excReturn,
    { cpu with
      high := load stack (sp + 8) 8
      nPriv := stack (sp + 4) % 2 = 1
      fpHigh := if fpFrame excReturn then load stack (sp + 40) 16 else cpu.fpHigh
      psp := if fpFrame excReturn then sp + 104 else sp + 40 })

/-- What a task can see of the core and of its stack, which ends at `top`: the floating-point
registers are its own while FPCA is set, the words below the stack pointer are not. -/
structure Context where
  low : Fin 8 → ℕ
  high : Fin 8 → ℕ
  psp : ℕ
  nPriv : Bool
  fp : Option ((Fin 17 → ℕ) × (Fin 16 → ℕ))
  stack : ℕ → ℕ

def answered (x : Context) (v : ℕ) : Context := { x with low := update x.low 0 v }

def stackAbove (sp top : ℕ) (stack : ℕ → ℕ) : ℕ → ℕ := fun a =>
  if sp ≤ a ∧ a < top then stack a else 0

def view (top : ℕ) (cpu : Cpu) (stack : ℕ → ℕ) : Context where
  low := update cpu.low 7 (psrBits (cpu.low 7))
  high := cpu.high
  psp := cpu.psp
  nPriv := cpu.nPriv
  fp := if cpu.fpca then some (cpu.fpLow, cpu.fpHigh) else none
  stack := stackAbove cpu.psp top stack

/-- What the task sees once the handler returns. -/
def framed (stkalign : Bool) (top excReturn : ℕ) (cpu : Cpu) (stack : ℕ → ℕ) : Context :=
  view top (popFrame stkalign excReturn cpu stack) stack

/-- What a task sees once PendSV has loaded it from `sp` and returned. -/
def saved (stkalign : Bool) (top sp : ℕ) (cpu : Cpu) (stack : ℕ → ℕ) : Context :=
  framed stkalign top (loadContext sp cpu stack).1 (loadContext sp cpu stack).2 stack

/-- The stack a switch away needs, with a word for padding. -/
def room (fp : Bool) : ℕ := if fp then 212 else 76

def Context.Roomy (bottom top : ℕ) (x : Context) : Prop :=
  bottom + room x.fp.isSome ≤ x.psp ∧ x.psp ≤ top ∧ x.psp % 4 = 0

variable {stkalign : Bool} {cpu cpu' : Cpu} {stack stack' : ℕ → ℕ} {bottom top excReturn sp v a : ℕ}

section Bits

lemma psrBits_idem (w : ℕ) : psrBits (psrBits w) = psrBits w := by
  simp only [psrBits]
  omega

lemma psrBits_align {n : ℕ} (w : ℕ) (hn : n < 2) :
    psrBits (psrBits w + 512 * n) = psrBits w ∧ (psrBits w + 512 * n) / 512 % 2 = n := by
  simp only [psrBits]
  omega

lemma or_align (x : ℕ) {n : ℕ} (hn : n < 2) :
    x ||| n * 4 = if n = 1 ∧ x / 4 % 2 = 0 then x + 4 else x := by
  have hlow : ∀ r < 8, ∀ m < 2, r ||| m * 4 = (if m = 1 ∧ r / 4 % 2 = 0 then r + 4 else r) := by decide
  have hr : x % 8 < 2 ^ 3 := Nat.mod_lt _ (by norm_num)
  have hn' : n * 4 < 2 ^ 3 := by omega
  have hx : x = (x / 8) <<< 3 ||| x % 8 := by
    rw [← Nat.shiftLeft_add_eq_or_of_lt hr, Nat.shiftLeft_eq]
    omega
  calc x ||| n * 4 = (x / 8) <<< 3 ||| (x % 8 ||| n * 4) := by
        conv_lhs => rw [hx]
        rw [Nat.or_assoc]
    _ = (x / 8) <<< 3 + (x % 8 ||| n * 4) :=
        (Nat.shiftLeft_add_eq_or_of_lt (Nat.or_lt_two_pow hr hn') _).symm
    _ = _ := by
        rw [hlow _ hr n hn, Nat.shiftLeft_eq]
        split_ifs <;> omega

lemma or_align_bounds (x : ℕ) {n : ℕ} (hn : n < 2) :
    x ≤ x ||| n * 4 ∧ x ||| n * 4 ≤ x + 4 ∧ (x ||| n * 4) % 4 = x % 4 := by
  rw [or_align x hn]
  split <;> omega

end Bits

lemma stackAbove_congr {top : ℕ} (h : ∀ a, sp ≤ a → a < top → stack a = stack' a) :
    stackAbove sp top stack = stackAbove sp top stack' := by
  funext a
  rw [stackAbove, stackAbove]
  split_ifs with ha
  · exact h a ha.1 ha.2
  · rfl

section Entry

/-- Where a frame goes for a stack pointer with room below it. -/
structure Entered (stkalign : Bool) (cpu : Cpu) (stack : ℕ → ℕ) (excReturn frame : ℕ)
    (stack' : ℕ → ℕ) : Prop where
  excReturn : fpFrame excReturn = cpu.fpca
  place : frame + frameSize cpu.fpca + 4 * alignBit stkalign cpu = cpu.psp
  aligned : frame % 4 = 0
  pair : (cpu.fpca || stkalign) = true → frame % 8 = 0
  words : load stack' frame 8 = update cpu.low 7 (psrBits (cpu.low 7) + 512 * alignBit stkalign cpu)
  floats : cpu.fpca = true → load stack' (frame + 32) 17 = cpu.fpLow
  outside : ∀ a, a < frame ∨ cpu.psp ≤ a → stack' a = stack a

lemma alignBit_lt (stkalign : Bool) (cpu : Cpu) : alignBit stkalign cpu < 2 := by
  rw [alignBit]
  split <;> omega

lemma fpFrame_entry : ∀ fp : Bool, fpFrame (if fp then 0xFFFFFFED else 0xFFFFFFFD) = fp := by decide

lemma push_entered (hpsp : cpu.psp % 4 = 0) (hroom : frameSize cpu.fpca + 4 ≤ cpu.psp)
    (hlt : cpu.psp < 4294967296) : Entered stkalign cpu stack (pushFrame stkalign cpu stack).1
      (pushFrame stkalign cpu stack).2.1.psp (pushFrame stkalign cpu stack).2.2 := by
  have hsize : frameSize cpu.fpca % 8 = 0 ∧ 32 ≤ frameSize cpu.fpca := by
    cases cpu.fpca <;> decide
  have hsub : sub32 cpu.psp (frameSize cpu.fpca) = cpu.psp - frameSize cpu.fpca :=
    sub32_eq (by omega) hlt
  have hplace : framePtr stkalign cpu + frameSize cpu.fpca + 4 * alignBit stkalign cpu = cpu.psp := by
    rw [framePtr, alignBit, hsub]
    split <;> omega
  have hpair : (cpu.fpca || stkalign) = true → framePtr stkalign cpu % 8 = 0 := by
    intro h
    rw [framePtr, if_pos h]
    omega
  have hsp : (pushFrame stkalign cpu stack).2.1.psp = framePtr stkalign cpu := rfl
  have hexc : fpFrame (pushFrame stkalign cpu stack).1 = cpu.fpca := fpFrame_entry cpu.fpca
  refine ⟨hexc, hplace, by rw [hsp]; omega, hpair, ?_, fun hfp => ?_, fun a ha => ?_⟩
  · rw [hsp]
    simp only [pushFrame]
    split
    · rw [load_store_apart (by omega), load_store]
    · exact load_store
  · rw [hsp]
    simp only [pushFrame, if_pos hfp]
    exact load_store
  · rw [hsp] at ha
    simp only [pushFrame]
    split
    · rename_i hfp
      rw [hfp] at hplace
      simp only [frameSize, if_true] at hplace
      rw [store_outside (by omega), store_outside (by omega)]
    · exact store_outside (by omega)

lemma Entered.framed {frame : ℕ} (h : Entered stkalign cpu stack excReturn frame stack')
    (hhigh : cpu'.high = cpu.high) (hpsp : cpu'.psp = frame) (hpriv : cpu'.nPriv = cpu.nPriv)
    (hfp : cpu'.fpHigh = cpu.fpHigh) :
    framed stkalign top excReturn cpu' stack' = view top cpu stack := by
  have hbit := alignBit_lt stkalign cpu
  have hpsr : stack' (frame + 28) = psrBits (cpu.low 7) + 512 * alignBit stkalign cpu := by
    have hword := congrFun h.words 7
    rw [update_self] at hword
    exact hword
  obtain ⟨hbits, halign⟩ := psrBits_align (cpu.low 7) hbit
  have hlow : update (load stack' frame 8) 7 (psrBits (stack' (frame + 28))) =
      update cpu.low 7 (psrBits (cpu.low 7)) := by
    rw [hpsr, hbits, h.words, update_idem]
  have hsp : frame + frameSize cpu.fpca ||| (if cpu.fpca || stkalign then
      stack' (frame + 28) / 512 % 2 else 0) * 4 = cpu.psp := by
    have hplace := h.place
    split
    · rename_i hforce
      have hsize : frameSize cpu.fpca % 8 = 0 := by cases cpu.fpca <;> rfl
      have hpair := h.pair hforce
      rw [hpsr, halign, or_align _ hbit]
      split <;> omega
    · rename_i hforce
      rw [alignBit, if_neg hforce] at hplace
      simpa using hplace
  simp only [Cortex.framed, view, popFrame, h.excReturn, hpsp, hsp, hlow, hhigh, hpriv, hfp,
    update_self, update_idem, psrBits_idem]
  congr 1
  · cases hfp : cpu.fpca
    · rfl
    · simp [h.floats hfp]
  · exact stackAbove_congr fun a ha _ => h.outside a (Or.inr ha)

lemma push_framed (hpsp : cpu.psp % 4 = 0) (hroom : frameSize cpu.fpca + 4 ≤ cpu.psp)
    (hlt : cpu.psp < 4294967296) : Cortex.framed stkalign top (pushFrame stkalign cpu stack).1
      (pushFrame stkalign cpu stack).2.1 (pushFrame stkalign cpu stack).2.2 = view top cpu stack := by
  have hentered : Entered stkalign cpu stack _ _ _ := push_entered hpsp hroom hlt
  exact hentered.framed rfl rfl rfl rfl

end Entry

section Switch

def saveSize (fp : Bool) : ℕ := if fp then 104 else 40

/-- PendSV has put the registers a handler keeps below the frame. -/
structure Stored (excReturn : ℕ) (cpu : Cpu) (stack : ℕ → ℕ) (sp : ℕ) (stack' : ℕ → ℕ) : Prop where
  place : sp + saveSize (fpFrame excReturn) = cpu.psp
  link : stack' sp = excReturn
  control : stack' (sp + 4) = if cpu.nPriv then 1 else 0
  high : load stack' (sp + 8) 8 = cpu.high
  floats : fpFrame excReturn = true → load stack' (sp + 40) 16 = cpu.fpHigh
  outside : ∀ a, a < sp ∨ cpu.psp ≤ a → stack' a = stack a

lemma save_stored (hroom : saveSize (fpFrame excReturn) ≤ cpu.psp) (hlt : cpu.psp < 4294967296) :
    Stored excReturn cpu stack (saveContext excReturn cpu stack).1
      (saveContext excReturn cpu stack).2 := by
  have hwords : ∀ (m : ℕ → ℕ) (base : ℕ), load (store (store m base
      ![excReturn, if cpu.nPriv then 1 else 0]) (base + 8) cpu.high) base 2 =
        ![excReturn, if cpu.nPriv then 1 else 0] := by
    intro m base
    rw [load_store_apart (by omega), load_store]
  cases hfp : fpFrame excReturn with
  | false =>
    rw [hfp] at hroom
    have hsub : sub32 cpu.psp 40 = cpu.psp - 40 := sub32_eq hroom hlt
    have hroom : 40 ≤ cpu.psp := hroom
    have hw := hwords stack (cpu.psp - 40)
    simp only [saveContext, hfp, Bool.false_eq_true, if_false, hsub]
    refine ⟨by rw [hfp]; exact Nat.sub_add_cancel hroom, congrFun hw 0, congrFun hw 1, load_store,
      fun h => ?_, fun a ha => ?_⟩
    · rw [hfp] at h
      cases h
    · rw [store_outside (by omega), store_outside (by omega)]
  | true =>
    rw [hfp] at hroom
    have hroom : 104 ≤ cpu.psp := hroom
    have hsub : sub32 cpu.psp 64 = cpu.psp - 64 := sub32_eq (by omega) hlt
    have hsub' : sub32 (cpu.psp - 64) 40 = cpu.psp - 64 - 40 := sub32_eq (by omega) (by omega)
    have hw := hwords (store stack (cpu.psp - 64) cpu.fpHigh) (cpu.psp - 64 - 40)
    simp only [saveContext, hfp, if_true, hsub, hsub']
    refine ⟨by rw [hfp]; simp only [saveSize, if_true]; omega, congrFun hw 0, congrFun hw 1,
      load_store, fun _ => ?_, fun a ha => ?_⟩
    · rw [load_store_apart (by omega), load_store_apart (by omega),
        show cpu.psp - 64 - 40 + 40 = cpu.psp - 64 by omega, load_store]
    · rw [store_outside (by omega), store_outside (by omega), store_outside (by omega)]

end Switch

section Locality

lemma framed_congr (hhigh : cpu'.high = cpu.high) (hpsp : cpu'.psp = cpu.psp)
    (hpriv : cpu'.nPriv = cpu.nPriv) (hfp : fpFrame excReturn = true → cpu'.fpHigh = cpu.fpHigh)
    (hstack : ∀ a, cpu.psp ≤ a → a < top → stack' a = stack a)
    (htop : cpu.psp + frameSize (fpFrame excReturn) ≤ top) :
    framed stkalign top excReturn cpu' stack' = framed stkalign top excReturn cpu stack := by
  have hsize : 32 ≤ frameSize (fpFrame excReturn) := by cases fpFrame excReturn <;> decide
  have hlow : load stack' cpu.psp 8 = load stack cpu.psp 8 := load_congr hstack le_rfl (by omega)
  have hpsr : stack' (cpu.psp + 28) = stack (cpu.psp + 28) := hstack _ (by omega) (by omega)
  simp only [framed, view, popFrame, hhigh, hpsp, hpriv, hlow, hpsr]
  congr 1
  · split
    · rename_i h
      rw [h, frameSize, if_pos rfl] at htop
      have hfloats : load stack' (cpu.psp + 32) 17 = load stack (cpu.psp + 32) 17 :=
        load_congr hstack (by omega) (by omega)
      rw [hfp h, hfloats]
    · rfl
  · refine stackAbove_congr fun a ha hlt => hstack a ?_ hlt
    have hle : cpu.psp + frameSize (fpFrame excReturn) ≤ _ := Nat.left_le_or.trans ha
    omega

lemma framed_bounds (h : (framed stkalign top excReturn cpu stack).Roomy bottom top) :
    bottom + saveSize (fpFrame excReturn) ≤ cpu.psp ∧
      cpu.psp + frameSize (fpFrame excReturn) ≤ top ∧ cpu.psp % 4 = 0 := by
  obtain ⟨hlow, htop, halign⟩ := h
  simp only [framed, view, popFrame] at hlow htop halign
  have hbit : (if fpFrame excReturn || stkalign then stack (cpu.psp + 28) / 512 % 2 else 0) < 2 := by
    split <;> omega
  have hle := or_align_bounds (cpu.psp + frameSize (fpFrame excReturn)) hbit
  generalize (cpu.psp + frameSize (fpFrame excReturn) ||| _ : ℕ) = sp at hle hlow htop halign
  cases hfp : fpFrame excReturn <;>
    simp only [hfp, frameSize, saveSize, room, if_true, Bool.false_eq_true, if_false,
      Option.isSome_none, Option.isSome_some] at hlow htop halign hle ⊢ <;>
    omega

lemma Stored.saved (h : Stored excReturn cpu stack sp stack')
    (htop : cpu.psp + frameSize (fpFrame excReturn) ≤ top) :
    saved stkalign top sp cpu' stack' = framed stkalign top excReturn cpu stack := by
  have hplace := h.place
  simp only [Cortex.saved, loadContext, h.link]
  refine framed_congr h.high ?_ ?_ (fun hfp => ?_) (fun a ha _ => h.outside a (Or.inr ha)) htop
  · cases hfp : fpFrame excReturn <;> rw [hfp] at hplace <;> exact hplace
  · rw [h.control]
    cases cpu.nPriv <;> rfl
  · simp only [hfp, if_true]
    exact h.floats hfp

lemma loadContext_psp (sp : ℕ) (cpu : Cpu) (stack : ℕ → ℕ) :
    (loadContext sp cpu stack).2.psp = sp + saveSize (fpFrame (stack sp)) := by
  simp only [loadContext, saveSize]
  split <;> rfl

lemma saved_congr (hstack : ∀ a, sp ≤ a → a < top → stack' a = stack a)
    (htop : sp + saveSize (fpFrame (stack sp)) + frameSize (fpFrame (stack sp)) ≤ top) :
    saved stkalign top sp cpu' stack' = saved stkalign top sp cpu stack := by
  have hsave : 40 ≤ saveSize (fpFrame (stack sp)) := by cases fpFrame (stack sp) <;> decide
  have hframe : 32 ≤ frameSize (fpFrame (stack sp)) := by cases fpFrame (stack sp) <;> decide
  have hlink : stack' sp = stack sp := hstack sp le_rfl (by omega)
  have hhigh : load stack' (sp + 8) 8 = load stack (sp + 8) 8 :=
    load_congr hstack (by omega) (by omega)
  have hpsp := loadContext_psp sp cpu stack
  have hsame : (loadContext sp cpu' stack').1 = (loadContext sp cpu stack).1 := hlink
  rw [saved, saved, hsame]
  refine framed_congr hhigh ?_ ?_ (fun hfp => ?_) (fun a ha => hstack a (by omega)) ?_
  · rw [hpsp, loadContext_psp, hlink]
  · simp only [loadContext]
    rw [hstack (sp + 4) (by omega) (by omega)]
  · have hfp : fpFrame (stack sp) = true := hfp
    rw [hfp, saveSize, if_pos rfl, frameSize, if_pos rfl] at htop
    simp only [loadContext, hlink, hfp, if_true]
    exact load_congr hstack (by omega) (by omega)
  · rw [hpsp]
    exact htop

lemma saved_bounds (h : (saved stkalign top sp cpu stack).Roomy bottom top) : bottom ≤ sp ∧
    sp + saveSize (fpFrame (stack sp)) + frameSize (fpFrame (stack sp)) ≤ top ∧ sp % 4 = 0 := by
  obtain ⟨hlow, htop, halign⟩ := framed_bounds h
  have hlink : (loadContext sp cpu stack).1 = stack sp := rfl
  rw [loadContext_psp, hlink] at hlow htop
  rw [loadContext_psp] at halign
  have hsize : saveSize (fpFrame (stack sp)) % 4 = 0 := by cases fpFrame (stack sp) <;> rfl
  omega

end Locality

end Skibios.Switching.Cortex
