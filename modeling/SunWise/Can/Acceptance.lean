import SunWise.Can.Driver

/-!
# Acceptance of frames

The acceptance filter as `drv_can.h` lays it out: a bit of the code registers is compared
with a bit of the frame, unless the bit of the mask registers says to ignore it.  A frame is
accepted when one of the filters has no bit that differs.  The masks that `HW_CAN_InitConfig`
programs ignore all bits but those of the identifier.
-/

namespace SunWise.Can

open Library

/-- A frame on the bus, with the bytes that it carries. -/
structure CanFrame (format : CanFormat) where
  id : BitVec (idWidth format)
  rtr : Bool
  data : List (BitVec 8)
  deriving DecidableEq, Repr

/-- The bits of a frame that a filter compares, by register and position; `none` where
nothing is compared. -/
abbrev Layout := Fin 4 → Nat → Option Bool

/-- A bit of a data byte. A byte that the frame does not carry is not compared. -/
def dataBit {format : CanFormat} (frame : CanFrame format) (index bit : Nat) : Option Bool :=
  (frame.data[index]?).map fun byte => byte.getLsbD bit

/-- What a register compares that begins with the last three bits of a standard identifier
and `RTR`. -/
def idEnd (frame : CanFrame .standard) (below : Nat → Option Bool) (bit : Nat) : Option Bool :=
  if 5 ≤ bit then some (frame.id.getLsbD (bit - 5))
  else if bit = 4 then some frame.rtr
  else below bit

/-- Standard frames, single filter. -/
def standardSingle (frame : CanFrame .standard) : Layout
  | 0, bit => some (frame.id.getLsbD (bit + 3))
  | 1, bit => idEnd frame (fun _ => none) bit
  | 2, bit => dataBit frame 0 bit
  | 3, bit => dataBit frame 1 bit

/-- The halves of registers that the first of two filters keeps for the data. -/
inductive DataNibble where
  | acr1
  | acr3
  deriving DecidableEq, Repr

section Dual

-- The bits of the data that the low halves of `ACR1` and `ACR3` are compared with: the
-- layout gives four bits of a register for them, and not which four bits of the data.
variable (nibble : List (BitVec 8) → DataNibble → Nat → Option Bool)

/-- Standard frames, first of two filters. -/
def standardFirst (frame : CanFrame .standard) : Layout
  | 0, bit => some (frame.id.getLsbD (bit + 3))
  | 1, bit => idEnd frame (nibble frame.data .acr1) bit
  | 2, _ => none
  | 3, bit => if bit < 4 then nibble frame.data .acr3 bit else none

/-- Standard frames, second of two filters. -/
def standardSecond (frame : CanFrame .standard) : Layout
  | 0, _ => none
  | 1, _ => none
  | 2, bit => some (frame.id.getLsbD (bit + 3))
  | 3, bit => idEnd frame (fun _ => none) bit

/-- Extended frames, single filter. -/
def extendSingle (frame : CanFrame .extend) : Layout
  | 0, bit => some (frame.id.getLsbD (bit + 21))
  | 1, bit => some (frame.id.getLsbD (bit + 13))
  | 2, bit => some (frame.id.getLsbD (bit + 5))
  | 3, bit =>
      if 3 ≤ bit then some (frame.id.getLsbD (bit - 3))
      else if bit = 2 then some frame.rtr
      else none

/-- Extended frames, first of two filters. -/
def extendFirst (frame : CanFrame .extend) : Layout
  | 0, bit => some (frame.id.getLsbD (bit + 21))
  | 1, bit => some (frame.id.getLsbD (bit + 13))
  | 2, _ => none
  | 3, _ => none

/-- Extended frames, second of two filters. -/
def extendSecond (frame : CanFrame .extend) : Layout
  | 0, _ => none
  | 1, _ => none
  | 2, bit => some (frame.id.getLsbD (bit + 21))
  | 3, bit => some (frame.id.getLsbD (bit + 13))

/-- The filters that a frame is put to. -/
def layouts : (format : CanFormat) → CanFilter → CanFrame format → List Layout
  | .standard, .single, frame => [standardSingle frame]
  | .standard, .dual, frame => [standardFirst nibble frame, standardSecond frame]
  | .extend, .single, frame => [extendSingle frame]
  | .extend, .dual, frame => [extendFirst frame, extendSecond frame]

/-- A bit of the frame passes. -/
def passes (code mask : Bool) : Option Bool → Bool
  | none => true
  | some received => mask || code == received

/-- No bit of a filter differs. -/
def Matches (acr amr : Fin 4 → BitVec 32) (layout : Layout) : Prop :=
  ∀ register, ∀ bit < 8,
    passes ((acr register).getLsbD bit) ((amr register).getLsbD bit) (layout register bit) = true

/-- The filter mode of a controller. -/
def filterMode (can : CanTypeDef) : CanFilter :=
  if can.mod.getLsbD canModAfmPos then .single else .dual

/-- A controller accepts a frame. -/
def Accepts (can : CanTypeDef) {format : CanFormat} (frame : CanFrame format) : Prop :=
  ∃ layout ∈ layouts nibble format (filterMode can) frame, Matches can.acr can.amr layout

end Dual

/-- Two layouts differ only in bits that the masks ignore. -/
def AgreesUpTo (ignored : Fin 4 → BitVec 32) (left right : Layout) : Prop :=
  ∀ register, ∀ bit < 8,
    left register bit = right register bit ∨ (ignored register).getLsbD bit = true

theorem passes_ignored (code : Bool) (received : Option Bool) :
    passes code true received = true := by
  cases received with
  | none => rfl
  | some received => rfl

theorem AgreesUpTo.matches {ignored acr amr : Fin 4 → BitVec 32} {left right : Layout}
    (agree : AgreesUpTo ignored left right)
    (masked : ∀ register bit, (ignored register).getLsbD bit = true →
      (amr register).getLsbD bit = true)
    (accepted : Matches acr amr left) : Matches acr amr right := by
  intro register bit inside
  rcases agree register bit inside with same | isIgnored
  · rw [← same]
    exact accepted register bit inside
  · rw [masked register bit isIgnored]
    exact passes_ignored _ _

/-- The bits that are left out of the comparison, where they end up in the registers. -/
def ignoredRegisters (format : CanFormat) (filter : CanFilter) : Fin 4 → BitVec 32 :=
  filterBytes filter fun _ => ignoredBits format filter

section Layouts

variable {left right : CanFrame .standard}

theorem idEnd_agrees (same : left.id = right.id) (below below' : Nat → Option Bool) (bit : Nat) :
    idEnd left below bit = idEnd right below' bit ∨ bit < 5 := by
  by_cases inId : 5 ≤ bit
  · left
    rw [idEnd, if_pos inId, idEnd, if_pos inId, same]
  · exact .inr (Nat.lt_of_not_le inId)

theorem standardSingle_agrees (same : left.id = right.id) :
    AgreesUpTo (ignoredRegisters .standard .single) (standardSingle left)
      (standardSingle right) := by
  intro register bit inside
  match register with
  | 0 => exact .inl (by rw [standardSingle, standardSingle, same])
  | 1 =>
      refine (idEnd_agrees same (fun _ => none) (fun _ => none) bit).imp id ?_
      revert bit
      decide
  | 2 | 3 =>
      right
      revert bit
      decide

theorem standardFirst_agrees (nibble : List (BitVec 8) → DataNibble → Nat → Option Bool)
    (same : left.id = right.id) :
    AgreesUpTo (ignoredRegisters .standard .dual) (standardFirst nibble left)
      (standardFirst nibble right) := by
  intro register bit inside
  match register with
  | 0 => exact .inl (by rw [standardFirst, standardFirst, same])
  | 1 =>
      refine (idEnd_agrees same (nibble left.data .acr1) (nibble right.data .acr1) bit).imp id ?_
      revert bit
      decide
  | 2 => exact .inl rfl
  | 3 =>
      by_cases low : bit < 4
      · right
        revert bit
        decide
      · left
        rw [standardFirst, if_neg low, standardFirst, if_neg low]

theorem standardSecond_agrees (same : left.id = right.id) :
    AgreesUpTo (ignoredRegisters .standard .dual) (standardSecond left)
      (standardSecond right) := by
  intro register bit inside
  match register with
  | 0 | 1 => exact .inl rfl
  | 2 => exact .inl (by rw [standardSecond, standardSecond, same])
  | 3 =>
      refine (idEnd_agrees same (fun _ => none) (fun _ => none) bit).imp id ?_
      revert bit
      decide

end Layouts

theorem extendSingle_agrees {left right : CanFrame .extend} (same : left.id = right.id) :
    AgreesUpTo (ignoredRegisters .extend .single) (extendSingle left) (extendSingle right) := by
  intro register bit inside
  match register with
  | 0 | 1 | 2 => exact .inl (by rw [extendSingle, extendSingle, same])
  | 3 =>
      by_cases inId : 3 ≤ bit
      · left
        rw [extendSingle, if_pos inId, extendSingle, if_pos inId, same]
      · right
        revert bit
        decide

theorem extendFirst_agrees {left right : CanFrame .extend} (same : left.id = right.id) :
    AgreesUpTo (ignoredRegisters .extend .dual) (extendFirst left) (extendFirst right) := by
  intro register bit _
  match register with
  | 0 | 1 => exact .inl (by rw [extendFirst, extendFirst, same])
  | 2 | 3 => exact .inl rfl

theorem extendSecond_agrees {left right : CanFrame .extend} (same : left.id = right.id) :
    AgreesUpTo (ignoredRegisters .extend .dual) (extendSecond left) (extendSecond right) := by
  intro register bit _
  match register with
  | 0 | 1 => exact .inl rfl
  | 2 | 3 => exact .inl (by rw [extendSecond, extendSecond, same])

/-- The ignored bits cover all of a frame but its identifier. -/
theorem layouts_agree (nibble : List (BitVec 8) → DataNibble → Nat → Option Bool)
    (format : CanFormat) (filter : CanFilter) {left right : CanFrame format}
    (same : left.id = right.id) :
    List.Forall₂ (AgreesUpTo (ignoredRegisters format filter))
      (layouts nibble format filter left) (layouts nibble format filter right) := by
  match format, filter with
  | .standard, .single => exact .cons (standardSingle_agrees same) .nil
  | .standard, .dual =>
      exact .cons (standardFirst_agrees nibble same) (.cons (standardSecond_agrees same) .nil)
  | .extend, .single => exact .cons (extendSingle_agrees same) .nil
  | .extend, .dual =>
      exact .cons (extendFirst_agrees same) (.cons (extendSecond_agrees same) .nil)

/-- A frame is accepted with every frame that differs from it in ignored bits only. -/
theorem accepted_of_agree {ignored acr amr : Fin 4 → BitVec 32} {left right : List Layout}
    (agree : List.Forall₂ (AgreesUpTo ignored) left right)
    (masked : ∀ register bit, (ignored register).getLsbD bit = true →
      (amr register).getLsbD bit = true)
    (accepted : ∃ layout ∈ left, Matches acr amr layout) :
    ∃ layout ∈ right, Matches acr amr layout := by
  rcases accepted with ⟨layout, isIn, accepts⟩
  induction agree with
  | nil => exact absurd isIn List.not_mem_nil
  | cons first rest ih =>
      rcases List.mem_cons.mp isIn with rfl | later
      · exact ⟨_, List.mem_cons_self, first.matches masked accepts⟩
      · rcases ih later with ⟨layout, isIn, accepts⟩
        exact ⟨layout, List.mem_cons_of_mem _ isIn, accepts⟩

section Init

variable (apbFreq : BitVec 32) (can : CanTypeDef) (config : DeviceCanConfig)

theorem filterMode_hwCanInitConfig :
    filterMode (hwCanInitConfig apbFreq can (some config)).2.1 = config.filter := by
  have programmed : (hwCanInitConfig apbFreq can (some config)).2.1.mod =
      setBit ((if config.mode = .selfTest then bit canModStmPos else 0) |||
        (if config.filter = .single then bit canModAfmPos else 0) ||| bit canModRmPos)
        canModRmPos false := rfl
  rw [filterMode, programmed]
  cases config.mode <;> cases config.filter <;> decide

theorem amr_hwCanInitConfig (register : Fin 4) (bit : Nat)
    (isIgnored : (ignoredRegisters config.format config.filter register).getLsbD bit = true) :
    ((hwCanInitConfig apbFreq can (some config)).2.1.amr register).getLsbD bit = true := by
  have programmed : (hwCanInitConfig apbFreq can (some config)).2.1.amr =
      filterBytes config.filter fun index =>
        config.mask index ||| ignoredBits config.format config.filter := rfl
  rw [ignoredRegisters] at isIgnored
  rw [programmed, filterBytes_or, BitVec.getLsbD_or, isIgnored, Bool.or_true]

/-- After an initialisation, frames of the configured format with one identifier are
accepted or rejected together. -/
theorem hwCanInitConfig_accepts_iff (nibble : List (BitVec 8) → DataNibble → Nat → Option Bool)
    {left right : CanFrame config.format} (same : left.id = right.id) :
    Accepts nibble (hwCanInitConfig apbFreq can (some config)).2.1 left ↔
      Accepts nibble (hwCanInitConfig apbFreq can (some config)).2.1 right := by
  have masked := amr_hwCanInitConfig apbFreq can config
  rw [Accepts, Accepts, filterMode_hwCanInitConfig]
  constructor
  · exact accepted_of_agree (layouts_agree nibble config.format config.filter same) masked
  · exact accepted_of_agree (layouts_agree nibble config.format config.filter same.symm) masked

end Init

/-- The two halves of the first data byte. -/
def byteHalves (data : List (BitVec 8)) (half : DataNibble) (bit : Nat) : Option Bool :=
  (data[0]?).map fun byte =>
    match half with
    | .acr1 => byte.getLsbD (4 + bit)
    | .acr3 => byte.getLsbD bit

/-- The default configuration with two filters. -/
def dualConfig : DeviceCanConfig := { gDeviceCanDefaultConfig with filter := .dual }

/-- A data frame and a remote frame. -/
theorem hwCanInitConfig_accepts_iff_remote :
    Accepts byteHalves (hwCanInitConfig 50000000 default dualConfig).2.1
        (⟨0x155, false, [0x12, 0x34]⟩ : CanFrame .standard) ↔
      Accepts byteHalves (hwCanInitConfig 50000000 default dualConfig).2.1
        (⟨0x155, true, []⟩ : CanFrame .standard) :=
  @hwCanInitConfig_accepts_iff 50000000 default dualConfig byteHalves
    ⟨0x155, false, [0x12, 0x34]⟩ ⟨0x155, true, []⟩ rfl

end SunWise.Can
