import SunWise.Srio.Transmit

/-!
# Descriptors of a transfer

A transfer is described to its engine by a control word and two addresses, which
`_BuildEntry` writes to registers and `_set_DMA_desc_node` to memory.  Only the second one
masks the number of words, and neither refuses a length that has more of them than the field
can hold.
-/

namespace SunWise.Srio

open Library

/-- The words that describe a transfer. -/
structure SrioDescriptor where
  control : BitVec 32
  source : BitVec 32
  dest : BitVec 32
  deriving DecidableEq, Repr

/-- What a write before the start says about the transfer. -/
def Setup.descriptor? (mode : SrioMode) (engine : SrioEngine) : Setup → Option SrioDescriptor
  | .entry srcAddr dstAddr len index =>
      let entry := buildEntry mode engine srcAddr dstAddr len index
      some ⟨entry.dmaiadcr, entry.dmaiadsar, entry.dmaiaddar⟩
  | .descriptor desc => some ⟨desc.descCtrlW0, desc.sourceAddrW1, desc.destAddrW2⟩
  | _ => none

/-- The descriptor that a call programs. A call that refuses its arguments has none. -/
def SrioCall.descriptor? (call : SrioCall) : Option SrioDescriptor :=
  call.setup.findSome? (Setup.descriptor? call.mode call.engine)

/-- The field with the number of words. -/
def SrioDescriptor.words (descriptor : SrioDescriptor) : BitVec 18 :=
  descriptor.control.extractLsb' 5 18

/-- The descriptor says what was asked for, and nothing else. -/
structure Describes (descriptor : SrioDescriptor) (srcAddr dstAddr len : BitVec 32) : Prop where
  length : 4 * descriptor.words.toNat = len.toNat
  source : 4 * descriptor.source.toNat = srcAddr.toNat
  dest : 4 * descriptor.dest.toNat = dstAddr.toNat
  valid : descriptor.control.getLsbD 0 = true
  nextValid : descriptor.control.getLsbD 1 = true
  outside : ∀ position, descriptor.control.getLsbD position = true →
    position = 0 ∨ position = 1 ∨ (5 ≤ position ∧ position < 5 + 18)

/-- The length fits into the field. -/
def Encodable (len : BitVec 32) : Prop :=
  len.toNat / 4 < 2 ^ 18

/-- Both paths program the same descriptor, and it is right; a length that cannot be encoded
is refused. -/
structure PathsAgree (mode : SrioMode) (engine : SrioEngine)
    (srcAddr dstAddr len destId : BitVec 32) : Prop where
  same : (srioTransmit mode engine srcAddr dstAddr len destId).descriptor? =
    (srioTransmit2 mode engine srcAddr dstAddr len destId).descriptor?
  describes : ∀ descriptor ∈ (srioTransmit mode engine srcAddr dstAddr len destId).descriptor?,
    Describes descriptor srcAddr dstAddr len
  refuses : ¬ Encodable len →
    (srioTransmit mode engine srcAddr dstAddr len destId).descriptor? = none

section Words

variable (srcAddr dstAddr len : BitVec 32)

/-- What `_BuildEntry` writes. -/
def entryDescriptor : SrioDescriptor :=
  ⟨(1 : BitVec 32) ||| (2 : BitVec 32) ||| ((len >>> 2) <<< 5), srcAddr >>> 2, dstAddr >>> 2⟩

/-- What `_set_DMA_desc_node` writes. -/
def nodeDescriptor : SrioDescriptor :=
  ⟨(1 : BitVec 32) ||| ((1 : BitVec 32) <<< 1) |||
    (((len >>> 2) &&& (0x3ffff : BitVec 32)) <<< 5), srcAddr >>> 2, dstAddr >>> 2⟩

theorem srioTransmit_descriptor (mode : SrioMode) (engine : SrioEngine) (destId : BitVec 32) :
    (srioTransmit mode engine srcAddr dstAddr len destId).descriptor? =
      some (entryDescriptor srcAddr dstAddr len) := rfl

theorem srioTransmit2_descriptor (mode : SrioMode) (engine : SrioEngine)
    (destId : BitVec 32) :
    (srioTransmit2 mode engine srcAddr dstAddr len destId).descriptor? =
      some (nodeDescriptor srcAddr dstAddr len) := rfl

/-- The mask leaves a length alone that can be encoded. -/
theorem masked_eq {len : BitVec 32} (encodable : Encodable len) :
    (len >>> 2) &&& (0x3ffff : BitVec 32) = len >>> 2 := by
  apply BitVec.eq_of_toNat_eq
  have mask : (0x3ffff : BitVec 32).toNat = 2 ^ 18 - 1 := rfl
  rw [BitVec.toNat_and, mask, Nat.and_two_pow_sub_one_eq_mod, BitVec.toNat_ushiftRight,
    Nat.shiftRight_eq_div_pow]
  exact Nat.mod_eq_of_lt encodable

/-- The paths write the same for a length that can be encoded. -/
theorem nodeDescriptor_eq {len : BitVec 32} (encodable : Encodable len) :
    nodeDescriptor srcAddr dstAddr len = entryDescriptor srcAddr dstAddr len := by
  rw [nodeDescriptor, masked_eq encodable, entryDescriptor]
  rfl

/-- The bits of the control word. -/
theorem entryDescriptor_getLsbD (position : Nat) :
    (entryDescriptor srcAddr dstAddr len).control.getLsbD position =
      (decide (position = 0) || decide (position = 1) ||
        (decide (5 ≤ position ∧ position < 32) && len.getLsbD (position - 3))) := by
  have one : (1 : BitVec 32).getLsbD position = decide (position = 0) := by
    simp [BitVec.getLsbD_one]
  have two : (2 : BitVec 32).getLsbD position = decide (position = 1) := by
    have isPower : (2 : BitVec 32) = BitVec.twoPow 32 1 := rfl
    rw [isPower, BitVec.getLsbD_twoPow]
    simp [eq_comm]
  simp only [entryDescriptor, BitVec.getLsbD_or, one, two, BitVec.getLsbD_shiftLeft,
    BitVec.getLsbD_ushiftRight]
  by_cases field : 5 ≤ position
  · have shifted : 2 + (position - 5) = position - 3 := by omega
    simp [field, shifted, Nat.not_lt.mpr field]
  · simp [field, Nat.lt_of_not_le field]

theorem four_mul_ushiftRight {addr : BitVec 32} (aligned : addr.toNat % 4 = 0) :
    4 * (addr >>> 2).toNat = addr.toNat := by
  rw [BitVec.toNat_ushiftRight, Nat.shiftRight_eq_div_pow]
  omega

theorem entryDescriptor_words :
    (entryDescriptor srcAddr dstAddr len).words = (len >>> 2).setWidth 18 := by
  apply BitVec.eq_of_getLsbD_eq
  intro index inside
  have place : 5 + index - 3 = 2 + index := by omega
  have isField : 5 + index < 32 := by omega
  rw [SrioDescriptor.words, BitVec.getLsbD_extractLsb', entryDescriptor_getLsbD, place,
    BitVec.getLsbD_setWidth, BitVec.getLsbD_ushiftRight]
  have notSecond : 5 + index ≠ 1 := by omega
  simp [inside, isField, notSecond]

/-- The length that an engine is told, whichever path is taken, is right exactly if the number
of words fits. -/
theorem entryDescriptor_length_iff {len : BitVec 32} (aligned : len.toNat % 4 = 0) :
    4 * (entryDescriptor srcAddr dstAddr len).words.toNat = len.toNat ↔ Encodable len := by
  have whole := four_mul_ushiftRight aligned
  rw [entryDescriptor_words, BitVec.toNat_setWidth, Encodable]
  omega

theorem entryDescriptor_describes {srcAddr dstAddr len : BitVec 32}
    (srcAligned : srcAddr.toNat % 4 = 0) (dstAligned : dstAddr.toNat % 4 = 0)
    (aligned : len.toNat % 4 = 0) (encodable : Encodable len) :
    Describes (entryDescriptor srcAddr dstAddr len) srcAddr dstAddr len where
  length := (entryDescriptor_length_iff srcAddr dstAddr aligned).mpr encodable
  source := four_mul_ushiftRight srcAligned
  dest := four_mul_ushiftRight dstAligned
  valid := by rw [entryDescriptor_getLsbD]; rfl
  nextValid := by rw [entryDescriptor_getLsbD]; rfl
  outside := by
    intro position isSet
    have range : len.toNat < 2 ^ 20 := by
      rw [Encodable] at encodable
      omega
    rw [entryDescriptor_getLsbD] at isSet
    by_contra beyond
    rw [not_or, not_or] at beyond
    rcases beyond with ⟨notFirst, notSecond, beyond⟩
    have ofLength : 5 ≤ position ∧ len.getLsbD (position - 3) = true := by
      simp only [decide_eq_false notFirst, decide_eq_false notSecond, Bool.false_or,
        Bool.and_eq_true, decide_eq_true_eq] at isSet
      exact ⟨isSet.1.1, isSet.2⟩
    have high : 20 ≤ position - 3 := by omega
    have small := Nat.lt_of_lt_of_le range (Nat.pow_le_pow_right Nat.two_pos high)
    have clear : len.getLsbD (position - 3) = false := Nat.testBit_lt_two_pow small
    rw [clear] at ofLength
    exact absurd ofLength.2 Bool.false_ne_true

end Words

/-- For aligned arguments the paths agree, and are right, exactly for the lengths that can be
encoded, which are those below 1 MB: they refuse none. -/
theorem srioTransmit_pathsAgree_iff (mode : SrioMode) (engine : SrioEngine)
    {srcAddr dstAddr len : BitVec 32} (srcAligned : srcAddr.toNat % 4 = 0)
    (dstAligned : dstAddr.toNat % 4 = 0) (aligned : len.toNat % 4 = 0)
    (destId : BitVec 32) :
    PathsAgree mode engine srcAddr dstAddr len destId ↔ len.toNat < 2 ^ 20 := by
  constructor
  · intro agree
    have describes := agree.describes _ (srioTransmit_descriptor srcAddr dstAddr len mode engine
      destId)
    have encodable := (entryDescriptor_length_iff srcAddr dstAddr aligned).mp describes.length
    rw [Encodable] at encodable
    omega
  · intro short
    have encodable : Encodable len := by
      rw [Encodable]
      omega
    refine ⟨?_, ?_, fun refused => absurd encodable refused⟩
    · rw [srioTransmit_descriptor, srioTransmit2_descriptor, nodeDescriptor_eq _ _ encodable]
    · intro descriptor isProgrammed
      rw [srioTransmit_descriptor] at isProgrammed
      cases isProgrammed
      exact entryDescriptor_describes srcAligned dstAligned aligned encodable

theorem srioTransmit_pathsAgree_sixteen :
    PathsAgree .eSrioModeRdma 3 0x30000000 0x30001000 64 0x5a5a :=
  (srioTransmit_pathsAgree_iff .eSrioModeRdma 3 (by decide) (by decide) (by decide) 0x5a5a).mpr
    (by decide)

/-- One megabyte: the register path sets a bit above the field, the memory path says that
there are no words. -/
theorem srioTransmit_not_pathsAgree :
    ¬ PathsAgree .eSrioModeWdma 0 0x30000000 0x38000000 0x100000 0x5a5a := by
  intro agree
  exact absurd agree.same (by decide)

end SunWise.Srio
