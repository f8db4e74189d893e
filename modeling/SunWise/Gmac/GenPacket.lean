import SunWise.Gmac.CrcTable
import SunWise.Library.Memory

/-!
# Generating an Ethernet frame

`HW_GMAC_GenPacket` next to the frame it is meant to leave in the packet buffer.  The
source moves the pointer `pkt` behind the payload before it hands it to `CRC_Calc`, so that
the check value is taken from whatever the buffer held there.
-/

namespace SunWise.Gmac

open Library Crc

/-- A MAC address, `value` of `GmacMAC_t`. -/
abbrev GmacMac := Vector UInt8 6

/-- The two bytes that `HW_GMAC_GenPacket` writes behind the addresses. -/
def typeField (type : UInt16) (len : UInt32) : List UInt8 :=
  if type > 1536 then [((type >>> 8) &&& 0xff).toUInt8, (type &&& 0xff).toUInt8]
  else [((len >>> 8) &&& 0xff).toUInt8, (len &&& 0xff).toUInt8]

/-- The four bytes that `HW_GMAC_GenPacket` writes behind the payload. -/
def crcField (crc : UInt32) : List UInt8 :=
  [(crc &&& 0xff).toUInt8, ((crc >>> 8) &&& 0xff).toUInt8, ((crc >>> 16) &&& 0xff).toUInt8,
    ((crc >>> 24) &&& 0xff).toUInt8]

/-- What a call of `HW_GMAC_GenPacket` returns and leaves: the memory `pbuf` points to, and
the static variables of `CRC_Calc`. -/
structure GenPacket where
  length : Nat
  pbuf : Nat → UInt8
  statics : CrcStatics

/-- `HW_GMAC_GenPacket`. -/
def hwGmacGenPacket (statics : CrcStatics) (pbuf : Nat → UInt8)
    (targetMac sourceMac : GmacMac) (type : UInt16) (pdata : List UInt8) : GenPacket :=
  let pbuf := store pbuf 0 targetMac.toList
  let pbuf := store pbuf 6 sourceMac.toList
  let pbuf := store pbuf 12 (typeField type (UInt32.ofNat pdata.length))
  let pbuf := store pbuf 14 pdata
  let pkt := 14 + pdata.length
  -- `CRC_Calc(pkt, (pkt - pbuf))`: the bytes from `pkt` on, not those up to it
  let (crc, statics) := crcCalc statics (load pbuf pkt pkt)
  { length := pkt + 4, pbuf := store pbuf pkt (crcField crc), statics }

/-- The CRC-32 register of IEEE 802.3 over a byte string, not complemented. -/
def frameRegister (bytes : List UInt8) : BitVec 32 :=
  reflectedSerial 0x04C11DB7#32 (.allOnes 32) (bytes.flatMap bitsFromLsb)

/-- The frame check sequence of a byte string. -/
def frameCheckSequence (bytes : List UInt8) : List UInt8 :=
  littleEndian (.ofBitVec (~~~frameRegister bytes))

/-- The type of a frame from `0x0600` on, below it the length of the payload. -/
def typeOrLength (type : UInt16) (payload : List UInt8) : List UInt8 :=
  let value := if 0x0600 ≤ type then type else UInt16.ofNat payload.length
  [(value >>> 8).toUInt8, value.toUInt8]

/-- The bytes of a frame before its check sequence. -/
def frameBody (target source : GmacMac) (type : UInt16) (payload : List UInt8) :
    List UInt8 :=
  target.toList ++ source.toList ++ typeOrLength type payload ++ payload

/-- The packet is the frame with its check sequence. -/
structure GenPacket.Frames (packet : GenPacket) (target source : GmacMac) (type : UInt16)
    (payload : List UInt8) : Prop where
  length : packet.length = payload.length + 18
  bytes : load packet.pbuf 0 packet.length =
    frameBody target source type payload ++
      frameCheckSequence (frameBody target source type payload)

@[simp] theorem typeField_length (type : UInt16) (len : UInt32) :
    (typeField type len).length = 2 := by
  unfold typeField
  split <;> rfl

@[simp] theorem frameBody_length (target source : GmacMac) (type : UInt16)
    (payload : List UInt8) : (frameBody target source type payload).length =
      14 + payload.length := by
  simp [frameBody, typeOrLength]
  omega

theorem toUInt8_and_mask (word : UInt32) : (word &&& 0xff).toUInt8 = word.toUInt8 := by
  rw [← UInt8.toNat_inj, UInt32.toNat_toUInt8, UInt32.toNat_toUInt8, UInt32.toNat_and]
  change (word.toNat &&& 2 ^ 8 - 1) % 2 ^ 8 = _
  rw [Nat.and_two_pow_sub_one_eq_mod, Nat.mod_mod]

theorem toUInt8_and_mask' (word : UInt16) : (word &&& 0xff).toUInt8 = word.toUInt8 := by
  rw [← UInt8.toNat_inj, UInt16.toNat_toUInt8, UInt16.toNat_toUInt8, UInt16.toNat_and]
  change (word.toNat &&& 2 ^ 8 - 1) % 2 ^ 8 = _
  rw [Nat.and_two_pow_sub_one_eq_mod, Nat.mod_mod]

theorem crcField_eq (crc : UInt32) : crcField crc = littleEndian crc := by
  simp only [crcField, toUInt8_and_mask]
  rfl

theorem lengthField_toNat {len : Nat} (short : len ≤ 1500) :
    ((UInt32.ofNat len >>> 8) &&& 0xff).toUInt8.toNat = len / 256 ∧
      (UInt32.ofNat len &&& 0xff).toUInt8.toNat = len % 256 := by
  have value : (UInt32.ofNat len).toNat = len := UInt32.toNat_ofNat_of_lt' (by
    rw [UInt32.size]
    omega)
  rw [toUInt8_and_mask, toUInt8_and_mask, UInt32.toNat_toUInt8, UInt32.toNat_toUInt8,
    UInt32.toNat_shiftRight, value]
  change (len >>> 8) % 256 = len / 256 ∧ _
  rw [Nat.shiftRight_eq_div_pow]
  omega

/-- The limit of the code excludes the first type. -/
theorem typeField_eq_iff (type : UInt16) {payload : List UInt8}
    (short : payload.length ≤ 1500) :
    typeField type (UInt32.ofNat payload.length) = typeOrLength type payload ↔
      type ≠ 0x0600 := by
  have ⟨high, low⟩ := lengthField_toNat short
  have codeIff : type > 1536 ↔ 1536 < type.toNat := UInt16.lt_iff_toNat_lt
  have typeIff : 0x0600 ≤ type ↔ 1536 ≤ type.toNat := UInt16.le_iff_toNat_le
  have sameIff : type = 0x0600 ↔ type.toNat = 1536 := UInt16.toNat_inj.symm
  rw [ne_eq, sameIff, typeField, typeOrLength]
  simp only [codeIff, typeIff]
  rcases Nat.lt_trichotomy type.toNat 1536 with below | same | above
  · rw [if_neg (by omega), if_neg (by omega)]
    refine iff_of_true ?_ (by omega)
    simp only [List.cons.injEq, and_true, ← UInt8.toNat_inj, high, low]
    simp
    omega
  · rw [if_neg (by omega), if_pos (by omega)]
    refine iff_of_false ?_ (by omega)
    rw [sameIff.mpr same]
    intro equal
    have first := congrArg UInt8.toNat (List.cons.inj equal).1
    rw [high] at first
    have six : ((0x0600 : UInt16) >>> 8).toUInt8.toNat = 6 := by decide
    omega
  · rw [if_pos above, if_pos (by omega)]
    refine iff_of_true ?_ (by omega)
    rw [toUInt8_and_mask', toUInt8_and_mask']

section Generation

variable (statics : CrcStatics) (pbuf : Nat → UInt8) (target source : GmacMac)
  (type : UInt16) (pdata : List UInt8)

/-- The bytes a call leaves: the check value is that of the bytes that were behind the
payload before. -/
theorem load_hwGmacGenPacket :
    load (hwGmacGenPacket statics pbuf target source type pdata).pbuf 0
        (14 + pdata.length + 4) =
      target.toList ++ source.toList ++ typeField type (UInt32.ofNat pdata.length) ++
        pdata ++
          littleEndian (crcCalc statics
            (load pbuf (14 + pdata.length) (14 + pdata.length))).1 := by
  generalize isWritten : target.toList ++ source.toList ++
    typeField type (UInt32.ofNat pdata.length) ++ pdata = written
  have length : written.length = 14 + pdata.length := by
    rw [← isWritten]
    simp
    omega
  have stores : store (store (store (store pbuf 0 target.toList) 6 source.toList) 12
      (typeField type (UInt32.ofNat pdata.length))) 14 pdata = store pbuf 0 written := by
    rw [← isWritten, store_append, store_append, store_append]
    simp
  have stale : load (store pbuf 0 written) (14 + pdata.length) (14 + pdata.length) =
      load pbuf (14 + pdata.length) (14 + pdata.length) :=
    load_store_disjoint pbuf (Or.inr (by omega))
  have extended := load_store_extend (store pbuf 0 written) (load_store_self pbuf written)
    (littleEndian (crcCalc statics
      (load pbuf (14 + pdata.length) (14 + pdata.length))).1)
  rw [length, littleEndian_length, Nat.zero_add] at extended
  simp only [hwGmacGenPacket, stores, stale, crcField_eq]
  exact extended

theorem hwGmacGenPacket_length :
    (hwGmacGenPacket statics pbuf target source type pdata).length = pdata.length + 18 := by
  simp only [hwGmacGenPacket]
  omega

/-- The packet is the frame exactly when the type is not the first one and the bytes behind
the payload happened to have the right register. -/
theorem frames_iff {statics : CrcStatics} (built : statics.Built)
    (short : pdata.length ≤ 1500) :
    (hwGmacGenPacket statics pbuf target source type pdata).Frames target source type
        pdata ↔
      type ≠ 0x0600 ∧
        frameRegister (load pbuf (14 + pdata.length) (14 + pdata.length)) =
          ~~~frameRegister (frameBody target source type pdata) := by
  have left := load_hwGmacGenPacket statics pbuf target source type pdata
  have length := hwGmacGenPacket_length statics pbuf target source type pdata
  have total : pdata.length + 18 = 14 + pdata.length + 4 := by omega
  have register := crcCalc_toBitVec built
    (load pbuf (14 + pdata.length) (14 + pdata.length))
  constructor
  · intro frames
    have bytes := frames.bytes
    rw [length, total, left, frameBody, frameCheckSequence] at bytes
    have ⟨body, check⟩ := List.append_inj' bytes rfl
    have ⟨head, _⟩ := List.append_inj' body rfl
    have ⟨_, field⟩ := List.append_inj' head (by simp [typeOrLength])
    refine ⟨(typeField_eq_iff type short).mp field, ?_⟩
    rw [frameRegister, ← register, littleEndian_injective check]
    rfl
  · rintro ⟨notFirst, same⟩
    refine ⟨length, ?_⟩
    have check : (crcCalc statics (load pbuf (14 + pdata.length) (14 + pdata.length))).1 =
        .ofBitVec (~~~frameRegister (frameBody target source type pdata)) := by
      rw [← UInt32.toBitVec_inj, register]
      exact same
    rw [length, total, left, (typeField_eq_iff type short).mpr notFirst, check]
    rfl

theorem frameRegister_last_ne (bytes : List UInt8) :
    frameRegister (bytes ++ [0]) ≠ frameRegister (bytes ++ [1]) := by
  intro same
  simp only [frameRegister, List.flatMap_append, reflectedSerial_append] at same
  generalize reflectedSerial 0x04C11DB7#32 (.allOnes 32) (bytes.flatMap bitsFromLsb) =
    register at same
  have difference := reflectedSerial_xor 0x04C11DB7#32 register register
    (by rfl : ([0].flatMap bitsFromLsb).length = ([1].flatMap bitsFromLsb).length)
  rw [same, BitVec.xor_self, BitVec.xor_self] at difference
  revert difference
  decide +kernel

/-- Whatever is to be sent, some contents of the buffer spoil it. -/
theorem exists_not_frames {statics : CrcStatics} (built : statics.Built)
    (short : pdata.length ≤ 1500) :
    ∃ pbuf, ¬(hwGmacGenPacket statics pbuf target source type pdata).Frames target source
      type pdata := by
  by_contra always
  simp only [not_exists, not_not, frames_iff _ _ _ _ _ built short] at always
  have register (last : UInt8) :
      frameRegister (List.replicate (13 + pdata.length) 0 ++ [last]) =
        ~~~frameRegister (frameBody target source type pdata) := by
    have length : (List.replicate (13 + pdata.length) 0 ++ [last]).length =
        14 + pdata.length := by
      simp
      omega
    have behind := @load_store_self UInt8 (fun _ => 0) (14 + pdata.length)
      (List.replicate (13 + pdata.length) 0 ++ [last])
    rw [length] at behind
    rw [← behind]
    exact (always (store (fun _ => 0) (14 + pdata.length)
      (List.replicate (13 + pdata.length) 0 ++ [last]))).2
  exact frameRegister_last_ne (List.replicate (13 + pdata.length) 0)
    ((register 0).trans (register 1).symm)

/-- When a call leaves the frame, after any earlier uses of `CRC_Calc`; and for no frame
does it do so over every contents of the buffer. -/
theorem hwGmacGenPacket_frames_iff (earlier : List (List UInt8))
    (short : pdata.length ≤ 1500) :
    (∀ pbuf,
      (hwGmacGenPacket (.after earlier) pbuf target source type pdata).Frames target source
          type pdata ↔
        type ≠ 0x0600 ∧
          frameRegister (load pbuf (14 + pdata.length) (14 + pdata.length)) =
            ~~~frameRegister (frameBody target source type pdata)) ∧
      ¬∀ pbuf, (hwGmacGenPacket (.after earlier) pbuf target source type pdata).Frames
        target source type pdata :=
  ⟨fun pbuf => frames_iff pbuf target source type pdata (CrcStatics.after_built earlier)
      short,
    not_forall.mpr
      (exists_not_frames target source type pdata (CrcStatics.after_built earlier) short)⟩

end Generation

/-- The rule at the first bytes of an ARP packet: a buffer with the right bytes behind the
payload, and not every buffer. -/
theorem hwGmacGenPacket_frames_iff_arp :
    (hwGmacGenPacket (.after []) (store (fun _ => 0) 32 [0xe2, 0x7e, 0xe7, 0x7e])
      (.replicate 6 0xff) (.replicate 6 2) 0x0806 [0, 1, 8, 0]).Frames (.replicate 6 0xff)
        (.replicate 6 2) 0x0806 [0, 1, 8, 0] ∧
      ¬∀ pbuf, (hwGmacGenPacket (.after []) pbuf (.replicate 6 0xff) (.replicate 6 2) 0x0806
        [0, 1, 8, 0]).Frames (.replicate 6 0xff) (.replicate 6 2) 0x0806 [0, 1, 8, 0] := by
  have rule := hwGmacGenPacket_frames_iff (.replicate 6 0xff) (.replicate 6 2) 0x0806
    [0, 1, 8, 0] [] (by decide)
  exact ⟨(rule.1 _).mpr ⟨by decide, by decide +kernel⟩, rule.2⟩

/-- Into a cleared buffer a packet without payload is written with the check value of zeros. -/
theorem hwGmacGenPacket_not_frames :
    ¬(hwGmacGenPacket .init (fun _ => 0) (.replicate 6 0xff) (.replicate 6 2) 0x0806
      []).Frames (.replicate 6 0xff) (.replicate 6 2) 0x0806 [] := by
  have rule := frames_iff (fun _ => 0) (.replicate 6 0xff) (.replicate 6 2) 0x0806 []
    (CrcStatics.after_built []) (Nat.zero_le 1500)
  intro frames
  have same := (rule.mp frames).2
  revert same
  decide +kernel

end SunWise.Gmac
