import SunWise.Ymodem.Transfer

/-!
# Which packets are accepted

`YmodemRecvPacket` tests the complement of the sequence number only for common bits, and
assembles the check value from the trailer with a shift by one.  A packet is therefore
judged as its sender meant it only when these two readings happen not to matter.
-/

namespace SunWise.Ymodem

open Library Crc

/-- The table of the generator polynomial, in the closed form of the code. -/
theorem crcTable_eq (index : Fin 256) :
    (msbStep 0x1021#16)^[8] (BitVec.ofNat 16 index <<< 8) =
      let dummy := BitVec.ofNat 16 index ^^^ (BitVec.ofNat 16 index >>> 4)
      (dummy <<< 12) ^^^ (dummy <<< 5) ^^^ dummy := by
  revert index
  decide +kernel

/-- A turn of the loop of `YmodemCrc16` is a byte step of the shift register. -/
theorem ymodemCrc16Step_toBitVec (crc : UInt16) (byte : UInt8) :
    (ymodemCrc16Step crc byte).toBitVec = msbByte 0x1021#16 crc.toBitVec byte := by
  have small : ((crc.toBitVec >>> 8) ^^^ byte.toBitVec.setWidth 16).toNat < 256 := by
    rw [BitVec.toNat_xor]
    apply Nat.xor_lt_two_pow (n := 8)
    · have bound := crc.toNat_lt
      simp [Nat.shiftRight_eq_div_pow]
      omega
    · have bound := byte.toNat_lt
      simp
      omega
  have table := crcTable_eq ⟨_, small⟩
  simp only [BitVec.ofNat_toNat, BitVec.setWidth_eq] at table
  rw [msbByte_eq 0x1021#16 (by decide), table]
  simp [ymodemCrc16Step, BitVec.xor_assoc]

/-- `YmodemCrc16` computes the CRC-16 of the protocol. -/
theorem ymodemCrc16_toBitVec (data : List UInt8) :
    (ymodemCrc16 data).toBitVec = msbFirst 0x1021#16 0 data :=
  (List.foldl_hom UInt16.toBitVec fun crc byte =>
    (ymodemCrc16Step_toBitVec crc byte).symm).symm

/-- The folded form of `YmodemCrc16` is the division bit by bit. -/
theorem ymodemCrc16_eq_serial (data : List UInt8) :
    (ymodemCrc16 data).toBitVec = serial 0x1021#16 0 (data.flatMap bitsFromMsb) := by
  rw [ymodemCrc16_toBitVec, msbFirst_eq_serial 0x1021#16 (by decide)]

/-! ## Packets as they arrive -/

/-- The bytes of a packet as the line delivers them, right or wrong. -/
structure RawPacket where
  kind : PacketKind
  index : UInt8
  complement : UInt8
  payload : List UInt8
  first : UInt8
  second : UInt8
  complete : payload.length = kind.size

namespace RawPacket

variable (packet : RawPacket)

/-- All bytes of the packet. -/
def bytes : List UInt8 :=
  packet.kind.code :: packet.index :: packet.complement ::
    (packet.payload ++ [packet.first, packet.second])

/-- The check value that the data should have. -/
def crc : BitVec 16 := msbFirst 0x1021#16 0 packet.payload

/-- The complement is the right one. -/
def Complemented : Prop := packet.complement = 255 - packet.index

instance : Decidable packet.Complemented :=
  inferInstanceAs (Decidable (packet.complement = 255 - packet.index))

/-- The trailer is the check value, most significant byte first. -/
def Checked : Prop :=
  packet.first = UInt8.ofNat (packet.crc.toNat / 256) ∧
    packet.second = UInt8.ofNat (packet.crc.toNat % 256)

/-- The trailers whose two readings agree. -/
def Neutral : Prop :=
  packet.first = 0 ∧ packet.second = 0 ∨ packet.first = 1 ∧ packet.second = 255

/-- The packet is judged as it was meant: its head is refused, or its trailer reads the
same either way and a right check value comes with a right complement, or the check
value is neither the one that the code reads nor the one that was sent. -/
def Unambiguous : Prop :=
  packet.index &&& packet.complement ≠ 0 ∨
    packet.Neutral ∧ (packet.Checked → packet.Complemented) ∨
    ¬packet.Neutral ∧ packet.crc ≠ (recvCrc packet.first packet.second).toBitVec ∧
      ¬(packet.Complemented ∧ packet.Checked)

end RawPacket

/-- The line starts with an encoded packet. -/
def Encodes (line : List UInt8) (kind : PacketKind) (index : UInt8)
    (payload rest : List UInt8) : Prop :=
  payload.length = kind.size ∧ line = (sealedPacket kind index payload).bytes ++ rest

/-- A call of `YmodemRecvPacket` accepts exactly the encoded packets, and exposes what
they carry. -/
structure Faithful (line : List UInt8) (next : YmodemCtx) (left : List UInt8) : Prop where
  done_iff : next.eRymState = .eRymDone ↔
    ∃ kind index payload rest, Encodes line kind index payload rest
  exposes : ∀ kind index payload rest, Encodes line kind index payload rest →
    next.ui8Code = kind.code ∧ next.ui8Index = index ∧
      next.ui16PacketLength = kind.size ∧ next.payload = payload ∧ left = rest
  fails : next.eRymState ≠ .eRymDone → next.eRymState = .eRymFail

theorem RawPacket.checked_iff (packet : RawPacket) :
    packet.Checked ↔
      packet.crc.toNat = packet.first.toNat * 256 + packet.second.toNat := by
  have bound := packet.crc.isLt
  have firstBound := packet.first.toNat_lt
  have secondBound := packet.second.toNat_lt
  simp only [RawPacket.Checked, ← UInt8.toNat_inj, UInt8.toNat_ofNat']
  omega

theorem recvCrc_toNat (first second : UInt8) :
    (recvCrc first second).toNat = first.toNat ||| second.toNat * 2 := by
  have bound := second.toNat_lt
  have small : second.toNat * 2 % 65536 = second.toNat * 2 := by omega
  simp [recvCrc, Nat.shiftLeft_eq, small]

/-- The two readings of a trailer agree on `00 00` and `01 FF` only. -/
theorem RawPacket.neutral_iff (packet : RawPacket) :
    packet.Neutral ↔ (recvCrc packet.first packet.second).toNat =
      packet.first.toNat * 256 + packet.second.toNat := by
  have narrow : packet.first.toNat ||| packet.second.toNat * 2 < 2 ^ 9 := by
    have firstBound := packet.first.toNat_lt
    have secondBound := packet.second.toNat_lt
    apply Nat.or_lt_two_pow
    · omega
    · omega
  simp only [RawPacket.Neutral, ← UInt8.toNat_inj, recvCrc_toNat]
  constructor
  · rintro (⟨first, second⟩ | ⟨first, second⟩)
    · rw [first, second]
      rfl
    · rw [first, second]
      rfl
  · intro agree
    have firstBit : packet.first.toNat = 0 ∨ packet.first.toNat = 1 := by omega
    rcases firstBit with first | first
    · simp only [first, Nat.zero_or] at agree
      left
      exact ⟨first, by simp; omega⟩
    · have odd : 1 ||| packet.second.toNat * 2 = packet.second.toNat * 2 + 1 := by
        rw [Nat.or_comm]
        exact Nat.mul_comm 2 _ ▸ Nat.two_pow_add_eq_or_of_lt (i := 1) (by decide) _ |>.symm
      rw [first, odd] at agree
      right
      exact ⟨first, by simp; omega⟩

namespace RawPacket

variable (packet : RawPacket) (ctx : YmodemCtx)

theorem encodes_iff (rest : List UInt8) {kind : PacketKind} {index : UInt8}
    {payload later : List UInt8} :
    Encodes (packet.bytes ++ rest) kind index payload later ↔
      (kind = packet.kind ∧ index = packet.index ∧ payload = packet.payload ∧
        later = rest) ∧ packet.Complemented ∧ packet.Checked := by
  constructor
  · rintro ⟨complete, same⟩
    simp only [bytes, sealedPacket, Frame.bytes, List.cons_append, List.cons.injEq,
      List.append_assoc, List.nil_append] at same
    rcases same with ⟨sameCode, sameIndex, sameComplement, sameBody⟩
    have sameKind : kind = packet.kind := by
      have announced := congrArg PacketKind.ofCode? sameCode
      simpa using announced.symm
    subst kind
    have samePayload := List.append_inj sameBody (packet.complete.trans complete.symm)
    rcases samePayload with ⟨rfl, sameTail⟩
    simp only [List.cons.injEq] at sameTail
    rcases sameTail with ⟨sameFirst, sameSecond, sameRest⟩
    refine ⟨⟨rfl, sameIndex.symm, rfl, sameRest.symm⟩, ?_, sameFirst, sameSecond⟩
    rw [Complemented, sameComplement, sameIndex]
  · rintro ⟨⟨rfl, rfl, rfl, rfl⟩, complemented, first, second⟩
    refine ⟨packet.complete, ?_⟩
    rw [bytes, complemented, first, second]
    rfl

/-- A head that the code refuses is not that of an encoded packet. -/
theorem not_complemented_of_shared (shared : packet.index &&& packet.complement ≠ 0) :
    ¬packet.Complemented := by
  intro complemented
  rw [complemented] at shared
  exact shared (complement_disjoint packet.index)

theorem ymodemRecvPacket_refused (rest : List UInt8)
    (shared : packet.index &&& packet.complement ≠ 0) :
    ymodemRecvPacket ctx (packet.bytes ++ rest) =
      .finished ((Frame.broken packet.kind packet.index packet.complement).load ctx)
        (packet.payload ++ [packet.first, packet.second] ++ rest) := by
  have wf : (Frame.broken packet.kind packet.index packet.complement).WellFormed := shared
  exact ymodemRecvPacket_eq_load ctx (Frame.split_bytes_append wf _)

theorem ymodemRecvPacket_received (rest : List UInt8)
    (disjoint : packet.index &&& packet.complement = 0) :
    ymodemRecvPacket ctx (packet.bytes ++ rest) =
      .finished ((Frame.packet packet.kind packet.index packet.complement packet.payload
        packet.first packet.second).load ctx) rest :=
  ymodemRecvPacket_packet ctx packet.kind packet.first packet.second rest disjoint
    packet.complete

/-- The check value is the one that the code reads. -/
def Read : Prop := packet.crc.toNat = (recvCrc packet.first packet.second).toNat

theorem received_done_iff :
    ((Frame.packet packet.kind packet.index packet.complement packet.payload
      packet.first packet.second).load ctx).eRymState = .eRymDone ↔ packet.Read := by
  rw [Read, crc, ← ymodemCrc16_toBitVec]
  simp [Frame.load, ← UInt16.toNat_inj]

/-- Two readings of one check value make the trailer neutral. -/
theorem neutral_of_read (read : packet.Read) (checked : packet.Checked) :
    packet.Neutral :=
  packet.neutral_iff.mpr (read.symm.trans (packet.checked_iff.mp checked))

/-- On a neutral trailer the two readings are the same. -/
theorem read_iff_checked (neutral : packet.Neutral) : packet.Read ↔ packet.Checked := by
  rw [Read, checked_iff, packet.neutral_iff.mp neutral]

/-- The verdict on a received packet is the right one exactly when the packet is not
ambiguous. -/
theorem read_iff_unambiguous (disjoint : packet.index &&& packet.complement = 0) :
    (packet.Read ↔ packet.Complemented ∧ packet.Checked) ↔ packet.Unambiguous := by
  have unread : packet.crc ≠ (recvCrc packet.first packet.second).toBitVec ↔
      ¬packet.Read := by
    rw [Read, ne_eq, ← BitVec.toNat_inj]
    rfl
  have both := packet.neutral_of_read
  have same := packet.read_iff_checked
  rw [Unambiguous, unread]
  by_cases neutral : packet.Neutral <;> by_cases read : packet.Read <;>
    by_cases checked : packet.Checked <;> simp_all

theorem faithful_of_refused (rest : List UInt8)
    (shared : packet.index &&& packet.complement ≠ 0) :
    Faithful (packet.bytes ++ rest)
      ((Frame.broken packet.kind packet.index packet.complement).load ctx)
      (packet.payload ++ [packet.first, packet.second] ++ rest) := by
  have notEncoded : ∀ kind index payload later,
      ¬Encodes (packet.bytes ++ rest) kind index payload later := by
    intro kind index payload later encodes
    exact packet.not_complemented_of_shared shared
      ((packet.encodes_iff rest).mp encodes).2.1
  constructor
  · constructor
    · intro isDone
      cases isDone
    · rintro ⟨kind, index, payload, later, encodes⟩
      exact absurd encodes (notEncoded kind index payload later)
  · intro kind index payload later encodes
    exact absurd encodes (notEncoded kind index payload later)
  · intro _
    rfl

/-- A received packet is judged as it was meant exactly when the verdict is the right
one. -/
theorem received_faithful_iff (rest : List UInt8) :
    Faithful (packet.bytes ++ rest)
        ((Frame.packet packet.kind packet.index packet.complement packet.payload
          packet.first packet.second).load ctx) rest ↔
      (packet.Read ↔ packet.Complemented ∧ packet.Checked) := by
  have encoded : (∃ kind index payload later,
      Encodes (packet.bytes ++ rest) kind index payload later) ↔
        packet.Complemented ∧ packet.Checked := by
    simp only [encodes_iff]
    constructor
    · rintro ⟨kind, index, payload, later, -, sealed⟩
      exact sealed
    · intro sealed
      exact ⟨_, _, _, _, ⟨rfl, rfl, rfl, rfl⟩, sealed⟩
  rw [← encoded, ← packet.received_done_iff ctx]
  constructor
  · exact Faithful.done_iff
  · intro isDone
    refine ⟨isDone, ?_, ?_⟩
    · intro kind index payload later encodes
      rcases ((packet.encodes_iff rest).mp encodes).1 with ⟨rfl, rfl, rfl, rfl⟩
      exact ⟨rfl, rfl, rfl, payload_load ctx packet.complete, rfl⟩
    · simp only [Frame.load]
      split
      · exact fun _ => rfl
      · intro notDone
        exact absurd rfl notDone

/-- One call judges a packet as it was meant exactly when the packet is not
ambiguous. -/
theorem recvPacket_faithful_iff (rest : List UInt8) :
    (∃ next left, ymodemRecvPacket ctx (packet.bytes ++ rest) = .finished next left ∧
      Faithful (packet.bytes ++ rest) next left) ↔ packet.Unambiguous := by
  by_cases disjoint : packet.index &&& packet.complement = 0
  · rw [← packet.read_iff_unambiguous disjoint,
      packet.ymodemRecvPacket_received ctx rest disjoint,
      ← packet.received_faithful_iff ctx rest]
    constructor
    · rintro ⟨next, left, isNext, faithful⟩
      cases isNext
      exact faithful
    · intro faithful
      exact ⟨_, _, rfl, faithful⟩
  · constructor
    · intro _
      exact Or.inl disjoint
    · intro _
      exact ⟨_, _, packet.ymodemRecvPacket_refused ctx rest disjoint,
        packet.faithful_of_refused ctx rest disjoint⟩

/-- A packet of zeros whose complement has lost all of its bits. -/
def blankComplement : RawPacket where
  kind := .soh
  index := 1
  complement := 0
  payload := List.replicate rymPacketSize 0
  first := 0
  second := 0
  complete := List.length_replicate

/-- The packet with a blank complement is accepted. -/
theorem recvPacket_not_faithful :
    ¬∃ next left, ymodemRecvPacket YmodemCtx.init (blankComplement.bytes ++ []) =
      .finished next left ∧ Faithful (blankComplement.bytes ++ []) next left := by
  rintro ⟨next, left, isNext, faithful⟩
  rw [blankComplement.ymodemRecvPacket_received YmodemCtx.init [] rfl] at isNext
  cases isNext
  have zero : blankComplement.crc = 0 := by
    have zeros := ymodemCrc16_toBitVec (List.replicate rymPacketSize 0)
    rw [ymodemCrc16_zeros] at zeros
    exact zeros.symm
  have read : blankComplement.Read := by
    rw [Read, zero]
    rfl
  have complemented :=
    (((blankComplement.received_faithful_iff YmodemCtx.init []).mp faithful).mp read).1
  exact absurd complemented (by decide)

end RawPacket

end SunWise.Ymodem
