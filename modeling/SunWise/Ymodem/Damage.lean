import SunWise.Library.CrcErrors
import SunWise.Ymodem.Acceptance

/-!
# Damaged packets

What `YmodemCrc16` detects, `YmodemRecvPacket` refuses: a packet that is accepted as it was
sent is not accepted when its data arrive with a burst of errors, or with an odd number of
them, and the rest of the packet as it was.
-/

namespace SunWise.Ymodem

open Library Crc

/-- The bits of data, in the order in which the check takes them. -/
def dataBits (data : List UInt8) : List Bool :=
  data.flatMap bitsFromMsb

/-- `YmodemCrc16` is different for data that are different in a burst, or in an odd number of
bits. -/
theorem ymodemCrc16_ne_of_errors {sent received : List UInt8}
    (errors : Burst 16 (dataBits sent) (dataBits received) ∨
      OddErrors (dataBits sent) (dataBits received)) :
    ymodemCrc16 sent ≠ ymodemCrc16 received := by
  have differ : serial 0x1021#16 0 (dataBits sent) ≠ serial 0x1021#16 0 (dataBits received) := by
    rcases errors with burst | odd
    · exact serial_ne_of_burst (by decide) 0 burst
    · exact serial_ne_of_oddErrors (by decide) 0 odd
  intro same
  apply differ
  have values := congrArg UInt16.toBitVec same
  rwa [ymodemCrc16_toBitVec, ymodemCrc16_toBitVec, msbFirst_eq_serial _ (by decide),
    msbFirst_eq_serial _ (by decide)] at values

namespace RawPacket

/-- The data of a packet have been changed on the line, and nothing else has. -/
structure Damaged (sent received : RawPacket) : Prop where
  kind : received.kind = sent.kind
  index : received.index = sent.index
  complement : received.complement = sent.complement
  first : received.first = sent.first
  second : received.second = sent.second
  errors : Burst 16 (dataBits sent.payload) (dataBits received.payload) ∨
    OddErrors (dataBits sent.payload) (dataBits received.payload)

/-- A call of `YmodemRecvPacket` consumes the packet and ends in this state. -/
def EndsIn (packet : RawPacket) (ctx : YmodemCtx) (rest : List UInt8) (state : RymState) : Prop :=
  ∃ next, ymodemRecvPacket ctx (packet.bytes ++ rest) = .finished next rest ∧
    next.eRymState = state

/-- A call accepts the packets with a head that it does not refuse and the check value that it
reads, and no others. -/
theorem endsIn_done_iff (packet : RawPacket) (ctx : YmodemCtx) (rest : List UInt8) :
    packet.EndsIn ctx rest .eRymDone ↔
      packet.index &&& packet.complement = 0 ∧ packet.Read := by
  constructor
  · rintro ⟨next, call, isDone⟩
    by_cases disjoint : packet.index &&& packet.complement = 0
    · rw [packet.ymodemRecvPacket_received ctx rest disjoint] at call
      cases call
      exact ⟨disjoint, (packet.received_done_iff ctx).mp isDone⟩
    · rw [packet.ymodemRecvPacket_refused ctx rest disjoint, Received.finished.injEq] at call
      rw [← call.1] at isDone
      cases isDone
  · rintro ⟨disjoint, read⟩
    exact ⟨_, packet.ymodemRecvPacket_received ctx rest disjoint,
      (packet.received_done_iff ctx).mpr read⟩

/-- Damaged data do not have the check value that the data as sent had. -/
theorem Damaged.not_read {sent received : RawPacket} (damaged : Damaged sent received)
    (read : sent.Read) : ¬ received.Read := by
  intro readToo
  have same : received.crc.toNat = sent.crc.toNat := by
    rw [readToo, read, damaged.first, damaged.second]
  apply ymodemCrc16_ne_of_errors damaged.errors
  rw [← UInt16.toBitVec_inj, ymodemCrc16_toBitVec, ymodemCrc16_toBitVec]
  exact (BitVec.eq_of_toNat_eq same).symm

/-- A packet that would have been accepted is refused when its data are damaged. -/
theorem endsIn_fail_of_damaged {sent received : RawPacket} (damaged : Damaged sent received)
    {ctx : YmodemCtx} {rest : List UInt8} (accepted : sent.EndsIn ctx rest .eRymDone)
    (other : YmodemCtx) (later : List UInt8) : received.EndsIn other later .eRymFail := by
  rcases (sent.endsIn_done_iff ctx rest).mp accepted with ⟨disjoint, read⟩
  have disjointToo : received.index &&& received.complement = 0 := by
    rw [damaged.index, damaged.complement]
    exact disjoint
  refine ⟨_, received.ymodemRecvPacket_received other later disjointToo, ?_⟩
  have notDone := mt (received.received_done_iff other).mp (damaged.not_read read)
  simp only [Frame.load] at notDone ⊢
  split
  next => rfl
  next accepts => exact absurd (if_neg accepts) notDone

/-- A packet of zeros. -/
def blank : RawPacket :=
  { blankComplement with complement := 254 }

/-- A packet of zeros of which one bit has been set. -/
def blankButOne : RawPacket :=
  { blank with
    payload := 1 :: List.replicate 127 0
    complete := rfl }

theorem endsIn_fail_of_damaged_blank :
    blankButOne.EndsIn YmodemCtx.init [] .eRymFail := by
  have damaged : Damaged blank blankButOne :=
    ⟨rfl, rfl, rfl, rfl, rfl, Or.inl ⟨List.replicate 7 false, [false], [true],
      List.replicate 1016 false, by decide +kernel, by decide +kernel, rfl, by decide,
      by decide⟩⟩
  have zeros := ymodemCrc16_toBitVec (List.replicate rymPacketSize 0)
  rw [ymodemCrc16_zeros] at zeros
  have read : blank.Read := by
    have isZero : blank.crc = 0 := zeros.symm
    rw [Read, isZero]
    rfl
  exact endsIn_fail_of_damaged damaged
    ((blank.endsIn_done_iff YmodemCtx.init []).mpr ⟨by decide, read⟩) YmodemCtx.init []

end RawPacket

end SunWise.Ymodem
