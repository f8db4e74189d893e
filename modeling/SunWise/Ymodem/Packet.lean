import Mathlib.Algebra.Ring.Nat
import Mathlib.Data.List.Basic
import Mathlib.Data.Vector.Basic

/-!
# YMODEM packet receiver

The receive context of `ymodem.c` and the byte-driven receiver `YmodemRecvPacket`.
The line is a list of the bytes that are still to arrive.  A call that has read the
whole list is blocked in `HW_UART_Read`; every other call returns together with the
bytes it left on the line.
-/

namespace SunWise.Ymodem

@[simp] def rymPacketHeader : Nat := 3
@[simp] def rymPacketTrailer : Nat := 2
@[simp] def rymPacketOverhead : Nat := rymPacketHeader + rymPacketTrailer
@[simp] def rymPacketSize : Nat := 128
@[simp] def rymPacket1kSize : Nat := 1024

@[simp] def rymCodeSoh : UInt8 := 0x01
@[simp] def rymCodeStx : UInt8 := 0x02
@[simp] def rymCodeEot : UInt8 := 0x04
@[simp] def rymCodeAck : UInt8 := 0x06
@[simp] def rymCodeCan : UInt8 := 0x18
@[simp] def rymCodeCrc : UInt8 := 0x43

/-- Size of `aui8Data`. -/
def rymBufferSize : Nat := rymPacket1kSize + rymPacketOverhead

theorem rymBufferSize_eq : rymBufferSize = 1029 := rfl

/-- The receive states `eRymState`. -/
inductive RymState where
  | eRymInit
  | eRymRecv
  | eRymDone
  | eRymFail
  deriving DecidableEq, Repr

/-- `YMODEM_CTX_T`. The positions are 16-bit counters in the source that never pass
the end of `aui8Data`. -/
structure YmodemCtx where
  ui8Code : UInt8
  ui8Index : UInt8
  aui8Data : Vector UInt8 rymBufferSize
  ui16PacketLength : Nat
  eRymState : RymState
  ui16WrPosition : Nat
  ui16RdPosition : Nat
  deriving DecidableEq, Repr

/-- `mRymCtx` as it is when the program starts. -/
def YmodemCtx.init : YmodemCtx where
  ui8Code := 0
  ui8Index := 0
  aui8Data := Vector.replicate rymBufferSize 0
  ui16PacketLength := 0
  eRymState := .eRymInit
  ui16WrPosition := 0
  ui16RdPosition := 0

/-- One turn of the loop of `YmodemCrc16`, in 16-bit arithmetic. -/
def ymodemCrc16Step (ui16Crc : UInt16) (byte : UInt8) : UInt16 :=
  let ui16Dummy := (ui16Crc >>> 8) ^^^ byte.toUInt16
  let ui16Dummy := ui16Dummy ^^^ (ui16Dummy >>> 4)
  (ui16Crc <<< 8) ^^^ (ui16Dummy <<< 12) ^^^ (ui16Dummy <<< 5) ^^^ ui16Dummy

/-- `YmodemCrc16` over the bytes it is pointed at. -/
def ymodemCrc16 (data : List UInt8) : UInt16 :=
  data.foldl ymodemCrc16Step 0

theorem ymodemCrc16_zeros (count : Nat) : ymodemCrc16 (List.replicate count 0) = 0 := by
  unfold ymodemCrc16
  induction count with
  | zero => rfl
  | succ count ih =>
      rw [List.replicate_succ, List.foldl_cons,
        show ymodemCrc16Step 0 0 = 0 by decide]
      exact ih

/-- The check value as it is assembled from the two trailer bytes: the first byte unshifted,
the second one shifted by one. -/
def recvCrc (first second : UInt8) : UInt16 :=
  first.toUInt16 ||| (second.toUInt16 <<< 1)

namespace YmodemCtx

/-- Read `aui8Data[position]`. -/
def dataAt (ctx : YmodemCtx) (position : Nat) : UInt8 :=
  ctx.aui8Data.getD position 0

/-- The bytes `aui8Data[RYM_PACKET_HEADER ..]` of the announced packet length. -/
def payload (ctx : YmodemCtx) : List UInt8 :=
  (ctx.aui8Data.toList.drop rymPacketHeader).take ctx.ui16PacketLength

/-- The places of these bytes. -/
def payloadPlaces (ctx : YmodemCtx) : List Nat :=
  (List.range ctx.ui16PacketLength).map (rymPacketHeader + ·)

/-- The C string that starts at `aui8Data[RYM_PACKET_HEADER]`. -/
def headerString (ctx : YmodemCtx) : List UInt8 :=
  (ctx.aui8Data.toList.drop rymPacketHeader).takeWhile (· ≠ 0)

/-- `YmodemRecvOneByte` into the write position. -/
def recvOneByte (ctx : YmodemCtx) (byte : UInt8) : YmodemCtx :=
  { ctx with
    aui8Data := ctx.aui8Data.setIfInBounds ctx.ui16WrPosition byte
    ui16WrPosition := ctx.ui16WrPosition + 1 }

end YmodemCtx

/-- How one pass through the body of the inner loop ends: by `continue` (or by falling
off its end) with the current `bFinished`, or by `break` with `bFinished` set. The places of
`aui8Data` are those that the pass has read. -/
inductive Scan where
  | continued (ctx : YmodemCtx) (bFinished : Bool) (reads : List Nat)
  | broke (ctx : YmodemCtx) (reads : List Nat)

/-- Body of the inner loop of `YmodemRecvPacket`. -/
def scanBody (ctx : YmodemCtx) (bFinished : Bool) : Scan :=
  if ctx.ui16RdPosition = 0 then
    let code := ctx.dataAt ctx.ui16RdPosition
    let next := { ctx with ui8Code := code, ui16RdPosition := ctx.ui16RdPosition + 1 }
    if code = rymCodeSoh then
      .continued { next with ui16PacketLength := rymPacketSize, eRymState := .eRymRecv }
        bFinished [ctx.ui16RdPosition]
    else if code = rymCodeStx then
      .continued { next with ui16PacketLength := rymPacket1kSize, eRymState := .eRymRecv }
        bFinished [ctx.ui16RdPosition]
    else
      .continued { next with ui16PacketLength := 0, eRymState := .eRymDone } true
        [ctx.ui16RdPosition]
  else if ctx.ui16RdPosition = 1 then
    .continued { ctx with
      ui8Index := ctx.dataAt ctx.ui16RdPosition
      ui16RdPosition := ctx.ui16RdPosition + 1 } bFinished [ctx.ui16RdPosition]
  else if ctx.ui16RdPosition = 2 then
    if ctx.ui8Index &&& ctx.dataAt ctx.ui16RdPosition ≠ 0 then
      .broke { ctx with ui16PacketLength := 0, eRymState := .eRymFail } [ctx.ui16RdPosition]
    else
      .continued { ctx with ui16RdPosition := ctx.ui16RdPosition + 1 } bFinished
        [ctx.ui16RdPosition]
  else if ctx.ui16RdPosition = rymPacketHeader + ctx.ui16PacketLength + 1 then
    let firstPlace := rymPacketHeader + ctx.ui16PacketLength + 0
    let secondPlace := rymPacketHeader + ctx.ui16PacketLength + 1
    let ui16RecvCrc := recvCrc (ctx.dataAt firstPlace) (ctx.dataAt secondPlace)
    let ui16CalcCrc := ymodemCrc16 ctx.payload
    .broke { ctx with
      eRymState := if ui16CalcCrc ≠ ui16RecvCrc then .eRymFail else .eRymDone }
      ([firstPlace, secondPlace] ++ ctx.payloadPlaces)
  else
    .continued { ctx with ui16RdPosition := ctx.ui16RdPosition + 1 } bFinished []

/-- The inner loop. A pass that does not break advances the read position by one, so
the first argument, the distance from the read to the write position, counts down
with it. -/
def scanLoop : Nat → YmodemCtx → Bool → YmodemCtx × Bool
  | 0, ctx, bFinished => (ctx, bFinished)
  | distance + 1, ctx, bFinished =>
      match scanBody ctx bFinished with
      | .continued ctx bFinished _ => scanLoop distance ctx bFinished
      | .broke ctx _ => (ctx, true)

/-- What a call of `YmodemRecvPacket` has come to on the bytes that arrived. -/
inductive Received where
  /-- All bytes are consumed and the call waits for the next one. -/
  | blocked (ctx : YmodemCtx)
  /-- The call has returned and left `rest` on the line. -/
  | finished (ctx : YmodemCtx) (rest : List UInt8)

/-- The outer loop of `YmodemRecvPacket`, one byte per turn. -/
def recvLoop (ctx : YmodemCtx) : List UInt8 → Received
  | [] => .blocked ctx
  | byte :: rest =>
      let ctx := ctx.recvOneByte byte
      let (ctx, bFinished) :=
        scanLoop (ctx.ui16WrPosition - ctx.ui16RdPosition) ctx false
      if bFinished then .finished ctx rest else recvLoop ctx rest

/-- `YmodemRecvPacket`, after the answer byte has been sent. -/
def ymodemRecvPacket (ctx : YmodemCtx) (line : List UInt8) : Received :=
  recvLoop { ctx with ui16WrPosition := 0, ui16RdPosition := 0 } line

end SunWise.Ymodem
