import SunWise.Ymodem.Frame

/-!
# How much of the line a call consumes

How many bytes a call of `YmodemRecvPacket` takes off the line follows from the first three
of them.  The visits of a call are the points its two loops pass through, each with the
places of `aui8Data` that the code accesses from there.
-/

namespace SunWise.Ymodem

/-- How many bytes the next unit of the protocol has, as far as the line shows. -/
def packetBytes : List UInt8 → Nat
  | [] => 1
  | code :: line =>
      match PacketKind.ofCode? code with
      | none => 1
      | some kind =>
          match line with
          | index :: complement :: _ =>
              if index &&& complement ≠ 0 then rymPacketHeader
              else rymPacketHeader + kind.size + rymPacketTrailer
          | _ => rymPacketHeader

/-- A point of a call: the context there, and the places of `aui8Data` that are accessed
before the next one. -/
structure Visit where
  ctx : YmodemCtx
  accesses : List Nat

namespace Visit

/-- The positions are in order and in the buffer, and so is every access. -/
structure Inside (visit : Visit) : Prop where
  ordered : visit.ctx.ui16RdPosition ≤ visit.ctx.ui16WrPosition
  bounded : visit.ctx.ui16WrPosition ≤ rymBufferSize
  accessed : ∀ index ∈ visit.accesses, index < rymBufferSize

end Visit

/-- The visits of the inner loop. -/
def scanVisits : Nat → YmodemCtx → Bool → List Visit
  | 0, ctx, _ => [{ ctx, accesses := [] }]
  | distance + 1, ctx, bFinished =>
      match scanBody ctx bFinished with
      | .continued next bFinished reads =>
          { ctx, accesses := reads } :: scanVisits distance next bFinished
      | .broke next reads => [{ ctx, accesses := reads }, { ctx := next, accesses := [] }]

/-- The visits of the outer loop, which stores each byte at the write position. -/
def recvVisits (ctx : YmodemCtx) : List UInt8 → List Visit
  | [] => [{ ctx, accesses := [ctx.ui16WrPosition] }]
  | byte :: rest =>
      let received := ctx.recvOneByte byte
      let distance := received.ui16WrPosition - received.ui16RdPosition
      let (scanned, bFinished) := scanLoop distance received false
      { ctx, accesses := [ctx.ui16WrPosition] } :: scanVisits distance received false ++
        if bFinished then [] else recvVisits scanned rest

/-- The visits of a call of `YmodemRecvPacket`. -/
def packetVisits (ctx : YmodemCtx) (line : List UInt8) : List Visit :=
  recvVisits { ctx with ui16WrPosition := 0, ui16RdPosition := 0 } line

/-- The context a call has come to. -/
def Received.ctx : Received → YmodemCtx
  | .blocked ctx => ctx
  | .finished ctx _ => ctx

/-- The visits of the inner loop end where the loop does. -/
theorem scanVisits_ends (distance : Nat) (ctx : YmodemCtx) (bFinished : Bool) :
    ∃ visits, scanVisits distance ctx bFinished =
      visits ++ [{ ctx := (scanLoop distance ctx bFinished).1, accesses := [] }] := by
  induction distance generalizing ctx bFinished with
  | zero => exact ⟨[], rfl⟩
  | succ distance ih =>
      rw [scanVisits, scanLoop]
      cases scanBody ctx bFinished with
      | continued next finished reads =>
          rcases ih next finished with ⟨visits, ends⟩
          exact ⟨{ ctx, accesses := reads } :: visits, congrArg _ ends⟩
      | broke next reads => exact ⟨[{ ctx, accesses := reads }], rfl⟩

/-- The last visit of a call is the context it has come to. -/
theorem recvVisits_ends (ctx : YmodemCtx) (line : List UInt8) :
    ∃ visits last, recvVisits ctx line = visits ++ [last] ∧
      last.ctx = (recvLoop ctx line).ctx := by
  induction line generalizing ctx with
  | nil => exact ⟨[], _, rfl, rfl⟩
  | cons byte rest ih =>
      simp only [recvVisits, recvLoop]
      generalize (ctx.recvOneByte byte).ui16WrPosition -
        (ctx.recvOneByte byte).ui16RdPosition = distance
      rcases scanVisits_ends distance (ctx.recvOneByte byte) false with ⟨visits, ends⟩
      rw [ends]
      cases (scanLoop distance (ctx.recvOneByte byte) false).2 with
      | true => exact ⟨_ :: visits, _, List.append_nil _, rfl⟩
      | false =>
          rcases ih (scanLoop distance (ctx.recvOneByte byte) false).1 with
            ⟨later, last, isLater, same⟩
          let scanned := (scanLoop distance (ctx.recvOneByte byte) false).1
          refine ⟨{ ctx, accesses := [ctx.ui16WrPosition] } ::
            (visits ++ [{ ctx := scanned, accesses := [] }]) ++ later, last, ?_, same⟩
          rw [if_neg Bool.false_ne_true, isLater, List.append_assoc]

/-! ## Consumption -/

/-- A unit is cut off the line exactly when all its bytes are there. -/
theorem split_packetBytes (line : List UInt8) :
    (line.length < packetBytes line → Frame.split line = none) ∧
      (packetBytes line ≤ line.length →
        ∃ frame, Frame.split line = some (frame, line.drop (packetBytes line))) := by
  cases line with
  | nil => simp [packetBytes, Frame.split]
  | cons code line =>
      simp only [packetBytes, Frame.split]
      cases PacketKind.ofCode? code with
      | none => simp
      | some kind =>
          rcases line with _ | ⟨index, _ | ⟨complement, body⟩⟩
          · simp
          · simp
          · by_cases shared : index &&& complement ≠ 0
            · simp [shared]
            · have total : rymPacketHeader + kind.size + rymPacketTrailer =
                  kind.size + 2 + 3 := by
                simp only [rymPacketHeader, rymPacketTrailer]
                omega
              have bodyLength : (body.drop kind.size).length = body.length - kind.size :=
                List.length_drop
              have behind : (body.drop kind.size).drop 2 = body.drop (kind.size + 2) :=
                List.drop_drop
              simp only [if_neg shared, total, List.length_cons, List.drop_succ_cons]
              rcases tail : body.drop kind.size with _ | ⟨first, _ | ⟨second, after⟩⟩
              · simp only [tail, List.length_nil] at bodyLength
                exact ⟨fun _ => rfl, fun enough => by omega⟩
              · simp only [tail, List.length_cons, List.length_nil] at bodyLength
                exact ⟨fun _ => rfl, fun enough => by omega⟩
              · simp only [tail, List.length_cons] at bodyLength
                refine ⟨fun short => by omega, fun _ => ?_⟩
                rw [← behind, tail]
                exact ⟨_, rfl⟩

/-- A call waits for the last byte of the unit and takes no byte more. -/
theorem ymodemRecvPacket_consumes (ctx : YmodemCtx) (line : List UInt8) :
    if line.length < packetBytes line then
      ∃ waiting, ymodemRecvPacket ctx line = .blocked waiting
    else
      ∃ after, ymodemRecvPacket ctx line = .finished after (line.drop (packetBytes line)) := by
  split
  next short => exact ymodemRecvPacket_blocked ctx ((split_packetBytes line).1 short)
  next complete =>
    rcases (split_packetBytes line).2 (Nat.le_of_not_lt complete) with ⟨frame, cut⟩
    exact ⟨_, ymodemRecvPacket_eq_load ctx cut⟩

/-- Before the next byte: all bytes are scanned, and no more of them than the announced
packet has, short of the last. -/
structure Scanned (ctx : YmodemCtx) : Prop where
  level : ctx.ui16RdPosition = ctx.ui16WrPosition
  announced : 0 < ctx.ui16RdPosition →
    ctx.ui16RdPosition ≤ rymPacketHeader + ctx.ui16PacketLength + 1 ∧
      ctx.ui16PacketLength ≤ rymPacket1kSize

namespace Scanned

variable {ctx : YmodemCtx}

theorem lt (scanned : Scanned ctx) : ctx.ui16WrPosition < rymBufferSize := by
  have announced := scanned.announced
  rw [scanned.level] at announced
  simp only [rymPacketHeader, rymPacket1kSize, rymBufferSize_eq] at *
  omega

/-- The next byte is stored inside the buffer. -/
theorem waiting (scanned : Scanned ctx) :
    Visit.Inside { ctx, accesses := [ctx.ui16WrPosition] } :=
  ⟨scanned.level.le, scanned.lt.le, by simpa using scanned.lt⟩

/-- The check at the end of a packet reads inside the buffer. -/
theorem checked (scanned : Scanned ctx) (started : 0 < ctx.ui16RdPosition) :
    ∀ index ∈ [rymPacketHeader + ctx.ui16PacketLength + 0,
        rymPacketHeader + ctx.ui16PacketLength + 1] ++ ctx.payloadPlaces,
      index < rymBufferSize := by
  have short := (scanned.announced started).2
  intro index accessed
  simp only [YmodemCtx.payloadPlaces, List.mem_append, List.mem_cons, List.mem_map,
    List.mem_range, List.not_mem_nil, or_false] at accessed
  simp only [rymPacketHeader, rymPacket1kSize, rymBufferSize_eq] at *
  rcases accessed with (rfl | rfl) | ⟨offset, inside, rfl⟩ <;> omega

theorem scanBody_spec (scanned : Scanned ctx) (byte : UInt8) :
    match scanBody (ctx.recvOneByte byte) false with
    | .continued next bFinished reads =>
        (∀ index ∈ reads, index < rymBufferSize) ∧
          (Visit.Inside { ctx := next, accesses := [] }) ∧
          (bFinished = false → Scanned next)
    | .broke next reads =>
        (∀ index ∈ reads, index < rymBufferSize) ∧
          Visit.Inside { ctx := next, accesses := [] } := by
  have read : (ctx.recvOneByte byte).ui16RdPosition + 1 =
      (ctx.recvOneByte byte).ui16WrPosition := congrArg (· + 1) scanned.level
  have here : ∀ index ∈ [(ctx.recvOneByte byte).ui16RdPosition], index < rymBufferSize := by
    intro index isHere
    rw [List.mem_singleton.mp isHere]
    exact scanned.level ▸ scanned.lt
  have announced : 0 < (ctx.recvOneByte byte).ui16RdPosition → _ := scanned.announced
  have continued {next : YmodemCtx}
      (moved : next.ui16RdPosition = (ctx.recvOneByte byte).ui16RdPosition + 1)
      (same : next.ui16WrPosition = (ctx.recvOneByte byte).ui16WrPosition) :
      Visit.Inside { ctx := next, accesses := [] } :=
    ⟨(moved.trans (read.trans same.symm)).le, same ▸ scanned.lt, List.forall_mem_nil _⟩
  have broke {next : YmodemCtx}
      (moved : next.ui16RdPosition = (ctx.recvOneByte byte).ui16RdPosition)
      (same : next.ui16WrPosition = (ctx.recvOneByte byte).ui16WrPosition) :
      Visit.Inside { ctx := next, accesses := [] } :=
    ⟨by dsimp only; omega, same ▸ scanned.lt, List.forall_mem_nil _⟩
  fun_cases scanBody (ctx.recvOneByte byte) false with
  | case1 atStart code next =>
      exact ⟨here, continued rfl rfl, fun _ => ⟨read, fun _ => by simp [next, atStart]⟩⟩
  | case2 atStart code next =>
      exact ⟨here, continued rfl rfl, fun _ => ⟨read, fun _ => by simp [next, atStart]⟩⟩
  | case3 => exact ⟨here, continued rfl rfl, fun finished => Bool.noConfusion finished⟩
  | case4 notStart atIndex =>
      refine ⟨here, continued rfl rfl, fun _ => ⟨read, fun _ => ⟨?_, ?_⟩⟩⟩
      · simp only [atIndex, rymPacketHeader]
        omega
      · exact (announced (by omega)).2
  | case5 => exact ⟨here, broke rfl rfl⟩
  | case6 notStart notIndex atComplement =>
      refine ⟨here, continued rfl rfl, fun _ => ⟨read, fun _ => ⟨?_, ?_⟩⟩⟩
      · simp only [atComplement, rymPacketHeader]
        omega
      · exact (announced (by omega)).2
  | case7 notStart => exact ⟨scanned.checked (Nat.pos_of_ne_zero notStart), broke rfl rfl⟩
  | case8 notStart notIndex notComplement notLast =>
      have ⟨within, short⟩ := announced (by omega)
      refine ⟨List.forall_mem_nil _, continued rfl rfl, fun _ => ⟨read, fun _ => ⟨?_, short⟩⟩⟩
      exact Nat.lt_of_le_of_ne within notLast

end Scanned

theorem recvVisits_inside {ctx : YmodemCtx} (scanned : Scanned ctx) (line : List UInt8) :
    ∀ visit ∈ recvVisits ctx line, visit.Inside := by
  induction line generalizing ctx with
  | nil => simpa [recvVisits] using scanned.waiting
  | cons byte rest ih =>
      have distance : (ctx.recvOneByte byte).ui16WrPosition -
          (ctx.recvOneByte byte).ui16RdPosition = 1 := by
        simp [YmodemCtx.recvOneByte, scanned.level]
      have received {reads : List Nat} (inside : ∀ index ∈ reads, index < rymBufferSize) :
          Visit.Inside { ctx := ctx.recvOneByte byte, accesses := reads } :=
        ⟨scanned.level.le.trans (Nat.le_succ _), scanned.lt, inside⟩
      have turn := scanned.scanBody_spec byte
      simp only [recvVisits, distance, scanLoop, scanVisits]
      cases pass : scanBody (ctx.recvOneByte byte) false with
      | continued next bFinished reads =>
          rw [pass] at turn
          rcases turn with ⟨inside, moved, level⟩
          cases bFinished with
          | true => simpa using ⟨scanned.waiting, received inside, moved⟩
          | false =>
              have later := ih (level rfl)
              simpa [or_imp, forall_and] using ⟨scanned.waiting, received inside, moved, later⟩
      | broke next reads =>
          rw [pass] at turn
          simpa using ⟨scanned.waiting, received turn.1, turn.2⟩

/-- A call takes one unit off the line, and no access of it leaves the buffer. -/
theorem ymodemRecvPacket_framed (ctx : YmodemCtx) (line : List UInt8) :
    (∃ visits last, packetVisits ctx line = visits ++ [last] ∧
      last.ctx = (ymodemRecvPacket ctx line).ctx) ∧
    (∀ visit ∈ packetVisits ctx line, visit.Inside) ∧
      if line.length < packetBytes line then
        ∃ waiting, ymodemRecvPacket ctx line = .blocked waiting
      else
        ∃ after,
          ymodemRecvPacket ctx line = .finished after (line.drop (packetBytes line)) :=
  ⟨recvVisits_ends _ line,
    recvVisits_inside ⟨rfl, fun started => absurd started (Nat.lt_irrefl 0)⟩ line,
    ymodemRecvPacket_consumes ctx line⟩

end SunWise.Ymodem
