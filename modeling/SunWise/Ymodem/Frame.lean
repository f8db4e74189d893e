import SunWise.Ymodem.Packet

/-!
# Frames on the line

`Frame.split` cuts the next unit of the protocol off a byte stream without running
the receiver: one byte that starts no packet, a packet head whose complement check
fails, or a complete packet.  `ymodemRecvPacket_eq_load` states that one call of
`YmodemRecvPacket` consumes exactly that unit and loads it into the context.
-/

namespace SunWise.Ymodem

/-- The two packet formats. -/
inductive PacketKind where
  | soh
  | stx
  deriving DecidableEq, Repr

namespace PacketKind

/-- First byte of a packet of this format. -/
def code : PacketKind → UInt8
  | .soh => rymCodeSoh
  | .stx => rymCodeStx

/-- Number of data bytes of a packet of this format. -/
def size : PacketKind → Nat
  | .soh => rymPacketSize
  | .stx => rymPacket1kSize

/-- The format announced by a first byte. -/
def ofCode? (byte : UInt8) : Option PacketKind :=
  if byte = rymCodeSoh then some .soh
  else if byte = rymCodeStx then some .stx
  else none

@[simp] theorem ofCode?_code (kind : PacketKind) : ofCode? kind.code = some kind := by
  cases kind <;> rfl

theorem code_of_ofCode? {byte : UInt8} {kind : PacketKind}
    (announced : ofCode? byte = some kind) : byte = kind.code := by
  unfold ofCode? at announced
  split at announced
  next soh =>
    cases announced
    exact soh
  next =>
    split at announced
    next stx =>
      cases announced
      exact stx
    next => cases announced

theorem size_le (kind : PacketKind) : kind.size ≤ rymPacket1kSize := by
  cases kind <;> decide

end PacketKind

/-- One unit of the protocol as it arrives. -/
inductive Frame where
  /-- A byte that starts no packet. -/
  | single (byte : UInt8)
  /-- A packet head that fails the complement check. -/
  | broken (kind : PacketKind) (index complement : UInt8)
  /-- A complete packet with its two trailer bytes. -/
  | packet (kind : PacketKind) (index complement : UInt8) (payload : List UInt8)
      (first second : UInt8)
  deriving DecidableEq, Repr

namespace Frame

/-- The bytes of a frame in arrival order. -/
def bytes : Frame → List UInt8
  | .single byte => [byte]
  | .broken kind index complement => [kind.code, index, complement]
  | .packet kind index complement payload first second =>
      kind.code :: index :: complement :: (payload ++ [first, second])

/-- Cut the next frame off the line, if it has arrived completely. -/
def split : List UInt8 → Option (Frame × List UInt8)
  | [] => none
  | byte :: rest =>
      match PacketKind.ofCode? byte with
      | none => some (.single byte, rest)
      | some kind =>
          match rest with
          | index :: complement :: body =>
              if index &&& complement ≠ 0 then
                some (.broken kind index complement, body)
              else
                match body.drop kind.size with
                | first :: second :: after =>
                    some (.packet kind index complement (body.take kind.size)
                      first second, after)
                | _ => none
          | _ => none

/-- What `split` has checked about the frames it cuts. -/
def WellFormed : Frame → Prop
  | .single byte => PacketKind.ofCode? byte = none
  | .broken _ index complement => index &&& complement ≠ 0
  | .packet kind index complement payload _ _ =>
      index &&& complement = 0 ∧ payload.length = kind.size

/-- Every well-formed frame is cut off the line again. -/
theorem split_bytes_append {frame : Frame} (wf : frame.WellFormed)
    (rest : List UInt8) : split (frame.bytes ++ rest) = some (frame, rest) := by
  cases frame with
  | single byte =>
      simp only [WellFormed] at wf
      simp [bytes, split, wf]
  | broken kind index complement =>
      simp only [WellFormed] at wf
      simp [bytes, split, wf]
  | packet kind index complement payload first second =>
      rcases wf with ⟨disjoint, complete⟩
      simp [bytes, split, disjoint, ← complete]

/-- What is cut off the line is a well-formed frame, and nothing else is consumed. -/
theorem eq_bytes_append_of_split {line rest : List UInt8} {frame : Frame}
    (cut : split line = some (frame, rest)) :
    frame.WellFormed ∧ line = frame.bytes ++ rest := by
  cases line with
  | nil => cases cut
  | cons byte line =>
      simp only [split] at cut
      cases starts : PacketKind.ofCode? byte with
      | none =>
          simp only [starts, Option.some.injEq, Prod.mk.injEq] at cut
          rcases cut with ⟨rfl, rfl⟩
          exact ⟨starts, rfl⟩
      | some kind =>
          have codeEq := PacketKind.code_of_ofCode? starts
          subst byte
          simp only [starts] at cut
          rcases line with _ | ⟨index, _ | ⟨complement, body⟩⟩
          · cases cut
          · cases cut
          · by_cases disjoint : index &&& complement = 0
            · simp only [disjoint, ne_eq, not_true_eq_false, if_false] at cut
              have parts := List.take_append_drop kind.size body
              rcases tail : body.drop kind.size with _ | ⟨first, _ | ⟨second, after⟩⟩
              · simp [tail] at cut
              · simp [tail] at cut
              · simp only [tail, Option.some.injEq, Prod.mk.injEq] at cut
                rcases cut with ⟨rfl, rfl⟩
                have tailLength := congrArg List.length tail
                simp only [List.length_drop, List.length_cons] at tailLength
                rw [tail] at parts
                refine ⟨⟨disjoint, ?_⟩, ?_⟩
                · rw [List.length_take]
                  omega
                · simp [bytes, parts]
            · simp only [ne_eq, disjoint, not_false_eq_true, if_true,
                Option.some.injEq, Prod.mk.injEq] at cut
              rcases cut with ⟨rfl, rfl⟩
              exact ⟨disjoint, rfl⟩

theorem split_length {line rest : List UInt8} {frame : Frame}
    (cut : split line = some (frame, rest)) : rest.length < line.length := by
  rcases eq_bytes_append_of_split cut with ⟨-, rfl⟩
  have nonempty : 0 < frame.bytes.length := by
    cases frame <;> simp [bytes]
  rw [List.length_append]
  omega

end Frame

/-- Replace the front of a buffer by `bytes`. -/
def overwrite {size : Nat} (buffer : Vector UInt8 size) (bytes : List UInt8) :
    Vector UInt8 size :=
  Vector.ofFn fun position => bytes.getD position buffer[position]

section Overwrite

variable {size : Nat} (buffer : Vector UInt8 size)

@[simp] theorem overwrite_nil : overwrite buffer [] = buffer := by
  ext position inside
  simp [overwrite]

theorem overwrite_snoc (bytes : List UInt8) (byte : UInt8) :
    (overwrite buffer bytes).setIfInBounds bytes.length byte =
      overwrite buffer (bytes ++ [byte]) := by
  ext position inside
  simp only [overwrite, Vector.getElem_setIfInBounds, Vector.getElem_ofFn,
    List.getD_eq_getElem?_getD]
  by_cases here : bytes.length = position
  · subst position
    simp
  · by_cases before : position < bytes.length
    · simp [here, List.getElem?_append_left before]
    · have after : ¬position - bytes.length = 0 := by omega
      have beyond : bytes.length + 1 ≤ position := by omega
      simp [here, List.getElem?_eq_none (Nat.le_of_not_lt before),
        List.getElem?_eq_none (l := bytes ++ [byte]) (by simpa using beyond)]

theorem overwrite_getD {bytes : List UInt8} {position : Nat}
    (stored : position < bytes.length) (inside : position < size) :
    (overwrite buffer bytes).getD position 0 = bytes[position] := by
  simp [Vector.getD, overwrite, Array.getD, inside, stored]

theorem overwrite_toList {bytes : List UInt8} (fits : bytes.length ≤ size) :
    (overwrite buffer bytes).toList = bytes ++ buffer.toList.drop bytes.length := by
  apply List.ext_getElem
  · simp only [Vector.length_toList, List.length_append, List.length_drop]
    omega
  · intro position left right
    by_cases before : position < bytes.length
    · simp [overwrite, before, List.getElem_append_left before]
    · have beyond := Nat.le_of_not_lt before
      rw [List.getElem_append_right beyond, List.getElem_drop]
      have offset : bytes.length + (position - bytes.length) = position := by omega
      simp only [overwrite, Vector.getElem_toList, Vector.getElem_ofFn, offset]
      simp [List.getElem?_eq_none beyond]

end Overwrite

namespace Frame

/-- The context a returning call of `YmodemRecvPacket` leaves, as a function of the
context it started from and of the frame it consumed. -/
def load (ctx : YmodemCtx) (frame : Frame) : YmodemCtx :=
  let aui8Data := overwrite ctx.aui8Data frame.bytes
  match frame with
  | .single byte =>
      { ui8Code := byte, ui8Index := ctx.ui8Index, aui8Data
        ui16PacketLength := 0, eRymState := .eRymDone
        ui16WrPosition := 1, ui16RdPosition := 1 }
  | .broken kind index _ =>
      { ui8Code := kind.code, ui8Index := index, aui8Data
        ui16PacketLength := 0, eRymState := .eRymFail
        ui16WrPosition := 3, ui16RdPosition := 2 }
  | .packet kind index _ payload first second =>
      { ui8Code := kind.code, ui8Index := index, aui8Data
        ui16PacketLength := kind.size
        eRymState :=
          if ymodemCrc16 payload ≠ recvCrc first second then .eRymFail else .eRymDone
        ui16WrPosition := rymPacketHeader + kind.size + 2
        ui16RdPosition := rymPacketHeader + kind.size + 1 }

end Frame

/-- With all earlier bytes scanned, a turn of the outer loop scans exactly the byte it
has just read. -/
theorem recvLoop_cons {ctx : YmodemCtx} (byte : UInt8) (rest : List UInt8)
    (scanned : ctx.ui16RdPosition = ctx.ui16WrPosition) :
    recvLoop ctx (byte :: rest) =
      match scanBody (ctx.recvOneByte byte) false with
      | .continued next bFinished _ =>
          if bFinished then .finished next rest else recvLoop next rest
      | .broke next _ => .finished next rest := by
  have distance : (ctx.recvOneByte byte).ui16WrPosition -
      (ctx.recvOneByte byte).ui16RdPosition = 1 := by
    simp [YmodemCtx.recvOneByte, scanned]
  simp only [recvLoop, distance, scanLoop]
  cases scanBody (ctx.recvOneByte byte) false <;> rfl

/-- The context in the middle of a packet, after `bytes` have arrived and have all been
scanned. -/
def receiving (ctx : YmodemCtx) (kind : PacketKind) (index : UInt8)
    (bytes : List UInt8) : YmodemCtx where
  ui8Code := kind.code
  ui8Index := index
  aui8Data := overwrite ctx.aui8Data bytes
  ui16PacketLength := kind.size
  eRymState := .eRymRecv
  ui16WrPosition := bytes.length
  ui16RdPosition := bytes.length

/-- A data byte, or the first trailer byte, is stored and nothing else happens. -/
theorem recvLoop_receiving_cons (ctx : YmodemCtx) (kind : PacketKind) (index : UInt8)
    {bytes : List UInt8} (byte : UInt8) (rest : List UInt8)
    (afterHead : rymPacketHeader ≤ bytes.length)
    (beforeEnd : bytes.length ≤ rymPacketHeader + kind.size) :
    recvLoop (receiving ctx kind index bytes) (byte :: rest) =
      recvLoop (receiving ctx kind index (bytes ++ [byte])) rest := by
  simp only [rymPacketHeader] at afterHead beforeEnd
  have notLast : bytes.length ≠ 3 + kind.size + 1 := by omega
  rw [recvLoop_cons byte rest rfl]
  simp only [scanBody, YmodemCtx.recvOneByte, receiving, rymPacketHeader,
    show bytes.length ≠ 0 by omega, show bytes.length ≠ 1 by omega,
    show bytes.length ≠ 2 by omega, notLast, if_false, Bool.false_eq_true,
    overwrite_snoc, List.length_append, List.length_singleton]

theorem recvLoop_receiving_append (ctx : YmodemCtx) (kind : PacketKind)
    (index : UInt8) (more rest : List UInt8) {bytes : List UInt8}
    (afterHead : rymPacketHeader ≤ bytes.length)
    (beforeEnd : bytes.length + more.length ≤ rymPacketHeader + kind.size + 1) :
    recvLoop (receiving ctx kind index bytes) (more ++ rest) =
      recvLoop (receiving ctx kind index (bytes ++ more)) rest := by
  induction more generalizing bytes with
  | nil => simp
  | cons byte more ih =>
      simp only [List.length_cons] at beforeEnd
      rw [List.cons_append,
        recvLoop_receiving_cons ctx kind index byte _ afterHead (by omega)]
      rw [ih (by simp at afterHead ⊢; omega) (by simp at beforeEnd ⊢; omega)]
      simp

/-- The second trailer byte ends the call with the verdict of the check. -/
theorem recvLoop_receiving_last (ctx : YmodemCtx) (kind : PacketKind)
    (index complement first second : UInt8) (payload rest : List UInt8)
    (complete : payload.length = kind.size) :
    recvLoop (receiving ctx kind index
        (kind.code :: index :: complement :: (payload ++ [first]))) (second :: rest) =
      .finished
        ((Frame.packet kind index complement payload first second).load ctx) rest := by
  have sizeBound := kind.size_le
  simp only [rymPacket1kSize] at sizeBound
  rw [recvLoop_cons second rest rfl]
  have stored : overwrite ctx.aui8Data
      ((kind.code :: index :: complement :: (payload ++ [first])) ++ [second]) =
      overwrite ctx.aui8Data
        (Frame.packet kind index complement payload first second).bytes := by
    simp [Frame.bytes]
  have firstRead : (overwrite ctx.aui8Data
      (Frame.packet kind index complement payload first second).bytes).getD
      (kind.size + 3) 0 = first := by
    rw [overwrite_getD _ (by simp [Frame.bytes, complete])
      (by rw [rymBufferSize_eq]; omega)]
    simp [Frame.bytes, ← complete]
  have secondRead : (overwrite ctx.aui8Data
      (Frame.packet kind index complement payload first second).bytes).getD
      (kind.size + 4) 0 = second := by
    rw [overwrite_getD _ (by simp [Frame.bytes, complete])
      (by rw [rymBufferSize_eq]; omega)]
    simp [Frame.bytes, ← complete]
  have payloadRead : (((overwrite ctx.aui8Data
      (Frame.packet kind index complement payload first second).bytes).toList.drop
      3).take kind.size) = payload := by
    rw [overwrite_toList _ (by simp [Frame.bytes, complete, rymBufferSize_eq]; omega)]
    simp [Frame.bytes, ← complete]
  simp only [scanBody, YmodemCtx.recvOneByte, receiving, overwrite_snoc, stored]
  simp [Frame.load, YmodemCtx.dataAt, YmodemCtx.payload, complete, Nat.add_comm 3,
    firstRead, secondRead, payloadRead]

/-! ## One call -/

theorem ymodemRecvPacket_single (ctx : YmodemCtx) {byte : UInt8}
    (rest : List UInt8) (starts : PacketKind.ofCode? byte = none) :
    ymodemRecvPacket ctx (byte :: rest) =
      .finished ((Frame.single byte).load ctx) rest := by
  have notSoh : byte ≠ 1 := by
    rintro rfl
    simp [PacketKind.ofCode?] at starts
  have notStx : byte ≠ 2 := by
    rintro rfl
    simp [PacketKind.ofCode?] at starts
  have stored := overwrite_snoc ctx.aui8Data [] byte
  have read : (overwrite ctx.aui8Data [byte]).getD 0 0 = byte :=
    overwrite_getD _ (by simp) (by decide)
  simp only [overwrite_nil, List.length_nil, List.nil_append] at stored
  rw [ymodemRecvPacket, recvLoop_cons byte rest rfl]
  simp [scanBody, YmodemCtx.recvOneByte, YmodemCtx.dataAt, stored, read, notSoh,
    notStx, Frame.load, Frame.bytes]

theorem ymodemRecvPacket_code (ctx : YmodemCtx) (kind : PacketKind)
    (rest : List UInt8) :
    ymodemRecvPacket ctx (kind.code :: rest) =
      recvLoop (receiving ctx kind ctx.ui8Index [kind.code]) rest := by
  have stored := overwrite_snoc ctx.aui8Data [] kind.code
  have read : (overwrite ctx.aui8Data [kind.code]).getD 0 0 = kind.code :=
    overwrite_getD _ (by simp) (by decide)
  simp only [overwrite_nil, List.length_nil, List.nil_append] at stored
  rw [ymodemRecvPacket, recvLoop_cons kind.code rest rfl]
  simp only [scanBody, YmodemCtx.recvOneByte, YmodemCtx.dataAt, stored, read]
  cases kind <;> simp [receiving, PacketKind.code, PacketKind.size]

/-- The second byte is the sequence number. -/
theorem recvLoop_receiving_index (ctx : YmodemCtx) (kind : PacketKind)
    (index : UInt8) (rest : List UInt8) :
    recvLoop (receiving ctx kind ctx.ui8Index [kind.code]) (index :: rest) =
      recvLoop (receiving ctx kind index [kind.code, index]) rest := by
  have stored := overwrite_snoc ctx.aui8Data [kind.code] index
  have read : (overwrite ctx.aui8Data [kind.code, index]).getD 1 0 = index :=
    overwrite_getD _ (by simp) (by decide)
  rw [recvLoop_cons index rest rfl]
  simp only [List.length_singleton, List.singleton_append] at stored
  simp [scanBody, YmodemCtx.recvOneByte, YmodemCtx.dataAt, receiving, stored, read]

/-- The third byte is held against the sequence number. -/
theorem recvLoop_receiving_complement (ctx : YmodemCtx) (kind : PacketKind)
    (index complement : UInt8) (rest : List UInt8) :
    recvLoop (receiving ctx kind index [kind.code, index]) (complement :: rest) =
      if index &&& complement ≠ 0 then
        .finished ((Frame.broken kind index complement).load ctx) rest
      else
        recvLoop (receiving ctx kind index [kind.code, index, complement]) rest := by
  have stored := overwrite_snoc ctx.aui8Data [kind.code, index] complement
  have read : (overwrite ctx.aui8Data [kind.code, index, complement]).getD 2 0 =
      complement :=
    overwrite_getD _ (by simp) (by decide)
  simp only [List.length_cons, List.length_nil, List.cons_append,
    List.nil_append] at stored
  rw [recvLoop_cons complement rest rfl]
  by_cases shared : index &&& complement = 0
  · simp [scanBody, YmodemCtx.recvOneByte, YmodemCtx.dataAt, receiving, stored, read,
      shared]
  · simp [scanBody, YmodemCtx.recvOneByte, YmodemCtx.dataAt, receiving, stored, read,
      shared, Frame.load, Frame.bytes]

/-- A packet whose head passes the complement check is received to its end. -/
theorem ymodemRecvPacket_packet (ctx : YmodemCtx) (kind : PacketKind)
    {index complement : UInt8} (first second : UInt8) {payload : List UInt8}
    (rest : List UInt8) (disjoint : index &&& complement = 0)
    (complete : payload.length = kind.size) :
    ymodemRecvPacket ctx
        ((Frame.packet kind index complement payload first second).bytes ++ rest) =
      .finished
        ((Frame.packet kind index complement payload first second).load ctx) rest := by
  have body : recvLoop (receiving ctx kind index [kind.code, index, complement])
      ((payload ++ [first]) ++ (second :: rest)) =
      .finished
        ((Frame.packet kind index complement payload first second).load ctx) rest := by
    rw [recvLoop_receiving_append _ _ _ _ _ (by simp) (by simp [complete]; omega)]
    exact recvLoop_receiving_last ctx kind index complement first second payload rest
      complete
  simp only [Frame.bytes, List.cons_append]
  rw [ymodemRecvPacket_code, recvLoop_receiving_index, recvLoop_receiving_complement,
    if_neg (not_not.mpr disjoint)]
  simpa using body

/-- One call of `YmodemRecvPacket` consumes the next frame of the line and loads it. -/
theorem ymodemRecvPacket_eq_load (ctx : YmodemCtx) {line rest : List UInt8}
    {frame : Frame} (cut : Frame.split line = some (frame, rest)) :
    ymodemRecvPacket ctx line = .finished (frame.load ctx) rest := by
  rcases Frame.eq_bytes_append_of_split cut with ⟨wf, rfl⟩
  cases frame with
  | single byte => exact ymodemRecvPacket_single ctx rest wf
  | broken kind index complement =>
      have shared : index &&& complement ≠ 0 := wf
      simp only [Frame.bytes, List.cons_append, List.nil_append]
      rw [ymodemRecvPacket_code, recvLoop_receiving_index,
        recvLoop_receiving_complement, if_pos shared]
  | packet kind index complement payload first second =>
      exact ymodemRecvPacket_packet ctx kind first second rest wf.1 wf.2

/-- While the next frame is incomplete, the call is blocked. -/
theorem ymodemRecvPacket_blocked (ctx : YmodemCtx) {line : List UInt8}
    (cut : Frame.split line = none) :
    ∃ waiting, ymodemRecvPacket ctx line = .blocked waiting := by
  cases line with
  | nil => exact ⟨_, rfl⟩
  | cons byte line =>
      simp only [Frame.split] at cut
      cases starts : PacketKind.ofCode? byte with
      | none => simp [starts] at cut
      | some kind =>
          have codeEq := PacketKind.code_of_ofCode? starts
          subst byte
          simp only [starts] at cut
          rw [ymodemRecvPacket_code]
          rcases line with _ | ⟨index, _ | ⟨complement, body⟩⟩
          · exact ⟨_, rfl⟩
          · rw [recvLoop_receiving_index]
            exact ⟨_, rfl⟩
          · by_cases disjoint : index &&& complement = 0
            · simp only [disjoint, ne_eq, not_true_eq_false, if_false] at cut
              have short : body.length ≤ kind.size + 1 := by
                rcases tail : body.drop kind.size with _ | ⟨first, _ | ⟨second, after⟩⟩
                · have tailLength := congrArg List.length tail
                  simp at tailLength
                  omega
                · have tailLength := congrArg List.length tail
                  simp at tailLength
                  omega
                · simp [tail] at cut
              rw [recvLoop_receiving_index, recvLoop_receiving_complement,
                if_neg (not_not.mpr disjoint)]
              have stored := recvLoop_receiving_append ctx kind index body []
                (by simp : rymPacketHeader ≤ [kind.code, index, complement].length)
                (by simp; omega)
              rw [List.append_nil] at stored
              rw [stored]
              exact ⟨_, rfl⟩
            · simp [disjoint] at cut

end SunWise.Ymodem
