import SunWise.Can.Driver

/-!
# CAN frames

The identifier of a frame is shifted up to its place in the bytes of the frame, and the data
follows it.  Reading a frame undoes this.  The length of a frame that is written is limited
to eight, while the length of one that is read is what its four bits say.
-/

namespace SunWise.Can

open Library

section Bytes

variable (word : BitVec 32)

theorem join_two : (byteOf word 1 <<< 8) ||| byteOf word 0 = word &&& 0xffff := by
  apply BitVec.eq_of_getLsbD_eq
  intro bit inside
  have ones : (0xffff : BitVec 32).getLsbD bit = (decide (bit < 32) && decide (bit < 16)) :=
    getLsbD_lowOnes 16 bit
  rw [BitVec.getLsbD_or, BitVec.getLsbD_shiftLeft, BitVec.getLsbD_and, getLsbD_byteOf,
    getLsbD_byteOf, ones]
  by_cases low : bit < 8
  · simp [low, inside, Nat.lt_trans low (by decide : 8 < 16)]
  · have place : 8 * 1 + (bit - 8) = bit := by omega
    have range : decide (bit - 8 < 8) = decide (bit < 16) := by
      rw [decide_eq_decide]
      omega
    simp [low, place, range, inside, Bool.and_comm]

theorem join_four :
    (byteOf word 3 <<< 24) ||| (byteOf word 2 <<< 16) ||| (byteOf word 1 <<< 8) |||
      byteOf word 0 = word := by
  apply BitVec.eq_of_getLsbD_eq
  intro bit inside
  simp only [BitVec.getLsbD_or, BitVec.getLsbD_shiftLeft, getLsbD_byteOf, inside]
  by_cases first : bit < 8
  · simp [first, Nat.lt_trans first (by decide : 8 < 16),
      Nat.lt_trans first (by decide : 8 < 24)]
  by_cases second : bit < 16
  · have place : 8 * 1 + (bit - 8) = bit := by omega
    have range : bit - 8 < 8 := by omega
    simp [first, second, place, range, Nat.lt_trans second (by decide : 16 < 24)]
  by_cases third : bit < 24
  · have place : 8 * 2 + (bit - 16) = bit := by omega
    have range : bit - 16 < 8 := by omega
    have above : ¬ bit - 8 < 8 := by omega
    simp [first, second, third, place, range, above]
  · have place : 8 * 3 + (bit - 24) = bit := by omega
    have range : bit - 24 < 8 := by omega
    have above : ¬ bit - 8 < 8 ∧ ¬ bit - 16 < 8 := by omega
    simp [first, second, third, place, range, above]

theorem shift_back {shift width : Nat} (fits : word.toNat < 2 ^ width)
    (room : shift + width ≤ 32) : (word <<< shift) >>> shift = word := by
  apply BitVec.eq_of_toNat_eq
  have bound : word.toNat * 2 ^ shift < 2 ^ 32 := by
    calc word.toNat * 2 ^ shift < 2 ^ width * 2 ^ shift :=
          Nat.mul_lt_mul_of_pos_right fits (Nat.two_pow_pos shift)
      _ = 2 ^ (shift + width) := by rw [← Nat.pow_add, Nat.add_comm]
      _ ≤ 2 ^ 32 := Nat.pow_le_pow_right (by decide) room
  rw [BitVec.toNat_ushiftRight, BitVec.toNat_shiftLeft, Nat.shiftLeft_eq,
    Nat.mod_eq_of_lt bound, Nat.shiftRight_eq_div_pow,
    Nat.mul_div_cancel _ (Nat.two_pow_pos shift)]

end Bytes

/-- A bit of `SR` will be set. -/
def Signals (can : CanTypeDef) (position : Nat) : Prop :=
  ∃ read, (can.sr read).getLsbD position = true

/-- A loop that waits for a bit that will be set ends. -/
theorem waitStatus_signals {position : Nat} {can : CanTypeDef}
    (signals : Signals can position) :
    ∃ least later, ∀ reads, least ≤ reads →
      waitStatus position reads can = some { can with sr := later } := by
  rcases signals with ⟨read, isSet⟩
  induction read generalizing can with
  | zero =>
      refine ⟨1, fun read => can.sr (read + 1), ?_⟩
      intro reads enough
      obtain ⟨more, rfl⟩ := Nat.exists_eq_add_of_le' enough
      rw [waitStatus]
      exact if_pos isSet
  | succ read ih =>
      have next : (({ can with sr := fun read => can.sr (read + 1) } : CanTypeDef).sr
          read).getLsbD position = true := isSet
      by_cases now : (can.sr 0).getLsbD position = true
      · refine ⟨1, fun read => can.sr (read + 1), ?_⟩
        intro reads enough
        obtain ⟨more, rfl⟩ := Nat.exists_eq_add_of_le' enough
        rw [waitStatus]
        exact if_pos now
      · rcases ih next with ⟨least, later, returns⟩
        refine ⟨least + 1, later, ?_⟩
        intro reads enough
        obtain ⟨more, rfl⟩ := Nat.exists_eq_add_of_le' (Nat.le_trans (Nat.le_add_left 1 least)
          enough)
        rw [waitStatus]
        refine (if_neg now).trans ?_
        exact returns more (Nat.le_of_succ_le_succ enough)

theorem waitStatus_some {position reads : Nat} {can after : CanTypeDef}
    (returns : waitStatus position reads can = some after) :
    ∃ later, after = { can with sr := later } := by
  induction reads generalizing can with
  | zero => exact absurd returns (Option.some_ne_none after).symm
  | succ reads ih =>
      rw [waitStatus] at returns
      split at returns
      · exact ⟨_, (Option.some.inj returns).symm⟩
      · rcases ih returns with ⟨later, rfl⟩
        exact ⟨later, rfl⟩

/-! ## Round trip -/

/-- The words of a frame in the transmit buffer are in the receive buffer. -/
structure Loopback (sent received : CanTypeDef) : Prop where
  info : received.rfi = sent.tfi
  words : ∀ index < 12, received.rdi index = sent.tdi index

/-- What `HW_CAN_WriteBlock` leaves in the transmit buffer. -/
structure Holds (sent : CanTypeDef) (format : CanFormat) (id : BitVec 32)
    (data : List (BitVec 8)) : Prop where
  info : sent.tfi = frameInfo format data.length
  words : load sent.tdi 0 ((idBytes format id).length + data.length) =
    idBytes format id ++ data.map (BitVec.setWidth 32)

theorem frameInfo_fields (format : CanFormat) {length : Nat} (short : length ≤ 8) :
    (frameInfo format length &&& 0xf).toNat = length ∧
      (frameInfo format length).getLsbD canTdiFfPos = decide (format = .extend) := by
  have below : length < 9 := Nat.lt_succ_of_le short
  cases format with
  | standard => revert length; decide
  | extend => revert length; decide

theorem Holds.data {sent : CanTypeDef} {format : CanFormat} {id : BitVec 32}
    {data : List (BitVec 8)} (holds : Holds sent format id data) {count : Nat}
    (fits : count ≤ data.length) :
    (load sent.tdi (idBytes format id).length count).map (BitVec.setWidth 8) =
      data.take count := by
  have part : load sent.tdi (0 + (idBytes format id).length) count =
      ((load sent.tdi 0 ((idBytes format id).length + data.length)).drop
        (idBytes format id).length).take count :=
    (take_drop_load _ _ (Nat.add_le_add_left fits _)).symm
  rw [Nat.zero_add] at part
  rw [part, holds.words, List.drop_left, ← List.map_take, List.map_map]
  apply List.map_id''
  intro byte
  exact BitVec.setWidth_setWidth_of_le byte (by decide)

theorem Holds.word {sent : CanTypeDef} {format : CanFormat} {id : BitVec 32}
    {data : List (BitVec 8)} (holds : Holds sent format id data) {index : Nat} {word : BitVec 32}
    (entry : (idBytes format id)[index]? = some word) : sent.tdi index = word := by
  rcases List.getElem?_eq_some_iff.mp entry with ⟨inside, -⟩
  have loaded := load_getElem? sent.tdi 0
    (Nat.lt_of_lt_of_le inside (Nat.le_add_right _ data.length))
  rw [holds.words, List.getElem?_append_left inside, entry, Nat.zero_add] at loaded
  exact (Option.some.inj loaded).symm

theorem writeFrame_holds (can : CanTypeDef) (format : CanFormat) (id : BitVec 32)
    (txbuf : Nat → BitVec 8) (length : Nat) :
    Holds (writeFrame can format id txbuf length) format id (load txbuf 0 length) := by
  have total : (idBytes format id ++ (load txbuf 0 length).map (BitVec.setWidth 32)).length =
      (idBytes format id).length + (load txbuf 0 length).length := by
    rw [List.length_append, List.length_map]
  constructor
  · rw [load_length]
    rfl
  · rw [← total, writeFrame]
    dsimp only
    rw [load_store_self]

/-- A frame that is written, with as many of the bytes as fit. -/
theorem hwCanWriteBlock_holds {can : CanTypeDef} (ready : Signals can canSrTbsPos)
    (format : CanFormat) (id : BitVec 32) (txbuf : Nat → BitVec 8) (length : Nat) :
    ∃ least sent, (∀ reads, least ≤ reads →
        hwCanWriteBlock reads can format id txbuf length = some (min length 8, sent)) ∧
      Holds sent format id (load txbuf 0 (min length 8)) := by
  have waiting : Signals (leaveReset can) canSrTbsPos := ready
  rcases waitStatus_signals waiting with ⟨least, later, returns⟩
  refine ⟨least, _, ?_, writeFrame_holds { leaveReset can with sr := later } format id txbuf _⟩
  intro reads enough
  rw [hwCanWriteBlock, returns reads enough]

theorem hwCanReadBlock_frame {reads length : Nat} {can after : CanTypeDef} {frame : CanRead}
    (result : hwCanReadBlock reads can length = some (frame, after)) :
    frame = readFrame can length := by
  rw [hwCanReadBlock] at result
  split at result
  · exact absurd result (Option.some_ne_none _).symm
  next arrived =>
    rcases waitStatus_some arrived with ⟨later, rfl⟩
    exact (Prod.ext_iff.mp (Option.some.inj result)).1.symm

theorem hwCanReadBlock_returns {can : CanTypeDef} (ready : Signals can canSrRbsPos)
    (length : Nat) :
    ∃ least after, ∀ reads, least ≤ reads →
      hwCanReadBlock reads can length = some (readFrame can length, after) := by
  have waiting : Signals (leaveReset can) canSrRbsPos := ready
  rcases waitStatus_signals waiting with ⟨least, later, returns⟩
  refine ⟨least, { leaveReset can with sr := later, cmr := bit canCmrRrbPos }, ?_⟩
  intro reads enough
  rw [hwCanReadBlock, returns reads enough]
  rfl

/-- Reading a frame that was written gives its format, its identifier and its bytes. -/
theorem readFrame_loopback {sent received : CanTypeDef} {format : CanFormat} {id : BitVec 32}
    {data : List (BitVec 8)} (holds : Holds sent format id data) (short : data.length ≤ 8)
    (inRange : id.toNat < 2 ^ idWidth format) (loopback : Loopback sent received)
    (length : Nat) :
    readFrame received length = ⟨min length data.length, format, id, data.take length⟩ := by
  rcases frameInfo_fields format short with ⟨dlc, ff⟩
  have fits : min length data.length ≤ data.length := Nat.min_le_right _ _
  have bytes : ∀ offset, offset = (idBytes format id).length →
      (load received.rdi offset (min length data.length)).map (BitVec.setWidth 8) =
        data.take length := by
    rintro offset rfl
    have same : load received.rdi (idBytes format id).length (min length data.length) =
        load sent.tdi (idBytes format id).length (min length data.length) := by
      rw [load_eq_load_iff]
      intro index inside
      refine loopback.words _ ?_
      cases format with
      | standard => exact Nat.lt_of_lt_of_le (Nat.add_lt_add_left inside 2) (by omega)
      | extend => exact Nat.lt_of_lt_of_le (Nat.add_lt_add_left inside 4) (by omega)
    rw [same, holds.data fits, ← List.take_take, List.take_length]
  have zero_or (word : BitVec 32) : 0 ||| word = word := BitVec.zero_or
  rw [readFrame, loopback.info, holds.info, dlc, ff]
  cases format with
  | standard =>
      have first : received.rdi 0 = byteOf (id <<< 5) 1 :=
        (loopback.words 0 (by decide)).trans (holds.word rfl)
      have second : received.rdi 1 = byteOf (id <<< 5) 0 :=
        (loopback.words 1 (by decide)).trans (holds.word rfl)
      have whole : ((id <<< 5) &&& 0xffff) >>> 5 = id := by
        apply BitVec.eq_of_toNat_eq
        have inside : id.toNat < 2 ^ 11 := inRange
        have low : (0xffff : BitVec 32).toNat = 2 ^ 16 - 1 := rfl
        rw [BitVec.toNat_ushiftRight, BitVec.toNat_and, BitVec.toNat_shiftLeft, low,
          Nat.and_two_pow_sub_one_eq_mod, Nat.shiftLeft_eq, Nat.shiftRight_eq_div_pow]
        omega
      refine (if_pos (by decide)).trans ?_
      dsimp only
      rw [first, second, zero_or, join_two, whole, bytes 2 rfl]
  | extend =>
      have first : received.rdi 0 = byteOf (id <<< 3) 3 :=
        (loopback.words 0 (by decide)).trans (holds.word rfl)
      have second : received.rdi 1 = byteOf (id <<< 3) 2 :=
        (loopback.words 1 (by decide)).trans (holds.word rfl)
      have third : received.rdi 2 = byteOf (id <<< 3) 1 :=
        (loopback.words 2 (by decide)).trans (holds.word rfl)
      have fourth : received.rdi 3 = byteOf (id <<< 3) 0 :=
        (loopback.words 3 (by decide)).trans (holds.word rfl)
      have whole : (id <<< 3) >>> 3 = id := shift_back id inRange (by decide)
      refine (if_neg (by decide)).trans ?_
      dsimp only
      rw [first, second, third, fourth, zero_or, join_four, whole, bytes 4 rfl]

/-- A frame that is written and looped back is read with its format, its identifier and the
bytes that fit. -/
def RoundTrips (can : CanTypeDef) (format : CanFormat) (id : BitVec 32) (txbuf : Nat → BitVec 8)
    (length readLength : Nat) : Prop :=
  ∃ least sent, (∀ reads, least ≤ reads →
      hwCanWriteBlock reads can format id txbuf length = some (min length 8, sent)) ∧
    ∀ received, Loopback sent received → Signals received canSrRbsPos →
      ∃ least after, ∀ reads, least ≤ reads →
        hwCanReadBlock reads received readLength =
          some (⟨min (min length 8) readLength, format, id,
            load txbuf 0 (min (min length 8) readLength)⟩, after)

theorem roundTrips {can : CanTypeDef} (ready : Signals can canSrTbsPos) {format : CanFormat}
    {id : BitVec 32} (inRange : id.toNat < 2 ^ idWidth format) (txbuf : Nat → BitVec 8)
    (length readLength : Nat) : RoundTrips can format id txbuf length readLength := by
  rcases hwCanWriteBlock_holds ready format id txbuf length with ⟨least, sent, returns, holds⟩
  refine ⟨least, sent, returns, ?_⟩
  intro received loopback arrived
  have short : (load txbuf 0 (min length 8)).length ≤ 8 := by
    rw [load_length]
    exact Nat.min_le_right _ _
  have frame := readFrame_loopback holds short inRange loopback readLength
  rw [load_length, ← load_min, Nat.min_comm readLength] at frame
  rw [← frame]
  exact hwCanReadBlock_returns arrived readLength

/-- What is read of a frame is no more than the eight bytes that a frame can carry. -/
def CopiesAtMostEight (received : CanTypeDef) (length : Nat) : Prop :=
  ∀ reads frame after, hwCanReadBlock reads received length = some (frame, after) →
    frame.rxbuf.length ≤ 8

theorem readFrame_length (received : CanTypeDef) (length : Nat) :
    (readFrame received length).rxbuf.length = min length (received.rfi &&& 0xf).toNat := by
  rw [readFrame]
  split
  · simp
  · simp

/-- The codec does what it should exactly when the length in the frame information, or the
length that is asked for, is at most eight. -/
theorem hwCan_codec_iff {can received : CanTypeDef} {format : CanFormat} {id : BitVec 32}
    (ready : Signals can canSrTbsPos) (inRange : id.toNat < 2 ^ idWidth format)
    (arrived : Signals received canSrRbsPos) (txbuf : Nat → BitVec 8)
    (length readLength otherLength : Nat) :
    (RoundTrips can format id txbuf length readLength ∧
        CopiesAtMostEight received otherLength) ↔
      (received.rfi &&& 0xf).toNat ≤ 8 ∨ otherLength ≤ 8 := by
  rcases hwCanReadBlock_returns arrived otherLength with ⟨least, after, returns⟩
  constructor
  · rintro ⟨-, copies⟩
    have bound := copies least _ after (returns least (Nat.le_refl _))
    rw [readFrame_length] at bound
    omega
  · intro small
    refine ⟨roundTrips ready inRange txbuf length readLength, ?_⟩
    intro reads frame final result
    rw [hwCanReadBlock_frame result, readFrame_length]
    omega

/-- A controller whose buffers are ready, with a frame information in the receive buffer. -/
def readyCan (rfi : BitVec 32) : CanTypeDef where
  mod := 0
  cmr := 0
  sr _ := 0x5
  ier := 0
  btr0 := 0
  btr1 := 0
  ocr := 0
  cdr := 0
  tfi := 0
  tdi _ := 0
  rfi
  rdi _ := 0
  acr _ := 0
  amr _ := 0

theorem hwCan_codec_extend :
    (RoundTrips (readyCan 0) .extend 0x1abcdef0 (fun index => BitVec.ofNat 8 index) 12 5 ∧
        CopiesAtMostEight (readyCan 0x88) 20) ↔
      ((readyCan 0x88).rfi &&& 0xf).toNat ≤ 8 ∨ 20 ≤ 8 :=
  hwCan_codec_iff ⟨0, rfl⟩ (by decide) ⟨0, rfl⟩ _ 12 5 20

/-- A frame whose length bits say fifteen, read into a buffer of as many bytes. -/
theorem hwCanReadBlock_copies_fifteen : ¬ CopiesAtMostEight (readyCan 0x0f) 15 := by
  intro copies
  have read : hwCanReadBlock 1 (readyCan 0x0f) 15 = some (readFrame (readyCan 0x0f) 15,
      { leaveReset (readyCan 0x0f) with
        sr := fun read => (readyCan 0x0f).sr (read + 1)
        cmr := bit canCmrRrbPos }) := rfl
  exact absurd (copies 1 _ _ read) (by decide)

end SunWise.Can
