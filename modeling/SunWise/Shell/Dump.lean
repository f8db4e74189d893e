import Mathlib.Algebra.Ring.Nat
import SunWise.Shell.Editor

/-!
# Dumping memory

`_ShellCommandDumpMemory` of `xshell_command.c`, with the text that `xprintf` makes.  The end
of the last row is computed with 32 bits: it wraps around to zero when it is the end of the
address space, and then no row is printed.
-/

namespace SunWise.Shell

open Library

/-- A digit of `%x`. -/
def hexDigit (d : Nat) : UInt8 :=
  if d > 9 then UInt8.ofNat (d + 0x27) + '0'.toUInt8 else UInt8.ofNat d + '0'.toUInt8

/-- The digits of `v`, in a buffer with room for as many as `size`. -/
def hexDigits : Nat → Nat → List UInt8
  | 0, _ => []
  | size + 1, v => (if v / 16 = 0 then [] else hexDigits size (v / 16)) ++ [hexDigit (v % 16)]

/-- `%0` with a width and `x`. -/
def hexText (w : Nat) (v : UInt32) : List UInt8 :=
  let s := hexDigits 16 v.toNat
  List.replicate (w - s.length) '0'.toUInt8 ++ s

/-- `isprint`. -/
def isPrint (byte : UInt8) : Bool :=
  0x20 ≤ byte ∧ byte ≤ 0x7e

/-- The character between two columns. -/
def columnSeparator (i : Nat) : UInt8 :=
  if i % 16 = 8 then '-'.toUInt8 else ' '.toUInt8

/-- The first line. -/
def dumpHeader : List UInt8 :=
  ascii "        " ++
    (List.range 16).flatMap (fun i => columnSeparator i :: hexText 2 (UInt32.ofNat i)) ++
    ascii "\n"

/-- The variables of `_ShellCommandDumpMemory`, what it has read, and what it has printed.
Each read address stands behind the address that is displayed for it. -/
structure DumpState where
  uinAddress : UInt32
  aui8Data : Nat → UInt8
  aui8Mask : Nat → UInt8
  reads : List (UInt32 × UInt32)
  output : List UInt8

namespace DumpState

variable (memory : UInt32 → UInt8) (uinAddressForDisplay uinLength i : UInt32)
  (state : DumpState)

def print (text : List UInt8) : DumpState :=
  { state with output := state.output ++ text }

/-- The column of an address, which is read if there is a byte for it. -/
def column : DumpState :=
  let index := (i % 16).toNat
  if i ≥ uinAddressForDisplay ∧ i < uinAddressForDisplay + uinLength then
    let data := memory state.uinAddress
    { state with
      uinAddress := state.uinAddress + 1
      aui8Data := Function.update state.aui8Data index data
      aui8Mask := Function.update state.aui8Mask index 1
      reads := state.reads ++ [(i, state.uinAddress)]
      output := state.output ++ columnSeparator index :: hexText 2 data.toUInt32 }
  else
    { state with
      aui8Data := Function.update state.aui8Data index 0
      aui8Mask := Function.update state.aui8Mask index 0
      output := state.output ++ ascii "   " }

/-- The characters at the end of a row. -/
def characters : List UInt8 :=
  (List.range 16).map fun i =>
    if state.aui8Mask i = 1 then
      if isPrint (state.aui8Data i) then state.aui8Data i else '.'.toUInt8
    else ' '.toUInt8

/-- A turn of the loop. -/
def step : DumpState :=
  let state := if i % 16 = 0 then state.print (hexText 8 i) else state
  let state := state.column memory uinAddressForDisplay uinLength i
  if i % 16 = 15 then
    ((state.print (ascii " ")).print state.characters).print (ascii "\n")
  else state

end DumpState

/-- The loop over the addresses that are displayed. -/
def dumpLoop (memory : UInt32 → UInt8) (uinAddressForDisplay uinLength uinEnd i : UInt32)
    (state : DumpState) : DumpState :=
  if i < uinEnd then
    dumpLoop memory uinAddressForDisplay uinLength uinEnd (i + 1)
      (state.step memory uinAddressForDisplay uinLength i)
  else state
termination_by uinEnd.toNat - i.toNat
decreasing_by
  rename_i more
  have less : i.toNat < uinEnd.toNat := more
  have inside := uinEnd.toNat_lt
  rw [UInt32.toNat_add, UInt32.toNat_one, Nat.mod_eq_of_lt (by omega)]
  omega

/-- `_ShellCommandDumpMemory`. -/
def shellCommandDumpMemory (memory : UInt32 → UInt8)
    (uinAddressForDisplay uinAddress uinLength : UInt32) : DumpState :=
  let uinStart := uinAddressForDisplay / 16 * 16
  let uinEnd := (uinAddressForDisplay + uinLength + 15) / 16 * 16
  dumpLoop memory uinAddressForDisplay uinLength uinEnd uinStart
    ⟨uinAddress, fun _ => 0, fun _ => 0, [], dumpHeader⟩

section Layout

variable (memory : UInt32 → UInt8) (uinAddressForDisplay uinAddress uinLength : UInt32)

/-- The byte that is displayed at an address, if there is one. -/
def dumpedByte (address : Nat) : Option UInt8 :=
  if uinAddressForDisplay.toNat ≤ address ∧
      address < uinAddressForDisplay.toNat + uinLength.toNat then
    some (memory (uinAddress + UInt32.ofNat (address - uinAddressForDisplay.toNat)))
  else none

/-- The byte of a column in hexadecimal, or blanks. -/
def hexColumn (column : Nat) : Option UInt8 → List UInt8
  | some byte => columnSeparator column :: hexText 2 byte.toUInt32
  | none => ascii "   "

/-- The byte of a column as a character, or a blank. -/
def charColumn : Option UInt8 → UInt8
  | some byte => if isPrint byte then byte else '.'.toUInt8
  | none => ' '.toUInt8

/-- The first columns of a row. -/
def hexColumns (base count : Nat) : List UInt8 :=
  (List.range count).flatMap fun column =>
    hexColumn column
      (dumpedByte memory uinAddressForDisplay uinAddress uinLength (base + column))

/-- The row of sixteen addresses. -/
def dumpRow (base : Nat) : List UInt8 :=
  hexText 8 (UInt32.ofNat base) ++
    hexColumns memory uinAddressForDisplay uinAddress uinLength base 16 ++ ascii " " ++
    (List.range 16).map (fun column =>
      charColumn
        (dumpedByte memory uinAddressForDisplay uinAddress uinLength (base + column))) ++
    ascii "\n"

/-- Every byte is read once, in ascending order, and is printed at its address: in the row of
the address, at its column. The rows are in ascending order, and have no other bytes. -/
structure Dumps (state : DumpState) : Prop where
  reads : state.reads = (List.range uinLength.toNat).map fun offset =>
    (uinAddressForDisplay + UInt32.ofNat offset, uinAddress + UInt32.ofNat offset)
  output : ∃ bases : List Nat, bases.Pairwise (· < ·) ∧
    (∀ base ∈ bases, base % 16 = 0 ∧ base < 2 ^ 32) ∧
    (∀ address, uinAddressForDisplay.toNat ≤ address →
      address < uinAddressForDisplay.toNat + uinLength.toNat →
      address - address % 16 ∈ bases) ∧
    state.output = dumpHeader ++
      bases.flatMap (dumpRow memory uinAddressForDisplay uinAddress uinLength)

end Layout

/-! ## Rows -/

section Rows

variable {memory : UInt32 → UInt8} {uinAddressForDisplay uinAddress uinLength : UInt32}

/-- What has been read in front of a column, and the bytes of the row that are kept. -/
structure Reading (memory : UInt32 → UInt8)
    (uinAddressForDisplay uinAddress uinLength : UInt32) (base column : Nat)
    (state : DumpState) : Prop where
  address : state.uinAddress = uinAddress +
    UInt32.ofNat (min (base + column - uinAddressForDisplay.toNat) uinLength.toNat)
  reads : state.reads =
    (List.range (min (base + column - uinAddressForDisplay.toNat) uinLength.toNat)).map
      fun offset =>
        (uinAddressForDisplay + UInt32.ofNat offset, uinAddress + UInt32.ofNat offset)
  cells : ∀ before < column,
    (if state.aui8Mask before = 1 then some (state.aui8Data before) else none) =
      dumpedByte memory uinAddressForDisplay uinAddress uinLength (base + before)

/-- The part of a row that is in front of a column. -/
def rowFront (memory : UInt32 → UInt8) (uinAddressForDisplay uinAddress uinLength : UInt32)
    (base column : Nat) : List UInt8 :=
  if column = 0 then []
  else hexText 8 (UInt32.ofNat base) ++
    hexColumns memory uinAddressForDisplay uinAddress uinLength base column

theorem hexColumns_succ (base column : Nat) :
    hexColumns memory uinAddressForDisplay uinAddress uinLength base (column + 1) =
      hexColumns memory uinAddressForDisplay uinAddress uinLength base column ++
        hexColumn column
          (dumpedByte memory uinAddressForDisplay uinAddress uinLength (base + column)) := by
  rw [hexColumns, List.range_succ, List.flatMap_append, List.flatMap_singleton]
  rfl

section Turn

variable {base column : Nat} {state : DumpState}

theorem Reading.print
    (reading : Reading memory uinAddressForDisplay uinAddress uinLength base column state)
    (text : List UInt8) :
    Reading memory uinAddressForDisplay uinAddress uinLength base column (state.print text) :=
  ⟨reading.address, reading.reads, reading.cells⟩

theorem cells_update {data mask : UInt8} {byte : Option UInt8}
    (reading : Reading memory uinAddressForDisplay uinAddress uinLength base column state)
    (isByte : dumpedByte memory uinAddressForDisplay uinAddress uinLength (base + column) = byte)
    (cell : (if mask = 1 then some data else none) = byte) :
    ∀ before < column + 1,
      (if Function.update state.aui8Mask column mask before = 1 then
        some (Function.update state.aui8Data column data before)
      else none) =
        dumpedByte memory uinAddressForDisplay uinAddress uinLength (base + before) := by
  intro before isBefore
  rcases Nat.lt_succ_iff_lt_or_eq.mp isBefore with earlier | rfl
  · rw [Function.update_of_ne (Nat.ne_of_lt earlier), Function.update_of_ne (Nat.ne_of_lt earlier)]
    exact reading.cells before earlier
  · rw [Function.update_self, Function.update_self, isByte]
    exact cell

/-- The index of an address is its column in the row. -/
theorem toNat_mod_sixteen {i : UInt32} {base column : Nat} (isAddress : i.toNat = base + column)
    (aligned : base % 16 = 0) (inRow : column < 16) : (i % 16).toNat = column := by
  rw [UInt32.toNat_mod, isAddress]
  show (base + column) % 16 = column
  omega

/-- The column of an address is read and printed. -/
theorem Reading.next {i : UInt32}
    (ends : uinAddressForDisplay.toNat + uinLength.toNat < 2 ^ 32)
    (isAddress : i.toNat = base + column) (aligned : base % 16 = 0) (inRow : column < 16)
    (reading : Reading memory uinAddressForDisplay uinAddress uinLength base column state) :
    Reading memory uinAddressForDisplay uinAddress uinLength base (column + 1)
        (state.column memory uinAddressForDisplay uinLength i) ∧
      (state.column memory uinAddressForDisplay uinLength i).output = state.output ++
        hexColumn column
          (dumpedByte memory uinAddressForDisplay uinAddress uinLength (base + column)) := by
  have index := toNat_mod_sixteen isAddress aligned inRow
  have test : (i ≥ uinAddressForDisplay ∧ i < uinAddressForDisplay + uinLength) ↔
      uinAddressForDisplay.toNat ≤ base + column ∧
        base + column < uinAddressForDisplay.toNat + uinLength.toNat := by
    rw [ge_iff_le, UInt32.le_iff_toNat_le, UInt32.lt_iff_toNat_lt, UInt32.toNat_add,
      Nat.mod_eq_of_lt ends, isAddress]
  unfold DumpState.column
  simp only [index, test]
  split
  next inside =>
    obtain ⟨after, before⟩ := inside
    have now : min (base + column - uinAddressForDisplay.toNat) uinLength.toNat =
        base + column - uinAddressForDisplay.toNat := by omega
    have next : min (base + (column + 1) - uinAddressForDisplay.toNat) uinLength.toNat =
        base + column - uinAddressForDisplay.toNat + 1 := by omega
    have isByte : dumpedByte memory uinAddressForDisplay uinAddress uinLength (base + column) =
        some (memory state.uinAddress) := by
      rw [dumpedByte, if_pos ⟨after, before⟩, reading.address, now]
    constructor
    · constructor
      · rw [next, reading.address, now, UInt32.ofNat_add, ← UInt32.add_assoc]
        rfl
      · rw [next, List.range_succ, List.map_append, reading.reads, now, reading.address, now]
        have displayed : i = uinAddressForDisplay +
            UInt32.ofNat (base + column - uinAddressForDisplay.toNat) := by
          have small := i.toNat_lt
          rw [← UInt32.toNat_inj, UInt32.toNat_add, UInt32.toNat_ofNat', isAddress]
          omega
        rw [displayed]
        rfl
      · exact cells_update reading isByte rfl
    · rw [isByte]
      rfl
  next outside =>
    have same : min (base + (column + 1) - uinAddressForDisplay.toNat) uinLength.toNat =
        min (base + column - uinAddressForDisplay.toNat) uinLength.toNat := by omega
    have isNone : dumpedByte memory uinAddressForDisplay uinAddress uinLength (base + column) =
        none := by
      rw [dumpedByte, if_neg outside]
    constructor
    · constructor
      · rw [same]
        exact reading.address
      · rw [same]
        exact reading.reads
      · exact cells_update reading isNone rfl
    · rw [isNone]
      rfl

/-- Behind the last column of a row, the kept bytes are those of the row. -/
theorem Reading.characters
    (reading : Reading memory uinAddressForDisplay uinAddress uinLength base 16 state) :
    state.characters = (List.range 16).map fun column =>
      charColumn
        (dumpedByte memory uinAddressForDisplay uinAddress uinLength (base + column)) := by
  apply List.map_congr_left
  intro column isColumn
  rw [← reading.cells column (List.mem_range.mp isColumn)]
  split <;> rfl

theorem Reading.step {i : UInt32}
    (ends : uinAddressForDisplay.toNat + uinLength.toNat < 2 ^ 32)
    (isAddress : i.toNat = base + column) (aligned : base % 16 = 0) (inRow : column < 16)
    (reading : Reading memory uinAddressForDisplay uinAddress uinLength base column state)
    {printed : List UInt8}
    (output : state.output = printed ++
      rowFront memory uinAddressForDisplay uinAddress uinLength base column) :
    Reading memory uinAddressForDisplay uinAddress uinLength base (column + 1)
        (state.step memory uinAddressForDisplay uinLength i) ∧
      (state.step memory uinAddressForDisplay uinLength i).output = printed ++
        if column = 15 then dumpRow memory uinAddressForDisplay uinAddress uinLength base
        else rowFront memory uinAddressForDisplay uinAddress uinLength base (column + 1) := by
  have index := toNat_mod_sixteen isAddress aligned inRow
  have isFirst : i % 16 = 0 ↔ column = 0 := by
    rw [← UInt32.toNat_inj, index]
    rfl
  have isLast : i % 16 = 15 ↔ column = 15 := by
    rw [← UInt32.toNat_inj, index]
    rfl
  obtain ⟨labelled, isLabelled⟩ : ∃ labelled, labelled =
      if i % 16 = 0 then state.print (hexText 8 i) else state := ⟨_, rfl⟩
  have inside : Reading memory uinAddressForDisplay uinAddress uinLength base column labelled := by
    rw [isLabelled]
    split
    next => exact reading.print _
    next => exact reading
  have label : labelled.output = printed ++ hexText 8 (UInt32.ofNat base) ++
      hexColumns memory uinAddressForDisplay uinAddress uinLength base column := by
    rw [isLabelled]
    split
    next first =>
      obtain rfl := isFirst.mp first
      have isBase : i = UInt32.ofNat base := by
        rw [← isAddress.trans (Nat.add_zero base), UInt32.ofNat_toNat]
      rw [DumpState.print, output, isBase]
      simp [rowFront, hexColumns]
    next later =>
      rw [output, rowFront, if_neg (isFirst.not.mp later), List.append_assoc]
  obtain ⟨read, shown⟩ := inside.next ends isAddress aligned inRow
  rw [label, List.append_assoc, ← hexColumns_succ] at shown
  unfold DumpState.step
  simp only [← isLabelled, isLast]
  split
  next last =>
    subst last
    refine ⟨((read.print _).print _).print _, ?_⟩
    simp only [DumpState.print, shown, Reading.characters read, dumpRow, List.append_assoc]
  next =>
    refine ⟨read, ?_⟩
    rw [shown, rowFront, if_neg (Nat.succ_ne_zero column), List.append_assoc]

end Turn

/-- Turns for consecutive addresses. -/
def dumpTurns (memory : UInt32 → UInt8) (uinAddressForDisplay uinLength : UInt32) (start : Nat)
    (count : Nat) (state : DumpState) : DumpState :=
  (List.range count).foldl
    (fun state turn =>
      state.step memory uinAddressForDisplay uinLength (UInt32.ofNat (start + turn)))
    state

theorem dumpTurns_add (start front back : Nat) (state : DumpState) :
    dumpTurns memory uinAddressForDisplay uinLength start (front + back) state =
      dumpTurns memory uinAddressForDisplay uinLength (start + front) back
        (dumpTurns memory uinAddressForDisplay uinLength start front state) := by
  simp only [dumpTurns, List.range_add, List.foldl_append, List.foldl_map, Nat.add_assoc]

theorem dumpLoop_eq {uinEnd : UInt32} {start count : Nat} (last : start + count = uinEnd.toNat)
    (state : DumpState) :
    dumpLoop memory uinAddressForDisplay uinLength uinEnd (UInt32.ofNat start) state =
      dumpTurns memory uinAddressForDisplay uinLength start count state := by
  have inside := uinEnd.toNat_lt
  induction count generalizing start state with
  | zero =>
      have ended : ¬ UInt32.ofNat start < uinEnd := by
        rw [UInt32.lt_iff_toNat_lt, UInt32.toNat_ofNat']
        omega
      rw [dumpLoop, if_neg ended]
      rfl
  | succ count ih =>
      have more : UInt32.ofNat start < uinEnd := by
        rw [UInt32.lt_iff_toNat_lt, UInt32.toNat_ofNat']
        omega
      have next : UInt32.ofNat start + 1 = UInt32.ofNat (start + 1) := by
        rw [UInt32.ofNat_add]
        rfl
      rw [dumpLoop, if_pos more, next, ih (by omega), Nat.add_comm count, dumpTurns_add]
      rfl

theorem Reading.row {base : Nat} {state : DumpState}
    (ends : uinAddressForDisplay.toNat + uinLength.toNat < 2 ^ 32)
    (aligned : base % 16 = 0) (fits : base + 16 ≤ 2 ^ 32)
    (reading : Reading memory uinAddressForDisplay uinAddress uinLength base 0 state) :
    let final := dumpTurns memory uinAddressForDisplay uinLength base 16 state
    Reading memory uinAddressForDisplay uinAddress uinLength (base + 16) 0 final ∧
      final.output = state.output ++
        dumpRow memory uinAddressForDisplay uinAddress uinLength base := by
  intro final
  have turns : ∀ count ≤ 16,
      Reading memory uinAddressForDisplay uinAddress uinLength base count
          (dumpTurns memory uinAddressForDisplay uinLength base count state) ∧
        (dumpTurns memory uinAddressForDisplay uinLength base count state).output =
          state.output ++
            if count = 16 then dumpRow memory uinAddressForDisplay uinAddress uinLength base
            else rowFront memory uinAddressForDisplay uinAddress uinLength base count := by
    intro count
    induction count with
    | zero => exact fun _ => ⟨reading, (List.append_nil _).symm⟩
    | succ count ih =>
        intro inRow
        obtain ⟨front, output⟩ := ih (Nat.le_of_succ_le inRow)
        rw [if_neg (Nat.ne_of_lt inRow)] at output
        have isAddress : (UInt32.ofNat (base + count)).toNat = base + count :=
          UInt32.toNat_ofNat_of_lt' (by rw [UInt32.size]; omega)
        have turned := front.step ends isAddress aligned inRow output
        have isLast : count + 1 = 16 ↔ count = 15 := Nat.succ_inj
        simp only [dumpTurns_add, isLast]
        exact turned
  obtain ⟨whole, output⟩ := turns 16 (Nat.le_refl 16)
  exact ⟨⟨whole.address, whole.reads, fun before isBefore => absurd isBefore (Nat.not_lt_zero _)⟩,
    output⟩

theorem Reading.rows {base : Nat} {state : DumpState}
    (ends : uinAddressForDisplay.toNat + uinLength.toNat < 2 ^ 32) (aligned : base % 16 = 0)
    (reading : Reading memory uinAddressForDisplay uinAddress uinLength base 0 state)
    (count : Nat) (fits : base + 16 * count ≤ 2 ^ 32) :
    let final := dumpTurns memory uinAddressForDisplay uinLength base (16 * count) state
    Reading memory uinAddressForDisplay uinAddress uinLength (base + 16 * count) 0 final ∧
      final.output = state.output ++
        ((List.range count).map (base + 16 * ·)).flatMap
          (dumpRow memory uinAddressForDisplay uinAddress uinLength) := by
  induction count with
  | zero => exact ⟨reading, (List.append_nil _).symm⟩
  | succ count ih =>
      obtain ⟨front, output⟩ := ih (by omega)
      obtain ⟨turned, shown⟩ := front.row ends (by omega) (by omega)
      dsimp only
      rw [Nat.mul_succ, dumpTurns_add]
      refine ⟨turned, ?_⟩
      rw [shown, output, List.range_succ, List.map_append, List.flatMap_append, List.append_assoc]
      simp

theorem DumpState.print_reads (state : DumpState) (text : List UInt8) :
    (state.print text).reads = state.reads := rfl

theorem DumpState.step_reads (i : UInt32) (state : DumpState)
    (outside : ¬ (i ≥ uinAddressForDisplay ∧ i < uinAddressForDisplay + uinLength)) :
    (state.step memory uinAddressForDisplay uinLength i).reads = state.reads := by
  have column (state : DumpState) :
      (state.column memory uinAddressForDisplay uinLength i).reads = state.reads := by
    rw [DumpState.column, if_neg outside]
  have labelled : (if i % 16 = 0 then state.print (hexText 8 i) else state).reads =
      state.reads := by split <;> rfl
  rw [DumpState.step]
  split
  · rw [print_reads, print_reads, print_reads, column, labelled]
  · rw [column, labelled]

/-- Without addresses for which there are bytes, nothing is read. -/
theorem dumpLoop_reads (uinEnd i : UInt32) (state : DumpState)
    (none : ∀ address : UInt32,
      ¬ (address ≥ uinAddressForDisplay ∧ address < uinAddressForDisplay + uinLength)) :
    (dumpLoop memory uinAddressForDisplay uinLength uinEnd i state).reads = state.reads := by
  fun_induction dumpLoop memory uinAddressForDisplay uinLength uinEnd i state with
  | case1 i state more ih => rw [ih, DumpState.step_reads i state (none i)]
  | case2 => rfl

/-- The end of the loop: that of the bytes, rounded up with 32 bits. -/
theorem toNat_uinEnd (uinAddressForDisplay uinLength : UInt32) :
    ((uinAddressForDisplay + uinLength + 15) / 16 * 16).toNat =
      ((uinAddressForDisplay.toNat + uinLength.toNat) % 2 ^ 32 + 15) % 2 ^ 32 / 16 * 16 := by
  have sixteen : (16 : UInt32).toNat = 16 := rfl
  have fifteen : (15 : UInt32).toNat = 15 := rfl
  rw [UInt32.toNat_mul, UInt32.toNat_div, UInt32.toNat_add, UInt32.toNat_add, sixteen, fifteen]
  omega

theorem dumpLoop_wrapped {uinEnd : UInt32} (i : UInt32) (state : DumpState)
    (after : 2 ^ 32 - 16 < uinAddressForDisplay.toNat + uinLength.toNat)
    (before : uinAddressForDisplay.toNat + uinLength.toNat < 2 ^ 32)
    (isEnd : uinEnd = (uinAddressForDisplay + uinLength + 15) / 16 * 16) :
    dumpLoop memory uinAddressForDisplay uinLength uinEnd i state = state := by
  have wrapped : uinEnd.toNat = 0 := by
    rw [isEnd, toNat_uinEnd]
    omega
  have ended : ¬ i < uinEnd := by
    rw [UInt32.lt_iff_toNat_lt, wrapped]
    exact Nat.not_lt_zero _
  rw [dumpLoop, if_neg ended]

theorem shellCommandDumpMemory_dumps (memory : UInt32 → UInt8)
    (uinAddressForDisplay uinAddress uinLength : UInt32)
    (ends : uinAddressForDisplay.toNat + uinLength.toNat ≤ 2 ^ 32 - 16) :
    Dumps memory uinAddressForDisplay uinAddress uinLength
      (shellCommandDumpMemory memory uinAddressForDisplay uinAddress uinLength) := by
  obtain ⟨start, isStart⟩ : ∃ start, start = uinAddressForDisplay.toNat / 16 * 16 := ⟨_, rfl⟩
  obtain ⟨count, isCount⟩ : ∃ count, count =
      (uinAddressForDisplay.toNat + uinLength.toNat + 15) / 16 - uinAddressForDisplay.toNat / 16 :=
    ⟨_, rfl⟩
  have first : uinAddressForDisplay / 16 * 16 = UInt32.ofNat start := by
    have small := uinAddressForDisplay.toNat_lt
    have sixteen : (16 : UInt32).toNat = 16 := rfl
    rw [← UInt32.toNat_inj, UInt32.toNat_mul, UInt32.toNat_div, UInt32.toNat_ofNat', isStart,
      sixteen]
  have last : start + 16 * count =
      ((uinAddressForDisplay + uinLength + 15) / 16 * 16).toNat := by
    rw [toNat_uinEnd]
    omega
  have begins : Reading memory uinAddressForDisplay uinAddress uinLength start 0
      ⟨uinAddress, fun _ => 0, fun _ => 0, [], dumpHeader⟩ := by
    have none : min (start + 0 - uinAddressForDisplay.toNat) uinLength.toNat = 0 := by omega
    refine ⟨?_, ?_, fun before isBefore => absurd isBefore (Nat.not_lt_zero _)⟩
    · rw [none]
      exact (UInt32.add_zero _).symm
    · rw [none]
      rfl
  obtain ⟨reading, output⟩ := begins.rows (by omega) (by omega) count (by omega)
  rw [shellCommandDumpMemory, first, dumpLoop_eq last]
  have all : min (start + 16 * count + 0 - uinAddressForDisplay.toNat) uinLength.toNat =
      uinLength.toNat := by omega
  constructor
  · rw [reading.reads, all]
  · refine ⟨_, ?_, ?_, ?_, output⟩
    · rw [List.pairwise_map]
      exact List.pairwise_lt_range.imp fun less => by omega
    · simp only [List.forall_mem_map, List.mem_range]
      intro row inside
      omega
    · intro address after before
      refine List.mem_map.mpr ⟨address / 16 - uinAddressForDisplay.toNat / 16, ?_, ?_⟩
      · rw [List.mem_range]
        omega
      · omega

/-- With an end that wraps around, nothing is read. -/
theorem shellCommandDumpMemory_wrapped (memory : UInt32 → UInt8)
    (uinAddressForDisplay uinAddress uinLength : UInt32)
    (wraps : 2 ^ 32 - 16 < uinAddressForDisplay.toNat + uinLength.toNat) :
    (shellCommandDumpMemory memory uinAddressForDisplay uinAddress uinLength).reads = [] := by
  rw [shellCommandDumpMemory]
  rcases Nat.lt_or_ge (uinAddressForDisplay.toNat + uinLength.toNat) (2 ^ 32) with before | beyond
  · rw [dumpLoop_wrapped _ _ wraps before rfl]
  · rw [dumpLoop_reads]
    intro address
    have small := uinAddressForDisplay.toNat_lt
    have inside := uinLength.toNat_lt
    rw [ge_iff_le, UInt32.le_iff_toNat_le, UInt32.lt_iff_toNat_lt, UInt32.toNat_add]
    omega

end Rows

/-- The dump shows the memory unless there are bytes in the last sixteen, rounded up, of the
address space. -/
theorem shellCommandDumpMemory_dumps_iff (memory : UInt32 → UInt8)
    (uinAddressForDisplay uinAddress uinLength : UInt32) :
    Dumps memory uinAddressForDisplay uinAddress uinLength
        (shellCommandDumpMemory memory uinAddressForDisplay uinAddress uinLength) ↔
      uinLength = 0 ∨
        uinAddressForDisplay.toNat + uinLength.toNat ≤ 2 ^ 32 - 16 := by
  by_cases ends : uinAddressForDisplay.toNat + uinLength.toNat ≤ 2 ^ 32 - 16
  · exact iff_of_true (shellCommandDumpMemory_dumps memory _ _ _ ends) (Or.inr ends)
  rw [or_iff_left ends]
  constructor
  · intro dumps
    have none := shellCommandDumpMemory_wrapped memory uinAddressForDisplay uinAddress uinLength
      (Nat.lt_of_not_le ends)
    have length := congrArg List.length (dumps.reads.symm.trans none)
    rw [List.length_map, List.length_range] at length
    exact UInt32.toNat_inj.mp length
  · rintro rfl
    have small := uinAddressForDisplay.toNat_lt
    rw [shellCommandDumpMemory, dumpLoop_wrapped _ _ (by omega) (by simpa using small) rfl]
    refine ⟨rfl, [], List.Pairwise.nil, List.forall_mem_nil _, ?_, (List.append_nil _).symm⟩
    intro address after before
    exact absurd before (Nat.not_lt.mpr after)

/-- The command `mem r fffffff0 8` shows no memory. -/
theorem shellCommandDumpMemory_not_dumps :
    ¬ Dumps (fun _ => 0) 0xfffffff0 0xfffffff0 8
      (shellCommandDumpMemory (fun _ => 0) 0xfffffff0 0xfffffff0 8) := by
  intro dumps
  have none := shellCommandDumpMemory_wrapped (fun _ => 0) 0xfffffff0 0xfffffff0 8 (by decide)
  exact absurd (congrArg List.length (dumps.reads.symm.trans none)) (by decide)

end SunWise.Shell
