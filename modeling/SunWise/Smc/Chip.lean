import SunWise.Library.NandFlash
import SunWise.Smc.Driver

/-!
# NAND chip

A NAND chip behind the controller, and what the calls of the driver do to it.  The chip
takes two column cycles and three row cycles: the column is the last byte of the first
address word and the first byte of the second, and the row is what is left of the second.
-/

namespace SunWise.Smc

open Library

/-- What the chip has been addressed for. -/
inductive NandOperation where
  | read (row column : Nat)
  | program (row column : Nat)
  | erase (row : Nat)
  deriving DecidableEq, Repr

/-- What the next data transfer means. -/
inductive NandPhase where
  | status
  | output (row column : Nat)
  | input (row column : Nat) (data : List UInt8)
  deriving DecidableEq, Repr

/-- A chip and the controller in front of it: the first of two address words that it waits
for the second of, and the status it will answer with. -/
structure NandChip where
  cells : NandArray
  pages : Nat
  pending : Option UInt32
  phase : NandPhase
  operations : List NandOperation
  status : Nat → UInt8

/-! The bits of an access, relative to its bank. -/

def isDataPhase (offset : UInt32) : Bool := (offset >>> 19) &&& 1 = 1
def isLast (offset : UInt32) : Bool := (offset >>> 21) &&& 1 = 1
def startCommand (offset : UInt32) : UInt32 := (offset >>> 3) &&& 0xff
def addressCycles (offset : UInt32) : UInt32 := (offset >>> 21) &&& 0x7

def endCommand? (offset : UInt32) : Option UInt32 :=
  if (offset >>> 20) &&& 1 = 1 then some ((offset >>> 11) &&& 0xff) else none

/-- The two column cycles: the last byte of the first word and the first of the second. -/
def sentColumn (first second : UInt32) : Nat :=
  first.toNat % 2 ^ 8 * 2 ^ 8 + second.toNat / 2 ^ 24

/-- The three row cycles. -/
def sentRow (word : UInt32) : Nat :=
  word.toNat % 2 ^ 24

namespace NandChip

variable (chip : NandChip)

/-- A command with two column cycles and three row cycles. -/
def select (start : UInt32) (endCmd? : Option UInt32) (row column : Nat) : NandChip :=
  if start = 0x00 ∧ endCmd? = some 0x30 then
    { chip with
      pending := none
      phase := .output row column
      operations := chip.operations ++ [.read row column] }
  else if start = 0x80 ∧ endCmd? = none then
    { chip with
      pending := none
      phase := .input row column []
      operations := chip.operations ++ [.program row column] }
  else { chip with pending := none }

/-- An erase of the block that has the row. -/
def erase (row : Nat) : NandChip :=
  { chip with
    cells := chip.cells.eraseBlock chip.pages row
    phase := .status
    operations := chip.operations ++ [.erase row] }

/-- A word that is written in the command phase. -/
def command (offset value : UInt32) : NandChip :=
  if addressCycles offset = 5 then
    match chip.pending with
    | none => { chip with pending := some value }
    | some first =>
        chip.select (startCommand offset) (endCommand? offset) (sentRow value)
          (sentColumn first value)
  else if addressCycles offset = 3 ∧ startCommand offset = 0x60 ∧
      endCommand? offset = some 0xd0 then chip.erase (sentRow value)
  else chip

/-- A byte that is written in the data phase. The end command of a program follows the last
one. -/
def receive (offset : UInt32) (byte : UInt8) : NandChip :=
  match chip.phase with
  | .input row column data =>
      if isLast offset ∧ endCommand? offset = some 0x10 then
        { chip with
          cells := chip.cells.program row column (data ++ [byte])
          phase := .status }
      else { chip with phase := .input row column (data ++ [byte]) }
  | _ => chip

/-- A byte that is read in the data phase. -/
def deliver : UInt8 × NandChip :=
  match chip.phase with
  | .output row column =>
      (chip.cells row column, { chip with phase := .output row (column + 1) })
  | _ => (chip.status 0, { chip with status := fun poll => chip.status (poll + 1) })

end NandChip

/-- The chip in a bank. -/
def nandBus (bank : SmcBank) : SmcBus NandChip where
  write32 chip addr value :=
    let offset := addr - getSmcMemBankBaseAddr bank
    if isDataPhase offset then chip else chip.command offset value
  write8 chip addr byte :=
    let offset := addr - getSmcMemBankBaseAddr bank
    if isDataPhase offset then chip.receive offset byte else chip
  read8 chip _ := chip.deliver

/-! ## The accesses of the driver -/

/-- The two words carry the low 16 bits of the column and the low 24 bits of the row. -/
theorem sent_words (colAddr rowAddr : UInt32) :
    let second := (colAddr <<< 24) ||| (rowAddr &&& 0xffffff)
    sentColumn (colAddr >>> 8) second = colAddr.toNat % 2 ^ 16 ∧
      sentRow second = rowAddr.toNat % 2 ^ 24 := by
  have low : (rowAddr &&& 0xffffff).toNat = rowAddr.toNat % 2 ^ 24 :=
    Nat.and_two_pow_sub_one_eq_mod rowAddr.toNat 24
  have high : (colAddr <<< 24).toNat = (colAddr.toNat % 2 ^ 8) <<< 24 := by
    rw [UInt32.toNat_shiftLeft]
    change colAddr.toNat <<< 24 % 2 ^ 32 = _
    rw [Nat.shiftLeft_eq, Nat.shiftLeft_eq]
    omega
  have joined : ((colAddr <<< 24) ||| (rowAddr &&& 0xffffff)).toNat =
      colAddr.toNat % 2 ^ 8 * 2 ^ 24 + rowAddr.toNat % 2 ^ 24 := by
    have below : rowAddr.toNat % 2 ^ 24 < 2 ^ 24 := Nat.mod_lt _ (Nat.two_pow_pos _)
    rw [UInt32.toNat_or, low, high, ← Nat.shiftLeft_add_eq_or_of_lt below, Nat.shiftLeft_eq]
  have first : (colAddr >>> 8).toNat = colAddr.toNat / 2 ^ 8 := by
    rw [UInt32.toNat_shiftRight]
    exact Nat.shiftRight_eq_div_pow _ _
  intro second
  constructor
  · rw [sentColumn, joined, first]
    omega
  · rw [sentRow, joined]
    omega

section Accesses

variable (bank : SmcBank)

theorem cmdPhase_bits (cmd : NandCommand) :
    let offset := (getNandPhaseAddr (getSmcMemBankBaseAddr bank) cmd).1 -
      getSmcMemBankBaseAddr bank
    isDataPhase offset = false ∧
      startCommand offset = (nandCommandInfo cmd).startCmd ∧
      addressCycles offset = (nandCommandInfo cmd).addrCycles ∧
      endCommand? offset = if (nandCommandInfo cmd).endCmdValid1 = 1 then
        some (nandCommandInfo cmd).endCmd else none := by
  cases bank <;> cases cmd <;> decide

/-- The values that `data_phase` takes in the loop of a program. -/
def IsDataPhase (dataPhase : UInt32) : Prop :=
  let first := (getNandPhaseAddr (getSmcMemBankBaseAddr bank) .eNandCommandPageProgram).2
  dataPhase = first ∨ dataPhase = dataPhaseAddrModify first 0 0

instance (dataPhase : UInt32) : Decidable (IsDataPhase bank dataPhase) :=
  inferInstanceAs (Decidable (_ ∨ _))

/-- The data phases of a program: only the one of the last transfer ends it. -/
theorem transferPhase_bits {dataPhase : UInt32} (i len : Nat)
    (inLoop : IsDataPhase bank dataPhase) :
    let offset := transferPhase dataPhase i len - getSmcMemBankBaseAddr bank
    isDataPhase offset = true ∧ endCommand? offset = some 0x10 ∧
      isLast offset = decide (i = len - 1) ∧
      (i ≠ len - 1 → IsDataPhase bank (transferPhase dataPhase i len)) := by
  unfold transferPhase
  by_cases last : i = len - 1
  · simp only [last, ↓reduceIte, ne_eq, not_true_eq_false, decide_true]
    rcases inLoop with rfl | rfl
    · cases bank <;> decide
    · cases bank <;> decide
  · simp only [last, ↓reduceIte, ne_eq, decide_false]
    rcases inLoop with rfl | rfl
    · cases bank <;> decide
    · cases bank <;> decide

/-- Sending an address makes the chip take the command. -/
theorem sendAddress_nand {cmd : NandCommand} (cycles : (nandCommandInfo cmd).addrCycles = 5)
    (colAddr rowAddr : UInt32) {chip : NandChip} (settled : chip.pending = none) :
    sendAddress (nandBus bank)
        (getNandPhaseAddr (getSmcMemBankBaseAddr bank) cmd).1 colAddr rowAddr chip =
      chip.select (nandCommandInfo cmd).startCmd
        (if (nandCommandInfo cmd).endCmdValid1 = 1 then some (nandCommandInfo cmd).endCmd
          else none)
        (rowAddr.toNat % 2 ^ 24) (colAddr.toNat % 2 ^ 16) := by
  rcases cmdPhase_bits bank cmd with ⟨command, start, count, final⟩
  rcases sent_words colAddr rowAddr with ⟨column, row⟩
  simp only [sendAddress, nandBus, command, Bool.false_eq_true, if_false, NandChip.command,
    count, cycles, if_true, settled, start, final, column, row]
  simp only [NandChip.select]

theorem nandWaitStatus_nand (dataPhase : UInt32) (polls : Nat) {chip : NandChip}
    (waits : ∀ row column, chip.phase ≠ .output row column) :
    ∃ status, (nandWaitStatus (nandBus bank) dataPhase polls chip).2 =
      { chip with status } := by
  induction polls generalizing chip with
  | zero => exact ⟨chip.status, rfl⟩
  | succ polls ih =>
      have polled : chip.deliver =
          (chip.status 0, { chip with status := fun poll => chip.status (poll + 1) }) := by
        unfold NandChip.deliver
        split
        next row column isOutput => exact absurd isOutput (waits row column)
        next => rfl
      simp only [nandWaitStatus, nandBus, polled]
      split
      · exact ih waits
      · exact ⟨_, rfl⟩

theorem readLoop_nand (len rest i : Nat) (dataPhase : UInt32) {chip : NandChip}
    {row column : Nat} (selected : chip.phase = .output row column) :
    readLoop (nandBus bank) len rest i dataPhase chip =
      (chip.cells.read row column rest,
        { chip with phase := .output row (column + rest) }) := by
  induction rest generalizing i dataPhase chip column with
  | zero =>
      cases chip
      cases selected
      rfl
  | succ rest ih =>
      have delivered : chip.deliver = (chip.cells row column,
          { chip with phase := .output row (column + 1) }) := by
        simp only [NandChip.deliver, selected]
      have later := @ih (i + 1) (transferPhase dataPhase i len)
        { chip with phase := .output row (column + 1) } (column + 1) rfl
      have cells : chip.cells.read row column (1 + rest) =
          chip.cells row column :: chip.cells.read row (column + 1) rest := by
        rw [NandArray.read, load_add]
        rfl
      have place : column + 1 + rest = column + (1 + rest) := Nat.add_assoc _ _ _
      simp only [readLoop]
      change _ = (chip.cells.read row column (rest + 1), _)
      rw [Nat.add_comm rest 1, cells, ← place]
      simp only [nandBus, delivered] at later ⊢
      rw [later]

/-- The program loop hands its bytes to the chip, which programs them after the last. -/
theorem programLoop_nand (len : Nat) {bytes data : List UInt8} {i row column : Nat}
    {dataPhase : UInt32} {chip : NandChip} (inLoop : IsDataPhase bank dataPhase)
    (count : i + bytes.length = len) (more : bytes ≠ [])
    (selected : chip.phase = .input row column data) :
    programLoop (nandBus bank) len bytes i dataPhase chip =
      { chip with
        cells := chip.cells.program row column (data ++ bytes)
        phase := .status } := by
  induction bytes generalizing i dataPhase chip data with
  | nil => exact absurd rfl more
  | cons byte bytes ih =>
      rcases transferPhase_bits bank i len inLoop with ⟨isData, final, ends, next⟩
      rw [List.length_cons] at count
      rw [programLoop]
      by_cases last : i = len - 1
      · have done : bytes = [] := List.length_eq_zero_iff.mp (by omega)
        subst done
        rw [decide_eq_true last] at ends
        simp only [programLoop, nandBus, isData, if_true, NandChip.receive, selected, ends,
          final, and_self]
      · rw [decide_eq_false last] at ends
        have received : (nandBus bank).write8 chip (transferPhase dataPhase i len) byte =
            { chip with phase := .input row column (data ++ [byte]) } := by
          simp only [nandBus, isData, if_true, NandChip.receive, selected, ends,
            Bool.false_eq_true, false_and, if_false]
        have rest : bytes ≠ [] := by
          rintro rfl
          rw [List.length_nil] at count
          omega
        rw [received, ih (next last) (by omega) rest rfl, List.append_assoc,
          List.singleton_append]

end Accesses

section Calls

variable (bank : SmcBank) (chipInfo : NandFlashChipInfo) (addr : UInt32)

/-- The row that is sent for an address. -/
def rowOf : Nat := (addr / chipInfo.blockSize).toNat % 2 ^ 24

/-- The column that is sent for an address. -/
def columnOf : Nat := (addr % chipInfo.blockSize).toNat % 2 ^ 16

theorem nandFlashRead_nand (len : Nat) {chip : NandChip} (settled : chip.pending = none) :
    nandFlashRead (nandBus bank) bank chipInfo addr len chip =
      (len, chip.cells.read (rowOf chipInfo addr) (columnOf chipInfo addr) len,
        { chip with
          pending := none
          phase := .output (rowOf chipInfo addr) (columnOf chipInfo addr + len)
          operations := chip.operations ++
            [.read (rowOf chipInfo addr) (columnOf chipInfo addr)] }) := by
  let selected : NandChip :=
    { chip with
      pending := none
      phase := .output (rowOf chipInfo addr) (columnOf chipInfo addr)
      operations := chip.operations ++
        [.read (rowOf chipInfo addr) (columnOf chipInfo addr)] }
  have sent : sendAddress (nandBus bank)
      (getNandPhaseAddr (getSmcMemBankBaseAddr bank) .eNandCommandReadData).1
      (addr % chipInfo.blockSize) (addr / chipInfo.blockSize) chip = selected := by
    rw [sendAddress_nand bank rfl _ _ settled]
    rfl
  have looped := @readLoop_nand bank len len 0
    (getNandPhaseAddr (getSmcMemBankBaseAddr bank) .eNandCommandReadData).2 selected _ _ rfl
  simp only [nandFlashRead, hwSmcNandFlashRead, sent, looped]
  rfl

theorem nandFlashWrite_nand (polls : Nat) (pbuf : List UInt8) {chip : NandChip}
    (settled : chip.pending = none) :
    ∃ phase status, (nandFlashWrite (nandBus bank) polls bank chipInfo addr pbuf chip).2 =
      { chip with
        cells := if pbuf = [] then chip.cells else
          chip.cells.program (rowOf chipInfo addr) (columnOf chipInfo addr) pbuf
        pending := none
        phase
        operations := chip.operations ++
          [.program (rowOf chipInfo addr) (columnOf chipInfo addr)]
        status } := by
  let selected : NandChip :=
    { chip with
      pending := none
      phase := .input (rowOf chipInfo addr) (columnOf chipInfo addr) []
      operations := chip.operations ++
        [.program (rowOf chipInfo addr) (columnOf chipInfo addr)] }
  have sent : sendAddress (nandBus bank)
      (getNandPhaseAddr (getSmcMemBankBaseAddr bank) .eNandCommandPageProgram).1
      (addr % chipInfo.blockSize) (addr / chipInfo.blockSize) chip = selected := by
    rw [sendAddress_nand bank rfl _ _ settled]
    rfl
  let statusPhase :=
    (getNandPhaseAddr (getSmcMemBankBaseAddr bank) .eNandCommandReadStatus).2
  let programmed := programLoop (nandBus bank) pbuf.length pbuf 0
    (getNandPhaseAddr (getSmcMemBankBaseAddr bank) .eNandCommandPageProgram).2 selected
  have unfolded : (nandFlashWrite (nandBus bank) polls bank chipInfo addr pbuf chip).2 =
      (nandWaitStatus (nandBus bank) statusPhase polls programmed).2 := by
    simp only [nandFlashWrite, hwSmcNandFlashProgram, sent, statusPhase, programmed]
  rw [unfolded]
  by_cases empty : pbuf = []
  · subst empty
    have waits : ∀ row column, selected.phase ≠ .output row column := nofun
    rcases nandWaitStatus_nand bank statusPhase polls waits with ⟨status, waited⟩
    exact ⟨_, status, waited⟩
  · have looped : programmed =
        { selected with
          cells := chip.cells.program (rowOf chipInfo addr) (columnOf chipInfo addr) pbuf
          phase := .status } :=
      @programLoop_nand bank pbuf.length pbuf [] 0 _ _ _ selected (Or.inl rfl)
        (Nat.zero_add _) empty rfl
    have waits : ∀ row column, programmed.phase ≠ .output row column := by
      rw [looped]
      exact nofun
    rcases nandWaitStatus_nand bank statusPhase polls waits with ⟨status, waited⟩
    refine ⟨.status, status, ?_⟩
    rw [waited, looped, if_neg empty]

theorem nandFlashErase_nand (polls : Nat) (chip : NandChip) :
    ∃ status, (nandFlashErase (nandBus bank) polls bank chipInfo addr chip).2 =
      { chip.erase (rowOf chipInfo addr) with status } := by
  rcases cmdPhase_bits bank .eNandCommandEraseBlock with ⟨command, start, count, final⟩
  have row : sentRow ((addr / chipInfo.blockSize) &&& 0xffffff) = rowOf chipInfo addr := by
    have masked : ((addr / chipInfo.blockSize) &&& 0xffffff).toNat =
        (addr / chipInfo.blockSize).toNat % 2 ^ 24 :=
      Nat.and_two_pow_sub_one_eq_mod _ 24
    rw [sentRow, masked, Nat.mod_mod, rowOf]
  have erased : (nandBus bank).write32 chip
      (getNandPhaseAddr (getSmcMemBankBaseAddr bank) .eNandCommandEraseBlock).1
      ((addr / chipInfo.blockSize) &&& 0xffffff) = chip.erase (rowOf chipInfo addr) := by
    simp only [nandBus, command, Bool.false_eq_true, if_false, NandChip.command, start,
      count, final, row, nandCommandInfo]
    simp
  have waits : ∀ row column,
      (chip.erase (rowOf chipInfo addr)).phase ≠ .output row column := nofun
  rcases nandWaitStatus_nand bank
    (getNandPhaseAddr (getSmcMemBankBaseAddr bank) .eNandCommandReadStatus).2 polls waits
    with ⟨status, waited⟩
  refine ⟨status, ?_⟩
  simp only [nandFlashErase, hwSmcNandFlashErase, erased, waited]

end Calls

end SunWise.Smc
