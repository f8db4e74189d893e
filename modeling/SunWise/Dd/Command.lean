import SunWise.Library.NorFlash
import SunWise.Shell.Commands

/-!
# Writing a file to flash

`ShellCommand_Dd` of the second shell, with 32-bit `size_t`.  `spansionSectorErase` and
`spansionProgram` change a flash whose cells have 32-bit addresses; `f_open`, `f_size` and
`f_read` read a file that is shorter than `2 ^ 32` bytes, the size type of the file system.
-/

namespace SunWise.Dd

open Library Shell

/-- `FLASH_SECTOR_SIZE`. -/
def flashSectorSize : Nat := 0x20000

/-- `FLASH_PAGE_SIZE`, the size of `m_aui8DummyBuffer`. -/
def flashPageSize : Nat := 0x200

/-- A file of the file system. -/
structure FatFile where
  content : List UInt8
  small : content.length < 2 ^ 32

/-- What the command does. -/
inductive DdAction where
  | xprintf (format : String) (arguments : List PrintArgument)
  | spansionSectorErase (addr : UInt32)
  | mdelay (ms : Nat)
  | spansionProgram (addr data : UInt32)
  | fClose
  deriving DecidableEq, Repr

/-- The flash, the buffer, the variable `uinAddress` and what was done. -/
structure DdState where
  flash : Nat → UInt8
  m_aui8DummyBuffer : Nat → UInt8
  uinAddress : UInt32
  actions : List DdAction

namespace DdState

variable (state : DdState)

def act (action : DdAction) : DdState :=
  { state with actions := state.actions ++ [action] }

/-- The addresses at which a sector was erased. -/
def erased : List UInt32 :=
  state.actions.filterMap fun
    | .spansionSectorErase addr => some addr
    | _ => none

/-- The addresses at which a word was programmed. -/
def programmed : List UInt32 :=
  state.actions.filterMap fun
    | .spansionProgram addr _ => some addr
    | _ => none

/-- `spansionSectorErase`. -/
def sectorErase (addr : UInt32) : DdState :=
  { state.act (.spansionSectorErase addr) with
    flash := fun cell =>
      if cell / flashSectorSize = addr.toNat / flashSectorSize then 0xff
      else state.flash cell }

/-- `spansionProgram`. -/
def program (addr data : UInt32) : DdState :=
  { state.act (.spansionProgram addr data) with
    flash := store state.flash addr.toNat (bigEndian data) }

/-- Word `i` of the buffer. -/
def bufferWord (i : Nat) : UInt32 :=
  ofBigEndian (state.m_aui8DummyBuffer (i * 4 + 0)) (state.m_aui8DummyBuffer (i * 4 + 1))
    (state.m_aui8DummyBuffer (i * 4 + 2)) (state.m_aui8DummyBuffer (i * 4 + 3))

/-- A turn of the loop over the buffer. -/
def programWord (i : Nat) : DdState :=
  { state.program state.uinAddress (state.bufferWord i) with
    uinAddress := state.uinAddress + 4 }

/-- The loop over the buffer. -/
def programWords (len : Nat) : DdState :=
  (List.range len).foldl programWord state

/-- `f_read`, whose bytes are the front of what remains of the file. -/
def fRead (remaining : List UInt8) : DdState :=
  { state with
    m_aui8DummyBuffer := store state.m_aui8DummyBuffer 0 (remaining.take flashPageSize) }

end DdState

/-- The loop over the sectors, for `fuel` turns at most. -/
def eraseLoop (uinEndAddr : UInt32) : Nat → UInt32 → DdState → Option DdState
  | 0, _, _ => none
  | fuel + 1, addr, state =>
      if addr ≤ uinEndAddr then
        eraseLoop uinEndAddr fuel (addr + UInt32.ofNat flashSectorSize)
          (state.sectorErase addr)
      else some state

/-- The loop over the file. `br` is zero when nothing remains. -/
def programLoop (remaining : List UInt8) (state : DdState) : DdState :=
  if remaining = [] then state
  else
    let br := (remaining.take flashPageSize).length
    programLoop (remaining.drop flashPageSize)
      ((state.fRead remaining).programWords ((br + 3) / 4))
termination_by remaining.length
decreasing_by
  rename_i more
  rw [List.length_drop]
  exact Nat.sub_lt (List.length_pos_iff.mpr more) (by decide)

/-- `ShellCommand_Dd` behind its argument test, on a file that could be opened. -/
def ddWrite (fuel : Nat) (file : FatFile) (state : DdState) : Option DdState :=
  let uinSize := UInt32.ofNat file.content.length
  let mask := ~~~(UInt32.ofNat flashSectorSize - 1)
  let uinStartAddr := state.uinAddress &&& mask
  let uinEndAddr := (state.uinAddress + uinSize) &&& mask
  (eraseLoop uinEndAddr fuel uinStartAddr state).map fun state =>
    (programLoop file.content (state.act (.mdelay 1000))).act .fClose

/-- `ShellCommand_Dd`, on flash and buffer, with `fuel` turns for the loop over the sectors.
`fOpen` finds the existing files. -/
def shellCommandDd (fuel : Nat) (fOpen : List UInt8 → Option FatFile)
    (flash m_aui8DummyBuffer : Nat → UInt8) (ui8Argc : Nat) (apszArgv : Nat → List UInt8) :
    Option DdState :=
  let uinAddress := if ui8Argc > 2 then strtoul (apszArgv 2) 16 else 0
  let state : DdState := { flash, m_aui8DummyBuffer, uinAddress, actions := [] }
  if ui8Argc < 2 then
    some (state.act (.xprintf
      ("Unknown command parameter!\n" ++
        "Usage: dd [file] [address]\n" ++
        "Where: address is in hex\n" ++
        "       dd test.txt 2000\n") []))
  else
    let paFileName := apszArgv 1
    match fOpen paFileName with
    | none => some (state.act (.xprintf "file open failed!\n" []))
    | some file =>
        ddWrite fuel file
          (state.act (.xprintf "read from %s, size %d.\n"
            [.text paFileName, .number (UInt32.ofNat file.content.length)]))

end SunWise.Dd
