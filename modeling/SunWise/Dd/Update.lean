import SunWise.Dd.Cells
import SunWise.Ymodem.Transfer

/-!
# From the line to the flash

The command `rb` stores a file that arrives by YMODEM on the volume, and `dd` writes a file of
the volume to the flash.  One after the other they bring the bytes of the sender to the
flash, where the filler of the last data packet follows them.
-/

namespace SunWise.Dd

open Library Shell Ymodem

/-- `f_open` and `f_size` on the files of a volume. The size type of the file system has 32
bits. -/
def openFile (volume : Volume) (name : List UInt8) : Option FatFile :=
  (volume.files name).bind fun content =>
    if small : content.length < 2 ^ 32 then some ⟨content, small⟩ else none

/-- The volume after `Ymodem_ReceiveTask` has read from the line. -/
def received (fOpen : List UInt8 → FResult) (mRymCtx : YmodemCtx) (line : List UInt8)
    (volume : Volume) : Volume :=
  volume.replay (ymodemReceiveTask fOpen mRymCtx line).trace

/-- What is stored of an upload. -/
def stored (upload : Upload) : List UInt8 :=
  upload.content ++ List.replicate upload.padding padByte

/-- The bytes of the sender, and the filler behind them, are in the flash at the address. The
sectors of all their cells have been erased, and nothing has been erased or programmed that the
file does not need. -/
structure Delivered (flash : Nat → UInt8) (upload : Upload) (addr : Nat) (state : DdState) :
    Prop where
  content : load (state.cells flash) addr upload.content.length = upload.content
  filler : load (state.cells flash) (addr + upload.content.length) upload.padding =
    List.replicate upload.padding padByte
  fresh : ∀ cell, addr ≤ cell → cell < addr + (stored upload).length → SectorErased state cell
  written : Written addr (stored upload) state

/-- The file is not empty and made of whole words. It ends before the last sector, and not where
a sector ends. -/
def EndsBelow (addr size : Nat) : Prop :=
  0 < size ∧ size % 4 = 0 ∧ addr + size < 0xfffe0000 ∧ (addr + size) % flashSectorSize ≠ 0

section Update

variable {fOpen : List UInt8 → FResult} {upload : Upload} {tail : List UInt8}

theorem openFile_received (mRymCtx : YmodemCtx) (volume : Volume)
    (opens : fOpen upload.name = .frOk) (ended : 10 ≤ tail.length)
    (small : (stored upload).length < 2 ^ 32) (name : List UInt8) :
    openFile (received fOpen mRymCtx (upload.transmission ++ tail) volume) name =
      if name = upload.name then some ⟨stored upload, small⟩ else openFile volume name := by
  have replayed := ((ymodemReceiveTask_transmission fOpen upload mRymCtx tail volume opens).2.1
    ended).2
  rw [openFile, received, replayed]
  dsimp only
  rw [Function.update_apply]
  split
  next => rw [Option.bind_some, ← stored, dif_pos small]
  next => rfl

/-- A stored file whose words were all programmed on erased cells is delivered. -/
theorem delivered_of_written {flash : Nat → UInt8} {addr : Nat} {state : DdState}
    (agrees : state.cells flash = state.flash)
    (fresh : ∀ cell, addr ≤ cell → cell < addr + (stored upload).length →
      SectorErased state cell)
    (written : Written addr (stored upload) state) : Delivered flash upload addr state := by
  have holds := written.holds
  rw [← agrees, stored, List.length_append, List.length_replicate, load_add] at holds
  have parts := List.append_inj holds (load_length _ _ _)
  exact ⟨parts.1, parts.2, fresh, written⟩

end Update

end SunWise.Dd
