import Mathlib.Logic.Function.Basic
import SunWise.Library.Memory

/-!
# NAND flash arrays

Cells in pages and pages in blocks.  Programming a page clears bits of it, and erasing a
block sets all the bits of its pages.
-/

namespace SunWise.Library

/-- The cells of an array, by page and column. -/
abbrev NandArray := Nat → Nat → UInt8

namespace NandArray

variable (cells : NandArray) {pages row page column : Nat}

def read (row column count : Nat) : List UInt8 :=
  load (cells row) column count

def program (row column : Nat) (data : List UInt8) : NandArray :=
  Function.update cells row fun cell =>
    if column ≤ cell then cells row cell &&& data.getD (cell - column) 0xFF
    else cells row cell

def eraseBlock (pages row : Nat) : NandArray := fun page column =>
  if page / pages = row / pages then 0xFF else cells page column

/-- An erased range takes the data as it is. -/
theorem read_program {data : List UInt8}
    (erased : cells.read row column data.length = List.replicate data.length 0xFF) :
    (cells.program row column data).read row column data.length = data := by
  apply List.ext_getElem
  · simp [read]
  · intro index left right
    have blank : cells row (column + index) = 0xFF := by
      have same : (load (cells row) column data.length)[index]? = some 0xFF := by
        rw [← read, erased, List.getElem?_replicate, if_pos right]
      rw [load_getElem? _ _ right] at same
      exact Option.some.inj same
    have kept : (0xFF : UInt8) &&& data[index] = data[index] := by
      apply UInt8.toBitVec_inj.mp
      exact BitVec.allOnes_and
    simp [read, load, program, blank, kept, right]

theorem read_eraseBlock (column count : Nat) (inBlock : page / pages = row / pages) :
    (cells.eraseBlock pages row).read page column count = List.replicate count 0xFF := by
  apply List.ext_getElem
  · simp [read]
  · intro index left right
    simp [read, load, eraseBlock, inBlock]

end NandArray

end SunWise.Library
