import Mathlib.Data.Nat.Bitwise
import SunWise.Dd.Command

/-!
# What a write to flash touches

The loop over the sectors runs up to the sector of the address behind the file, and the loop
over the buffer rounds up to whole words.  Both stay inside the range of the file exactly
when neither has anything to round.
-/

namespace SunWise.Dd

open Library Shell

namespace DdState

variable (state : DdState)

@[simp] theorem act_uinAddress (action : DdAction) :
    (state.act action).uinAddress = state.uinAddress := rfl

@[simp] theorem act_flash (action : DdAction) : (state.act action).flash = state.flash := rfl

theorem act_erased (action : DdAction) :
    (state.act action).erased =
      state.erased ++ match action with
        | .spansionSectorErase addr => [addr]
        | _ => [] := by
  cases action <;> simp [act, erased]

theorem act_programmed (action : DdAction) :
    (state.act action).programmed =
      state.programmed ++ match action with
        | .spansionProgram addr _ => [addr]
        | _ => [] := by
  cases action <;> simp [act, programmed]

theorem programWords_succ (len : Nat) :
    state.programWords (len + 1) = (state.programWords len).programWord len := by
  simp [programWords, List.range_succ]

theorem programWords_uinAddress (len : Nat) :
    (state.programWords len).uinAddress = state.uinAddress + UInt32.ofNat (4 * len) := by
  induction len with
  | zero => simp [programWords]
  | succ len ih =>
      have next : UInt32.ofNat (4 * (len + 1)) = UInt32.ofNat (4 * len) + 4 :=
        UInt32.ofNat_add (4 * len) 4
      rw [programWords_succ, next, ← UInt32.add_assoc, ← ih]
      rfl

theorem programWords_buffer (len : Nat) :
    (state.programWords len).m_aui8DummyBuffer = state.m_aui8DummyBuffer := by
  induction len with
  | zero => rfl
  | succ len ih => rw [programWords_succ, ← ih]; rfl

theorem programWords_erased (len : Nat) : (state.programWords len).erased = state.erased := by
  induction len with
  | zero => rfl
  | succ len ih =>
      rw [programWords_succ, ← ih, ← List.append_nil (state.programWords len).erased]
      exact act_erased _ _

/-- The addresses of `len` words from the current one on. -/
def wordAddresses (len : Nat) : List UInt32 :=
  (List.range len).map fun i => state.uinAddress + UInt32.ofNat (4 * i)

theorem programWords_programmed (len : Nat) :
    (state.programWords len).programmed = state.programmed ++ state.wordAddresses len := by
  induction len with
  | zero => simp [programWords, wordAddresses]
  | succ len ih =>
      have step : (state.programWords (len + 1)).programmed =
          (state.programWords len).programmed ++ [(state.programWords len).uinAddress] := by
        rw [programWords_succ]
        exact act_programmed _ _
      rw [step, ih, programWords_uinAddress, wordAddresses, wordAddresses, List.range_succ,
        List.map_append, List.append_assoc]
      rfl

theorem bigEndian_bufferWord (i : Nat) :
    bigEndian (state.bufferWord i) = load state.m_aui8DummyBuffer (4 * i) 4 := by
  rw [bufferWord, bigEndian_ofBigEndian, Nat.mul_comm]
  rfl

/-- An address `count` bytes further, in the address space. -/
theorem toNat_add_ofNat {addr : UInt32} {count : Nat} (fits : addr.toNat + count < 2 ^ 32) :
    (addr + UInt32.ofNat count).toNat = addr.toNat + count := by
  rw [UInt32.toNat_add, UInt32.toNat_ofNat', Nat.add_mod_mod, Nat.mod_eq_of_lt fits]

theorem load_fRead (remaining : List UInt8) :
    load (state.fRead remaining).m_aui8DummyBuffer 0 (remaining.take flashPageSize).length =
      remaining.take flashPageSize := by
  simp only [fRead, load_store_self]

theorem programWords_flash {len : Nat} (fits : state.uinAddress.toNat + 4 * len ≤ 2 ^ 32) :
    (state.programWords len).flash =
      store state.flash state.uinAddress.toNat (load state.m_aui8DummyBuffer 0 (4 * len)) := by
  induction len with
  | zero => exact (store_nil _).symm
  | succ len ih =>
      have step : (state.programWords (len + 1)).flash =
          store (state.programWords len).flash (state.programWords len).uinAddress.toNat
            (bigEndian ((state.programWords len).bufferWord len)) := by
        rw [programWords_succ]
        rfl
      rw [step, ih (by omega), programWords_uinAddress, toNat_add_ofNat (by omega),
        bigEndian_bufferWord, programWords_buffer, Nat.mul_succ, load_add, store_append,
        load_length, Nat.zero_add]

end DdState

section ProgramLoop

open DdState

theorem programLoop_of_more {remaining : List UInt8} (more : remaining ≠ [])
    (state : DdState) :
    programLoop remaining state =
      programLoop (remaining.drop flashPageSize)
        ((state.fRead remaining).programWords
          (((remaining.take flashPageSize).length + 3) / 4)) := by
  rw [programLoop, if_neg more]

theorem programLoop_erased (remaining : List UInt8) (state : DdState) :
    (programLoop remaining state).erased = state.erased := by
  induction remaining, state using programLoop.induct with
  | case1 remaining => rw [programLoop, if_pos rfl]
  | case2 remaining state more br ih =>
      rw [programLoop_of_more more, ih, programWords_erased]
      rfl

/-- The words are those of the range, rounded up. -/
theorem programLoop_programmed (remaining : List UInt8) (state : DdState) :
    (programLoop remaining state).programmed =
      state.programmed ++ state.wordAddresses ((remaining.length + 3) / 4) := by
  induction remaining, state using programLoop.induct with
  | case1 state => simp [programLoop, wordAddresses]
  | case2 remaining state more br ih =>
      have front : (remaining.take flashPageSize).length = min 512 remaining.length :=
        List.length_take
      have back : (remaining.drop flashPageSize).length = remaining.length - 512 :=
        List.length_drop
      have words : (remaining.length + 3) / 4 =
          ((remaining.take flashPageSize).length + 3) / 4 +
            ((remaining.drop flashPageSize).length + 3) / 4 := by omega
      have shifted (i : Nat) :
          state.uinAddress + UInt32.ofNat (4 * ((br + 3) / 4)) + UInt32.ofNat (4 * i) =
            state.uinAddress + UInt32.ofNat (4 * ((br + 3) / 4 + i)) := by
        rw [UInt32.add_assoc, Nat.mul_add, UInt32.ofNat_add]
      rw [programLoop_of_more more, ih, programWords_programmed, words, List.append_assoc]
      congr 1
      simp only [wordAddresses, programWords_uinAddress, List.range_add, List.map_append,
        List.map_map]
      congr 1
      exact List.map_congr_left fun i _ => shifted i

theorem programLoop_flash {remaining : List UInt8} {state : DdState}
    (whole : remaining.length % 4 = 0)
    (fits : state.uinAddress.toNat + remaining.length ≤ 2 ^ 32) :
    (programLoop remaining state).flash =
      store state.flash state.uinAddress.toNat remaining := by
  induction remaining, state using programLoop.induct with
  | case1 state => simp [programLoop]
  | case2 remaining state more br ih =>
      have front : br = min 512 remaining.length := List.length_take
      have back : (remaining.drop flashPageSize).length = remaining.length - 512 :=
        List.length_drop
      have words : 4 * ((br + 3) / 4) = br := by omega
      have read : load (state.fRead remaining).m_aui8DummyBuffer 0 br =
          remaining.take flashPageSize := load_fRead state remaining
      have same : (state.fRead remaining).uinAddress = state.uinAddress := rfl
      have first : ((state.fRead remaining).programWords ((br + 3) / 4)).flash =
          store state.flash state.uinAddress.toNat (remaining.take flashPageSize) := by
        rw [programWords_flash _ (by rw [words, same]; omega), words, read]
        rfl
      rw [programLoop_of_more more]
      cases Nat.lt_or_ge 512 remaining.length with
      | inl long =>
          have next : ((state.fRead remaining).programWords
              ((br + 3) / 4)).uinAddress.toNat = state.uinAddress.toNat + br := by
            rw [programWords_uinAddress, words, same]
            exact toNat_add_ofNat (by omega)
          rw [ih (by omega) (by rw [next]; omega), first, next, ← store_append,
            List.take_append_drop]
      | inr short =>
          have all : remaining.take flashPageSize = remaining := List.take_of_length_le short
          have none : remaining.drop flashPageSize = [] := List.drop_of_length_le short
          rw [none, programLoop, if_pos rfl, first, all]

end ProgramLoop

end SunWise.Dd
