import Mathlib.Logic.Function.Basic
import SunWise.Shell.Editor

/-!
# Splitting a command line

`Shell_SplitCommand` of `xshell.c`.  `pszPtr` is `pszData + ui32Position` throughout, and an
argument pointer is the index in `pszData` at which the argument starts.  The array
`apszArgv` of the caller is not initialised, so each of its places holds nothing before it
is stored to.
-/

namespace SunWise.Shell

open Library

/-- `SHELL_ARG_MAX`. -/
def shellArgMax : Nat := 8

/-- An access of `Shell_SplitCommand` to `pszData`. -/
inductive SplitAccess where
  | read (index : Nat)
  | write (index : Nat)
  /-- A string is printed, from `start` to its NUL. -/
  | string (start : Nat)
  deriving DecidableEq, Repr

/-- The variables of `Shell_SplitCommand`, its accesses and what it prints. -/
structure Split where
  pszData : Nat → UInt8
  ui32Position : Nat
  ui8Argc : Nat
  apszArgv : Nat → Option Nat
  trace : List SplitAccess
  output : List UInt8

/-- A blank or a tab. -/
def IsBlank (byte : UInt8) : Prop :=
  byte = 0x20 ∨ byte = 0x09

instance (byte : UInt8) : Decidable (IsBlank byte) :=
  inferInstanceAs (Decidable (byte = 0x20 ∨ byte = 0x09))

namespace Split

variable (split : Split)

/-- `*pszPtr`. -/
def byte : UInt8 :=
  split.pszData split.ui32Position

def read (index : Nat) : Split :=
  { split with trace := split.trace ++ [.read index] }

def readByte : Split :=
  split.read split.ui32Position

/-- `*pszPtr = '\0'`. -/
def clearByte : Split :=
  { split with
    pszData := Function.update split.pszData split.ui32Position 0
    trace := split.trace ++ [.write split.ui32Position] }

def advance (count : Nat) : Split :=
  { split with ui32Position := split.ui32Position + count }

/-- `apszArgv[ui8Argc] = pszPtr` and `ui8Argc++`. -/
def storeArgument : Split :=
  { split with
    apszArgv := Function.update split.apszArgv split.ui8Argc (some split.ui32Position)
    ui8Argc := split.ui8Argc + 1 }

/-- A backslash with a double quote behind it. -/
def isEscape : Bool :=
  split.byte = 0x5c && split.pszData (split.ui32Position + 1) = 0x22

/-- The byte behind a backslash is read too. -/
def readEscape : Split :=
  if split.byte = 0x5c then split.readByte.read (split.ui32Position + 1)
  else split.readByte

/-! The loops over the bytes recurse on `ui32Length - ui32Position`, which is positive
exactly while `ui32Position < ui32Length`.  They read `*pszPtr` before they test that. -/

def stripBlanks : Nat → Split → Split
  | 0, split => split.readByte
  | remaining + 1, split =>
      if IsBlank split.byte then stripBlanks remaining (split.readByte.clearByte.advance 1)
      else split.readByte

def skipWord : Nat → Split → Split
  | 0, split => split.readByte
  | remaining + 1, split =>
      if IsBlank split.byte then split.readByte
      else skipWord remaining (split.readByte.advance 1)

def skipString : Nat → Split → Split
  | 0, split => split.readByte
  | 1, split =>
      if split.byte = 0x22 then split.readByte
      else if split.isEscape then skipString 0 (split.readEscape.advance 2)
      else skipString 0 (split.readEscape.advance 1)
  | remaining + 2, split =>
      if split.byte = 0x22 then split.readByte
      else if split.isEscape then skipString remaining (split.readEscape.advance 2)
      else skipString (remaining + 1) (split.readEscape.advance 1)

/-- One argument, from its first byte. -/
def splitArgument (ui32Length : Nat) : Split :=
  if split.byte = 0x22 then
    let split := (split.readByte.advance 1).storeArgument
    let split := skipString (ui32Length - split.ui32Position) split
    if ui32Length ≤ split.ui32Position then split else split.clearByte.advance 1
  else
    skipWord (ui32Length - split.ui32Position) split.readByte.storeArgument

/-- The text and the accesses of the branch for more than `SHELL_ARG_MAX` arguments. -/
def listArguments (ui32Length : Nat) (starts : List Nat) : Split :=
  let listed := starts.flatMap fun start =>
    cString split.pszData (ui32Length + 1) start ++ ascii " "
  { split with
    trace := split.trace ++ starts.map .string
    output := split.output ++ ascii "Too many args ! We only Use:\n" ++ listed ++ ascii "\n" }

/-- That branch fails on an argument pointer that was not stored. -/
def tooManyArgs (ui32Length : Nat) : Option Split :=
  ((List.range split.ui8Argc).mapM split.apszArgv).map (split.listArguments ui32Length)

/-- The outer loop, while `free` places of `apszArgv` are left: the test
`ui8Argc >= SHELL_ARG_MAX` holds when there is none. -/
def splitLoop (ui32Length : Nat) : Nat → Split → Option Split
  | 0, split =>
      if split.ui32Position < ui32Length then
        (stripBlanks (ui32Length - split.ui32Position) split).tooManyArgs ui32Length
      else some split
  | free + 1, split =>
      if split.ui32Position < ui32Length then
        let split := stripBlanks (ui32Length - split.ui32Position) split
        if ui32Length ≤ split.ui32Position then some split
        else splitLoop ui32Length free (split.splitArgument ui32Length)
      else some split

end Split

/-- The variables of `Shell_SplitCommand` before its loop. -/
def Split.start (pszData : Nat → UInt8) : Split :=
  { pszData, ui32Position := 0, ui8Argc := 0, apszArgv := fun _ => none, trace := []
    output := [] }

/-- `Shell_SplitCommand`. -/
def shellSplitCommand (pszData : Nat → UInt8) (ui32Length : Nat) : Option Split :=
  Split.splitLoop ui32Length shellArgMax (.start pszData)

namespace Split

/-- The stored places of `apszArgv` are those below `ui8Argc`. -/
def Stored (split : Split) : Prop :=
  ∀ index, (split.apszArgv index).isSome ↔ index < split.ui8Argc

/-- Nothing about the arguments has changed. -/
structure SameArguments (before after : Split) : Prop where
  argc : after.ui8Argc = before.ui8Argc
  argv : after.apszArgv = before.apszArgv

theorem SameArguments.trans {first second third : Split} (left : SameArguments first second)
    (right : SameArguments second third) : SameArguments first third :=
  ⟨right.argc.trans left.argc, right.argv.trans left.argv⟩

theorem SameArguments.stored {before after : Split} (same : SameArguments before after)
    (stored : before.Stored) : after.Stored := by
  intro index
  rw [same.argv, same.argc]
  exact stored index

variable {split : Split}

theorem sameArguments_readEscape : SameArguments split split.readEscape := by
  unfold readEscape
  split <;> exact ⟨rfl, rfl⟩

theorem sameArguments_stripBlanks (remaining : Nat) (split : Split) :
    SameArguments split (stripBlanks remaining split) := by
  induction remaining generalizing split with
  | zero => exact ⟨rfl, rfl⟩
  | succ remaining ih =>
      rw [stripBlanks]
      split
      · have first : SameArguments split (split.readByte.clearByte.advance 1) := ⟨rfl, rfl⟩
        exact first.trans (ih _)
      · exact ⟨rfl, rfl⟩

theorem sameArguments_skipWord (remaining : Nat) (split : Split) :
    SameArguments split (skipWord remaining split) := by
  induction remaining generalizing split with
  | zero => exact ⟨rfl, rfl⟩
  | succ remaining ih =>
      rw [skipWord]
      split
      · exact ⟨rfl, rfl⟩
      · have first : SameArguments split (split.readByte.advance 1) := ⟨rfl, rfl⟩
        exact first.trans (ih _)

/-- What holds when a string ends, and of each turn if it holds of those that follow, holds
of the loop over the string. -/
theorem skipString_relates {Relates : Split → Split → Prop}
    (ends : ∀ split, Relates split split.readByte)
    (turns : ∀ split count result, Relates (split.readEscape.advance count) result →
      Relates split result) (remaining : Nat) (split : Split) :
    Relates split (skipString remaining split) := by
  induction remaining, split using skipString.induct with
  | case1 split => exact ends split
  | case2 split isQuote =>
      rw [skipString, if_pos isQuote]
      exact ends split
  | case3 split isByte isEscape ih =>
      rw [skipString, if_neg isByte, if_pos isEscape]
      exact turns split 2 _ ih
  | case4 split isByte isPlain ih =>
      rw [skipString, if_neg isByte, if_neg isPlain]
      exact turns split 1 _ ih
  | case5 remaining split isQuote =>
      rw [skipString, if_pos isQuote]
      exact ends split
  | case6 remaining split isByte isEscape ih =>
      rw [skipString, if_neg isByte, if_pos isEscape]
      exact turns split 2 _ ih
  | case7 remaining split isByte isPlain ih =>
      rw [skipString, if_neg isByte, if_neg isPlain]
      exact turns split 1 _ ih

theorem sameArguments_skipString (remaining : Nat) (split : Split) :
    SameArguments split (skipString remaining split) := by
  apply skipString_relates
  · exact fun split => ⟨rfl, rfl⟩
  · intro split count result later
    have advanced : SameArguments split.readEscape (split.readEscape.advance count) := ⟨rfl, rfl⟩
    exact (sameArguments_readEscape.trans advanced).trans later

theorem stored_storeArgument (stored : split.Stored) : split.storeArgument.Stored := by
  intro index
  by_cases isNew : index = split.ui8Argc
  · simp [storeArgument, isNew]
  · have old := stored index
    simp only [storeArgument, Function.update_of_ne isNew, old]
    omega

theorem splitArgument_spec (ui32Length : Nat) (stored : split.Stored) :
    (split.splitArgument ui32Length).Stored ∧
      (split.splitArgument ui32Length).ui8Argc = split.ui8Argc + 1 := by
  unfold splitArgument
  split
  · extract_lets opened
    have same : SameArguments opened (if ui32Length ≤
        (skipString (ui32Length - opened.ui32Position) opened).ui32Position then
          skipString (ui32Length - opened.ui32Position) opened
        else (skipString (ui32Length - opened.ui32Position) opened).clearByte.advance 1) := by
      split
      · exact sameArguments_skipString _ _
      · exact (sameArguments_skipString _ _).trans ⟨rfl, rfl⟩
    exact ⟨same.stored (stored_storeArgument stored), same.argc⟩
  · have same := sameArguments_skipWord (ui32Length - split.ui32Position)
      split.readByte.storeArgument
    exact ⟨same.stored (stored_storeArgument stored), same.argc⟩

theorem tooManyArgs_spec (ui32Length : Nat) (stored : split.Stored) :
    ∃ result, split.tooManyArgs ui32Length = some result ∧ SameArguments split result := by
  have total : ∀ places : List Nat, (∀ place ∈ places, place < split.ui8Argc) →
      ∃ starts, places.mapM split.apszArgv = some starts := by
    intro places inside
    induction places with
    | nil => exact ⟨[], rfl⟩
    | cons place places ih =>
        obtain ⟨start, isStart⟩ := Option.isSome_iff_exists.mp
          ((stored place).mpr (inside place List.mem_cons_self))
        obtain ⟨starts, areStarts⟩ :=
          ih fun later isLater => inside later (List.mem_cons_of_mem _ isLater)
        exact ⟨start :: starts, by simp [isStart, areStarts]⟩
  obtain ⟨starts, areStarts⟩ := total _ fun place => List.mem_range.mp
  refine ⟨split.listArguments ui32Length starts, ?_, ⟨rfl, rfl⟩⟩
  rw [tooManyArgs, areStarts, Option.map_some]

/-- The outer loop returns, and arguments are only added. -/
theorem splitLoop_spec (ui32Length free : Nat) (stored : split.Stored) :
    ∃ result, splitLoop ui32Length free split = some result ∧
      result.Stored ∧ split.ui8Argc ≤ result.ui8Argc := by
  induction free generalizing split with
  | zero =>
      rw [splitLoop]
      split
      · have same := sameArguments_stripBlanks (ui32Length - split.ui32Position) split
        obtain ⟨result, returns, still⟩ := tooManyArgs_spec ui32Length (same.stored stored)
        exact ⟨result, returns, still.stored (same.stored stored),
          (still.argc.trans same.argc).ge⟩
      · exact ⟨split, rfl, stored, Nat.le_refl _⟩
  | succ free ih =>
      rw [splitLoop]
      split
      · have same := sameArguments_stripBlanks (ui32Length - split.ui32Position) split
        extract_lets stripped
        split
        · exact ⟨_, rfl, same.stored stored, same.argc.ge⟩
        · have ⟨still, more⟩ := splitArgument_spec ui32Length (same.stored stored)
          obtain ⟨result, returns, kept, above⟩ := ih still
          have counted := same.argc
          exact ⟨result, returns, kept, by omega⟩
      · exact ⟨split, rfl, stored, Nat.le_refl _⟩

/-- The blanks in front are skipped, and nothing else. -/
theorem stripBlanks_position (remaining : Nat) (split : Split) :
    ∃ count, (stripBlanks remaining split).ui32Position = split.ui32Position + count ∧
      count ≤ remaining ∧
      (∀ offset < count, IsBlank (split.pszData (split.ui32Position + offset))) ∧
      (count < remaining → ¬ IsBlank (split.pszData (split.ui32Position + count))) := by
  induction remaining generalizing split with
  | zero => exact ⟨0, rfl, Nat.le_refl _, by simp, by simp⟩
  | succ remaining ih =>
      rw [stripBlanks]
      split
      next blank =>
        obtain ⟨count, position, fits, blanks, stops⟩ :=
          ih (split.readByte.clearByte.advance 1)
        have later (offset : Nat) :
            (split.readByte.clearByte.advance 1).pszData (split.ui32Position + 1 + offset) =
              split.pszData (split.ui32Position + (offset + 1)) := by
          have other : split.ui32Position + 1 + offset ≠ split.ui32Position := by omega
          have moved : split.ui32Position + (offset + 1) = split.ui32Position + 1 + offset := by
            omega
          rw [moved]
          exact Function.update_of_ne other _ _
        refine ⟨count + 1, ?_, by omega, ?_, ?_⟩
        · rw [position]
          simp only [advance, clearByte, readByte, read]
          omega
        · intro offset inside
          cases offset with
          | zero => exact blank
          | succ offset => exact later offset ▸ blanks offset (by omega)
        · intro inside
          exact later count ▸ stops (by omega)
      next other => exact ⟨0, rfl, Nat.zero_le _, by simp, fun _ => other⟩

end Split

/-- `Shell_SplitCommand` returns. It finds an argument exactly in a line with something
besides blanks and tabs. -/
theorem shellSplitCommand_spec (pszData : Nat → UInt8) (ui32Length : Nat) :
    ∃ result, shellSplitCommand pszData ui32Length = some result ∧ result.Stored ∧
      (0 < result.ui8Argc ↔ ∃ index < ui32Length, ¬ IsBlank (pszData index)) := by
  have stored : (Split.start pszData).Stored := by
    intro index
    simp [Split.start]
  obtain ⟨count, position, fits, blanks, stops⟩ :=
    Split.stripBlanks_position ui32Length (.start pszData)
  have same := Split.sameArguments_stripBlanks ui32Length (.start pszData)
  have begins : (Split.start pszData).ui32Position = 0 := rfl
  have data : (Split.start pszData).pszData = pszData := rfl
  simp only [begins, data, Nat.zero_add] at position blanks stops
  rw [shellSplitCommand, shellArgMax, Split.splitLoop, begins, Nat.sub_zero]
  extract_lets stripped
  have started : stripped.ui8Argc = 0 := same.argc
  have position : stripped.ui32Position = count := position
  split
  · split
    next atEnd =>
      have all : count = ui32Length := Nat.le_antisymm fits (position ▸ atEnd)
      refine ⟨stripped, rfl, same.stored stored, ?_⟩
      rw [started]
      simpa [← all] using blanks
    next found =>
      have ⟨still, more⟩ := Split.splitArgument_spec ui32Length (same.stored stored)
      obtain ⟨result, returns, kept, above⟩ := Split.splitLoop_spec ui32Length 7 still
      have inside : count < ui32Length := by omega
      refine ⟨result, returns, kept, iff_of_true ?_ ⟨count, inside, stops inside⟩⟩
      omega
  next empty =>
    have nothing : ui32Length = 0 := Nat.eq_zero_of_not_pos empty
    exact ⟨_, rfl, stored, by simp [Split.start, nothing]⟩

end SunWise.Shell
