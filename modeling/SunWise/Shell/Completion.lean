import SunWise.Shell.Refinement

/-!
# Completing a command

`Shell_AutoComplete` with any table of commands, on a line in the buffer of the editor.
-/

namespace SunWise.Shell

open Library

/-- What a line is completed to: itself if no command starts like it, and otherwise the first
command that does, followed by a blank. -/
def CompletedTo (commands : List (List UInt8)) (line completed : List UInt8) : Prop :=
  (∀ pszCommand ∈ commands, ¬ line <+: pszCommand) ∧ completed = line ∨
    ∃ front pszCommand back, commands = front ++ pszCommand :: back ∧
      (∀ earlier ∈ front, ¬ line <+: earlier) ∧ line <+: pszCommand ∧
      completed = pszCommand ++ [0x20]

/-- A command that can be completed to, in a buffer of `SHELL_CMD_SIZE` bytes. -/
structure Completable (pszCommand : List UInt8) : Prop where
  nonzero : 0 ∉ pszCommand
  apart : 0x20 ∉ pszCommand
  fits : pszCommand.length < shellCmdSize

section Completion

variable {commands : List (List UInt8)} {line : List UInt8}

theorem completedTo_completeLine (commands : List (List UInt8)) (line : List UInt8) :
    CompletedTo commands line (LineEditor.completeLine commands 0x20 line) :=
  LineEditor.completeLine_cases commands 0x20 line

/-- The completed line is one that can be completed again. -/
theorem completable_completeLine
    (completable : ∀ pszCommand ∈ commands, Completable pszCommand) (bytes : 0 ∉ line)
    (notEmpty : line ≠ []) (short : line.length < shellCmdSize) :
    let completed := LineEditor.completeLine commands 0x20 line
    0 ∉ completed ∧ completed ≠ [] ∧ completed.length ≤ shellCmdSize := by
  refine LineEditor.completeLine_of_forall
    (P := fun line => 0 ∉ line ∧ line ≠ [] ∧ line.length ≤ shellCmdSize) commands 0x20 line
    ⟨bytes, notEmpty, Nat.le_of_lt short⟩ ?_
  intro pszCommand isIn
  obtain ⟨nonzero, apart, fits⟩ := completable pszCommand isIn
  rw [List.length_append]
  exact ⟨by simpa using nonzero, List.append_ne_nil_of_right_ne_nil _ (by simp), fits⟩

/-- `Shell_AutoComplete` completes the line to the first command that starts like it, stores
to the buffer only, and leaves a completed line. -/
theorem autoComplete_completes (shell : ShellT) (commands : List (List UInt8))
    (ui32Length : Nat) (positive : 0 < ui32Length) (short : ui32Length < shellCmdSize)
    (bytes : 0 ∉ load shell.aszLine 0 ui32Length)
    (completable : ∀ pszCommand ∈ commands, Completable pszCommand) :
    let line := load shell.aszLine 0 ui32Length
    let first := shell.autoComplete commands ui32Length
    let second := first.1.autoComplete commands first.2
    ∃ completed, CompletedTo commands line completed ∧ AutoCompleted shell completed first ∧
      AutoCompleted first.1 completed second := by
  intro line first second
  have length : line.length = ui32Length := load_length _ _ _
  have loaded : load shell.aszLine 0 line.length = line := by rw [length]
  have notEmpty : line ≠ [] := List.length_pos_iff.mp (by rwa [length])
  have nonzero : ∀ pszCommand ∈ commands, 0 ∉ pszCommand :=
    fun pszCommand isIn => (completable pszCommand isIn).nonzero
  have fits : ∀ pszCommand ∈ commands, pszCommand.length < shellCmdSize :=
    fun pszCommand isIn => (completable pszCommand isIn).fits
  have once := autoComplete_completed loaded bytes notEmpty (by omega) nonzero fits
  rw [length] at once
  obtain ⟨bytesAgain, notEmptyAgain, shortAgain⟩ :=
    completable_completeLine completable bytes notEmpty (by rwa [length])
  have twice := autoComplete_completed once.line bytesAgain notEmptyAgain shortAgain nonzero fits
  rw [← once.position, LineEditor.completeLine_completeLine _ _ _ fun pszCommand isIn =>
    (completable pszCommand isIn).apart] at twice
  exact ⟨_, completedTo_completeLine commands line, once, twice⟩

end Completion

theorem gsShellCommandNames_completable :
    ∀ pszCommand ∈ gsShellCommandNames, Completable pszCommand := by
  have each : ∀ pszCommand ∈ gsShellCommandNames,
      0 ∉ pszCommand ∧ 0x20 ∉ pszCommand ∧ pszCommand.length < shellCmdSize := by decide
  intro pszCommand isIn
  obtain ⟨nonzero, apart, fits⟩ := each pszCommand isIn
  exact ⟨nonzero, apart, fits⟩

/-- A line that two commands start like. -/
theorem autoComplete_completes_u :
    let shell : ShellT := ⟨literal (ascii "u"), .eWaitIdle, 1, 1, []⟩
    let first := shell.autoComplete gsShellCommandNames 1
    ∃ completed, CompletedTo gsShellCommandNames (load shell.aszLine 0 1) completed ∧
      AutoCompleted shell completed first ∧
      AutoCompleted first.1 completed (first.1.autoComplete gsShellCommandNames first.2) :=
  autoComplete_completes ⟨literal (ascii "u"), .eWaitIdle, 1, 1, []⟩ gsShellCommandNames 1
    (by decide) (by decide) (by decide) gsShellCommandNames_completable

end SunWise.Shell
