import SunWise.Shell.Editor

/-!
# Keys of the shell

The escape decoder and the keys that it yields.  A turn of the loop of `Shell_GetCommand`
is a step of the decoder and the action of the key, if there is one.
-/

namespace SunWise.Shell

open Library

/-- What a typed byte comes to. -/
inductive Key where
  | up
  | down
  | right
  | left
  | tab
  | backspace
  | enter
  | normal (szData : UInt8)
  deriving DecidableEq, Repr

/-- The names in the table are short and have no NUL. -/
theorem gsShellCommandNames_bounded :
    ∀ pszCommand ∈ gsShellCommandNames, pszCommand.length + 1 ≤ 127 ∧ 0 ∉ pszCommand := by
  decide

theorem gsShellCommandNames_nonzero : ∀ pszCommand ∈ gsShellCommandNames, 0 ∉ pszCommand :=
  fun pszCommand isIn => (gsShellCommandNames_bounded pszCommand isIn).2

/-- A byte outside escape sequences. -/
def plain (szData : UInt8) : Key :=
  if szData = 0x09 then .tab
  else if szData = 0x08 ∨ szData = 0x7f then .backspace
  else if szData = 0x0d ∨ szData = 0x0a then .enter
  else .normal szData

/-- The escape decoder. A sequence that breaks off ends with an ordinary byte. -/
def decode : KeyState → UInt8 → KeyState × Option Key
  | state, szData =>
      if szData = 0x1b then (.eWaitSpecKey, none)
      else
        match state with
        | .eWaitIdle => (.eWaitIdle, some (plain szData))
        | .eWaitSpecKey =>
            if szData = 0x5b then (.eWaitFuncKey, none)
            else (.eWaitIdle, some (plain szData))
        | .eWaitFuncKey =>
            if szData = 0x41 then (.eWaitIdle, some .up)
            else if szData = 0x42 then (.eWaitIdle, some .down)
            else if szData = 0x43 then (.eWaitIdle, some .right)
            else if szData = 0x44 then (.eWaitIdle, some .left)
            else (.eWaitIdle, some (plain szData))

/-- The action of a key. -/
def ShellT.press (commands : List (List UInt8)) (maszShellLineHistory : Nat → UInt8)
    (shell : ShellT) : Key → Turn
  | .up => .again (shell.upKey maszShellLineHistory)
  | .down => .again shell.downKey
  | .right => .again shell.rightKey
  | .left => .again shell.leftKey
  | .tab =>
      if 0 < shell.ui16LinePosition then
        let completed := shell.autoComplete commands shell.ui16LinePosition
        .again (completed.1.moveTo completed.2)
      else .leave shell.helpKey
  | .backspace => .again shell.backspaceKey
  | .enter => .leave shell.enterKey
  | .normal szData => .again (shell.normalKey szData)

theorem plainKey_eq (commands : List (List UInt8)) (history : Nat → UInt8)
    (shell : ShellT) (szData : UInt8) :
    plainKey commands shell szData = shell.press commands history (plain szData) := by
  unfold plainKey plain
  split
  next => rfl
  next =>
    split
    next => rfl
    next =>
      split
      next => rfl
      next => rfl

/-- A turn of the loop, key by key. -/
theorem shellTurn_eq {commands : List (List UInt8)} {history : Nat → UInt8}
    {shell : ShellT} {szData : UInt8} (sevenBits : szData < 0x80) :
    shellTurn commands history shell szData =
      match decode shell.eKeyState szData with
      | (eKeyState, none) => .again { shell with eKeyState }
      | (eKeyState, some key) => { shell with eKeyState }.press commands history key := by
  have notNegative : ¬szData ≥ 0x80 := UInt8.not_le.mpr sevenBits
  unfold shellTurn decode
  rw [if_neg notNegative]
  by_cases escape : szData = 0x1b
  · simp only [if_pos escape]
  · simp only [if_neg escape]
    cases state : shell.eKeyState with
    | eWaitIdle =>
        have same : { shell with eKeyState := .eWaitIdle } = shell := by rw [← state]
        simp only [plainKey_eq commands history, same]
    | eWaitSpecKey =>
        by_cases bracket : szData = 0x5b
        · simp only [if_pos bracket]
        · simp only [if_neg bracket, plainKey_eq commands history]
    | eWaitFuncKey =>
        simp only [plainKey_eq commands history]
        split
        next isUp => rfl
        next =>
          split
          next isDown => rfl
          next =>
            split
            next isRight => rfl
            next =>
              split
              next isLeft => rfl
              next => rfl

/-- The bytes that are keys of their own. -/
def controlBytes : List UInt8 :=
  [0x09, 0x08, 0x7f, 0x0d, 0x0a]

theorem plain_normal {szData byte : UInt8} (isNormal : plain szData = .normal byte) :
    byte = szData ∧ szData ∉ controlBytes := by
  unfold plain at isNormal
  split at isNormal
  next => cases isNormal
  next notTab =>
    split at isNormal
    next => cases isNormal
    next notBackspace =>
      split at isNormal
      next => cases isNormal
      next notEnter =>
        cases isNormal
        simp only [not_or] at notBackspace notEnter
        simp [controlBytes, notTab, notBackspace, notEnter]

theorem decode_normal {state next : KeyState} {szData byte : UInt8}
    (decodes : decode state szData = (next, some (.normal byte))) :
    byte = szData ∧ szData ≠ 0x1b ∧ szData ∉ controlBytes := by
  unfold decode at decodes
  by_cases escape : szData = 0x1b
  · simp only [if_pos escape] at decodes
    cases decodes
  · simp only [if_neg escape] at decodes
    have isPlain : plain szData = .normal byte := by
      cases state with
      | eWaitIdle =>
          exact Option.some.inj (Prod.mk.inj decodes).2
      | eWaitSpecKey =>
          simp only at decodes
          split at decodes
          next => cases decodes
          next => exact Option.some.inj (Prod.mk.inj decodes).2
      | eWaitFuncKey =>
          simp only at decodes
          repeat
            split at decodes
            next => cases decodes
          exact Option.some.inj (Prod.mk.inj decodes).2
    exact ⟨(plain_normal isPlain).1, escape, (plain_normal isPlain).2⟩

@[simp] theorem printed_append (first second : List UInt8) :
    printed (first ++ second) = printed first ++ printed second := by
  simp [printed]

namespace ShellT

attribute [local simp] emit print printTimes readString printString storeLine strcpyLine
  moveTo

variable {shell : ShellT}

section Normal

variable (szData : UInt8)

@[simp] theorem normalKey_eKeyState : (shell.normalKey szData).eKeyState = shell.eKeyState := by
  unfold normalKey
  simp only
  split
  · split
    · rfl
    · rfl
  · split
    · rfl
    · rfl

theorem normalKey_position :
    (shell.normalKey szData).ui16LinePosition =
      if shell.ui16LinePosition + 1 ≥ shellCmdSize then 0 else shell.ui16LinePosition + 1 := by
  unfold normalKey
  simp only
  split <;> rfl

theorem normalKey_current :
    (shell.normalKey szData).ui16LineCurrentPosition =
      if shell.ui16LinePosition + 1 ≥ shellCmdSize then 0
      else shell.ui16LineCurrentPosition + 1 := by
  unfold normalKey
  simp only
  split <;> rfl

theorem normalKey_aszLine (inside : shell.ui16LineCurrentPosition ≤ shell.ui16LinePosition) :
    (shell.normalKey szData).aszLine =
      openGap shell.aszLine shell.ui16LineCurrentPosition shell.ui16LinePosition szData := by
  unfold normalKey
  by_cases middle : shell.ui16LineCurrentPosition < shell.ui16LinePosition
  · simp only [if_pos middle]
    split
    · rfl
    · rfl
  · have atEnd : shell.ui16LineCurrentPosition = shell.ui16LinePosition := by omega
    simp only [atEnd]
    split
    · simp [openGap]
    · simp [openGap]

/-- At the end of the line the byte is echoed. -/
theorem normalKey_trace_end (atEnd : shell.ui16LineCurrentPosition = shell.ui16LinePosition) :
    (shell.normalKey szData).trace =
      shell.trace ++ .stored shell.ui16LinePosition 1 :: printed [szData] := by
  have notMiddle : ¬shell.ui16LineCurrentPosition < shell.ui16LinePosition := by omega
  unfold normalKey
  simp only [if_neg notMiddle]
  split
  · simp
  · simp

/-- Within the line the rest of the array's string is written anew. -/
theorem normalKey_trace_middle
    (middle : shell.ui16LineCurrentPosition < shell.ui16LinePosition) :
    (shell.normalKey szData).trace =
      let aszLine :=
        openGap shell.aszLine shell.ui16LineCurrentPosition shell.ui16LinePosition szData
      let count := shell.ui16LinePosition - shell.ui16LineCurrentPosition
      shell.trace ++
        .stored (shell.ui16LineCurrentPosition + 1) count ::
        .stored shell.ui16LineCurrentPosition 1 ::
        .string (decide (Terminated aszLine shellCmdSize shell.ui16LineCurrentPosition)) ::
        printed (cString aszLine shellCmdSize shell.ui16LineCurrentPosition ++
          List.replicate count 0x08) := by
  unfold normalKey
  simp only [if_pos middle]
  split
  · simp only [emit, print, printTimes, printString, readString, storeLine, moveTo,
      printed_append, List.flatten_replicate_singleton, load_length, List.length_singleton,
      List.append_assoc, List.singleton_append]
    rfl
  · simp only [emit, print, printTimes, printString, readString, storeLine,
      printed_append, List.flatten_replicate_singleton, load_length, List.length_singleton,
      List.append_assoc, List.singleton_append]
    rfl

end Normal

section Backspace

theorem backspaceKey_zero (atStart : shell.ui16LineCurrentPosition = 0) :
    shell.backspaceKey = shell :=
  if_pos atStart

@[simp] theorem backspaceKey_eKeyState : shell.backspaceKey.eKeyState = shell.eKeyState := by
  unfold backspaceKey
  split
  · rfl
  · simp only
    split
    · rfl
    · rfl

@[simp] theorem backspaceKey_current :
    shell.backspaceKey.ui16LineCurrentPosition = shell.ui16LineCurrentPosition - 1 := by
  unfold backspaceKey
  split
  next atStart => rw [atStart]
  next =>
    simp only
    split
    · rfl
    · rfl

variable (notStart : shell.ui16LineCurrentPosition ≠ 0)

include notStart in
theorem backspaceKey_position :
    shell.backspaceKey.ui16LinePosition = shell.ui16LinePosition - 1 := by
  unfold backspaceKey
  rw [if_neg notStart]
  simp only
  split
  · rfl
  · rfl

include notStart in
theorem backspaceKey_aszLine :
    shell.backspaceKey.aszLine =
      store
        (closeGap shell.aszLine (shell.ui16LineCurrentPosition - 1)
          (shell.ui16LinePosition - 1))
        (shell.ui16LinePosition - 1) [0] := by
  unfold backspaceKey
  rw [if_neg notStart]
  simp only
  split
  next => rfl
  next notMiddle =>
    have none : shell.ui16LinePosition - 1 - (shell.ui16LineCurrentPosition - 1) = 0 := by
      omega
    simp [closeGap, none]

/-- At the end of the line the last byte is wiped out. -/
theorem backspaceKey_trace_end (positive : shell.ui16LinePosition ≠ 0)
    (atEnd : shell.ui16LineCurrentPosition = shell.ui16LinePosition) :
    shell.backspaceKey.trace =
      shell.trace ++ printed [0x08, 0x20, 0x08] ++ [.stored (shell.ui16LinePosition - 1) 1] := by
  unfold backspaceKey
  simp [atEnd, positive]

include notStart in
/-- Within the line the rest is written anew, and a blank behind it. -/
theorem backspaceKey_trace_middle
    (middle : shell.ui16LineCurrentPosition < shell.ui16LinePosition) :
    shell.backspaceKey.trace =
      let current := shell.ui16LineCurrentPosition - 1
      let position := shell.ui16LinePosition - 1
      let aszLine := store (closeGap shell.aszLine current position) position [0]
      shell.trace ++ .stored current (position - current) :: .stored position 1 ::
        printed [0x08] ++ .string (decide (Terminated aszLine shellCmdSize current)) ::
        printed (cString aszLine shellCmdSize current ++ [0x20] ++
          List.replicate (position + 1 - current) 0x08) := by
  have stillMiddle : shell.ui16LineCurrentPosition - 1 < shell.ui16LinePosition - 1 := by
    omega
  have blank : ascii " " = [0x20] := by decide
  unfold backspaceKey
  simp only [if_neg notStart, if_pos stillMiddle, emit, print, printTimes, printString,
    readString, storeLine, blank, printed_append, List.flatten_replicate_singleton,
    load_length, List.length_singleton, List.append_assoc, List.cons_append]
  rfl

end Backspace

/-- The up key brings the history back. -/
theorem upKey_eq {history : Nat → UInt8} {text : List UInt8}
    (holds : HoldsString history 0 text) (short : text.length < shellCmdSize) :
    shell.upKey history =
      { shell with
        aszLine := store shell.aszLine 0 (text ++ [0])
        ui16LinePosition := text.length
        ui16LineCurrentPosition := text.length
        trace := shell.trace ++
          printed (List.replicate shell.ui16LinePosition [0x08, 0x20, 0x08]).flatten ++
          [.string true, .stored 0 (text.length + 1), .string true, .string true] ++
          printed text } := by
  have fits : 0 + text.length < shellCmdSize := by rwa [Nat.zero_add]
  have copied := holdsString_store shell.aszLine 0 holds.nonzero
  unfold upKey
  simp [holds.cString_eq fits, holds.terminated fits, copied.cString_eq fits,
    copied.terminated fits]

theorem helpKey_eq :
    shell.helpKey =
      { shell with
        aszLine := store (store shell.aszLine 0 (ascii "help" ++ [0])) 4 [0]
        ui16LinePosition := 4
        ui16LineCurrentPosition := 4
        trace := shell.trace ++ [.stored 0 5, .string true, .stored 4 1] } := by
  have typed := holdsString_store shell.aszLine 0 (by decide : 0 ∉ ascii "help")
  have fits : 0 + (ascii "help").length < shellCmdSize := by decide
  have length : (ascii "help").length = 4 := by decide
  unfold helpKey
  simp [typed.cString_eq fits, typed.terminated fits, length]

section Complete

variable {ui32Length : Nat} {commands : List (List UInt8)}

/-- The test of `Shell_AutoComplete`. -/
def Completes (aszLine : Nat → UInt8) (ui32Length : Nat) (pszCommand : List UInt8) : Bool :=
  strncmp aszLine (literal pszCommand) ui32Length == 0

theorem readBoth_eq (short : ui32Length ≤ shellCmdSize) {pszCommand : List UInt8}
    (nonzero : 0 ∉ pszCommand) :
    shell.readBoth pszCommand ui32Length = shell.emit (List.replicate 2 (.string true)) := by
  simp [readBoth, short, (terminated_literal nonzero).mpr (Nat.zero_le _)]

/-- No command starts like the line. -/
theorem autoCompleteLoop_none (short : ui32Length ≤ shellCmdSize)
    (nonzero : ∀ pszCommand ∈ commands, 0 ∉ pszCommand)
    (none : commands.find? (Completes shell.aszLine ui32Length) = none) :
    ∃ count, autoCompleteLoop ui32Length shell commands =
      (shell.emit (List.replicate count (.string true)), ui32Length) := by
  induction commands generalizing shell with
  | nil => exact ⟨0, by simp [autoCompleteLoop]⟩
  | cons pszCommand commands ih =>
      rw [List.forall_mem_cons] at nonzero
      have differs : ¬strncmp shell.aszLine (literal pszCommand) ui32Length = 0 := by
        intro same
        simp [Completes, same] at none
      have later : commands.find? (Completes shell.aszLine ui32Length) = Option.none := by
        simpa [List.find?_cons, Completes, differs] using none
      rcases @ih (shell.emit (List.replicate 2 (.string true))) nonzero.2 later with
        ⟨count, rest⟩
      refine ⟨2 + count, ?_⟩
      rw [autoCompleteLoop, readBoth_eq short nonzero.1]
      change (if strncmp shell.aszLine (literal pszCommand) ui32Length = 0 then _ else _) = _
      rw [if_neg differs, rest]
      simp only [emit, List.append_assoc, List.replicate_append_replicate]

/-- The first command that starts like the line takes its place. -/
theorem autoCompleteLoop_some (short : ui32Length ≤ shellCmdSize)
    (nonzero : ∀ pszCommand ∈ commands, 0 ∉ pszCommand) {pszCommand : List UInt8}
    (found : commands.find? (Completes shell.aszLine ui32Length) = some pszCommand) :
    ∃ count, autoCompleteLoop ui32Length shell commands =
      let rest := cString (literal pszCommand) (pszCommand.length + 1) ui32Length
      ({ shell with
          aszLine := store (store shell.aszLine ui32Length (rest ++ [0])) pszCommand.length
            [0x20]
          trace := shell.trace ++ List.replicate count (.string true) ++
            [.string (decide (ui32Length ≤ pszCommand.length)),
              .stored ui32Length (rest.length + 1),
              .string (decide (ui32Length ≤ pszCommand.length))] ++
            printed (rest ++ [0x20]) ++
            [.string true, .stored pszCommand.length 1] },
        pszCommand.length + 1) := by
  induction commands generalizing shell with
  | nil => cases found
  | cons first commands ih =>
      rw [List.forall_mem_cons] at nonzero
      by_cases same : strncmp shell.aszLine (literal first) ui32Length = 0
      · have isFirst : first = pszCommand := by
          simpa [List.find?_cons, Completes, same] using found
        subst first
        refine ⟨2, ?_⟩
        have blank : ascii " " = [0x20] := by decide
        have whole := cString_literal nonzero.1 (Nat.zero_le _)
        rw [List.drop_zero] at whole
        have terminated := (terminated_literal nonzero.1).mpr (Nat.zero_le _)
        rw [autoCompleteLoop, readBoth_eq short nonzero.1]
        simp [same, blank, whole, terminated, terminated_literal nonzero.1]
      · have later : commands.find? (Completes shell.aszLine ui32Length) = some pszCommand := by
          simpa [List.find?_cons, Completes, same] using found
        rcases @ih (shell.emit (List.replicate 2 (.string true))) nonzero.2 later with
          ⟨count, rest⟩
        refine ⟨2 + count, ?_⟩
        rw [autoCompleteLoop, readBoth_eq short nonzero.1]
        change (if strncmp shell.aszLine (literal first) ui32Length = 0 then _ else _) = _
        rw [if_neg same, rest]
        simp only [emit]
        rw [List.append_assoc shell.trace, List.replicate_append_replicate]

theorem autoComplete_none (positive : ui32Length ≠ 0) (short : ui32Length ≤ shellCmdSize)
    (nonzero : ∀ pszCommand ∈ commands, 0 ∉ pszCommand)
    (none : commands.find? (Completes shell.aszLine ui32Length) = none) :
    ∃ count, shell.autoComplete commands ui32Length =
      (shell.emit (List.replicate count (.string true)), ui32Length) := by
  rw [autoComplete, if_neg positive]
  exact autoCompleteLoop_none short nonzero none

theorem autoComplete_some (positive : ui32Length ≠ 0) (short : ui32Length ≤ shellCmdSize)
    (nonzero : ∀ pszCommand ∈ commands, 0 ∉ pszCommand) {pszCommand : List UInt8}
    (found : commands.find? (Completes shell.aszLine ui32Length) = some pszCommand) :
    ∃ count, shell.autoComplete commands ui32Length =
      let rest := cString (literal pszCommand) (pszCommand.length + 1) ui32Length
      ({ shell with
          aszLine := store (store shell.aszLine ui32Length (rest ++ [0])) pszCommand.length
            [0x20]
          trace := shell.trace ++ List.replicate count (.string true) ++
            [.string (decide (ui32Length ≤ pszCommand.length)),
              .stored ui32Length (rest.length + 1),
              .string (decide (ui32Length ≤ pszCommand.length))] ++
            printed (rest ++ [0x20]) ++
            [.string true, .stored pszCommand.length 1] },
        pszCommand.length + 1) := by
  rw [autoComplete, if_neg positive]
  exact autoCompleteLoop_some short nonzero found

end Complete

end ShellT

/-- The prompt that a short text becomes. -/
theorem holdsString_shellSetPrompt (statics : ShellStatics) {pszPrompt : List UInt8}
    (short : pszPrompt.length < shellPromptSize) (nonzero : 0 ∉ pszPrompt) :
    HoldsString (shellSetPrompt statics pszPrompt).maszShellPrompt 0 pszPrompt := by
  have fits : ¬pszPrompt.length > shellPromptSize - 1 :=
    Nat.not_lt.mpr (Nat.le_sub_one_of_lt short)
  have copied := holdsString_store statics.maszShellPrompt 0 nonzero
  rw [shellSetPrompt, if_neg fits]
  refine ⟨?_, by simp [store], nonzero⟩
  rw [load_store_disjoint _ (Or.inl (Nat.le_of_eq (Nat.zero_add _))), copied.load]

theorem shellSetPrompt_history (statics : ShellStatics) (pszPrompt : List UInt8) :
    (shellSetPrompt statics pszPrompt).maszShellLineHistory =
      statics.maszShellLineHistory := by
  unfold shellSetPrompt
  split <;> rfl

/-- The static variables once there is a prompt. -/
def prompted (statics : ShellStatics) : ShellStatics :=
  if statics.maszShellPrompt 0 = 0 then shellSetPrompt statics (ascii "xsh") else statics

theorem prompted_history (statics : ShellStatics) :
    (prompted statics).maszShellLineHistory = statics.maszShellLineHistory := by
  unfold prompted
  split
  · exact shellSetPrompt_history statics _
  · rfl

/-- A call starts on an empty line, behind the prompt. -/
theorem shellBegin_eq (statics : ShellStatics) (trace : List ShellEffect) :
    shellBegin statics trace =
      .reading (prompted statics)
        { aszLine := fun _ => 0
          eKeyState := .eWaitIdle
          ui16LinePosition := 0
          ui16LineCurrentPosition := 0
          trace := trace ++ .stored 0 shellCmdSize ::
            .string (decide (Terminated (prompted statics).maszShellPrompt shellPromptSize 0)) ::
            printed (cString (prompted statics).maszShellPrompt shellPromptSize 0 ++
              ascii " > ") } := by
  simp only [shellBegin, ShellT.printString, ShellT.readString, ShellT.print, ShellT.emit,
    printed_append, List.append_assoc]
  rfl

section Finish

variable {shell : ShellT}

theorem shellFinish_history (pszData : Option (Nat → UInt8)) (ui32Length : UInt32)
    (statics : ShellStatics) :
    (shellFinish pszData ui32Length statics shell).statics.maszShellLineHistory =
      if 0 < shell.ui16LinePosition then
        store
          (store statics.maszShellLineHistory 0
            (cString shell.aszLine shellCmdSize 0 ++ [0]))
          shell.ui16LinePosition [0]
      else statics.maszShellLineHistory := by
  unfold shellFinish
  by_cases positive : 0 < shell.ui16LinePosition
  · cases pszData with
    | none => simp [positive]
    | some data => simp [positive]
  · cases pszData with
    | none => simp [positive]
    | some data => simp [positive]

theorem shellFinish_prompt (pszData : Option (Nat → UInt8)) (ui32Length : UInt32)
    (statics : ShellStatics) :
    (shellFinish pszData ui32Length statics shell).statics.maszShellPrompt =
      statics.maszShellPrompt := by
  unfold shellFinish
  by_cases positive : 0 < shell.ui16LinePosition
  · cases pszData with
    | none => simp [positive]
    | some data => simp [positive]
  · cases pszData with
    | none => simp [positive]
    | some data => simp [positive]

theorem shellFinish_trace (pszData : Option (Nat → UInt8)) (ui32Length : UInt32)
    (statics : ShellStatics) :
    (shellFinish pszData ui32Length statics shell).trace =
      shell.trace ++
        (if 0 < shell.ui16LinePosition then
          [.string (decide (Terminated shell.aszLine shellCmdSize 0))]
        else []) ++ printed [0x0a] := by
  unfold shellFinish
  by_cases positive : 0 < shell.ui16LinePosition
  · cases pszData with
    | none => simp [positive, ShellT.readString, ShellT.print, ShellT.emit]
    | some data => simp [positive, ShellT.readString, ShellT.print, ShellT.emit]
  · cases pszData with
    | none => simp [positive, ShellT.print, ShellT.emit]
    | some data => simp [positive, ShellT.print, ShellT.emit]

theorem shellFinish_data (data : Nat → UInt8) (ui32Length : UInt32) (statics : ShellStatics) :
    (shellFinish (some data) ui32Length statics shell).ui32CopyLength =
        min (ui32Length - 1).toNat shell.ui16LinePosition ∧
      (shellFinish (some data) ui32Length statics shell).pszData =
        some (store data 0
          (load shell.aszLine 0 (min (ui32Length - 1).toNat shell.ui16LinePosition))) := by
  unfold shellFinish
  by_cases positive : 0 < shell.ui16LinePosition
  · simp [positive, ShellT.readString, ShellT.print, ShellT.emit]
  · simp [positive, ShellT.print, ShellT.emit]

end Finish

end SunWise.Shell
