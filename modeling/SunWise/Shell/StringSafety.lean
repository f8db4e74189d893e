import SunWise.Library.Runs
import SunWise.Shell.Keys

/-!
# The strings of the shell

Every string that the editor reads ends inside its array, as long as two kinds of keys do
not meet a line that they cannot cope with: a byte that is inserted before the end of the
line is echoed together with whatever follows it up to the next NUL, and a completion that
is shorter than the line is read behind its end.
-/

namespace SunWise.Shell

open Library

/-- Every string that has been read ends inside its array. -/
def StringsInside (trace : List ShellEffect) : Prop :=
  ∀ inside, .string inside ∈ trace → inside = true

/-- The trace of a call. -/
def Call.trace : Call → List ShellEffect
  | .reading _ shell => shell.trace
  | .returned result => result.trace

/-- The shell task: as soon as a call has returned, there is the next one. -/
def sessionStep (pszData : Option (Nat → UInt8)) (ui32Length : UInt32) (call : Call)
    (szData : UInt8) : Call :=
  match callStep gsShellCommandNames pszData ui32Length call szData with
  | .reading statics shell => .reading statics shell
  | .returned result => shellBegin result.statics result.trace

/-- The first call. The static variables are zero. -/
def sessionStart : Call :=
  shellBegin ⟨fun _ => 0, fun _ => 0⟩ []

/-- A key that copes with the line: a byte that is inserted before the end of the line has
a NUL behind it, and a completion is not shorter than the line. -/
def HarmlessKey (shell : ShellT) : Key → Prop
  | .normal szData =>
      shell.ui16LineCurrentPosition < shell.ui16LinePosition →
        szData = 0 ∨ ∃ index, shell.ui16LineCurrentPosition ≤ index ∧ index < shellCmdSize ∧
          index ≠ shell.ui16LinePosition ∧ shell.aszLine index = 0
  | .tab =>
      ∀ pszCommand,
        gsShellCommandNames.find?
            (ShellT.Completes shell.aszLine shell.ui16LinePosition) = some pszCommand →
          shell.ui16LinePosition ≤ pszCommand.length
  | _ => True

/-- A byte that yields no key or one that copes with the line. -/
def Harmless : Call → UInt8 → Prop
  | .reading _ shell, szData =>
      ∀ key, (decode shell.eKeyState szData).2 = some key → HarmlessKey shell key
  | .returned _, _ => True

section Strings

variable {first second : List ShellEffect}

@[simp] theorem stringsInside_append :
    StringsInside (first ++ second) ↔ StringsInside first ∧ StringsInside second := by
  simp only [StringsInside, List.mem_append]
  constructor
  · exact fun inside =>
      ⟨fun isInside isFirst => inside isInside (.inl isFirst),
        fun isInside isSecond => inside isInside (.inr isSecond)⟩
  · rintro ⟨inFirst, inSecond⟩ isInside (isFirst | isSecond)
    · exact inFirst isInside isFirst
    · exact inSecond isInside isSecond

@[simp] theorem stringsInside_nil : StringsInside [] := by
  simp [StringsInside]

@[simp] theorem stringsInside_string {inside : Bool} :
    StringsInside (.string inside :: first) ↔ inside = true ∧ StringsInside first := by
  simp [StringsInside]

@[simp] theorem stringsInside_stored {start count : Nat} :
    StringsInside (.stored start count :: first) ↔ StringsInside first := by
  simp [StringsInside]

@[simp] theorem stringsInside_printed (text : List UInt8) :
    StringsInside (printed text) := by
  simp [StringsInside, printed]

@[simp] theorem stringsInside_replicate (count : Nat) :
    StringsInside (List.replicate count (.string true)) := by
  simp [StringsInside]

end Strings

/-- What holds between keys, however they are typed. -/
structure Sound (statics : ShellStatics) (shell : ShellT) : Prop where
  current_le : shell.ui16LineCurrentPosition ≤ shell.ui16LinePosition
  position_le : shell.ui16LinePosition ≤ 127
  history : Terminated statics.maszShellLineHistory shellCmdSize 0
  prompt : Terminated statics.maszShellPrompt shellPromptSize 0

section Keys

variable {shell : ShellT}

/-- The line and what follows it, after a byte has been inserted. -/
theorem terminated_openGap (middle : shell.ui16LineCurrentPosition < shell.ui16LinePosition)
    (short : shell.ui16LinePosition ≤ 127) (szData : UInt8) :
    Terminated
        (openGap shell.aszLine shell.ui16LineCurrentPosition shell.ui16LinePosition szData)
        shellCmdSize shell.ui16LineCurrentPosition ↔
      szData = 0 ∨ ∃ index, shell.ui16LineCurrentPosition ≤ index ∧ index < shellCmdSize ∧
        index ≠ shell.ui16LinePosition ∧ shell.aszLine index = 0 := by
  have opened := openGap_apply shell.aszLine (Nat.le_of_lt middle) szData
  have size : shellCmdSize = 128 := rfl
  rw [terminated_iff]
  constructor
  · rintro ⟨index, after, inside, isNul⟩
    rw [opened] at isNul
    split at isNul
    next => exact .inl isNul
    next notCursor =>
      split at isNul
      next moved => exact .inr ⟨index - 1, by omega, by omega, by omega, isNul⟩
      next notMoved => exact .inr ⟨index, after, inside, by omega, isNul⟩
  · rintro (rfl | ⟨index, after, inside, apart, isNul⟩)
    · exact ⟨_, Nat.le_refl _, by omega, by rw [opened, if_pos rfl]⟩
    · by_cases moves : index < shell.ui16LinePosition
      · refine ⟨index + 1, by omega, by omega, ?_⟩
        rw [opened, if_neg (by omega), if_pos (by omega)]
        exact isNul
      · refine ⟨index, after, inside, ?_⟩
        rw [opened, if_neg (by omega), if_neg (by omega)]
        exact isNul

theorem Sound.normalKey {statics : ShellStatics} (sound : Sound statics shell)
    (szData : UInt8) : Sound statics (shell.normalKey szData) := by
  have size : shellCmdSize = 128 := rfl
  have current_le := sound.current_le
  refine ⟨?_, ?_, sound.history, sound.prompt⟩
  · rw [ShellT.normalKey_position, ShellT.normalKey_current]
    split
    · exact Nat.le_refl _
    · exact Nat.succ_le_succ current_le
  · rw [ShellT.normalKey_position]
    split
    · exact Nat.zero_le _
    · omega

theorem normalKey_strings {statics : ShellStatics} (sound : Sound statics shell)
    (szData : UInt8) :
    StringsInside (shell.normalKey szData).trace ↔
      StringsInside shell.trace ∧
        (shell.ui16LineCurrentPosition < shell.ui16LinePosition →
          szData = 0 ∨ ∃ index, shell.ui16LineCurrentPosition ≤ index ∧
            index < shellCmdSize ∧ index ≠ shell.ui16LinePosition ∧
            shell.aszLine index = 0) := by
  rcases Nat.eq_or_lt_of_le sound.current_le with atEnd | middle
  · rw [ShellT.normalKey_trace_end szData atEnd]
    simp [atEnd]
  · rw [ShellT.normalKey_trace_middle szData middle]
    simp only [stringsInside_append, stringsInside_stored, stringsInside_string,
      stringsInside_printed, decide_eq_true_eq, and_true,
      terminated_openGap middle sound.position_le]
    simp only [middle, forall_const]

theorem Sound.backspaceKey {statics : ShellStatics} (sound : Sound statics shell) :
    Sound statics shell.backspaceKey := by
  by_cases atStart : shell.ui16LineCurrentPosition = 0
  · rwa [ShellT.backspaceKey_zero atStart]
  · have position := ShellT.backspaceKey_position atStart
    refine ⟨?_, ?_, sound.history, sound.prompt⟩
    · rw [position, ShellT.backspaceKey_current]
      exact Nat.sub_le_sub_right sound.current_le 1
    · rw [position]
      exact Nat.le_trans (Nat.sub_le _ _) sound.position_le

theorem backspaceKey_strings {statics : ShellStatics} (sound : Sound statics shell) :
    StringsInside shell.backspaceKey.trace ↔ StringsInside shell.trace := by
  have position_le := sound.position_le
  by_cases atStart : shell.ui16LineCurrentPosition = 0
  · rw [ShellT.backspaceKey_zero atStart]
  · rcases Nat.eq_or_lt_of_le sound.current_le with atEnd | middle
    · rw [ShellT.backspaceKey_trace_end (by omega) atEnd]
      simp
    · -- the shortened line has just been given its NUL
      have terminated : Terminated
          (store
            (closeGap shell.aszLine (shell.ui16LineCurrentPosition - 1)
              (shell.ui16LinePosition - 1))
            (shell.ui16LinePosition - 1) [0])
          shellCmdSize (shell.ui16LineCurrentPosition - 1) := by
        have size : shellCmdSize = 128 := rfl
        rw [terminated_iff]
        exact ⟨shell.ui16LinePosition - 1, by omega, by omega, by simp [store]⟩
      rw [ShellT.backspaceKey_trace_middle atStart middle]
      simp [terminated]

/-- A completion reads the command behind the end of the line. -/
theorem tabKey_strings {statics : ShellStatics} (sound : Sound statics shell)
    (positive : 0 < shell.ui16LinePosition) :
    let completed := shell.autoComplete gsShellCommandNames shell.ui16LinePosition
    Sound statics (completed.1.moveTo completed.2) ∧
      (StringsInside (completed.1.moveTo completed.2).trace ↔
        StringsInside shell.trace ∧
          ∀ pszCommand,
            gsShellCommandNames.find?
                (ShellT.Completes shell.aszLine shell.ui16LinePosition) = some pszCommand →
              shell.ui16LinePosition ≤ pszCommand.length) := by
  have short : shell.ui16LinePosition ≤ shellCmdSize := Nat.le_succ_of_le sound.position_le
  have nonzero := gsShellCommandNames_nonzero
  have notZero := Nat.ne_of_gt positive
  cases found : gsShellCommandNames.find?
      (ShellT.Completes shell.aszLine shell.ui16LinePosition) with
  | none =>
      rcases ShellT.autoComplete_none notZero short nonzero found with ⟨count, completed⟩
      rw [completed]
      refine ⟨⟨Nat.le_refl _, sound.position_le, sound.history, sound.prompt⟩, ?_⟩
      simp [ShellT.moveTo, ShellT.emit]
  | some pszCommand =>
      rcases ShellT.autoComplete_some notZero short nonzero found with ⟨count, completed⟩
      have bounded := gsShellCommandNames_bounded pszCommand (List.mem_of_find?_eq_some found)
      rw [completed]
      refine ⟨⟨Nat.le_refl _, bounded.1, sound.history, sound.prompt⟩, ?_⟩
      simp [ShellT.moveTo]

theorem leftKey_strings {statics : ShellStatics} (sound : Sound statics shell) :
    Sound statics shell.leftKey ∧
      (StringsInside shell.leftKey.trace ↔ StringsInside shell.trace) := by
  unfold ShellT.leftKey
  split
  next =>
    refine ⟨⟨?_, sound.position_le, sound.history, sound.prompt⟩, ?_⟩
    · exact Nat.le_trans (Nat.sub_le _ _) sound.current_le
    · simp [ShellT.print, ShellT.emit]
  next => exact ⟨sound, Iff.rfl⟩

theorem rightKey_strings {statics : ShellStatics} (sound : Sound statics shell) :
    Sound statics shell.rightKey ∧
      (StringsInside shell.rightKey.trace ↔ StringsInside shell.trace) := by
  unfold ShellT.rightKey
  split
  next inside =>
    refine ⟨⟨inside, sound.position_le, sound.history, sound.prompt⟩, ?_⟩
    simp [ShellT.print, ShellT.emit]
  next => exact ⟨sound, Iff.rfl⟩

theorem downKey_strings {statics : ShellStatics} (sound : Sound statics shell) :
    Sound statics shell.downKey ∧
      (StringsInside shell.downKey.trace ↔ StringsInside shell.trace) := by
  refine ⟨⟨Nat.le_refl _, Nat.zero_le _, sound.history, sound.prompt⟩, ?_⟩
  simp [ShellT.downKey, ShellT.moveTo, ShellT.printTimes, ShellT.print, ShellT.emit]

theorem upKey_strings {statics : ShellStatics} (sound : Sound statics shell) :
    Sound statics (shell.upKey statics.maszShellLineHistory) ∧
      (StringsInside (shell.upKey statics.maszShellLineHistory).trace ↔
        StringsInside shell.trace) := by
  rcases holdsString_cString sound.history with ⟨holds, fits⟩
  rw [Nat.zero_add] at fits
  rw [ShellT.upKey_eq holds fits]
  refine ⟨⟨Nat.le_refl _, Nat.le_of_lt_succ fits, sound.history, sound.prompt⟩, ?_⟩
  simp

end Keys

section Calls

variable {statics : ShellStatics} {shell : ShellT}

theorem begin_strings (trace : List ShellEffect)
    (history : Terminated statics.maszShellLineHistory shellCmdSize 0)
    (prompt : Terminated statics.maszShellPrompt shellPromptSize 0) :
    ∃ later next, shellBegin statics trace = .reading later next ∧ Sound later next ∧
      (StringsInside next.trace ↔ StringsInside trace) := by
  have ends : Terminated (prompted statics).maszShellPrompt shellPromptSize 0 := by
    unfold prompted
    split
    · exact (holdsString_shellSetPrompt statics (by decide) (by decide)).terminated (by decide)
    · exact prompt
  refine ⟨_, _, shellBegin_eq statics trace, ⟨Nat.le_refl _, Nat.zero_le _, ?_, ends⟩, ?_⟩
  · rwa [prompted_history]
  · simp [ends]

theorem finish_strings (pszData : Option (Nat → UInt8)) (ui32Length : UInt32)
    (position_le : shell.ui16LinePosition ≤ 127)
    (line : Terminated shell.aszLine shellCmdSize 0)
    (history : Terminated statics.maszShellLineHistory shellCmdSize 0)
    (prompt : Terminated statics.maszShellPrompt shellPromptSize 0) :
    ∃ later next,
      shellBegin (shellFinish pszData ui32Length statics shell).statics
          (shellFinish pszData ui32Length statics shell).trace = .reading later next ∧
        Sound later next ∧ (StringsInside next.trace ↔ StringsInside shell.trace) := by
  have kept : Terminated
      (shellFinish pszData ui32Length statics shell).statics.maszShellLineHistory
      shellCmdSize 0 := by
    rw [shellFinish_history]
    split
    · rw [terminated_iff]
      exact ⟨shell.ui16LinePosition, Nat.zero_le _, Nat.lt_succ_of_le position_le,
        by simp [store]⟩
    · exact history
  have keptPrompt : Terminated
      (shellFinish pszData ui32Length statics shell).statics.maszShellPrompt
      shellPromptSize 0 := by
    rwa [shellFinish_prompt]
  rcases begin_strings (shellFinish pszData ui32Length statics shell).trace kept keptPrompt
    with ⟨later, next, begins, sound, strings⟩
  refine ⟨later, next, begins, sound, strings.trans ?_⟩
  rw [shellFinish_trace]
  split
  · simp [line]
  · simp

variable {pszData : Option (Nat → UInt8)} {ui32Length : UInt32} {szData : UInt8}

/-- A call that is sound. -/
def SoundCall : Call → Prop
  | .reading statics shell => Sound statics shell
  | .returned _ => False

/-- What becomes of a turn. -/
def sessionTurn (pszData : Option (Nat → UInt8)) (ui32Length : UInt32)
    (statics : ShellStatics) : Turn → Call
  | .again shell => .reading statics shell
  | .leave shell =>
      shellBegin (shellFinish pszData ui32Length statics shell).statics
        (shellFinish pszData ui32Length statics shell).trace

theorem sessionStep_reading :
    sessionStep pszData ui32Length (.reading statics shell) szData =
      sessionTurn pszData ui32Length statics
        (shellTurn gsShellCommandNames statics.maszShellLineHistory shell szData) := by
  simp only [sessionStep, callStep]
  cases shellTurn gsShellCommandNames statics.maszShellLineHistory shell szData with
  | again shell => rfl
  | leave shell => rfl

theorem leave_strings (left : ShellT) (position_le : left.ui16LinePosition ≤ 127)
    (line : Terminated left.aszLine shellCmdSize 0)
    (strings : StringsInside left.trace ↔ StringsInside shell.trace)
    (sound : Sound statics shell) :
    SoundCall (sessionTurn pszData ui32Length statics (.leave left)) ∧
      (StringsInside (sessionTurn pszData ui32Length statics (.leave left)).trace ↔
        StringsInside shell.trace) := by
  rcases finish_strings pszData ui32Length position_le line sound.history sound.prompt with
    ⟨later, next, begins, nextSound, nextStrings⟩
  rw [sessionTurn, begins]
  exact ⟨nextSound, nextStrings.trans strings⟩

theorem harmless_strings {key : Key} {next : Call} (harmless : HarmlessKey shell key)
    (strings : SoundCall next ∧ (StringsInside next.trace ↔ StringsInside shell.trace)) :
    SoundCall next ∧
      (StringsInside next.trace ↔ StringsInside shell.trace ∧ HarmlessKey shell key) := by
  rw [and_iff_left harmless]
  exact strings

/-- A key: the editor stays sound, and its strings stay inside their arrays exactly if the
key is harmless. -/
theorem press_strings (sound : Sound statics shell) (key : Key) :
    let next := sessionTurn pszData ui32Length statics
      (shell.press gsShellCommandNames statics.maszShellLineHistory key)
    SoundCall next ∧
      (StringsInside next.trace ↔ StringsInside shell.trace ∧ HarmlessKey shell key) := by
  have position_le := sound.position_le
  cases key with
  | up => exact harmless_strings trivial (upKey_strings sound)
  | down => exact harmless_strings trivial (downKey_strings sound)
  | right => exact harmless_strings trivial (rightKey_strings sound)
  | left => exact harmless_strings trivial (leftKey_strings sound)
  | tab =>
      by_cases positive : 0 < shell.ui16LinePosition
      · rw [ShellT.press, if_pos positive]
        exact tabKey_strings sound positive
      · have isEmpty : shell.ui16LinePosition = 0 := Nat.eq_zero_of_not_pos positive
        rw [ShellT.press, if_neg positive]
        refine harmless_strings (fun _ _ => isEmpty ▸ Nat.zero_le _) ?_
        apply leave_strings shell.helpKey _ _ _ sound
        · rw [ShellT.helpKey_eq]
          exact (by decide : 4 ≤ 127)
        · rw [ShellT.helpKey_eq, terminated_iff]
          exact ⟨4, Nat.zero_le _, by decide, by simp [store]⟩
        · rw [ShellT.helpKey_eq]
          simp
  | backspace =>
      exact harmless_strings trivial ⟨sound.backspaceKey, backspaceKey_strings sound⟩
  | enter =>
      refine harmless_strings trivial ?_
      apply leave_strings shell.enterKey position_le _ _ sound
      · rw [terminated_iff]
        exact ⟨shell.ui16LinePosition, Nat.zero_le _, Nat.lt_succ_of_le position_le,
          by simp [ShellT.enterKey, ShellT.storeLine, store]⟩
      · simp [ShellT.enterKey, ShellT.storeLine, ShellT.emit]
  | normal szData => exact ⟨sound.normalKey szData, normalKey_strings sound szData⟩

theorem sessionStep_strings {call : Call} (sound : SoundCall call) (sevenBits : szData < 0x80) :
    SoundCall (sessionStep pszData ui32Length call szData) ∧
      (StringsInside (sessionStep pszData ui32Length call szData).trace ↔
        StringsInside call.trace ∧ Harmless call szData) := by
  cases call with
  | returned result => exact sound.elim
  | reading statics shell =>
      simp only [SoundCall] at sound
      rw [sessionStep_reading, shellTurn_eq sevenBits]
      simp only [Harmless]
      rcases decode shell.eKeyState szData with ⟨state, key⟩
      have moved : Sound statics { shell with eKeyState := state } :=
        ⟨sound.current_le, sound.position_le, sound.history, sound.prompt⟩
      cases key with
      | none => exact ⟨moved, by simp [sessionTurn, Call.trace]⟩
      | some key =>
          simp only [Option.some.injEq, forall_eq']
          exact press_strings moved key

/-- Whatever is typed, the strings of the shell stay inside their arrays exactly if every
key is harmless. -/
theorem session_strings_iff (pszData : Option (Nat → UInt8)) (ui32Length : UInt32)
    (typed : List UInt8) (sevenBits : ∀ szData ∈ typed, szData < 0x80) :
    StringsInside (typed.foldl (sessionStep pszData ui32Length) sessionStart).trace ↔
      Accepts (sessionStep pszData ui32Length) Harmless sessionStart typed := by
  have zeros : ∀ limit, 0 < limit → Terminated (fun _ => 0) limit 0 :=
    fun limit positive => terminated_iff.mpr ⟨0, Nat.le_refl _, positive, rfl⟩
  rcases @begin_strings ⟨fun _ => 0, fun _ => 0⟩ [] (zeros _ (by decide)) (zeros _ (by decide))
    with ⟨statics, shell, begins, sound, strings⟩
  have start : SoundCall sessionStart := by
    rw [sessionStart, begins]
    exact sound
  have safe : StringsInside sessionStart.trace := by
    rw [sessionStart, begins]
    exact strings.mpr stringsInside_nil
  have survives := survives_iff_accepts (P := fun call => StringsInside call.trace)
    (fun call szData sound below =>
      @sessionStep_strings pszData ui32Length szData call sound below) start sevenBits
  simpa only [safe, true_and] using survives

/-- A byte is inserted into a line that still has its NUL. -/
theorem session_strings_insert :
    StringsInside (([0x61, 0x62, 0x1b, 0x5b, 0x44, 0x63] : List UInt8).foldl
        (sessionStep none 128) sessionStart).trace ↔
      Accepts (sessionStep none 128) Harmless sessionStart
        [0x61, 0x62, 0x1b, 0x5b, 0x44, 0x63] :=
  session_strings_iff none 128 _ (forall_of_all (by decide))

/-- A typed NUL lets `help` match a longer line. -/
theorem session_strings_not_inside :
    ¬StringsInside (([0x68, 0x65, 0x6c, 0x70, 0x00, 0x09] : List UInt8).foldl
      (sessionStep none 128) sessionStart).trace := by
  intro inside
  have isOutside : .string false ∈ (([0x68, 0x65, 0x6c, 0x70, 0x00, 0x09] : List UInt8).foldl
      (sessionStep none 128) sessionStart).trace := by decide
  cases inside false isOutside

end Calls

end SunWise.Shell
