import SunWise.Library.LineEditor
import SunWise.Shell.Keys

/-!
# The shell edits a line

`Shell_GetCommand` against an editor of a list of bytes with a cursor.  The bytes of
`aszLine` behind the line are whatever earlier keys left there and never matter.
-/

namespace SunWise.Shell

open Library

/-- A line of fewer than `SHELL_CMD_SIZE` bytes. -/
abbrev Editor := LineEditor UInt8 127

/-- The editor while it waits for keys, and with the line that it has accepted. -/
inductive EditorCall where
  | editing (state : KeyState) (editor : Editor) (history : List UInt8)
  | accepted (line history : List UInt8)

/-- An accepted line becomes the history unless it is empty. -/
def EditorCall.accept (line history : List UInt8) : EditorCall :=
  .accepted line (if line = [] then history else line)

/-- The action of a key. -/
def EditorCall.press (commands : List (List UInt8)) (state : KeyState) (editor : Editor)
    (history : List UInt8) : Key → EditorCall
  | .up => .editing state (.replace history) history
  | .down => .editing state .empty history
  | .right => .editing state editor.right history
  | .left => .editing state editor.left history
  | .tab =>
      if editor.line = [] then .accept (ascii "help") history
      else .editing state (editor.complete commands 0x20) history
  | .backspace => .editing state editor.delete history
  | .enter => .accept editor.line history
  | .normal szData => .editing state (editor.insert szData) history

/-- A typed byte. -/
def EditorCall.step (commands : List (List UInt8)) : EditorCall → UInt8 → EditorCall
  | .editing state editor history, szData =>
      match decode state szData with
      | (state, none) => .editing state editor history
      | (state, some key) => press commands state editor history key
  | .accepted line history, _ => .accepted line history

/-- The reference editor on what is typed. -/
def editCommand (history typed : List UInt8) : EditorCall :=
  typed.foldl (EditorCall.step gsShellCommandNames) (.editing .eWaitIdle .empty history)

/-- Every store to `aszLine` is inside the array. -/
def StoresInside (trace : List ShellEffect) : Prop :=
  ∀ start count, .stored start count ∈ trace → start + count ≤ shellCmdSize

/-- The shell holds the line and the cursor of the editor. -/
structure Shows (shell : ShellT) (state : KeyState) (editor : Editor) : Prop where
  state : shell.eKeyState = state
  position : shell.ui16LinePosition = editor.line.length
  current : shell.ui16LineCurrentPosition = editor.cursor
  line : load shell.aszLine 0 editor.line.length = editor.line
  bytes : 0 ∉ editor.line
  stores : StoresInside shell.trace

/-- The call and the reference editor are at the same point. -/
def Agrees (pszData : Nat → UInt8) (ui32Length : UInt32) : Call → EditorCall → Prop
  | .reading statics shell, .editing state editor history =>
      Shows shell state editor ∧
        shell.ui16LineCurrentPosition ≤ shell.ui16LinePosition ∧
        shell.ui16LinePosition ≤ 127 ∧
        HoldsString statics.maszShellLineHistory 0 history ∧ history.length ≤ 127
  | .returned result, .accepted line history =>
      result.ui32CopyLength = (line.take (ui32Length.toNat - 1)).length ∧
        result.pszData = some (store pszData 0 (line.take (ui32Length.toNat - 1))) ∧
        HoldsString result.statics.maszShellLineHistory 0 history ∧ history.length ≤ 127 ∧
        StoresInside result.trace
  | _, _ => False

section Stores

variable {first second : List ShellEffect}

@[simp] theorem storesInside_append :
    StoresInside (first ++ second) ↔ StoresInside first ∧ StoresInside second := by
  simp only [StoresInside, List.mem_append]
  constructor
  · exact fun inside =>
      ⟨fun start count isFirst => inside start count (.inl isFirst),
        fun start count isSecond => inside start count (.inr isSecond)⟩
  · rintro ⟨inFirst, inSecond⟩ start count (isFirst | isSecond)
    · exact inFirst start count isFirst
    · exact inSecond start count isSecond

@[simp] theorem storesInside_nil : StoresInside [] := by
  simp [StoresInside]

@[simp] theorem storesInside_stored {start count : Nat} :
    StoresInside (.stored start count :: first) ↔
      start + count ≤ shellCmdSize ∧ StoresInside first := by
  simp only [StoresInside, List.mem_cons, ShellEffect.stored.injEq]
  constructor
  · exact fun inside =>
      ⟨inside start count (.inl ⟨rfl, rfl⟩), fun start count isLater =>
        inside start count (.inr isLater)⟩
  · rintro ⟨isInside, later⟩ start count (⟨rfl, rfl⟩ | isLater)
    · exact isInside
    · exact later start count isLater

@[simp] theorem storesInside_string {inside : Bool} :
    StoresInside (.string inside :: first) ↔ StoresInside first := by
  simp [StoresInside]

@[simp] theorem storesInside_printed (text : List UInt8) : StoresInside (printed text) := by
  simp [StoresInside, printed]

@[simp] theorem storesInside_replicate (count : Nat) (inside : Bool) :
    StoresInside (List.replicate count (.string inside)) := by
  simp [StoresInside]

end Stores

/-! ## The keys -/

/-- The line, completed by the rest of a command, its NUL and a blank over the NUL. -/
theorem load_completed {aszLine : Nat → UInt8} {line : List UInt8}
    (loaded : load aszLine 0 line.length = line) (rest : List UInt8) :
    load (store (store aszLine line.length (rest ++ [0])) (line ++ rest).length [0x20]) 0
      (line ++ rest ++ [0x20]).length = line ++ rest ++ [0x20] := by
  have held : load (store aszLine line.length (rest ++ [0])) 0 (line ++ rest).length =
      line ++ rest := by
    rw [store_append, load_store_disjoint _ (Or.inl (by rw [List.length_append]; omega)),
      List.length_append]
    have extended := load_store_extend aszLine loaded rest
    rwa [Nat.zero_add] at extended
  have extended := load_store_extend _ held [0x20]
  rwa [Nat.zero_add, ← List.length_append] at extended

section AutoComplete

variable {shell : ShellT} {commands : List (List UInt8)} {line : List UInt8}

/-- The test of `Shell_AutoComplete` on a line in the buffer. -/
theorem isPrefixOf_eq_completes {aszLine : Nat → UInt8}
    (loaded : load aszLine 0 line.length = line) (bytes : 0 ∉ line) :
    (fun pszCommand => line.isPrefixOf pszCommand) = ShellT.Completes aszLine line.length := by
  funext pszCommand
  rw [Bool.eq_iff_iff, List.isPrefixOf_iff_prefix, ShellT.Completes, beq_iff_eq,
    strncmp_eq_zero_iff_load (loaded.symm ▸ bytes), loaded, load_literal_eq_iff bytes]

/-- The line in the buffer is completed, and nothing is stored behind the buffer. -/
structure AutoCompleted (shell : ShellT) (completed : List UInt8) (result : ShellT × Nat) :
    Prop where
  state : result.1.eKeyState = shell.eKeyState
  position : result.2 = completed.length
  line : load result.1.aszLine 0 completed.length = completed
  outside : ∀ index, shellCmdSize ≤ index → result.1.aszLine index = shell.aszLine index
  stores : ∃ effects, result.1.trace = shell.trace ++ effects ∧ StoresInside effects

/-- `Shell_AutoComplete` completes the line, if the commands fit in the buffer. -/
theorem autoComplete_completed (loaded : load shell.aszLine 0 line.length = line)
    (bytes : 0 ∉ line) (notEmpty : line ≠ []) (short : line.length ≤ shellCmdSize)
    (nonzero : ∀ pszCommand ∈ commands, 0 ∉ pszCommand)
    (fits : ∀ pszCommand ∈ commands, pszCommand.length < shellCmdSize) :
    AutoCompleted shell (LineEditor.completeLine commands 0x20 line)
      (shell.autoComplete commands line.length) := by
  have positive : line.length ≠ 0 := fun isEmpty => notEmpty (List.length_eq_zero_iff.mp isEmpty)
  rw [LineEditor.completeLine, isPrefixOf_eq_completes loaded bytes]
  cases found : commands.find? (ShellT.Completes shell.aszLine line.length) with
  | none =>
      rcases ShellT.autoComplete_none positive short nonzero found with ⟨count, completed⟩
      rw [completed]
      exact ⟨rfl, rfl, loaded, fun _ _ => rfl, _, rfl, storesInside_replicate count true⟩
  | some pszCommand =>
      rcases ShellT.autoComplete_some positive short nonzero found with ⟨count, completed⟩
      have isIn := List.mem_of_find?_eq_some found
      have inside := fits pszCommand isIn
      obtain ⟨rest, rfl⟩ : ∃ rest, line ++ rest = pszCommand := by
        have isPrefix := List.find?_some found
        rwa [← isPrefixOf_eq_completes loaded bytes, List.isPrefixOf_iff_prefix] at isPrefix
      rw [completed, cString_literal (nonzero _ isIn) (by rw [List.length_append]; omega),
        List.drop_left]
      have length : (line ++ rest ++ [0x20]).length = (line ++ rest).length + 1 :=
        List.length_append
      rw [List.length_append] at inside
      constructor
      case state => rfl
      case position => exact length.symm
      case line => exact load_completed loaded rest
      case outside =>
        intro index behind
        dsimp only
        rw [store_apply_outside _ (by simp; omega), store_apply_outside _ (by simp; omega)]
      case stores =>
        refine ⟨List.replicate count (.string true) ++ _, by
          simp only [List.append_assoc]
          rfl, ?_⟩
        simp [shellCmdSize] at inside ⊢
        omega

end AutoComplete

/-- What a command needs to be typed by the tab key. -/
structure Typable (pszCommand : List UInt8) : Prop where
  short : pszCommand.length + 1 ≤ 127
  nonzero : 0 ∉ pszCommand

namespace Shows

variable {shell : ShellT} {state : KeyState} {editor : Editor}

theorem current_le (shows : Shows shell state editor) :
    shell.ui16LineCurrentPosition ≤ shell.ui16LinePosition := by
  rw [shows.position, shows.current]
  exact editor.cursor_le

theorem position_le (shows : Shows shell state editor) : shell.ui16LinePosition ≤ 127 := by
  rw [shows.position]
  exact editor.length_le

theorem empty (isState : shell.eKeyState = state) (isEmpty : shell.ui16LinePosition = 0)
    (current : shell.ui16LineCurrentPosition = 0) (stores : StoresInside shell.trace) :
    Shows shell state .empty :=
  ⟨isState, isEmpty, current, rfl, List.not_mem_nil, stores⟩

theorem replace {line : List UInt8} (short : line.length ≤ 127) (isState : shell.eKeyState = state)
    (position : shell.ui16LinePosition = line.length)
    (current : shell.ui16LineCurrentPosition = line.length)
    (loaded : load shell.aszLine 0 line.length = line) (bytes : 0 ∉ line)
    (stores : StoresInside shell.trace) : Shows shell state (.replace line) := by
  rw [LineEditor.replace, LineEditor.ofLine_eq _ short]
  exact ⟨isState, position, current, loaded, bytes, stores⟩

theorem leftKey (shows : Shows shell state editor) :
    Shows shell.leftKey state editor.left := by
  rcases shows with ⟨isState, position, current, line, bytes, stores⟩
  unfold ShellT.leftKey
  split
  next =>
    refine ⟨isState, position, ?_, line, bytes, ?_⟩
    · simp [current, LineEditor.left]
    · simp [ShellT.print, ShellT.emit, stores]
  next atStart =>
    refine ⟨isState, position, ?_, line, bytes, stores⟩
    change shell.ui16LineCurrentPosition = editor.cursor - 1
    omega

theorem rightKey (shows : Shows shell state editor) :
    Shows shell.rightKey state editor.right := by
  have cursor_le := editor.cursor_le
  rcases shows with ⟨isState, position, current, line, bytes, stores⟩
  unfold ShellT.rightKey
  split
  next inside =>
    refine ⟨isState, position, ?_, line, bytes, ?_⟩
    · change shell.ui16LineCurrentPosition + 1 = min (editor.cursor + 1) editor.line.length
      omega
    · simp [ShellT.print, ShellT.emit, stores]
  next atEnd =>
    refine ⟨isState, position, ?_, line, bytes, stores⟩
    change shell.ui16LineCurrentPosition = min (editor.cursor + 1) editor.line.length
    omega

theorem downKey (shows : Shows shell state editor) : Shows shell.downKey state .empty := by
  refine .empty shows.state rfl rfl ?_
  simp [ShellT.downKey, ShellT.moveTo, ShellT.printTimes, ShellT.print, ShellT.emit,
    shows.stores]

theorem upKey (shows : Shows shell state editor) {array : Nat → UInt8} {history : List UInt8}
    (holds : HoldsString array 0 history) (short : history.length ≤ 127) :
    Shows (shell.upKey array) state (.replace history) := by
  have copied := holdsString_store shell.aszLine 0 holds.nonzero
  rw [ShellT.upKey_eq holds (Nat.lt_succ_of_le short)]
  refine .replace short shows.state rfl rfl copied.load holds.nonzero ?_
  simp [shows.stores, shellCmdSize]
  omega

theorem normalKey_stores (shows : Shows shell state editor) (szData : UInt8) :
    StoresInside (shell.normalKey szData).trace := by
  have short := shows.position_le
  rcases Nat.eq_or_lt_of_le shows.current_le with atEnd | middle
  · rw [ShellT.normalKey_trace_end szData atEnd]
    simp [shows.stores, shellCmdSize]
    omega
  · rw [ShellT.normalKey_trace_middle szData middle]
    simp [shows.stores, shellCmdSize]
    omega

theorem normalKey (shows : Shows shell state editor) {szData : UInt8} (isByte : szData ≠ 0) :
    Shows (shell.normalKey szData) state (editor.insert szData) := by
  have stores := shows.normalKey_stores szData
  have isState : (shell.normalKey szData).eKeyState = state := by
    rw [ShellT.normalKey_eKeyState, shows.state]
  have position := shell.normalKey_position szData
  have current := shell.normalKey_current szData
  have length := editor.length_insert szData
  rw [shows.position] at position current
  by_cases long : 127 < editor.line.length + 1
  · have full : editor.line.length + 1 ≥ shellCmdSize := long
    rw [if_pos full] at position current
    rw [LineEditor.insert, LineEditor.ofLine_eq_empty _ (by rwa [length])]
    exact .empty isState position current stores
  · have notFull : ¬editor.line.length + 1 ≥ shellCmdSize := long
    rw [if_neg notFull] at position current
    rw [LineEditor.insert, LineEditor.ofLine_eq _ (by rw [length]; exact Nat.not_lt.mp long)]
    refine ⟨isState, ?_, ?_, ?_, ?_, stores⟩
    · simp only [length, position]
    · simp only [current, shows.current]
    · simp only [length]
      rw [ShellT.normalKey_aszLine szData shows.current_le, shows.position,
        load_openGap _ (shows.position ▸ shows.current_le), shows.line, shows.current]
    · simp only [List.mem_append, List.mem_cons, not_or]
      exact ⟨fun isIn => shows.bytes (List.mem_of_mem_take isIn), isByte.symm,
        fun isIn => shows.bytes (List.mem_of_mem_drop isIn)⟩

theorem backspaceKey_stores (shows : Shows shell state editor) :
    StoresInside shell.backspaceKey.trace := by
  have short := shows.position_le
  by_cases atStart : shell.ui16LineCurrentPosition = 0
  · rw [ShellT.backspaceKey_zero atStart]
    exact shows.stores
  · rcases Nat.eq_or_lt_of_le shows.current_le with atEnd | middle
    · rw [ShellT.backspaceKey_trace_end (by omega) atEnd]
      simp [shows.stores, shellCmdSize]
      omega
    · rw [ShellT.backspaceKey_trace_middle atStart middle]
      simp [shows.stores, shellCmdSize]
      omega

theorem backspaceKey (shows : Shows shell state editor) :
    Shows shell.backspaceKey state editor.delete := by
  have stores := shows.backspaceKey_stores
  by_cases atStart : shell.ui16LineCurrentPosition = 0
  · rw [ShellT.backspaceKey_zero atStart,
      editor.delete_start (by rw [← shows.current, atStart])]
    exact shows
  · have notStart : editor.cursor ≠ 0 := by rwa [← shows.current]
    have cursor_le := editor.cursor_le
    have shorter := editor.length_delete notStart
    have length_le := editor.length_le
    have one_less : editor.line.length - 1 + 1 = editor.line.length := by omega
    have cursor : editor.cursor - 1 + 1 = editor.cursor := by omega
    rw [LineEditor.delete, LineEditor.ofLine_eq _ (by rw [shorter]; omega)]
    refine ⟨?_, ?_, ?_, ?_, ?_, stores⟩
    · rw [ShellT.backspaceKey_eKeyState, shows.state]
    · rw [ShellT.backspaceKey_position atStart, shows.position]
      exact shorter.symm
    · rw [ShellT.backspaceKey_current, shows.current]
    · simp only [shorter]
      rw [ShellT.backspaceKey_aszLine atStart, shows.position, shows.current,
        load_store_disjoint _ (Or.inl (by omega)), load_closeGap _ (by omega), one_less,
        cursor, shows.line]
    · simp only [List.mem_append, not_or]
      exact ⟨fun isIn => shows.bytes (List.mem_of_mem_take isIn),
        fun isIn => shows.bytes (List.mem_of_mem_drop isIn)⟩

theorem completes_eq (shows : Shows shell state editor) :
    (fun pszCommand => editor.line.isPrefixOf pszCommand) =
      ShellT.Completes shell.aszLine shell.ui16LinePosition := by
  rw [shows.position]
  exact isPrefixOf_eq_completes shows.line shows.bytes

theorem found_eq (shows : Shows shell state editor) {commands : List (List UInt8)}
    {pszCommand : List UInt8}
    (found : commands.find? (ShellT.Completes shell.aszLine shell.ui16LinePosition) =
      some pszCommand) : ∃ rest, editor.line ++ rest = pszCommand := by
  have isPrefix := List.find?_some found
  rw [← shows.completes_eq, List.isPrefixOf_iff_prefix] at isPrefix
  exact isPrefix

theorem position_ne_zero (shows : Shows shell state editor) (notEmpty : editor.line ≠ []) :
    shell.ui16LinePosition ≠ 0 := by
  rw [shows.position]
  exact fun isEmpty => notEmpty (List.length_eq_zero_iff.mp isEmpty)

theorem tabKey (shows : Shows shell state editor) (notEmpty : editor.line ≠ [])
    {commands : List (List UInt8)} (typable : ∀ pszCommand ∈ commands, Typable pszCommand) :
    Shows
      ((shell.autoComplete commands shell.ui16LinePosition).1.moveTo
        (shell.autoComplete commands shell.ui16LinePosition).2)
      state (editor.complete commands 0x20) := by
  have completed := autoComplete_completed shows.line shows.bytes notEmpty
    (Nat.le_succ_of_le editor.length_le) (fun pszCommand isIn => (typable pszCommand isIn).nonzero)
    (fun pszCommand isIn => Nat.lt_succ_of_lt (typable pszCommand isIn).short)
  have length_le : (LineEditor.completeLine commands 0x20 editor.line).length ≤ 127 := by
    refine LineEditor.completeLine_of_forall (P := fun line => line.length ≤ 127) commands 0x20
      editor.line editor.length_le ?_
    intro pszCommand isIn
    rw [List.length_append]
    exact (typable pszCommand isIn).short
  have bytes : 0 ∉ LineEditor.completeLine commands 0x20 editor.line := by
    refine LineEditor.completeLine_of_forall (P := fun line => 0 ∉ line) commands 0x20
      editor.line shows.bytes ?_
    intro pszCommand isIn
    simpa using (typable pszCommand isIn).nonzero
  rcases completed.stores with ⟨effects, trace, inside⟩
  rw [shows.position, LineEditor.complete_eq]
  refine .replace length_le (completed.state.trans shows.state) completed.position
    completed.position completed.line bytes ?_
  simp [ShellT.moveTo, trace, shows.stores, inside]

end Shows

/-- The shell has accepted a line. -/
structure Entered (shell : ShellT) (line : List UInt8) : Prop where
  position : shell.ui16LinePosition = line.length
  holds : HoldsString shell.aszLine 0 line
  short : line.length ≤ 127
  stores : StoresInside shell.trace

section Accept

variable {shell : ShellT} {state : KeyState} {editor : Editor} {line : List UInt8}

theorem Shows.enterKey (shows : Shows shell state editor) :
    Entered shell.enterKey editor.line := by
  have length_le := editor.length_le
  refine ⟨shows.position, ⟨?_, ?_, shows.bytes⟩, length_le, ?_⟩
  · change load (store shell.aszLine shell.ui16LinePosition [0]) 0 editor.line.length = _
    rw [shows.position, load_store_disjoint _ (Or.inl (Nat.le_of_eq (Nat.zero_add _))),
      shows.line]
  · change store shell.aszLine shell.ui16LinePosition [0] (0 + editor.line.length) = 0
    simp [store, shows.position]
  · simp [ShellT.enterKey, ShellT.storeLine, ShellT.emit, shows.stores, shows.position,
      shellCmdSize]
    omega

theorem Shows.helpKey (shows : Shows shell state editor) :
    Entered shell.helpKey (ascii "help") := by
  have length : (ascii "help").length = 4 := by decide
  have typed := holdsString_store shell.aszLine 0 (by decide : 0 ∉ ascii "help")
  rw [ShellT.helpKey_eq]
  refine ⟨length.symm, ⟨?_, ?_, typed.nonzero⟩, by decide, ?_⟩
  · simp only
    rw [load_store_disjoint _ (Or.inl (by rw [length])), typed.load]
  · simp [store, length]
  · simp [shows.stores, shellCmdSize]

/-- The line is the history afterwards. -/
theorem Entered.history (entered : Entered shell line) {statics : ShellStatics}
    {history : List UInt8} (holds : HoldsString statics.maszShellLineHistory 0 history)
    (pszData : Option (Nat → UInt8)) (ui32Length : UInt32) :
    HoldsString
      (shellFinish pszData ui32Length statics shell).statics.maszShellLineHistory 0
      (if line = [] then history else line) := by
  rw [shellFinish_history, entered.position]
  by_cases isEmpty : line = []
  · rw [if_pos isEmpty, isEmpty, List.length_nil, if_neg (Nat.lt_irrefl 0)]
    exact holds
  · have fits : 0 + line.length < shellCmdSize := by
      rw [Nat.zero_add]
      exact Nat.lt_succ_of_le entered.short
    have copied := holdsString_store statics.maszShellLineHistory 0 entered.holds.nonzero
    rw [if_neg isEmpty, if_pos (List.length_pos_iff.mpr isEmpty), entered.holds.cString_eq fits]
    refine ⟨?_, by simp [store], entered.holds.nonzero⟩
    rw [load_store_disjoint _ (Or.inl (Nat.le_of_eq (Nat.zero_add _))), copied.load]

theorem Entered.finish (entered : Entered shell line) {statics : ShellStatics}
    {history : List UInt8} (holds : HoldsString statics.maszShellLineHistory 0 history)
    (short : history.length ≤ 127) (data : Nat → UInt8) {ui32Length : UInt32}
    (positive : 1 ≤ ui32Length) :
    Agrees data ui32Length (.returned (shellFinish (some data) ui32Length statics shell))
      (.accept line history) := by
  have room : (ui32Length - 1).toNat = ui32Length.toNat - 1 :=
    UInt32.toNat_sub_of_le _ _ positive
  have count : (line.take (ui32Length.toNat - 1)).length =
      min (ui32Length.toNat - 1) line.length := List.length_take
  rcases @shellFinish_data shell data ui32Length statics with ⟨length, copied⟩
  rw [room, entered.position, ← count] at length copied
  refine ⟨length, ?_, entered.history holds _ _, ?_, ?_⟩
  · rw [copied, count, load_min, entered.holds.load]
  · split
    · exact short
    · exact entered.short
  · rw [shellFinish_trace]
    split
    · simp [entered.stores]
    · simp [entered.stores]

end Accept

/-! ## Runs -/

section Runs

variable {statics : ShellStatics} {shell : ShellT} {state : KeyState} {editor : Editor}
variable {history : List UInt8} {data : Nat → UInt8} {ui32Length : UInt32}
variable {commands : List (List UInt8)}

theorem Shows.agrees (shows : Shows shell state editor)
    (holds : HoldsString statics.maszShellLineHistory 0 history)
    (short : history.length ≤ 127) :
    Agrees data ui32Length (.reading statics shell) (.editing state editor history) :=
  ⟨shows, shows.current_le, shows.position_le, holds, short⟩

/-- Every key does to the shell what it does to the editor. -/
theorem press_agrees (positive : 1 ≤ ui32Length)
    (typable : ∀ pszCommand ∈ commands, Typable pszCommand)
    (shows : Shows shell state editor)
    (holds : HoldsString statics.maszShellLineHistory 0 history)
    (short : history.length ≤ 127) {key : Key}
    (isByte : ∀ szData, key = .normal szData → szData ≠ 0) :
    Agrees data ui32Length
      (match shell.press commands statics.maszShellLineHistory key with
        | .again shell => .reading statics shell
        | .leave shell => .returned (shellFinish (some data) ui32Length statics shell))
      (EditorCall.press commands state editor history key) := by
  cases key with
  | up => exact (shows.upKey holds short).agrees holds short
  | down => exact shows.downKey.agrees holds short
  | right => exact shows.rightKey.agrees holds short
  | left => exact shows.leftKey.agrees holds short
  | tab =>
      by_cases isEmpty : editor.line = []
      · have atStart : ¬0 < shell.ui16LinePosition := by simp [shows.position, isEmpty]
        simp only [ShellT.press, EditorCall.press, if_pos isEmpty, if_neg atStart]
        exact shows.helpKey.finish holds short data positive
      · have inside : 0 < shell.ui16LinePosition := by
          rw [shows.position]
          exact List.length_pos_iff.mpr isEmpty
        simp only [ShellT.press, EditorCall.press, if_neg isEmpty, if_pos inside]
        exact (shows.tabKey isEmpty typable).agrees holds short
  | backspace => exact shows.backspaceKey.agrees holds short
  | enter => exact shows.enterKey.finish holds short data positive
  | normal szData => exact (shows.normalKey (isByte szData rfl)).agrees holds short

theorem step_agrees (positive : 1 ≤ ui32Length)
    (typable : ∀ pszCommand ∈ commands, Typable pszCommand) {call : Call}
    {reference : EditorCall} (agrees : Agrees data ui32Length call reference)
    {szData : UInt8} (isByte : 1 ≤ szData) (sevenBits : szData ≤ 127) :
    Agrees data ui32Length (callStep commands (some data) ui32Length call szData)
      (EditorCall.step commands reference szData) := by
  cases call with
  | reading statics shell =>
      cases reference with
      | accepted line history => exact agrees.elim
      | editing state editor history =>
          rcases agrees with ⟨shows, -, -, holds, short⟩
          have below : szData < 0x80 := UInt8.lt_iff_toNat_lt.mpr
            (Nat.lt_succ_of_le (UInt8.le_iff_toNat_le.mp sevenBits))
          simp only [callStep, EditorCall.step, shellTurn_eq below, shows.state]
          rcases decodes : decode state szData with ⟨next, key⟩
          have moved : Shows { shell with eKeyState := next } next editor :=
            { shows with state := rfl }
          cases key with
          | none => exact moved.agrees holds short
          | some key =>
              apply press_agrees positive typable moved holds short
              rintro byte rfl
              rw [(decode_normal decodes).1]
              rintro rfl
              exact absurd isByte (by decide)
  | returned result =>
      cases reference with
      | accepted line history => exact agrees
      | editing state editor history => exact agrees.elim

theorem shellBegin_agrees (holds : HoldsString statics.maszShellLineHistory 0 history)
    (short : history.length ≤ 127) :
    Agrees data ui32Length (shellBegin statics []) (.editing .eWaitIdle .empty history) := by
  unfold shellBegin
  apply Shows.agrees
  · apply Shows.empty rfl rfl rfl
    simp [ShellT.printString, ShellT.readString, ShellT.print, ShellT.emit]
  · by_cases noPrompt : statics.maszShellPrompt 0 = 0
    · simp only [if_pos noPrompt, shellSetPrompt]
      split
      · exact holds
      · exact holds
    · simp only [if_neg noPrompt]
      exact holds
  · exact short

/-- The commands of the table can be typed. -/
theorem gsShellCommandNames_typable :
    ∀ pszCommand ∈ gsShellCommandNames, Typable pszCommand := by
  intro pszCommand isIn
  rcases gsShellCommandNames_bounded pszCommand isIn with ⟨short, nonzero⟩
  exact ⟨short, nonzero⟩

/-- Whatever is typed, the shell and the reference editor agree. -/
theorem getCommand_edits (statics : ShellStatics) (history : List UInt8)
    (holds : HoldsString statics.maszShellLineHistory 0 history)
    (short : history.length ≤ 127) (data : Nat → UInt8) (ui32Length : UInt32)
    (positive : 1 ≤ ui32Length) (typed : List UInt8)
    (bytes : ∀ szData ∈ typed, 1 ≤ szData ∧ szData ≤ 127) :
    Agrees data ui32Length (shellGetCommand statics (some data) ui32Length typed)
      (editCommand history typed) := by
  unfold shellGetCommand editCommand
  apply List.foldl_rel (shellBegin_agrees holds short)
  intro szData isTyped call reference agrees
  rcases bytes szData isTyped with ⟨isByte, sevenBits⟩
  exact step_agrees positive gsShellCommandNames_typable agrees isByte sevenBits

/-- Some typing with an escape sequence, completion and the end of a call. -/
theorem getCommand_edits_tab :
    Agrees (fun _ => 0) 128
      (shellGetCommand ⟨fun _ => 0, literal (ascii "ps")⟩ (some fun _ => 0) 128
        (ascii "k\x1b[D\x7f\x1b[A\x1b[Bcl\t\n"))
      (editCommand (ascii "ps") (ascii "k\x1b[D\x7f\x1b[A\x1b[Bcl\t\n")) :=
  getCommand_edits _ _ ⟨by decide, by decide, by decide⟩ (by decide) _ _ (by decide) _
    (forall_of_all (by decide))

end Runs

end SunWise.Shell
