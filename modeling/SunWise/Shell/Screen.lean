import SunWise.Library.Runs
import SunWise.Library.Terminal
import SunWise.Shell.Refinement

/-!
# What the terminal shows

The editor keeps the terminal up to date by small redraws.  Most of them take for granted
that the cursor is at the end of the line, and that a NUL follows the line; a history key or
the tab key within the line, or a byte inserted in front of old bytes, puts the terminal out
of step.
-/

namespace SunWise.Shell

open Library

/-- What goes out on the UART. -/
def uartOutput (trace : List ShellEffect) : List UInt8 :=
  trace.filterMap fun
    | .uart byte => some byte
    | _ => none

/-- The terminal, from a blank row on. -/
def screen (trace : List ShellEffect) : Terminal :=
  Terminal.blank.display (uartOutput trace)

/-- The row shows the prompt and the line, and the cursor is in its place. -/
def Coherent (prompt : List UInt8) : Call → Prop
  | .reading _ shell =>
      (screen shell.trace).cells =
          row (prompt ++ load shell.aszLine 0 shell.ui16LinePosition) ∧
        (screen shell.trace).cursor = prompt.length + shell.ui16LineCurrentPosition
  | .returned _ => True

/-- A printable byte. -/
def Printable (byte : UInt8) : Prop :=
  0x20 ≤ byte ∧ byte ≤ 0x7e

instance (byte : UInt8) : Decidable (Printable byte) :=
  inferInstanceAs (Decidable (_ ∧ _))

/-- A byte of a printable key, of backspace, tab or enter, or of an arrow key. -/
def Typed (szData : UInt8) : Prop :=
  Printable szData ∨ szData ∈ controlBytes ∨ szData = 0x1b

instance (szData : UInt8) : Decidable (Typed szData) :=
  inferInstanceAs (Decidable (_ ∨ _))

/-- A key of the terminal. -/
def typeKey (pszData : Option (Nat → UInt8)) (ui32Length : UInt32) (call : Call)
    (szData : UInt8) : Option Call :=
  if Typed szData then some (callStep gsShellCommandNames pszData ui32Length call szData)
  else none

/-- The keys whose redraw fits: the history keys and the tab key at the end of the line, and
a byte that the line has room for and that is not inserted in front of old bytes. -/
def RedrawsKey (shell : ShellT) : Key → Prop
  | .up | .down | .tab => shell.ui16LineCurrentPosition = shell.ui16LinePosition
  | .normal _ =>
      shell.ui16LinePosition < 127 ∧
        (shell.ui16LineCurrentPosition < shell.ui16LinePosition →
          shell.aszLine (shell.ui16LinePosition + 1) = 0)
  | _ => True

/-- A byte that yields no key or one whose redraw fits. -/
def Redraws : Call → UInt8 → Prop
  | .reading _ shell, szData =>
      ∀ key, (decode shell.eKeyState szData).2 = some key → RedrawsKey shell key
  | .returned _, _ => True

section Output

variable {first second : List ShellEffect}

@[simp] theorem uartOutput_append :
    uartOutput (first ++ second) = uartOutput first ++ uartOutput second :=
  List.filterMap_append ..

@[simp] theorem uartOutput_nil : uartOutput [] = [] := rfl

@[simp] theorem uartOutput_string {inside : Bool} :
    uartOutput (.string inside :: first) = uartOutput first := rfl

@[simp] theorem uartOutput_stored {start count : Nat} :
    uartOutput (.stored start count :: first) = uartOutput first := rfl

@[simp] theorem uartOutput_replicate (count : Nat) (inside : Bool) :
    uartOutput (List.replicate count (.string inside)) = [] := by
  induction count with
  | zero => rfl
  | succ count ih => rw [List.replicate_succ, uartOutput_string, ih]

/-- Text without line feeds goes out as it is. -/
theorem uartOutput_printed {text : List UInt8} (noFeed : 0x0a ∉ text) :
    uartOutput (printed text) = text := by
  induction text with
  | nil => rfl
  | cons byte text ih =>
      simp only [List.mem_cons, not_or] at noFeed
      have notFeed : byte ≠ 0x0a := fun same => noFeed.1 same.symm
      have single : uartOutput (printed [byte]) = [byte] := by
        simp [printed, xputc, notFeed, uartOutput]
      rw [← List.singleton_append, printed_append, uartOutput_append, single, ih noFeed.2]

@[simp] theorem uartOutput_backspaces (count : Nat) :
    uartOutput (printed (List.replicate count 0x08)) = List.replicate count 0x08 := by
  apply uartOutput_printed
  simp [List.mem_replicate]

@[simp] theorem uartOutput_wipes (count : Nat) :
    uartOutput (printed (List.replicate count [0x08, 0x20, 0x08]).flatten) =
      (List.replicate count [0x08, 0x20, 0x08]).flatten := by
  apply uartOutput_printed
  simp [List.mem_replicate]

theorem screen_append (trace effects : List ShellEffect) :
    screen (trace ++ effects) = (screen trace).display (uartOutput effects) := by
  rw [screen, uartOutput_append, Terminal.display_append, screen]

end Output

theorem Printable.visible {byte : UInt8} (printable : Printable byte) :
    Terminal.Visible byte := by
  refine ⟨?_, ?_, ?_⟩
  · rintro rfl
    exact absurd printable (by decide)
  · rintro rfl
    exact absurd printable (by decide)
  · rintro rfl
    exact absurd printable (by decide)

theorem uartOutput_text {text : List UInt8} (printable : ∀ byte ∈ text, Printable byte) :
    uartOutput (printed text) = text :=
  uartOutput_printed fun isIn => (printable _ isIn).visible.2.2 rfl

theorem display_text {terminal : Terminal} {text : List UInt8}
    (printable : ∀ byte ∈ text, Printable byte) :
    terminal.display text =
      { cells := store terminal.cells terminal.cursor text
        cursor := terminal.cursor + text.length } :=
  Terminal.display_visible fun byte isIn => (printable byte isIn).visible

/-! ## The invariant -/

/-- An array of printable bytes and NULs. -/
def Clean (aszLine : Nat → UInt8) : Prop :=
  ∀ index, aszLine index = 0 ∨ Printable (aszLine index)

theorem Clean.store {aszLine : Nat → UInt8} (clean : Clean aszLine) {bytes : List UInt8}
    (cleanBytes : ∀ byte ∈ bytes, byte = 0 ∨ Printable byte) (start : Nat) :
    Clean (store aszLine start bytes) := by
  intro index
  unfold Library.store
  split
  next after =>
    rw [List.getD_eq_getElem?_getD]
    cases stored : bytes[index - start]? with
    | none => exact clean index
    | some byte => exact cleanBytes byte (List.mem_of_getElem? stored)
  next before => exact clean index

theorem Clean.load {aszLine : Nat → UInt8} (clean : Clean aszLine) (start count : Nat) :
    ∀ byte ∈ load aszLine start count, byte = 0 ∨ Printable byte := by
  intro byte isIn
  simp only [Library.load, List.mem_map] at isIn
  rcases isIn with ⟨offset, -, rfl⟩
  exact clean _

theorem gsShellCommandNames_printable :
    ∀ pszCommand ∈ gsShellCommandNames, ∀ byte ∈ pszCommand, Printable byte := by
  have each : ∀ pszCommand ∈ gsShellCommandNames,
      pszCommand.all (fun byte => decide (Printable byte)) = true := by decide
  exact fun pszCommand isIn => forall_of_all (each pszCommand isIn)

theorem clean_text {text : List UInt8} (printable : ∀ byte ∈ text, Printable byte) :
    ∀ byte ∈ text ++ [0], byte = 0 ∨ Printable byte := by
  intro byte isIn
  rcases List.mem_append.mp isIn with isIn | isIn
  · exact .inr (printable byte isIn)
  · exact .inl (List.mem_singleton.mp isIn)

/-- The terminal is in step with the editor. -/
structure InStep (prompt : List UInt8) (shell : ShellT) (state : KeyState)
    (editor : Editor) : Prop where
  shows : Shows shell state editor
  printable : ∀ byte ∈ editor.line, Printable byte
  array : Clean shell.aszLine
  cells : (screen shell.trace).cells = row (prompt ++ editor.line)
  cursor : (screen shell.trace).cursor = prompt.length + editor.cursor

namespace InStep

variable {prompt : List UInt8} {shell : ShellT} {state : KeyState} {editor : Editor}

theorem coherent (inStep : InStep prompt shell state editor) (statics : ShellStatics) :
    Coherent prompt (.reading statics shell) := by
  rw [Coherent, inStep.shows.position, inStep.shows.line, inStep.shows.current]
  exact ⟨inStep.cells, inStep.cursor⟩

/-- The string that is written anew when a byte is inserted: the byte, the rest of the line,
and what the array holds behind the line. -/
theorem inserted_string (shows : Shows shell state editor) {szData : UInt8}
    (isByte : szData ≠ 0) :
    cString (openGap shell.aszLine shell.ui16LineCurrentPosition shell.ui16LinePosition szData)
        shellCmdSize shell.ui16LineCurrentPosition =
      szData :: editor.line.drop editor.cursor ++
        cString shell.aszLine shellCmdSize (editor.line.length + 1) := by
  have cursor_le := editor.cursor_le
  have length_le := editor.length_le
  have size : shellCmdSize = 128 := rfl
  rw [shows.position, shows.current]
  have opened := load_openGap shell.aszLine cursor_le szData
  rw [shows.line] at opened
  have count : editor.cursor + (editor.line.length + 1 - editor.cursor) =
      editor.line.length + 1 := by omega
  have loaded : load (openGap shell.aszLine editor.cursor editor.line.length szData)
      editor.cursor (editor.line.length + 1 - editor.cursor) =
        szData :: editor.line.drop editor.cursor := by
    have part := take_drop_load
      (openGap shell.aszLine editor.cursor editor.line.length szData) 0 (Nat.le_of_eq count)
    rw [opened, List.drop_left' (by rw [List.length_take]; omega), Nat.zero_add] at part
    rw [← part, List.take_of_length_le]
    simp only [List.length_cons, List.length_drop]
    omega
  have behind : cString (openGap shell.aszLine editor.cursor editor.line.length szData)
      shellCmdSize (editor.line.length + 1) =
        cString shell.aszLine shellCmdSize (editor.line.length + 1) := by
    have same : load (openGap shell.aszLine editor.cursor editor.line.length szData)
        (editor.line.length + 1) (shellCmdSize - (editor.line.length + 1)) =
          load shell.aszLine (editor.line.length + 1)
            (shellCmdSize - (editor.line.length + 1)) := by
      rw [load_eq_load_iff]
      intro offset _
      rw [openGap_apply _ cursor_le, if_neg (by omega), if_neg (by omega)]
    rw [cString, same, cString]
  have nonzero : 0 ∉ szData :: editor.line.drop editor.cursor := by
    simp only [List.mem_cons, not_or]
    exact ⟨isByte.symm, fun isIn => shows.bytes (List.mem_of_mem_drop isIn)⟩
  have fits : editor.cursor + (editor.line.length + 1 - editor.cursor) ≤ shellCmdSize := by
    omega
  rw [cString_eq_append fits (by rwa [loaded]), loaded, count, behind]

/-- Whatever the array holds can be shown. -/
theorem printable_string (inStep : InStep prompt shell state editor) (start : Nat) :
    ∀ byte ∈ cString shell.aszLine shellCmdSize start, Printable byte := by
  intro byte isIn
  rcases mem_of_mem_cString isIn with ⟨index, -, -, rfl⟩
  rcases inStep.array index with isNul | printable
  · rw [isNul] at isIn
    exact absurd isIn cString_nonzero
  · exact printable

/-- Text that is written over a part of the line. -/
theorem display_over (terminal : Terminal) {position : Nat}
    (inside : position ≤ editor.line.length)
    (cells : terminal.cells = row (prompt ++ editor.line))
    (cursor : terminal.cursor = prompt.length + position) {text : List UInt8}
    (printable : ∀ byte ∈ text, Printable byte) :
    terminal.display text =
      { cells := row (prompt ++ editor.line.take position ++ text ++
          editor.line.drop (position + text.length))
        cursor := prompt.length + position + text.length } := by
  have front : (prompt ++ editor.line.take position).length = prompt.length + position := by
    rw [List.length_append, List.length_take, Nat.min_eq_left inside]
  have split : prompt ++ editor.line =
      prompt ++ editor.line.take position ++ editor.line.drop position := by
    rw [List.append_assoc, List.take_append_drop]
  rw [display_text printable, cells, cursor, ← front, split, store_row, List.drop_drop]

theorem display_rest (inStep : InStep prompt shell state editor) {text : List UInt8}
    (printable : ∀ byte ∈ text, Printable byte)
    (long : editor.line.length - editor.cursor ≤ text.length) :
    (screen shell.trace).display text =
      { cells := row (prompt ++ editor.line.take editor.cursor ++ text)
        cursor := prompt.length + editor.cursor + text.length } := by
  have cursor_le := editor.cursor_le
  rw [display_over _ cursor_le inStep.cells inStep.cursor printable,
    List.drop_eq_nil_of_le (by omega), List.append_nil]

/-- Where a byte leaves the terminal. `behind` is what the array holds behind the line. -/
theorem screen_normalKey (inStep : InStep prompt shell state editor) {szData : UInt8}
    (printable : Printable szData) :
    let behind := if editor.cursor < editor.line.length then
        cString shell.aszLine shellCmdSize (editor.line.length + 1) else []
    screen (shell.normalKey szData).trace =
      { cells := row (prompt ++ editor.line.take editor.cursor ++
          szData :: editor.line.drop editor.cursor ++ behind)
        cursor := prompt.length + editor.cursor + 1 + behind.length } := by
  have isByte : szData ≠ 0 := by
    rintro rfl
    exact absurd printable (by decide)
  rcases Nat.eq_or_lt_of_le editor.cursor_le with atEnd | middle
  · have same : shell.ui16LineCurrentPosition = shell.ui16LinePosition := by
      rw [inStep.shows.position, inStep.shows.current, atEnd]
    rw [ShellT.normalKey_trace_end szData same, screen_append, uartOutput_stored,
      uartOutput_text (by simpa using printable)]
    have nothing : editor.line.drop editor.cursor = [] := by rw [atEnd, List.drop_length]
    have notMiddle : ¬editor.cursor < editor.line.length := by omega
    rw [inStep.display_rest (by simpa using printable) (by omega), nothing]
    simp only [if_neg notMiddle, List.append_nil, List.length_singleton, List.length_nil,
      Nat.add_zero]
  · have later : shell.ui16LineCurrentPosition < shell.ui16LinePosition := by
      rw [inStep.shows.position, inStep.shows.current]
      exact middle
    have shown : ∀ byte ∈ szData :: editor.line.drop editor.cursor ++
        cString shell.aszLine shellCmdSize (editor.line.length + 1), Printable byte := by
      intro byte isIn
      rcases List.mem_append.mp isIn with isIn | isIn
      · rcases List.mem_cons.mp isIn with rfl | isIn
        · exact printable
        · exact inStep.printable byte (List.mem_of_mem_drop isIn)
      · exact inStep.printable_string _ byte isIn
    rw [ShellT.normalKey_trace_middle szData later]
    simp only
    rw [inserted_string inStep.shows isByte, inStep.shows.position, inStep.shows.current,
      screen_append]
    have long : editor.line.length - editor.cursor ≤
        (szData :: editor.line.drop editor.cursor ++
          cString shell.aszLine shellCmdSize (editor.line.length + 1)).length := by
      simp only [List.length_append, List.length_cons, List.length_drop]
      omega
    simp only [if_pos middle, uartOutput_stored, uartOutput_string]
    rw [printed_append, uartOutput_append, uartOutput_text shown, uartOutput_backspaces,
      Terminal.display_append, inStep.display_rest shown long, Terminal.display_backspaces]
    ext : 1
    · simp only [List.append_assoc]
    · simp only [List.length_append, List.length_cons, List.length_drop]
      omega

theorem insert_line (fits : editor.line.length < 127) (szData : UInt8) :
    (editor.insert szData).line =
        editor.line.take editor.cursor ++ szData :: editor.line.drop editor.cursor ∧
      (editor.insert szData).cursor = editor.cursor + 1 := by
  rw [LineEditor.insert, LineEditor.ofLine_eq _ (by rw [editor.length_insert]; exact fits)]
  exact ⟨rfl, rfl⟩

/-- A byte that the line has room for, and no old bytes behind the line. -/
theorem normalKey (inStep : InStep prompt shell state editor) {szData : UInt8}
    (printable : Printable szData) (redraws : RedrawsKey shell (.normal szData)) :
    InStep prompt (shell.normalKey szData) state (editor.insert szData) := by
  have isByte : szData ≠ 0 := by
    rintro rfl
    exact absurd printable (by decide)
  rcases redraws with ⟨fits, clear⟩
  rw [inStep.shows.position] at fits clear
  rw [inStep.shows.current] at clear
  rcases insert_line fits szData with ⟨line, cursor⟩
  have nothing : (if editor.cursor < editor.line.length then
      cString shell.aszLine shellCmdSize (editor.line.length + 1) else []) = [] := by
    split
    next middle => rw [cString_of_nul (clear middle)]
    next => rfl
  have shown := inStep.screen_normalKey printable
  simp only [nothing, List.append_nil, List.length_nil, Nat.add_zero] at shown
  refine ⟨inStep.shows.normalKey isByte, ?_, ?_, ?_, ?_⟩
  · rw [line]
    intro byte isIn
    rcases List.mem_append.mp isIn with isIn | isIn
    · exact inStep.printable byte (List.mem_of_mem_take isIn)
    · rcases List.mem_cons.mp isIn with rfl | isIn
      · exact printable
      · exact inStep.printable byte (List.mem_of_mem_drop isIn)
  · rw [ShellT.normalKey_aszLine szData inStep.shows.current_le]
    refine Clean.store (inStep.array.store (inStep.array.load _ _) _) ?_ _
    simp [printable]
  · rw [shown, line, List.append_assoc]
  · rw [shown, cursor, Nat.add_assoc]

/-- Any other byte puts the cursor out of place. -/
theorem normalKey_breaks (inStep : InStep prompt shell state editor) {szData : UInt8}
    (printable : Printable szData) (refused : ¬RedrawsKey shell (.normal szData))
    (statics : ShellStatics) :
    ¬Coherent prompt (.reading statics (shell.normalKey szData)) := by
  rintro ⟨-, cursor⟩
  have length_le := editor.length_le
  rw [inStep.screen_normalKey printable, ShellT.normalKey_current, inStep.shows.position,
    inStep.shows.current] at cursor
  have size : shellCmdSize = 128 := rfl
  apply refused
  rw [RedrawsKey, inStep.shows.position, inStep.shows.current]
  by_cases full : editor.line.length + 1 ≥ shellCmdSize
  · rw [if_pos full] at cursor
    simp only at cursor
    omega
  · rw [if_neg full] at cursor
    refine ⟨by omega, fun middle => ?_⟩
    simp only [if_pos middle] at cursor
    by_contra isByte
    rw [cString_of_byte (by omega) isByte, List.length_cons] at cursor
    omega

theorem move {next : ShellT} {moved : Editor} (inStep : InStep prompt shell state editor)
    (shows : Shows next state moved) (line : moved.line = editor.line)
    (aszLine : next.aszLine = shell.aszLine)
    (shown : screen next.trace =
      { cells := (screen shell.trace).cells, cursor := prompt.length + moved.cursor }) :
    InStep prompt next state moved where
  shows := shows
  printable := line ▸ inStep.printable
  array := aszLine ▸ inStep.array
  cells := by rw [shown, line, inStep.cells]
  cursor := by rw [shown]

theorem leftKey (inStep : InStep prompt shell state editor) :
    InStep prompt shell.leftKey state editor.left := by
  have current := inStep.shows.current
  have cursor := inStep.cursor
  apply inStep.move inStep.shows.leftKey rfl
  · unfold ShellT.leftKey
    split <;> rfl
  · unfold ShellT.leftKey
    split
    next notStart =>
      have output : uartOutput (printed [0x08]) = List.replicate 1 0x08 :=
        uartOutput_backspaces 1
      change screen (shell.trace ++ printed [0x08]) = _
      rw [screen_append, output, Terminal.display_backspaces]
      ext : 1
      · rfl
      · change (screen shell.trace).cursor - 1 = prompt.length + (editor.cursor - 1)
        omega
    next atStart =>
      ext : 1
      · rfl
      · change (screen shell.trace).cursor = prompt.length + (editor.cursor - 1)
        omega

theorem drop_cursor (shows : Shows shell state editor)
    (inside : editor.cursor < editor.line.length) :
    editor.line.drop editor.cursor =
      shell.aszLine editor.cursor :: editor.line.drop (editor.cursor + 1) := by
  have loaded := load_getElem? shell.aszLine 0 inside
  rw [shows.line, Nat.zero_add, List.getElem?_eq_some_iff] at loaded
  rcases loaded with ⟨_, isByte⟩
  rw [List.drop_eq_getElem_cons inside, isByte]

theorem rightKey (inStep : InStep prompt shell state editor) :
    InStep prompt shell.rightKey state editor.right := by
  have cursor_le := editor.cursor_le
  have position := inStep.shows.position
  have current := inStep.shows.current
  apply inStep.move inStep.shows.rightKey rfl
  · unfold ShellT.rightKey
    split <;> rfl
  · unfold ShellT.rightKey
    split
    next inside =>
      have within : editor.cursor < editor.line.length := by omega
      have under := drop_cursor inStep.shows within
      have printable : Printable (shell.aszLine editor.cursor) :=
        inStep.printable _ (List.mem_of_mem_drop (under ▸ List.mem_cons_self))
      have single : ∀ byte ∈ [shell.aszLine editor.cursor], Printable byte := by
        simpa using printable
      change screen (shell.trace ++ printed [shell.aszLine shell.ui16LineCurrentPosition]) = _
      rw [current, screen_append, uartOutput_text single,
        display_over _ cursor_le inStep.cells inStep.cursor single, List.length_singleton,
        List.append_assoc, List.singleton_append, ← under, List.append_assoc,
        List.take_append_drop, inStep.cells]
      ext : 1
      · rfl
      · change prompt.length + editor.cursor + 1 =
          prompt.length + min (editor.cursor + 1) editor.line.length
        omega
    next atEnd =>
      ext : 1
      · rfl
      · change (screen shell.trace).cursor =
          prompt.length + min (editor.cursor + 1) editor.line.length
        have cursor := inStep.cursor
        omega

theorem delete_line (notStart : editor.cursor ≠ 0) :
    editor.delete.line =
        editor.line.take (editor.cursor - 1) ++ editor.line.drop editor.cursor ∧
      editor.delete.cursor = editor.cursor - 1 := by
  have length_le := editor.length_le
  rw [LineEditor.delete, LineEditor.ofLine_eq _ (by rw [editor.length_delete notStart]; omega)]
  exact ⟨rfl, rfl⟩

/-- The string that is written anew when a byte is deleted: the rest of the line. -/
theorem deleted_string (shows : Shows shell state editor) (notStart : editor.cursor ≠ 0) :
    cString shell.backspaceKey.aszLine shellCmdSize (shell.ui16LineCurrentPosition - 1) =
      editor.line.drop editor.cursor := by
  have cursor_le := editor.cursor_le
  have length_le := editor.length_le
  have size : shellCmdSize = 128 := rfl
  have isCurrent : shell.ui16LineCurrentPosition ≠ 0 := by rwa [shows.current]
  have after := shows.backspaceKey
  rcases delete_line notStart with ⟨line, -⟩
  have shorter := editor.length_delete notStart
  have holds : HoldsString shell.backspaceKey.aszLine 0 editor.delete.line := by
    refine ⟨after.line, ?_, after.bytes⟩
    rw [line, shorter, ShellT.backspaceKey_aszLine isCurrent, shows.position]
    simp [store]
  have front : (editor.line.take (editor.cursor - 1)).length = editor.cursor - 1 := by
    rw [List.length_take]
    omega
  have rest := @HoldsString.drop _ _ _ holds (editor.cursor - 1) (by rw [line, shorter]; omega)
  rw [line, List.drop_left' front, Nat.zero_add] at rest
  rw [shows.current]
  apply rest.cString_eq
  rw [List.length_drop]
  omega

theorem screen_backspaceKey (inStep : InStep prompt shell state editor)
    (notStart : editor.cursor ≠ 0) :
    screen shell.backspaceKey.trace =
      { cells := row (prompt ++ editor.delete.line)
        cursor := prompt.length + editor.delete.cursor } := by
  have position := inStep.shows.position
  have current := inStep.shows.current
  have isCurrent : shell.ui16LineCurrentPosition ≠ 0 := by rwa [current]
  rcases delete_line notStart with ⟨line, cursor⟩
  rw [line, cursor]
  rcases Nat.eq_or_lt_of_le editor.cursor_le with atEnd | middle
  · have last : (editor.line.drop (editor.cursor - 1)).length = 1 := by
      rw [List.length_drop]
      omega
    have split : prompt ++ editor.line =
        prompt ++ editor.line.take (editor.cursor - 1) ++
          editor.line.drop (editor.cursor - 1) := by
      rw [List.append_assoc, List.take_append_drop]
    have output : uartOutput (printed [0x08, 0x20, 0x08]) =
        (List.replicate 1 [0x08, 0x20, 0x08]).flatten := uartOutput_wipes 1
    have wiped := display_wipe (prompt ++ editor.line.take (editor.cursor - 1))
      (editor.line.drop (editor.cursor - 1)) (split ▸ inStep.cells)
      (by rw [← split, inStep.cursor, List.length_append, atEnd])
    rw [last, ← output] at wiped
    rw [ShellT.backspaceKey_trace_end (by omega) (by omega), screen_append, screen_append,
      wiped, atEnd, List.drop_length, List.append_nil, List.length_append, List.length_take]
    ext : 1
    · rfl
    · change prompt.length + min (editor.line.length - 1) editor.line.length =
        prompt.length + (editor.line.length - 1)
      omega
  · have printable : ∀ byte ∈ editor.line.drop editor.cursor ++ [0x20], Printable byte := by
      intro byte isIn
      rcases List.mem_append.mp isIn with isIn | isIn
      · exact inStep.printable byte (List.mem_of_mem_drop isIn)
      · rw [List.mem_singleton.mp isIn]
        decide
    have deleted := deleted_string inStep.shows notStart
    rw [ShellT.backspaceKey_aszLine isCurrent] at deleted
    rw [ShellT.backspaceKey_trace_middle isCurrent (by omega)]
    simp only
    rw [deleted]
    have back : uartOutput (printed [0x08]) = List.replicate 1 0x08 := uartOutput_backspaces 1
    have output : uartOutput
        (.stored (shell.ui16LineCurrentPosition - 1)
            (shell.ui16LinePosition - 1 - (shell.ui16LineCurrentPosition - 1)) ::
          .stored (shell.ui16LinePosition - 1) 1 :: printed [0x08]) =
          List.replicate 1 0x08 := by
      rw [uartOutput_stored, uartOutput_stored, back]
    have stepped : (screen shell.trace).cursor - 1 = prompt.length + (editor.cursor - 1) := by
      rw [inStep.cursor]
      omega
    have nothing : editor.line.drop
        (editor.cursor - 1 + (editor.line.drop editor.cursor ++ [0x20]).length) = [] := by
      apply List.drop_eq_nil_of_le
      rw [List.length_append, List.length_drop, List.length_singleton]
      omega
    have overwritten := display_over
      { cells := (screen shell.trace).cells, cursor := (screen shell.trace).cursor - 1 }
      (by omega) inStep.cells stepped printable
    rw [nothing, List.append_nil, ← List.append_assoc, row_append_blank] at overwritten
    rw [screen_append, screen_append, output, Terminal.display_backspaces, uartOutput_string,
      printed_append, uartOutput_append, uartOutput_text printable, uartOutput_backspaces,
      Terminal.display_append, overwritten, Terminal.display_backspaces, List.length_append,
      List.length_singleton, List.length_drop, ← List.append_assoc]
    ext : 1
    · rfl
    · simp only
      omega

theorem backspaceKey (inStep : InStep prompt shell state editor) :
    InStep prompt shell.backspaceKey state editor.delete := by
  by_cases atStart : editor.cursor = 0
  · have isStart : shell.ui16LineCurrentPosition = 0 := by rwa [inStep.shows.current]
    rwa [ShellT.backspaceKey_zero isStart, editor.delete_start atStart]
  · have notStart : shell.ui16LineCurrentPosition ≠ 0 := by rwa [inStep.shows.current]
    have printable : ∀ byte ∈ editor.line.drop editor.cursor, Printable byte :=
      fun byte isIn => inStep.printable byte (List.mem_of_mem_drop isIn)
    rcases delete_line atStart with ⟨line, cursor⟩
    have shown := inStep.screen_backspaceKey atStart
    refine ⟨inStep.shows.backspaceKey, ?_, ?_, by rw [shown], by rw [shown]⟩
    · rw [line]
      intro byte isIn
      rcases List.mem_append.mp isIn with isIn | isIn
      · exact inStep.printable byte (List.mem_of_mem_take isIn)
      · exact printable byte isIn
    · rw [ShellT.backspaceKey_aszLine notStart]
      exact Clean.store (inStep.array.store (inStep.array.load _ _) _) (by simp) _

/-- Wiping out the whole line, from its end. -/
theorem display_wiped (inStep : InStep prompt shell state editor)
    (atEnd : shell.ui16LineCurrentPosition = shell.ui16LinePosition) :
    (screen shell.trace).display
        (List.replicate shell.ui16LinePosition [0x08, 0x20, 0x08]).flatten =
      { cells := row prompt, cursor := prompt.length } := by
  have cursor := inStep.cursor
  rw [← inStep.shows.current, atEnd, inStep.shows.position] at cursor
  rw [inStep.shows.position]
  exact display_wipe prompt editor.line inStep.cells (by rw [cursor, List.length_append])

theorem downKey (inStep : InStep prompt shell state editor)
    (redraws : RedrawsKey shell .down) : InStep prompt shell.downKey state .empty := by
  have shown : screen shell.downKey.trace = { cells := row prompt, cursor := prompt.length } := by
    change screen (shell.trace ++
      printed (List.replicate shell.ui16LinePosition [0x08, 0x20, 0x08]).flatten) = _
    rw [screen_append, uartOutput_wipes, inStep.display_wiped redraws]
  refine ⟨inStep.shows.downKey, by simp [LineEditor.empty], inStep.array, ?_, ?_⟩
  · simp [shown, LineEditor.empty]
  · simp [shown, LineEditor.empty]

theorem upKey (inStep : InStep prompt shell state editor) {array : Nat → UInt8}
    {history : List UInt8} (holds : HoldsString array 0 history) (short : history.length ≤ 127)
    (printable : ∀ byte ∈ history, Printable byte) (redraws : RedrawsKey shell .up) :
    InStep prompt (shell.upKey array) state (.replace history) := by
  have shows := inStep.shows.upKey holds short
  have overwritten := store_row prompt [] history
  rw [List.append_nil, List.drop_nil, List.append_nil] at overwritten
  rw [ShellT.upKey_eq holds (Nat.lt_succ_of_le short)] at shows ⊢
  have shown : screen (shell.trace ++
      printed (List.replicate shell.ui16LinePosition [0x08, 0x20, 0x08]).flatten ++
      ([.string true, .stored 0 (history.length + 1), .string true, .string true] :
        List ShellEffect) ++ printed history) =
        { cells := row (prompt ++ history), cursor := prompt.length + history.length } := by
    rw [screen_append, screen_append, screen_append, uartOutput_wipes,
      inStep.display_wiped redraws, uartOutput_text printable, display_text printable]
    simp [overwritten]
  rw [LineEditor.replace_eq short] at shows ⊢
  exact ⟨shows, printable, inStep.array.store (clean_text printable) 0, by rw [shown],
    by rw [shown]⟩

/-- The rest of a completion, which the tab key writes wherever the cursor is. -/
theorem screen_tabKey (inStep : InStep prompt shell state editor)
    (notEmpty : editor.line ≠ []) :
    let completed := shell.autoComplete gsShellCommandNames shell.ui16LinePosition
    let moved := editor.complete gsShellCommandNames 0x20
    ∃ rest, (∀ byte ∈ rest, Printable byte) ∧ moved.line = editor.line ++ rest ∧
      moved.cursor = editor.line.length + rest.length ∧ Clean completed.1.aszLine ∧
      screen completed.1.trace = (screen shell.trace).display rest := by
  have short : shell.ui16LinePosition ≤ shellCmdSize :=
    Nat.le_succ_of_le inStep.shows.position_le
  have nonzero := gsShellCommandNames_nonzero
  have notZero := inStep.shows.position_ne_zero notEmpty
  simp only [LineEditor.complete, inStep.shows.completes_eq]
  cases found : gsShellCommandNames.find?
      (ShellT.Completes shell.aszLine shell.ui16LinePosition) with
  | none =>
      rcases ShellT.autoComplete_none notZero short nonzero found with ⟨count, completed⟩
      simp only [completed, LineEditor.replace_eq editor.length_le]
      refine ⟨[], List.forall_mem_nil _, (List.append_nil _).symm, rfl, inStep.array, ?_⟩
      simp [ShellT.emit, screen_append]
  | some pszCommand =>
      rcases ShellT.autoComplete_some notZero short nonzero found with ⟨count, completed⟩
      have isIn := List.mem_of_find?_eq_some found
      rcases inStep.shows.found_eq found with ⟨rest, rfl⟩
      have fits : (editor.line ++ rest ++ [0x20]).length ≤ 127 := by
        rw [List.length_append]
        exact (gsShellCommandNames_bounded _ isIn).1
      have printable : ∀ byte ∈ rest ++ [0x20], Printable byte := by
        intro byte isByte
        rcases List.mem_append.mp isByte with isByte | isByte
        · exact gsShellCommandNames_printable _ isIn byte (List.mem_append_right _ isByte)
        · rw [List.mem_singleton.mp isByte]
          decide
      simp only [completed, LineEditor.replace_eq fits]
      rw [inStep.shows.position,
        cString_literal (nonzero _ isIn) (by rw [List.length_append]; omega), List.drop_left]
      refine ⟨rest ++ [0x20], printable, List.append_assoc .., ?_, ?_, ?_⟩
      · rw [List.append_assoc, List.length_append]
      · refine (inStep.array.store (clean_text ?_) _).store (by simp; decide) _
        exact fun byte isByte => printable byte (List.mem_append_left _ isByte)
      · simp only [screen_append, uartOutput_replicate, uartOutput_string, uartOutput_stored,
          uartOutput_nil, Terminal.display_nil, uartOutput_text printable]

/-- At the end of the line the tab key writes what it adds to the line. -/
theorem tabKey (inStep : InStep prompt shell state editor) (notEmpty : editor.line ≠ [])
    (redraws : RedrawsKey shell .tab) :
    let completed := shell.autoComplete gsShellCommandNames shell.ui16LinePosition
    InStep prompt (completed.1.moveTo completed.2) state
      (editor.complete gsShellCommandNames 0x20) := by
  have shows := inStep.shows.tabKey notEmpty gsShellCommandNames_typable
  have atEnd : editor.cursor = editor.line.length := by
    rw [← inStep.shows.current, ← inStep.shows.position]
    exact redraws
  rcases inStep.screen_tabKey notEmpty with ⟨rest, printable, line, cursor, clean, shown⟩
  rw [inStep.display_rest printable (by omega), atEnd, List.take_length] at shown
  refine ⟨shows, ?_, clean, ?_, ?_⟩
  · rw [line]
    intro byte isIn
    rcases List.mem_append.mp isIn with isIn | isIn
    · exact inStep.printable byte isIn
    · exact printable byte isIn
  · rw [line, ← List.append_assoc]
    exact congrArg Terminal.cells shown
  · rw [cursor, ← Nat.add_assoc]
    exact congrArg Terminal.cursor shown

section Breaks

variable (inStep : InStep prompt shell state editor)
variable (within : shell.ui16LineCurrentPosition ≠ shell.ui16LinePosition)

include inStep within

theorem cursor_lt : editor.cursor < editor.line.length := by
  have cursor_le := editor.cursor_le
  rw [inStep.shows.current, inStep.shows.position] at within
  omega

theorem tabKey_breaks (statics : ShellStatics) :
    let completed := shell.autoComplete gsShellCommandNames shell.ui16LinePosition
    ¬Coherent prompt (.reading statics (completed.1.moveTo completed.2)) := by
  have middle := inStep.cursor_lt within
  have notEmpty : editor.line ≠ [] := fun isEmpty => by simp [isEmpty] at middle
  have shows := inStep.shows.tabKey notEmpty gsShellCommandNames_typable
  rcases inStep.screen_tabKey notEmpty with ⟨rest, printable, -, cursor, -, shown⟩
  intro completed coherent
  have place : (screen completed.1.trace).cursor =
      prompt.length + (completed.1.moveTo completed.2).ui16LineCurrentPosition := coherent.2
  have current : (completed.1.moveTo completed.2).ui16LineCurrentPosition =
      editor.line.length + rest.length := shows.current.trans cursor
  rw [shown, display_text printable, inStep.cursor, current] at place
  simp only at place
  omega

theorem wiped_cursor_lt (notEmpty : prompt ≠ []) :
    ((screen shell.trace).display
      (List.replicate shell.ui16LinePosition [0x08, 0x20, 0x08]).flatten).cursor <
        prompt.length := by
  have middle := inStep.cursor_lt within
  have positive := List.length_pos_iff.mpr notEmpty
  rw [Terminal.display_wipe_cursor, inStep.cursor, inStep.shows.position]
  omega

theorem downKey_breaks (notEmpty : prompt ≠ []) (statics : ShellStatics) :
    ¬Coherent prompt (.reading statics shell.downKey) := by
  have wiped := inStep.wiped_cursor_lt within notEmpty
  rintro ⟨-, place⟩
  have shown : (screen shell.downKey.trace).cursor < prompt.length := by
    change (screen (shell.trace ++
      printed (List.replicate shell.ui16LinePosition [0x08, 0x20, 0x08]).flatten)).cursor < _
    rwa [screen_append, uartOutput_wipes]
  omega

theorem upKey_breaks (notEmpty : prompt ≠ []) {statics : ShellStatics} {history : List UInt8}
    (holds : HoldsString statics.maszShellLineHistory 0 history) (short : history.length ≤ 127)
    (printable : ∀ byte ∈ history, Printable byte) :
    ¬Coherent prompt
      (.reading statics (shell.upKey statics.maszShellLineHistory)) := by
  have wiped := inStep.wiped_cursor_lt within notEmpty
  rw [ShellT.upKey_eq holds (Nat.lt_succ_of_le short)]
  rintro ⟨-, place⟩
  rw [screen_append, screen_append, screen_append, uartOutput_wipes,
    uartOutput_text printable, display_text printable] at place
  simp only [uartOutput_string, uartOutput_stored, uartOutput_nil, Terminal.display_nil]
    at place
  omega

end Breaks

end InStep

/-! ## Runs -/

/-- A call whose terminal is in step. -/
def CallInStep (prompt history : List UInt8) : Call → Prop
  | .reading statics shell =>
      (∃ editor, InStep prompt shell shell.eKeyState editor) ∧
        HoldsString statics.maszShellLineHistory 0 history
  | .returned _ => True

section Runs

variable {prompt history : List UInt8} {statics : ShellStatics} {shell : ShellT}
variable {state : KeyState} {editor : Editor}
variable {pszData : Option (Nat → UInt8)} {ui32Length : UInt32}

/-- What becomes of a key. -/
def callTurn (pszData : Option (Nat → UInt8)) (ui32Length : UInt32) (statics : ShellStatics) :
    Turn → Call
  | .again shell => .reading statics shell
  | .leave shell => .returned (shellFinish pszData ui32Length statics shell)

theorem InStep.call (inStep : InStep prompt shell state editor)
    (holds : HoldsString statics.maszShellLineHistory 0 history) :
    CallInStep prompt history (.reading statics shell) :=
  ⟨⟨editor, { inStep with shows := { inStep.shows with state := rfl } }⟩, holds⟩

/-- A key whose redraw fits. -/
theorem press_inStep (holds : HoldsString statics.maszShellLineHistory 0 history)
    (short : history.length ≤ 127) (shown : ∀ byte ∈ history, Printable byte)
    (inStep : InStep prompt shell state editor) {key : Key}
    (printable : ∀ szData, key = .normal szData → Printable szData)
    (redraws : RedrawsKey shell key) :
    CallInStep prompt history
      (callTurn pszData ui32Length statics
        (shell.press gsShellCommandNames statics.maszShellLineHistory key)) := by
  cases key with
  | up => exact (inStep.upKey holds short shown redraws).call holds
  | down => exact (inStep.downKey redraws).call holds
  | right => exact inStep.rightKey.call holds
  | left => exact inStep.leftKey.call holds
  | tab =>
      by_cases isEmpty : editor.line = []
      · have atStart : ¬0 < shell.ui16LinePosition := by simp [inStep.shows.position, isEmpty]
        simp only [ShellT.press, if_neg atStart]
        trivial
      · have positive := Nat.pos_of_ne_zero (inStep.shows.position_ne_zero isEmpty)
        simp only [ShellT.press, if_pos positive]
        exact (inStep.tabKey isEmpty redraws).call holds
  | backspace => exact inStep.backspaceKey.call holds
  | enter => trivial
  | normal szData => exact (inStep.normalKey (printable szData rfl) redraws).call holds

/-- Any other key. -/
theorem press_breaks (holds : HoldsString statics.maszShellLineHistory 0 history)
    (short : history.length ≤ 127) (shown : ∀ byte ∈ history, Printable byte)
    (notEmpty : prompt ≠ []) (inStep : InStep prompt shell state editor) {key : Key}
    (printable : ∀ szData, key = .normal szData → Printable szData)
    (refused : ¬RedrawsKey shell key) :
    ¬Coherent prompt
      (callTurn pszData ui32Length statics
        (shell.press gsShellCommandNames statics.maszShellLineHistory key)) := by
  cases key with
  | up => exact inStep.upKey_breaks refused notEmpty holds short shown
  | down => exact inStep.downKey_breaks refused notEmpty statics
  | right => exact absurd trivial refused
  | left => exact absurd trivial refused
  | tab =>
      have middle := inStep.cursor_lt refused
      have positive : 0 < shell.ui16LinePosition := by
        rw [inStep.shows.position]
        omega
      simp only [ShellT.press, if_pos positive]
      exact inStep.tabKey_breaks refused statics
  | backspace => exact absurd trivial refused
  | enter => exact absurd trivial refused
  | normal szData => exact inStep.normalKey_breaks (printable szData rfl) refused statics

theorem Typed.sevenBits {szData : UInt8} (isTyped : Typed szData) : szData < 0x80 := by
  rcases isTyped with ⟨-, below⟩ | isControl | rfl
  · exact UInt8.lt_of_le_of_lt below (by decide)
  · have each : ∀ byte ∈ controlBytes, byte < 0x80 := forall_of_all (by decide)
    exact each szData isControl
  · decide

/-- A typed byte that is a normal one is printable. -/
theorem Typed.printable {szData byte : UInt8} (isTyped : Typed szData) {next : KeyState}
    (decodes : decode state szData = (next, some (.normal byte))) : Printable byte := by
  rcases decode_normal decodes with ⟨rfl, notEscape, notControl⟩
  rcases isTyped with printable | isControl | isEscape
  · exact printable
  · exact absurd isControl notControl
  · exact absurd isEscape notEscape

theorem callStep_reading {szData : UInt8} :
    callStep gsShellCommandNames pszData ui32Length (.reading statics shell) szData =
      callTurn pszData ui32Length statics
        (shellTurn gsShellCommandNames statics.maszShellLineHistory shell szData) := by
  rw [callStep]
  cases shellTurn gsShellCommandNames statics.maszShellLineHistory shell szData with
  | again shell => rfl
  | leave shell => rfl

/-- A byte: a redraw that fits keeps the terminal in step, and any other puts it out of
step. -/
theorem typeKey_inStep (short : history.length ≤ 127)
    (shown : ∀ byte ∈ history, Printable byte) (notEmpty : prompt ≠ []) {call next : Call}
    {szData : UInt8} (inStep : CallInStep prompt history call)
    (taken : typeKey pszData ui32Length call szData = some next) :
    (Redraws call szData → CallInStep prompt history next) ∧
      (¬Redraws call szData → ¬Coherent prompt next) := by
  rw [typeKey, Option.ite_none_right_eq_some, Option.some.injEq] at taken
  rcases taken with ⟨isTyped, rfl⟩
  cases call with
  | returned result => exact ⟨fun _ => trivial, fun refused => absurd trivial refused⟩
  | reading statics shell =>
      rcases inStep with ⟨⟨editor, inStep⟩, holds⟩
      rw [callStep_reading, shellTurn_eq isTyped.sevenBits]
      simp only [Redraws]
      rcases decodes : decode shell.eKeyState szData with ⟨state, key⟩
      have moved : InStep prompt { shell with eKeyState := state } state editor :=
        { inStep with shows := { inStep.shows with state := rfl } }
      cases key with
      | none => exact ⟨fun _ => moved.call holds, fun refused => absurd nofun refused⟩
      | some key =>
          simp only [Option.some.injEq, forall_eq']
          have printable : ∀ byte, key = .normal byte → Printable byte := by
            rintro byte rfl
            exact isTyped.printable decodes
          exact ⟨fun redraws => press_inStep holds short shown moved printable redraws,
            fun refused => press_breaks holds short shown notEmpty moved printable refused⟩

theorem CallInStep.coherent {call : Call} (inStep : CallInStep prompt history call) :
    Coherent prompt call := by
  cases call with
  | returned result => trivial
  | reading statics shell =>
      rcases inStep with ⟨⟨editor, inStep⟩, -⟩
      exact inStep.coherent statics

/-- The prompt as it is written. -/
def promptText (statics : ShellStatics) : List UInt8 :=
  cString (prompted statics).maszShellPrompt shellPromptSize 0 ++ ascii " > "

theorem shellBegin_inStep (holds : HoldsString statics.maszShellLineHistory 0 history)
    (shown : ∀ byte ∈ promptText statics, Printable byte) :
    CallInStep (promptText statics) history (shellBegin statics []) := by
  rw [shellBegin_eq]
  have written : screen ([] ++ .stored 0 shellCmdSize ::
      .string (decide (Terminated (prompted statics).maszShellPrompt shellPromptSize 0)) ::
        printed (promptText statics)) =
          { cells := row (promptText statics), cursor := (promptText statics).length } := by
    have overwritten := store_row [] [] (promptText statics)
    rw [screen_append, uartOutput_stored, uartOutput_string, uartOutput_text shown,
      display_text shown]
    simp only [List.nil_append, List.drop_nil, List.append_nil, List.length_nil] at overwritten
    ext : 1
    · exact overwritten
    · exact Nat.zero_add _
  refine ⟨⟨.empty, ⟨.empty rfl rfl rfl ?_, List.forall_mem_nil _, fun _ => .inl rfl, ?_, ?_⟩⟩,
    ?_⟩
  · simp
  · rw [LineEditor.empty, List.append_nil]
    exact congrArg Terminal.cells written
  · exact congrArg Terminal.cursor written
  · rwa [prompted_history]

/-- The terminal is coherent exactly along the runs whose redraws all fit. -/
theorem terminal_coherent_iff (statics : ShellStatics)
    (promptShown : ∀ byte ∈ promptText statics, Printable byte) (history : List UInt8)
    (holds : HoldsString statics.maszShellLineHistory 0 history)
    (short : history.length ≤ 127) (shown : ∀ byte ∈ history, Printable byte)
    (pszData : Option (Nat → UInt8)) (ui32Length : UInt32) (typed : List UInt8) :
    Always (typeKey pszData ui32Length) (Coherent (promptText statics))
        (shellBegin statics []) typed ↔
      Throughout (typeKey pszData ui32Length) Redraws (shellBegin statics []) typed := by
  have notEmpty : promptText statics ≠ [] := by
    have blank : ascii " > " ≠ [] := by decide
    simp [promptText, blank]
  exact always_iff_throughout
    (fun call (inStep : CallInStep (promptText statics) history call) => inStep.coherent)
    (fun call szData next inStep redraws taken =>
      (typeKey_inStep short shown notEmpty inStep taken).1 redraws)
    (fun call szData next inStep refused taken =>
      (typeKey_inStep short shown notEmpty inStep taken).2 refused)
    (shellBegin_inStep holds promptShown) typed

end Runs

/-- A line that is corrected in its middle, with a command to bring back. -/
theorem terminal_coherent_corrected :
    Always (typeKey none 128) (Coherent (promptText ⟨fun _ => 0, literal (ascii "ps")⟩))
        (shellBegin ⟨fun _ => 0, literal (ascii "ps")⟩ []) (ascii "ab\x1b[D\x7fc") ↔
      Throughout (typeKey none 128) Redraws
        (shellBegin ⟨fun _ => 0, literal (ascii "ps")⟩ []) (ascii "ab\x1b[D\x7fc") :=
  terminal_coherent_iff _ (forall_of_all (by decide)) (ascii "ps")
    ⟨by decide, by decide, by decide⟩ (by decide) (forall_of_all (by decide)) none 128 _

/-- The up key within the line wipes out a part of the prompt. -/
theorem terminal_not_coherent :
    ¬Always (typeKey none 128) (Coherent (promptText ⟨fun _ => 0, literal (ascii "ps")⟩))
      (shellBegin ⟨fun _ => 0, literal (ascii "ps")⟩ []) (ascii "ab\x1b[D\x1b[A") := by
  intro always
  have misplaced : ∃ statics shell, run (typeKey none 128)
      (shellBegin ⟨fun _ => 0, literal (ascii "ps")⟩ []) (ascii "ab\x1b[D\x1b[A") =
        some (.reading statics shell) ∧
      (screen shell.trace).cursor = 7 ∧ shell.ui16LineCurrentPosition = 2 :=
    ⟨_, _, rfl, by decide, by decide⟩
  rcases misplaced with ⟨statics, shell, runs, cursor, current⟩
  have place := (always.of_run runs).2
  rw [cursor, current] at place
  revert place
  decide

end SunWise.Shell
