import SunWise.Library.CString

/-!
# Shell line editor

`Shell_GetCommand` and `Shell_AutoComplete` of `xshell.c`, one typed byte at a time.  The
trace of a call records what it writes to the UART, which part of `aszLine` it stores to,
and whether each string that it reads ends inside its array.
-/

namespace SunWise.Shell

open Library

/-- `SHELL_CMD_SIZE`. -/
def shellCmdSize : Nat := 128

/-- Size of `maszShellPrompt`. -/
def shellPromptSize : Nat := 8

/-- The bytes of a string literal, without its NUL. -/
def ascii (text : String) : List UInt8 :=
  text.toList.map fun letter => UInt8.ofNat letter.toNat

/-- The names in `gsShellCommands`, in the order of the table. -/
def gsShellCommandNames : List (List UInt8) :=
  [ascii "help", ascii "clear", ascii "reg", ascii "mem", ascii "epwm", ascii "nand",
    ascii "nor", ascii "qspi", ascii "spi", ascii "can", ascii "gmac", ascii "phy",
    ascii "link", ascii "ps", ascii "tcp", ascii "udp", ascii "udp_speed",
    ascii "tcp_speed"]

inductive KeyState where
  | eWaitIdle
  | eWaitSpecKey
  | eWaitFuncKey
  deriving DecidableEq, Repr

/-- What a call does besides computing. -/
inductive ShellEffect where
  /-- A byte goes out on the UART. -/
  | uart (byte : UInt8)
  /-- `count` bytes of `aszLine` are stored, from `start`. -/
  | stored (start count : Nat)
  /-- A string is read, and its end is or is not inside its array. -/
  | string (inside : Bool)
  deriving DecidableEq, Repr

/-- `SHELL_T`, with the trace. -/
structure ShellT where
  aszLine : Nat → UInt8
  eKeyState : KeyState
  ui16LinePosition : Nat
  ui16LineCurrentPosition : Nat
  trace : List ShellEffect

/-- The static variables of `xshell.c`. -/
structure ShellStatics where
  maszShellPrompt : Nat → UInt8
  maszShellLineHistory : Nat → UInt8

/-- `xputc`. -/
def xputc (c : UInt8) : List UInt8 :=
  if c = 0x0a then [0x0d, c] else [c]

/-- Printing a text. -/
def printed (text : List UInt8) : List ShellEffect :=
  (text.flatMap xputc).map .uart

namespace ShellT

variable (shell : ShellT)

def emit (effects : List ShellEffect) : ShellT :=
  { shell with trace := shell.trace ++ effects }

/-- Print a text. -/
def print (text : List UInt8) : ShellT :=
  shell.emit (printed text)

/-- Print the same text again and again. -/
def printTimes (times : Nat) (text : List UInt8) : ShellT :=
  shell.print (List.replicate times text).flatten

/-- Read the string at `start` of an array. -/
def readString (array : Nat → UInt8) (limit start : Nat) : ShellT :=
  shell.emit [.string (decide (Terminated array limit start))]

/-- `%s`. -/
def printString (array : Nat → UInt8) (limit start : Nat) : ShellT :=
  (shell.readString array limit start).print (cString array limit start)

/-- Store to `aszLine`. -/
def storeLine (start : Nat) (bytes : List UInt8) : ShellT :=
  { shell.emit [.stored start bytes.length] with
    aszLine := store shell.aszLine start bytes }

/-- `strcpy` to `aszLine`. -/
def strcpyLine (destination : Nat) (array : Nat → UInt8) (limit start : Nat) : ShellT :=
  (shell.readString array limit start).storeLine destination
    (cString array limit start ++ [0])

/-- Both positions at once. -/
def moveTo (position : Nat) : ShellT :=
  { shell with ui16LinePosition := position, ui16LineCurrentPosition := position }

/-- `strncmp(pszPrefix, pszCommand, ui32Length)` reads both strings, up to `ui32Length`
bytes of them. -/
def readBoth (pszCommand : List UInt8) (ui32Length : Nat) : ShellT :=
  shell.emit
    [.string (decide (ui32Length ≤ shellCmdSize ∨ Terminated shell.aszLine shellCmdSize 0)),
      .string (decide (Terminated (literal pszCommand) (pszCommand.length + 1) 0))]

/-- The loop of `Shell_AutoComplete`. -/
def autoCompleteLoop (ui32Length : Nat) : ShellT → List (List UInt8) → ShellT × Nat
  | shell, [] => (shell, ui32Length)
  | shell, pszCommand :: commands =>
      let shell := shell.readBoth pszCommand ui32Length
      if strncmp shell.aszLine (literal pszCommand) ui32Length = 0 then
        let pszCmd := literal pszCommand
        let limit := pszCommand.length + 1
        let shell := shell.strcpyLine ui32Length pszCmd limit ui32Length
        let shell := (shell.printString pszCmd limit ui32Length).print (ascii " ")
        let shell := shell.readString pszCmd limit 0
        let ui32Length := (cString pszCmd limit 0).length
        (shell.storeLine ui32Length (ascii " "), ui32Length + 1)
      else autoCompleteLoop ui32Length shell commands

/-- `Shell_AutoComplete` on `aszLine`. -/
def autoComplete (commands : List (List UInt8)) (ui32Length : Nat) : ShellT × Nat :=
  if ui32Length = 0 then (shell, ui32Length)
  else autoCompleteLoop ui32Length shell commands

def upKey (maszShellLineHistory : Nat → UInt8) : ShellT :=
  let shell := shell.printTimes shell.ui16LinePosition [0x08, 0x20, 0x08]
  let shell := shell.strcpyLine 0 maszShellLineHistory shellCmdSize 0
  let shell := shell.readString shell.aszLine shellCmdSize 0
  let shell := shell.moveTo (cString shell.aszLine shellCmdSize 0).length
  shell.printString shell.aszLine shellCmdSize 0

def downKey : ShellT :=
  (shell.printTimes shell.ui16LinePosition [0x08, 0x20, 0x08]).moveTo 0

def rightKey : ShellT :=
  if shell.ui16LineCurrentPosition < shell.ui16LinePosition then
    { shell.print [shell.aszLine shell.ui16LineCurrentPosition] with
      ui16LineCurrentPosition := shell.ui16LineCurrentPosition + 1 }
  else shell

def leftKey : ShellT :=
  if shell.ui16LineCurrentPosition ≠ 0 then
    { shell.print [0x08] with
      ui16LineCurrentPosition := shell.ui16LineCurrentPosition - 1 }
  else shell

def backspaceKey : ShellT :=
  if shell.ui16LineCurrentPosition = 0 then shell
  else
    let position := shell.ui16LinePosition - 1
    let current := shell.ui16LineCurrentPosition - 1
    let shell :=
      { shell with ui16LinePosition := position, ui16LineCurrentPosition := current }
    if current < position then
      let shell :=
        shell.storeLine current (load shell.aszLine (current + 1) (position - current))
      let shell := shell.storeLine position [0]
      let shell := (shell.print [0x08]).printString shell.aszLine shellCmdSize current
      (shell.print (ascii " ")).printTimes (position + 1 - current) [0x08]
    else (shell.print [0x08, 0x20, 0x08]).storeLine position [0]

def normalKey (szData : UInt8) : ShellT :=
  let position := shell.ui16LinePosition
  let current := shell.ui16LineCurrentPosition
  let shell :=
    if current < position then
      let shell :=
        shell.storeLine (current + 1) (load shell.aszLine current (position - current))
      let shell := shell.storeLine current [szData]
      (shell.printString shell.aszLine shellCmdSize current).printTimes
        (position - current) [0x08]
    else (shell.storeLine position [szData]).print [szData]
  if position + 1 ≥ shellCmdSize then shell.moveTo 0
  else
    { shell with
      ui16LinePosition := position + 1, ui16LineCurrentPosition := current + 1 }

/-- The tab key while the line is empty. -/
def helpKey : ShellT :=
  let shell := shell.storeLine 0 (ascii "help" ++ [0])
  let shell := shell.readString shell.aszLine shellCmdSize 0
  let position := (cString shell.aszLine shellCmdSize 0).length
  (shell.storeLine position [0]).moveTo position

def enterKey : ShellT :=
  shell.storeLine shell.ui16LinePosition [0]

end ShellT

/-- End of a turn of the loop: it goes on or it is left. -/
inductive Turn where
  | again (shell : ShellT)
  | leave (shell : ShellT)

/-- The part of the loop after the escape sequences. -/
def plainKey (commands : List (List UInt8)) (shell : ShellT) (szData : UInt8) : Turn :=
  if szData = 0x09 then
    if shell.ui16LinePosition > 0 then
      let (shell, ui32Length) := shell.autoComplete commands shell.ui16LinePosition
      .again (shell.moveTo ui32Length)
    else .leave shell.helpKey
  else if szData = 0x08 ∨ szData = 0x7f then .again shell.backspaceKey
  else if szData = 0x0d ∨ szData = 0x0a then .leave shell.enterKey
  else .again (shell.normalKey szData)

/-- One turn of the loop. The test `szData < 0` takes `char` as signed. -/
def shellTurn (commands : List (List UInt8)) (maszShellLineHistory : Nat → UInt8)
    (shell : ShellT) (szData : UInt8) : Turn :=
  if szData ≥ 0x80 then .again shell
  else if szData = 0x1b then .again { shell with eKeyState := .eWaitSpecKey }
  else
    match shell.eKeyState with
    | .eWaitSpecKey =>
        if szData = 0x5b then .again { shell with eKeyState := .eWaitFuncKey }
        else plainKey commands { shell with eKeyState := .eWaitIdle } szData
    | .eWaitFuncKey =>
        let shell := { shell with eKeyState := .eWaitIdle }
        if szData = 0x41 then .again (shell.upKey maszShellLineHistory)
        else if szData = 0x42 then .again shell.downKey
        else if szData = 0x43 then .again shell.rightKey
        else if szData = 0x44 then .again shell.leftKey
        else plainKey commands shell szData
    | .eWaitIdle => plainKey commands shell szData

/-! ## Calls -/

/-- `Shell_SetPrompt`. -/
def shellSetPrompt (statics : ShellStatics) (pszPrompt : List UInt8) : ShellStatics :=
  if pszPrompt.length > shellPromptSize - 1 then
    { statics with
      maszShellPrompt :=
        store (store statics.maszShellPrompt 0 (ascii "$" ++ [0])) (ascii "$").length [0] }
  else
    { statics with
      maszShellPrompt :=
        store (store statics.maszShellPrompt 0 (pszPrompt ++ [0])) pszPrompt.length [0] }

/-- What a call of `Shell_GetCommand` leaves behind. -/
structure CommandResult where
  statics : ShellStatics
  pszData : Option (Nat → UInt8)
  ui32CopyLength : Nat
  trace : List ShellEffect

/-- A call of `Shell_GetCommand`. -/
inductive Call where
  | reading (statics : ShellStatics) (shell : ShellT)
  | returned (result : CommandResult)

/-- `Shell_GetCommand` before its loop, after whatever the trace tells. -/
def shellBegin (statics : ShellStatics) (trace : List ShellEffect) : Call :=
  let shell : ShellT :=
    { aszLine := fun _ => 0, eKeyState := .eWaitIdle, ui16LinePosition := 0
      ui16LineCurrentPosition := 0, trace := trace ++ [.stored 0 shellCmdSize] }
  let statics :=
    if statics.maszShellPrompt 0 = 0 then shellSetPrompt statics (ascii "xsh") else statics
  let shell := shell.printString statics.maszShellPrompt shellPromptSize 0
  .reading statics (shell.print (ascii " > "))

/-- `Shell_GetCommand` after its loop. -/
def shellFinish (pszData : Option (Nat → UInt8)) (ui32Length : UInt32)
    (statics : ShellStatics) (shell : ShellT) : CommandResult :=
  let position := shell.ui16LinePosition
  let (statics, shell) :=
    if position > 0 then
      let history :=
        store statics.maszShellLineHistory 0 (cString shell.aszLine shellCmdSize 0 ++ [0])
      ({ statics with maszShellLineHistory := store history position [0] },
        shell.readString shell.aszLine shellCmdSize 0)
    else (statics, shell)
  let shell := shell.print [0x0a]
  match pszData with
  | some data =>
      let ui32CopyLength := min (ui32Length - 1).toNat position
      { statics
        pszData := some (store data 0 (load shell.aszLine 0 ui32CopyLength))
        ui32CopyLength
        trace := shell.trace }
  | none => { statics, pszData := none, ui32CopyLength := 0, trace := shell.trace }

/-- A typed byte, for a call with buffer `pszData` of `ui32Length` bytes. -/
def callStep (commands : List (List UInt8)) (pszData : Option (Nat → UInt8))
    (ui32Length : UInt32) : Call → UInt8 → Call
  | .reading statics shell, szData =>
      match shellTurn commands statics.maszShellLineHistory shell szData with
      | .again shell => .reading statics shell
      | .leave shell => .returned (shellFinish pszData ui32Length statics shell)
  | .returned result, _ => .returned result

/-- `Shell_GetCommand` on what is typed. -/
def shellGetCommand (statics : ShellStatics) (pszData : Option (Nat → UInt8))
    (ui32Length : UInt32) (typed : List UInt8) : Call :=
  typed.foldl (callStep gsShellCommandNames pszData ui32Length) (shellBegin statics [])

end SunWise.Shell
