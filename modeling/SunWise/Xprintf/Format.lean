import Mathlib.Algebra.Ring.Nat
import SunWise.Library.Memory

/-!
# `xvprintf`

The formatter behind `xprintf` and `yprintf`.  It has no result when it reads behind the end
of the format or of a string, when it writes behind the end of its array of digits, and when
there is no argument of the type that it takes.
-/

namespace SunWise.Xprintf

/-- An argument of the list: a word, or a pointer to an array of characters. -/
inductive Argument where
  | word (value : UInt32)
  | string (array : List UInt8)
  deriving DecidableEq, Repr

/-- The bits of `f`. -/
structure Flags where
  zeroPadded : Bool := false
  leftJustified : Bool := false
  isLong : Bool := false
  negative : Bool := false
  deriving DecidableEq, Repr

/-- `*fmt++`. -/
def fetch : List UInt8 → Option (UInt8 × List UInt8)
  | [] => none
  | c :: fmt => some (c, fmt)

def IsDigit (c : UInt8) : Prop :=
  '0'.toUInt8 ≤ c ∧ c ≤ '9'.toUInt8

instance (c : UInt8) : Decidable (IsDigit c) :=
  inferInstanceAs (Decidable (_ ∧ _))

/-- The loop that reads the minimum width. -/
def widthLoop (w : UInt32) (c : UInt8) : List UInt8 → Option (UInt32 × UInt8 × List UInt8)
  | [] => if IsDigit c then none else some (w, c, [])
  | next :: fmt =>
      if IsDigit c then widthLoop (w * 10 + c.toUInt32 - '0'.toUInt8.toUInt32) next fmt
      else some (w, c, next :: fmt)

/-- `while (j++ < w) xputc(d)`, which is given a number of turns. -/
def padLoop (d : UInt8) (w : UInt32) : Nat → UInt32 → Option (List UInt8 × UInt32)
  | 0, _ => none
  | turns + 1, j =>
      if j < w then do
        let (output, j) ← padLoop d w turns (j + 1)
        some (d :: output, j)
      else some ([], j + 1)

/-- The padding in front, unless the field is left justified. -/
def padFront (f : Flags) (d : UInt8) (w j : UInt32) : Option (List UInt8 × UInt32) :=
  if f.leftJustified then some ([], j) else padLoop d w (w.toNat + 1) j

/-- `for (j = 0; p[j]; j++);`, and the characters before the NUL. -/
def stringLoop (j : UInt32) : List UInt8 → Option (UInt32 × List UInt8)
  | [] => none
  | c :: array =>
      if c = 0 then some (j, [])
      else do
        let (j, text) ← stringLoop (j + 1) array
        some (j, c :: text)

/-- `%s`. -/
def putString (f : Flags) (w : UInt32) (p : List UInt8) : Option (List UInt8) := do
  let (j, text) ← stringLoop 0 p
  let (front, j) ← padFront f ' '.toUInt8 w j
  let (back, _) ← padLoop ' '.toUInt8 w (w.toNat + 1) j
  some (front ++ text ++ back)

/-- `sizeof(s)`. -/
def digitsSize : Nat := 16

/-- `s[i++] = c`. -/
def pushDigit (s : List UInt8) (c : UInt8) : Option (List UInt8) :=
  if s.length < digitsSize then some (s ++ [c]) else none

/-- A digit, and the value that is left. -/
def digitOf (r : Nat) (v : UInt32) : UInt8 × UInt32 :=
  if r = 2 then ((v &&& 0x00000001).toUInt8, v >>> 1)
  else if r = 8 then ((v &&& 0x00000007).toUInt8, v >>> 3)
  else if r = 10 then ((v % 10).toUInt8, v / 10)
  else if r = 16 then ((v &&& 0x0000000f).toUInt8, v >>> 4)
  else (0, 0)

/-- The character of a digit. -/
def digitText (c d : UInt8) : UInt8 :=
  (if d > 9 then d + (if c = 'x'.toUInt8 then 0x27 else 0x07) else d) + '0'.toUInt8

/-- The loop that makes the digits, the last one first. -/
def digitLoop (r : Nat) (c : UInt8) : Nat → UInt32 → List UInt8 → Option (List UInt8)
  | 0, _, _ => none
  | turns + 1, v, s => do
      let (d, v) := digitOf r v
      let s ← pushDigit s (digitText c d)
      if v ≠ 0 ∧ s.length < digitsSize then digitLoop r c turns v s else some s

/-- A number in the base `r`. -/
def putNumber (f : Flags) (w : UInt32) (r : Nat) (c d : UInt8) (v : UInt32) :
    Option (List UInt8) := do
  let (f, v) :=
    if d = 'D'.toUInt8 ∧ v &&& 0x80000000 ≠ 0 then ({ f with negative := true }, 0 - v)
    else (f, v)
  let s ← digitLoop r c digitsSize v []
  let s ← if f.negative then pushDigit s '-'.toUInt8 else some s
  let (front, j) ← padFront f (if f.zeroPadded then '0'.toUInt8 else ' '.toUInt8) w
    (UInt32.ofNat s.length)
  let (back, _) ← padLoop ' '.toUInt8 w (w.toNat + 1) j
  some (front ++ s.reverse ++ back)

/-- `va_arg(arp, char *)`. -/
def stringArgument : List Argument → Option (List UInt8 × List Argument)
  | .string array :: arp => some (array, arp)
  | _ => none

/-- `va_arg(arp, int)`, and of the other types of this size. -/
def wordArgument : List Argument → Option (UInt32 × List Argument)
  | .word value :: arp => some (value, arp)
  | _ => none

/-- The base of a conversion. -/
def baseOf (d : UInt8) : Option Nat :=
  if d = 'B'.toUInt8 then some 2
  else if d = 'O'.toUInt8 then some 8
  else if d = 'D'.toUInt8 ∨ d = 'U'.toUInt8 then some 10
  else if d = 'X'.toUInt8 then some 16
  else none

/-- A letter in upper case. -/
def upper (c : UInt8) : UInt8 :=
  if c ≥ 'a'.toUInt8 then c - 0x20 else c

/-- The `switch` over the type of a sequence. -/
def putConversion (f : Flags) (w : UInt32) (c : UInt8) (arp : List Argument) :
    Option (List UInt8 × List Argument) :=
  let d := upper c
  if d = 'S'.toUInt8 then do
    let (p, arp) ← stringArgument arp
    let output ← putString f w p
    some (output, arp)
  else if d = 'C'.toUInt8 then do
    let (v, arp) ← wordArgument arp
    some ([v.toUInt8], arp)
  else
    match baseOf d with
    | none => some ([c], arp)
    | some r => do
        let (v, arp) ← wordArgument arp
        let output ← putNumber f w r c d v
        some (output, arp)

/-- The flag of a sequence. -/
def readFlag (c : UInt8) (fmt : List UInt8) : Option (Flags × UInt8 × List UInt8) :=
  if c = '0'.toUInt8 then do
    let (c, fmt) ← fetch fmt
    some ({ zeroPadded := true }, c, fmt)
  else if c = '-'.toUInt8 then do
    let (c, fmt) ← fetch fmt
    some ({ leftJustified := true }, c, fmt)
  else some ({}, c, fmt)

/-- The prefix of a sequence. -/
def readPrefix (f : Flags) (c : UInt8) (fmt : List UInt8) : Option (Flags × UInt8 × List UInt8) :=
  if c = 'l'.toUInt8 ∨ c = 'L'.toUInt8 then do
    let (c, fmt) ← fetch fmt
    some ({ f with isLong := true }, c, fmt)
  else some (f, c, fmt)

/-- What stands between `%` and the type of a sequence. -/
def readModifiers (fmt : List UInt8) : Option (Flags × UInt32 × UInt8 × List UInt8) := do
  let (c, fmt) ← fetch fmt
  let (f, c, fmt) ← readFlag c fmt
  let (w, c, fmt) ← widthLoop 0 c fmt
  let (f, c, fmt) ← readPrefix f c fmt
  some (f, w, c, fmt)

/-- The loop of `xvprintf`, and what it puts. -/
def xvprintfLoop : Nat → List UInt8 → List Argument → Option (List UInt8)
  | 0, _, _ => none
  | turns + 1, fmt, arp => do
      let (c, fmt) ← fetch fmt
      if c = 0 then some []
      else if c ≠ '%'.toUInt8 then
        let output ← xvprintfLoop turns fmt arp
        some (c :: output)
      else
        let (f, w, c, fmt) ← readModifiers fmt
        if c = 0 then some []
        else
          let (put, arp) ← putConversion f w c arp
          let output ← xvprintfLoop turns fmt arp
          some (put ++ output)

/-- `xvprintf`: the characters that it gives to `xputc`. -/
def xvprintf (fmt : List UInt8) (arp : List Argument) : Option (List UInt8) :=
  xvprintfLoop (fmt.length + 1) fmt arp

end SunWise.Xprintf
