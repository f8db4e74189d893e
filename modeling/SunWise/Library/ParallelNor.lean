import Mathlib.Logic.Function.Basic

/-!
# Parallel NOR flash

A NOR flash of halfwords with the usual command cycles.  A program that the device accepts
keeps it busy for a number of reads; meanwhile a read delivers a status word, whose bit DQ6
toggles from one read to the next, and writes are ignored.  An operation that does not
complete runs into the internal timeout, which sets DQ5, and leaves the device busy.
-/

namespace SunWise.Library

/-- How a program operation goes: the number of reads until it is complete, or until the
internal timeout. -/
inductive Outcome where
  | completes (reads : Nat)
  | timesOut (reads : Nat)
  deriving DecidableEq, Repr

/-- The command cycles that the device has seen. -/
inductive CommandCycle where
  | idle
  | firstUnlock
  | secondUnlock
  | setup
  deriving DecidableEq, Repr

/-- The device. `underWay` is the operation in progress, and `completes 0` stands for a
device that is ready; `outcomes` tells how the operations to come will go, `other` holds
the remaining bits of the status words, and `ignored` the writes that found the device
busy. -/
structure ParallelNor where
  memory : Nat → UInt16
  cycle : CommandCycle
  underWay : Outcome
  toggle : Bool
  outcomes : Nat → Outcome
  other : Nat → UInt16
  ignored : List (Nat × UInt16)

namespace ParallelNor

/-- A status word. -/
def statusWord (other : UInt16) (toggle exceeded : Bool) : UInt16 :=
  (other &&& ~~~0x60) ||| (if toggle then 0x40 else 0) ||| (if exceeded then 0x20 else 0)

/-- The state after a read of the status. -/
def tick (device : ParallelNor) (underWay : Outcome) : ParallelNor :=
  { device with
    underWay
    toggle := !device.toggle
    other := fun read => device.other (read + 1) }

/-- A read cycle. -/
def read (device : ParallelNor) (address : Nat) : UInt16 × ParallelNor :=
  match device.underWay with
  | .completes 0 => (device.memory address, device)
  | .completes (reads + 1) =>
      (statusWord (device.other 0) device.toggle false, device.tick (.completes reads))
  | .timesOut (reads + 1) =>
      (statusWord (device.other 0) device.toggle false, device.tick (.timesOut reads))
  | .timesOut 0 =>
      (statusWord (device.other 0) device.toggle true, device.tick (.timesOut 0))

/-- A program that is accepted. One that times out leaves the cell alone. -/
def program (device : ParallelNor) (address : Nat) (data : UInt16) : ParallelNor :=
  { device with
    memory :=
      match device.outcomes 0 with
      | .completes _ =>
          Function.update device.memory address (device.memory address &&& data)
      | .timesOut _ => device.memory
    cycle := .idle
    underWay := device.outcomes 0
    outcomes := fun operation => device.outcomes (operation + 1) }

/-- A write cycle. -/
def write (device : ParallelNor) (address : Nat) (data : UInt16) : ParallelNor :=
  if device.underWay = .completes 0 then
    match device.cycle with
    | .idle =>
        if address = 0x555 ∧ data = 0xAA then { device with cycle := .firstUnlock }
        else device
    | .firstUnlock =>
        if address = 0x2AA ∧ data = 0x55 then { device with cycle := .secondUnlock }
        else { device with cycle := .idle }
    | .secondUnlock =>
        if address = 0x555 ∧ data = 0xA0 then { device with cycle := .setup }
        else { device with cycle := .idle }
    | .setup => device.program address data
  else { device with ignored := device.ignored ++ [(address, data)] }

/-- The device reads its array and waits for a command. -/
structure Ready (device : ParallelNor) : Prop where
  idle : device.cycle = .idle
  done : device.underWay = .completes 0

/-- The bits DQ6 and DQ5 of a status word. -/
theorem statusWord_bits (other : UInt16) (toggle exceeded : Bool) :
    statusWord other toggle exceeded &&& 0x40 = (if toggle then 0x40 else 0) ∧
      statusWord other toggle exceeded &&& 0x20 = (if exceeded then 0x20 else 0) := by
  have clear (mask : UInt16) (inside : ~~~0x60 &&& mask = 0) :
      other &&& ~~~0x60 &&& mask = 0 := by
    rw [UInt16.and_assoc, inside, UInt16.and_zero]
  have distrib (left right mask : UInt16) :
      (left ||| right) &&& mask = (left &&& mask) ||| (right &&& mask) :=
    UInt16.toBitVec_inj.mp BitVec.and_or_distrib_right
  rw [statusWord, distrib, distrib, clear 0x40 (by decide), distrib, distrib,
    clear 0x20 (by decide)]
  cases toggle <;> cases exceeded <;> decide

theorem statusWord_toggles (other later : UInt16) (toggle exceeded exceeded' : Bool) :
    statusWord other toggle exceeded ≠ statusWord later (!toggle) exceeded' := by
  intro same
  have bits := (statusWord_bits other toggle exceeded).1
  rw [same, (statusWord_bits later (!toggle) exceeded').1] at bits
  cases toggle with
  | false => exact absurd bits (by decide)
  | true => exact absurd bits (by decide)

section Commands

variable {device : ParallelNor}

/-- A ready device takes the four cycles of a program command. -/
theorem write_program (ready : device.Ready) (address : Nat) (data : UInt16) :
    (((device.write 0x555 0xAA).write 0x2AA 0x55).write 0x555 0xA0).write address data =
      device.program address data := by
  rcases ready with ⟨idle, done⟩
  have unlocked : ((device.write 0x555 0xAA).write 0x2AA 0x55).write 0x555 0xA0 =
      { device with cycle := .setup } := by
    simp [write, idle, done]
  rw [unlocked, write, if_pos done]
  rfl

theorem read_ready (done : device.underWay = .completes 0) (address : Nat) :
    device.read address = (device.memory address, device) := by
  simp only [read, done]

theorem read_busy {reads : Nat} (busy : device.underWay = .completes (reads + 1))
    (address : Nat) :
    device.read address = (statusWord (device.other 0) device.toggle false,
      device.tick (.completes reads)) := by
  simp only [read, busy]

/-- The timeout is in the first status word after its last read. -/
theorem read_timesOut {reads : Nat} (busy : device.underWay = .timesOut reads)
    (address : Nat) :
    device.read address = (statusWord (device.other 0) device.toggle (decide (reads = 0)),
      device.tick (.timesOut (reads - 1))) := by
  cases reads with
  | zero => simp [read, busy]
  | succ reads => simp [read, busy]

end Commands

end ParallelNor

end SunWise.Library
