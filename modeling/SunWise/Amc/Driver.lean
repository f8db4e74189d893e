import Mathlib.Logic.Function.Basic

/-!
# Asynchronous memory controller

The NOR flash functions of `drv_amc.c` that program and read.  Accesses to the memory
window go to a device behind the controller, the bus.  The loop that waits for the end of a
program has no limit of its own, so the model is given a number of polls for every halfword
and reports when they did not suffice.
-/

namespace SunWise.Amc

/-- What the halfword accesses `AMC_MEM_UC16` do to the device. -/
structure AmcBus (Device : Type*) where
  write16 : Device → UInt32 → UInt16 → Device
  read16 : Device → UInt32 → UInt16 × Device

/-- `__byte_to_halfword_`. -/
def byteToHalfword (addr : UInt32) : UInt32 :=
  addr <<< 1

variable {Device : Type*} (bus : AmcBus Device)

/-- The loop of `HW_AMC_NorFlashProgram`, and whether it ends. -/
def waitProgram (baseAddr offset : UInt32) : Nat → Device → Bool × Device
  | 0, device => (false, device)
  | polls + 1, device =>
      let (status, device) := bus.read16 device (baseAddr + offset)
      if status &&& 0x0020 ≠ 0x0020 then
        let (first, device) := bus.read16 device (baseAddr + 0)
        let (second, device) := bus.read16 device (baseAddr + 0)
        if first = second then (true, device) else waitProgram baseAddr offset polls device
      else (true, device)

/-- `HW_AMC_NorFlashProgram`. The result is `none` while the loop is still waiting. -/
def hwAmcNorFlashProgram (polls : Nat) (baseAddr offset : UInt32) (data : UInt16)
    (device : Device) : Option Int × Device :=
  let device := bus.write16 device (baseAddr + byteToHalfword 0x555) 0x00AA
  let device := bus.write16 device (baseAddr + byteToHalfword 0x2AA) 0x0055
  let device := bus.write16 device (baseAddr + byteToHalfword 0x555) 0x00A0
  let device := bus.write16 device (baseAddr + offset) data
  let (ready, device) := waitProgram bus baseAddr offset polls device
  (if ready then some 0 else none, device)

/-- `HW_AMC_NorFlashRead`: the halfword it puts into `data`. -/
def hwAmcNorFlashRead (baseAddr offset : UInt32) (device : Device) : UInt16 × Device :=
  bus.read16 device (baseAddr + offset)

/-- The loop of `NorFlash_Read` from index `i` on. -/
def readLoop (baseAddr addr : UInt32) : Nat → Nat → Device → List UInt16 × Device
  | 0, _, device => ([], device)
  | rest + 1, i, device =>
      let (data, device) :=
        hwAmcNorFlashRead bus baseAddr (addr + byteToHalfword (UInt32.ofNat i)) device
      let (more, device) := readLoop baseAddr addr rest (i + 1) device
      (data :: more, device)

/-- `NorFlash_Read` with the base address of the configuration. -/
def norFlashRead (baseAddr addr : UInt32) (len : Nat) (device : Device) :
    Nat × List UInt16 × Device :=
  let (pbuf, device) := readLoop bus baseAddr addr len 0 device
  (len, pbuf, device)

/-- The loop of `NorFlash_Write` from index `i` on, and whether it ends. What
`HW_AMC_NorFlashProgram` returns is not looked at. -/
def writeLoop (polls : Nat) (baseAddr addr : UInt32) :
    List UInt16 → Nat → Device → Bool × Device
  | [], _, device => (true, device)
  | data :: pbuf, i, device =>
      match hwAmcNorFlashProgram bus polls baseAddr
          (addr + byteToHalfword (UInt32.ofNat i)) data device with
      | (some _, device) => writeLoop polls baseAddr addr pbuf (i + 1) device
      | (none, device) => (false, device)

/-- `NorFlash_Write` with the base address of the configuration. -/
def norFlashWrite (polls : Nat) (baseAddr addr : UInt32) (pbuf : List UInt16)
    (device : Device) : Option Nat × Device :=
  let (ended, device) := writeLoop bus polls baseAddr addr pbuf 0 device
  (if ended then some pbuf.length else none, device)

end SunWise.Amc
