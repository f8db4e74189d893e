import Mathlib.Logic.Function.Basic
import SunWise.Library.Register

/-!
# PWM driver

The register block of one PWM device and the functions of `drv_pwm.c` that write it.
The capture flags in `PCCR` are set by the device and cleared by writing ones.  The
interrupt controller, which `HW_PWM_InitConfig` also programs, is left out.
-/

namespace SunWise.Pwm

open Library

@[simp] def csrClockDivid1 : BitVec 32 := 0x4

@[simp] def pwmPccrInv0Pos : Nat := 0
@[simp] def pwmPccrRlIe0Pos : Nat := 1
@[simp] def pwmPccrFlIe0Pos : Nat := 2
@[simp] def pwmPccrCapch0EnPos : Nat := 3
@[simp] def pwmPccrCapif0Pos : Nat := 4
@[simp] def pwmPccrCrlrd0Pos : Nat := 6
@[simp] def pwmPccrCflrd0Pos : Nat := 7
@[simp] def pwmPccrCapch1EnPos : Nat := 19
@[simp] def pwmPccrCapif1Pos : Nat := 20

@[simp] def pwmPpcrPullupEnPos : Nat := 8
@[simp] def pwmPpcrPddrPos : Nat := 16

/-- `ePwmChannel_Max`. -/
@[simp] def pwmChannelMax : Nat := 8

/-- The registers of `PWM_TypeDef` that the driver writes. -/
structure PwmTypeDef where
  ppr : BitVec 32
  dz : BitVec 32
  pcsr : BitVec 32
  pcr : BitVec 32
  pcr1 : BitVec 32
  pcnr : Nat → BitVec 32
  pcmr : Nat → BitVec 32
  pier : BitVec 32
  pccr : Nat → BitVec 32
  ppcr : BitVec 32
  pdcr : Nat → BitVec 32
  pder : BitVec 32

/-- A device after reset. -/
def resetDevice : PwmTypeDef where
  ppr := 0
  dz := 0
  pcsr := 0
  pcr := 0
  pcr1 := 0
  pcnr := fun _ => 0
  pcmr := fun _ => 0
  pier := 0
  pccr := fun _ => 0
  ppcr := 0
  pdcr := fun _ => 0
  pder := 0

/-- `PwmPolarity_e`. -/
inductive PwmPolarity where
  | rising
  | falling
  | both
  deriving DecidableEq, Repr

/-- The branch `out` of `DevicePwmConfig_t`. -/
structure PwmOut where
  freq : BitVec 32
  ticks : BitVec 32
  singlePulse : BitVec 8
  duty : BitVec 16
  invert : BitVec 8
  deadTime : BitVec 8
  pullUp : BitVec 8
  deriving DecidableEq, Repr

/-- The member `mode` of `DevicePwmConfig_t` with the branch of the union it selects. -/
inductive PwmMode where
  | capture (polarity : PwmPolarity)
  | compare (out : PwmOut)
  deriving DecidableEq, Repr

/-- `DevicePwmConfig_t`. -/
structure DevicePwmConfig where
  status : BitVec 32
  clockFreq : BitVec 32
  mode : PwmMode
  deriving DecidableEq, Repr

/-- The bits `CAPIF` of the two channels of a `PCCR` register. -/
def capifMask : BitVec 32 := 0x00100010

namespace PwmTypeDef

variable (pwm : PwmTypeDef)

/-- A write to `PCCR[index]`. -/
def writePccr (index : Nat) (value : BitVec 32) : PwmTypeDef :=
  { pwm with
    pccr := Function.update pwm.pccr index
      (writeOneToClear capifMask (pwm.pccr index) value) }

/-- `SET_BIT` on `PCCR[index]`. -/
def setPccrBit (bit : Nat × Nat) (value : Bool) : PwmTypeDef :=
  pwm.writePccr bit.1 (setBit (pwm.pccr bit.1) bit.2 value)

end PwmTypeDef

/-- The position of `CHxEN` in `PCR`; a channel that does not exist has none. -/
def pwmPcrChenPos : Nat → Option Nat
  | 0 => some 0
  | 1 => some 8
  | 2 => some 16
  | 3 => some 24
  | 4 => some 1
  | 5 => some 9
  | 6 => some 17
  | 7 => some 25
  | _ => none

/-- The `switch` over the channels that selects a bit of `PCCR`: `even` is the position
for the first channel of a register and `odd` the one for the second. -/
def pwmPccrBit (even odd : Nat) : Nat → Option (Nat × Nat)
  | 0 => some (0, even)
  | 1 => some (0, odd)
  | 2 => some (1, even)
  | 3 => some (1, odd)
  | 4 => some (2, even)
  | 5 => some (2, odd)
  | 6 => some (3, even)
  | 7 => some (3, odd)
  | _ => none

/-- `SET_BIT` on the enable bit of a channel. -/
def setChen (pwm : PwmTypeDef) (chn : Nat) (value : Bool) : PwmTypeDef :=
  match pwmPcrChenPos chn with
  | some position => { pwm with pcr := setBit pwm.pcr position value }
  | none => pwm

/-- `SET_BIT` on the `PCCR` bit that a `switch` selects. -/
def setSelected (pwm : PwmTypeDef) (bit? : Option (Nat × Nat)) (value : Bool) :
    PwmTypeDef :=
  match bit? with
  | some bit => pwm.setPccrBit bit value
  | none => pwm

/-- `HW_PWM_Start`. -/
def hwPwmStart (pwm : PwmTypeDef) (chn : Nat) : PwmTypeDef :=
  setChen pwm chn true

/-- `HW_PWM_Stop`. -/
def hwPwmStop (pwm : PwmTypeDef) (chn : Nat) : PwmTypeDef :=
  setChen pwm chn false

/-- `HW_PWM_CaptureStart`. -/
def hwPwmCaptureStart (pwm : PwmTypeDef) (chn : Nat) : PwmTypeDef :=
  hwPwmStart (setSelected pwm (pwmPccrBit pwmPccrCapch0EnPos pwmPccrCapch1EnPos chn) true)
    chn

/-- `HW_PWM_CaptureStop`. -/
def hwPwmCaptureStop (pwm : PwmTypeDef) (chn : Nat) : PwmTypeDef :=
  hwPwmStop (setSelected pwm (pwmPccrBit pwmPccrCapch0EnPos pwmPccrCapch1EnPos chn) false)
    chn

/-- `HW_PWM_ClearInterrupt`. -/
def hwPwmClearInterrupt (pwm : PwmTypeDef) (chn : Nat) : PwmTypeDef :=
  setSelected pwm (pwmPccrBit pwmPccrCapif0Pos pwmPccrCapif1Pos chn) true

/-- A quotient of frequencies as a counter that starts at zero. -/
def clockDivider (quotient : BitVec 32) : BitVec 32 :=
  if quotient > 0 then quotient - 1 else 0

/-- Clock source and prescaler of a channel. -/
def initClock (apbFreq : BitVec 32) (pwm : PwmTypeDef) (chn : Nat)
    (clockFreq : BitVec 32) : PwmTypeDef :=
  { pwm with
    pier := setBit pwm.pier chn false
    pcsr := setField pwm.pcsr 0xf (chn * 4) csrClockDivid1
    ppr := setField pwm.ppr 0xff (chn / 2 * 8) (clockDivider (apbFreq / clockFreq)) }

/-- Mode, inversion and dead zone of a channel in `PCR` and `PCR1`. -/
def initOutput (pwm : PwmTypeDef) (chn : Nat) (out : PwmOut) : PwmTypeDef :=
  let autoLoad := !out.singlePulse.getLsbD 0
  let invert := decide (out.invert ≠ 0)
  let deadZone := decide (out.deadTime > 0)
  let channel (register : BitVec 32) (modPos invPos : Nat) : BitVec 32 :=
    setBit (setBit register modPos autoLoad) invPos invert
  match chn with
  | 0 => { pwm with pcr := setBit (channel pwm.pcr 3 2) 4 deadZone }
  | 1 => { pwm with pcr := channel pwm.pcr 11 10 }
  | 2 => { pwm with pcr := setBit (channel pwm.pcr 19 18) 5 deadZone }
  | 3 => { pwm with pcr := channel pwm.pcr 27 26 }
  | 4 => { pwm with pcr1 := setBit (channel pwm.pcr1 3 2) 4 deadZone }
  | 5 => { pwm with pcr1 := channel pwm.pcr1 11 10 }
  | 6 => { pwm with pcr1 := setBit (channel pwm.pcr1 19 18) 5 deadZone }
  | 7 => { pwm with pcr1 := channel pwm.pcr1 27 26 }
  | _ => pwm

/-- The branch of `HW_PWM_InitConfig` for `ePwmMode_Compare`. -/
def initCompare (pwm : PwmTypeDef) (chn : Nat) (clockFreq : BitVec 32) (out : PwmOut) :
    PwmTypeDef :=
  let period := clockDivider (clockFreq / out.freq)
  let width := clockDivider (clockFreq / out.freq * out.duty.setWidth 32 / 1000)
  let ppcr := setBit pwm.ppcr (pwmPpcrPddrPos + chn) true
  initOutput
    { pwm with
      ppcr := setBit ppcr (pwmPpcrPullupEnPos + chn) (out.pullUp ≠ 0)
      dz :=
        if out.deadTime > 0 then
          setField pwm.dz 0xff (chn / 2 * 8) (out.deadTime.setWidth 32)
        else pwm.dz
      pcnr := Function.update pwm.pcnr (chn % 4)
        (setField (pwm.pcnr (chn % 4)) 0xffff (chn / 4 * 16) period)
      pcmr := Function.update pwm.pcmr (chn % 4)
        (setField (pwm.pcmr (chn % 4)) 0xffff (chn / 4 * 16) width) }
    chn out

/-- The edges on which a channel captures. -/
def capturePccr (register : BitVec 32) (chn : Nat) (polarity : PwmPolarity) : BitVec 32 :=
  let base := chn % 2 * 16
  let rising := decide (polarity = .rising ∨ polarity = .both)
  let falling := decide (polarity = .falling ∨ polarity = .both)
  let register := setBit register (base + pwmPccrInv0Pos) false
  let register := setBit register (base + pwmPccrRlIe0Pos) rising
  let register := setBit register (base + pwmPccrFlIe0Pos) falling
  let register := setBit register (base + pwmPccrCapif0Pos) true
  let register := setBit register (base + pwmPccrCrlrd0Pos) true
  setBit register (base + pwmPccrCflrd0Pos) true

/-- Port and counter of a channel that captures. -/
def initInput (pwm : PwmTypeDef) (chn : Nat) : PwmTypeDef :=
  let ppcr := setBit pwm.ppcr (pwmPpcrPddrPos + chn) false
  let ones : BitVec 32 := 0xffff
  { pwm with
    ppcr := setBit ppcr (pwmPpcrPullupEnPos + chn) false
    pcnr := Function.update pwm.pcnr (chn % 4)
      (pwm.pcnr (chn % 4) ||| (ones <<< (chn / 4 * 16))) }

/-- The branch of `HW_PWM_InitConfig` for `ePwmMode_Capture`. -/
def initCapture (pwm : PwmTypeDef) (chn : Nat) (polarity : PwmPolarity) : PwmTypeDef :=
  let pwm := initInput pwm chn
  pwm.writePccr (chn / 2) (capturePccr (pwm.pccr (chn / 2)) chn polarity)

/-- `HW_PWM_InitConfig`: the result, the device and the configuration it leaves. -/
def hwPwmInitConfig (apbFreq : BitVec 32) (pwm : PwmTypeDef) (chn : Nat)
    (config? : Option DevicePwmConfig) : Int × PwmTypeDef × Option DevicePwmConfig :=
  match config? with
  | none => (-1, pwm, none)
  | some config =>
      if chn ≥ pwmChannelMax then (-1, pwm, some config)
      else
        let pwm := hwPwmCaptureStop (hwPwmStop pwm chn) chn
        let pwm := initClock apbFreq pwm chn config.clockFreq
        let (pwm, mode) :=
          match config.mode with
          | .compare out =>
              let ticks := clockDivider (config.clockFreq / out.freq) + 1
              (initCompare pwm chn config.clockFreq out, PwmMode.compare { out with ticks })
          | .capture polarity => (initCapture pwm chn polarity, PwmMode.capture polarity)
        let pwm := { pwm with
          pder := setBit pwm.pder chn false
          pdcr := Function.update pwm.pdcr chn 0 }
        (0, pwm, some { config with status := 0, mode })

end SunWise.Pwm
