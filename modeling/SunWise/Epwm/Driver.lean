import Mathlib.Logic.Function.Basic
import SunWise.Library.Register

/-!
# Enhanced PWM driver

The register block of one module and the functions of `drv_epwm.c` that configure it.  A
division by zero has no result in C, and here neither.  The assertions only print, and the
interrupt controller, which `HW_EPWM_InitConfig` also programs, is left out.
-/

namespace SunWise.Epwm

open Library

@[simp] def epwmCr1CkdPos : Nat := 8
@[simp] def epwmCr1ArpePos : Nat := 7
@[simp] def epwmCr1CmsPos : Nat := 5
@[simp] def epwmCr1DirPos : Nat := 4
@[simp] def epwmCr1OpmPos : Nat := 3
@[simp] def epwmCr1UrsPos : Nat := 2
@[simp] def epwmCr1UdisPos : Nat := 1
@[simp] def epwmCr1CenPos : Nat := 0

@[simp] def epwmCr2Ois4nPos : Nat := 15
@[simp] def epwmCr2Ti1sPos : Nat := 7
@[simp] def epwmCr2MmsPos : Nat := 4
@[simp] def epwmCr2CcdsPos : Nat := 3
@[simp] def epwmCr2CcusPos : Nat := 2
@[simp] def epwmCr2CcpcPos : Nat := 0

@[simp] def epwmDierCc1iePos : Nat := 1

@[simp] def epwmSrCc1ofPos : Nat := 9
@[simp] def epwmSrCc1ifPos : Nat := 1
@[simp] def epwmSrUifPos : Nat := 0

@[simp] def epwmCcmr1Oc1cePos : Nat := 7
@[simp] def epwmCcmr1Oc1mPos : Nat := 4
@[simp] def epwmCcmr1Oc1pePos : Nat := 3
@[simp] def epwmCcmr1Oc1fePos : Nat := 2
@[simp] def epwmCcmr1Cc1sPos : Nat := 0
@[simp] def epwmCcmr1Ic1fPos : Nat := 4
@[simp] def epwmCcmr1Ic1pscPos : Nat := 2

@[simp] def epwmCcerCc1npPos : Nat := 3
@[simp] def epwmCcerCc1nePos : Nat := 2
@[simp] def epwmCcerCc1pPos : Nat := 1
@[simp] def epwmCcerCc1ePos : Nat := 0

@[simp] def epwmBdtrMoePos : Nat := 15
@[simp] def epwmBdtrAoePos : Nat := 14
@[simp] def epwmBdtrBkpPos : Nat := 13
@[simp] def epwmBdtrBkePos : Nat := 12
@[simp] def epwmBdtrOssrPos : Nat := 11
@[simp] def epwmBdtrOssiPos : Nat := 10
@[simp] def epwmBdtrLockPos : Nat := 8
@[simp] def epwmBdtrDtgPos : Nat := 0

@[simp] def epwmPmcrPmdv1Pos : Nat := 16
@[simp] def epwmPmcrPmcr1Pos : Nat := 0

@[simp] def epwmPmcrenPmcr1nDelayEnPos : Nat := 2
@[simp] def epwmPmcrenPmcr1DelayEnPos : Nat := 1
@[simp] def epwmPmcrenPmcr1EnPos : Nat := 0

/-- `CKD_CLOCK_DIV1`. -/
@[simp] def ckdClockDiv1 : BitVec 32 := 0x0

/-- `CMS_ALIGN_EDGE`. -/
@[simp] def cmsAlignEdge : BitVec 32 := 0x0

/-- `MMS_CNT_EN`. -/
@[simp] def mmsCntEn : BitVec 32 := 0x1

/-- `OCM_PWM_MODE1`. -/
@[simp] def ocmPwmMode1 : BitVec 32 := 0x6

/-- `ICF_DTS_N1`. -/
@[simp] def icfDtsN1 : BitVec 32 := 0x0

/-- `ICPSC_1_EVENT`. -/
@[simp] def icpsc1Event : BitVec 32 := 0x0

/-- `CCS_OUTPUT`. -/
@[simp] def ccsOutput : BitVec 32 := 0x0

/-- `CCS_INPUT_TI1`. -/
@[simp] def ccsInputTi1 : BitVec 32 := 0x1

/-- `LOCK_OFF`. -/
@[simp] def lockOff : BitVec 32 := 0x0

/-- `LOCK_LEVEL3`. -/
@[simp] def lockLevel3 : BitVec 32 := 0x3

/-- `eEPwmChannel_Max`. -/
@[simp] def epwmChannelMax : Nat := 4

/-- The registers of `EPWM_TypeDef`. -/
structure EpwmTypeDef where
  cr1 : BitVec 32
  cr2 : BitVec 32
  smcr : BitVec 32
  dier : BitVec 32
  sr : BitVec 32
  egr : BitVec 32
  ccmr : Nat → BitVec 32
  ccer : BitVec 32
  cnt : BitVec 32
  psc : BitVec 32
  arr : BitVec 32
  rcr : BitVec 32
  ccr : Nat → BitVec 32
  bdtr : BitVec 32
  pmcr : Nat → BitVec 32
  pmcren : BitVec 32
  pue : BitVec 32
  deriving Inhabited

/-- The addresses that `GetIndex` tells apart. -/
inductive EpwmAddress where
  | epwm0
  | epwm1
  | epwm2
  | epwm3
  | epwm4
  | epwm5
  | epwm6
  | epwm7
  | other
  deriving DecidableEq, Repr

/-- `GetIndex`. -/
def getIndex : EpwmAddress → Nat
  | .epwm0 => 0
  | .epwm1 => 1
  | .epwm2 => 2
  | .epwm3 => 3
  | .epwm4 => 4
  | .epwm5 => 5
  | .epwm6 => 6
  | .epwm7 => 7
  | .other => 0

/-- `EPwmPolarity_e`. -/
inductive EpwmPolarity where
  | rising
  | falling
  | reserved
  | both
  deriving DecidableEq, Repr

/-- A member of `out.param` of `DeviceEPwmConfig_t`. -/
structure EpwmParam where
  duty : BitVec 16
  ocActive : BitVec 8
  ocnActive : BitVec 8
  delayRate : BitVec 16
  pullUp : BitVec 8
  deriving DecidableEq, Repr, Inhabited

/-- The branch `out` of `DeviceEPwmConfig_t`. -/
structure EpwmOut where
  freq : BitVec 32
  singlePulse : BitVec 8
  breakEnable : BitVec 8
  breakPolarity : BitVec 8
  deadTime : BitVec 8
  param : Nat → EpwmParam
  deriving Inhabited

/-- The member `mode` of `DeviceEPwmConfig_t` with the branch of the union it selects. -/
inductive EpwmMode where
  | capture (polarity : Nat → EpwmPolarity)
  | compare (out : EpwmOut)

/-- `DeviceEPwmConfig_t`. -/
structure DeviceEpwmConfig where
  status : BitVec 32
  clockFreq : BitVec 32
  mode : EpwmMode

/-- `s_last_capture_value`. -/
abbrev LastCaptureValue := Nat → Nat → BitVec 32

/-- A division of C. -/
def divide (dividend divisor : BitVec 32) : Option (BitVec 32) :=
  if divisor = 0 then none else some (dividend / divisor)

/-- The update of `CCER` in `HW_EPWM_Stop` and `HW_EPWM_CaptureStop`. -/
def stopCcer (ccer : BitVec 32) (chn : Nat) : BitVec 32 :=
  setBit (setBit ccer (chn * 4 + epwmCcerCc1nePos) false) (chn * 4 + epwmCcerCc1ePos) false

/-- `HW_EPWM_Stop`. -/
def hwEpwmStop (epwm : EpwmTypeDef) (chn : Nat) : EpwmTypeDef :=
  if chn ≥ epwmChannelMax then epwm else { epwm with ccer := stopCcer epwm.ccer chn }

/-- `HW_EPWM_CaptureStop`. -/
def hwEpwmCaptureStop (epwm : EpwmTypeDef) (chn : Nat) : EpwmTypeDef :=
  if chn ≥ epwmChannelMax then epwm else { epwm with ccer := stopCcer epwm.ccer chn }

/-- `HW_EPWM_ClearInterrupt`. -/
def hwEpwmClearInterrupt (epwm : EpwmTypeDef) (chn : Nat) : EpwmTypeDef :=
  let sr :=
    if chn < epwmChannelMax then
      setBit (setBit epwm.sr (epwmSrCc1ofPos + chn) false) (epwmSrCc1ifPos + chn) false
    else epwm.sr
  { epwm with sr := setBit sr epwmSrUifPos false }

/-- `HW_EPWM_Lock`. -/
def hwEpwmLock (epwm : EpwmTypeDef) : BitVec 32 × EpwmTypeDef :=
  let mask : BitVec 32 := 0x3
  let bdtr := epwm.bdtr &&& ~~~(mask <<< epwmBdtrLockPos)
  let bdtr := bdtr &&& ~~~(lockLevel3 <<< epwmBdtrLockPos)
  (bdtr, { epwm with bdtr })

/-- `HW_EPWM_Unlock`. -/
def hwEpwmUnlock (epwm : EpwmTypeDef) : BitVec 32 × EpwmTypeDef :=
  let mask : BitVec 32 := 0x3
  let bdtr := epwm.bdtr &&& ~~~(mask <<< epwmBdtrLockPos)
  let bdtr := bdtr &&& ~~~(lockOff <<< epwmBdtrLockPos)
  (bdtr, { epwm with bdtr })

/-- `HW_EPWM_GetDeadTimeIntervalStep`. -/
def hwEpwmGetDeadTimeIntervalStep (apbFreq : BitVec 32) (epwm : EpwmTypeDef) :
    Option (BitVec 32) :=
  let ckd := (epwm.cr1 >>> epwmCr1CkdPos) &&& 0x3
  divide 1000 ((apbFreq / 1000000) <<< ckd)

/-- The member `single_pulse`, for the mode that has one. -/
def EpwmMode.singlePulse : EpwmMode → BitVec 8
  | .compare out => out.singlePulse
  | .capture _ => 0

/-- The value that goes to `CR1`. -/
def cr1Value (mode : EpwmMode) : BitVec 32 :=
  let reg := (0 ||| (ckdClockDiv1 <<< epwmCr1CkdPos)) ||| (cmsAlignEdge <<< epwmCr1CmsPos)
  let reg := setBit reg epwmCr1ArpePos true
  let reg := setBit reg epwmCr1DirPos true
  let reg := setBit reg epwmCr1OpmPos (mode.singlePulse ≠ 0)
  let reg := setBit reg epwmCr1OpmPos (mode.singlePulse ≠ 0)
  let reg := setBit reg epwmCr1UrsPos true
  let reg := setBit reg epwmCr1UdisPos false
  setBit reg epwmCr1CenPos false

/-- The value that goes to `CR2`. The bits from `OIS4N` down to `OIS1` are cleared. -/
def cr2Value : BitVec 32 :=
  let reg : BitVec 32 := 0 ||| (mmsCntEn <<< epwmCr2MmsPos)
  let reg := (List.range 8).foldl
    (fun reg index => setBit reg (epwmCr2Ois4nPos - index) false) reg
  let reg := setBit reg epwmCr2Ti1sPos false
  let reg := setBit reg epwmCr2CcdsPos true
  let reg := setBit reg epwmCr2CcusPos false
  setBit reg epwmCr2CcpcPos false

/-- The part of `HW_EPWM_InitConfig` that is the same for both modes. -/
def initCommon (epwm : EpwmTypeDef) (mode : EpwmMode) : EpwmTypeDef :=
  let epwm := (List.range epwmChannelMax).foldl
    (fun epwm chn => hwEpwmCaptureStop (hwEpwmStop epwm chn) chn) epwm
  let epwm := { epwm with
    cr1 := cr1Value mode
    cr2 := cr2Value
    smcr := 0
    dier := 0
    egr := 0
    rcr := 0 }
  (hwEpwmUnlock epwm).2

/-- The value that goes to `BDTR`. -/
def bdtrValue (bdtr dtgValue : BitVec 32) (out : EpwmOut) : BitVec 32 :=
  let reg := setField bdtr 0xff epwmBdtrDtgPos dtgValue
  let reg := setBit reg epwmBdtrMoePos true
  let reg := setBit reg epwmBdtrAoePos true
  let reg := setBit reg epwmBdtrBkpPos (out.breakEnable ≠ 0 ∧ out.breakPolarity ≠ 0)
  let reg := setBit reg epwmBdtrBkePos (out.breakEnable ≠ 0)
  let reg := setBit reg epwmBdtrOssrPos true
  setBit reg epwmBdtrOssiPos false

/-- The field of a channel in `CCER`. -/
def ccerValue (ccer : BitVec 32) (chn : Nat) (cc1np cc1p : Bool) : BitVec 32 :=
  let mask : BitVec 32 := 0xf
  let reg := ccer &&& ~~~(mask <<< (chn * 4))
  let reg := setBit reg (chn * 4 + epwmCcerCc1npPos) cc1np
  let reg := setBit reg (chn * 4 + epwmCcerCc1nePos) false
  let reg := setBit reg (chn * 4 + epwmCcerCc1pPos) cc1p
  setBit reg (chn * 4 + epwmCcerCc1ePos) false

/-- The field of an output channel in `CCMR`. -/
def compareCcmr (ccmr : BitVec 32) (chn : Nat) : BitVec 32 :=
  let offset := chn % 2 * 8
  let mask : BitVec 32 := 0xff
  let reg := ccmr &&& ~~~(mask <<< offset)
  let reg := setBit reg (offset + epwmCcmr1Oc1cePos) false
  let reg := setBit reg (offset + epwmCcmr1Oc1pePos) true
  let reg := setBit reg (offset + epwmCcmr1Oc1fePos) false
  let reg := reg ||| (ocmPwmMode1 <<< (offset + epwmCcmr1Oc1mPos))
  reg ||| (ccsOutput <<< (offset + epwmCcmr1Cc1sPos))

/-- The field of an input channel in `CCMR`. -/
def captureCcmr (ccmr : BitVec 32) (chn : Nat) : BitVec 32 :=
  let offset := chn % 2 * 8
  let mask : BitVec 32 := 0xff
  let reg := ccmr &&& ~~~(mask <<< offset)
  let reg := reg ||| (icfDtsN1 <<< (offset + epwmCcmr1Ic1fPos))
  let reg := reg ||| (icpsc1Event <<< (offset + epwmCcmr1Ic1pscPos))
  reg ||| (ccsInputTi1 <<< (offset + epwmCcmr1Cc1sPos))

/-- A turn of the loop over the output channels, for `ticks` clocks of the period. -/
def compareChannel (ticks : BitVec 32) (param : Nat → EpwmParam) (epwm : EpwmTypeDef)
    (chn : Nat) : EpwmTypeDef :=
  let width := countFromZero (ticks * (param chn).duty.setWidth 32 / 1000)
  let delay := (epwm.arr + 1) * (param chn).delayRate.setWidth 32 / 1000
  let pmcren := setBit epwm.pmcren (chn * 3 + epwmPmcrenPmcr1nDelayEnPos) (delay ≠ 0)
  let pmcren := setBit pmcren (chn * 3 + epwmPmcrenPmcr1DelayEnPos) (delay ≠ 0)
  { epwm with
    ccr := Function.update epwm.ccr chn width
    ccer := ccerValue epwm.ccer chn ((param chn).ocnActive ≠ 0) ((param chn).ocActive ≠ 0)
    ccmr := Function.update epwm.ccmr (chn / 2) (compareCcmr (epwm.ccmr (chn / 2)) chn)
    pmcr := Function.update epwm.pmcr chn
      ((delay <<< epwmPmcrPmdv1Pos) ||| ((0 : BitVec 32) <<< epwmPmcrPmcr1Pos))
    pmcren := setBit pmcren (chn * 3 + epwmPmcrenPmcr1EnPos) false
    pue := setBit epwm.pue chn ((param chn).pullUp ≠ 0) }

/-- The branch of `HW_EPWM_InitConfig` for `eEPwmMode_Compare`. -/
def initCompare (apbFreq : BitVec 32) (epwm : EpwmTypeDef) (clockFreq : BitVec 32)
    (out : EpwmOut) : Option EpwmTypeDef := do
  let clkDiv ← divide apbFreq clockFreq
  let ticks ← divide clockFreq out.freq
  let step ← hwEpwmGetDeadTimeIntervalStep apbFreq epwm
  let dtgValue ← divide (out.deadTime.setWidth 32) step
  let epwm := { epwm with
    psc := countFromZero clkDiv
    cnt := countFromZero ticks
    arr := countFromZero ticks
    bdtr := bdtrValue epwm.bdtr dtgValue out
    dier := 0 }
  return (List.range epwmChannelMax).foldl (compareChannel ticks out.param) epwm

/-- A turn of the loop over the input channels. -/
def captureChannel (index : Nat) (polarity : Nat → EpwmPolarity)
    (state : EpwmTypeDef × LastCaptureValue) (chn : Nat) : EpwmTypeDef × LastCaptureValue :=
  let (epwm, last) := state
  let last := Function.update last index (Function.update (last index) chn (epwm.ccr chn))
  let epwm := hwEpwmClearInterrupt epwm chn
  let bits : BitVec 2 := BitVec.ofNat 2 (polarity chn).ctorIdx
  let mask : BitVec 32 := 0xf
  let dier := epwm.dier &&& (mask <<< epwmDierCc1iePos)
  ({ epwm with
      dier := setBit dier (epwmDierCc1iePos + chn) (polarity chn ≠ .reserved)
      ccer := ccerValue epwm.ccer chn (bits.getLsbD 1) (bits.getLsbD 0)
      ccmr := Function.update epwm.ccmr (chn / 2) (captureCcmr (epwm.ccmr (chn / 2)) chn) }, last)

/-- The branch of `HW_EPWM_InitConfig` for `eEPwmMode_Capture`. -/
def initCapture (index : Nat) (epwm : EpwmTypeDef) (last : LastCaptureValue)
    (polarity : Nat → EpwmPolarity) : EpwmTypeDef × LastCaptureValue :=
  let epwm := { epwm with psc := 0, cnt := 0, arr := 0, dier := 0 }
  let (epwm, last) :=
    (List.range epwmChannelMax).foldl (captureChannel index polarity) (epwm, last)
  ({ epwm with cr1 := setBit epwm.cr1 epwmCr1CenPos true }, last)

/-- `HW_EPWM_InitConfig`: the result, the module, the captured values and the configuration
it leaves. -/
def hwEpwmInitConfig (apbFreq : BitVec 32) (address : EpwmAddress) (epwm : EpwmTypeDef)
    (last : LastCaptureValue) (config? : Option DeviceEpwmConfig) :
    Option (Int × EpwmTypeDef × LastCaptureValue × Option DeviceEpwmConfig) :=
  match config? with
  | none => some (-1, epwm, last, none)
  | some config =>
      let epwm := initCommon epwm config.mode
      match config.mode with
      | .compare out => do
          let epwm ← initCompare apbFreq epwm config.clockFreq out
          return (0, (hwEpwmLock epwm).2, last, some { config with status := 0 })
      | .capture polarity =>
          let (epwm, last) := initCapture (getIndex address) epwm last polarity
          let clockFreq := apbFreq / (0 + 1)
          some (0, (hwEpwmLock epwm).2, last, some { config with clockFreq, status := 0 })

end SunWise.Epwm
