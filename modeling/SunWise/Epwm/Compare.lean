import SunWise.Epwm.Driver

/-!
# Configuration of the output channels

`HW_EPWM_InitConfig` sets the bits of `BDTR` after the dead time, so that no dead time
disturbs them, and the widths and delays are the requested shares of the period as long as
the products do not overflow.  `HW_EPWM_Lock` clears the field where it means to set a level,
so that the module is never locked.
-/

namespace SunWise.Epwm

open Library

/-- The field `LOCK` of `BDTR`. -/
def lockField (bdtr : BitVec 32) : BitVec 2 :=
  bdtr.extractLsb' epwmBdtrLockPos 2

/-- The field `PMDV1` of `PMCR`, the phase delay. -/
def pmdvField (pmcr : BitVec 32) : BitVec 16 :=
  pmcr.extractLsb' epwmPmcrPmdv1Pos 16

/-- The width and the delay of a channel are the requested shares of the period. -/
structure ChannelSet (epwm : EpwmTypeDef) (ticks : Nat) (param : EpwmParam) (chn : Nat) :
    Prop where
  width : (epwm.ccr chn).toNat = ticks * param.duty.toNat / 1000 - 1
  widthInside : (epwm.ccr chn).toNat ≤ epwm.arr.toNat
  delay : (pmdvField (epwm.pmcr chn)).toNat =
    (epwm.arr.toNat + 1) * param.delayRate.toNat / 1000
  delayInside : (pmdvField (epwm.pmcr chn)).toNat ≤ epwm.arr.toNat + 1

/-- The bits of `BDTR` are the configured ones. -/
structure BreakBits (bdtr : BitVec 32) (out : EpwmOut) : Prop where
  moe : bdtr.getLsbD epwmBdtrMoePos = true
  aoe : bdtr.getLsbD epwmBdtrAoePos = true
  bkp : bdtr.getLsbD epwmBdtrBkpPos = decide (out.breakEnable ≠ 0 ∧ out.breakPolarity ≠ 0)
  bke : bdtr.getLsbD epwmBdtrBkePos = decide (out.breakEnable ≠ 0)
  ossr : bdtr.getLsbD epwmBdtrOssrPos = true
  ossi : bdtr.getLsbD epwmBdtrOssiPos = false

/-- The outputs of a module are configured, for a period of `ticks`. -/
structure Compares (epwm : EpwmTypeDef) (ticks : Nat) (out : EpwmOut) : Prop where
  period : epwm.arr.toNat = ticks - 1
  channels : ∀ chn < epwmChannelMax, ChannelSet epwm ticks (out.param chn) chn
  bits : BreakBits epwm.bdtr out

/-- What a caller may expect of a configuration of the outputs. -/
def Configures (apbFreq : BitVec 32) (address : EpwmAddress) (epwm : EpwmTypeDef)
    (last : LastCaptureValue) (status clockFreq : BitVec 32) (out : EpwmOut) : Prop :=
  ∃ result after last' config?,
    hwEpwmInitConfig apbFreq address epwm last (some ⟨status, clockFreq, .compare out⟩) =
      some (result, after, last', config?) ∧
    (result ≠ 0 ∨
      Compares after (clockFreq.toNat / out.freq.toNat) out ∧ lockField after.bdtr = 0x3)

section Lock

variable (epwm : EpwmTypeDef)

theorem getLsbD_hwEpwmLock (bit : Nat) :
    (hwEpwmLock epwm).2.bdtr.getLsbD bit =
      (epwm.bdtr.getLsbD bit && !decide (8 ≤ bit ∧ bit < 10)) := by
  by_cases inside : bit < 32
  · have mask : ((0x3 : BitVec 32) <<< epwmBdtrLockPos).getLsbD bit =
        decide (8 ≤ bit ∧ bit < 10) := by
      revert bit
      decide
    have level : (lockLevel3 <<< epwmBdtrLockPos).getLsbD bit = decide (8 ≤ bit ∧ bit < 10) :=
      mask
    simp only [hwEpwmLock, BitVec.getLsbD_and, BitVec.getLsbD_not, mask, level, inside,
      decide_true, Bool.true_and]
    rw [Bool.and_assoc, Bool.and_self]
  · have outside : 32 ≤ bit := Nat.le_of_not_lt inside
    rw [BitVec.getLsbD_of_ge _ _ outside, BitVec.getLsbD_of_ge _ _ outside, Bool.false_and]

theorem lockField_hwEpwmLock : lockField (hwEpwmLock epwm).2.bdtr = 0 := by
  apply BitVec.eq_of_getLsbD_eq
  intro bit inside
  have place : 8 ≤ epwmBdtrLockPos + bit ∧ epwmBdtrLockPos + bit < 10 := by
    rw [epwmBdtrLockPos]
    omega
  rw [lockField, BitVec.getLsbD_extractLsb', getLsbD_hwEpwmLock, decide_eq_true place]
  simp

end Lock

section Init

variable {apbFreq : BitVec 32} {address : EpwmAddress} {epwm after : EpwmTypeDef}
  {last last' : LastCaptureValue} {status clockFreq : BitVec 32} {out : EpwmOut} {result : Int}
  {config? : Option DeviceEpwmConfig}

theorem hwEpwmInitConfig_locks
    (returns : hwEpwmInitConfig apbFreq address epwm last
      (some ⟨status, clockFreq, .compare out⟩) = some (result, after, last', config?)) :
    result = 0 ∧ ∃ configured,
      initCompare apbFreq (initCommon epwm (.compare out)) clockFreq out = some configured ∧
      after = (hwEpwmLock configured).2 := by
  rw [hwEpwmInitConfig] at returns
  rcases Option.bind_eq_some_iff.mp returns with ⟨configured, compares, same⟩
  cases same
  exact ⟨rfl, configured, compares, rfl⟩

/-- A configuration that returns has not locked it. -/
theorem hwEpwmInitConfig_unlocked
    (returns : hwEpwmInitConfig apbFreq address epwm last
      (some ⟨status, clockFreq, .compare out⟩) = some (result, after, last', config?)) :
    result = 0 ∧ lockField after.bdtr = 0 := by
  rcases hwEpwmInitConfig_locks returns with ⟨accepted, configured, -, rfl⟩
  exact ⟨accepted, lockField_hwEpwmLock configured⟩

variable (apbFreq address epwm last status clockFreq out)

/-- No configuration leaves the module locked. -/
theorem hwEpwmInitConfig_not_configures :
    ¬ Configures apbFreq address epwm last status clockFreq out := by
  rintro ⟨result, after, last', config?, returns, outcome⟩
  rcases hwEpwmInitConfig_unlocked returns with ⟨accepted, unlocked⟩
  rcases outcome with failed | ⟨-, locked⟩
  · exact failed accepted
  · exact absurd (unlocked.symm.trans locked) (by decide)

end Init

/-- The member `out` of `g_DeviceEPwmDefaultConfig`. -/
def defaultOut : EpwmOut where
  freq := 100 * 1000
  singlePulse := 0
  breakEnable := 0
  breakPolarity := 1
  deadTime := 0
  param
    | 0 => ⟨120, 1, 0, 0, 1⟩
    | 1 => ⟨250, 1, 0, 0, 1⟩
    | 2 => ⟨500, 1, 0, 0, 1⟩
    | _ => ⟨760, 1, 0, 0, 1⟩

/-- The default configuration leaves it at zero. -/
theorem hwEpwmInitConfig_default_unlocked :
    ¬ Configures 50000000 .epwm0 default (fun _ _ => 0) 0 10000000 defaultOut := by
  rintro ⟨result, after, last', config?, returns, outcome⟩
  rcases hwEpwmInitConfig_unlocked returns with ⟨accepted, unlocked⟩
  rcases outcome with failed | locked
  · exact failed accepted
  · exact absurd (unlocked.symm.trans locked.2) (by decide)

section Loop

variable (ticks : BitVec 32) (param : Nat → EpwmParam) (epwm : EpwmTypeDef)

/-- The compare value of a channel. -/
def widthOf (param : EpwmParam) : BitVec 32 :=
  countFromZero (ticks * param.duty.setWidth 32 / 1000)

/-- The phase delay of a channel, before it goes to its field. -/
def delayOf (arr : BitVec 32) (param : EpwmParam) : BitVec 32 :=
  (arr + 1) * param.delayRate.setWidth 32 / 1000

theorem pmdvField_shift (delay : BitVec 32) :
    pmdvField ((delay <<< epwmPmcrPmdv1Pos) ||| ((0 : BitVec 32) <<< epwmPmcrPmcr1Pos)) =
      delay.setWidth 16 := by
  apply BitVec.eq_of_getLsbD_eq
  intro bit inside
  have above : ¬ 16 + bit < 16 := Nat.not_lt.mpr (Nat.le_add_right 16 bit)
  have within : 16 + bit < 32 := Nat.add_lt_add_left inside 16
  have zero : ((0 : BitVec 32) <<< epwmPmcrPmcr1Pos) = 0 := rfl
  rw [pmdvField, zero, BitVec.getLsbD_extractLsb', BitVec.getLsbD_setWidth, BitVec.getLsbD_or,
    BitVec.getLsbD_shiftLeft]
  simp [inside, above, within]

theorem compareChannel_written (chn : Nat) :
    (compareChannel ticks param epwm chn).ccr =
        Function.update epwm.ccr chn (widthOf ticks (param chn)) ∧
      (compareChannel ticks param epwm chn).pmcr =
        Function.update epwm.pmcr chn ((delayOf epwm.arr (param chn) <<< epwmPmcrPmdv1Pos) |||
          ((0 : BitVec 32) <<< epwmPmcrPmcr1Pos)) :=
  ⟨rfl, rfl⟩

theorem compareChannels (count : Nat) :
    ∃ after, (List.range count).foldl (compareChannel ticks param) epwm = after ∧
      after.arr = epwm.arr ∧ after.bdtr = epwm.bdtr ∧
      ∀ chn < count, after.ccr chn = widthOf ticks (param chn) ∧
        pmdvField (after.pmcr chn) = (delayOf epwm.arr (param chn)).setWidth 16 := by
  induction count with
  | zero => exact ⟨epwm, rfl, rfl, rfl, fun chn below => absurd below (Nat.not_lt_zero chn)⟩
  | succ count ih =>
      rcases ih with ⟨before, reached, arr, bdtr, channels⟩
      refine ⟨compareChannel ticks param before count, ?_, arr, bdtr, ?_⟩
      · rw [List.range_succ, List.foldl_append, reached]
        rfl
      · intro chn below
        rcases compareChannel_written ticks param before count with ⟨ccr, pmcr⟩
        rw [ccr, pmcr]
        by_cases now : chn = count
        · rw [now, Function.update_self, Function.update_self, pmdvField_shift, arr]
          exact ⟨rfl, rfl⟩
        · have earlier : chn < count := Nat.lt_of_le_of_ne (Nat.le_of_lt_succ below) now
          rw [Function.update_of_ne now, Function.update_of_ne now]
          exact channels chn earlier

end Loop

section Values

variable {ticks : BitVec 32} {param : EpwmParam}

/-- The compare value is the requested share exactly when the product does not overflow. -/
theorem widthOf_iff :
    (widthOf ticks param).toNat = ticks.toNat * param.duty.toNat / 1000 - 1 ↔
      ticks.toNat * param.duty.toNat < 2 ^ 32 := by
  have share : (param.duty.setWidth 32).toNat = param.duty.toNat := by
    rw [BitVec.toNat_setWidth]
    exact Nat.mod_eq_of_lt (Nat.lt_trans param.duty.isLt (by decide))
  have value : (widthOf ticks param).toNat =
      ticks.toNat * param.duty.toNat % 2 ^ 32 / 1000 - 1 := by
    rw [widthOf, toNat_countFromZero, BitVec.toNat_udiv, BitVec.toNat_mul, share]
    rfl
  rw [value]
  generalize ticks.toNat * param.duty.toNat = product
  omega

/-- The phase delay is the requested share exactly when it fits its field. -/
theorem delayOf_iff {arr : BitVec 32} (counts : arr.toNat + 1 < 2 ^ 32) :
    ((delayOf arr param).setWidth 16).toNat = (arr.toNat + 1) * param.delayRate.toNat / 1000 ↔
      (arr.toNat + 1) * param.delayRate.toNat / 1000 < 2 ^ 16 := by
  have share : (param.delayRate.setWidth 32).toNat = param.delayRate.toNat := by
    rw [BitVec.toNat_setWidth]
    exact Nat.mod_eq_of_lt (Nat.lt_trans param.delayRate.isLt (by decide))
  have period : (arr + 1).toNat = arr.toNat + 1 := by
    rw [BitVec.toNat_add]
    exact Nat.mod_eq_of_lt counts
  have value : ((delayOf arr param).setWidth 16).toNat =
      (arr.toNat + 1) * param.delayRate.toNat % 2 ^ 32 / 1000 % 2 ^ 16 := by
    rw [BitVec.toNat_setWidth, delayOf, BitVec.toNat_udiv, BitVec.toNat_mul, share, period]
    rfl
  rw [value]
  constructor
  · intro same
    rw [← same]
    exact Nat.mod_lt _ (by decide)
  · intro fits
    have small : (arr.toNat + 1) * param.delayRate.toNat < 2 ^ 32 :=
      Nat.lt_trans ((Nat.div_lt_iff_lt_mul (by decide)).mp fits) (by decide)
    rw [Nat.mod_eq_of_lt small, Nat.mod_eq_of_lt fits]

end Values

section Init

variable {apbFreq : BitVec 32} {epwm : EpwmTypeDef} {clockFreq : BitVec 32} {out : EpwmOut}

theorem divide_of_pos {divisor : BitVec 32} (positive : 0 < divisor.toNat)
    (dividend : BitVec 32) : divide dividend divisor = some (dividend / divisor) := by
  have nonzero : divisor ≠ 0 := by
    rintro rfl
    exact absurd positive (by decide)
  exact if_neg nonzero

/-- With the clock of `CR1` undivided, the step of the dead time is defined for a bus clock
between 1 MHz and 1 GHz. -/
theorem deadTimeStep_pos {mode : EpwmMode} (undivided : epwm.cr1 = cr1Value mode)
    (atLeast : 1 ≤ apbFreq.toNat / 1000000) (atMost : apbFreq.toNat / 1000000 ≤ 1000) :
    ∃ step, hwEpwmGetDeadTimeIntervalStep apbFreq epwm = some step ∧ 0 < step.toNat := by
  have ckd : (epwm.cr1 >>> epwmCr1CkdPos) &&& 0x3 = 0 := by
    rw [undivided, cr1Value]
    cases decide (mode.singlePulse ≠ 0) <;> decide
  have million : (1000000 : BitVec 32).toNat = 1000000 := rfl
  have thousand : (1000 : BitVec 32).toNat = 1000 := rfl
  have clocks : ((apbFreq / 1000000) <<< (0 : BitVec 32)).toNat = apbFreq.toNat / 1000000 := by
    have unshifted : (apbFreq / 1000000) <<< (0 : BitVec 32) = apbFreq / 1000000 :=
      BitVec.shiftLeft_zero _
    rw [unshifted, BitVec.toNat_udiv, million]
  refine ⟨1000 / ((apbFreq / 1000000) <<< (0 : BitVec 32)), ?_, ?_⟩
  · rw [hwEpwmGetDeadTimeIntervalStep, ckd]
    exact divide_of_pos (by rw [clocks]; exact atLeast) _
  · rw [BitVec.toNat_udiv, clocks, thousand]
    exact Nat.div_pos atMost atLeast

/-- No dead time disturbs the bits of `BDTR` that are set after it. -/
theorem breakBits_bdtrValue (bdtr dtgValue : BitVec 32) (out : EpwmOut) :
    BreakBits (bdtrValue bdtr dtgValue out) out := by
  constructor
  all_goals
    simp only [bdtrValue, getLsbD_setBit]
    simp

theorem BreakBits.lock (bits : BreakBits epwm.bdtr out) :
    BreakBits (hwEpwmLock epwm).2.bdtr out := by
  have kept (bit : Nat) (above : 10 ≤ bit) :
      (hwEpwmLock epwm).2.bdtr.getLsbD bit = epwm.bdtr.getLsbD bit := by
    have outside : ¬ (8 ≤ bit ∧ bit < 10) := by omega
    rw [getLsbD_hwEpwmLock, decide_eq_false outside, Bool.not_false, Bool.and_true]
  exact {
    moe := (kept _ (by decide)).trans bits.moe
    aoe := (kept _ (by decide)).trans bits.aoe
    bkp := (kept _ (by decide)).trans bits.bkp
    bke := (kept _ (by decide)).trans bits.bke
    ossr := (kept _ (by decide)).trans bits.ossr
    ossi := (kept _ (by decide)).trans bits.ossi }

theorem initCompare_returns {mode : EpwmMode} (undivided : epwm.cr1 = cr1Value mode)
    (atLeast : 1 ≤ apbFreq.toNat / 1000000) (atMost : apbFreq.toNat / 1000000 ≤ 1000)
    (clockPositive : 0 < clockFreq.toNat) (freqPositive : 0 < out.freq.toNat) :
    ∃ after, initCompare apbFreq epwm clockFreq out = some after ∧
      after.arr = countFromZero (clockFreq / out.freq) ∧ BreakBits after.bdtr out ∧
      ∀ chn < epwmChannelMax,
        after.ccr chn = widthOf (clockFreq / out.freq) (out.param chn) ∧
        pmdvField (after.pmcr chn) = (delayOf after.arr (out.param chn)).setWidth 16 := by
  rcases deadTimeStep_pos undivided atLeast atMost with ⟨step, defined, positive⟩
  let dtgValue := out.deadTime.setWidth 32 / step
  let before := { epwm with
    psc := countFromZero (apbFreq / clockFreq)
    cnt := countFromZero (clockFreq / out.freq)
    arr := countFromZero (clockFreq / out.freq)
    bdtr := bdtrValue epwm.bdtr dtgValue out
    dier := 0 }
  rcases compareChannels (clockFreq / out.freq) out.param before epwmChannelMax
    with ⟨after, reached, arr, bdtr, channels⟩
  refine ⟨after, ?_, arr, ?_, ?_⟩
  · rw [initCompare, divide_of_pos clockPositive, divide_of_pos freqPositive, defined]
    change (divide (out.deadTime.setWidth 32) step).bind _ = some after
    rw [divide_of_pos positive]
    exact congrArg some reached
  · rw [bdtr]
    exact breakBits_bdtrValue epwm.bdtr dtgValue out
  · rw [arr]
    exact channels

variable (address : EpwmAddress) (epwm) (last : LastCaptureValue) (status : BitVec 32)

/-- Apart from the lock, the outputs are configured as requested exactly when the products of
the period and the duties do not overflow and the delays fit their field. -/
theorem hwEpwmInitConfig_compares_iff (atLeast : 1 ≤ apbFreq.toNat / 1000000)
    (atMost : apbFreq.toNat / 1000000 ≤ 1000) (clockPositive : 0 < clockFreq.toNat)
    (freqPositive : 0 < out.freq.toNat)
    (duty : ∀ chn < epwmChannelMax, (out.param chn).duty.toNat ≤ 1000)
    (rate : ∀ chn < epwmChannelMax, (out.param chn).delayRate.toNat ≤ 1000) :
    ∃ after config?,
      hwEpwmInitConfig apbFreq address epwm last (some ⟨status, clockFreq, .compare out⟩) =
        some (0, after, last, config?) ∧
      (Compares after (clockFreq.toNat / out.freq.toNat) out ↔
        ∀ chn < epwmChannelMax,
          clockFreq.toNat / out.freq.toNat * (out.param chn).duty.toNat < 2 ^ 32 ∧
          max (clockFreq.toNat / out.freq.toNat) 1 * (out.param chn).delayRate.toNat / 1000 <
            2 ^ 16) := by
  have undivided : (initCommon epwm (.compare out)).cr1 = cr1Value (.compare out) := rfl
  rcases initCompare_returns undivided atLeast atMost clockPositive freqPositive
    with ⟨configured, returns, arr, bits, channels⟩
  refine ⟨(hwEpwmLock configured).2, some ⟨0, clockFreq, .compare out⟩, ?_, ?_⟩
  · change (initCompare apbFreq (initCommon epwm (.compare out)) clockFreq out).bind _ = _
    rw [returns]
    rfl
  have ticks : (clockFreq / out.freq).toNat = clockFreq.toNat / out.freq.toNat :=
    BitVec.toNat_udiv
  have period : configured.arr.toNat = clockFreq.toNat / out.freq.toNat - 1 := by
    rw [arr, toNat_countFromZero, ticks]
  have bound : configured.arr.toNat + 1 < 2 ^ 32 := by
    have small := (clockFreq / out.freq).isLt
    rw [ticks] at small
    omega
  have whole : configured.arr.toNat + 1 = max (clockFreq.toNat / out.freq.toNat) 1 := by omega
  have width (chn : Nat) := @widthOf_iff (clockFreq / out.freq) (out.param chn)
  have delay (chn : Nat) := @delayOf_iff (out.param chn) configured.arr bound
  rw [ticks] at width
  rw [whole] at delay
  constructor
  · intro compares chn below
    have set := compares.channels chn below
    have ccr := set.width
    have pmcr := set.delay
    change (configured.ccr chn).toNat = _ at ccr
    change (pmdvField (configured.pmcr chn)).toNat = (configured.arr.toNat + 1) * _ / 1000 at pmcr
    rw [(channels chn below).1] at ccr
    rw [(channels chn below).2, whole] at pmcr
    exact ⟨(width chn).mp ccr, (delay chn).mp pmcr⟩
  · intro fits
    refine ⟨period, ?_, bits.lock⟩
    intro chn below
    rcases fits chn below with ⟨widthFits, delayFits⟩
    have ccr : (configured.ccr chn).toNat =
        clockFreq.toNat / out.freq.toNat * (out.param chn).duty.toNat / 1000 - 1 := by
      rw [(channels chn below).1]
      exact (width chn).mpr widthFits
    have pmcr : (pmdvField (configured.pmcr chn)).toNat =
        (configured.arr.toNat + 1) * (out.param chn).delayRate.toNat / 1000 := by
      rw [(channels chn below).2, whole]
      exact (delay chn).mpr delayFits
    refine ⟨ccr, ?_, pmcr, ?_⟩
    · change (configured.ccr chn).toNat ≤ configured.arr.toNat
      rw [ccr, period]
      exact Nat.sub_le_sub_right (thousandths_le _ (duty chn below)) 1
    · change (pmdvField (configured.pmcr chn)).toNat ≤ configured.arr.toNat + 1
      rw [pmcr]
      exact thousandths_le _ (rate chn below)

end Init

end SunWise.Epwm
