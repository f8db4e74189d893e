import Mathlib.Data.Nat.Bitwise
import SunWise.Pwm.Driver

/-!
# Fields of the other channels

Two channels share a counter and a compare register, and four pairs of channels share the
registers of the prescalers and the dead zones.  `HW_PWM_InitConfig` clears the field of its
channel before it writes it, but does not limit what it writes to the field.
-/

namespace SunWise.Pwm

open Library

/-- The field of a channel in a register of two channels. -/
def channelField (register : BitVec 32) (chn : Nat) : BitVec 16 :=
  register.extractLsb' (chn / 4 * 16) 16

/-- The field of a pair of channels in a register of four pairs. -/
def pairField (register : BitVec 32) (pair : Nat) : BitVec 8 :=
  register.extractLsb' (pair * 8) 8

/-- The counter of a channel. -/
def pcnrField (pwm : PwmTypeDef) (chn : Nat) : BitVec 16 :=
  channelField (pwm.pcnr (chn % 4)) chn

/-- The compare value of a channel. -/
def pcmrField (pwm : PwmTypeDef) (chn : Nat) : BitVec 16 :=
  channelField (pwm.pcmr (chn % 4)) chn

/-- The fields of the other channels and pairs of channels are left alone. -/
structure Isolated (before after : PwmTypeDef) (chn : Nat) : Prop where
  channels : ∀ other < pwmChannelMax, other ≠ chn →
    pcnrField after other = pcnrField before other ∧
      pcmrField after other = pcmrField before other
  pairs : ∀ pair < 4, pair ≠ chn / 2 →
    pairField after.ppr pair = pairField before.ppr pair ∧
      pairField after.dz pair = pairField before.dz pair

/-- The counter holds the period, and the compare value lies within it. -/
structure Programmed (after : PwmTypeDef) (chn period : Nat) : Prop where
  counter : (pcnrField after chn).toNat = period - 1
  compare : (pcmrField after chn).toNat ≤ (pcnrField after chn).toNat

/-- The device after a configuration for the output of a signal. -/
def configured (apbFreq : BitVec 32) (pwm : PwmTypeDef) (chn : Nat) (status clockFreq : BitVec 32)
    (out : PwmOut) : PwmTypeDef :=
  (hwPwmInitConfig apbFreq pwm chn (some ⟨status, clockFreq, .compare out⟩)).2.1

/-- What a caller may expect of such a configuration. -/
def Configures (apbFreq : BitVec 32) (pwm : PwmTypeDef) (chn : Nat) (status clockFreq : BitVec 32)
    (out : PwmOut) : Prop :=
  (hwPwmInitConfig apbFreq pwm chn (some ⟨status, clockFreq, .compare out⟩)).1 ≠ 0 ∨
    Programmed (configured apbFreq pwm chn status clockFreq out) chn
      (clockFreq.toNat / out.freq.toNat) ∧
    Isolated pwm (configured apbFreq pwm chn status clockFreq out) chn

/-- The registers that channels share stay as they are. -/
structure SameShared (before after : PwmTypeDef) : Prop where
  ppr : after.ppr = before.ppr
  dz : after.dz = before.dz
  pcnr : after.pcnr = before.pcnr
  pcmr : after.pcmr = before.pcmr

section Shared

variable (pwm : PwmTypeDef) (chn : Nat)

theorem setChen_shared (value : Bool) : SameShared pwm (setChen pwm chn value) := by
  rw [setChen]
  split
  · exact ⟨rfl, rfl, rfl, rfl⟩
  · exact ⟨rfl, rfl, rfl, rfl⟩

theorem setSelected_shared (bit? : Option (Nat × Nat)) (value : Bool) :
    SameShared pwm (setSelected pwm bit? value) := by
  cases bit? with
  | none => exact ⟨rfl, rfl, rfl, rfl⟩
  | some bit => exact ⟨rfl, rfl, rfl, rfl⟩

theorem SameShared.trans {first second third : PwmTypeDef} (front : SameShared first second)
    (back : SameShared second third) : SameShared first third where
  ppr := back.ppr.trans front.ppr
  dz := back.dz.trans front.dz
  pcnr := back.pcnr.trans front.pcnr
  pcmr := back.pcmr.trans front.pcmr

/-- A channel is stopped before it is configured. -/
theorem stop_shared : SameShared pwm (hwPwmCaptureStop (hwPwmStop pwm chn) chn) := by
  have stopped := setChen_shared pwm chn false
  have selected := setSelected_shared (hwPwmStop pwm chn)
    (pwmPccrBit pwmPccrCapch0EnPos pwmPccrCapch1EnPos chn) false
  exact (stopped.trans selected).trans (setChen_shared _ chn false)

theorem initOutput_shared (out : PwmOut) : SameShared pwm (initOutput pwm chn out) := by
  unfold initOutput
  split
  all_goals exact ⟨rfl, rfl, rfl, rfl⟩

variable (apbFreq status clockFreq : BitVec 32) (out : PwmOut)

/-- A channel that exists is configured, and this writes its own fields of the registers. -/
theorem hwPwmInitConfig_compare (channel : chn < pwmChannelMax) :
    (hwPwmInitConfig apbFreq pwm chn (some ⟨status, clockFreq, .compare out⟩)).1 = 0 ∧
      SameShared
        { pwm with
          ppr := setField pwm.ppr 0xff (chn / 2 * 8) (clockDivider (apbFreq / clockFreq))
          dz :=
            if out.deadTime > 0 then
              setField pwm.dz 0xff (chn / 2 * 8) (out.deadTime.setWidth 32)
            else pwm.dz
          pcnr := Function.update pwm.pcnr (chn % 4)
            (setField (pwm.pcnr (chn % 4)) 0xffff (chn / 4 * 16)
              (clockDivider (clockFreq / out.freq)))
          pcmr := Function.update pwm.pcmr (chn % 4)
            (setField (pwm.pcmr (chn % 4)) 0xffff (chn / 4 * 16)
              (clockDivider (clockFreq / out.freq * out.duty.setWidth 32 / 1000))) }
        (configured apbFreq pwm chn status clockFreq out) := by
  rcases stop_shared pwm chn with ⟨ppr, dz, pcnr, pcmr⟩
  have valid : ¬ chn ≥ pwmChannelMax := Nat.not_le.mpr channel
  rw [configured, hwPwmInitConfig]
  simp only [if_neg valid]
  refine ⟨trivial, ?_⟩
  rw [← ppr, ← dz, ← pcnr, ← pcmr]
  rcases initOutput_shared _ chn out with ⟨ppr, dz, pcnr, pcmr⟩
  exact ⟨ppr, dz, pcnr, pcmr⟩

end Shared

section Values

variable {clockFreq freq : BitVec 32}

theorem clockDivider_toNat (quotient : BitVec 32) :
    (clockDivider quotient).toNat = quotient.toNat - 1 :=
  toNat_countFromZero quotient

/-- The compare value lies within the period, when the product of a period that fits its
counter and the share is formed. -/
theorem width_toNat {duty : BitVec 16} (small : duty.toNat ≤ 1000)
    (fits : clockFreq.toNat / freq.toNat ≤ 65536) :
    (clockDivider (clockFreq / freq * duty.setWidth 32 / 1000)).toNat ≤
      clockFreq.toNat / freq.toNat - 1 := by
  have share : (duty.setWidth 32).toNat = duty.toNat := by
    rw [BitVec.toNat_setWidth]
    exact Nat.mod_eq_of_lt (Nat.lt_of_le_of_lt small (by decide))
  have product : clockFreq.toNat / freq.toNat * duty.toNat ≤
      clockFreq.toNat / freq.toNat * 1000 := Nat.mul_le_mul_left _ small
  have bound : clockFreq.toNat / freq.toNat * duty.toNat < 2 ^ 32 := by omega
  have thousand : (1000 : BitVec 32).toNat = 1000 := rfl
  rw [clockDivider_toNat, BitVec.toNat_udiv, BitVec.toNat_mul, BitVec.toNat_udiv, share,
    Nat.mod_eq_of_lt bound, thousand]
  exact Nat.sub_le_sub_right (thousandths_le _ small) 1

end Values

section Fields

variable {chn other : Nat} (register value : BitVec 32)

theorem channelField_setField_self (channel : chn < pwmChannelMax) :
    channelField (setField register 0xffff (chn / 4 * 16) value) chn = value.setWidth 16 := by
  have inside : chn / 4 * 16 + 16 ≤ 32 := by
    rw [pwmChannelMax] at channel
    omega
  exact extractLsb'_setField_self register value inside

/-- A value that fits its field leaves the other field of the register alone. -/
theorem channelField_setField_other (channel : other < pwmChannelMax)
    (apart : other / 4 ≠ chn / 4) (fits : value.toNat < 2 ^ 16) :
    channelField (setField register 0xffff (chn / 4 * 16) value) other =
      channelField register other := by
  have inside : other / 4 * 16 + 16 ≤ 32 := by
    rw [pwmChannelMax] at channel
    omega
  exact @extractLsb'_setField_apart 32 register value 16 (chn / 4 * 16) (other / 4 * 16) 16 fits
    (by omega) inside

/-- Writing the field of one channel leaves those of all other channels alone. -/
theorem channelField_update_other (registers : Nat → BitVec 32)
    (inside : other < pwmChannelMax) (apart : other ≠ chn) (fits : value.toNat < 2 ^ 16) :
    channelField
        (Function.update registers (chn % 4)
          (setField (registers (chn % 4)) 0xffff (chn / 4 * 16) value) (other % 4)) other =
      channelField (registers (other % 4)) other := by
  by_cases shared : other % 4 = chn % 4
  · have half : other / 4 ≠ chn / 4 := by omega
    rw [shared, Function.update_self, channelField_setField_other _ _ inside half fits]
  · rw [Function.update_of_ne shared]

theorem pairField_setField_other {pair other : Nat} (inside : other < 4) (apart : other ≠ pair)
    (fits : value.toNat < 2 ^ 8) :
    pairField (setField register 0xff (pair * 8) value) other = pairField register other :=
  @extractLsb'_setField_apart 32 register value 8 (pair * 8) (other * 8) 8 fits (by omega)
    (by omega)

/-- A value of any size leaves them alone when its other bits are set where they fall. -/
theorem pairFields_setField_iff (pair : Nat) :
    (∀ other < 4, other ≠ pair →
        pairField (setField register 0xff (pair * 8) value) other = pairField register other) ↔
      ∀ bit, 8 ≤ bit → pair * 8 + bit < 32 → value.getLsbD bit = true →
        register.getLsbD (pair * 8 + bit) = true := by
  have above (other : Nat) (later : pair < other) (inside : other < 4) :=
    @extractLsb'_setField_above_iff 32 register value 8 (pair * 8) (other * 8) 8 (by omega)
      (by omega)
  constructor
  · intro kept bit outside inside isSet
    have later : pair < pair + bit / 8 := Nat.lt_add_of_pos_right (Nat.div_pos outside (by decide))
    have field : pair + bit / 8 < 4 := by omega
    have offset : (pair + bit / 8) * 8 - pair * 8 + bit % 8 = bit := by omega
    have place : (pair + bit / 8) * 8 + bit % 8 = pair * 8 + bit := by omega
    have present := (above _ later field).mp (kept _ field (Nat.ne_of_gt later)) (bit % 8)
      (Nat.mod_lt _ (by decide))
    rw [offset, place] at present
    exact present isSet
  · intro present other inside apart
    rcases Nat.lt_or_gt_of_ne apart with earlier | later
    · exact @extractLsb'_setField_below 32 register value 8 (pair * 8) (other * 8) 8 (by omega)
        (by omega)
    · refine (above other later inside).mpr ?_
      intro index small isSet
      have place : pair * 8 + (other * 8 - pair * 8 + index) = other * 8 + index := by omega
      rw [← place]
      exact present _ (by omega) (by omega) isSet

end Fields

/-- A signal of half a duty with a dead time. -/
def halfOut (freq : BitVec 32) : PwmOut where
  freq
  ticks := 0
  singlePulse := 0
  duty := 500
  invert := 0
  deadTime := 10
  pullUp := 0

end SunWise.Pwm
