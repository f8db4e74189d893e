import Mathlib.Tactic.Ring
import SunWise.Can.Driver

/-!
# Bit timing

A bit takes one quantum for synchronisation and the two segments, whose fields hold one less
than their number of quanta, and a quantum takes twice the prescaler's number of clocks, of
which the field again holds one less.  `HW_CAN_InitConfig` divides by one quantum and the
values of the two fields, and does not limit the prescaler to its field.
-/

namespace SunWise.Can

open Library

/-- The values of the two segment fields together. -/
def segmentFields (config : DeviceCanConfig) : Nat :=
  config.tseg1.toNat + config.tseg2.toNat

/-- The bus clocks of a bit. -/
def bitClocks (config : DeviceCanConfig) (brp : Nat) : Nat :=
  (1 + (config.tseg1.toNat + 1) + (config.tseg2.toNat + 1)) * (2 * (brp + 1))

/-- A prescaler gives the rate exactly. -/
def Exact (apbFreq : BitVec 32) (config : DeviceCanConfig) (brp : Nat) : Prop :=
  apbFreq.toNat = config.rate.toNat * bitClocks config brp

/-- The field `BRP` of `BTR0`. -/
def brpField (btr0 : BitVec 32) : BitVec 32 :=
  (btr0 >>> canBtr0BrpPos) &&& 0x3f

/-- The field `SJW` of `BTR0`. -/
def sjwField (btr0 : BitVec 32) : BitVec 32 :=
  (btr0 >>> canBtr0SjwPos) &&& 0x3

/-- A configuration that is accepted gets the prescaler that gives its rate, if there is
one, and in any case one that fits its field. -/
def TimesExactly (apbFreq : BitVec 32) (can : CanTypeDef) (config : DeviceCanConfig) : Prop :=
  (hwCanInitConfig apbFreq can (some config)).1 = 0 →
    (∀ brp ≤ 63, Exact apbFreq config brp →
      (brpField (hwCanInitConfig apbFreq can (some config)).2.1.btr0).toNat = brp) ∧
    (canDiv apbFreq config).toNat ≤ 63 ∧
    sjwField (hwCanInitConfig apbFreq can (some config)).2.1.btr0 = 0

section Prescaler

variable (apbFreq : BitVec 32) (config : DeviceCanConfig)

theorem btr0Value_eq (value : BitVec 32) : btr0Value value = value := by
  simp [btr0Value]

theorem canDiv_toNat :
    (canDiv apbFreq config).toNat =
      apbFreq.toNat / ((1 + segmentFields config) * config.rate.toNat * 2) - 1 := by
  have segments : (1 + config.tseg1.setWidth 32 + config.tseg2.setWidth 32 : BitVec 32).toNat =
      1 + segmentFields config := by
    have first := config.tseg1.isLt
    have second := config.tseg2.isLt
    have one : (1 : BitVec 32).toNat = 1 := rfl
    rw [BitVec.toNat_add, BitVec.toNat_add, BitVec.toNat_setWidth, BitVec.toNat_setWidth, one,
      segmentFields]
    omega
  have quotient : (apbFreq / (1 + config.tseg1.setWidth 32 + config.tseg2.setWidth 32) /
      config.rate / 2).toNat =
      apbFreq.toNat / ((1 + segmentFields config) * config.rate.toNat * 2) := by
    rw [BitVec.toNat_udiv, BitVec.toNat_udiv, BitVec.toNat_udiv, segments,
      Nat.div_div_eq_div_mul, Nat.div_div_eq_div_mul, ← Nat.mul_assoc]
    rfl
  rw [canDiv, ← quotient]
  exact toNat_countFromZero _

theorem canDiv_fits_iff (positive : 0 < config.rate.toNat) :
    (canDiv apbFreq config).toNat ≤ 63 ↔
      apbFreq.toNat < 130 * config.rate.toNat * (1 + segmentFields config) := by
  have divisor : 0 < (1 + segmentFields config) * config.rate.toNat * 2 :=
    Nat.mul_pos (Nat.mul_pos (Nat.add_pos_left Nat.one_pos _) positive) (by decide)
  have quotient : apbFreq.toNat / ((1 + segmentFields config) * config.rate.toNat * 2) < 65 ↔
      apbFreq.toNat < 65 * ((1 + segmentFields config) * config.rate.toNat * 2) :=
    Nat.div_lt_iff_lt_mul divisor
  have product : 65 * ((1 + segmentFields config) * config.rate.toNat * 2) =
      130 * config.rate.toNat * (1 + segmentFields config) := by ring
  rw [canDiv_toNat, ← product, ← quotient]
  omega

/-- Where the rate can be exact, the prescaler is the right one when it is small. -/
theorem canDiv_exact_iff (positive : 0 < config.rate.toNat) {brp : Nat}
    (exact : Exact apbFreq config brp) :
    (canDiv apbFreq config).toNat = brp ↔ 2 * (brp + 1) < 1 + segmentFields config := by
  have reduced : apbFreq.toNat / ((1 + segmentFields config) * config.rate.toNat * 2) =
      (brp + 1) + 2 * (brp + 1) / (1 + segmentFields config) := by
    have factor : 0 < config.rate.toNat * 2 := Nat.mul_pos positive (by decide)
    have clock : apbFreq.toNat = (config.rate.toNat * 2) *
        ((1 + segmentFields config) * (brp + 1) + 2 * (brp + 1)) := by
      rw [exact, bitClocks, segmentFields]
      ring
    have divisor : (1 + segmentFields config) * config.rate.toNat * 2 =
        (config.rate.toNat * 2) * (1 + segmentFields config) := by ring
    rw [clock, divisor, Nat.mul_div_mul_left _ _ factor,
      Nat.mul_add_div (Nat.add_pos_left Nat.one_pos _)]
  have short : 2 * (brp + 1) / (1 + segmentFields config) = 0 ↔
      2 * (brp + 1) < 1 + segmentFields config := by
    rw [Nat.div_eq_zero_iff]
    omega
  rw [canDiv_toNat, reduced, ← short]
  generalize 2 * (brp + 1) / (1 + segmentFields config) = extra
  omega

variable (can : CanTypeDef)

theorem btr0_hwCanInitConfig :
    (hwCanInitConfig apbFreq can (some config)).2.1.btr0 = canDiv apbFreq config :=
  btr0Value_eq (canDiv apbFreq config)

theorem btr0_fields {value : BitVec 32} (fits : value.toNat ≤ 63) :
    brpField value = value ∧ sjwField value = 0 := by
  have low : (0x3f : BitVec 32).toNat = 2 ^ 6 - 1 := rfl
  constructor
  · apply BitVec.eq_of_toNat_eq
    rw [brpField, canBtr0BrpPos, BitVec.ushiftRight_zero, BitVec.toNat_and, low,
      Nat.and_two_pow_sub_one_eq_mod]
    exact Nat.mod_eq_of_lt (Nat.lt_succ_of_le fits)
  · apply BitVec.eq_of_toNat_eq
    have gone : (value >>> canBtr0SjwPos).toNat = 0 := by
      rw [BitVec.toNat_ushiftRight, canBtr0SjwPos, Nat.shiftRight_eq_div_pow]
      exact Nat.div_eq_of_lt (Nat.lt_succ_of_le fits)
    rw [sjwField, BitVec.toNat_and, gone, Nat.zero_and]
    rfl

/-- The bit timing is right exactly when the clock is not too fast for the field, and where
some prescaler gives the rate exactly, twice that prescaler is below the sum of the one
quantum and the segment fields that the driver divides by. -/
theorem hwCanInitConfig_times_iff (positive : 0 < config.rate.toNat) :
    TimesExactly apbFreq can config ↔
      apbFreq.toNat < 130 * config.rate.toNat * (1 + segmentFields config) ∧
        ∀ brp ≤ 63, Exact apbFreq config brp → 2 * (brp + 1) < 1 + segmentFields config := by
  have accepted : (hwCanInitConfig apbFreq can (some config)).1 = 0 := rfl
  rw [← canDiv_fits_iff apbFreq config positive]
  constructor
  · intro times
    rcases times accepted with ⟨chosen, fits, -⟩
    refine ⟨fits, ?_⟩
    intro brp small exact
    have same := chosen brp small exact
    rw [btr0_hwCanInitConfig, (btr0_fields fits).1] at same
    exact (canDiv_exact_iff apbFreq config positive exact).mp same
  · rintro ⟨fits, slow⟩ -
    rw [btr0_hwCanInitConfig, (btr0_fields fits).1]
    refine ⟨?_, fits, (btr0_fields fits).2⟩
    intro brp small exact
    exact (canDiv_exact_iff apbFreq config positive exact).mpr (slow brp small exact)

theorem hwCanInitConfig_times_default :
    TimesExactly 20000000 default gDeviceCanDefaultConfig ↔
      (20000000 : BitVec 32).toNat < 130 * gDeviceCanDefaultConfig.rate.toNat *
          (1 + segmentFields gDeviceCanDefaultConfig) ∧
        ∀ brp ≤ 63, Exact 20000000 gDeviceCanDefaultConfig brp →
          2 * (brp + 1) < 1 + segmentFields gDeviceCanDefaultConfig :=
  hwCanInitConfig_times_iff 20000000 gDeviceCanDefaultConfig default (by decide)

end Prescaler

/-- Three segment quanta at an eighth of the clock. -/
def shortConfig : DeviceCanConfig :=
  { gDeviceCanDefaultConfig with rate := 1000000, tseg1 := 1, tseg2 := 0 }

/-- A bit of four quanta of two clocks each is programmed with four clocks for a quantum. -/
theorem hwCanInitConfig_not_times : ¬ TimesExactly 8000000 default shortConfig := by
  intro times
  exact absurd ((times rfl).1 0 (by decide) (by unfold Exact; decide)) (by decide)

end SunWise.Can
