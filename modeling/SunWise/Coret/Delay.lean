import Mathlib.Algebra.Ring.Nat

/-!
# Delays

`udelay` and `mdelay` of `delay.c` on the core timer of `core_rv32.h`, built without
`DEBUG_DELAY_CLOCK_CORRECTED`.  The timer has 64 bits, of which the driver reads the low word and
the high word one after the other, and it goes on before every read.  A loop that waits for
it has no limit of its own, so the model is given a number of turns.
-/

namespace SunWise.Coret

/-- The core timer: the ticks that it has made, and those that it makes before each of the
next reads. -/
structure CoretState where
  mtime : Nat
  advance : Nat → Nat

namespace CoretState

variable (timer : CoretState)

/-- The timer at its next read. -/
def step : CoretState where
  mtime := timer.mtime + timer.advance 0
  advance := fun read => timer.advance (read + 1)

/-- `csi_coret_get_value`. -/
def csiCoretGetValue : BitVec 32 × CoretState :=
  (BitVec.ofNat 32 timer.step.mtime, timer.step)

/-- `csi_coret_get_valueh`. -/
def csiCoretGetValueh : BitVec 32 × CoretState :=
  (BitVec.ofNat 32 (timer.step.mtime / 2 ^ 32), timer.step)

end CoretState

/-- A value of the timer, from its two words. -/
def timerValue (high low : BitVec 32) : BitVec 64 :=
  (high.setWidth 64 <<< 32) ||| low.setWidth 64

/-- The loop of `_udelay`. The result is `none` while it is still waiting. -/
def udelayLoop (cnt startl starth : BitVec 32) : Nat → CoretState → Option CoretState
  | 0, _ => none
  | turns + 1, timer =>
      let (curl, timer) := timer.csiCoretGetValue
      let (curh, timer) := timer.csiCoretGetValueh
      let delta := (timerValue curh curl - timerValue starth startl).setWidth 32
      if delta ≥ cnt then some timer else udelayLoop cnt startl starth turns timer

/-- The ticks of a microsecond. -/
def ticksOfMicrosecond (sysFreq : BitVec 32) : BitVec 32 :=
  sysFreq / 1000 / 1000

/-- `_udelay`. -/
def udelayOne (sysFreq : BitVec 32) (turns : Nat) (timer : CoretState) : Option CoretState :=
  let (startl, timer) := timer.csiCoretGetValue
  let (starth, timer) := timer.csiCoretGetValueh
  udelayLoop (ticksOfMicrosecond sysFreq) startl starth turns timer

/-- Calls in a row. -/
def repeated (call : CoretState → Option CoretState) : Nat → CoretState → Option CoretState
  | 0, timer => some timer
  | times + 1, timer => (call timer).bind (repeated call times)

/-- `udelay`. -/
def udelay (sysFreq us : BitVec 32) (turns : Nat) (timer : CoretState) : Option CoretState :=
  if us = 0 then some timer else repeated (udelayOne sysFreq turns) us.toNat timer

/-- `mdelay`. -/
def mdelay (sysFreq ms : BitVec 32) (turns : Nat) (timer : CoretState) : Option CoretState :=
  if ms = 0 then some timer else repeated (udelay sysFreq 1000 turns) ms.toNat timer

/-- The low word of a difference is the difference of the low words, so that the high words
do not matter. -/
theorem setWidth_timerValue_sub (curh curl starth startl : BitVec 32) :
    (timerValue curh curl - timerValue starth startl).setWidth 32 = curl - startl := by
  have low : ∀ high low : BitVec 32, (timerValue high low).toNat % 2 ^ 32 = low.toNat := by
    intro high low
    rw [← BitVec.toNat_setWidth]
    congr 1
    apply BitVec.eq_of_getLsbD_eq
    intro index inside
    have below : index < 64 := by omega
    rw [timerValue]
    simp [inside]
  have current := low curh curl
  have start := low starth startl
  apply BitVec.eq_of_toNat_eq
  rw [BitVec.toNat_setWidth, BitVec.toNat_sub, BitVec.toNat_sub, ← current, ← start]
  omega

/-- The low words of two readings differ by the ticks between them. -/
theorem toNat_ofNat_sub {start current : Nat} (later : start ≤ current) :
    (BitVec.ofNat 32 current - BitVec.ofNat 32 start).toNat = (current - start) % 2 ^ 32 := by
  rw [BitVec.toNat_sub, BitVec.toNat_ofNat, BitVec.toNat_ofNat]
  omega

theorem toNat_ticksOfMicrosecond (sysFreq : BitVec 32) :
    (ticksOfMicrosecond sysFreq).toNat = sysFreq.toNat / 10 ^ 6 := by
  have thousand : (1000 : BitVec 32).toNat = 1000 := rfl
  rw [ticksOfMicrosecond, BitVec.toNat_udiv, BitVec.toNat_udiv, thousand,
    Nat.div_div_eq_div_mul]
  rfl

theorem mtime_le_step (timer : CoretState) : timer.mtime ≤ timer.step.mtime :=
  Nat.le_add_right _ _

/-- The loop is left only when enough ticks have passed since the low word was read. -/
theorem udelayLoop_lower_bound {cnt starth : BitVec 32} {start turns : Nat}
    {timer after : CoretState} (later : start ≤ timer.mtime)
    (returns : udelayLoop cnt (BitVec.ofNat 32 start) starth turns timer = some after) :
    start + cnt.toNat ≤ after.mtime := by
  induction turns generalizing timer with
  | zero => cases returns
  | succ turns ih =>
      have low := Nat.le_trans later (mtime_le_step timer)
      have high := mtime_le_step timer.step
      rw [udelayLoop] at returns
      simp only [CoretState.csiCoretGetValue, CoretState.csiCoretGetValueh,
        setWidth_timerValue_sub] at returns
      split at returns
      next enough =>
        cases returns
        rw [ge_iff_le, BitVec.le_def, toNat_ofNat_sub low] at enough
        have small := Nat.mod_le (timer.step.mtime - start) (2 ^ 32)
        omega
      next => exact ih (Nat.le_trans low high) returns

theorem udelayOne_lower_bound {sysFreq : BitVec 32} {turns : Nat} {timer after : CoretState}
    (returns : udelayOne sysFreq turns timer = some after) :
    timer.mtime + sysFreq.toNat / 10 ^ 6 ≤ after.mtime := by
  have start := mtime_le_step timer
  have waited := udelayLoop_lower_bound (mtime_le_step timer.step) returns
  rw [toNat_ticksOfMicrosecond] at waited
  omega

/-- Calls that each take some time together take that time for each of them. -/
theorem repeated_lower_bound {call : CoretState → Option CoretState} {ticks : Nat}
    (one : ∀ timer after, call timer = some after → timer.mtime + ticks ≤ after.mtime)
    {times : Nat} {timer after : CoretState} (returns : repeated call times timer = some after) :
    timer.mtime + times * ticks ≤ after.mtime := by
  induction times generalizing timer with
  | zero =>
      cases returns
      omega
  | succ times ih =>
      rcases Option.bind_eq_some_iff.mp returns with ⟨middle, first, others⟩
      have before := one timer middle first
      have rest := ih others
      rw [Nat.succ_mul]
      omega

/-- Whatever the timer does between the reads, `udelay` returns only after the ticks of `us`
microseconds. -/
theorem udelay_lower_bound {sysFreq us : BitVec 32} {turns : Nat} {timer after : CoretState}
    (returns : udelay sysFreq us turns timer = some after) :
    timer.mtime + us.toNat * (sysFreq.toNat / 10 ^ 6) ≤ after.mtime := by
  unfold udelay at returns
  split at returns
  next isZero =>
    cases returns
    have none : us.toNat = 0 := congrArg BitVec.toNat isZero
    rw [none, Nat.zero_mul, Nat.add_zero]
  next => exact repeated_lower_bound (fun _ _ => udelayOne_lower_bound) returns

/-- Three microseconds of two ticks, begun while the low word is about to wrap around. -/
theorem udelay_lower_bound_three :
    ∃ after, udelay 2000000 3 3 ⟨0xfffffffe, fun _ => 1⟩ = some after ∧
      0xfffffffe + 3 * 2 ≤ after.mtime :=
  ⟨_, rfl, @udelay_lower_bound 2000000 3 3 ⟨0xfffffffe, fun _ => 1⟩ _ rfl⟩

theorem mdelay_lower_bound {sysFreq ms : BitVec 32} {turns : Nat} {timer after : CoretState}
    (returns : mdelay sysFreq ms turns timer = some after) :
    timer.mtime + ms.toNat * (1000 * (sysFreq.toNat / 10 ^ 6)) ≤ after.mtime := by
  unfold mdelay at returns
  split at returns
  next isZero =>
    cases returns
    have none : ms.toNat = 0 := congrArg BitVec.toNat isZero
    rw [none, Nat.zero_mul, Nat.add_zero]
  next => exact repeated_lower_bound (fun _ _ => udelay_lower_bound) returns

/-! ## Returning -/

/-- The timer goes on at every read, but not so far that a loop that waits for `ticks` could
miss them. -/
def Paced (ticks : Nat) (timer : CoretState) : Prop :=
  ∀ read, 0 < timer.advance read ∧
    timer.advance read + timer.advance (read + 1) + ticks < 2 ^ 32

theorem Paced.step {ticks : Nat} {timer : CoretState} (paced : Paced ticks timer) :
    Paced ticks timer.step :=
  fun read => paced (read + 1)

/-- Each turn brings the loop nearer to its end. -/
theorem udelayLoop_returns {cnt starth : BitVec 32} {start turns : Nat} {timer : CoretState}
    (paced : Paced cnt.toNat timer) (later : start ≤ timer.mtime)
    (near : timer.step.mtime < start + 2 ^ 32)
    (enough : start + cnt.toNat ≤ timer.step.mtime + turns) :
    ∃ after, udelayLoop cnt (BitVec.ofNat 32 start) starth (turns + 1) timer = some after ∧
      Paced cnt.toNat after := by
  have low := Nat.le_trans later (mtime_le_step timer)
  have exact : (timer.step.mtime - start) % 2 ^ 32 = timer.step.mtime - start :=
    Nat.mod_eq_of_lt (by omega)
  induction turns generalizing timer with
  | zero =>
      refine ⟨timer.step.step, ?_, paced.step.step⟩
      rw [udelayLoop]
      simp only [CoretState.csiCoretGetValue, CoretState.csiCoretGetValueh,
        setWidth_timerValue_sub]
      rw [if_pos]
      rw [ge_iff_le, BitVec.le_def, toNat_ofNat_sub low, exact]
      omega
  | succ turns ih =>
      rw [udelayLoop]
      simp only [CoretState.csiCoretGetValue, CoretState.csiCoretGetValueh,
        setWidth_timerValue_sub]
      split
      next => exact ⟨_, rfl, paced.step.step⟩
      next short =>
        rw [ge_iff_le, BitVec.le_def, toNat_ofNat_sub low, exact] at short
        have high := mtime_le_step timer.step
        have next : timer.step.step.step.mtime =
            timer.step.mtime + timer.advance 1 + timer.advance 2 := rfl
        have pace : 0 < timer.advance 1 ∧
            timer.advance 1 + timer.advance 2 + cnt.toNat < 2 ^ 32 := paced 1
        have pace' := (paced 2).1
        apply ih paced.step.step (Nat.le_trans low high)
        · omega
        · omega
        · exact Nat.le_trans (Nat.le_trans low high) (mtime_le_step _)
        · exact Nat.mod_eq_of_lt (by omega)

theorem udelayOne_returns {sysFreq : BitVec 32} {timer : CoretState}
    (paced : Paced (ticksOfMicrosecond sysFreq).toNat timer) :
    ∃ after, udelayOne sysFreq ((ticksOfMicrosecond sysFreq).toNat + 1) timer = some after ∧
      Paced (ticksOfMicrosecond sysFreq).toNat after := by
  have next : timer.step.step.step.mtime =
      timer.step.mtime + timer.advance 1 + timer.advance 2 := rfl
  have pace : 0 < timer.advance 1 ∧ timer.advance 1 + timer.advance 2 +
      (ticksOfMicrosecond sysFreq).toNat < 2 ^ 32 := paced 1
  apply udelayLoop_returns paced.step.step (mtime_le_step timer.step)
  · omega
  · omega

theorem repeated_returns {call : CoretState → Option CoretState} {P : CoretState → Prop}
    (one : ∀ timer, P timer → ∃ after, call timer = some after ∧ P after) (times : Nat)
    {timer : CoretState} (start : P timer) :
    ∃ after, repeated call times timer = some after ∧ P after := by
  induction times generalizing timer with
  | zero => exact ⟨timer, rfl, start⟩
  | succ times ih =>
      rcases one timer start with ⟨middle, first, kept⟩
      rcases ih kept with ⟨after, others, keeps⟩
      exact ⟨after, by rw [repeated, first, Option.bind_some, others], keeps⟩

/-- With a paced timer, `udelay` returns; no loop takes more turns than it waits for ticks, and
one more. -/
theorem udelay_returns {sysFreq us : BitVec 32} {timer : CoretState}
    (paced : Paced (ticksOfMicrosecond sysFreq).toNat timer) :
    ∃ after, udelay sysFreq us ((ticksOfMicrosecond sysFreq).toNat + 1) timer = some after ∧
      Paced (ticksOfMicrosecond sysFreq).toNat after := by
  unfold udelay
  split
  next => exact ⟨timer, rfl, paced⟩
  next => exact repeated_returns (fun _ => udelayOne_returns) us.toNat paced

end SunWise.Coret
