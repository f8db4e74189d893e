import Mathlib.Tactic.IntervalCases
import SunWise.Library.Runs
import SunWise.Pwm.Driver

/-!
# Pending capture flags

Two channels share a `PCCR` register, and the driver updates it by reading it and writing
it back.  The flags that are pending at that moment are written as ones, so every such
update clears the flags of both channels.
-/

namespace SunWise.Pwm

open Library

/-- What happens to the device: a call of the driver, or a captured edge. -/
inductive PwmEvent where
  | initConfig (chn : Nat) (config? : Option DevicePwmConfig)
  | captureStart (chn : Nat)
  | captureStop (chn : Nat)
  | clearInterrupt (chn : Nat)
  | captured (chn : Nat)
  deriving DecidableEq, Repr

/-- Position of `CAPIF` of a channel in its `PCCR` register. -/
def capifPos (chn : Nat) : Nat := chn % 2 * 16 + pwmPccrCapif0Pos

/-- The capture flag of a channel is set. -/
def Pending (pwm : PwmTypeDef) (chn : Nat) : Prop :=
  (pwm.pccr (chn / 2)).getLsbD (capifPos chn) = true

instance (pwm : PwmTypeDef) (chn : Nat) : Decidable (Pending pwm chn) :=
  inferInstanceAs (Decidable ((pwm.pccr (chn / 2)).getLsbD (capifPos chn) = true))

/-- The device sets the flag of a channel. -/
def raise (pwm : PwmTypeDef) (chn : Nat) : PwmTypeDef :=
  { pwm with
    pccr := Function.update pwm.pccr (chn / 2)
      (setBit (pwm.pccr (chn / 2)) (capifPos chn) true) }

/-- One event. -/
def pwmStep (apbFreq : BitVec 32) (pwm : PwmTypeDef) : PwmEvent → PwmTypeDef
  | .initConfig chn config? => (hwPwmInitConfig apbFreq pwm chn config?).2.1
  | .captureStart chn => hwPwmCaptureStart pwm chn
  | .captureStop chn => hwPwmCaptureStop pwm chn
  | .clearInterrupt chn => hwPwmClearInterrupt pwm chn
  | .captured chn => raise pwm chn

/-- The event is meant to clear the flag of the channel. -/
def Clears (chn : Nat) : PwmEvent → Prop
  | .initConfig other _ => other = chn
  | .clearInterrupt other => other = chn
  | _ => False

/-- The event leaves every pending flag pending, unless it is meant to clear it. -/
def KeepsFlags (apbFreq : BitVec 32) (pwm : PwmTypeDef) (event : PwmEvent) : Prop :=
  ∀ chn < pwmChannelMax, Pending pwm chn → ¬Clears chn event →
    Pending (pwmStep apbFreq pwm event) chn

/-- The channel whose `PCCR` register the event reads and writes back. -/
def PwmEvent.updates? : PwmEvent → Option Nat
  | .initConfig chn (some _) => some chn
  | .initConfig _ none | .captured _ => none
  | .captureStart chn | .captureStop chn | .clearInterrupt chn => some chn

/-- No flag that is not meant to be cleared is pending in the register that the event
updates. -/
def Spares (pwm : PwmTypeDef) (event : PwmEvent) : Prop :=
  ∀ chn < pwmChannelMax, Pending pwm chn → ¬Clears chn event →
    ∀ updated < pwmChannelMax, event.updates? = some updated → updated / 2 ≠ chn / 2

section Effects

variable (pwm : PwmTypeDef) {chn other : Nat}

theorem capifMask_flag (chn : Nat) : capifMask.getLsbD (capifPos chn) = true := by
  rcases Nat.mod_two_eq_zero_or_one chn with even | odd
  · simp [capifPos, even, capifMask]
  · simp [capifPos, odd, capifMask]

/-- Writing a register back clears the flags of its channels. -/
theorem not_pending_writePccr {index : Nat} {value : BitVec 32} (shared : index = chn / 2)
    (kept : Pending pwm chn → value.getLsbD (capifPos chn) = true) :
    ¬Pending (pwm.writePccr index value) chn := by
  subst index
  have cleared := writeOneToClear_back (pwm.pccr (chn / 2)) value (capifMask_flag chn) kept
  simp [Pending, PwmTypeDef.writePccr, cleared]

/-- A write to another register leaves the flag alone. -/
theorem pending_writePccr_other {index : Nat} (value : BitVec 32)
    (apart : index ≠ chn / 2) :
    Pending (pwm.writePccr index value) chn ↔ Pending pwm chn := by
  simp [Pending, PwmTypeDef.writePccr, Function.update_of_ne apart.symm]

/-- The `switch` selects a bit of the channel's own register. -/
theorem pwmPccrBit_eq (even odd : Nat) (inRange : chn < pwmChannelMax) :
    pwmPccrBit even odd chn = some (chn / 2, if chn % 2 = 0 then even else odd) := by
  simp only [pwmChannelMax] at inRange
  interval_cases chn <;> rfl

theorem pwmPccrBit_none (even odd : Nat) (outside : ¬chn < pwmChannelMax) :
    pwmPccrBit even odd chn = none := by
  simp only [pwmChannelMax] at outside
  unfold pwmPccrBit
  split <;> first | rfl | omega

theorem setChen_pccr (value : Bool) : (setChen pwm chn value).pccr = pwm.pccr := by
  unfold setChen
  split <;> rfl

theorem initOutput_pccr (out : PwmOut) : (initOutput pwm chn out).pccr = pwm.pccr := by
  unfold initOutput
  split <;> rfl

theorem pending_congr {left right : PwmTypeDef} (same : left.pccr = right.pccr) :
    Pending left chn ↔ Pending right chn := by
  rw [Pending, Pending, same]

end Effects

/-- What an update of a register does to the flag of a channel. -/
structure Updates (before after : PwmTypeDef) (updated chn : Nat) : Prop where
  shared : updated / 2 = chn / 2 → ¬Pending after chn
  apart : updated / 2 ≠ chn / 2 → (Pending after chn ↔ Pending before chn)

namespace Updates

variable {before middle after : PwmTypeDef} {updated chn : Nat}

/-- Updates of one register compose. -/
theorem trans (first : Updates before middle updated chn)
    (second : Updates middle after updated chn) : Updates before after updated chn where
  shared := second.shared
  apart differ := (second.apart differ).trans (first.apart differ)

/-- What goes before an update without touching `PCCR` leaves it an update. -/
theorem congr_left (update : Updates middle after updated chn)
    (same : middle.pccr = before.pccr) : Updates before after updated chn where
  shared := update.shared
  apart differ := (update.apart differ).trans (pending_congr same)

/-- What follows an update without touching `PCCR` leaves it an update. -/
theorem congr (update : Updates before middle updated chn)
    (same : after.pccr = middle.pccr) : Updates before after updated chn where
  shared together := fun isPending =>
    update.shared together ((pending_congr same).mp isPending)
  apart differ := (pending_congr same).trans (update.apart differ)

theorem ofWritePccr (value : BitVec 32)
    (kept : updated / 2 = chn / 2 → Pending before chn →
      value.getLsbD (capifPos chn) = true) :
    Updates before (before.writePccr (updated / 2) value) updated chn where
  shared together := not_pending_writePccr before together (kept together)
  apart differ := pending_writePccr_other before value differ

/-- Setting or clearing the bit that a `switch` selects is an update, as long as it does
not clear a flag in the value that is written. -/
theorem ofSetSelected (even odd : Nat) (value : Bool) (inRange : updated < pwmChannelMax)
    (harmless : value = true ∨ even ≠ capifPos chn ∧ odd ≠ capifPos chn) :
    Updates before (setSelected before (pwmPccrBit even odd updated) value) updated chn := by
  rw [pwmPccrBit_eq even odd inRange]
  apply ofWritePccr
  intro together isPending
  rw [Pending, ← together] at isPending
  apply getLsbD_setBit_kept isPending
  rcases harmless with isSet | ⟨evenApart, oddApart⟩
  · exact Or.inl isSet
  · right
    dsimp only
    split
    · exact evenApart.symm
    · exact oddApart.symm

theorem captureStop (inRange : updated < pwmChannelMax) :
    Updates before (hwPwmCaptureStop before updated) updated chn := by
  apply congr _ (setChen_pccr _ false)
  apply ofSetSelected _ _ _ inRange
  right
  simp [capifPos]
  omega

theorem captureStart (inRange : updated < pwmChannelMax) :
    Updates before (hwPwmCaptureStart before updated) updated chn := by
  apply congr _ (setChen_pccr _ true)
  exact ofSetSelected _ _ _ inRange (Or.inl rfl)

theorem clearInterrupt (inRange : updated < pwmChannelMax) :
    Updates before (hwPwmClearInterrupt before updated) updated chn :=
  ofSetSelected _ _ _ inRange (Or.inl rfl)

/-- Programming the edges keeps the flags in the value that is written. -/
theorem capturePccr_kept (register : BitVec 32) (channel : Nat) (polarity : PwmPolarity)
    (isSet : register.getLsbD (capifPos chn) = true) :
    (capturePccr register channel polarity).getLsbD (capifPos chn) = true := by
  have apart : ∀ offset < 4, capifPos chn ≠ channel % 2 * 16 + offset := by
    intro offset below
    simp only [capifPos, pwmPccrCapif0Pos]
    omega
  unfold capturePccr
  apply getLsbD_setBit_kept _ (Or.inl rfl)
  apply getLsbD_setBit_kept _ (Or.inl rfl)
  apply getLsbD_setBit_kept _ (Or.inl rfl)
  apply getLsbD_setBit_kept _ (Or.inr (apart 2 (by decide)))
  apply getLsbD_setBit_kept _ (Or.inr (apart 1 (by decide)))
  exact getLsbD_setBit_kept isSet (Or.inr (apart 0 (by decide)))

theorem initCapture (polarity : PwmPolarity) :
    Updates before (Pwm.initCapture before updated polarity) updated chn := by
  have programs : Updates (initInput before updated)
      (Pwm.initCapture before updated polarity) updated chn := by
    apply ofWritePccr
    intro together isPending
    rw [Pending, ← together] at isPending
    exact capturePccr_kept _ updated polarity isPending
  exact programs.congr_left rfl

theorem initConfig (apbFreq : BitVec 32) (config : DevicePwmConfig)
    (inRange : updated < pwmChannelMax) :
    Updates before (hwPwmInitConfig apbFreq before updated (some config)).2.1 updated
      chn := by
  let stopped := hwPwmCaptureStop (hwPwmStop before updated) updated
  let clocked := initClock apbFreq stopped updated config.clockFreq
  have stops : Updates before clocked updated chn :=
    ((captureStop inRange).congr_left (setChen_pccr before false)).congr rfl
  have notOutside : ¬updated ≥ pwmChannelMax := Nat.not_le.mpr inRange
  unfold hwPwmInitConfig
  simp only [notOutside, if_false]
  cases config.mode with
  | compare out => exact stops.congr (initOutput_pccr _ out)
  | capture polarity => exact (stops.trans (initCapture polarity)).congr rfl

end Updates

section Runs

variable (apbFreq : BitVec 32) {pwm : PwmTypeDef}

theorem pending_raise (other : Nat) {chn : Nat} (isPending : Pending pwm chn) :
    Pending (raise pwm other) chn := by
  by_cases same : chn / 2 = other / 2
  · simp only [Pending, raise, same, Function.update_self]
    rw [Pending, same] at isPending
    exact getLsbD_setBit_kept isPending (Or.inl rfl)
  · simpa only [Pending, raise, Function.update_of_ne same] using isPending

/-- A call on a channel that does not exist leaves every register alone. -/
theorem setSelected_outside {value : Bool} (even odd : Nat) {chn : Nat}
    (outside : ¬chn < pwmChannelMax) :
    setSelected pwm (pwmPccrBit even odd chn) value = pwm := by
  rw [pwmPccrBit_none even odd outside]
  rfl

theorem pending_of_no_update {event : PwmEvent}
    (none : ∀ updated < pwmChannelMax, event.updates? ≠ some updated) {chn : Nat}
    (isPending : Pending pwm chn) : Pending (pwmStep apbFreq pwm event) chn := by
  have outside : ∀ other, event.updates? = some other → ¬other < pwmChannelMax := by
    intro other isUpdated inRange
    exact none other inRange isUpdated
  cases event with
  | initConfig other config? =>
      cases config? with
      | none => exact isPending
      | some config =>
          have refused : other ≥ pwmChannelMax := Nat.not_lt.mp (outside other rfl)
          simpa only [pwmStep, hwPwmInitConfig, refused, if_true] using isPending
  | captureStart other =>
      refine (pending_congr (setChen_pccr _ true)).mpr ?_
      rwa [setSelected_outside _ _ (outside other rfl)]
  | captureStop other =>
      refine (pending_congr (setChen_pccr _ false)).mpr ?_
      rwa [setSelected_outside _ _ (outside other rfl)]
  | clearInterrupt other =>
      simpa only [pwmStep, hwPwmClearInterrupt, setSelected_outside _ _ (outside other rfl)]
        using isPending
  | captured other => exact pending_raise other isPending

/-- An event that updates a register is one of the updates above. -/
theorem updates_pwmStep {event : PwmEvent} {updated : Nat}
    (isUpdated : event.updates? = some updated) (inRange : updated < pwmChannelMax)
    (chn : Nat) : Updates pwm (pwmStep apbFreq pwm event) updated chn := by
  cases event with
  | initConfig other config? =>
      cases config? with
      | none => cases isUpdated
      | some config =>
          cases isUpdated
          exact Updates.initConfig apbFreq config inRange
  | captureStart other =>
      cases isUpdated
      exact Updates.captureStart inRange
  | captureStop other =>
      cases isUpdated
      exact Updates.captureStop inRange
  | clearInterrupt other =>
      cases isUpdated
      exact Updates.clearInterrupt inRange
  | captured other => cases isUpdated

/-- An event keeps the flags exactly when it updates no register with a pending one. -/
theorem keepsFlags_iff_spares (event : PwmEvent) :
    KeepsFlags apbFreq pwm event ↔ Spares pwm event := by
  constructor
  · intro keeps chn inRange isPending notMeant updated updatedInRange isUpdated together
    have stillPending := keeps chn inRange isPending notMeant
    exact (updates_pwmStep apbFreq isUpdated updatedInRange chn).shared together
      stillPending
  · intro spares chn inRange isPending notMeant
    by_cases updates : ∃ updated < pwmChannelMax, event.updates? = some updated
    · rcases updates with ⟨updated, updatedInRange, isUpdated⟩
      have apart := spares chn inRange isPending notMeant updated updatedInRange isUpdated
      exact ((updates_pwmStep apbFreq isUpdated updatedInRange chn).apart
        apart).mpr isPending
    · apply pending_of_no_update apbFreq _ isPending
      intro updated updatedInRange isUpdated
      exact updates ⟨updated, updatedInRange, isUpdated⟩

/-- Along a run no pending flag is lost exactly when no event updates the register of a
pending flag that it is not meant to clear. -/
theorem flags_kept_iff (pwm : PwmTypeDef) (events : List PwmEvent) :
    Accepts (pwmStep apbFreq) (KeepsFlags apbFreq) pwm events ↔
      Accepts (pwmStep apbFreq) Spares pwm events :=
  accepts_congr (fun _ event => keepsFlags_iff_spares apbFreq event) pwm events

/-- Starting channel 1 loses the pending flag of channel 0. -/
theorem flags_not_kept :
    ¬Accepts (pwmStep 50000000) (KeepsFlags 50000000) resetDevice
      [.captured 0, .captureStart 1] := by
  rintro ⟨-, keeps, -⟩
  exact absurd (keeps 0 (by decide) (by decide) id) (by decide)

end Runs

end SunWise.Pwm
