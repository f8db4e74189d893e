import Mathlib.Data.List.Induction
import Mathlib.Data.Nat.ModEq
import SunWise.Epwm.Driver
import SunWise.Library.Runs

/-!
# Widths of captured pulses

`HW_EPWM_GetCaptureValue` returns how far the capture register of a channel has moved since
its last call.  The modules count on in 16 bits, and a capture copies the counter; how many
ticks there really were is recorded beside the registers.
-/

namespace SunWise.Epwm

open Library

/-- `HW_EPWM_GetCaptureValue`: the width, and the captured values it leaves. -/
def hwEpwmGetCaptureValue (address : EpwmAddress) (epwm : EpwmTypeDef)
    (last : LastCaptureValue) (chn : Nat) : BitVec 32 × LastCaptureValue :=
  if chn ≥ epwmChannelMax then (0, last)
  else
    let cur := epwm.ccr chn
    let index := getIndex address
    let width :=
      if cur ≤ last index chn then 0xffff + cur - last index chn else cur - last index chn
    (width, Function.update last index (Function.update (last index) chn cur))

/-- A channel of one of the modules. -/
structure EpwmChannel where
  address : EpwmAddress
  chn : Nat
  isModule : address ≠ .other
  inside : chn < epwmChannelMax
  deriving DecidableEq

/-- The modules, and the ticks of their counters: all of them, those at the last capture of a
channel, and those at the capture that the last call on the channel returned. -/
structure CaptureState where
  epwm : EpwmAddress → EpwmTypeDef
  last : LastCaptureValue
  ticks : EpwmAddress → Nat
  captured : EpwmChannel → Nat
  returned : EpwmChannel → Nat

inductive CaptureEvent where
  /-- The counter of a module goes on. -/
  | count (address : EpwmAddress) (ticks : Nat)
  /-- `CCR` gets the counter. -/
  | capture (channel : EpwmChannel)
  /-- `HW_EPWM_GetCaptureValue`. -/
  | call (channel : EpwmChannel)
  deriving DecidableEq

/-- The event calls the function on another channel. -/
def CaptureEvent.IsCallOfOther (channel : EpwmChannel) : CaptureEvent → Bool
  | .call other => other ≠ channel
  | _ => false

/-- A call, the width it returns and the ticks since the last call. -/
structure CaptureCall where
  channel : EpwmChannel
  width : BitVec 32
  elapsed : Nat
  deriving DecidableEq

namespace CaptureState

variable (state : CaptureState)

/-- `CCR` of a channel. -/
def ccr (channel : EpwmChannel) : BitVec 32 :=
  (state.epwm channel.address).ccr channel.chn

/-- `s_last_capture_value` of a channel. -/
def lastValue (channel : EpwmChannel) : BitVec 32 :=
  state.last (getIndex channel.address) channel.chn

/-- What a call returns, and leaves. -/
def getCaptureValue (channel : EpwmChannel) : BitVec 32 × LastCaptureValue :=
  hwEpwmGetCaptureValue channel.address (state.epwm channel.address) state.last channel.chn

def next : CaptureEvent → CaptureState
  | .count address ticks =>
      let epwm := state.epwm address
      let cnt := BitVec.ofNat 32 ((epwm.cnt.toNat + ticks) % 2 ^ 16)
      { state with
        epwm := Function.update state.epwm address { epwm with cnt }
        ticks := Function.update state.ticks address (state.ticks address + ticks) }
  | .capture channel =>
      let epwm := state.epwm channel.address
      let ccr := Function.update epwm.ccr channel.chn epwm.cnt
      { state with
        epwm := Function.update state.epwm channel.address { epwm with ccr }
        captured := Function.update state.captured channel (state.ticks channel.address) }
  | .call channel =>
      { state with
        last := (state.getCaptureValue channel).2
        returned := Function.update state.returned channel (state.captured channel) }

/-- The calls of a run. -/
def calls : CaptureState → List CaptureEvent → List CaptureCall
  | _, [] => []
  | state, .call channel :: events =>
      ⟨channel, (state.getCaptureValue channel).1,
        state.captured channel - state.returned channel⟩ ::
        calls (state.next (.call channel)) events
  | state, event :: events => calls (state.next event) events

/-- The registers hold the low bits of the ticks. -/
structure Tracks : Prop where
  cnt : ∀ channel : EpwmChannel,
    (state.epwm channel.address).cnt.toNat = state.ticks channel.address % 2 ^ 16
  ccr : ∀ channel, (state.ccr channel).toNat = state.captured channel % 2 ^ 16
  last : ∀ channel, (state.lastValue channel).toNat = state.returned channel % 2 ^ 16
  returned : ∀ channel, state.returned channel ≤ state.captured channel
  captured : ∀ channel, state.captured channel ≤ state.ticks channel.address

/-- A call finds the register above the value that it had at the last call. -/
def Above : CaptureEvent → Prop
  | .call channel => state.lastValue channel < state.ccr channel
  | _ => True

instance (event : CaptureEvent) : Decidable (state.Above event) :=
  match event with
  | .count _ _ => inferInstanceAs (Decidable True)
  | .capture _ => inferInstanceAs (Decidable True)
  | .call channel => inferInstanceAs (Decidable (state.lastValue channel < state.ccr channel))

end CaptureState

section Step

variable {state : CaptureState}

theorem getIndex_inj {left right : EpwmAddress} (isModule : left ≠ .other)
    (isModule' : right ≠ .other) (index : getIndex left = getIndex right) : left = right := by
  cases left <;> cases right <;> first | rfl | contradiction

/-- The channels of the modules have places of their own. -/
theorem channel_eq {channel other : EpwmChannel}
    (index : getIndex channel.address = getIndex other.address)
    (chn : channel.chn = other.chn) : channel = other := by
  rcases channel with ⟨address, chn', isModule, inside⟩
  rcases other with ⟨address', chn'', isModule', inside'⟩
  obtain rfl : chn' = chn'' := chn
  obtain rfl : address = address' := getIndex_inj isModule isModule' index
  rfl

theorem getCaptureValue_eq (channel : EpwmChannel) :
    state.getCaptureValue channel =
      (if state.ccr channel ≤ state.lastValue channel then
          0xffff + state.ccr channel - state.lastValue channel
        else state.ccr channel - state.lastValue channel,
        Function.update state.last (getIndex channel.address)
          (Function.update (state.last (getIndex channel.address)) channel.chn
            (state.ccr channel))) :=
  if_neg (Nat.not_le.mpr channel.inside)

theorem lastValue_call (channel other : EpwmChannel) :
    (state.next (.call channel)).lastValue other =
      if other = channel then state.ccr channel else state.lastValue other := by
  simp only [CaptureState.next, CaptureState.lastValue, getCaptureValue_eq]
  by_cases index : getIndex other.address = getIndex channel.address
  · rw [index, Function.update_self]
    by_cases chn : other.chn = channel.chn
    · rw [if_pos (channel_eq index chn), chn, Function.update_self]
    · have differs : other ≠ channel := fun same => chn (same ▸ rfl)
      rw [if_neg differs, Function.update_of_ne chn]
  · have differs : other ≠ channel := fun same => index (same ▸ rfl)
    rw [if_neg differs, Function.update_of_ne index]

/-- The width is right exactly if the register has moved up. -/
theorem width_modEq_iff (tracks : state.Tracks) (channel : EpwmChannel) :
    (state.getCaptureValue channel).1.toNat ≡
        state.captured channel - state.returned channel [MOD 2 ^ 16] ↔
      state.lastValue channel < state.ccr channel := by
  have ccr := tracks.ccr channel
  have last := tracks.last channel
  have order := tracks.returned channel
  rw [getCaptureValue_eq, BitVec.lt_def, Nat.ModEq]
  dsimp only
  split
  next moved =>
    -- one tick of the wrap-around is missing
    rw [BitVec.le_def] at moved
    have wrap : (0xffff : BitVec 32).toNat = 0xffff := rfl
    rw [BitVec.toNat_sub, BitVec.toNat_add, wrap, ccr, last]
    rw [ccr, last] at moved
    omega
  next moved =>
    rw [BitVec.le_def] at moved
    rw [BitVec.toNat_sub, ccr, last]
    rw [ccr, last] at moved
    omega

@[simp] theorem ccr_count (address : EpwmAddress) (ticks : Nat) (channel : EpwmChannel) :
    (state.next (.count address ticks)).ccr channel = state.ccr channel := by
  simp only [CaptureState.next, CaptureState.ccr]
  by_cases same : channel.address = address
  · rw [same, Function.update_self]
  · rw [Function.update_of_ne same]

theorem ccr_capture (channel other : EpwmChannel) :
    (state.next (.capture channel)).ccr other =
      if other = channel then (state.epwm channel.address).cnt else state.ccr other := by
  simp only [CaptureState.next, CaptureState.ccr]
  by_cases address : other.address = channel.address
  · rw [address, Function.update_self]
    dsimp only
    by_cases chn : other.chn = channel.chn
    · rw [if_pos (channel_eq (address ▸ rfl) chn), chn, Function.update_self]
    · have differs : other ≠ channel := fun same => chn (same ▸ rfl)
      rw [if_neg differs, Function.update_of_ne chn]
  · have differs : other ≠ channel := fun same => address (same ▸ rfl)
    rw [if_neg differs, Function.update_of_ne address]

@[simp] theorem ccr_call (channel other : EpwmChannel) :
    (state.next (.call channel)).ccr other = state.ccr other := rfl

@[simp] theorem lastValue_count (address : EpwmAddress) (ticks : Nat)
    (channel : EpwmChannel) :
    (state.next (.count address ticks)).lastValue channel = state.lastValue channel := rfl

@[simp] theorem lastValue_capture (channel other : EpwmChannel) :
    (state.next (.capture channel)).lastValue other = state.lastValue other := rfl

theorem tracks_count (tracks : state.Tracks) (address : EpwmAddress) (ticks : Nat) :
    (state.next (.count address ticks)).Tracks where
  cnt channel := by
    simp only [CaptureState.next]
    by_cases same : channel.address = address
    · subst address
      rw [Function.update_self, Function.update_self, BitVec.toNat_ofNat, tracks.cnt,
        Nat.mod_add_mod]
      exact Nat.mod_eq_of_lt (Nat.lt_trans (Nat.mod_lt _ (by decide)) (by decide))
    · rw [Function.update_of_ne same, Function.update_of_ne same, tracks.cnt]
  ccr channel := by rw [ccr_count, tracks.ccr, CaptureState.next]
  last channel := by rw [lastValue_count, tracks.last, CaptureState.next]
  returned := tracks.returned
  captured channel := by
    have before := tracks.captured channel
    simp only [CaptureState.next]
    by_cases same : channel.address = address
    · rw [same] at before ⊢
      rw [Function.update_self]
      omega
    · rwa [Function.update_of_ne same]

theorem tracks_capture (tracks : state.Tracks) (channel : EpwmChannel) :
    (state.next (.capture channel)).Tracks where
  cnt other := by
    simp only [CaptureState.next]
    by_cases same : other.address = channel.address
    · rw [same, Function.update_self]
      exact tracks.cnt channel
    · rw [Function.update_of_ne same, tracks.cnt]
  ccr other := by
    rw [ccr_capture]
    simp only [CaptureState.next, Function.update_apply]
    split
    next => exact tracks.cnt channel
    next => exact tracks.ccr other
  last other := by rw [lastValue_capture, tracks.last, CaptureState.next]
  returned other := by
    simp only [CaptureState.next, Function.update_apply]
    split
    next same =>
      subst other
      exact (tracks.returned channel).trans (tracks.captured channel)
    next => exact tracks.returned other
  captured other := by
    simp only [CaptureState.next, Function.update_apply]
    split
    next same => rw [same]
    next => exact tracks.captured other

theorem tracks_call (tracks : state.Tracks) (channel : EpwmChannel) :
    (state.next (.call channel)).Tracks where
  cnt := tracks.cnt
  ccr := tracks.ccr
  last other := by
    rw [lastValue_call]
    simp only [CaptureState.next, Function.update_apply]
    split
    next => exact tracks.ccr channel
    next => exact tracks.last other
  returned other := by
    simp only [CaptureState.next, Function.update_apply]
    split
    next same => rw [same]
    next => exact tracks.returned other
  captured := tracks.captured

theorem tracks_next (tracks : state.Tracks) (event : CaptureEvent) :
    (state.next event).Tracks := by
  cases event with
  | count address ticks => exact tracks_count tracks address ticks
  | capture channel => exact tracks_capture tracks channel
  | call channel => exact tracks_call tracks channel

end Step

/-! ## Runs -/

/-- What the calls of a run return. -/
structure CaptureWidths (start : CaptureState) (events : List CaptureEvent) : Prop where
  /-- Each width is the ticks since the last call on the channel. -/
  each : ∀ call ∈ start.calls events, call.width.toNat ≡ call.elapsed [MOD 2 ^ 16]
  /-- The widths of a channel add up to all its ticks. -/
  total : ∀ channel,
    (((start.calls events).filter (·.channel = channel)).map (·.width.toNat)).sum ≡
      (events.foldl CaptureState.next start).returned channel - start.returned channel
        [MOD 2 ^ 16]
  /-- Calls on other channels make no difference. -/
  alone : ∀ channel,
    (start.calls events).filter (·.channel = channel) =
      start.calls (events.filter fun event => ¬ event.IsCallOfOther channel)

section Run

variable {start : CaptureState}

/-- All widths are right exactly if every call finds its register moved up. -/
theorem widths_modEq_iff (tracks : start.Tracks) (events : List CaptureEvent) :
    (∀ call ∈ start.calls events, call.width.toNat ≡ call.elapsed [MOD 2 ^ 16]) ↔
      Accepts CaptureState.next CaptureState.Above start events := by
  induction events generalizing start with
  | nil => simp [CaptureState.calls]
  | cons event events ih =>
      rw [accepts_cons, ← ih (tracks_next tracks event)]
      cases event with
      | count address ticks => exact (iff_of_eq (true_and _)).symm
      | capture channel => exact (iff_of_eq (true_and _)).symm
      | call channel =>
          rw [CaptureState.calls, List.forall_mem_cons]
          exact and_congr_left fun _ => width_modEq_iff tracks channel

theorem returned_next_le (tracks : start.Tracks) (event : CaptureEvent)
    (channel : EpwmChannel) : start.returned channel ≤ (start.next event).returned channel := by
  cases event with
  | count address ticks => exact Nat.le_refl _
  | capture other => exact Nat.le_refl _
  | call other =>
      simp only [CaptureState.next, Function.update_apply]
      split
      next same => rw [same]; exact tracks.returned other
      next => exact Nat.le_refl _

theorem returned_le (tracks : start.Tracks) (events : List CaptureEvent)
    (channel : EpwmChannel) :
    start.returned channel ≤ (events.foldl CaptureState.next start).returned channel := by
  induction events generalizing start with
  | nil => exact Nat.le_refl _
  | cons event events ih =>
      exact (returned_next_le tracks event channel).trans (ih (tracks_next tracks event))

/-- The ticks between the calls on a channel add up. -/
theorem elapsed_sum (tracks : start.Tracks) (events : List CaptureEvent)
    (channel : EpwmChannel) :
    (((start.calls events).filter (·.channel = channel)).map (·.elapsed)).sum =
      (events.foldl CaptureState.next start).returned channel - start.returned channel := by
  induction events generalizing start with
  | nil => simp [CaptureState.calls]
  | cons event events ih =>
      have later := ih (tracks_next tracks event)
      rw [List.foldl_cons]
      cases event with
      | count address ticks => exact later
      | capture other => exact later
      | call other =>
          have step := tracks.returned other
          have rest := returned_le (tracks_call tracks other) events channel
          rw [CaptureState.calls, List.filter_cons]
          dsimp only
          by_cases same : other = channel
          · subst other
            have now : (start.next (.call channel)).returned channel = start.captured channel :=
              Function.update_self ..
            rw [if_pos (decide_eq_true rfl), List.map_cons, List.sum_cons, later]
            rw [now] at rest ⊢
            dsimp only
            omega
          · have now : (start.next (.call other)).returned channel = start.returned channel :=
              Function.update_of_ne (Ne.symm same) ..
            rw [if_neg (by simpa using same), later, now]

theorem sum_modEq {calls : List CaptureCall}
    (each : ∀ call ∈ calls, call.width.toNat ≡ call.elapsed [MOD 2 ^ 16]) :
    (calls.map (·.width.toNat)).sum ≡ (calls.map (·.elapsed)).sum [MOD 2 ^ 16] := by
  induction calls with
  | nil => rfl
  | cons call calls ih =>
      rw [List.forall_mem_cons] at each
      rw [List.map_cons, List.map_cons, List.sum_cons, List.sum_cons]
      exact Nat.ModEq.add each.1 (ih each.2)

/-- Two states that agree on a channel, and on all that calls leave alone. -/
structure AgreeOn (channel : EpwmChannel) (left right : CaptureState) : Prop where
  epwm : left.epwm = right.epwm
  ticks : left.ticks = right.ticks
  captured : left.captured = right.captured
  last : left.lastValue channel = right.lastValue channel
  returned : left.returned channel = right.returned channel

namespace AgreeOn

variable {channel : EpwmChannel} {left right : CaptureState}

theorem ccr (agree : AgreeOn channel left right) (other : EpwmChannel) :
    left.ccr other = right.ccr other := by
  rw [CaptureState.ccr, agree.epwm, CaptureState.ccr]

theorem width (agree : AgreeOn channel left right) :
    (left.getCaptureValue channel).1 = (right.getCaptureValue channel).1 := by
  rw [getCaptureValue_eq, getCaptureValue_eq, agree.last, agree.ccr]

theorem next (agree : AgreeOn channel left right) (event : CaptureEvent) :
    AgreeOn channel (left.next event) (right.next event) where
  epwm := by cases event <;> simp only [CaptureState.next, agree.epwm, agree.ticks]
  ticks := by cases event <;> simp only [CaptureState.next, agree.ticks]
  captured := by cases event <;> simp only [CaptureState.next, agree.captured, agree.ticks]
  last := by
    cases event with
    | count address ticks => exact agree.last
    | capture other => exact agree.last
    | call other => rw [lastValue_call, lastValue_call, agree.ccr, agree.last]
  returned := by
    cases event with
    | count address ticks => exact agree.returned
    | capture other => exact agree.returned
    | call other =>
        simp only [CaptureState.next, Function.update_apply, agree.captured, agree.returned]

/-- A call on another channel changes nothing that they agree on. -/
theorem skip (agree : AgreeOn channel left right) {other : EpwmChannel}
    (differs : other ≠ channel) : AgreeOn channel (left.next (.call other)) right where
  epwm := agree.epwm
  ticks := agree.ticks
  captured := agree.captured
  last := by rw [lastValue_call, if_neg differs.symm, agree.last]
  returned := (Function.update_of_ne differs.symm ..).trans agree.returned

end AgreeOn

/-- A run on which other channels are called goes, for the channel, like one without. -/
theorem calls_filter {channel : EpwmChannel} {left right : CaptureState}
    (agree : AgreeOn channel left right) (events : List CaptureEvent) :
    (left.calls events).filter (·.channel = channel) =
      right.calls (events.filter fun event => ¬ event.IsCallOfOther channel) := by
  induction events generalizing left right with
  | nil => rfl
  | cons event events ih =>
      cases event with
      | count address ticks => exact ih (agree.next _)
      | capture other => exact ih (agree.next _)
      | call other =>
          rw [CaptureState.calls, List.filter_cons, List.filter_cons]
          by_cases same : other = channel
          · subst other
            rw [if_pos (by simp), if_pos (by simp [CaptureEvent.IsCallOfOther]),
              CaptureState.calls, ih (agree.next _), agree.width, agree.captured, agree.returned]
          · rw [if_neg (by simpa using same),
              if_neg (by simpa [CaptureEvent.IsCallOfOther] using same)]
            exact ih (agree.skip same)

/-- The calls of a run return what the counters say if and only if every call finds its
capture register above the value at the last call: a counter that has wrapped around counts
one tick too few. -/
theorem hwEpwmGetCaptureValue_widths_iff (tracks : start.Tracks)
    (events : List CaptureEvent) :
    CaptureWidths start events ↔ Accepts CaptureState.next CaptureState.Above start events := by
  rw [← widths_modEq_iff tracks]
  constructor
  · exact CaptureWidths.each
  · intro each
    refine ⟨each, fun channel => ?_, fun channel => ?_⟩
    · rw [← elapsed_sum tracks events channel]
      exact sum_modEq fun call isCall => each call (List.mem_of_mem_filter isCall)
    · exact calls_filter ⟨rfl, rfl, rfl, rfl, rfl⟩ events

end Run

/-- Every register is zero. -/
def CaptureState.atReset : CaptureState where
  epwm := fun _ => default
  last := fun _ _ => 0
  ticks := fun _ => 0
  captured := fun _ => 0
  returned := fun _ => 0

theorem atReset_tracks : CaptureState.atReset.Tracks where
  cnt _ := rfl
  ccr _ := rfl
  last _ := rfl
  returned _ := Nat.le_refl _
  captured _ := Nat.le_refl _

/-- The first channel of `EPWM0`. -/
def epwm0Channel0 : EpwmChannel where
  address := .epwm0
  chn := 0
  isModule := by decide
  inside := by decide

theorem hwEpwmGetCaptureValue_widths_two :
    CaptureWidths .atReset
      [.count .epwm0 5, .capture epwm0Channel0, .call epwm0Channel0, .count .epwm0 7,
        .capture epwm0Channel0, .call epwm0Channel0] :=
  (hwEpwmGetCaptureValue_widths_iff atReset_tracks _).mpr
    ⟨trivial, trivial, by decide, trivial, trivial, by decide, trivial⟩

/-- The counter wraps around between two calls: 32 ticks are returned as 31. -/
theorem hwEpwmGetCaptureValue_not_widths :
    ¬ CaptureWidths .atReset
      [.count .epwm0 0xfff0, .capture epwm0Channel0, .call epwm0Channel0,
        .count .epwm0 0x20, .capture epwm0Channel0, .call epwm0Channel0] := by
  intro widths
  exact absurd (widths.each ⟨epwm0Channel0, 31, 32⟩ (by decide)) (by decide)

section Init

variable (apbFreq : BitVec 32) (polarity : EpwmAddress → Nat → EpwmPolarity)

/-- `HW_EPWM_InitConfig` for the captures of a module. -/
def initModule (modules : (EpwmAddress → EpwmTypeDef) × LastCaptureValue)
    (address : EpwmAddress) : (EpwmAddress → EpwmTypeDef) × LastCaptureValue :=
  match hwEpwmInitConfig apbFreq address (modules.1 address) modules.2
    (some ⟨0, 0, .capture (polarity address)⟩) with
  | some (_, epwm, last, _) => (Function.update modules.1 address epwm, last)
  | none => modules

/-- A turn of the loop remembers the capture register of a channel. -/
theorem captureChannel_spec (index : Nat) (inputs : Nat → EpwmPolarity)
    (state : EpwmTypeDef × LastCaptureValue) (chn : Nat) :
    (captureChannel index inputs state chn).1.ccr = state.1.ccr ∧
      (captureChannel index inputs state chn).1.cnt = state.1.cnt ∧
      (captureChannel index inputs state chn).2 =
        Function.update state.2 index
          (Function.update (state.2 index) chn (state.1.ccr chn)) :=
  ⟨rfl, rfl, rfl⟩

theorem foldl_captureChannel (index : Nat) (inputs : Nat → EpwmPolarity)
    (state : EpwmTypeDef × LastCaptureValue) (count : Nat) :
    let after := (List.range count).foldl (captureChannel index inputs) state
    after.1.ccr = state.1.ccr ∧ after.1.cnt = state.1.cnt ∧
      (∀ chn < count, after.2 index chn = state.1.ccr chn) ∧
      ∀ other ≠ index, after.2 other = state.2 other := by
  induction count with
  | zero => exact ⟨rfl, rfl, fun chn below => absurd below (Nat.not_lt_zero chn), fun _ _ => rfl⟩
  | succ count ih =>
      rcases ih with ⟨ccr, cnt, remembered, others⟩
      rw [List.range_succ, List.foldl_append]
      rcases captureChannel_spec index inputs
        ((List.range count).foldl (captureChannel index inputs) state) count with
        ⟨ccr', cnt', last⟩
      refine ⟨ccr'.trans ccr, cnt'.trans cnt, ?_, ?_⟩
      · intro chn below
        rw [List.foldl_cons, List.foldl_nil, last, Function.update_self, ccr]
        by_cases same : chn = count
        · rw [same, Function.update_self]
        · rw [Function.update_of_ne same]
          exact remembered chn (Nat.lt_of_le_of_ne (Nat.le_of_lt_succ below) same)
      · intro other differs
        rw [List.foldl_cons, List.foldl_nil, last, Function.update_of_ne differs,
          others other differs]

theorem hwEpwmStop_ccr (epwm : EpwmTypeDef) (chn : Nat) :
    (hwEpwmStop epwm chn).ccr = epwm.ccr := by
  unfold hwEpwmStop
  split <;> rfl

theorem hwEpwmCaptureStop_ccr (epwm : EpwmTypeDef) (chn : Nat) :
    (hwEpwmCaptureStop epwm chn).ccr = epwm.ccr := by
  unfold hwEpwmCaptureStop
  split <;> rfl

theorem foldl_stop_ccr (channels : List Nat) (epwm : EpwmTypeDef) :
    (channels.foldl (fun epwm chn => hwEpwmCaptureStop (hwEpwmStop epwm chn) chn) epwm).ccr =
      epwm.ccr := by
  induction channels generalizing epwm with
  | nil => rfl
  | cons chn channels ih =>
      rw [List.foldl_cons, ih, hwEpwmCaptureStop_ccr, hwEpwmStop_ccr]

theorem hwEpwmUnlock_ccr (epwm : EpwmTypeDef) : (hwEpwmUnlock epwm).2.ccr = epwm.ccr := rfl

theorem initCommon_ccr (epwm : EpwmTypeDef) (mode : EpwmMode) :
    (initCommon epwm mode).ccr = epwm.ccr := by
  rw [initCommon, hwEpwmUnlock_ccr]
  exact foldl_stop_ccr (List.range epwmChannelMax) epwm

/-- The capture branch clears the counter and remembers the capture registers. -/
theorem initCapture_spec (index : Nat) (epwm : EpwmTypeDef) (last : LastCaptureValue)
    (inputs : Nat → EpwmPolarity) :
    let after := initCapture index epwm last inputs
    after.1.ccr = epwm.ccr ∧ after.1.cnt = 0 ∧
      (∀ chn < epwmChannelMax, after.2 index chn = epwm.ccr chn) ∧
      ∀ other ≠ index, after.2 other = last other :=
  foldl_captureChannel index inputs
    ({ epwm with psc := 0, cnt := 0, arr := 0, dier := 0 }, last) epwmChannelMax

theorem initModule_eq (modules : (EpwmAddress → EpwmTypeDef) × LastCaptureValue)
    (address : EpwmAddress) :
    let captures := initCapture (getIndex address)
      (initCommon (modules.1 address) (.capture (polarity address))) modules.2
      (polarity address)
    initModule apbFreq polarity modules address =
      (Function.update modules.1 address (hwEpwmLock captures.1).2, captures.2) := rfl

theorem initModule_spec (modules : (EpwmAddress → EpwmTypeDef) × LastCaptureValue)
    (address : EpwmAddress) :
    let after := initModule apbFreq polarity modules address
    (after.1 address).cnt = 0 ∧ (after.1 address).ccr = (modules.1 address).ccr ∧
      (∀ module ≠ address, after.1 module = modules.1 module) ∧
      (∀ chn < epwmChannelMax,
        after.2 (getIndex address) chn = (modules.1 address).ccr chn) ∧
      ∀ index ≠ getIndex address, after.2 index = modules.2 index := by
  intro after
  rcases initCapture_spec (getIndex address)
    (initCommon (modules.1 address) (.capture (polarity address))) modules.2
    (polarity address) with ⟨ccr, cnt, remembered, others⟩
  rw [initCommon_ccr] at ccr remembered
  have isAfter : after = _ := initModule_eq apbFreq polarity modules address
  rw [isAfter]
  dsimp only
  rw [Function.update_self]
  exact ⟨cnt, ccr, fun module differs => Function.update_of_ne differs .., remembered, others⟩

/-- The modules. -/
def epwmModules : List EpwmAddress :=
  [.epwm0, .epwm1, .epwm2, .epwm3, .epwm4, .epwm5, .epwm6, .epwm7]

/-- Initialised one after the other, modules keep what each has remembered. -/
theorem foldl_initModule (modules : (EpwmAddress → EpwmTypeDef) × LastCaptureValue)
    (addresses : List EpwmAddress) (areModules : .other ∉ addresses) :
    let after := addresses.foldl (initModule apbFreq polarity) modules
    (∀ address, (after.1 address).ccr = (modules.1 address).ccr) ∧
      ∀ channel : EpwmChannel, channel.address ∈ addresses →
        (after.1 channel.address).cnt = 0 ∧
          after.2 (getIndex channel.address) channel.chn =
            (modules.1 channel.address).ccr channel.chn := by
  induction addresses using List.reverseRecOn with
  | nil => exact ⟨fun _ => rfl, fun _ isMember => absurd isMember List.not_mem_nil⟩
  | append_singleton addresses address ih =>
      rw [List.mem_append, not_or, List.mem_singleton] at areModules
      rcases ih areModules.1 with ⟨ccr, remembered⟩
      rcases initModule_spec apbFreq polarity
        (addresses.foldl (initModule apbFreq polarity) modules) address with
        ⟨cnt', ccr', others, last, lasts⟩
      rw [List.foldl_append]
      constructor
      · intro module
        by_cases same : module = address
        · rw [same]
          exact ccr'.trans (ccr address)
        · exact (congrArg EpwmTypeDef.ccr (others module same)).trans (ccr module)
      · intro channel isMember
        by_cases same : channel.address = address
        · rw [same]
          exact ⟨cnt', (last channel.chn channel.inside).trans (congrFun (ccr address) _)⟩
        · have earlier : channel.address ∈ addresses := by simpa [same] using isMember
          rcases remembered channel earlier with ⟨cnt, value⟩
          have elsewhere : getIndex channel.address ≠ getIndex address := fun index =>
            same (getIndex_inj channel.isModule (Ne.symm areModules.2) index)
          exact ⟨(congrArg EpwmTypeDef.cnt (others _ same)).trans cnt,
            (congrFun (lasts _ elsewhere) _).trans value⟩

/-- The state in which measurements start: all modules have been initialised. -/
def CaptureState.initialised (modules : (EpwmAddress → EpwmTypeDef) × LastCaptureValue) :
    CaptureState :=
  let after := epwmModules.foldl (initModule apbFreq polarity) modules
  { epwm := after.1
    last := after.2
    ticks := fun _ => 2 ^ 16
    captured := fun channel => ((modules.1 channel.address).ccr channel.chn).toNat
    returned := fun channel => ((modules.1 channel.address).ccr channel.chn).toNat }

/-- With capture registers of 16 bits, the registers track the counters from then on. -/
theorem initialised_tracks (modules : (EpwmAddress → EpwmTypeDef) × LastCaptureValue)
    (sixteen : ∀ channel : EpwmChannel,
      ((modules.1 channel.address).ccr channel.chn).toNat < 2 ^ 16) :
    (CaptureState.initialised apbFreq polarity modules).Tracks := by
  rcases foldl_initModule apbFreq polarity modules epwmModules (by decide) with
    ⟨ccr, remembered⟩
  have isMember : ∀ channel : EpwmChannel, channel.address ∈ epwmModules := by
    intro channel
    have isModule := channel.isModule
    revert isModule
    cases channel.address <;> decide
  constructor
  · intro channel
    have cleared := congrArg BitVec.toNat (remembered channel (isMember channel)).1
    exact cleared.trans (Nat.mod_self (2 ^ 16)).symm
  · intro channel
    have kept := congrArg BitVec.toNat (congrFun (ccr channel.address) channel.chn)
    exact kept.trans (Nat.mod_eq_of_lt (sixteen channel)).symm
  · intro channel
    have value := congrArg BitVec.toNat (remembered channel (isMember channel)).2
    exact value.trans (Nat.mod_eq_of_lt (sixteen channel)).symm
  · intro channel
    exact Nat.le_refl _
  · intro channel
    exact Nat.le_of_lt (sixteen channel)

end Init

end SunWise.Epwm
