import SunWise.Can.Driver

/-!
# Initialisations in a row

`HW_CAN_InitConfig` adds the bits that a format leaves out of the comparison to the masks of
its caller, where the next call finds them.  So a filter becomes wider with every format that
was used before, as the note on `.mask` in `drv_can.h` warns.
-/

namespace SunWise.Can

/-- What the user sets before a call. -/
structure Setting where
  format : CanFormat
  filter : CanFilter
  deriving DecidableEq, Repr

/-- A call of `HW_CAN_InitConfig` with another format and filter. -/
def initAs (apbFreq : BitVec 32) (state : CanTypeDef × DeviceCanConfig) (setting : Setting) :
    CanTypeDef × DeviceCanConfig :=
  let config := { state.2 with format := setting.format, filter := setting.filter }
  match hwCanInitConfig apbFreq state.1 (some config) with
  | (_, can, some config) => (can, config)
  | (_, can, none) => (can, config)

/-- Such calls in a row. -/
def initAll (apbFreq : BitVec 32) (state : CanTypeDef × DeviceCanConfig)
    (history : List Setting) : CanTypeDef × DeviceCanConfig :=
  history.foldl (initAs apbFreq) state

/-- The bits that the settings of a history leave out of the comparison. -/
def accumulated (history : List Setting) : BitVec 32 :=
  history.foldr (fun setting bits => ignoredBits setting.format setting.filter ||| bits) 0

variable (apbFreq : BitVec 32) (state : CanTypeDef × DeviceCanConfig)

theorem initAs_config (setting : Setting) :
    (initAs apbFreq state setting).2.id = state.2.id ∧
      ∀ index, (initAs apbFreq state setting).2.mask index =
        state.2.mask index ||| ignoredBits setting.format setting.filter :=
  ⟨rfl, fun _ => rfl⟩

theorem initAs_acr (setting : Setting) :
    (initAs apbFreq state setting).1.acr = filterBytes setting.filter state.2.id := rfl

theorem initAs_amr (setting : Setting) (register : Fin 4) :
    (initAs apbFreq state setting).1.amr register =
      filterBytes setting.filter state.2.mask register |||
        filterBytes setting.filter (fun _ => ignoredBits setting.format setting.filter)
          register := by
  have programmed : (initAs apbFreq state setting).1.amr =
      filterBytes setting.filter fun index =>
        state.2.mask index ||| ignoredBits setting.format setting.filter := rfl
  rw [programmed, filterBytes_or]

/-- A history leaves the identifiers alone and gathers bits in the masks. -/
theorem initAll_config (history : List Setting) :
    (initAll apbFreq state history).2.id = state.2.id ∧
      ∀ index, (initAll apbFreq state history).2.mask index =
        state.2.mask index ||| accumulated history := by
  induction history generalizing state with
  | nil =>
      refine ⟨rfl, ?_⟩
      intro index
      exact BitVec.or_zero.symm
  | cons setting history ih =>
      rcases ih (initAs apbFreq state setting) with ⟨id, mask⟩
      rcases initAs_config apbFreq state setting with ⟨idStep, maskStep⟩
      refine ⟨id.trans idStep, ?_⟩
      intro index
      calc (initAll apbFreq state (setting :: history)).2.mask index
          = (initAs apbFreq state setting).2.mask index ||| accumulated history := mask index
        _ = state.2.mask index ||| ignoredBits setting.format setting.filter |||
              accumulated history := by rw [maskStep]
        _ = state.2.mask index ||| accumulated (setting :: history) := BitVec.or_assoc _ _ _

/-- The filter that a history ends with is the one of a first initialisation. -/
def HistoryIndependent (config : DeviceCanConfig) (can fresh : CanTypeDef)
    (history : List Setting) (last : Setting) : Prop :=
  let final := (initAs apbFreq (initAll apbFreq (can, config) history) last).1
  let first := (initAs apbFreq (fresh, config) last).1
  final.acr = first.acr ∧ final.amr = first.amr

/-- After any history the acceptance code is the one of a first initialisation, and the mask
is that one with the bits of the earlier settings added. -/
theorem initAs_history (config : DeviceCanConfig) (can fresh : CanTypeDef)
    (history : List Setting) (last : Setting) :
    (initAs apbFreq (initAll apbFreq (can, config) history) last).1.acr =
        (initAs apbFreq (fresh, config) last).1.acr ∧
      ∀ register,
        (initAs apbFreq (initAll apbFreq (can, config) history) last).1.amr register =
          (initAs apbFreq (fresh, config) last).1.amr register |||
            filterBytes last.filter (fun _ => accumulated history) register := by
  rcases initAll_config apbFreq (can, config) history with ⟨id, mask⟩
  constructor
  · rw [initAs_acr, initAs_acr, id]
  · intro register
    have gathered : (initAll apbFreq (can, config) history).2.mask =
        fun index => config.mask index ||| accumulated history := funext mask
    rw [initAs_amr, initAs_amr, gathered, filterBytes_or, BitVec.or_assoc,
      BitVec.or_comm (filterBytes last.filter (fun _ => accumulated history) register),
      ← BitVec.or_assoc]

/-- The default configuration, first used for standard frames and then for extended ones. -/
theorem initAs_not_historyIndependent :
    ¬ HistoryIndependent 0 gDeviceCanDefaultConfig default default [⟨.standard, .single⟩]
      ⟨.extend, .single⟩ := by
  rintro ⟨-, same⟩
  exact absurd (congrFun same 3) (by decide)

end SunWise.Can
