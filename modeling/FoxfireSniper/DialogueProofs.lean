import FoxfireSniper.DialogueTypes

/-! # The configuration that a dialogue puts together

    A user fills in the configuration of a strategy field by field, and goes back and forth
    between the menus meanwhile.  The states of the dialogue carry what is there so far, and
    each of their transitions copies it.

    What should come out is what the user has typed last for each field, wherever in the menus
    it was typed: `combined` says so without a state.

    * **`apply_keeps`** — a transition that is no update keeps the configuration;
    * **`config_last_write_wins`** — after any transitions, from any state, the configuration
      is that. -/

namespace FoxfireTelegram

-- ── The last value of each field ────────────────────────────────────────────

namespace VolumeStrategyConfigArgs

/-- The last of the updates that give the field, and what it was before if none does. -/
def lastWritten {α : Type} (field : VolumeStrategyConfigArgs → Option α)
    (before : VolumeStrategyConfigArgs) (updates : List VolumeStrategyConfigArgs) : Option α :=
  (updates.filterMap field).getLast?.or (field before)

/-- Last write wins, for each field by itself. -/
def combined (before : VolumeStrategyConfigArgs) (updates : List VolumeStrategyConfigArgs) :
    VolumeStrategyConfigArgs where
  userId                   := lastWritten userId before updates
  targetPool               := lastWritten targetPool before updates
  trancheSizeSol           := lastWritten trancheSizeSol before updates
  trancheFrequencyHbs      := lastWritten trancheFrequencyHbs before updates
  trancheLengthHbs         := lastWritten trancheLengthHbs before updates
  agentsBuyingInTranche    := lastWritten agentsBuyingInTranche before updates
  agentsSellingInTranche   := lastWritten agentsSellingInTranche before updates
  agentsKeepTokensLamports := lastWritten agentsKeepTokensLamports before updates

theorem combined_nil (before : VolumeStrategyConfigArgs) : combined before [] = before := rfl

/-- A field that `update` treats as the last write. -/
theorem lastWritten_cons {α : Type} {field : VolumeStrategyConfigArgs → Option α}
    {before new : VolumeStrategyConfigArgs} {updates : List VolumeStrategyConfigArgs}
    (hfield : field (before.update new) = (field new).or (field before)) :
    lastWritten field before (new :: updates) = lastWritten field (before.update new) updates := by
  rw [lastWritten, lastWritten, hfield, List.filterMap_cons]
  cases field new with
  | none => rfl
  | some x =>
      have hlast : (x :: updates.filterMap field).getLast? =
          (updates.filterMap field).getLast?.or (some x) := by
        rw [List.getLast?_cons]
        cases (updates.filterMap field).getLast? with
        | none => rfl
        | some _ => rfl
      rw [Option.some_or, hlast, Option.or_assoc, Option.some_or]

/-- The first of the updates may be applied at once. -/
theorem combined_cons (before new : VolumeStrategyConfigArgs)
    (updates : List VolumeStrategyConfigArgs) :
    combined before (new :: updates) = combined (before.update new) updates := by
  have hor : ∀ {α : Type} (x y : Option α), (x <|> y) = x.or y := by
    intro α x y
    cases x with
    | none => rfl
    | some _ => rfl
  simp only [combined]
  congr 1 <;> exact lastWritten_cons (hor _ _)

/-- The last one, too. -/
theorem combined_concat (updates : List VolumeStrategyConfigArgs) (new : VolumeStrategyConfigArgs) :
    ∀ before, combined before (updates ++ [new]) = (combined before updates).update new := by
  induction updates with
  | nil =>
      intro before
      rw [List.nil_append, combined_cons, combined_nil, combined_nil]
  | cons first updates ih =>
      intro before
      rw [List.cons_append, combined_cons, ih, combined_cons]

/-- A configuration without a field changes nothing. -/
theorem update_default (a : VolumeStrategyConfigArgs) : a.update default = a := rfl

end VolumeStrategyConfigArgs

-- ── The transitions ─────────────────────────────────────────────────────────

/-- The transitions of `State`. -/
inductive Operation where
  | toMainMenu
  | back
  | toReceive (input : TextInput) (message : DialogueMessages)
  | toReceiveStrategy
  | toSelectedStrategy (strategyId : Int)
  | reset
  | updateConfiguredStrategy (strategyUpdate : VolumeStrategyConfigArgs)
  | cancelTextInput
  | toStrategiesList

/-- The update that an operation makes; the others navigate. -/
def Operation.strategyUpdate : Operation → Option VolumeStrategyConfigArgs
  | .updateConfiguredStrategy u => some u
  | _                           => none

namespace State

def apply (s : State) : Operation → State
  | .toMainMenu                 => s.toMainMenu
  | .back                       => s.back
  | .toReceive input message    => input.target s message
  | .toReceiveStrategy          => s.toReceiveStrategy
  | .toSelectedStrategy id      => s.toSelectedStrategy id
  | .reset                      => s.reset
  | .updateConfiguredStrategy u => s.updateConfiguredStrategy u
  | .cancelTextInput            => s.cancelTextInput
  | .toStrategiesList           => s.toStrategiesList

/-- One after the other. -/
def applyAll (s : State) (ops : List Operation) : State := ops.foldl apply s

theorem target_keeps (input : TextInput) (s : State) (message : DialogueMessages) :
    (input.target s message).getStrategyInProgressInAny = s.getStrategyInProgressInAny := by
  cases input <;> rfl

/-- Without a configuration the first state is as good as any. -/
theorem toMainMenu_keeps (s : State) :
    s.toMainMenu.getStrategyInProgressInAny = s.getStrategyInProgressInAny := by
  rw [toMainMenu]
  cases s.getStrategyInProgressInAny with
  | none => rfl
  | some _ => rfl

theorem reset_eq_toMainMenu (s : State) : s.reset = s.toMainMenu := by
  rw [reset, toMainMenu]

theorem cancelTextInput_keeps (s : State) :
    s.cancelTextInput.getStrategyInProgressInAny = s.getStrategyInProgressInAny := by
  rw [cancelTextInput]
  cases s.awaitingTextInput with
  | false => rfl
  | true =>
      rw [if_pos rfl]
      cases s.getStrategyInProgressInAny with
      | none => rfl
      | some _ => rfl

/-- **NAVIGATION** keeps the configuration, also that there is none. -/
theorem apply_keeps {op : Operation} (hop : op.strategyUpdate = none) (s : State) :
    (s.apply op).getStrategyInProgressInAny = s.getStrategyInProgressInAny := by
  cases op with
  | toMainMenu => exact toMainMenu_keeps s
  | back => exact toMainMenu_keeps s
  | toReceive input message => exact target_keeps input s message
  | toReceiveStrategy => rfl
  | toSelectedStrategy id => rfl
  | reset => exact (congrArg _ (reset_eq_toMainMenu s)).trans (toMainMenu_keeps s)
  | updateConfiguredStrategy u => cases hop
  | cancelTextInput => exact cancelTextInput_keeps s
  | toStrategiesList => rfl

/-- An update, in whatever state. -/
theorem update_configures (s : State) (u : VolumeStrategyConfigArgs) :
    (s.updateConfiguredStrategy u).getStrategyInProgress = s.getStrategyInProgress.update u := by
  cases s <;> rfl

/-- One operation, as the updates it makes: one or none. -/
theorem apply_configures (s : State) (op : Operation) :
    (s.apply op).getStrategyInProgress =
      s.getStrategyInProgress.combined op.strategyUpdate.toList := by
  cases hop : op.strategyUpdate with
  | none =>
      rw [getStrategyInProgress, apply_keeps hop]
      rfl
  | some u =>
      obtain rfl : op = .updateConfiguredStrategy u := by
        cases op <;> cases hop
        rfl
      rw [Option.toList_some, VolumeStrategyConfigArgs.combined_cons]
      exact update_configures s u

/-- **ANY OPERATIONS**, from any state. -/
theorem applyAll_configures (ops : List Operation) : ∀ s : State,
    (s.applyAll ops).getStrategyInProgress =
      s.getStrategyInProgress.combined (ops.filterMap Operation.strategyUpdate) := by
  induction ops with
  | nil => exact fun _ => rfl
  | cons op ops ih =>
      intro s
      have hrest := ih (s.apply op)
      rw [apply_configures] at hrest
      rw [List.filterMap_cons]
      cases hop : op.strategyUpdate with
      | none =>
          rw [hop] at hrest
          exact hrest
      | some u =>
          rw [hop, Option.toList_some, VolumeStrategyConfigArgs.combined_cons] at hrest
          exact hrest.trans (VolumeStrategyConfigArgs.combined_cons _ _ _).symm

end State

/-- **THE LAST WRITE OF A FIELD WINS.**  After any transitions, in any order and from any
    state, the configuration in progress has in each field what the last of the updates with
    that field says, and else what was there before; from the first state this is the default.
    A transition that is no update keeps the configuration, and an update without a field
    changes none. -/
theorem config_last_write_wins :
    (∀ (s : State) (ops : List Operation),
      (s.applyAll ops).getStrategyInProgress =
        s.getStrategyInProgress.combined (ops.filterMap Operation.strategyUpdate)) ∧
    (∀ ops : List Operation,
      ((default : State).applyAll ops).getStrategyInProgress =
        (default : VolumeStrategyConfigArgs).combined
          (ops.filterMap Operation.strategyUpdate)) ∧
    (∀ (s : State) (op : Operation), op.strategyUpdate = none →
      (s.apply op).getStrategyInProgressInAny = s.getStrategyInProgressInAny) ∧
    ∀ s : State, (s.updateConfiguredStrategy default).getStrategyInProgress =
      s.getStrategyInProgress := by
  refine ⟨fun s ops => State.applyAll_configures ops s,
    fun ops => State.applyAll_configures ops default, fun s op hop => State.apply_keeps hop s,
    fun s => ?_⟩
  rw [State.update_configures]
  exact VolumeStrategyConfigArgs.update_default _

/-- A pool is typed, then the size, with a visit to the main menu between; a second pool
    replaces the first, and the size stays. -/
def twoPools : List Operation :=
  let messages : DialogueMessages :=
    ⟨⟨8, ⟨5, true⟩, none, some "menu"⟩, ⟨9, ⟨5, true⟩, none, some "prompt"⟩⟩
  [.toReceiveStrategy, .toReceive .tokenAddress messages,
    .updateConfiguredStrategy { targetPool := some "first pool" }, .back,
    .toReceiveStrategy, .toReceive .trancheSizeSol messages,
    .updateConfiguredStrategy { trancheSizeSol := some 2 },
    .toReceive .tokenAddress messages, .cancelTextInput, .toSelectedStrategy 7,
    .updateConfiguredStrategy { targetPool := some "second pool" }, .reset]

theorem second_pool_wins :
    ((default : State).applyAll twoPools).getStrategyInProgress =
        { targetPool := some "second pool", trancheSizeSol := some 2 } ∧
      ((State.strategySelected (some { targetPool := some "pool" }) none).apply
        .toStrategiesList).getStrategyInProgressInAny =
          some { targetPool := some "pool" } :=
  ⟨config_last_write_wins.2.1 twoPools,
    config_last_write_wins.2.2.1 (.strategySelected (some { targetPool := some "pool" }) none)
      .toStrategiesList rfl⟩

end FoxfireTelegram
