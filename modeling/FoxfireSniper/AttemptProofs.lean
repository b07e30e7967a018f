import FoxfireSniper.Types

/-! # One attempt at a command — what the two agents share

    The volume agent and the sniper agent are written separately, but wait for the
    fate of an action in the same way: `queue_action`, `process_execution_receipt`,
    `is_cooled_down_before_retry` and the body of
    `transition_to_success_or_error` / `conditional_transition` agree line by line.
    That shared part is modelled once, over the state type `S` of the agent:

    * **`Stopwatch`** — `src/utils/stopwatch.rs`, with the clock as an argument;
    * **`ActionTracker`** — the list `actions_in_progress` and the timeout timer;
    * **`attemptTransition`** — how a waiting state reacts to an event;
    * **`attemptTransition_cases`** — everything it can do. -/

namespace FoxfireAttempt

open FoxfireTypes

-- ── The stopwatch ───────────────────────────────────────────────────────────

/-- `Stopwatch`: a timer that is armed while `lapTicks` is positive. -/
structure Stopwatch where
  lapTicks : Nat
  start    : Instant
  deriving DecidableEq, Repr

/-- `Stopwatch::start` (and `new`). -/
def Stopwatch.restart (lapTicks : Nat) (now : Instant) : Stopwatch := ⟨lapTicks, now⟩

/-- `Stopwatch::turn_off`. -/
def Stopwatch.turnOff (w : Stopwatch) : Stopwatch := { w with lapTicks := 0 }

/-- `Stopwatch::ticks_elapsed`. -/
def Stopwatch.ticksElapsed (w : Stopwatch) (tick : TickSizeMs) (now : Instant) : Nat :=
  (now - w.start) / tick.ms

/-- `Stopwatch::is_time_elapsed`. -/
def Stopwatch.isTimeElapsed (w : Stopwatch) (tick : TickSizeMs) (now : Instant) : Bool :=
  0 < w.lapTicks && w.lapTicks ≤ w.ticksElapsed tick now

-- ── Actions in progress ─────────────────────────────────────────────────────

/-- The bookkeeping both agents keep about the actions they queued. -/
structure ActionTracker where
  actionsInProgress : List Uuid
  timeoutTimer      : Stopwatch
  deriving DecidableEq, Repr

/-- The bookkeeping of a new agent. -/
def ActionTracker.new (now : Instant) : ActionTracker :=
  ⟨[], Stopwatch.restart timeoutForActionExecutionHbs now⟩

/-- Bookkeeping part of `queue_action`: remember the uuid, restart the timer. -/
def ActionTracker.queueAction (t : ActionTracker) (uuid : Uuid) (now : Instant) :
    ActionTracker :=
  ⟨t.actionsInProgress ++ [uuid], Stopwatch.restart timeoutForActionExecutionHbs now⟩

/-- `self.actions_in_progress.retain(|&x| x != uuid)`. -/
def ActionTracker.drop (t : ActionTracker) (uuid : Uuid) : ActionTracker :=
  { t with actionsInProgress := t.actionsInProgress.filter (fun x => x ≠ uuid) }

/-- `process_execution_receipt`: the receipt of an action in progress closes it; on
    an error the timer is turned off as well.  Other receipts are ignored. -/
def ActionTracker.processExecutionReceipt (t : ActionTracker) (receipt : ExecutionReceipt) :
    ActionTracker × Except TransactionError (Option Unit) :=
  if receipt.actionUuid ∈ t.actionsInProgress then
    match receipt.err with
    | some err =>
        ({ t.drop receipt.actionUuid with timeoutTimer := t.timeoutTimer.turnOff }, .error err)
    | none => (t.drop receipt.actionUuid, .ok (some ()))
  else (t, .ok none)

/-- `is_cooled_down_before_retry`: has the timeout fired?  If so it is disarmed. -/
def ActionTracker.isCooledDownBeforeRetry (t : ActionTracker) (tick : TickSizeMs)
    (now : Instant) : ActionTracker × Bool :=
  if t.timeoutTimer.isTimeElapsed tick now then
    ({ t with timeoutTimer := t.timeoutTimer.turnOff }, true)
  else (t, false)

-- ── State handlers ──────────────────────────────────────────────────────────

/-- `statig::Response`: an event is handled, passed to the superstate, or moves the
    machine to another state. -/
inductive Response (S : Type) where
  | handled
  | super
  | transition (target : S)
  deriving DecidableEq, Repr

/-- Why an agent is in its error state; the source formats it into a message. -/
inductive ErrorMsg where
  /-- "Attempt to deactivate main wallet" -/
  | attemptToDeactivateMainWallet
  /-- "Error executing action: …" -/
  | errorExecutingAction (e : ExecutionError)
  /-- "Error processing execution receipt: …" -/
  | errorProcessingExecutionReceipt (err : TransactionError)
  /-- "Transfer action timeout" -/
  | transferActionTimeout
  deriving DecidableEq, Repr

variable {S : Type}

/-- Retry while the retry count allows it, else give up. -/
def retryOrError (retry : Nat) (retryAction : S) (error : ErrorMsg → S) (msg : ErrorMsg) :
    Response S :=
  if retry ≤ retriesIfErrorOrTimeout then .transition retryAction
  else .transition (error msg)

/-- The body that `transition_to_success_or_error` (volume agent) and
    `conditional_transition` (sniper agent) share: how a state that waits for an
    action reacts to an event. -/
def attemptTransition (now : Instant) (t : ActionTracker) (event : SolanaStrategyEvent)
    (retryAction success : S) (error : ErrorMsg → S) (retry : Nat) :
    ActionTracker × Response S :=
  match event with
  | .original (.executionResult uuid _ res) =>
      if uuid ∈ t.actionsInProgress then
        match res with
        | .executionError e =>
            (t.drop uuid, retryOrError retry retryAction error (.errorExecutingAction e))
        | .sent => (t.drop uuid, .super)
      else (t, .super)
  | .original (.blockchainEvent (.executionReceipt receipt)) =>
      match t.processExecutionReceipt receipt with
      | (t', .ok (some _)) => (t', .transition success)
      | (t', .ok none)     => (t', .super)
      | (t', .error err)   =>
          (t', retryOrError retry retryAction error (.errorProcessingExecutionReceipt err))
  | .original (.heartBeat tick _) =>
      match t.isCooledDownBeforeRetry tick now with
      | (t', true)  => (t', retryOrError retry retryAction error .transferActionTimeout)
      | (t', false) => (t', .super)
  | _ => (t, .super)

/-- The action whose failure an event reports: an execution error from the executor,
    or a receipt with an on-chain error. -/
def failedUuid : SolanaStrategyEvent → Option Uuid
  | .original (.executionResult uuid _ (.executionError _)) => some uuid
  | .original (.blockchainEvent (.executionReceipt receipt)) =>
      match receipt.err with
      | some _ => some receipt.actionUuid
      | none   => none
  | _ => none

/-- The event of a receipt. -/
abbrev receiptEvent (receipt : ExecutionReceipt) : SolanaStrategyEvent :=
  .original (.blockchainEvent (.executionReceipt receipt))

/-- The event of an executor's report. -/
abbrev resultEvent (uuid : Uuid) (action : SolanaAction) (res : ExecutionResult) :
    SolanaStrategyEvent :=
  .original (.executionResult uuid action res)

/-- Is the event a heartbeat? -/
def isHeartBeat : SolanaStrategyEvent → Bool
  | .original (.heartBeat _ _) => true
  | _ => false

theorem mem_of_mem_drop {t : ActionTracker} {uuid u : Uuid}
    (h : u ∈ (t.drop uuid).actionsInProgress) : u ∈ t.actionsInProgress :=
  (List.mem_filter.mp h).1

/-- Everything a receipt does to the bookkeeping. -/
theorem processExecutionReceipt_cases (t : ActionTracker) (r : ExecutionReceipt) :
    (r.actionUuid ∉ t.actionsInProgress
      ∧ t.processExecutionReceipt r = (t, .ok none)) ∨
    (r.actionUuid ∈ t.actionsInProgress ∧ r.err = none
      ∧ t.processExecutionReceipt r = (t.drop r.actionUuid, .ok (some ()))) ∨
    (∃ err, r.actionUuid ∈ t.actionsInProgress ∧ r.err = some err
      ∧ t.processExecutionReceipt r
        = ({ t.drop r.actionUuid with timeoutTimer := t.timeoutTimer.turnOff },
            .error err)) := by
  simp only [ActionTracker.processExecutionReceipt]
  by_cases hm : r.actionUuid ∈ t.actionsInProgress
  · rw [if_pos hm]
    cases he : r.err with
    | none => exact Or.inr (Or.inl ⟨hm, rfl, rfl⟩)
    | some err => exact Or.inr (Or.inr ⟨err, hm, rfl, rfl⟩)
  · rw [if_neg hm]
    exact Or.inl ⟨hm, rfl⟩

/-- What `attemptTransition` can do, as a proposition about its result. -/
inductive AttemptOutcome (now : Instant) (t : ActionTracker) (event : SolanaStrategyEvent)
    (retryAction success : S) (error : ErrorMsg → S) (retry : Nat) :
    ActionTracker → Response S → Prop where
  /-- Nothing happens, except that actions may leave the list. -/
  | ignored {t' : ActionTracker}
      (hsub : ∀ u ∈ t'.actionsInProgress, u ∈ t.actionsInProgress) :
      AttemptOutcome now t event retryAction success error retry t' .super
  /-- An error-free receipt of an action in progress. -/
  | succeeded {r : ExecutionReceipt} (hev : event = receiptEvent r) (herr : r.err = none)
      (hmem : r.actionUuid ∈ t.actionsInProgress) :
      AttemptOutcome now t event retryAction success error retry
        (t.drop r.actionUuid) (.transition success)
  /-- An action in progress failed. -/
  | failed {t' : ActionTracker} {u : Uuid} {msg : ErrorMsg}
      (hev : failedUuid event = some u) (hmem : u ∈ t.actionsInProgress)
      (ht' : t'.actionsInProgress = t.actionsInProgress.filter (fun x => x ≠ u)) :
      AttemptOutcome now t event retryAction success error retry t'
        (retryOrError retry retryAction error msg)
  /-- The timeout fired. -/
  | timedOut {t' : ActionTracker} {tick : TickSizeMs} {at_ : Instant}
      (hev : event = .original (.heartBeat tick at_))
      (htime : t.timeoutTimer.isTimeElapsed tick now = true)
      (ht' : t'.actionsInProgress = t.actionsInProgress) :
      AttemptOutcome now t event retryAction success error retry t'
        (retryOrError retry retryAction error .transferActionTimeout)

/-- **INVERSION**: `attemptTransition` does one of those four things. -/
theorem attemptTransition_cases (now : Instant) (t : ActionTracker)
    (event : SolanaStrategyEvent) (retryAction success : S) (error : ErrorMsg → S)
    (retry : Nat) :
    AttemptOutcome now t event retryAction success error retry
      (attemptTransition now t event retryAction success error retry).1
      (attemptTransition now t event retryAction success error retry).2 := by
  have hkeep : AttemptOutcome now t event retryAction success error retry t .super :=
    .ignored (fun u hu => hu)
  simp only [attemptTransition]
  split
  · -- the executor's report
    rename_i uuid action res
    by_cases hm : uuid ∈ t.actionsInProgress
    · rw [if_pos hm]
      cases res with
      | executionError e => exact .failed rfl hm rfl
      | sent => exact .ignored (fun u hu => mem_of_mem_drop hu)
    · rw [if_neg hm]
      exact hkeep
  · -- a receipt
    rename_i receipt
    rcases processExecutionReceipt_cases t receipt with
      ⟨_, heq⟩ | ⟨hm, herr, heq⟩ | ⟨err, hm, herr, heq⟩
    · rw [heq]
      exact hkeep
    · rw [heq]
      exact .succeeded rfl herr hm
    · rw [heq]
      refine .failed (u := receipt.actionUuid) ?_ hm rfl
      show (match receipt.err with
        | some _ => some receipt.actionUuid
        | none   => none) = some receipt.actionUuid
      rw [herr]
  · -- a heartbeat
    rename_i tick at_
    rw [ActionTracker.isCooledDownBeforeRetry]
    by_cases hel : t.timeoutTimer.isTimeElapsed tick now = true
    · rw [if_pos hel]
      exact .timedOut rfl hel rfl
    · rw [if_neg hel]
      exact hkeep
  · exact hkeep

end FoxfireAttempt
