import FoxfireSniper.AttemptProofs
import FoxfireSniper.AttemptLogProofs

/-! # Retries — what a step of either agent does to its ledger of attempts

    Both agents move in the same four ways as far as their actions are concerned:
    nothing is queued, a command starts, a command is retried after a reported
    failure, or it is retried because the timeout fired.  `Move` says so without
    naming a machine; each machine shows that its steps are moves.

    * **`record`** updates the ledger of attempts after a step;
    * **`Move.bounded`** — a move keeps the ledger's invariant;
    * **`Move.retry_paid`** — at a retry, the earlier attempts of the command whose
      failure has not been reported are at most its timeouts so far, plus the attempts
      of earlier commands that were in progress when it started. -/

namespace FoxfireRetry

open FoxfireTypes FoxfireAttempt AttemptLog

/-- Update the ledger: a failure that the event reports is known, and an action that
    was queued is the first of a command (retry count 0) or a further attempt.  `op`
    lists the actions in progress before the step. -/
def record (log : Log Uuid) (op : List Uuid) (event : SolanaStrategyEvent)
    (retryAfter : Option Nat) : List SolanaAction → Log Uuid
  | [] => log.resolve (failedUuid event)
  | action :: _ =>
      if retryAfter = some 0
      then (log.resolve (failedUuid event)).start action.uuid op.length
      else (log.resolve (failedUuid event)).push action.uuid (isHeartBeat event)

/-- What a step does to the retry count and to the actions in progress. -/
inductive Move (event : SolanaStrategyEvent) (uuid : Uuid) (queued : List SolanaAction)
    (retryAfter : Option Nat) (op opAfter : List Uuid) : Prop where
  | quiet (hsub : ∀ u ∈ opAfter, u ∈ op) (hout : queued = [])
  | started {action : SolanaAction} (hretry : retryAfter = some 0)
      (hin : opAfter = op ++ [uuid]) (hout : queued = [action]) (huuid : action.uuid = uuid)
  | retriedFailed {action : SolanaAction} {r : Nat} {u : Uuid}
      (hretry : retryAfter = some (r + 1))
      (hev : failedUuid event = some u) (hmem : u ∈ op)
      (hin : opAfter = op.filter (fun x => x ≠ u) ++ [uuid])
      (hout : queued = [action]) (huuid : action.uuid = uuid)
  | retriedTimeout {action : SolanaAction} {r : Nat} {tick : TickSizeMs} {at_ : Instant}
      (hretry : retryAfter = some (r + 1))
      (hev : event = .original (.heartBeat tick at_))
      (hin : opAfter = op ++ [uuid])
      (hout : queued = [action]) (huuid : action.uuid = uuid)

variable {log : Log Uuid} {event : SolanaStrategyEvent} {uuid : Uuid}
  {queued : List SolanaAction} {retryAfter : Option Nat} {op opAfter : List Uuid}
  {action : SolanaAction} {r : Nat}

theorem record_quiet : record log op event retryAfter [] = log.resolve (failedUuid event) :=
  rfl

theorem record_started (h : retryAfter = some 0) :
    record log op event retryAfter [action]
      = (log.resolve (failedUuid event)).start action.uuid op.length := by
  simp only [record, h, if_true]

theorem record_retried (h : retryAfter = some (r + 1)) :
    record log op event retryAfter [action]
      = (log.resolve (failedUuid event)).push action.uuid (isHeartBeat event) := by
  have hne : retryAfter ≠ some 0 := by
    rw [h]
    simp
  simp only [record, if_neg hne]

theorem resolve_current (f : Option Uuid) : (log.resolve f).current = log.current := by
  cases f <;> rfl

theorem resolve_timeouts (f : Option Uuid) : (log.resolve f).timeouts = log.timeouts := by
  cases f <;> rfl

theorem resolve_stale (f : Option Uuid) : (log.resolve f).stale = log.stale := by
  cases f <;> rfl

/-- An event that reports a failure is no heartbeat. -/
theorem isHeartBeat_of_failed {u : Uuid} (h : failedUuid event = some u) :
    isHeartBeat event = false := by
  cases event with
  | forAgent e => rfl
  | original e =>
      cases e with
      | heartBeat tick at_ => cases h
      | blockchainEvent e => rfl
      | derivedEvent p => rfl
      | executionResult v a res => rfl
      | systemEvent e => rfl

/-- A heartbeat reports no failure. -/
theorem failed_of_heartBeat {tick : TickSizeMs} {at_ : Instant}
    (h : event = .original (.heartBeat tick at_)) : failedUuid event = none := by
  rw [h]
  rfl

/-- **A MOVE KEEPS THE LEDGER'S INVARIANT.** -/
theorem Move.bounded (hm : Move event uuid queued retryAfter op opAfter)
    (h : log.Bounded op) : (record log op event retryAfter queued).Bounded opAfter := by
  cases hm with
  | quiet hsub hout =>
      rw [hout, record_quiet]
      exact h.resolve hsub _
  | started hretry hin hout huuid =>
      rw [hout, record_started hretry, huuid, hin]
      exact start_bounded _ op uuid
  | retriedFailed hretry hev hmem hin hout huuid =>
      rw [hout, record_retried hretry, huuid, hin, hev, isHeartBeat_of_failed hev]
      exact (h.retryFailed hmem uuid).1
  | retriedTimeout hretry hev hin hout huuid =>
      rw [hout, record_retried hretry, huuid, hin, failed_of_heartBeat hev, hev]
      exact (h.retryBlind uuid).1

/-- **AT A RETRY EVERY UNRESOLVED ATTEMPT IS PAID FOR**, by a timeout of the command
    (this retry included) or by an older attempt that was open when it started. -/
theorem Move.retry_paid (hm : Move event uuid queued retryAfter op opAfter)
    (h : log.Bounded op) (hq : queued ≠ []) (hr : retryAfter ≠ some 0) :
    (log.resolve (failedUuid event)).unresolved.length
      ≤ (record log op event retryAfter queued).timeouts
        + (record log op event retryAfter queued).stale := by
  cases hm with
  | quiet _ hout => exact absurd hout hq
  | started hretry _ _ _ => exact absurd hretry hr
  | retriedFailed hretry hev hmem _ hout huuid =>
      rw [hout, record_retried hretry, isHeartBeat_of_failed hev, hev]
      exact (h.retryFailed hmem uuid).2
  | retriedTimeout hretry hev _ hout huuid =>
      rw [hout, record_retried hretry, failed_of_heartBeat hev, hev]
      exact (h.retryBlind uuid).2

/-- The ledger of a machine that has queued nothing. -/
theorem empty_bounded : (Log.empty : Log Uuid).Bounded [] := by
  rw [Log.Bounded]
  decide

end FoxfireRetry
