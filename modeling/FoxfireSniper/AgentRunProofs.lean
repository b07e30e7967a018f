import FoxfireSniper.AgentProofs
import FoxfireSniper.RetryProofs

/-! # Runs of the volume agent — whose receipt is it?

    The agent recognises a receipt by membership of its uuid in
    `actions_in_progress`.  The list outlives the command that filled it: a retry
    after a timeout leaves the uuid of the attempt before it, and nothing clears the
    list when the command succeeds.  On the other side, the executor's `Sent` REMOVES
    the uuid from the list, so the receipt that follows is no longer recognised.

    * **`logged`** is the agent with a ledger of its attempts beside it, as a history
      variable: which uuids belong to the command it executes now.
    * **`success_only_by_own_receipt`**: when every command starts with an empty list,
      only receipts of the current command complete it.
    * **`receipt_after_sent_is_lost`**: after `Sent` the receipt is ignored, in every
      waiting state. -/

namespace FoxfireAgent

open FoxfireTypes FoxfireAttempt FoxfireRetry MachineRun AttemptLog

/-- The agent together with the ledger of its attempts. -/
abbrev logged : Step (Agent × Log Uuid) Input Effect :=
  tracked handle fun log m i m' out =>
    record log m.inProgress i.event m'.state.retry (queuedActions out)

/-- A new agent, with an empty ledger. -/
def freshAgent (pool : RaydiumPool) (key : Keypair) (strategyIdOpt : Option StrategyId)
    (mainWallet : Option Keypair) (now : Instant) : Agent × Log Uuid :=
  (Agent.new pool key strategyIdOpt mainWallet now, Log.empty)

-- ── Only the current command's receipts count ───────────────────────────────

/-- A step that starts a command finds no action of an earlier one in progress. -/
def StartsClean (t : Agent × Log Uuid) (i : Input) : Prop :=
  (t.1.state = .idle ∨ t.1.state = .success) → isCommand i.event = true →
    t.1.inProgress = []

/-- While the agent works on a command, it listens for that command's actions only. -/
def ListensToCurrent (t : Agent × Log Uuid) : Prop :=
  t.1.state.working = true → ∀ u ∈ t.1.inProgress, u ∈ t.2.current

theorem listens_step {t t' : Agent × Log Uuid} {i : Input} {out : List Effect}
    (hI : ListensToCurrent t) (hC : StartsClean t i) (h : logged t i = some (t', out)) :
    ListensToCurrent t' := by
  obtain ⟨hstep, hlog⟩ := tracked_eq_some h
  intro hw u hu
  rw [hlog]
  cases handle_cases hstep with
  | quiet hstate hsub hout =>
      rw [hout, record_quiet, resolve_current]
      rcases hstate with hs | ⟨hnw, _⟩
      · rw [hs] at hw
        exact hI hw u (hsub u hu)
      · rw [hnw] at hw
        cases hw
  | succeeded _ _ _ _ hstate _ _ =>
      rw [hstate] at hw
      cases hw
  | started hcause hretry hin hout huuid =>
      rw [hout, record_started hretry]
      rcases hcause with ⟨hs, hc⟩ | hnw
      · have hnil := hC hs hc
        rw [hin, hnil, List.nil_append] at hu
        show u ∈ [_]
        rw [huuid]
        exact hu
      · rw [hnw] at hw
        cases hw
  | retriedFailed hretry hstate _ _ hin hout huuid =>
      rw [hout, record_retried (by rw [hstate, retried_retry hretry])]
      show u ∈ (t.2.resolve _).current ++ [_]
      rw [resolve_current, huuid, List.mem_append]
      rw [hin, List.mem_append] at hu
      rw [hstate, retried_working] at hw
      exact hu.imp_left (fun hf => hI hw u (List.mem_filter.mp hf).1)
  | retriedTimeout hretry hstate _ _ hin hout huuid =>
      rw [hout, record_retried (by rw [hstate, retried_retry hretry])]
      show u ∈ (t.2.resolve _).current ++ [_]
      rw [resolve_current, huuid, List.mem_append]
      rw [hin, List.mem_append] at hu
      rw [hstate, retried_working] at hw
      exact hu.imp_left (hI hw u)

theorem listens_reach {pool : RaydiumPool} {key : Keypair} {sid : Option StrategyId}
    {mainWallet : Option Keypair} {now : Instant} {t : Agent × Log Uuid}
    (h : Reach logged StartsClean (freshAgent pool key sid mainWallet now) t) :
    ListensToCurrent t := by
  refine h.invariant ?_ (fun s i s' out hI hC hs => listens_step hI hC hs)
  intro hw
  cases hw

/-- A step into `success` is made by an error-free receipt of an action that was
    queued for the command the agent is executing. -/
def CompletedByOwnReceipt (t : Agent × Log Uuid) (i : Input) : Prop :=
  ∃ r : ExecutionReceipt, i.event = receiptEvent r ∧ r.err = none ∧
    t.1.state.working = true ∧ r.actionUuid ∈ t.2.current

/-- **NO STOLEN SUCCESS.**  In every run in which each command starts with no action
    in progress, every transition into `success` is made by a receipt of the current
    command. -/
theorem success_only_by_own_receipt {pool : RaydiumPool} {key : Keypair}
    {sid : Option StrategyId} {mainWallet : Option Keypair} {now : Instant}
    {t t' : Agent × Log Uuid} {i : Input} {out : List Effect}
    (hreach : Reach logged StartsClean (freshAgent pool key sid mainWallet now) t)
    (hstep : logged t i = some (t', out))
    (hnot : t.1.state ≠ .success) (hsucc : t'.1.state = .success) :
    CompletedByOwnReceipt t i := by
  have hlisten := listens_reach hreach
  obtain ⟨hs, -⟩ := tracked_eq_some hstep
  cases handle_cases hs with
  | quiet hstate _ _ =>
      rcases hstate with heq | ⟨_, hne⟩
      · exact absurd (heq.symm.trans hsucc) hnot
      · exact absurd hsucc hne
  | succeeded hwork hev herr hmem _ _ _ =>
      exact ⟨_, hev, herr, hwork, hlisten hwork _ hmem⟩
  | started _ hretry _ _ _ =>
      rw [hsucc] at hretry
      cases hretry
  | retriedFailed hretry hstate _ _ _ _ _ =>
      have hr := retried_retry hretry
      rw [← hstate, hsucc] at hr
      cases hr
  | retriedTimeout hretry hstate _ _ _ _ _ =>
      have hr := retried_retry hretry
      rw [← hstate, hsucc] at hr
      cases hr

/-- A trader of strategy 1, with a main wallet. -/
def trader : Agent × Log Uuid :=
  freshAgent default ⟨⟨1⟩, 1⟩ (some 1) (some ⟨⟨2⟩, 2⟩) 0

def input (event : SolanaStrategyEvent) (now : Instant) (uuid : Uuid) : Input :=
  ⟨event, now, now, uuid, 0⟩

def buyInput (now : Instant) (uuid : Uuid) : Input :=
  input (.forAgent (.buy .max)) now uuid

def receiptInput (now : Instant) (uuid : Uuid) : Input :=
  input (receiptEvent ⟨uuid, default, none, now⟩) now uuid

/-- A heartbeat of one millisecond. -/
def tick : TickSizeMs := ⟨1, by decide⟩

/-- A heartbeat 200 ticks after time 0. -/
def timeoutInput (uuid : Uuid) : Input :=
  input (.original (.heartBeat tick 0)) 200 uuid

/-- The trader, waiting for its first purchase. -/
def buyingTrader : Agent × Log Uuid :=
  (⟨.buying .max 0, { trader.1.storage with
      tracker := trader.1.storage.tracker.queueAction ⟨1⟩ 0 }⟩, ⟨[⟨1⟩], [], 0, 0⟩)

theorem reach_buyingTrader : Reach logged StartsClean trader buyingTrader :=
  .next .init (fun _ _ => rfl) (i := buyInput 0 ⟨1⟩) rfl

/-- One purchase, completed by its receipt. -/
theorem buyingTrader_completed_by_own_receipt :
    CompletedByOwnReceipt buyingTrader (receiptInput 10 ⟨1⟩) :=
  success_only_by_own_receipt reach_buyingTrader rfl (by decide) rfl

/-- A purchase is retried after a timeout, its first attempt lands after all, and a
    second purchase is ordered while the second attempt of the first is still open. -/
def buyTwice : List Input :=
  [buyInput 0 ⟨1⟩, timeoutInput ⟨2⟩, receiptInput 210 ⟨1⟩, buyInput 220 ⟨3⟩]

/-- **A STOLEN SUCCESS**: the second purchase is completed by the receipt of the
    first one's second attempt. -/
theorem second_buy_completed_by_first_buys_receipt :
    ¬ ∀ (t t' : Agent × Log Uuid) (i : Input) (out : List Effect),
      Reach logged Always trader t → logged t i = some (t', out) →
      t.1.state ≠ .success → t'.1.state = .success → CompletedByOwnReceipt t i := by
  intro hclaim
  obtain ⟨t, out, hrun, hne, hcur, t', hstep, hsucc⟩ : ∃ t out,
      run logged trader buyTwice = some (t, out) ∧ t.1.state ≠ .success ∧
      t.2.current = [⟨3⟩] ∧ ∃ t', logged t (receiptInput 230 ⟨2⟩) = some (t', []) ∧
        t'.1.state = .success :=
    ⟨_, _, rfl, State.noConfusion, rfl, _, rfl, rfl⟩
  have hreach := reach_of_run (C := Always) (fun _ _ => trivial) hrun
  obtain ⟨r, hev, -, -, hmem⟩ := hclaim t t' _ [] hreach hstep hne hsucc
  have huuid : (⟨2⟩ : Uuid) = r.actionUuid := by
    simp only [receiptInput, input, receiptEvent, SolanaStrategyEvent.original.injEq,
      BotEvent.blockchainEvent.injEq, BlockchainEvent.executionReceipt.injEq] at hev
    rw [← hev]
  rw [hcur, ← huuid] at hmem
  exact absurd hmem (by decide)

-- ── Spec lemmas: a receipt, a report, an unrelated event ────────────────────

/-- The agent after one uuid has left the list. -/
abbrev Agent.forget (m : Agent) (u : Uuid) : AgentState :=
  { m.storage with tracker := m.storage.tracker.drop u }

/-- An error-free receipt of any action in progress completes a working agent's
    command. -/
theorem handle_receipt {m : Agent} {i : Input} {r : ExecutionReceipt}
    (hw : m.state.working = true) (hev : i.event = receiptEvent r) (herr : r.err = none)
    (hmem : r.actionUuid ∈ m.inProgress) :
    handle m i = some (⟨.success, m.forget r.actionUuid⟩, []) := by
  obtain ⟨n, hr⟩ := retry_of_working hw
  have hproc : m.storage.tracker.processExecutionReceipt r
      = (m.storage.tracker.drop r.actionUuid, .ok (some ())) := by
    rw [ActionTracker.processExecutionReceipt]
    rw [if_pos hmem, herr]
  have hd : m.dispatch i = (m.forget r.actionUuid, .transition .success) := by
    rw [dispatch_working hw hr]
    simp only [AgentState.transitionToSuccessOrError, hev, attemptTransition, hproc]
  simp only [handle, hd, AgentState.enter, Option.map_some]

/-- The condition on runs is no stronger than it has to be: a command that starts
    while an older action is in progress is completed by that action's receipt. -/
theorem stale_receipt_completes {t t₁ : Agent × Log Uuid} {i j : Input}
    {out : List Effect} {r : ExecutionReceipt}
    (hs : t.1.state = .idle ∨ t.1.state = .success)
    (hstale : r.actionUuid ∈ t.1.inProgress) (hfresh : r.actionUuid ≠ i.uuid)
    (hstart : logged t i = some (t₁, out)) (hwork : t₁.1.state.working = true)
    (hev : j.event = receiptEvent r) (herr : r.err = none) :
    ∃ m', handle t₁.1 j = some (m', []) ∧ m'.state = .success ∧
      ¬ CompletedByOwnReceipt t₁ j := by
  obtain ⟨hstep, hlog⟩ := tracked_eq_some hstart
  cases handle_cases hstep with
  | started _ hretry hin hout huuid =>
      have hmem : r.actionUuid ∈ t₁.1.inProgress := by
        rw [hin]
        exact List.mem_append_left _ hstale
      refine ⟨_, handle_receipt hwork hev herr hmem, rfl, ?_⟩
      rintro ⟨r', hev', -, -, hcur⟩
      rw [hev] at hev'
      cases hev'
      rw [hlog, hout, record_started hretry] at hcur
      rw [List.mem_singleton.mp hcur, huuid] at hfresh
      exact hfresh rfl
  | quiet hstate _ _ =>
      rcases hstate with heq | ⟨hnw, _⟩
      · rw [heq] at hwork
        rcases hs with hs | hs
        · rw [hs] at hwork
          cases hwork
        · rw [hs] at hwork
          cases hwork
      · rw [hnw] at hwork
        cases hwork
  | succeeded _ _ _ _ hstate _ _ =>
      rw [hstate] at hwork
      cases hwork
  | retriedFailed hretry _ _ _ _ _ _ =>
      rcases hs with hs | hs
      · rw [hs] at hretry
        cases hretry
      · rw [hs] at hretry
        cases hretry
  | retriedTimeout hretry _ _ _ _ _ _ =>
      rcases hs with hs | hs
      · rw [hs] at hretry
        cases hretry
      · rw [hs] at hretry
        cases hretry

/-- `Sent` takes the uuid off the list and does nothing else. -/
theorem handle_sent {m : Agent} {i : Input} {u : Uuid} {action : SolanaAction}
    (hw : m.state.working = true) (hev : i.event = resultEvent u action .sent)
    (hmem : u ∈ m.inProgress) :
    handle m i = some (⟨m.state, m.forget u⟩, []) := by
  obtain ⟨n, hr⟩ := retry_of_working hw
  have hd : m.dispatch i = (m.forget u, .super) := by
    rw [dispatch_working hw hr]
    simp only [AgentState.transitionToSuccessOrError, hev, attemptTransition, if_pos hmem]
  simp only [handle, hd]

/-- An event that concerns neither the agent's commands, nor its timeout, nor any of
    the actions `op`. -/
def Unrelated (op : List Uuid) (i : Input) : Prop :=
  match i.event with
  | .forAgent _                                      => False
  | .original (.heartBeat _ _)                       => False
  | .original (.executionResult uuid _ _)            => uuid ∉ op
  | .original (.blockchainEvent (.executionReceipt r)) => r.actionUuid ∉ op
  | .original _                                      => True

/-- The shared body ignores an unrelated event. -/
theorem attempt_unrelated {S : Type} {now : Instant} {tr : ActionTracker} {i : Input}
    {retryAction success : S} {error : ErrorMsg → S} {n : Nat}
    (h : Unrelated tr.actionsInProgress i) :
    attemptTransition now tr i.event retryAction success error n = (tr, .super) := by
  rw [Unrelated] at h
  simp only [attemptTransition]
  split
  · rename_i hev
    rw [hev] at h
    rw [if_neg h]
  · rename_i r hev
    rw [hev] at h
    have hproc : tr.processExecutionReceipt r = (tr, .ok none) := by
      rw [ActionTracker.processExecutionReceipt]
      rw [if_neg h]
    rw [hproc]
  · rename_i hev
    rw [hev] at h
    cases h
  · rfl

/-- So does an agent that works on a command, or has just completed one. -/
theorem handle_unrelated {m : Agent} {i : Input}
    (hs : m.state.working = true ∨ m.state = .success) (h : Unrelated m.inProgress i) :
    handle m i = some (m, []) := by
  have hcmd : ∀ e, i.event ≠ .forAgent e := by
    intro e hev
    rw [Unrelated] at h
    rw [hev] at h
    exact h
  have hd : m.dispatch i = (m.storage, .super) := by
    rcases hs with hw | hsucc
    · obtain ⟨n, hr⟩ := retry_of_working hw
      rw [dispatch_working hw hr]
      rw [AgentState.transitionToSuccessOrError]
      split
      · rename_i hev
        exact absurd hev (hcmd _)
      · rw [attempt_unrelated h]
    · rw [dispatch_awaiting i (Or.inr hsucc), AgentState.awaitCommand]
      cases hev : i.event with
      | forAgent e => exact absurd hev (hcmd e)
      | original e => rfl
  simp only [handle, hd]

/-- A whole run of unrelated events changes nothing. -/
theorem run_unrelated {m : Agent} (hs : m.state.working = true ∨ m.state = .success)
    {between : List Input} (h : ∀ i ∈ between, Unrelated m.inProgress i)
    (rest : List Input) :
    run handle m (between ++ rest) = run handle m rest := by
  induction between with
  | nil => rfl
  | cons i is ih =>
      have hi := handle_unrelated hs (h i List.mem_cons_self)
      have hrest := ih (fun j hj => h j (List.mem_cons_of_mem i hj))
      rw [List.cons_append, run_cons, hi, Option.bind_some, hrest]
      simp

/-- Fewer actions in progress, more events are unrelated. -/
theorem Unrelated.mono {op op' : List Uuid} {i : Input} (h : Unrelated op i)
    (hsub : ∀ u ∈ op', u ∈ op) : Unrelated op' i := by
  rw [Unrelated] at h ⊢
  split at h
  · exact h
  · exact h
  · exact fun hm => h (hsub _ hm)
  · exact fun hm => h (hsub _ hm)
  · exact h

-- ── The order of `Sent` and the receipt ─────────────────────────────────────

/-- Executing a command, with the action `u` in progress. -/
def Agent.WaitingOn (m : Agent) (u : Uuid) : Prop :=
  m.state.working = true ∧ u ∈ m.inProgress

def IsSent (u : Uuid) (i : Input) : Prop :=
  ∃ action, i.event = resultEvent u action .sent

def IsReceipt (u : Uuid) (i : Input) : Prop :=
  ∃ r : ExecutionReceipt, i.event = receiptEvent r ∧ r.actionUuid = u ∧ r.err = none

/-- The run does not fail and ends in `success`. -/
def EndsInSuccess (m : Agent) (is : List Input) : Prop :=
  ∃ m' out, run handle m is = some (m', out) ∧ m'.state = .success

/-- `Sent` and the receipt lead to `success` in either order, whatever unrelated
    events come between them. -/
def Agent.LandsInEitherOrder (m : Agent) (u : Uuid) : Prop :=
  ∀ (sent receipt : Input) (between : List Input), IsSent u sent → IsReceipt u receipt →
    (∀ i ∈ between, Unrelated m.inProgress i) →
    EndsInSuccess m (sent :: between ++ [receipt]) ∧
      EndsInSuccess m (receipt :: between ++ [sent])

/-- The receipt first: the command is complete, and `Sent` comes too late to matter. -/
theorem receipt_then_sent {m : Agent} {u : Uuid} {sent receipt : Input}
    {between : List Input} (hwait : m.WaitingOn u) (hsent : IsSent u sent)
    (hrec : IsReceipt u receipt) (hbetween : ∀ i ∈ between, Unrelated m.inProgress i) :
    run handle m (receipt :: between ++ [sent]) = some (⟨.success, m.forget u⟩, []) := by
  obtain ⟨hw, hmem⟩ := hwait
  obtain ⟨action, hsent⟩ := hsent
  obtain ⟨r, hev, rfl, herr⟩ := hrec
  have hfirst := handle_receipt hw hev herr hmem
  have hmid := run_unrelated (m := ⟨.success, m.forget r.actionUuid⟩) (Or.inr rfl)
    (fun i hi => (hbetween i hi).mono (fun v hv => mem_of_mem_drop hv)) [sent]
  have hlast : handle ⟨.success, m.forget r.actionUuid⟩ sent
      = some (⟨.success, m.forget r.actionUuid⟩, []) := by
    refine handle_unrelated (Or.inr rfl) ?_
    rw [Unrelated]
    rw [hsent]
    show r.actionUuid ∉ _
    intro hm
    simpa using (List.mem_filter.mp hm).2
  rw [List.cons_append, run_cons, hfirst, Option.bind_some, hmid, run_cons, hlast]
  rfl

/-- `Sent` first: the agent stays where it is and the receipt is ignored. -/
theorem sent_then_receipt {m : Agent} {u : Uuid} {sent receipt : Input}
    {between : List Input} (hwait : m.WaitingOn u) (hsent : IsSent u sent)
    (hrec : IsReceipt u receipt) (hbetween : ∀ i ∈ between, Unrelated m.inProgress i) :
    run handle m (sent :: between ++ [receipt]) = some (⟨m.state, m.forget u⟩, []) := by
  obtain ⟨hw, hmem⟩ := hwait
  obtain ⟨action, hsent⟩ := hsent
  obtain ⟨r, hev, rfl, herr⟩ := hrec
  have hfirst := handle_sent hw hsent hmem
  have hmid := run_unrelated (m := ⟨m.state, m.forget r.actionUuid⟩) (Or.inl hw)
    (fun i hi => (hbetween i hi).mono (fun v hv => mem_of_mem_drop hv)) [receipt]
  have hlast : handle ⟨m.state, m.forget r.actionUuid⟩ receipt
      = some (⟨m.state, m.forget r.actionUuid⟩, []) := by
    refine handle_unrelated (Or.inl hw) ?_
    rw [Unrelated]
    rw [hev]
    show r.actionUuid ∉ _
    intro hm
    simpa using (List.mem_filter.mp hm).2
  rw [List.cons_append, run_cons, hfirst, Option.bind_some, hmid, run_cons, hlast]
  rfl

/-- **THE RECEIPT AFTER `Sent` IS LOST**, in every waiting state: the two events lead
    to `success` in one order only, with any unrelated events between them. -/
theorem receipt_after_sent_is_lost (m : Agent) (u : Uuid) (hwait : m.WaitingOn u) :
    ¬ m.LandsInEitherOrder u ∧
      ∀ (sent receipt : Input) (between : List Input), IsSent u sent →
        IsReceipt u receipt → (∀ i ∈ between, Unrelated m.inProgress i) →
        ¬ EndsInSuccess m (sent :: between ++ [receipt]) ∧
          EndsInSuccess m (receipt :: between ++ [sent]) := by
  have hboth : ∀ (sent receipt : Input) (between : List Input), IsSent u sent →
      IsReceipt u receipt → (∀ i ∈ between, Unrelated m.inProgress i) →
      ¬ EndsInSuccess m (sent :: between ++ [receipt]) ∧
        EndsInSuccess m (receipt :: between ++ [sent]) := by
    intro sent receipt between hsent hrec hbetween
    refine ⟨?_, _, _, receipt_then_sent hwait hsent hrec hbetween, rfl⟩
    rintro ⟨m', out, hrun, hsucc⟩
    rw [sent_then_receipt hwait hsent hrec hbetween] at hrun
    obtain ⟨rfl, -⟩ := Prod.mk.inj (Option.some.inj hrun)
    have hw := hwait.1
    rw [show m.state = .success from hsucc] at hw
    cases hw
  refine ⟨?_, hboth⟩
  intro hland
  -- some report and some receipt for `u` exist, so the property can be put to the test
  let action := SolanaAction.new u 0 ⟨default, 0⟩ []
  let sent : Input := ⟨resultEvent u action .sent, 0, 0, u, 0⟩
  let receipt : Input := ⟨receiptEvent ⟨u, default, none, 0⟩, 0, 0, u, 0⟩
  have hsent : IsSent u sent := ⟨action, rfl⟩
  have hrec : IsReceipt u receipt := ⟨_, rfl, rfl, rfl⟩
  have hnil : ∀ i ∈ ([] : List Input), Unrelated m.inProgress i := fun i hi => absurd hi List.not_mem_nil
  exact (hboth sent receipt [] hsent hrec hnil).1 (hland sent receipt [] hsent hrec hnil).1

theorem buyingTrader_loses_receipt_after_sent :
    buyingTrader.1.WaitingOn ⟨1⟩ ∧ ¬ buyingTrader.1.LandsInEitherOrder ⟨1⟩ :=
  have hwait : buyingTrader.1.WaitingOn ⟨1⟩ := ⟨rfl, by decide⟩
  ⟨hwait, (receipt_after_sent_is_lost _ _ hwait).1⟩

/-- The executor reports the purchase as sent, then its receipt arrives: the trader
    is still buying. -/
theorem sent_then_receipt_leaves_trader_buying :
    ¬ ∀ (m : Agent) (u : Uuid), m.WaitingOn u → m.LandsInEitherOrder u := by
  intro hclaim
  let sent := input (resultEvent ⟨1⟩ (SolanaAction.new ⟨1⟩ 0 ⟨⟨1⟩, 1⟩ []) .sent) 5 ⟨9⟩
  have hland := hclaim buyingTrader.1 ⟨1⟩ ⟨rfl, by decide⟩ sent (receiptInput 10 ⟨1⟩) []
    ⟨_, rfl⟩ ⟨_, rfl, rfl, rfl⟩ (fun i hi => absurd hi List.not_mem_nil)
  obtain ⟨m', out, hrun, hsucc⟩ := hland.1
  obtain ⟨m, hm, hbuying⟩ : ∃ m, run handle buyingTrader.1 [sent, receiptInput 10 ⟨1⟩]
      = some (m, []) ∧ m.state = .buying .max 0 := ⟨_, rfl, rfl⟩
  have heq := hm.symm.trans hrun
  obtain ⟨rfl, -⟩ := Prod.mk.inj (Option.some.inj heq)
  rw [hbuying] at hsucc
  cases hsucc

end FoxfireAgent
