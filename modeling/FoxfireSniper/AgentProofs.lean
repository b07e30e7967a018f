import FoxfireSniper.AttemptProofs
import FoxfireSniper.MachineRunProofs

/-! # The volume agent's state machine

    `src/strategies/volume_strategy/agent/agent_state_machine.rs`, every state and
    every transition.  `handle` is one call of `StateMachine::handle`: the handler of
    the current state runs, and a transition runs the entry action of its target
    (also when the target is the state just left: that is how a retry queues its
    action).  `none` is a panic — the `unwrap` of an absent main wallet.

    What the agent asks of its surroundings is in the input: the event, the clock,
    the uuid that `Uuid::new_v4` would return and the token balance it would read.
    What it does to them is in the output: actions queued, the trader marked
    inactive, accounts no longer monitored.

    **`handle_cases`** says once what a step can do; the proofs about runs use it and
    never unfold the machine. -/

namespace FoxfireAgent

open FoxfireTypes FoxfireAttempt MachineRun

inductive State where
  | idle
  | transferring (batch : List SolanaTransferActionPayload) (retry : Nat)
  | collecting (retry : Nat)
  | buying (amt : Amount) (retry : Nat)
  | selling (amt : Amount) (retry : Nat)
  | success
  | error (msg : ErrorMsg)
  | deactivating (retry : Nat)
  | deactivated
  deriving DecidableEq, Repr

/-- `AgentState`: the storage the state handlers share. -/
structure AgentState where
  pool          : RaydiumPool
  agentKey      : Keypair
  mainWallet    : Option Keypair
  strategyIdOpt : Option StrategyId
  tracker       : ActionTracker
  deriving DecidableEq

/-- `StateMachine<AgentState>`. -/
structure Agent where
  state   : State
  storage : AgentState
  deriving DecidableEq

structure Input where
  event        : SolanaStrategyEvent
  /-- `Instant::now()` while the handler runs. -/
  now          : Instant
  /-- `Instant::now()` when an entry action queues its action. -/
  queuedAt     : Instant
  /-- What `Uuid::new_v4()` returns if an action is created. -/
  uuid         : Uuid
  /-- What `get_token_balance` returns in `collect`. -/
  tokenBalance : UInt64

inductive Effect where
  | queued (action : SolanaAction)
  | markInactive (wallet : Pubkey)
  | stopMonitoringAccount (account : Pubkey)
  | stopMonitoringTokenAccount (owner mint : Pubkey)
  deriving DecidableEq

/-- `AgentState::new(...).state_machine()`: a fresh machine, in its initial state. -/
def Agent.new (pool : RaydiumPool) (key : Keypair) (strategyIdOpt : Option StrategyId)
    (mainWallet : Option Keypair) (now : Instant) : Agent :=
  ⟨.idle, ⟨pool, key, mainWallet, strategyIdOpt, ActionTracker.new now⟩⟩

namespace AgentState

def pubkey (a : AgentState) : Pubkey := a.agentKey.pubkey

def isMainWallet (a : AgentState) : Bool := a.strategyIdOpt.isNone

def getMainWalletPubkey (a : AgentState) : Pubkey :=
  (a.mainWallet.getD a.agentKey).pubkey

/-- `queue_action`: bookkeeping, and the action goes to the strategy. -/
def queueAction (a : AgentState) (i : Input) (action : SolanaAction) :
    AgentState × List Effect :=
  ({ a with tracker := a.tracker.queueAction action.uuid i.queuedAt }, [.queued action])

/-- `drop`: mark the trader inactive and stop watching it; not for a main wallet. -/
def drop (a : AgentState) : List Effect :=
  if a.isMainWallet then []
  else [.markInactive a.pubkey, .stopMonitoringAccount a.pubkey,
    .stopMonitoringTokenAccount a.pubkey a.pool.baseMint]

/-- `transfer`: only a batch that sweeps SOL completely lets the main wallet pay. -/
def transfer (a : AgentState) (i : Input) (batch : List SolanaTransferActionPayload) :
    AgentState × List Effect :=
  let feePayer :=
    if batch.any (fun x => x.amount = .maxAndClose ∧ x.asset = .sol)
    then a.mainWallet.getD a.agentKey else a.agentKey
  a.queueAction i (SolanaAction.newWithFeepayer i.uuid i.queuedAt a.agentKey feePayer
    (batch.map .transfer))

/-- `buy_for_all`: swaps all SOL but the cost of a later transfer, whatever amount
    the `Buy` command carried. -/
def buyForAll (a : AgentState) (i : Input) : AgentState × List Effect :=
  a.queueAction i (SolanaAction.new i.uuid i.queuedAt a.agentKey
    [.swap ⟨a.pool.toLiquidityKeys, .buyTokensForExactSol, .maxButLeaveForTransfer, 0⟩])

def sell (a : AgentState) (i : Input) (amt : Amount) : AgentState × List Effect :=
  a.queueAction i (SolanaAction.new i.uuid i.queuedAt a.agentKey
    [.swap ⟨a.pool.toLiquidityKeys, .sellExactTokensForSol, amt, 0⟩])

/-- `collect`: sweep the tokens, if any, and the SOL to the main wallet, which pays
    the fee.  Panics without a main wallet. -/
def collect (a : AgentState) (i : Input) : Option (AgentState × List Effect) :=
  a.mainWallet.map fun w =>
    let tokens : List SolanaActionPayload :=
      if 0 < i.tokenBalance
      then [.transfer ⟨.token a.pool.baseMint, w.pubkey, .maxAndClose⟩] else []
    a.queueAction i (SolanaAction.newWithFeepayer i.uuid i.queuedAt a.agentKey w
      (tokens ++ [.transfer ⟨.sol, w.pubkey, .max⟩]))

/-- `transition_to_success_or_error`. -/
def transitionToSuccessOrError (a : AgentState) (i : Input) (retryAction : State)
    (retry : Nat) : AgentState × Response State :=
  match i.event with
  | .forAgent .deactivate =>
      (a, if a.getMainWalletPubkey = a.pubkey
        then .transition (.error .attemptToDeactivateMainWallet)
        else .transition (.deactivating 0))
  | event =>
      let r := attemptTransition i.now a.tracker event retryAction .success .error retry
      ({ a with tracker := r.1 }, r.2)

/-- The handlers of `idle` and `success`, which are the same. -/
def awaitCommand (a : AgentState) (i : Input) : AgentState × Response State :=
  match i.event with
  | .forAgent .deactivate =>
      (a, if a.isMainWallet then .handled else .transition .deactivated)
  | .forAgent (.transfer batch) => (a, .transition (.transferring batch 0))
  | .forAgent .collect          => (a, .transition (.collecting 0))
  | .forAgent (.buy amt)        => (a, .transition (.buying amt 0))
  | .forAgent (.sell amt)       => (a, .transition (.selling amt 0))
  | _                           => (a, .super)

/-- The handler of `deactivating`: unlike the other waiting states it ignores the
    executor's report and further commands, and a last timeout deactivates. -/
def deactivating (a : AgentState) (i : Input) (retry : Nat) :
    AgentState × Response State :=
  match i.event with
  | .original (.blockchainEvent (.executionReceipt receipt)) =>
      match a.tracker.processExecutionReceipt receipt with
      | (t, .ok (some _)) => ({ a with tracker := t }, .transition .deactivated)
      | (t, .ok none)     => ({ a with tracker := t }, .super)
      | (t, .error err)   =>
          ({ a with tracker := t }, retryOrError retry (.deactivating (retry + 1)) .error
            (.errorProcessingExecutionReceipt err))
  | .original (.heartBeat tick _) =>
      match a.tracker.isCooledDownBeforeRetry tick i.now with
      | (t, true)  =>
          ({ a with tracker := t },
            if retry ≤ retriesIfErrorOrTimeout then .transition (.deactivating (retry + 1))
            else .transition .deactivated)
      | (t, false) => ({ a with tracker := t }, .super)
  | _ => (a, .super)

end AgentState

/-- The handler of the current state. -/
def Agent.dispatch (m : Agent) (i : Input) : AgentState × Response State :=
  match m.state with
  | .idle => m.storage.awaitCommand i
  | .transferring batch retry =>
      m.storage.transitionToSuccessOrError i (.transferring batch (retry + 1)) retry
  | .collecting retry =>
      m.storage.transitionToSuccessOrError i (.collecting (retry + 1)) retry
  | .buying amt retry =>
      m.storage.transitionToSuccessOrError i (.buying amt (retry + 1)) retry
  | .selling amt retry =>
      m.storage.transitionToSuccessOrError i (.selling amt (retry + 1)) retry
  | .success => m.storage.awaitCommand i
  | .error _ =>
      (m.storage, if m.storage.isMainWallet then .transition .idle
        else .transition (.deactivating 0))
  | .deactivating retry => m.storage.deactivating i retry
  | .deactivated => (m.storage, .handled)

/-- The entry action of a state. -/
def AgentState.enter (a : AgentState) (i : Input) :
    State → Option (AgentState × List Effect)
  | .transferring batch _ => some (a.transfer i batch)
  | .collecting _         => a.collect i
  | .buying _ _           => some (a.buyForAll i)
  | .selling amt _        => some (a.sell i amt)
  | .deactivating _       => a.collect i
  | .deactivated          => some (a, a.drop)
  | .idle                 => some (a, [])
  | .success              => some (a, [])
  | .error _              => some (a, [])

/-- **ONE EVENT**: the handler of the state, then the entry action of the target. -/
def handle : Step Agent Input Effect := fun m i =>
  match m.dispatch i with
  | (a, .transition target) =>
      (a.enter i target).map fun p => (⟨target, p.1⟩, p.2)
  | (a, _) => some (⟨m.state, a⟩, [])

-- ── Reading states and outputs ──────────────────────────────────────────────

/-- The retry count of a state that waits for an action. -/
def State.retry : State → Option Nat
  | .transferring _ r => some r
  | .collecting r     => some r
  | .buying _ r       => some r
  | .selling _ r      => some r
  | .deactivating r   => some r
  | _                 => none

/-- Executing one of the commands `Transfer`, `Collect`, `Buy` and `Sell`. -/
def State.working : State → Bool
  | .transferring _ _ => true
  | .collecting _     => true
  | .buying _ _       => true
  | .selling _ _      => true
  | _                 => false

/-- The state that a retry of a waiting state enters. -/
def State.retried : State → State
  | .transferring batch r => .transferring batch (r + 1)
  | .collecting r         => .collecting (r + 1)
  | .buying amt r         => .buying amt (r + 1)
  | .selling amt r        => .selling amt (r + 1)
  | .deactivating r       => .deactivating (r + 1)
  | s                     => s

/-- The commands that set an agent to work. -/
def isCommand : SolanaStrategyEvent → Bool
  | .forAgent (.transfer _) => true
  | .forAgent .collect      => true
  | .forAgent (.buy _)      => true
  | .forAgent (.sell _)     => true
  | _                       => false

/-- The actions among the outputs. -/
def queuedActions (out : List Effect) : List SolanaAction :=
  out.filterMap fun
    | .queued action => some action
    | _              => none

abbrev Agent.inProgress (m : Agent) : List Uuid := m.storage.tracker.actionsInProgress

-- ── What a step can do ──────────────────────────────────────────────────────

/-- Everything one event can do to an agent. -/
inductive StepOutcome (m : Agent) (i : Input) (m' : Agent) (out : List Effect) : Prop where
  /-- Nothing is queued, no command starts and none succeeds. -/
  | quiet (hstate : m'.state = m.state ∨ (m'.state.working = false ∧ m'.state ≠ .success))
      (hsub : ∀ u ∈ m'.inProgress, u ∈ m.inProgress) (hout : queuedActions out = [])
  /-- A working agent gets the error-free receipt of an action in progress. -/
  | succeeded {r : ExecutionReceipt} (hwork : m.state.working = true)
      (hev : i.event = receiptEvent r) (herr : r.err = none)
      (hmem : r.actionUuid ∈ m.inProgress) (hstate : m'.state = .success)
      (hsub : ∀ u ∈ m'.inProgress, u ∈ m.inProgress) (hout : queuedActions out = [])
  /-- A command starts (or deactivation does), with its first action. -/
  | started {action : SolanaAction}
      (hcause : ((m.state = .idle ∨ m.state = .success) ∧ isCommand i.event = true) ∨
        m'.state.working = false)
      (hretry : m'.state.retry = some 0)
      (hin : m'.inProgress = m.inProgress ++ [i.uuid])
      (hout : queuedActions out = [action]) (huuid : action.uuid = i.uuid)
  /-- An action in progress failed and the command is retried. -/
  | retriedFailed {action : SolanaAction} {r : Nat} {u : Uuid}
      (hretry : m.state.retry = some r) (hstate : m'.state = m.state.retried)
      (hev : failedUuid i.event = some u) (hmem : u ∈ m.inProgress)
      (hin : m'.inProgress = m.inProgress.filter (fun x => x ≠ u) ++ [i.uuid])
      (hout : queuedActions out = [action]) (huuid : action.uuid = i.uuid)
  /-- The timeout fired and the command is retried. -/
  | retriedTimeout {action : SolanaAction} {r : Nat} {tick : TickSizeMs} {at_ : Instant}
      (hretry : m.state.retry = some r) (hstate : m'.state = m.state.retried)
      (hev : i.event = .original (.heartBeat tick at_))
      (htime : m.storage.tracker.timeoutTimer.isTimeElapsed tick i.now = true)
      (hin : m'.inProgress = m.inProgress ++ [i.uuid])
      (hout : queuedActions out = [action]) (huuid : action.uuid = i.uuid)

theorem retried_retry {s : State} {r : Nat} (h : s.retry = some r) :
    s.retried.retry = some (r + 1) := by
  cases s <;> simp_all [State.retry, State.retried]

theorem retried_working (s : State) : s.retried.working = s.working := by
  cases s <;> rfl

theorem retry_of_working {s : State} (h : s.working = true) : ∃ r, s.retry = some r := by
  cases s with
  | transferring _ r => exact ⟨r, rfl⟩
  | collecting r => exact ⟨r, rfl⟩
  | buying _ r => exact ⟨r, rfl⟩
  | selling _ r => exact ⟨r, rfl⟩
  | idle => cases h
  | success => cases h
  | error _ => cases h
  | deactivating _ => cases h
  | deactivated => cases h

/-- `collect` queues one action when there is a main wallet. -/
theorem collect_queues {a a' : AgentState} {i : Input} {out : List Effect}
    (h : a.collect i = some (a', out)) :
    ∃ action, queuedActions out = [action] ∧ action.uuid = i.uuid
      ∧ a'.tracker = a.tracker.queueAction i.uuid i.queuedAt := by
  rw [AgentState.collect] at h
  cases hw : a.mainWallet with
  | none => rw [hw] at h; cases h
  | some w =>
      rw [hw, Option.map_some, Option.some.injEq] at h
      obtain ⟨rfl, rfl⟩ := Prod.mk.inj h
      exact ⟨_, rfl, rfl, rfl⟩

/-- Entering a waiting state queues exactly one action, with the fresh uuid. -/
theorem enter_queues {a a' : AgentState} {i : Input} {s : State} {r : Nat}
    {out : List Effect} (hr : s.retry = some r) (h : a.enter i s = some (a', out)) :
    ∃ action, queuedActions out = [action] ∧ action.uuid = i.uuid
      ∧ a'.tracker = a.tracker.queueAction i.uuid i.queuedAt := by
  cases s with
  | transferring batch _ =>
      obtain ⟨rfl, rfl⟩ := Prod.mk.inj (Option.some.inj h)
      exact ⟨_, rfl, rfl, rfl⟩
  | collecting _ => exact collect_queues h
  | buying _ _ =>
      obtain ⟨rfl, rfl⟩ := Prod.mk.inj (Option.some.inj h)
      exact ⟨_, rfl, rfl, rfl⟩
  | selling _ _ =>
      obtain ⟨rfl, rfl⟩ := Prod.mk.inj (Option.some.inj h)
      exact ⟨_, rfl, rfl, rfl⟩
  | deactivating _ => exact collect_queues h
  | idle => cases hr
  | success => cases hr
  | error _ => cases hr
  | deactivated => cases hr

/-- Entering any other state queues nothing and keeps the storage. -/
theorem enter_quiet {a a' : AgentState} {i : Input} {s : State} {out : List Effect}
    (hr : s.retry = none) (h : a.enter i s = some (a', out)) :
    a' = a ∧ queuedActions out = [] := by
  cases s with
  | idle =>
      obtain ⟨rfl, rfl⟩ := Prod.mk.inj (Option.some.inj h)
      exact ⟨rfl, rfl⟩
  | success =>
      obtain ⟨rfl, rfl⟩ := Prod.mk.inj (Option.some.inj h)
      exact ⟨rfl, rfl⟩
  | error _ =>
      obtain ⟨rfl, rfl⟩ := Prod.mk.inj (Option.some.inj h)
      exact ⟨rfl, rfl⟩
  | deactivated =>
      obtain ⟨rfl, rfl⟩ := Prod.mk.inj (Option.some.inj h)
      refine ⟨rfl, ?_⟩
      rw [AgentState.drop]
      split <;> rfl
  | transferring _ _ => cases hr
  | collecting _ => cases hr
  | buying _ _ => cases hr
  | selling _ _ => cases hr
  | deactivating _ => cases hr

/-- A transition runs the entry action of its target. -/
theorem handle_transition {m m' : Agent} {i : Input} {out : List Effect} {a : AgentState}
    {target : State} (hd : m.dispatch i = (a, .transition target))
    (h : handle m i = some (m', out)) :
    m'.state = target ∧ a.enter i target = some (m'.storage, out) := by
  rw [handle] at h
  rw [hd] at h
  obtain ⟨p, hp, heq⟩ := Option.map_eq_some_iff.mp h
  obtain ⟨rfl, rfl⟩ := Prod.mk.inj heq
  exact ⟨rfl, hp⟩

/-- Without a transition nothing is output. -/
theorem handle_stay {m m' : Agent} {i : Input} {out : List Effect} {a : AgentState}
    {resp : Response State} (hd : m.dispatch i = (a, resp))
    (hresp : resp = .super ∨ resp = .handled) (h : handle m i = some (m', out)) :
    m' = ⟨m.state, a⟩ ∧ out = [] := by
  rw [handle] at h
  rw [hd] at h
  rcases hresp with rfl | rfl
  · obtain ⟨rfl, rfl⟩ := Prod.mk.inj (Option.some.inj h)
    exact ⟨rfl, rfl⟩
  · obtain ⟨rfl, rfl⟩ := Prod.mk.inj (Option.some.inj h)
    exact ⟨rfl, rfl⟩

/-- A transition to a waiting state queues one action, on top of what the handler
    left in progress. -/
theorem handle_enters {m m' : Agent} {i : Input} {out : List Effect} {a : AgentState}
    {target : State} {r : Nat} (hd : m.dispatch i = (a, .transition target))
    (hr : target.retry = some r) (h : handle m i = some (m', out)) :
    ∃ action, m'.state = target ∧ queuedActions out = [action] ∧ action.uuid = i.uuid
      ∧ m'.inProgress = a.tracker.actionsInProgress ++ [i.uuid] := by
  obtain ⟨hs, he⟩ := handle_transition hd h
  obtain ⟨action, hout, huuid, ht⟩ := enter_queues hr he
  refine ⟨action, hs, hout, huuid, ?_⟩
  show m'.storage.tracker.actionsInProgress = _
  rw [ht]
  rfl

/-- A transition to a state that waits for nothing queues nothing. -/
theorem handle_leaves {m m' : Agent} {i : Input} {out : List Effect} {a : AgentState}
    {target : State} (hd : m.dispatch i = (a, .transition target))
    (hr : target.retry = none) (h : handle m i = some (m', out)) :
    m'.state = target ∧ queuedActions out = []
      ∧ m'.inProgress = a.tracker.actionsInProgress := by
  obtain ⟨hs, he⟩ := handle_transition hd h
  obtain ⟨ha, hout⟩ := enter_quiet hr he
  refine ⟨hs, hout, ?_⟩
  show m'.storage.tracker.actionsInProgress = _
  rw [ha]

/-- After `retryOrError` the agent is in its error state, or it retries. -/
theorem handle_retryOrError {m m' : Agent} {i : Input} {out : List Effect} {r : Nat}
    {t : ActionTracker} {msg : ErrorMsg} (hr : m.state.retry = some r)
    (hd : m.dispatch i
      = ({ m.storage with tracker := t }, retryOrError r m.state.retried .error msg))
    (h : handle m i = some (m', out)) :
    (m'.state = .error msg ∧ queuedActions out = []
      ∧ m'.inProgress = t.actionsInProgress) ∨
    ∃ action, m'.state = m.state.retried ∧ queuedActions out = [action]
      ∧ action.uuid = i.uuid ∧ m'.inProgress = t.actionsInProgress ++ [i.uuid] := by
  rw [retryOrError] at hd
  by_cases hle : r ≤ retriesIfErrorOrTimeout
  · rw [if_pos hle] at hd
    exact Or.inr (handle_enters hd (retried_retry hr) h)
  · rw [if_neg hle] at hd
    exact Or.inl (handle_leaves hd rfl h)

/-- Leaving for a state that waits for nothing, other than `success`. -/
theorem StepOutcome.leaves {m m' : Agent} {i : Input} {out : List Effect} {target : State}
    {op : List Uuid} (hr : target.retry = none) (hne : target ≠ .success)
    (hsub : ∀ u ∈ op, u ∈ m.inProgress)
    (h : m'.state = target ∧ queuedActions out = [] ∧ m'.inProgress = op) :
    StepOutcome m i m' out := by
  obtain ⟨hs, hout, hin⟩ := h
  have hwork : target.working = false := by
    cases hw : target.working with
    | false => rfl
    | true =>
        obtain ⟨r, hr'⟩ := retry_of_working hw
        rw [hr] at hr'
        cases hr'
  refine .quiet (Or.inr ?_) ?_ hout
  · rw [hs]
    exact ⟨hwork, hne⟩
  · intro u hu
    rw [hin] at hu
    exact hsub u hu

/-- In a working state the handler is `transitionToSuccessOrError`. -/
theorem dispatch_working {m : Agent} {i : Input} {r : Nat}
    (hw : m.state.working = true) (hr : m.state.retry = some r) :
    m.dispatch i = m.storage.transitionToSuccessOrError i m.state.retried r := by
  rw [Agent.dispatch]
  cases hs : m.state with
  | transferring _ _ => rw [hs] at hr; cases hr; rfl
  | collecting _ => rw [hs] at hr; cases hr; rfl
  | buying _ _ => rw [hs] at hr; cases hr; rfl
  | selling _ _ => rw [hs] at hr; cases hr; rfl
  | idle => rw [hs] at hw; cases hw
  | success => rw [hs] at hw; cases hw
  | error _ => rw [hs] at hw; cases hw
  | deactivating _ => rw [hs] at hw; cases hw
  | deactivated => rw [hs] at hw; cases hw

/-- `idle` and `success` share a handler. -/
theorem dispatch_awaiting {m : Agent} (i : Input) (hs : m.state = .idle ∨ m.state = .success) :
    m.dispatch i = m.storage.awaitCommand i := by
  rw [Agent.dispatch]
  rcases hs with hs | hs
  · rw [hs]
  · rw [hs]

/-- The states that do not wait for a command's action. -/
theorem not_working_cases {s : State} (h : s.working = false) :
    (s = .idle ∨ s = .success) ∨ (∃ msg, s = .error msg) ∨ (∃ r, s = .deactivating r)
      ∨ s = .deactivated := by
  cases s with
  | idle => exact Or.inl (Or.inl rfl)
  | success => exact Or.inl (Or.inr rfl)
  | error msg => exact Or.inr (Or.inl ⟨msg, rfl⟩)
  | deactivating r => exact Or.inr (Or.inr (Or.inl ⟨r, rfl⟩))
  | deactivated => exact Or.inr (Or.inr (Or.inr rfl))
  | transferring _ _ => cases h
  | collecting _ => cases h
  | buying _ _ => cases h
  | selling _ _ => cases h

/-- Working on a command, after any event but `Deactivate`. -/
theorem handle_working {m m' : Agent} {i : Input} {out : List Effect} {r : Nat}
    (hw : m.state.working = true) (hr : m.state.retry = some r)
    (hev : i.event ≠ .forAgent .deactivate) (h : handle m i = some (m', out)) :
    StepOutcome m i m' out := by
  have hd := dispatch_working (i := i) hw hr
  have hd' : m.dispatch i =
      ({ m.storage with tracker := (attemptTransition i.now m.storage.tracker i.event
          m.state.retried .success .error r).1 },
        (attemptTransition i.now m.storage.tracker i.event m.state.retried .success
          .error r).2) := by
    rw [hd]
    rw [AgentState.transitionToSuccessOrError]
    split
    · rename_i heq
      exact absurd heq hev
    · rfl
  have hcases := attemptTransition_cases i.now m.storage.tracker i.event m.state.retried
    .success .error r
  generalize (attemptTransition i.now m.storage.tracker i.event m.state.retried .success
    .error r).1 = t at hd' hcases
  generalize (attemptTransition i.now m.storage.tracker i.event m.state.retried .success
    .error r).2 = resp at hd' hcases
  cases hcases with
  | ignored hsub =>
      obtain ⟨rfl, rfl⟩ := handle_stay hd' (Or.inl rfl) h
      exact .quiet (Or.inl rfl) hsub rfl
  | succeeded hrec herr hmem =>
      obtain ⟨hs, hout, hin⟩ := handle_leaves hd' rfl h
      refine .succeeded hw hrec herr hmem hs ?_ hout
      intro u hu
      rw [hin] at hu
      exact mem_of_mem_drop hu
  | failed hfail hmem ht =>
      rcases handle_retryOrError hr hd' h with hleft | ⟨action, hs, hout, hu, hin⟩
      · rw [ht] at hleft
        exact .leaves rfl State.noConfusion (fun u hu => (List.mem_filter.mp hu).1) hleft
      · rw [ht] at hin
        exact .retriedFailed hr hs hfail hmem hin hout hu
  | timedOut hbeat htime ht =>
      rcases handle_retryOrError hr hd' h with hleft | ⟨action, hs, hout, hu, hin⟩
      · rw [ht] at hleft
        exact .leaves rfl State.noConfusion (fun u hu => hu) hleft
      · rw [ht] at hin
        exact .retriedTimeout hr hs hbeat htime hin hout hu

/-- A working agent told to deactivate. -/
theorem handle_deactivate {m m' : Agent} {i : Input} {out : List Effect} {r : Nat}
    (hw : m.state.working = true) (hr : m.state.retry = some r)
    (hev : i.event = .forAgent .deactivate) (h : handle m i = some (m', out)) :
    StepOutcome m i m' out := by
  have hd := dispatch_working (i := i) hw hr
  rw [AgentState.transitionToSuccessOrError] at hd
  rw [hev] at hd
  by_cases hmain : m.storage.getMainWalletPubkey = m.storage.pubkey
  · simp only [if_pos hmain] at hd
    exact .leaves rfl State.noConfusion (fun u hu => hu) (handle_leaves hd rfl h)
  · simp only [if_neg hmain] at hd
    obtain ⟨action, hs, hout, hu, hin⟩ := handle_enters hd rfl h
    refine .started (Or.inr ?_) ?_ hin hout hu
    · rw [hs]
      rfl
    · rw [hs]
      rfl

/-- `idle` and `success` wait for a command. -/
theorem handle_awaiting {m m' : Agent} {i : Input} {out : List Effect}
    (hs : m.state = .idle ∨ m.state = .success) (h : handle m i = some (m', out)) :
    StepOutcome m i m' out := by
  have hd := dispatch_awaiting i hs
  have hquiet : ∀ resp, m.dispatch i = (m.storage, resp) →
      resp = .super ∨ resp = .handled → StepOutcome m i m' out := by
    intro resp hd' hresp
    obtain ⟨rfl, rfl⟩ := handle_stay hd' hresp h
    exact .quiet (Or.inl rfl) (fun u hu => hu) rfl
  have hstart : ∀ target, isCommand i.event = true →
      m.dispatch i = (m.storage, .transition target) → target.retry = some 0 →
      StepOutcome m i m' out := by
    intro target hc hd' hr
    obtain ⟨action, hs', hout, hu, hin⟩ := handle_enters hd' hr h
    refine .started (Or.inl ⟨hs, hc⟩) ?_ hin hout hu
    rw [hs']
    exact hr
  rw [AgentState.awaitCommand] at hd
  split at hd
  · by_cases hm : m.storage.isMainWallet = true
    · simp only [if_pos hm] at hd
      exact hquiet _ hd (Or.inr rfl)
    · simp only [if_neg hm] at hd
      exact .leaves rfl State.noConfusion (fun u hu => hu) (handle_leaves hd rfl h)
  · rename_i hev
    exact hstart _ (by rw [hev]; rfl) hd rfl
  · rename_i hev
    exact hstart _ (by rw [hev]; rfl) hd rfl
  · rename_i hev
    exact hstart _ (by rw [hev]; rfl) hd rfl
  · rename_i hev
    exact hstart _ (by rw [hev]; rfl) hd rfl
  · exact hquiet _ hd (Or.inl rfl)

/-- The handler of `deactivating`. -/
theorem handle_deactivating {m m' : Agent} {i : Input} {out : List Effect} {r : Nat}
    (hs : m.state = .deactivating r) (h : handle m i = some (m', out)) :
    StepOutcome m i m' out := by
  have hd : m.dispatch i = m.storage.deactivating i r := by
    rw [Agent.dispatch]
    rw [hs]
  have hr : m.state.retry = some r := by
    rw [hs]
    rfl
  have hretried : m.state.retried = .deactivating (r + 1) := by
    rw [hs]
    rfl
  have hdone : ∀ t : ActionTracker,
      m.dispatch i = ({ m.storage with tracker := t }, .transition .deactivated) →
      (∀ u ∈ t.actionsInProgress, u ∈ m.inProgress) → StepOutcome m i m' out := by
    intro t hd' hsub
    exact .leaves rfl State.noConfusion hsub (handle_leaves hd' rfl h)
  have hstay : ∀ t : ActionTracker,
      m.dispatch i = ({ m.storage with tracker := t }, .super) →
      (∀ u ∈ t.actionsInProgress, u ∈ m.inProgress) → StepOutcome m i m' out := by
    intro t hd' hsub
    obtain ⟨rfl, rfl⟩ := handle_stay hd' (Or.inl rfl) h
    exact .quiet (Or.inl rfl) hsub rfl
  rw [AgentState.deactivating] at hd
  split at hd
  · rename_i receipt hev
    rcases processExecutionReceipt_cases m.storage.tracker receipt with
      ⟨_, heq⟩ | ⟨hm, herr, heq⟩ | ⟨err, hm, herr, heq⟩
    · rw [heq] at hd
      exact hstay _ hd (fun u hu => hu)
    · rw [heq] at hd
      exact hdone _ hd (fun u hu => mem_of_mem_drop hu)
    · rw [heq] at hd
      simp only [← hretried] at hd
      rcases handle_retryOrError hr hd h with hleft | ⟨action, hs', hout, hu, hin⟩
      · exact .leaves rfl State.noConfusion (fun u hu => (List.mem_filter.mp hu).1) hleft
      · exact .retriedFailed hr hs' (by rw [hev]; simp [failedUuid, herr]) hm hin hout hu
  · rename_i tick at_ hev
    rw [ActionTracker.isCooledDownBeforeRetry] at hd
    by_cases hel : m.storage.tracker.timeoutTimer.isTimeElapsed tick i.now = true
    · rw [if_pos hel] at hd
      by_cases hle : r ≤ retriesIfErrorOrTimeout
      · simp only [if_pos hle] at hd
        obtain ⟨action, hs', hout, hu, hin⟩ := handle_enters hd rfl h
        exact .retriedTimeout hr (hs'.trans hretried.symm) hev hel hin hout hu
      · simp only [if_neg hle] at hd
        exact hdone _ hd (fun u hu => hu)
    · rw [if_neg hel] at hd
      exact hstay _ hd (fun u hu => hu)
  · exact hstay m.storage.tracker hd (fun u hu => hu)

/-- **INVERSION**: every step of an agent is one of the five outcomes. -/
theorem handle_cases {m m' : Agent} {i : Input} {out : List Effect}
    (h : handle m i = some (m', out)) : StepOutcome m i m' out := by
  cases hw : m.state.working with
  | true =>
      obtain ⟨r, hr⟩ := retry_of_working hw
      by_cases hev : i.event = .forAgent .deactivate
      · exact handle_deactivate hw hr hev h
      · exact handle_working hw hr hev h
  | false =>
      rcases not_working_cases hw with hs | ⟨msg, hs⟩ | ⟨r, hs⟩ | hs
      · exact handle_awaiting hs h
      · -- the error state leaves on any event
        have hd : m.dispatch i = (m.storage, if m.storage.isMainWallet
            then .transition .idle else .transition (.deactivating 0)) := by
          rw [Agent.dispatch]
          rw [hs]
        by_cases hm : m.storage.isMainWallet = true
        · rw [if_pos hm] at hd
          exact .leaves rfl State.noConfusion (fun u hu => hu) (handle_leaves hd rfl h)
        · rw [if_neg hm] at hd
          obtain ⟨action, hs', hout, hu, hin⟩ := handle_enters hd rfl h
          refine .started (Or.inr ?_) ?_ hin hout hu
          · rw [hs']
            rfl
          · rw [hs']
            rfl
      · exact handle_deactivating hs h
      · have hd : m.dispatch i = (m.storage, .handled) := by
          rw [Agent.dispatch]
          rw [hs]
        obtain ⟨rfl, rfl⟩ := handle_stay hd (Or.inr rfl) h
        exact .quiet (Or.inl rfl) (fun u hu => hu) rfl

-- ── Which state comes next ──────────────────────────────────────────────────

/-- The state that a command asks for. -/
def commanded : SolanaStrategyEvent → Option State
  | .forAgent (.transfer batch) => some (.transferring batch 0)
  | .forAgent .collect          => some (.collecting 0)
  | .forAgent (.buy amt)        => some (.buying amt 0)
  | .forAgent (.sell amt)       => some (.selling amt 0)
  | _                           => none

/-- What a command asks for. -/
theorem commanded_cases {event : SolanaStrategyEvent} {s : State} (h : commanded event = some s) :
    (∃ batch, event = .forAgent (.transfer batch) ∧ s = .transferring batch 0) ∨
    (event = .forAgent .collect ∧ s = .collecting 0) ∨
    (∃ amt, event = .forAgent (.buy amt) ∧ s = .buying amt 0) ∨
    (∃ amt, event = .forAgent (.sell amt) ∧ s = .selling amt 0) := by
  cases event with
  | original e => cases h
  | forAgent command =>
      cases command with
      | transfer batch => exact Or.inl ⟨batch, rfl, (Option.some.inj h).symm⟩
      | collect => exact Or.inr (Or.inl ⟨rfl, (Option.some.inj h).symm⟩)
      | buy amt => exact Or.inr (Or.inr (Or.inl ⟨amt, rfl, (Option.some.inj h).symm⟩))
      | sell amt => exact Or.inr (Or.inr (Or.inr ⟨amt, rfl, (Option.some.inj h).symm⟩))
      | deactivate => cases h

theorem retry_of_commanded {event : SolanaStrategyEvent} {s : State}
    (h : commanded event = some s) : s.retry = some 0 := by
  rcases commanded_cases h with ⟨_, -, rfl⟩ | ⟨-, rfl⟩ | ⟨_, -, rfl⟩ | ⟨_, -, rfl⟩ <;> rfl

theorem working_of_commanded {event : SolanaStrategyEvent} {s : State}
    (h : commanded event = some s) : s.working = true := by
  rcases commanded_cases h with ⟨_, -, rfl⟩ | ⟨-, rfl⟩ | ⟨_, -, rfl⟩ | ⟨_, -, rfl⟩ <;> rfl

/-- The states an event can take an agent to. -/
inductive Turns (m : Agent) (event : SolanaStrategyEvent) : State → Prop where
  | stays : Turns m event m.state
  | retries {r : Nat} (hr : m.state.retry = some r) : Turns m event m.state.retried
  | succeeds (hw : m.state.working = true) : Turns m event .success
  | fails {r : Nat} {msg : ErrorMsg} (hr : m.state.retry = some r) : Turns m event (.error msg)
  | obeys {s : State} (hs : m.state = .idle ∨ m.state = .success)
      (hc : commanded event = some s) : Turns m event s
  /-- A main wallet in its error state forgets it at the next event, whatever it is. -/
  | recovers {msg : ErrorMsg} (hs : m.state = .error msg)
      (hm : m.storage.isMainWallet = true) : Turns m event .idle
  /-- Any other agent in its error state gives up. -/
  | givesUp {msg : ErrorMsg} (hs : m.state = .error msg)
      (hm : m.storage.isMainWallet = false) : Turns m event (.deactivating 0)
  | isDeactivated {r : Nat} (hs : m.state = .deactivating r) : Turns m event .deactivated
  /-- The command `Deactivate`. -/
  | deactivates {s : State} (hev : event = .forAgent .deactivate) : Turns m event s

theorem retryOrError_turns {m : Agent} {event : SolanaStrategyEvent} {r : Nat} {msg : ErrorMsg}
    {target : State} (hr : m.state.retry = some r)
    (h : retryOrError r m.state.retried .error msg = .transition target) :
    Turns m event target := by
  rw [retryOrError] at h
  split at h
  · cases h
    exact .retries hr
  · cases h
    exact .fails hr

/-- Where the handler of a working state leads. -/
inductive AttemptLeads (event : SolanaStrategyEvent) (retried : State) (r : Nat)
    (target : State) : Prop where
  | deactivates (hev : event = .forAgent .deactivate)
      (ht : target = .deactivating 0 ∨ target.retry = none)
  | succeeds (ht : target = .success)
  | retries {msg : ErrorMsg} (h : retryOrError r retried .error msg = .transition target)

theorem attempt_leads {a : AgentState} {i : Input} {retried target : State} {r : Nat}
    (h : (a.transitionToSuccessOrError i retried r).2 = .transition target) :
    AttemptLeads i.event retried r target := by
  rw [AgentState.transitionToSuccessOrError] at h
  split at h
  · next hev =>
      by_cases hmain : a.getMainWalletPubkey = a.pubkey
      · rw [if_pos hmain] at h
        cases h
        exact .deactivates hev (Or.inr rfl)
      · rw [if_neg hmain] at h
        cases h
        exact .deactivates hev (Or.inl rfl)
  · have hcases := attemptTransition_cases i.now a.tracker i.event retried .success .error r
    dsimp only at h
    generalize (attemptTransition i.now a.tracker i.event retried .success .error r).1 = t
      at hcases
    generalize (attemptTransition i.now a.tracker i.event retried .success .error r).2 = resp
      at hcases h
    cases hcases with
    | ignored hsub => cases h
    | succeeded hrec herr hmem =>
        cases h
        exact .succeeds rfl
    | failed hfail hmem ht => exact .retries h
    | timedOut hbeat htime ht => exact .retries h

/-- An agent that waits for a command obeys it, or is deactivated. -/
theorem await_leads {a : AgentState} {i : Input} {target : State}
    (h : (a.awaitCommand i).2 = .transition target) :
    (i.event = .forAgent .deactivate ∧ target = .deactivated) ∨
      commanded i.event = some target := by
  rw [AgentState.awaitCommand] at h
  split at h
  · next hev =>
      split at h
      · cases h
      · cases h
        exact Or.inl ⟨hev, rfl⟩
  · next hev => cases h; rw [hev]; exact Or.inr rfl
  · next hev => cases h; rw [hev]; exact Or.inr rfl
  · next hev => cases h; rw [hev]; exact Or.inr rfl
  · next hev => cases h; rw [hev]; exact Or.inr rfl
  · cases h

theorem attempt_turns {m : Agent} {i : Input} {r : Nat} {target : State}
    (hw : m.state.working = true) (hr : m.state.retry = some r)
    (h : (m.storage.transitionToSuccessOrError i m.state.retried r).2 = .transition target) :
    Turns m i.event target := by
  cases attempt_leads h with
  | deactivates hev => exact .deactivates hev
  | succeeds ht =>
      rw [ht]
      exact .succeeds hw
  | retries hretry => exact retryOrError_turns hr hretry

theorem await_turns {m : Agent} {i : Input} {target : State}
    (hs : m.state = .idle ∨ m.state = .success)
    (h : (m.storage.awaitCommand i).2 = .transition target) : Turns m i.event target := by
  rcases await_leads h with ⟨hev, -⟩ | hc
  · exact .deactivates hev
  · exact .obeys hs hc

theorem deactivating_turns {m : Agent} {i : Input} {r : Nat} {target : State}
    (hs : m.state = .deactivating r)
    (h : (m.storage.deactivating i r).2 = .transition target) : Turns m i.event target := by
  have hr : m.state.retry = some r := by
    rw [hs]
    rfl
  have hretried : State.deactivating (r + 1) = m.state.retried := by
    rw [hs]
    rfl
  rw [AgentState.deactivating] at h
  split at h
  · split at h
    · cases h
      exact .isDeactivated hs
    · cases h
    · rw [hretried] at h
      exact retryOrError_turns hr h
  · split at h
    · dsimp only at h
      split at h
      · cases h
        rw [hretried]
        exact .retries hr
      · cases h
        exact .isDeactivated hs
    · cases h
  · cases h

theorem dispatch_turns {m : Agent} {i : Input} {target : State}
    (h : (m.dispatch i).2 = .transition target) : Turns m i.event target := by
  cases hw : m.state.working with
  | true =>
      obtain ⟨r, hr⟩ := retry_of_working hw
      rw [dispatch_working hw hr] at h
      exact attempt_turns hw hr h
  | false =>
      rw [Agent.dispatch] at h
      rcases not_working_cases hw with (hs | hs) | ⟨msg, hs⟩ | ⟨r, hs⟩ | hs
      · rw [hs] at h
        exact await_turns (Or.inl hs) h
      · rw [hs] at h
        exact await_turns (Or.inr hs) h
      · rw [hs] at h
        cases hm : m.storage.isMainWallet with
        | true =>
            simp only [hm, if_true] at h
            cases h
            exact .recovers hs hm
        | false =>
            simp only [hm, Bool.false_eq_true, if_false] at h
            cases h
            exact .givesUp hs hm
      · rw [hs] at h
        exact deactivating_turns hs h
      · rw [hs] at h
        cases h

/-- **INVERSION, FOR THE STATE ALONE.** -/
theorem handle_turns {m m' : Agent} {i : Input} {out : List Effect}
    (h : handle m i = some (m', out)) : Turns m i.event m'.state := by
  cases hd : m.dispatch i with
  | mk a resp =>
      cases resp with
      | transition target =>
          obtain ⟨hs, -⟩ := handle_transition hd h
          rw [hs]
          exact dispatch_turns (congrArg Prod.snd hd)
      | handled =>
          obtain ⟨rfl, -⟩ := handle_stay hd (Or.inr rfl) h
          exact .stays
      | super =>
          obtain ⟨rfl, -⟩ := handle_stay hd (Or.inl rfl) h
          exact .stays

/-- An agent that waits for a command does what it is told. -/
theorem handle_commanded {m m' : Agent} {i : Input} {out : List Effect} {s : State}
    (hs : m.state = .idle ∨ m.state = .success) (hc : commanded i.event = some s)
    (h : handle m i = some (m', out)) : m'.state = s := by
  have hd : m.dispatch i = (m.storage, .transition s) := by
    rw [dispatch_awaiting i hs, AgentState.awaitCommand]
    split
    · next hev => rw [hev] at hc; cases hc
    · next hev => rw [hev] at hc; cases hc; rfl
    · next hev => rw [hev] at hc; cases hc; rfl
    · next hev => rw [hev] at hc; cases hc; rfl
    · next hev => rw [hev] at hc; cases hc; rfl
    · next h₁ h₂ h₃ h₄ h₅ =>
        -- the event is none of the commands
        rw [commanded] at hc
        · cases hc
        · exact h₂
        · exact h₃
        · exact h₄
        · exact h₅
  exact (handle_transition hd h).1

end FoxfireAgent
