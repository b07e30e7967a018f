import FoxfireSniper.AttemptProofs
import FoxfireSniper.MachineRunProofs

/-! # The sniper agent's state machine

    `src/strategies/sniper_strategy/agent/agent_state_machine.rs`, every state and
    every transition.  A snipe waits for its delay, buys once for a fixed size, waits
    for the take-profit, the stop-loss or the exit horizon, sells and is done.

    The waiting states share `conditional_transition` with the volume agent up to the
    state that success leads to; `selling` passes `retry + 1` to it, so it gives up one
    attempt earlier.  `none` is a panic: `waiting_to_sell` unwraps the pool's price
    from the cache.

    Answers of the RPC pool, of the price cache and of the clock are in the input. -/

namespace FoxfireSnipe

open FoxfireTypes FoxfireAttempt MachineRun

inductive State where
  | waitingToBuy
  | buying (amt : Amount) (retry : Nat)
  | waitingToSell
  | selling (amt : Amount) (retry : Nat)
  | done
  | error (msg : ErrorMsg)
  deriving DecidableEq, Repr

/-- `SnipingStrategyInstance`, as far as an agent reads it. -/
structure SnipingStrategyInstance where
  sizeSol                 : ℚ
  stopLossPercentMoveDown : ℚ
  takeProfitPercentMoveUp : ℚ
  forceExitHorizonS       : Int
  buyDelayMs              : Int
  skipIfPriceDropsPercent : ℚ
  deriving DecidableEq

structure SniperAgentState where
  pool                    : RaydiumPool
  agentKey                : Keypair
  snipingStrategyInstance : SnipingStrategyInstance
  tracker                 : ActionTracker
  buyDelayTimer           : Instant
  whenBoughtTimer         : Instant
  deployPrice             : RaydiumPoolPriceUpdate
  buyPrice                : RaydiumPoolPriceUpdate
  lastTime                : UInt64
  deriving DecidableEq

/-- `StateMachine<SniperAgentState>`; the entry action of the initial state runs when
    the first event is handled. -/
structure Sniper where
  state       : State
  storage     : SniperAgentState
  initialized : Bool
  deriving DecidableEq

structure Input where
  event       : SolanaStrategyEvent
  /-- `Instant::now()` in the entry action of the initial state, at the first event. -/
  initAt      : Instant
  /-- `Instant::now()` while the handler runs. -/
  now         : Instant
  /-- `Instant::now()` in the entry action of the target. -/
  enteredAt   : Instant
  /-- What `Uuid::new_v4()` returns if an action is created. -/
  uuid        : Uuid
  /-- `rpc_pool.get_pool_details`, `none` for an error. -/
  poolDetails : Option RaydiumPool
  /-- `rpc_pool.get_pool_price`, `none` for an error. -/
  poolPrice   : Option RaydiumPoolPriceUpdate
  /-- The price the cache holds for the pool before the entry action. -/
  cachedPrice : Option RaydiumPoolPriceUpdate

inductive Effect where
  | queued (action : SolanaAction)
  | insertTargetPool (pool : Pubkey) (details : RaydiumPool)
  | insertTargetPoolPrice (pool : Pubkey) (price : RaydiumPoolPriceUpdate)
  | removeTargetPool (pool : Pubkey)
  | stopMonitoringAccount (account : Pubkey)
  | stopMonitoringTokenAccount (owner mint : Pubkey)
  deriving DecidableEq

/-- `SniperAgentState::new(...).state_machine()`. -/
def Sniper.new (pool : RaydiumPool) (key : Keypair) (inst : SnipingStrategyInstance)
    (deployPrice : RaydiumPoolPriceUpdate) (now : Instant) : Sniper :=
  ⟨.waitingToBuy, ⟨pool, key, inst, ActionTracker.new now, now, now, deployPrice, default, 0⟩,
    false⟩

/-- `num / den > bound` on finite `f64`s: dividing by zero gives an infinity with the
    sign of `num`, or NaN, which compares as false. -/
def quotientExceeds (num den bound : ℚ) : Bool :=
  if den = 0 then 0 < num else bound < num / den

/-- The price update that an event carries. -/
def priceUpdateOf : SolanaStrategyEvent → Option RaydiumPoolPriceUpdate
  | .original (.blockchainEvent (.raydiumHeartbeatPriceUpdate u)) => some u
  | .original (.blockchainEvent (.raydiumSwapEvent e))            => some e.priceUpdate
  | _                                                             => none

namespace SniperAgentState

def queueAction (a : SniperAgentState) (i : Input) (action : SolanaAction) :
    SniperAgentState × List Effect :=
  ({ a with tracker := a.tracker.queueAction action.uuid i.enteredAt }, [.queued action])

/-- `set_buy_delay_timer`. -/
def setBuyDelayTimer (a : SniperAgentState) (now : Instant) : SniperAgentState :=
  { a with buyDelayTimer := now }

def buy (a : SniperAgentState) (i : Input) (amt : Amount) : SniperAgentState × List Effect :=
  a.queueAction i (SolanaAction.new i.uuid i.enteredAt a.agentKey
    [.swap ⟨a.pool.toLiquidityKeys, .buyTokensForExactSol, amt, 0⟩])

def sell (a : SniperAgentState) (i : Input) (amt : Amount) : SniperAgentState × List Effect :=
  a.queueAction i (SolanaAction.new i.uuid i.enteredAt a.agentKey
    [.swap ⟨a.pool.toLiquidityKeys, .sellExactTokensForSol, amt, 0⟩])

/-- `set_when_bought_timer`: refresh the pool and its price if the RPC answers, and
    take the cached price as the buy price. -/
def setWhenBoughtTimer (a : SniperAgentState) (i : Input) :
    Option (SniperAgentState × List Effect) :=
  (i.poolPrice <|> i.cachedPrice).map fun price =>
    ({ a with whenBoughtTimer := i.enteredAt, buyPrice := price },
      (i.poolDetails.map (Effect.insertTargetPool a.pool.id)).toList
        ++ (i.poolPrice.map (Effect.insertTargetPoolPrice a.pool.id)).toList)

def stopMonitoring (a : SniperAgentState) : List Effect :=
  [.removeTargetPool a.pool.id, .stopMonitoringAccount a.agentKey.pubkey,
    .stopMonitoringTokenAccount a.agentKey.pubkey a.pool.baseMint]

/-- The handler of `waiting_to_buy`: an expired delay buys, whatever the price; before
    that, a price drop ends the snipe. -/
def waitingToBuy (a : SniperAgentState) (i : Input) : Response State :=
  let delay := a.snipingStrategyInstance.buyDelayMs
  if delay = 0 ∨ delay % 2 ^ 128 < (i.now - a.buyDelayTimer : Nat) then
    .transition (.buying (.exact (solToLamports a.snipingStrategyInstance.sizeSol)) 0)
  else
    match priceUpdateOf i.event with
    | some u =>
        if u.pool = a.pool.id ∧ quotientExceeds (100 * (a.deployPrice.price - u.price))
            a.deployPrice.price a.snipingStrategyInstance.skipIfPriceDropsPercent
        then .transition .done else .super
    | none => .super

/-- Whole seconds since the purchase. -/
def secondsHeld (a : SniperAgentState) (i : Input) : Nat := (i.now - a.whenBoughtTimer) / 1000

/-- The tail of `waiting_to_sell`: remember when the remaining time was last logged. -/
def noteTime (a : SniperAgentState) (i : Input) : SniperAgentState :=
  let elapsed := UInt64.ofNat (a.secondsHeld i)
  if 1 < elapsed - a.lastTime then { a with lastTime := elapsed } else a

/-- The handler of `waiting_to_sell`. -/
def waitingToSell (a : SniperAgentState) (i : Input) : SniperAgentState × Response State :=
  if a.snipingStrategyInstance.forceExitHorizonS % 2 ^ 64 < (a.secondsHeld i : Nat) then
    (a, .transition (.selling .maxAndClose 0))
  else
    match priceUpdateOf i.event with
    | some u =>
        if u.pool = a.pool.id ∧
            u.price < a.buyPrice.price * a.snipingStrategyInstance.stopLossPercentMoveDown
        then (a, .transition (.selling .max 0))
        else if u.pool = a.pool.id ∧
            u.price > a.buyPrice.price * a.snipingStrategyInstance.takeProfitPercentMoveUp
        then (a, .transition (.selling .max 0))
        else (a.noteTime i, .super)
    | none => (a.noteTime i, .super)

/-- `conditional_transition`. -/
def conditionalTransition (a : SniperAgentState) (i : Input)
    (retryAction transitionOnSuccess : State) (retry : Nat) :
    SniperAgentState × Response State :=
  let r := attemptTransition i.now a.tracker i.event retryAction transitionOnSuccess
    .error retry
  ({ a with tracker := r.1 }, r.2)

/-- The handler of the current state. -/
def dispatch (a : SniperAgentState) (i : Input) : State → SniperAgentState × Response State
  | .waitingToBuy      => (a, a.waitingToBuy i)
  | .buying amt retry  =>
      a.conditionalTransition i (.buying amt (retry + 1)) .waitingToSell retry
  | .waitingToSell     => a.waitingToSell i
  | .selling _ retry   =>
      a.conditionalTransition i (.selling .max (retry + 1)) .done (retry + 1)
  | .done              => (a, .handled)
  | .error _           => (a, .handled)

/-- The entry action of a state. -/
def enter (a : SniperAgentState) (i : Input) : State → Option (SniperAgentState × List Effect)
  | .waitingToBuy  => some (a.setBuyDelayTimer i.enteredAt, [])
  | .buying amt _  => some (a.buy i amt)
  | .waitingToSell => a.setWhenBoughtTimer i
  | .selling amt _ => some (a.sell i amt)
  | .done          => some (a, a.stopMonitoring)
  | .error _       => some (a, [])

end SniperAgentState

/-- The storage that a handler sees: at the first event, the initial state has just
    been entered. -/
def Sniper.ready (m : Sniper) (i : Input) : SniperAgentState :=
  if m.initialized then m.storage else m.storage.setBuyDelayTimer i.initAt

/-- **ONE EVENT**: the handler of the state, then the entry action of the target. -/
def handle : Step Sniper Input Effect := fun m i =>
  match (m.ready i).dispatch i m.state with
  | (a, .transition target) => (a.enter i target).map fun p => (⟨target, p.1, true⟩, p.2)
  | (a, _)                  => some (⟨m.state, a, true⟩, [])

-- ── Reading states and outputs ──────────────────────────────────────────────

/-- The retry count of a state that waits for an action. -/
def State.retry : State → Option Nat
  | .buying _ r  => some r
  | .selling _ r => some r
  | _            => none

/-- The state that a retry enters: a sale is retried for everything that is left. -/
def State.retried : State → State
  | .buying amt r => .buying amt (r + 1)
  | .selling _ r  => .selling .max (r + 1)
  | s             => s

def queuedActions (out : List Effect) : List SolanaAction :=
  out.filterMap fun
    | .queued action => some action
    | _              => none

abbrev Sniper.inProgress (m : Sniper) : List Uuid := m.storage.tracker.actionsInProgress

/-- The steps of the action that a waiting state queues when it is entered. -/
def State.payload (pool : RaydiumPool) : State → List SolanaActionPayload
  | .buying amt _  => [.swap ⟨pool.toLiquidityKeys, .buyTokensForExactSol, amt, 0⟩]
  | .selling amt _ => [.swap ⟨pool.toLiquidityKeys, .sellExactTokensForSol, amt, 0⟩]
  | _              => []

theorem retried_retry {s : State} {r : Nat} (h : s.retry = some r) :
    s.retried.retry = some (r + 1) := by
  cases s <;> simp_all [State.retry, State.retried]

-- ── What a step can do ──────────────────────────────────────────────────────

/-- Exactly one action is queued, for the state just entered, on top of `op`. -/
structure Queues (i : Input) (m' : Sniper) (out : List Effect) (op : List Uuid)
    (action : SolanaAction) : Prop where
  inProgress : m'.inProgress = op ++ [i.uuid]
  out        : queuedActions out = [action]
  uuid       : action.uuid = i.uuid
  payload    : action.actionPayload = m'.state.payload m'.storage.pool

/-- Everything one event can do to a sniper. -/
inductive StepOutcome (m : Sniper) (i : Input) (m' : Sniper) (out : List Effect) : Prop where
  /-- Nothing is queued. -/
  | quiet (hstate : m'.state = m.state ∨ m'.state.retry = none ∧ m'.state ≠ .waitingToBuy)
      (hsub : ∀ u ∈ m'.inProgress, u ∈ m.inProgress) (hout : queuedActions out = [])
  /-- The snipe buys, for its size. -/
  | bought {action : SolanaAction} (hfrom : m.state = .waitingToBuy)
      (hstate : m'.state
        = .buying (.exact (solToLamports m.storage.snipingStrategyInstance.sizeSol)) 0)
      (hq : Queues i m' out m.inProgress action)
  /-- The snipe sells. -/
  | sold {action : SolanaAction} {amt : Amount} (hfrom : m.state = .waitingToSell)
      (hstate : m'.state = .selling amt 0) (hq : Queues i m' out m.inProgress action)
  /-- An action in progress failed and is retried. -/
  | retriedFailed {action : SolanaAction} {r : Nat} {u : Uuid}
      (hretry : m.state.retry = some r) (hstate : m'.state = m.state.retried)
      (hev : failedUuid i.event = some u) (hmem : u ∈ m.inProgress)
      (hq : Queues i m' out (m.inProgress.filter (fun x => x ≠ u)) action)
  /-- The timeout fired and the action is retried. -/
  | retriedTimeout {action : SolanaAction} {r : Nat} {tick : TickSizeMs} {at_ : Instant}
      (hretry : m.state.retry = some r) (hstate : m'.state = m.state.retried)
      (hev : i.event = .original (.heartBeat tick at_))
      (hq : Queues i m' out m.inProgress action)

/-- A handler sees the storage, up to the delay timer. -/
theorem ready_eq (m : Sniper) (i : Input) :
    ∃ t, m.ready i = { m.storage with buyDelayTimer := t } := by
  rw [Sniper.ready]
  split
  · exact ⟨_, rfl⟩
  · exact ⟨_, rfl⟩

theorem ready_keeps (m : Sniper) (i : Input) :
    (m.ready i).tracker = m.storage.tracker ∧ (m.ready i).pool = m.storage.pool ∧
      (m.ready i).snipingStrategyInstance = m.storage.snipingStrategyInstance := by
  obtain ⟨t, ht⟩ := ready_eq m i
  rw [ht]
  exact ⟨rfl, rfl, rfl⟩

/-- A transition runs the entry action of its target. -/
theorem handle_transition {m m' : Sniper} {i : Input} {out : List Effect}
    {a : SniperAgentState} {target : State}
    (hd : (m.ready i).dispatch i m.state = (a, .transition target))
    (h : handle m i = some (m', out)) :
    m'.state = target ∧ a.enter i target = some (m'.storage, out) := by
  simp only [handle, hd] at h
  obtain ⟨p, hp, heq⟩ := Option.map_eq_some_iff.mp h
  obtain ⟨rfl, rfl⟩ := Prod.mk.inj heq
  exact ⟨rfl, hp⟩

/-- Without a transition nothing is output. -/
theorem handle_stay {m m' : Sniper} {i : Input} {out : List Effect} {a : SniperAgentState}
    {resp : Response State} (hd : (m.ready i).dispatch i m.state = (a, resp))
    (hresp : resp = .super ∨ resp = .handled) (h : handle m i = some (m', out)) :
    m' = ⟨m.state, a, true⟩ ∧ out = [] := by
  rcases hresp with rfl | rfl
  · simp only [handle, hd] at h
    obtain ⟨rfl, rfl⟩ := Prod.mk.inj (Option.some.inj h)
    exact ⟨rfl, rfl⟩
  · simp only [handle, hd] at h
    obtain ⟨rfl, rfl⟩ := Prod.mk.inj (Option.some.inj h)
    exact ⟨rfl, rfl⟩

/-- A transition to a waiting state queues one action. -/
theorem handle_enters {m m' : Sniper} {i : Input} {out : List Effect}
    {a : SniperAgentState} {target : State} {r : Nat}
    (hd : (m.ready i).dispatch i m.state = (a, .transition target))
    (hr : target.retry = some r) (h : handle m i = some (m', out)) :
    m'.state = target ∧ ∃ action, Queues i m' out a.tracker.actionsInProgress action := by
  obtain ⟨hs, he⟩ := handle_transition hd h
  refine ⟨hs, ?_⟩
  cases target with
  | buying amt n =>
      simp only [SniperAgentState.enter, SniperAgentState.buy, SniperAgentState.queueAction,
        Option.some.injEq, Prod.mk.injEq] at he
      obtain ⟨hst, rfl⟩ := he
      refine ⟨_, ?_, rfl, rfl, ?_⟩
      · show m'.storage.tracker.actionsInProgress = _
        rw [← hst]
        rfl
      · rw [hs, ← hst]
        rfl
  | selling amt n =>
      simp only [SniperAgentState.enter, SniperAgentState.sell, SniperAgentState.queueAction,
        Option.some.injEq, Prod.mk.injEq] at he
      obtain ⟨hst, rfl⟩ := he
      refine ⟨_, ?_, rfl, rfl, ?_⟩
      · show m'.storage.tracker.actionsInProgress = _
        rw [← hst]
        rfl
      · rw [hs, ← hst]
        rfl
  | waitingToBuy => cases hr
  | waitingToSell => cases hr
  | done => cases hr
  | error msg => cases hr

/-- The outputs of `set_when_bought_timer` are cache updates only. -/
theorem setWhenBoughtTimer_quiet {a a' : SniperAgentState} {i : Input} {out : List Effect}
    (h : a.setWhenBoughtTimer i = some (a', out)) :
    a'.tracker = a.tracker ∧ queuedActions out = [] := by
  simp only [SniperAgentState.setWhenBoughtTimer] at h
  obtain ⟨price, -, heq⟩ := Option.map_eq_some_iff.mp h
  obtain ⟨rfl, rfl⟩ := Prod.mk.inj heq
  refine ⟨rfl, ?_⟩
  cases i.poolDetails <;> cases i.poolPrice <;> rfl

/-- A transition to any other state queues nothing. -/
theorem handle_leaves {m m' : Sniper} {i : Input} {out : List Effect}
    {a : SniperAgentState} {target : State}
    (hd : (m.ready i).dispatch i m.state = (a, .transition target))
    (hr : target.retry = none) (hne : target ≠ .waitingToBuy)
    (hsub : ∀ u ∈ a.tracker.actionsInProgress, u ∈ m.inProgress)
    (h : handle m i = some (m', out)) : StepOutcome m i m' out := by
  obtain ⟨hs, he⟩ := handle_transition hd h
  have hquiet : m'.storage.tracker = a.tracker ∧ queuedActions out = [] := by
    cases target with
    | waitingToBuy => exact absurd rfl hne
    | waitingToSell => exact setWhenBoughtTimer_quiet he
    | done =>
        obtain ⟨hst, rfl⟩ := Prod.mk.inj (Option.some.inj he)
        rw [← hst]
        exact ⟨rfl, rfl⟩
    | error msg =>
        obtain ⟨hst, rfl⟩ := Prod.mk.inj (Option.some.inj he)
        rw [← hst]
        exact ⟨rfl, rfl⟩
    | buying amt n => cases hr
    | selling amt n => cases hr
  refine .quiet (Or.inr ?_) ?_ hquiet.2
  · rw [hs]
    exact ⟨hr, hne⟩
  · intro u hu
    refine hsub u ?_
    rw [← hquiet.1]
    exact hu

/-- The two states that wait for an action, `buying` and `selling`. -/
theorem handle_attempt {m m' : Sniper} {i : Input} {out : List Effect} {r n : Nat}
    {success : State} (hr : m.state.retry = some r)
    (hd : (m.ready i).dispatch i m.state
      = (m.ready i).conditionalTransition i m.state.retried success n)
    (hsucc : success.retry = none) (hne : success ≠ .waitingToBuy)
    (h : handle m i = some (m', out)) : StepOutcome m i m' out := by
  obtain ⟨htr, -, -⟩ := ready_keeps m i
  have hcases := attemptTransition_cases i.now (m.ready i).tracker i.event m.state.retried
    success .error n
  simp only [SniperAgentState.conditionalTransition] at hd
  generalize (attemptTransition i.now (m.ready i).tracker i.event m.state.retried success
    .error n).1 = t at hd hcases
  generalize (attemptTransition i.now (m.ready i).tracker i.event m.state.retried success
    .error n).2 = resp at hd hcases
  rw [htr] at hcases
  cases hcases with
  | ignored hsub =>
      obtain ⟨rfl, rfl⟩ := handle_stay hd (Or.inl rfl) h
      exact .quiet (Or.inl rfl) hsub rfl
  | succeeded _ _ _ =>
      exact handle_leaves hd hsucc hne (fun u hu => mem_of_mem_drop hu) h
  | failed hfail hmem ht =>
      by_cases hle : n ≤ retriesIfErrorOrTimeout
      · simp only [retryOrError, if_pos hle] at hd
        obtain ⟨hs, action, hq⟩ := handle_enters hd (retried_retry hr) h
        simp only [ht] at hq
        exact .retriedFailed hr hs hfail hmem hq
      · simp only [retryOrError, if_neg hle] at hd
        refine handle_leaves hd rfl State.noConfusion ?_ h
        intro u hu
        simp only [ht] at hu
        exact (List.mem_filter.mp hu).1
  | timedOut hbeat _ ht =>
      by_cases hle : n ≤ retriesIfErrorOrTimeout
      · simp only [retryOrError, if_pos hle] at hd
        obtain ⟨hs, action, hq⟩ := handle_enters hd (retried_retry hr) h
        simp only [ht] at hq
        exact .retriedTimeout hr hs hbeat hq
      · simp only [retryOrError, if_neg hle] at hd
        refine handle_leaves hd rfl State.noConfusion ?_ h
        intro u hu
        simp only [ht] at hu
        exact hu

/-- What the handler of `waiting_to_buy` can answer. -/
theorem waitingToBuy_cases (a : SniperAgentState) (i : Input) :
    a.waitingToBuy i = .transition
      (.buying (.exact (solToLamports a.snipingStrategyInstance.sizeSol)) 0) ∨
    a.waitingToBuy i = .transition .done ∨ a.waitingToBuy i = .super := by
  simp only [SniperAgentState.waitingToBuy]
  split
  · exact Or.inl rfl
  · split
    · split
      · exact Or.inr (Or.inl rfl)
      · exact Or.inr (Or.inr rfl)
    · exact Or.inr (Or.inr rfl)

theorem noteTime_eq (a : SniperAgentState) (i : Input) :
    ∃ t, a.noteTime i = { a with lastTime := t } := by
  rw [SniperAgentState.noteTime]
  split
  · exact ⟨_, rfl⟩
  · exact ⟨_, rfl⟩

/-- What the handler of `waiting_to_sell` can answer. -/
theorem waitingToSell_cases (a : SniperAgentState) (i : Input) :
    (∃ amt, a.waitingToSell i = (a, .transition (.selling amt 0))) ∨
    a.waitingToSell i = (a.noteTime i, .super) := by
  simp only [SniperAgentState.waitingToSell]
  split
  · exact Or.inl ⟨_, rfl⟩
  · split
    · split
      · exact Or.inl ⟨_, rfl⟩
      · split
        · exact Or.inl ⟨_, rfl⟩
        · exact Or.inr rfl
    · exact Or.inr rfl

theorem dispatch_waitingToBuy {m : Sniper} (i : Input) (hs : m.state = .waitingToBuy) :
    (m.ready i).dispatch i m.state = (m.ready i, (m.ready i).waitingToBuy i) := by
  rw [hs]
  rfl

theorem dispatch_waitingToSell {m : Sniper} (i : Input) (hs : m.state = .waitingToSell) :
    (m.ready i).dispatch i m.state = (m.ready i).waitingToSell i := by
  rw [hs]
  rfl

/-- **INVERSION**: every step of a sniper is one of the five outcomes. -/
theorem handle_cases {m m' : Sniper} {i : Input} {out : List Effect}
    (h : handle m i = some (m', out)) : StepOutcome m i m' out := by
  obtain ⟨htr, -, hinst⟩ := ready_keeps m i
  have hin : (m.ready i).tracker.actionsInProgress = m.inProgress := by rw [htr]
  cases hs : m.state with
  | waitingToBuy =>
      have hd := dispatch_waitingToBuy i hs
      rcases waitingToBuy_cases (m.ready i) i with heq | heq | heq
      · rw [heq] at hd
        obtain ⟨hs', action, hq⟩ := handle_enters hd rfl h
        rw [hinst] at hs'
        rw [hin] at hq
        exact .bought hs hs' hq
      · rw [heq] at hd
        exact handle_leaves hd rfl State.noConfusion (fun u hu => hin ▸ hu) h
      · rw [heq] at hd
        obtain ⟨rfl, rfl⟩ := handle_stay hd (Or.inl rfl) h
        exact .quiet (Or.inl rfl) (fun u hu => hin ▸ hu) rfl
  | buying amt r =>
      have hr : m.state.retry = some r := by
        rw [hs]
        rfl
      have hd : (m.ready i).dispatch i m.state
          = (m.ready i).conditionalTransition i m.state.retried .waitingToSell r := by
        rw [hs]
        rfl
      exact handle_attempt hr hd rfl State.noConfusion h
  | waitingToSell =>
      have hd := dispatch_waitingToSell i hs
      rcases waitingToSell_cases (m.ready i) i with ⟨amt, heq⟩ | heq
      · rw [heq] at hd
        obtain ⟨hs', action, hq⟩ := handle_enters hd rfl h
        rw [hin] at hq
        exact .sold hs hs' hq
      · rw [heq] at hd
        obtain ⟨rfl, rfl⟩ := handle_stay hd (Or.inl rfl) h
        refine .quiet (Or.inl rfl) ?_ rfl
        intro u hu
        have hu' : u ∈ ((m.ready i).noteTime i).tracker.actionsInProgress := hu
        obtain ⟨t, ht⟩ := noteTime_eq (m.ready i) i
        rw [ht] at hu'
        exact hin ▸ hu'
  | selling amt r =>
      have hr : m.state.retry = some r := by
        rw [hs]
        rfl
      have hd : (m.ready i).dispatch i m.state
          = (m.ready i).conditionalTransition i m.state.retried .done (r + 1) := by
        rw [hs]
        rfl
      exact handle_attempt hr hd rfl State.noConfusion h
  | done =>
      have hd : (m.ready i).dispatch i m.state = (m.ready i, .handled) := by
        rw [hs]
        rfl
      obtain ⟨rfl, rfl⟩ := handle_stay hd (Or.inr rfl) h
      exact .quiet (Or.inl rfl) (fun u hu => hin ▸ hu) rfl
  | error msg =>
      have hd : (m.ready i).dispatch i m.state = (m.ready i, .handled) := by
        rw [hs]
        rfl
      obtain ⟨rfl, rfl⟩ := handle_stay hd (Or.inr rfl) h
      exact .quiet (Or.inl rfl) (fun u hu => hin ▸ hu) rfl

-- ── A step keeps the configuration ──────────────────────────────────────────

/-- A handler notes the time, or what has become of an action. -/
theorem dispatch_eq (a : SniperAgentState) (i : Input) (s : State) :
    ∃ tracker t, (a.dispatch i s).1 = { a with tracker := tracker, lastTime := t } := by
  cases s with
  | waitingToSell =>
      rcases waitingToSell_cases a i with ⟨amt, heq⟩ | heq
      · refine ⟨a.tracker, a.lastTime, ?_⟩
        rw [SniperAgentState.dispatch, heq]
      · obtain ⟨t, ht⟩ := noteTime_eq a i
        refine ⟨a.tracker, t, ?_⟩
        rw [SniperAgentState.dispatch, heq, ht]
  | waitingToBuy | buying | selling | done | error => exact ⟨_, a.lastTime, rfl⟩

theorem dispatch_keeps (a : SniperAgentState) (i : Input) (s : State) :
    (a.dispatch i s).1.snipingStrategyInstance = a.snipingStrategyInstance := by
  obtain ⟨tracker, t, ht⟩ := dispatch_eq a i s
  rw [ht]

/-- An entry action sets a timer and what goes with it, or queues an action. -/
theorem enter_frame {a a' : SniperAgentState} {i : Input} {s : State} {out : List Effect}
    (h : a.enter i s = some (a', out)) :
    ∃ tracker delay bought price, a' =
      { a with
        tracker := tracker
        buyDelayTimer := delay
        whenBoughtTimer := bought
        buyPrice := price } := by
  cases s with
  | waitingToSell =>
      obtain ⟨price, -, heq⟩ := Option.map_eq_some_iff.mp h
      exact ⟨_, _, _, _, (Prod.mk.inj heq).1.symm⟩
  | waitingToBuy | buying | selling | done | error =>
      exact ⟨_, _, _, _, (Prod.mk.inj (Option.some.inj h)).1.symm⟩

theorem enter_keeps {a a' : SniperAgentState} {i : Input} {s : State} {out : List Effect}
    (h : a.enter i s = some (a', out)) :
    a'.snipingStrategyInstance = a.snipingStrategyInstance := by
  obtain ⟨tracker, delay, bought, price, rfl⟩ := enter_frame h
  rfl

theorem handle_keeps {m m' : Sniper} {i : Input} {out : List Effect}
    (h : handle m i = some (m', out)) :
    m'.storage.snipingStrategyInstance = m.storage.snipingStrategyInstance := by
  obtain ⟨-, -, hinst⟩ := ready_keeps m i
  have hkeep := (dispatch_keeps (m.ready i) i m.state).trans hinst
  cases hd : (m.ready i).dispatch i m.state with
  | mk a resp =>
      rw [hd] at hkeep
      cases resp with
      | transition target =>
          obtain ⟨-, he⟩ := handle_transition hd h
          exact (enter_keeps he).trans hkeep
      | super =>
          obtain ⟨rfl, -⟩ := handle_stay hd (Or.inl rfl) h
          exact hkeep
      | handled =>
          obtain ⟨rfl, -⟩ := handle_stay hd (Or.inr rfl) h
          exact hkeep

end FoxfireSnipe
