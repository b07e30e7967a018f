import FoxfireSniper.FundingProofs

/-! # The volume strategy's state machine

    `src/strategies/volume_strategy/strategy_state_machine.rs`, every state with its
    entry action, its exit action and its handler.  The strategy goes round in tranches:
    sweep what earlier agents hold, sell the main wallet's tokens, fund new agents, let
    them buy, collect the tokens, hand them to new agents, let those sell, collect the
    SOL, sleep.

    Agents are shared: `agents` lists references, and a task that was spawned for an
    earlier event still holds the references of that time.  So the model keeps a heap of
    all agents ever created, and `agents` is a list of positions in it.  Every event is
    first handed to such a task (`on_dispatch`), which passes it to the main wallet and
    to the agents one after the other, at any time.

    A step is an event of the strategy, or the next delivery of a pending task.  `none`
    is a panic.  What the machine asks of its surroundings is in `Env`.

    **`step_cases`** says once which edges the machine has, and what each does to the
    list of agents. -/

namespace FoxfireVolume

open FoxfireTypes FoxfireAttempt FoxfireAgent FoxfireFunding MachineRun

inductive State where
  | sweeping
  | offloadingInventory
  | fund
  | buying
  | collectingTokens
  | transferringTokenToSellers
  | selling
  | collectingSol
  | sleeping
  | idle
  | error (msg : String)
  deriving DecidableEq, Repr

/-- `VolumeStrategyInstance`, as far as the machine reads it. -/
structure VolumeInstance extends VolumeStrategyInstance where
  userId              : Int
  trancheFrequencyHbs : Int

/-- A row of the table of traders. -/
structure Trader where
  id                 : Int
  strategyInstanceId : Option StrategyId
  wallet             : Pubkey
  privateKey         : String
  isActive           : Bool

/-- A position in the heap: an `Arc<Mutex<StateMachine<AgentState>>>`. -/
abbrev AgentRef := Nat

/-- What a dispatch task still has to do: the event, the main wallet if it has not been
    told yet, and the agents to be told. -/
structure DispatchTask where
  event  : SolanaStrategyEvent
  wallet : Bool
  agents : List AgentRef

/-- `StateMachine<VolumeStrategyStateMachine>`. -/
structure VolumeStrategy where
  state       : State
  initialized : Bool
  inst        : VolumeInstance
  pool        : RaydiumPool
  mainWallet  : Agent
  heap        : List Agent
  agents      : List AgentRef
  stopwatch   : Stopwatch
  completedAt : Option Instant
  tasks       : List DispatchTask

/-- The answers that one entry action gets. -/
structure Env where
  now            : Instant
  /-- Draws, keys and clocks of `fund` and `transferring_token_to_sellers`. -/
  tranche        : TrancheInput
  /-- The table of traders, `none` if the query fails. -/
  traders        : Option (List Trader)
  /-- `KeypairClonable::new_from_privkey` -/
  newFromPrivkey : String → Option Keypair
  /-- `get_balance`, `none` for an error. -/
  solBalance     : Pubkey → Option UInt64
  /-- `get_token_balance` for the pool's base mint, `none` for an error. -/
  tokenBalance   : Pubkey → Option UInt64
  /-- Clock and uuid for a command to the main wallet. -/
  walletInput    : FoxfireAgent.Input
  /-- Clock and uuid for a command to an agent. -/
  agentInput     : AgentRef → FoxfireAgent.Input

/-- The cast `x as u64` of an `i64`. -/
def asU64 (x : Int) : UInt64 := UInt64.ofNat (asUsize x)

/-- The new references when `k` agents are created on a heap of `n`. -/
def newRefs (n k : Nat) : List AgentRef := List.range' n k

-- ── Commands to the agents ──────────────────────────────────────────────────

/-- Give one agent the command chosen for it, if any. -/
def command (env : Env) (choose : Agent → Option AgentEvent) (heap : List Agent)
    (r : AgentRef) : Option (List Agent × List Effect) :=
  match heap[r]? with
  | none => some (heap, [])
  | some agent =>
      match choose agent with
      | none => some (heap, [])
      | some event =>
          (handle agent { env.agentInput r with event := .forAgent event }).map fun p =>
            (heap.set r p.1, p.2)

/-- Give each agent of a list its command. -/
def commandAll (env : Env) (choose : Agent → Option AgentEvent) :
    List AgentRef → List Agent → Option (List Agent × List Effect)
  | [], heap      => some (heap, [])
  | r :: rs, heap =>
      (command env choose heap r).bind fun p =>
        (commandAll env choose rs p.1).map fun q => (q.1, p.2 ++ q.2)

namespace VolumeStrategy

/-- `AgentState::get_sol_balance` and `get_token_balance` of an agent. -/
def agentSol (env : Env) (agent : Agent) : UInt64 :=
  (env.solBalance agent.storage.pubkey).getD 0

def agentTokens (env : Env) (agent : Agent) : UInt64 :=
  (env.tokenBalance agent.storage.pubkey).getD 0

/-- The agents among the heap that `self.agents` names. -/
def current (v : VolumeStrategy) : List Agent := v.agents.filterMap fun r => v.heap[r]?

def tokensToKeep (v : VolumeStrategy) : UInt64 := asU64 v.inst.agentsKeepTokensLamports

/-- The command all agents get from an entry action, chosen for each. -/
def commandAgents (v : VolumeStrategy) (env : Env) (choose : Agent → Option AgentEvent) :
    Option (VolumeStrategy × List Effect) :=
  (commandAll env choose v.agents v.heap).map fun p => ({ v with heap := p.1 }, p.2)

/-- What funding reads of the strategy; it does not read the list of agents. -/
def funding (v : VolumeStrategy) : Strategy :=
  ⟨v.inst.toVolumeStrategyInstance, v.pool, v.mainWallet, []⟩

-- ── Entry and exit actions ──────────────────────────────────────────────────

/-- A trader of the table becomes an agent if it owns anything worth sweeping and its
    key can be read.  No column but the wallet is compared. -/
def agentOfTrader (v : VolumeStrategy) (env : Env) (trader : Trader) : Option Agent :=
  match env.solBalance trader.wallet with
  | none => none
  | some sol =>
      if sol < newAccountThresholdSol ∧
          (env.tokenBalance trader.wallet).getD 0 < v.tokensToKeep then none
      else
        (env.newFromPrivkey trader.privateKey).map fun key =>
          Agent.new v.pool key trader.strategyInstanceId
            (some v.mainWallet.storage.agentKey) env.now

/-- The agents that are loaded: all traders but the main wallet itself.  They arrive in
    the order of their balances' answers; nothing depends on it. -/
def loadedAgents (v : VolumeStrategy) (env : Env) (traders : List Trader) : List Agent :=
  (traders.filter fun t => t.wallet ≠ v.mainWallet.storage.pubkey).filterMap
    (v.agentOfTrader env)

/-- `self.agents = agents_w_balance`, if the query succeeds. -/
def loadStaledAgents (v : VolumeStrategy) (env : Env) : VolumeStrategy :=
  match env.traders with
  | none => v
  | some traders =>
      let loaded := v.loadedAgents env traders
      { v with
        heap := v.heap ++ loaded
        agents := newRefs v.heap.length loaded.length }

/-- **`collect_everything_from_staled_agents`**. -/
def collectEverythingFromStaledAgents (v : VolumeStrategy) (env : Env) :
    Option (VolumeStrategy × List Effect) :=
  (v.loadStaledAgents env).commandAgents env fun _ => some .collect

/-- `zero_agents`. -/
def zeroAgents (v : VolumeStrategy) : VolumeStrategy × List Effect :=
  ({ v with agents := [] },
    (v.current.map fun a =>
      [Effect.stopMonitoringAccount a.storage.pubkey,
        .stopMonitoringTokenAccount a.storage.pubkey v.pool.baseMint]).flatten)

/-- `offload_inventory`. -/
def offloadInventory (v : VolumeStrategy) (env : Env) :
    Option (VolumeStrategy × List Effect) :=
  if 0 < agentTokens env v.mainWallet ∧
      baseTxFeeSol + transferPriorityFeeSol ≤ agentSol env v.mainWallet then
    (handle v.mainWallet { env.walletInput with event := .forAgent (.sell .max) }).map
      fun p => ({ v with mainWallet := p.1 }, p.2)
  else some (v, [])

/-- `initialize_agents_with_sol`: new agents are pushed to those already there. -/
def initializeAgents (v : VolumeStrategy) (env : Env) :
    Option (VolumeStrategy × List Effect) :=
  (initializeAgentsWithSol v.funding env.tranche).map fun p =>
    ({ v with
        mainWallet := p.1.mainWallet
        heap := v.heap ++ p.1.agents
        agents := v.agents ++ newRefs v.heap.length p.1.agents.length }, p.2)

/-- `buy`. -/
def buy (v : VolumeStrategy) (env : Env) : Option (VolumeStrategy × List Effect) :=
  v.commandAgents env fun _ => some (.buy .maxButLeaveForTransfer)

/-- The command of `collect_token_from_agents` to one agent. -/
def tokenCollection (v : VolumeStrategy) (env : Env) (agent : Agent) : Option AgentEvent :=
  let minimumSol :=
    if v.tokensToKeep = 0 then baseTxFeeSol + transferPriorityFeeSol
    else rentExemptionThresholdSol + baseTxFeeSol + transferPriorityFeeSol
  if v.tokensToKeep < agentTokens env agent ∧ minimumSol ≤ agentSol env agent then
    if v.tokensToKeep = 0 then some .collect
    else some (.transfer [⟨.token agent.storage.pool.baseMint, v.mainWallet.storage.pubkey,
      .exact (agentTokens env agent - v.tokensToKeep)⟩])
  else none

def collectTokenFromAgents (v : VolumeStrategy) (env : Env) :
    Option (VolumeStrategy × List Effect) :=
  v.commandAgents env (v.tokenCollection env)

/-- `transfer_token_to_sellers`: the new agents replace those there. -/
def transferToSellers (v : VolumeStrategy) (env : Env) :
    Option (VolumeStrategy × List Effect) :=
  (transferTokenToSellers v.funding env.tranche).map fun p =>
    ({ v with
        mainWallet := p.1.mainWallet
        heap := v.heap ++ p.1.agents
        agents := newRefs v.heap.length p.1.agents.length }, p.2)

/-- The command of `sell` to one agent. -/
def saleCommand (v : VolumeStrategy) (env : Env) (agent : Agent) : Option AgentEvent :=
  if v.inst.agentsKeepTokensLamports = 0 then
    if 0 < agentTokens env agent then some .collect else none
  else if baseTxFeeSol + transferPriorityFeeSol ≤ agentSol env agent then
    some (.sell (.exact (agentTokens env agent - v.tokensToKeep)))
  else none

def sell (v : VolumeStrategy) (env : Env) : Option (VolumeStrategy × List Effect) :=
  v.commandAgents env (v.saleCommand env)

def collectSolFromAgents (v : VolumeStrategy) (env : Env) :
    Option (VolumeStrategy × List Effect) :=
  v.commandAgents env fun _ => some .collect

/-- `set_sleep_timer_before_selling`. -/
def setSleepTimerBeforeSelling (v : VolumeStrategy) (env : Env) : VolumeStrategy :=
  { v with stopwatch := Stopwatch.restart (asUsize v.inst.trancheFrequencyHbs) env.now }

/-- `cleanup`: the future of `self.drop()` is never awaited, so the agents stay. -/
def cleanup (v : VolumeStrategy) (env : Env) : VolumeStrategy :=
  { v with completedAt := some env.now }

/-- The entry action of a state. -/
def enter (v : VolumeStrategy) (env : Env) : State → Option (VolumeStrategy × List Effect)
  | .sweeping                   => v.collectEverythingFromStaledAgents env
  | .offloadingInventory        => v.offloadInventory env
  | .fund                       => v.initializeAgents env
  | .buying                     => v.buy env
  | .collectingTokens           => v.collectTokenFromAgents env
  | .transferringTokenToSellers => v.transferToSellers env
  | .selling                    => v.sell env
  | .collectingSol              => v.collectSolFromAgents env
  | .sleeping                   => some (v.setSleepTimerBeforeSelling env, [])
  | .idle                       => some (v, [])
  | .error _                    => some (v.cleanup env, [])

/-- The exit action of the current state. -/
def exit (v : VolumeStrategy) : VolumeStrategy × List Effect :=
  match v.state with
  | .sweeping         => v.zeroAgents
  | .collectingTokens => v.zeroAgents
  | .collectingSol    => v.zeroAgents
  | _                 => (v, [])

-- ── Handlers ────────────────────────────────────────────────────────────────

inductive ExecutionStatus where
  | idle
  | error
  | done
  | pending
  deriving DecidableEq, Repr

/-- The agent has come to an end, with success or without. -/
def settled (agent : Agent) : Bool :=
  match agent.state with
  | .success        => true
  | .error _        => true
  | .deactivating _ => true
  | .deactivated    => true
  | _               => false

def succeeded (agent : Agent) : Bool := agent.state = .success

/-- `get_execution_status`: no agents is an error. -/
def getExecutionStatus (v : VolumeStrategy) : ExecutionStatus :=
  if v.agents.isEmpty then .error
  else if v.current.any (fun a => !settled a) then .pending
  else if v.current.countP succeeded = v.agents.length then .done
  else .error

/-- The handler of the current state.  Those that `Super` are handled by `running`,
    which does nothing. -/
def dispatch (v : VolumeStrategy) (event : BotEvent) (now : Instant) :
    VolumeStrategy × Response State :=
  match v.state with
  | .sweeping =>
      match v.getExecutionStatus with
      | .done  => (v, .transition .offloadingInventory)
      | .error => (v, .transition .offloadingInventory)
      | _      => (v, .super)
  | .offloadingInventory =>
      match v.mainWallet.state with
      | .success     => (v, .transition .fund)
      | .error _     => (v, .transition .fund)
      | .deactivated => (v, .transition .fund)
      | .idle        => (v, .transition .fund)
      | _            => (v, .super)
  | .fund =>
      match v.mainWallet.state with
      | .success => (v, .transition .buying)
      | .error _ => (v, .transition .sweeping)
      | _        => (v, .super)
  | .buying =>
      match v.getExecutionStatus with
      | .done    => (v, .transition .collectingTokens)
      | .error   => (v, .transition .sweeping)
      | .idle    => (v, .transition .sweeping)
      | .pending => (v, .super)
  | .collectingTokens =>
      match v.getExecutionStatus with
      | .done  => (v, .transition .transferringTokenToSellers)
      | .error => (v, .transition .sweeping)
      | _      => (v, .super)
  | .transferringTokenToSellers =>
      match v.mainWallet.state with
      | .success     => (v, .transition .selling)
      | .idle        => (v, .transition .selling)
      | .error _     => (v, .transition .offloadingInventory)
      | .deactivated => (v, .transition .offloadingInventory)
      | _            => (v, .super)
  | .selling =>
      match v.getExecutionStatus with
      | .done  => (v, .transition .collectingSol)
      | .error => (v, .transition .sweeping)
      | _      => (v, .super)
  | .collectingSol =>
      match v.getExecutionStatus with
      | .done  => (v, .transition .sleeping)
      | .error => (v, .transition .sweeping)
      | _      => (v, .super)
  | .sleeping =>
      match event with
      | .heartBeat tick _ =>
          if v.stopwatch.isTimeElapsed tick now then
            ({ v with stopwatch := v.stopwatch.turnOff }, .transition .fund)
          else (v, .super)
      | _ => (v, .super)
  | .idle    => (v, .handled)
  | .error _ => (v, .handled)

-- ── Steps ───────────────────────────────────────────────────────────────────

/-- The first event runs the entry action of the initial state before it is handled. -/
def init (v : VolumeStrategy) (env : Env) : Option (VolumeStrategy × List Effect) :=
  if v.initialized then some (v, [])
  else (v.enter env v.state).map fun p => ({ p.1 with initialized := true }, p.2)

/-- `on_dispatch`: a task will pass the event on. -/
def spawn (v : VolumeStrategy) (event : BotEvent) : VolumeStrategy :=
  { v with tasks := v.tasks ++ [⟨.original event, true, v.agents⟩] }

/-- Leave the current state and enter another one. -/
def transition (v : VolumeStrategy) (env : Env) (target : State) :
    Option (VolumeStrategy × List Effect) :=
  (VolumeStrategy.enter { v.exit.1 with state := target } env target).map fun p =>
    (p.1, v.exit.2 ++ p.2)

/-- The handler, and the transition it asks for. -/
def handleEvent (v : VolumeStrategy) (event : BotEvent) (env : Env) :
    Option (VolumeStrategy × List Effect) :=
  match v.dispatch event env.now with
  | (v', .transition target) => v'.transition env target
  | (v', _)                  => some (v', [])

/-- `StateMachine::handle`. -/
def handle (v : VolumeStrategy) (event : BotEvent) (initEnv env : Env) :
    Option (VolumeStrategy × List Effect) :=
  (v.init initEnv).bind fun p =>
    ((p.1.spawn event).handleEvent event env).map fun q => (q.1, p.2 ++ q.2)

/-- The events that `process_event` gives to the machine. -/
def isProcessed : BotEvent → Bool
  | .executionResult _ _ _ => true
  | .heartBeat _ _         => true
  | .blockchainEvent _     => true
  | _                      => false

def processEvent (v : VolumeStrategy) (event : BotEvent) (initEnv env : Env) :
    Option (VolumeStrategy × List Effect) :=
  if isProcessed event then v.handle event initEnv env else some (v, [])

/-- The next delivery of a dispatch task.  A panic ends the task and nothing else. -/
def deliver (v : VolumeStrategy) (k : Nat) (i : FoxfireAgent.Input) :
    VolumeStrategy × List Effect :=
  match v.tasks[k]? with
  | none => (v, [])
  | some t =>
      if t.wallet then
        match FoxfireAgent.handle v.mainWallet { i with event := t.event } with
        | none   => ({ v with tasks := v.tasks.eraseIdx k }, [])
        | some p =>
            ({ v with mainWallet := p.1, tasks := v.tasks.set k { t with wallet := false } },
              p.2)
      else
        match t.agents with
        | []      => ({ v with tasks := v.tasks.eraseIdx k }, [])
        | r :: rs =>
            match (v.heap[r]?).bind fun a =>
              FoxfireAgent.handle a { i with event := t.event } with
            | none   => ({ v with tasks := v.tasks.eraseIdx k }, [])
            | some p =>
                ({ v with heap := v.heap.set r p.1,
                          tasks := v.tasks.set k { t with agents := rs } }, p.2)

/-- `VolumeStrategyStateMachine::new(...).state_machine()`. -/
def new (inst : VolumeInstance) (pool : RaydiumPool) (key : Keypair) (now : Instant) :
    VolumeStrategy where
  state := .sweeping
  initialized := false
  inst := inst
  pool := pool
  mainWallet := Agent.new pool key none none now
  heap := []
  agents := []
  stopwatch := Stopwatch.restart (asUsize inst.trancheFrequencyHbs) now
  completedAt := none
  tasks := []

end VolumeStrategy

/-- What the machine runs on: an event of the strategy, or a delivery by a task. -/
inductive Input where
  | event (e : BotEvent) (initEnv env : Env)
  | task (k : Nat) (i : FoxfireAgent.Input)

/-- **ONE STEP.** -/
def volume : Step VolumeStrategy Input Effect
  | v, .event e initEnv env => v.processEvent e initEnv env
  | v, .task k i            => some (v.deliver k i)

-- ── An agent keeps its key and its owner ────────────────────────────────────

/-- Who an agent is: its key, and the strategy it was created for. -/
def identity (agent : Agent) : Keypair × Option StrategyId :=
  (agent.storage.agentKey, agent.storage.strategyIdOpt)

/-- A handler changes nothing of the storage but the bookkeeping of actions. -/
theorem dispatch_storage (m : Agent) (i : FoxfireAgent.Input) :
    ∃ t, (m.dispatch i).1 = { m.storage with tracker := t } := by
  have hself : ∃ t, m.storage = { m.storage with tracker := t } := ⟨m.storage.tracker, rfl⟩
  have hattempt : ∀ retryAction retry, ∃ t,
      (m.storage.transitionToSuccessOrError i retryAction retry).1
        = { m.storage with tracker := t } := by
    intro retryAction retry
    rw [AgentState.transitionToSuccessOrError]
    split
    · exact hself
    · exact ⟨_, rfl⟩
  have hawait : (m.storage.awaitCommand i).1 = m.storage := by
    rw [AgentState.awaitCommand]
    split <;> rfl
  rw [Agent.dispatch]
  split
  · rw [hawait]; exact hself
  · exact hattempt _ _
  · exact hattempt _ _
  · exact hattempt _ _
  · exact hattempt _ _
  · rw [hawait]; exact hself
  · exact hself
  · rw [AgentState.deactivating]
    split
    · split <;> exact ⟨_, rfl⟩
    · split <;> exact ⟨_, rfl⟩
    · exact hself
  · exact hself

/-- So does an entry action, and what it queues is signed by the agent. -/
theorem enter_storage {a a' : AgentState} {i : FoxfireAgent.Input} {s : FoxfireAgent.State}
    {out : List Effect} (h : a.enter i s = some (a', out)) :
    (∃ t, a' = { a with tracker := t }) ∧
      ∀ action ∈ queuedActions out, action.sniper = a.agentKey := by
  have hquiet : ∀ {o : List Effect}, queuedActions o = [] →
      ∀ action ∈ queuedActions o, action.sniper = a.agentKey := by
    intro o ho action hmem
    rw [ho] at hmem
    cases hmem
  have hcollect : a.collect i = some (a', out) → (∃ t, a' = { a with tracker := t }) ∧
      ∀ action ∈ queuedActions out, action.sniper = a.agentKey := by
    intro hc
    rw [AgentState.collect] at hc
    obtain ⟨w, -, heq⟩ := Option.map_eq_some_iff.mp hc
    obtain ⟨rfl, rfl⟩ := Prod.mk.inj heq
    refine ⟨⟨_, rfl⟩, ?_⟩
    intro action hmem
    rw [List.mem_singleton.mp hmem]
    rfl
  cases hr : s.retry with
  | none =>
      obtain ⟨rfl, hout⟩ := enter_quiet hr h
      exact ⟨⟨_, rfl⟩, hquiet hout⟩
  | some r =>
      cases s with
      | collecting _ => exact hcollect h
      | deactivating _ => exact hcollect h
      | transferring batch _ =>
          obtain ⟨rfl, rfl⟩ := Prod.mk.inj (Option.some.inj h)
          exact ⟨⟨_, rfl⟩, fun action hmem => by rw [List.mem_singleton.mp hmem]; rfl⟩
      | buying _ _ =>
          obtain ⟨rfl, rfl⟩ := Prod.mk.inj (Option.some.inj h)
          exact ⟨⟨_, rfl⟩, fun action hmem => by rw [List.mem_singleton.mp hmem]; rfl⟩
      | selling _ _ =>
          obtain ⟨rfl, rfl⟩ := Prod.mk.inj (Option.some.inj h)
          exact ⟨⟨_, rfl⟩, fun action hmem => by rw [List.mem_singleton.mp hmem]; rfl⟩
      | idle => cases hr
      | success => cases hr
      | error _ => cases hr
      | deactivated => cases hr

/-- **AN EVENT LEAVES AN AGENT'S IDENTITY**, and its actions are signed by it. -/
theorem handle_identity {m m' : Agent} {i : FoxfireAgent.Input} {out : List Effect}
    (h : FoxfireAgent.handle m i = some (m', out)) :
    identity m' = identity m ∧
      ∀ action ∈ queuedActions out, action.sniper = m.storage.agentKey := by
  obtain ⟨t, ht⟩ := dispatch_storage m i
  have hkey : (m.dispatch i).1.agentKey = m.storage.agentKey := by rw [ht]
  have hid : (m.dispatch i).1.strategyIdOpt = m.storage.strategyIdOpt := by rw [ht]
  cases hresp : (m.dispatch i).2 with
  | transition target =>
      obtain ⟨-, he⟩ := handle_transition (Prod.ext rfl hresp) h
      obtain ⟨⟨t', hst⟩, hsig⟩ := enter_storage he
      refine ⟨?_, fun action hmem => (hsig action hmem).trans hkey⟩
      rw [identity, hst, identity, hkey, hid]
  | handled =>
      have hd : m.dispatch i = ((m.dispatch i).1, .handled) := Prod.ext rfl hresp
      obtain ⟨rfl, rfl⟩ := handle_stay hd (Or.inr rfl) h
      exact ⟨Prod.ext hkey hid, fun action hmem => by cases hmem⟩
  | super =>
      have hd : m.dispatch i = ((m.dispatch i).1, .super) := Prod.ext rfl hresp
      obtain ⟨rfl, rfl⟩ := handle_stay hd (Or.inl rfl) h
      exact ⟨Prod.ext hkey hid, fun action hmem => by cases hmem⟩

/-- The identities on a heap. -/
abbrev identities (heap : List Agent) : List (Keypair × Option StrategyId) :=
  heap.map identity

theorem identities_set {heap : List Agent} {r : AgentRef} {a a' : Agent}
    (ha : heap[r]? = some a) (h : identity a' = identity a) :
    identities (heap.set r a') = identities heap := by
  refine List.ext_getElem? ?_
  intro k
  rw [List.getElem?_map, List.getElem?_map, List.getElem?_set]
  by_cases hk : r = k
  · subst hk
    obtain ⟨hr, -⟩ := List.getElem?_eq_some_iff.mp ha
    rw [if_pos rfl, if_pos hr, ha, Option.map_some, Option.map_some, h]
  · rw [if_neg hk]

/-- A command changes no identity, and is carried out by the agent commanded. -/
theorem command_identities {env : Env} {choose : Agent → Option AgentEvent}
    {heap heap' : List Agent} {r : AgentRef} {out : List Effect}
    (h : command env choose heap r = some (heap', out)) :
    identities heap' = identities heap ∧
      ∀ action ∈ queuedActions out, ∃ a, heap[r]? = some a ∧
        action.sniper = a.storage.agentKey := by
  have hnone : ∀ {p : List Agent × List Effect}, some (heap, []) = some p →
      identities p.1 = identities heap ∧
        ∀ action ∈ queuedActions p.2, ∃ a, heap[r]? = some a ∧
          action.sniper = a.storage.agentKey := by
    rintro p heq
    obtain rfl := Option.some.inj heq
    exact ⟨rfl, fun action hmem => by cases hmem⟩
  rw [command] at h
  cases ha : heap[r]? with
  | none =>
      rw [ha] at h
      rw [ha] at hnone
      exact hnone h
  | some a =>
      rw [ha] at h
      rw [ha] at hnone
      cases hc : choose a with
      | none =>
          simp only [hc] at h
          exact hnone h
      | some event =>
          simp only [hc] at h
          obtain ⟨p, hp, heq⟩ := Option.map_eq_some_iff.mp h
          obtain ⟨rfl, rfl⟩ := Prod.mk.inj heq
          obtain ⟨hid, hsig⟩ := handle_identity hp
          exact ⟨identities_set ha hid, fun action hmem => ⟨a, rfl, hsig action hmem⟩⟩

/-- So are commands to a list of agents. -/
theorem commandAll_identities {env : Env} {choose : Agent → Option AgentEvent} :
    ∀ {refs : List AgentRef} {heap heap' : List Agent} {out : List Effect},
      commandAll env choose refs heap = some (heap', out) →
      identities heap' = identities heap ∧
        ∀ action ∈ queuedActions out, ∃ r ∈ refs, ∃ p, (identities heap)[r]? = some p ∧
          action.sniper = p.1 := by
  intro refs
  induction refs with
  | nil =>
      intro heap heap' out h
      obtain ⟨rfl, rfl⟩ := Prod.mk.inj (Option.some.inj h)
      exact ⟨rfl, fun action hmem => by cases hmem⟩
  | cons r refs ih =>
      intro heap heap' out h
      obtain ⟨⟨heap₁, out₁⟩, h₁, h₂⟩ := Option.bind_eq_some_iff.mp h
      obtain ⟨⟨heap₂, out₂⟩, hrest, heq⟩ := Option.map_eq_some_iff.mp h₂
      obtain ⟨rfl, rfl⟩ := Prod.mk.inj heq
      obtain ⟨hid₁, hsig₁⟩ := command_identities h₁
      obtain ⟨hid₂, hsig₂⟩ := ih hrest
      refine ⟨hid₂.trans hid₁, ?_⟩
      intro action hmem
      rw [queuedActions, List.filterMap_append, List.mem_append] at hmem
      rcases hmem with hmem | hmem
      · obtain ⟨a, ha, hs⟩ := hsig₁ action hmem
        refine ⟨r, List.mem_cons_self, identity a, ?_, hs⟩
        rw [List.getElem?_map, ha]
        rfl
      · obtain ⟨q, hq, p, hp, hs⟩ := hsig₂ action hmem
        rw [hid₁] at hp
        exact ⟨q, List.mem_cons_of_mem r hq, p, hp, hs⟩

-- ── What an entry action can do ─────────────────────────────────────────────

/-- What no step changes: the instance, who the main wallet is, and who the agents on
    the heap are. -/
structure Keeps (v v' : VolumeStrategy) : Prop where
  inst   : v'.inst = v.inst
  wallet : identity v'.mainWallet = identity v.mainWallet
  heap   : identities v.heap <+: identities v'.heap

theorem Keeps.refl (v : VolumeStrategy) : Keeps v v := ⟨rfl, rfl, List.prefix_refl _⟩

theorem Keeps.trans {v v' v'' : VolumeStrategy} (h : Keeps v v') (h' : Keeps v' v'') :
    Keeps v v'' :=
  ⟨h'.inst.trans h.inst, h'.wallet.trans h.wallet, h.heap.trans h'.heap⟩

/-- The agents on `heap'` that were not yet on `heap`. -/
def createdRefs (heap heap' : List Agent) : List AgentRef :=
  newRefs heap.length (heap'.length - heap.length)

/-- The agent was created for the strategy with this id. -/
def OwnedBy (id : StrategyId) (heap : List Agent) (r : AgentRef) : Prop :=
  ∃ key, (identities heap)[r]? = some (key, some id)

/-- Everything an entry action can do to the agents, when the state before left
    `agents` on `heap`. -/
inductive Entered (agents : List AgentRef) (heap : List Agent) (id : StrategyId)
    (v' : VolumeStrategy) : State → Prop where
  /-- The agents are commanded, or left alone. -/
  | kept {s : State} (hs : s ≠ .fund) (hagents : v'.agents = agents)
      (hlen : v'.heap.length = heap.length) : Entered agents heap id v' s
  /-- The agents of the table replace them. -/
  | loaded (hagents : v'.agents = createdRefs heap v'.heap) :
      Entered agents heap id v' .sweeping
  /-- New agents of the strategy are pushed. -/
  | funded (hagents : v'.agents = agents ++ createdRefs heap v'.heap)
      (hown : ∀ r ∈ createdRefs heap v'.heap, OwnedBy id v'.heap r) :
      Entered agents heap id v' .fund
  /-- New agents of the strategy replace them. -/
  | supplied (hagents : v'.agents = createdRefs heap v'.heap)
      (hown : ∀ r ∈ createdRefs heap v'.heap, OwnedBy id v'.heap r) :
      Entered agents heap id v' .transferringTokenToSellers

theorem Entered.congr {agents : List AgentRef} {heap : List Agent} {id : StrategyId}
    {v₁ v₂ : VolumeStrategy} {s : State} (h : Entered agents heap id v₁ s)
    (hagents : v₂.agents = v₁.agents) (hheap : v₂.heap = v₁.heap) :
    Entered agents heap id v₂ s := by
  cases h with
  | kept hs ha hl => exact .kept hs (hagents.trans ha) (by rw [hheap, hl])
  | loaded ha => exact .loaded (by rw [hagents, hheap, ha])
  | funded ha ho => exact .funded (by rw [hagents, hheap, ha]) (by rw [hheap]; exact ho)
  | supplied ha ho => exact .supplied (by rw [hagents, hheap, ha]) (by rw [hheap]; exact ho)

theorem length_eq_of_identities {heap heap' : List Agent}
    (h : identities heap' = identities heap) : heap'.length = heap.length := by
  have hlen := congrArg List.length h
  rwa [List.length_map, List.length_map] at hlen

theorem createdRefs_append (heap new : List Agent) :
    createdRefs heap (heap ++ new) = newRefs heap.length new.length := by
  rw [createdRefs, List.length_append, Nat.add_sub_cancel_left]

/-- Agents of the strategy that are put on the heap belong to it. -/
theorem owned_append {heap new : List Agent} {id : StrategyId}
    (hown : ∀ a ∈ new, a.storage.strategyIdOpt = some id) :
    ∀ r ∈ createdRefs heap (heap ++ new), OwnedBy id (heap ++ new) r := by
  intro r hr
  rw [createdRefs_append, newRefs, List.mem_range'_1] at hr
  obtain ⟨hle, hlt⟩ := hr
  have hidx : r - heap.length < new.length := Nat.sub_lt_left_of_lt_add hle hlt
  have hget : (heap ++ new)[r]? = some (new[r - heap.length]) := by
    rw [List.getElem?_append_right hle, List.getElem?_eq_getElem hidx]
  refine ⟨new[r - heap.length].storage.agentKey, ?_⟩
  rw [List.getElem?_map, hget, Option.map_some, identity,
    hown _ (List.getElem_mem hidx)]

/-- Several events leave an agent's identity. -/
theorem run_handle_identity :
    ∀ {is : List FoxfireAgent.Input} {m m' : Agent} {out : List Effect},
      run FoxfireAgent.handle m is = some (m', out) → identity m' = identity m := by
  intro is
  induction is with
  | nil =>
      intro m m' out h
      obtain ⟨rfl, -⟩ := Prod.mk.inj (Option.some.inj h)
      rfl
  | cons i is ih =>
      intro m m' out h
      obtain ⟨m₁, o₁, o₂, hs, hr, -⟩ := run_cons_eq_some h
      exact (ih hr).trans (handle_identity hs).1

namespace VolumeStrategy

variable {v v' : VolumeStrategy} {env : Env} {out : List Effect}

/-- Commands leave everything but the states of the agents. -/
theorem commandAgents_spec {choose : Agent → Option AgentEvent}
    (h : v.commandAgents env choose = some (v', out)) :
    ∃ heap, v' = { v with heap := heap } ∧ identities heap = identities v.heap := by
  obtain ⟨⟨heap, o⟩, hc, heq⟩ := Option.map_eq_some_iff.mp h
  obtain ⟨rfl, -⟩ := Prod.mk.inj heq
  exact ⟨heap, rfl, (commandAll_identities hc).1⟩

/-- So an entry action that only commands keeps the agents. -/
theorem entered_of_commandAgents {choose : Agent → Option AgentEvent} {s : State}
    (hs : s ≠ .fund) (h : v.commandAgents env choose = some (v', out)) :
    Keeps v v' ∧ v'.state = v.state ∧ v'.initialized = v.initialized ∧
      Entered v.agents v.heap v.inst.id v' s := by
  obtain ⟨heap, rfl, hid⟩ := commandAgents_spec h
  refine ⟨⟨rfl, rfl, ?_⟩, rfl, rfl, .kept hs rfl (length_eq_of_identities hid)⟩
  rw [hid]

/-- Loading the table of traders. -/
theorem loadStaledAgents_cases (v : VolumeStrategy) (env : Env) :
    (env.traders = none ∧ v.loadStaledAgents env = v) ∨
    ∃ traders, env.traders = some traders ∧ v.loadStaledAgents env =
      { v with
        heap := v.heap ++ v.loadedAgents env traders
        agents := newRefs v.heap.length (v.loadedAgents env traders).length } := by
  rw [loadStaledAgents]
  cases env.traders with
  | none => exact Or.inl ⟨rfl, rfl⟩
  | some traders => exact Or.inr ⟨traders, rfl, rfl⟩

theorem entered_sweeping (h : v.collectEverythingFromStaledAgents env = some (v', out)) :
    Keeps v v' ∧ v'.state = v.state ∧ v'.initialized = v.initialized ∧
      Entered v.agents v.heap v.inst.id v' .sweeping := by
  obtain ⟨heap, rfl, hid⟩ := commandAgents_spec h
  rcases loadStaledAgents_cases v env with ⟨-, hload⟩ | ⟨traders, -, hload⟩
  · rw [hload] at hid ⊢
    refine ⟨⟨rfl, rfl, ?_⟩, rfl, rfl, .kept (fun h => by cases h) rfl
      (length_eq_of_identities hid)⟩
    rw [hid]
  · rw [hload] at hid ⊢
    refine ⟨⟨rfl, rfl, ?_⟩, rfl, rfl, .loaded ?_⟩
    · rw [hid, identities, identities, List.map_append]
      exact List.prefix_append _ _
    · show newRefs _ _ = createdRefs v.heap heap
      rw [createdRefs, length_eq_of_identities hid, List.length_append,
        Nat.add_sub_cancel_left]

theorem entered_offloading (h : v.offloadInventory env = some (v', out)) :
    Keeps v v' ∧ v'.state = v.state ∧ v'.initialized = v.initialized ∧
      Entered v.agents v.heap v.inst.id v' .offloadingInventory := by
  have hne : State.offloadingInventory ≠ .fund := fun h => by cases h
  rw [offloadInventory] at h
  split at h
  · obtain ⟨p, hp, heq⟩ := Option.map_eq_some_iff.mp h
    obtain ⟨rfl, -⟩ := Prod.mk.inj heq
    exact ⟨⟨rfl, (handle_identity hp).1, List.prefix_refl _⟩, rfl, rfl, .kept hne rfl rfl⟩
  · obtain ⟨rfl, -⟩ := Prod.mk.inj (Option.some.inj h)
    exact ⟨.refl _, rfl, rfl, .kept hne rfl rfl⟩

theorem entered_fund (h : v.initializeAgents env = some (v', out)) :
    Keeps v v' ∧ v'.state = v.state ∧ v'.initialized = v.initialized ∧
      Entered v.agents v.heap v.inst.id v' .fund := by
  obtain ⟨⟨s', o⟩, hs, heq⟩ := Option.map_eq_some_iff.mp h
  obtain ⟨rfl, -⟩ := Prod.mk.inj heq
  obtain ⟨r, hr, heq⟩ := Option.map_eq_some_iff.mp hs
  obtain ⟨rfl, -⟩ := Prod.mk.inj heq
  refine ⟨⟨rfl, run_handle_identity hr, ?_⟩, rfl, rfl, .funded ?_ (owned_append ?_)⟩
  · rw [identities, identities, List.map_append]
    exact List.prefix_append _ _
  · show v.agents ++ newRefs _ _ = _
    rw [createdRefs_append]
  · intro a ha
    obtain ⟨p, -, rfl⟩ := List.mem_map.mp ha
    rfl

theorem entered_transferring (h : v.transferToSellers env = some (v', out)) :
    Keeps v v' ∧ v'.state = v.state ∧ v'.initialized = v.initialized ∧
      Entered v.agents v.heap v.inst.id v' .transferringTokenToSellers := by
  obtain ⟨⟨s', o⟩, hs, heq⟩ := Option.map_eq_some_iff.mp h
  obtain ⟨rfl, -⟩ := Prod.mk.inj heq
  simp only [transferTokenToSellers] at hs
  split at hs
  · cases hs
  · obtain ⟨r, hr, heq⟩ := Option.map_eq_some_iff.mp hs
    obtain ⟨rfl, -⟩ := Prod.mk.inj heq
    refine ⟨⟨rfl, run_handle_identity hr, ?_⟩, rfl, rfl, .supplied ?_ (owned_append ?_)⟩
    · rw [identities, identities, List.map_append]
      exact List.prefix_append _ _
    · show newRefs _ _ = _
      rw [createdRefs_append]
    · intro a ha
      obtain ⟨p, -, rfl⟩ := List.mem_map.mp ha
      rfl

/-- **THE ENTRY ACTIONS**, all of them. -/
theorem enter_spec {s : State} (h : v.enter env s = some (v', out)) :
    Keeps v v' ∧ v'.state = v.state ∧ v'.initialized = v.initialized ∧
      Entered v.agents v.heap v.inst.id v' s := by
  have hquiet : ∀ {w : VolumeStrategy} {t : State}, Keeps v w ∧ w.state = v.state ∧
      w.initialized = v.initialized ∧ w.agents = v.agents ∧ w.heap = v.heap → t ≠ .fund →
      Keeps v w ∧ w.state = v.state ∧ w.initialized = v.initialized ∧
        Entered v.agents v.heap v.inst.id w t := by
    rintro w t ⟨hk, hs, hi, ha, hh⟩ ht
    exact ⟨hk, hs, hi, .kept ht ha (by rw [hh])⟩
  cases s with
  | sweeping => exact entered_sweeping h
  | offloadingInventory => exact entered_offloading h
  | fund => exact entered_fund h
  | buying => exact entered_of_commandAgents (fun h => by cases h) h
  | collectingTokens => exact entered_of_commandAgents (fun h => by cases h) h
  | transferringTokenToSellers => exact entered_transferring h
  | selling => exact entered_of_commandAgents (fun h => by cases h) h
  | collectingSol => exact entered_of_commandAgents (fun h => by cases h) h
  | sleeping =>
      obtain ⟨rfl, -⟩ := Prod.mk.inj (Option.some.inj h)
      exact hquiet ⟨⟨rfl, rfl, List.prefix_refl _⟩, rfl, rfl, rfl, rfl⟩ (fun h => by cases h)
  | idle =>
      obtain ⟨rfl, -⟩ := Prod.mk.inj (Option.some.inj h)
      exact hquiet ⟨.refl _, rfl, rfl, rfl, rfl⟩ (fun h => by cases h)
  | error _ =>
      obtain ⟨rfl, -⟩ := Prod.mk.inj (Option.some.inj h)
      exact hquiet ⟨⟨rfl, rfl, List.prefix_refl _⟩, rfl, rfl, rfl, rfl⟩ (fun h => by cases h)

end VolumeStrategy

-- ── What a step can do ──────────────────────────────────────────────────────

/-- The edges of the machine, by the main wallet's state and the agents' status. -/
inductive Edge (wallet : FoxfireAgent.State) (status : VolumeStrategy.ExecutionStatus) :
    State → State → Prop where
  | swept (h : status = .done ∨ status = .error) :
      Edge wallet status .sweeping .offloadingInventory
  | offloaded (h : wallet = .success ∨ (∃ msg, wallet = .error msg) ∨
      wallet = .deactivated ∨ wallet = .idle) : Edge wallet status .offloadingInventory .fund
  | funded (h : wallet = .success) : Edge wallet status .fund .buying
  | fundingFailed {msg : ErrorMsg} (h : wallet = .error msg) :
      Edge wallet status .fund .sweeping
  | bought (h : status = .done) : Edge wallet status .buying .collectingTokens
  | buyingFailed (h : status = .error ∨ status = .idle) :
      Edge wallet status .buying .sweeping
  | tokensCollected (h : status = .done) :
      Edge wallet status .collectingTokens .transferringTokenToSellers
  | collectionFailed (h : status = .error) : Edge wallet status .collectingTokens .sweeping
  | supplied (h : wallet = .success ∨ wallet = .idle) :
      Edge wallet status .transferringTokenToSellers .selling
  | supplyFailed (h : (∃ msg, wallet = .error msg) ∨ wallet = .deactivated) :
      Edge wallet status .transferringTokenToSellers .offloadingInventory
  | sold (h : status = .done) : Edge wallet status .selling .collectingSol
  | saleFailed (h : status = .error) : Edge wallet status .selling .sweeping
  | solCollected (h : status = .done) : Edge wallet status .collectingSol .sleeping
  | solFailed (h : status = .error) : Edge wallet status .collectingSol .sweeping
  | awake : Edge wallet status .sleeping .fund

/-- The edges out of the current state. -/
abbrev VolumeStrategy.EdgeTo (v : VolumeStrategy) (target : State) : Prop :=
  Edge v.mainWallet.state v.getExecutionStatus v.state target

/-- The states whose exit action is `zero_agents`. -/
def State.clears : State → Bool
  | .sweeping         => true
  | .collectingTokens => true
  | .collectingSol    => true
  | _                 => false

/-- The agents that are left when the current state has been left. -/
def VolumeStrategy.leaves (v : VolumeStrategy) : List AgentRef :=
  if v.state.clears then [] else v.agents

/-- What the handler of an event can do. -/
inductive Handled (v v' : VolumeStrategy) : Prop where
  | stays (hstate : v'.state = v.state) (hagents : v'.agents = v.agents)
      (hheap : v'.heap = v.heap)
  | moves (hedge : v.EdgeTo v'.state)
      (hentered : Entered v.leaves v.heap v.inst.id v' v'.state)

/-- What a step can do. -/
inductive StepOutcome (v : VolumeStrategy) (i : Input) (v' : VolumeStrategy) : Prop where
  /-- A task delivered an event, or the event is not for the strategy. -/
  | quiet (hinit : v'.initialized = v.initialized) (hstate : v'.state = v.state)
      (hagents : v'.agents = v.agents) (hlen : v'.heap.length = v.heap.length)
  | handled {e : BotEvent} {initEnv env : Env} (hev : i = .event e initEnv env)
      (hinit : v.initialized = true) (hinit' : v'.initialized = true)
      (hhandled : Handled v v')
  /-- The first event: the initial state is entered, then the event is handled. -/
  | started {e : BotEvent} {initEnv env : Env} {v₁ : VolumeStrategy}
      (hev : i = .event e initEnv env) (hinit : v.initialized = false)
      (hinit' : v'.initialized = true) (hinit₁ : v₁.initialized = true)
      (hstate : v₁.state = v.state) (hkeeps : Keeps v v₁) (hkeeps' : Keeps v₁ v')
      (hentered : Entered v.agents v.heap v.inst.id v₁ v.state) (hhandled : Handled v₁ v')

namespace VolumeStrategy

variable {v v' : VolumeStrategy} {env : Env} {out : List Effect}

theorem exit_eq (v : VolumeStrategy) : v.exit.1 = { v with agents := v.leaves } := by
  obtain ⟨state⟩ := v
  cases state <;> rfl

/-- A handler changes nothing but the timer. -/
theorem dispatch_timer (v : VolumeStrategy) (e : BotEvent) (now : Instant) :
    ∃ w, (v.dispatch e now).1 = { v with stopwatch := w } := by
  have hself : ∃ w, v = { v with stopwatch := w } := ⟨v.stopwatch, rfl⟩
  unfold dispatch
  split
  · split <;> exact hself
  · split <;> exact hself
  · split <;> exact hself
  · split <;> exact hself
  · split <;> exact hself
  · split <;> exact hself
  · split <;> exact hself
  · split <;> exact hself
  · split
    · split
      · exact ⟨_, rfl⟩
      · exact hself
    · exact hself
  · exact hself
  · exact hself

/-- The transition it asks for is an edge of the machine. -/
theorem dispatch_edge {e : BotEvent} {now : Instant} {target : State}
    (h : (v.dispatch e now).2 = .transition target) : v.EdgeTo target := by
  unfold dispatch at h
  rw [EdgeTo]
  cases hs : v.state with
  | sweeping =>
      rw [hs] at h
      cases hx : v.getExecutionStatus <;> rw [hx] at h <;> cases h
      · exact .swept (Or.inr rfl)
      · exact .swept (Or.inl rfl)
  | offloadingInventory =>
      rw [hs] at h
      cases hw : v.mainWallet.state <;> rw [hw] at h <;> cases h
      · exact .offloaded (Or.inr (Or.inr (Or.inr rfl)))
      · exact .offloaded (Or.inl rfl)
      · exact .offloaded (Or.inr (Or.inl ⟨_, rfl⟩))
      · exact .offloaded (Or.inr (Or.inr (Or.inl rfl)))
  | fund =>
      rw [hs] at h
      cases hw : v.mainWallet.state <;> rw [hw] at h <;> cases h
      · exact .funded rfl
      · exact .fundingFailed rfl
  | buying =>
      rw [hs] at h
      cases hx : v.getExecutionStatus <;> rw [hx] at h <;> cases h
      · exact .buyingFailed (Or.inr rfl)
      · exact .buyingFailed (Or.inl rfl)
      · exact .bought rfl
  | collectingTokens =>
      rw [hs] at h
      cases hx : v.getExecutionStatus <;> rw [hx] at h <;> cases h
      · exact .collectionFailed rfl
      · exact .tokensCollected rfl
  | transferringTokenToSellers =>
      rw [hs] at h
      cases hw : v.mainWallet.state <;> rw [hw] at h <;> cases h
      · exact .supplied (Or.inr rfl)
      · exact .supplied (Or.inl rfl)
      · exact .supplyFailed (Or.inl ⟨_, rfl⟩)
      · exact .supplyFailed (Or.inr rfl)
  | selling =>
      rw [hs] at h
      cases hx : v.getExecutionStatus <;> rw [hx] at h <;> cases h
      · exact .saleFailed rfl
      · exact .sold rfl
  | collectingSol =>
      rw [hs] at h
      cases hx : v.getExecutionStatus <;> rw [hx] at h <;> cases h
      · exact .solFailed rfl
      · exact .solCollected rfl
  | sleeping =>
      rw [hs] at h
      cases e with
      | heartBeat tick at_ =>
          by_cases ht : v.stopwatch.isTimeElapsed tick now = true
          · simp only [if_pos ht] at h
            cases h
            exact .awake
          · simp only [if_neg ht] at h
            cases h
      | blockchainEvent _ => cases h
      | derivedEvent _ => cases h
      | executionResult _ _ _ => cases h
      | systemEvent _ => cases h
  | idle => rw [hs] at h; cases h
  | error _ => rw [hs] at h; cases h

theorem transition_spec {target : State} (h : v.transition env target = some (v', out)) :
    Keeps v v' ∧ v'.state = target ∧ v'.initialized = v.initialized ∧
      Entered v.leaves v.heap v.inst.id v' target := by
  obtain ⟨⟨w, o⟩, hw, heq⟩ := Option.map_eq_some_iff.mp h
  obtain ⟨rfl, -⟩ := Prod.mk.inj heq
  rw [exit_eq] at hw
  obtain ⟨hk, hs, hi, hent⟩ := enter_spec hw
  exact ⟨⟨hk.inst, hk.wallet, hk.heap⟩, hs, hi, hent⟩

theorem handleEvent_spec {e : BotEvent} (h : v.handleEvent e env = some (v', out)) :
    Keeps v v' ∧ v'.initialized = v.initialized ∧ Handled v v' := by
  obtain ⟨sw, hsw⟩ := dispatch_timer v e env.now
  cases hd : v.dispatch e env.now with
  | mk w resp =>
      rw [hd] at hsw
      obtain rfl := hsw
      rw [handleEvent, hd] at h
      cases resp with
      | transition target =>
          have hedge : v.EdgeTo target := dispatch_edge (congrArg Prod.snd hd)
          obtain ⟨hk, rfl, hi, hent⟩ := transition_spec h
          exact ⟨⟨hk.inst, hk.wallet, hk.heap⟩, hi, .moves hedge hent⟩
      | handled =>
          obtain ⟨rfl, -⟩ := Prod.mk.inj (Option.some.inj h)
          exact ⟨⟨rfl, rfl, List.prefix_refl _⟩, rfl, .stays rfl rfl rfl⟩
      | super =>
          obtain ⟨rfl, -⟩ := Prod.mk.inj (Option.some.inj h)
          exact ⟨⟨rfl, rfl, List.prefix_refl _⟩, rfl, .stays rfl rfl rfl⟩

/-- A spawned task changes nothing that a handler reads. -/
theorem handled_spawn {e : BotEvent} (h : Handled (v.spawn e) v') : Handled v v' := by
  cases h with
  | stays hstate hagents hheap => exact .stays hstate hagents hheap
  | moves hedge hentered => exact .moves hedge hentered

theorem handle_spec {e : BotEvent} {initEnv : Env}
    (h : v.handle e initEnv env = some (v', out)) :
    Keeps v v' ∧ StepOutcome v (.event e initEnv env) v' := by
  obtain ⟨⟨v₁, o₁⟩, hinit, hrest⟩ := Option.bind_eq_some_iff.mp h
  obtain ⟨⟨v₂, o₂⟩, hev, heq⟩ := Option.map_eq_some_iff.mp hrest
  obtain ⟨rfl, -⟩ := Prod.mk.inj heq
  obtain ⟨hk, hi, hh⟩ := handleEvent_spec hev
  rw [init] at hinit
  by_cases hv : v.initialized = true
  · rw [if_pos hv] at hinit
    obtain ⟨rfl, -⟩ := Prod.mk.inj (Option.some.inj hinit)
    exact ⟨⟨hk.inst, hk.wallet, hk.heap⟩, .handled rfl hv (hi.trans hv) (handled_spawn hh)⟩
  · rw [if_neg hv] at hinit
    obtain ⟨⟨w, o⟩, hw, heq⟩ := Option.map_eq_some_iff.mp hinit
    obtain ⟨rfl, -⟩ := Prod.mk.inj heq
    obtain ⟨hk₁, hs₁, -, hent⟩ := enter_spec hw
    have hkw : Keeps v { w with initialized := true } := ⟨hk₁.inst, hk₁.wallet, hk₁.heap⟩
    exact ⟨hkw.trans ⟨hk.inst, hk.wallet, hk.heap⟩,
      StepOutcome.started rfl (by simpa using hv) hi rfl (by exact hs₁) hkw
        ⟨hk.inst, hk.wallet, hk.heap⟩ (hent.congr rfl rfl) (handled_spawn hh)⟩

/-- A task changes the states of the main wallet and of agents, nothing else. -/
theorem deliver_spec (v : VolumeStrategy) (k : Nat) (i : FoxfireAgent.Input) :
    Keeps v (v.deliver k i).1 ∧ StepOutcome v (.task k i) (v.deliver k i).1 := by
  have hquiet : ∀ {w : VolumeStrategy}, w.inst = v.inst →
      identity w.mainWallet = identity v.mainWallet → identities w.heap = identities v.heap →
      w.initialized = v.initialized → w.state = v.state → w.agents = v.agents →
      Keeps v w ∧ StepOutcome v (.task k i) w := by
    intro w hinst hwallet hheap hinit hstate hagents
    refine ⟨⟨hinst, hwallet, ?_⟩, .quiet hinit hstate hagents (length_eq_of_identities hheap)⟩
    rw [hheap]
  rw [deliver]
  cases v.tasks[k]? with
  | none => exact hquiet rfl rfl rfl rfl rfl rfl
  | some t =>
      by_cases hw : t.wallet = true
      · simp only [if_pos hw]
        cases hh : FoxfireAgent.handle v.mainWallet { i with event := t.event } with
        | none => exact hquiet rfl rfl rfl rfl rfl rfl
        | some p => exact hquiet rfl (handle_identity hh).1 rfl rfl rfl rfl
      · simp only [if_neg hw]
        cases t.agents with
        | nil => exact hquiet rfl rfl rfl rfl rfl rfl
        | cons r rs =>
            cases hh : (v.heap[r]?).bind fun a =>
              FoxfireAgent.handle a { i with event := t.event } with
            | none =>
                simp only [hh]
                exact hquiet rfl rfl rfl rfl rfl rfl
            | some p =>
                simp only [hh]
                obtain ⟨a, ha, hp⟩ := Option.bind_eq_some_iff.mp hh
                exact hquiet rfl rfl (identities_set ha (handle_identity hp).1) rfl rfl rfl

end VolumeStrategy

/-- **INVERSION**: everything a step can do. -/
theorem step_cases {v v' : VolumeStrategy} {i : Input} {out : List Effect}
    (h : volume v i = some (v', out)) : Keeps v v' ∧ StepOutcome v i v' := by
  cases i with
  | event e initEnv env =>
      simp only [volume, VolumeStrategy.processEvent] at h
      split at h
      · exact VolumeStrategy.handle_spec h
      · obtain ⟨rfl, -⟩ := Prod.mk.inj (Option.some.inj h)
        exact ⟨.refl _, .quiet rfl rfl rfl rfl⟩
  | task k i =>
      simp only [volume, Option.some.injEq] at h
      have hspec := VolumeStrategy.deliver_spec v k i
      rw [h] at hspec
      exact hspec

end FoxfireVolume
