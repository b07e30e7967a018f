import FoxfireSniper.MainWalletProofs

/-! # The sweeper strategy

    `src/strategies/sweeper_strategy/strategy_state_machine.rs`: list the traders of an
    instance that hold anything, let each transfer what it holds to the main wallet, sell
    the tokens there.  The traders are agents of the volume strategy.

    As in `VolumeHandlerProofs`, a step of the handler is what it does under one lock, and
    the tasks of `on_dispatch` may lock the same agents in between.  An agent may panic
    here: `collect` unwraps a main wallet, which these agents lack.  The panic ends the task
    or the handler that called the agent; the agent stays in the state that it was entering,
    and can be called again.

    **`handed`** is what a move gives to an agent, and **`move_cases`** everything a move
    can do. -/

namespace FoxfireAgent

open FoxfireTypes FoxfireAttempt

/-- `handle`, with what is left of the agent after a panic: the state is changed before the
    entry action runs. -/
def Agent.react (m : Agent) (i : Input) : Agent × Option (List Effect) :=
  match handle m i with
  | some p => (p.1, some p.2)
  | none   =>
      match m.dispatch i with
      | (a, .transition target) => (⟨target, a⟩, none)
      | (a, _)                  => (⟨m.state, a⟩, none)

theorem react_handled {m m' : Agent} {i : Input} {out : List Effect}
    (h : handle m i = some (m', out)) : m.react i = (m', some out) := by
  rw [Agent.react, h]

/-- A transition leads to its target, whether the entry action panics or not. -/
theorem react_transition {m : Agent} {i : Input} {a : AgentState} {target : State}
    (hd : m.dispatch i = (a, .transition target)) : (m.react i).1.state = target := by
  cases h : handle m i with
  | none => rw [Agent.react, h, hd]
  | some p =>
      rw [react_handled h]
      exact (handle_transition hd h).1

/-- A panic is one of `collect`. -/
theorem react_panics {m : Agent} {i : Input} {a : AgentState} {target : State}
    (hd : m.dispatch i = (a, .transition target)) (hc : target.collects = true)
    (hw : m.storage.mainWallet = none) : (m.react i).2 = none := by
  have hnone : handle m i = none := by
    cases h : handle m i with
    | none => rfl
    | some p =>
        have howner := enter_collects hc (handle_transition hd h).2
        obtain ⟨t, ht⟩ := FoxfireVolume.dispatch_storage m i
        rw [hd] at ht
        dsimp only at ht
        rw [ht, hw] at howner
        cases howner
  rw [Agent.react, hnone, hd]

/-- A handler that stays does not panic. -/
theorem react_stays {m : Agent} {i : Input} {a : AgentState} {resp : Response State}
    (hd : m.dispatch i = (a, resp)) (hresp : resp = .super ∨ resp = .handled) :
    m.react i = (⟨m.state, a⟩, some []) := by
  have hstep : handle m i = some (⟨m.state, a⟩, []) := by
    rw [handle, hd]
    rcases hresp with rfl | rfl
    · rfl
    · rfl
  exact react_handled hstep

/-- An agent that does not collect afterwards has not panicked. -/
theorem react_handles {m : Agent} {i : Input} (hc : (m.react i).1.state.collects = false) :
    ∃ out, handle m i = some ((m.react i).1, out) ∧ (m.react i).2 = some out := by
  have hhandled : ∀ {m' : Agent} {out : List Effect}, handle m i = some (m', out) →
      ∃ out, handle m i = some ((m.react i).1, out) ∧ (m.react i).2 = some out := by
    intro m' out h
    rw [react_handled h]
    exact ⟨out, h, rfl⟩
  cases hd : m.dispatch i with
  | mk a resp =>
      cases resp with
      | handled => exact hhandled (by rw [handle, hd])
      | super => exact hhandled (by rw [handle, hd])
      | transition target =>
          rw [react_transition hd] at hc
          obtain ⟨a', out, he⟩ := enter_total (a := a) (i := i) (s := target)
            (fun h => by rw [hc] at h; cases h)
          refine @hhandled ⟨target, a'⟩ out ?_
          rw [handle, hd]
          show Option.map _ (a.enter i target) = _
          rw [he]
          rfl

/-- An agent's storage keeps everything but the bookkeeping of actions. -/
theorem react_storage (m : Agent) (i : Input) :
    ∃ t, (m.react i).1.storage = { m.storage with tracker := t } := by
  obtain ⟨t, ht⟩ := FoxfireVolume.dispatch_storage m i
  cases hd : m.dispatch i with
  | mk a resp =>
      rw [hd] at ht
      cases resp with
      | handled =>
          rw [react_stays hd (Or.inr rfl)]
          exact ⟨t, ht⟩
      | super =>
          rw [react_stays hd (Or.inl rfl)]
          exact ⟨t, ht⟩
      | transition target =>
          cases h : handle m i with
          | none =>
              rw [Agent.react, h, hd]
              exact ⟨t, ht⟩
          | some p =>
              rw [react_handled h]
              obtain ⟨⟨t', hst⟩, -⟩ := FoxfireVolume.enter_storage (handle_transition hd h).2
              refine ⟨t', ?_⟩
              rw [hst, show a = _ from ht]

/-- The state after an event, also after a panic. -/
theorem react_turns (m : Agent) (i : Input) : Turns m i.event (m.react i).1.state := by
  cases hd : m.dispatch i with
  | mk a resp =>
      cases resp with
      | transition target =>
          rw [react_transition hd]
          exact dispatch_turns (congrArg Prod.snd hd)
      | handled =>
          rw [react_stays hd (Or.inr rfl)]
          exact .stays
      | super =>
          rw [react_stays hd (Or.inl rfl)]
          exact .stays

end FoxfireAgent

namespace FoxfireSweeper

open FoxfireTypes FoxfireAttempt FoxfireAgent MachineRun
open FoxfireVolume (VolumeInstance Trader AgentRef DispatchTask Member Forwards)

inductive State where
  | list
  | sweeping
  | sellingTokenMainW
  | done
  deriving DecidableEq, Repr

/-- `StateMachine<SweeperStrategyStateMachine>`.  The agents are created once; a reference
    to one is its position. -/
structure Sweeper where
  state       : State
  initialized : Bool
  inst        : VolumeInstance
  pool        : RaydiumPool
  mainWallet  : Agent
  agents      : List Agent
  tasks       : List DispatchTask

/-- The answers that an entry action gets. -/
structure Env where
  now            : Instant
  /-- The table of traders, `none` if the query fails. -/
  traders        : Option (List Trader)
  /-- `KeypairClonable::new_from_privkey` -/
  newFromPrivkey : String → Option Keypair
  /-- `get_balance`, `none` for an error. -/
  solBalance     : Pubkey → Option UInt64
  /-- `get_token_balance` for the pool's base mint, `none` for an error. -/
  tokenBalance   : Pubkey → Option UInt64
  /-- Clock and uuid for a command to the main wallet. -/
  walletInput    : FoxfireAgent.Input
  /-- Clock and uuid for a command to an agent. -/
  agentInput     : AgentRef → FoxfireAgent.Input

/-- What the strategy does: what its agents do, and their panics. -/
inductive Output where
  | effect (e : Effect)
  /-- `collect` unwrapped an absent main wallet. -/
  | collectPanics (agent : Pubkey)

/-- A command that an entry action has to give. -/
structure Order where
  receiver : Member
  input    : FoxfireAgent.Input
  command  : Agent → AgentEvent

def Order.event (o : Order) (agent : Agent) : FoxfireAgent.Input :=
  { o.input with event := .forAgent (o.command agent) }

/-- The outputs of an agent's reaction. -/
def outputs (agent : Agent) : Option (List Effect) → List Output
  | some out => out.map .effect
  | none     => [.collectPanics agent.storage.pubkey]

/-- What a task still has to do when it has told the next one. -/
def told (t : DispatchTask) : DispatchTask :=
  if t.wallet then { t with wallet := false } else { t with agents := t.agents.tail }

inductive ExecutionStatus where
  | idle
  | error
  | done
  | pending
  deriving DecidableEq, Repr

namespace Sweeper

-- ── Entry actions ───────────────────────────────────────────────────────────

/-- A trader becomes an agent if it owns anything worth sweeping and its key can be read.
    The main wallet that the agent gets is that of the main wallet's own agent. -/
def agentOfTrader (s : Sweeper) (env : Env) (trader : Trader) : Option Agent :=
  match env.solBalance trader.wallet with
  | none => none
  | some sol =>
      if sol < newAccountThresholdSol ∧ (env.tokenBalance trader.wallet).getD 0
          < FoxfireVolume.asU64 s.inst.agentsKeepTokensLamports then none
      else
        (env.newFromPrivkey trader.privateKey).map fun key =>
          Agent.new s.pool key trader.strategyInstanceId s.mainWallet.storage.mainWallet env.now

/-- The rows that are selected: the trader's own id is compared with the instance's. -/
def selects (s : Sweeper) (trader : Trader) : Bool :=
  trader.id = s.inst.id && trader.wallet ≠ s.mainWallet.storage.pubkey

/-- `get_agents_with_balance`. -/
def getAgentsWithBalance (s : Sweeper) (env : Env) : Sweeper :=
  match env.traders with
  | none => s
  | some traders =>
      { s with agents := (traders.filter s.selects).filterMap (s.agentOfTrader env) }

/-- The transfers of `sweep` for one agent. -/
def sweepTransfers (s : Sweeper) (env : Env) (agent : Agent) : List SolanaTransferActionPayload :=
  let sol : SolanaTransferActionPayload := ⟨.sol, s.mainWallet.storage.pubkey, .max⟩
  if 0 < (env.tokenBalance agent.storage.pubkey).getD 0 then
    [⟨.token s.pool.baseMint, s.mainWallet.storage.pubkey, .maxAndClose⟩, sol]
  else [sol]

/-- `sweep`: the agents get their command one after the other. -/
def sweep (s : Sweeper) (env : Env) : List Order :=
  (List.range s.agents.length).map fun r =>
    ⟨some r, env.agentInput r, fun agent => .transfer (s.sweepTransfers env agent)⟩

/-- `sell_token`. -/
def sellToken (env : Env) : List Order := [⟨none, env.walletInput, fun _ => .sell .max⟩]

/-- What an entry action does before it gives its commands, and the commands. -/
def prepare (s : Sweeper) (env : Env) : State → Sweeper × List Order
  | .list              => (s.getAgentsWithBalance env, [])
  | .sweeping          => (s, s.sweep env)
  | .sellingTokenMainW => (s, sellToken env)
  | .done              => (s, [])

-- ── The agents and the main wallet ──────────────────────────────────────────

def member (s : Sweeper) : Member → Option Agent
  | none   => some s.mainWallet
  | some r => s.agents[r]?

def setMember (s : Sweeper) (agent : Agent) : Member → Sweeper
  | none   => { s with mainWallet := agent }
  | some r => { s with agents := s.agents.set r agent }

/-- `on_dispatch`: a task will pass the event on. -/
def spawn (s : Sweeper) (event : BotEvent) : Sweeper :=
  { s with tasks := s.tasks ++ [⟨.original event, true, List.range s.agents.length⟩] }

/-- One of them handles an event. -/
def tell (s : Sweeper) (who : Member) (a : Agent) (i : FoxfireAgent.Input) :
    Sweeper × List Output :=
  (s.setMember (a.react i).1 who, outputs a (a.react i).2)

/-- Whom a task tells next. -/
def receiver (s : Sweeper) (t : DispatchTask) : Option (Member × Agent) :=
  t.receiver.bind fun who => (s.member who).map fun a => (who, a)

/-- The next delivery of a task.  A panic ends the task. -/
def deliver (s : Sweeper) (k : Nat) (i : FoxfireAgent.Input) : Sweeper × List Output :=
  match s.tasks[k]? with
  | none => (s, [])
  | some t =>
      match s.receiver t with
      | none          => ({ s with tasks := s.tasks.eraseIdx k }, [])
      | some (who, a) =>
          let i := { i with event := t.event }
          ({ (s.tell who a i).1 with
              tasks := if (a.react i).2.isSome then s.tasks.set k (told t)
                else s.tasks.eraseIdx k },
            (s.tell who a i).2)

/-- `SweeperStrategyStateMachine::new(...).state_machine()`. -/
def new (inst : VolumeInstance) (pool : RaydiumPool) (key : Keypair) (now : Instant) : Sweeper where
  state := .list
  initialized := false
  inst := inst
  pool := pool
  mainWallet := Agent.new pool key none none now
  agents := []
  tasks := []

end Sweeper

-- ── The handler ─────────────────────────────────────────────────────────────

/-- Where the strategy's handler is. -/
inductive Phase where
  /-- Between two events. -/
  | waiting
  /-- In an entry action, with these commands left.  The first event is handled once the
      initial state has been entered. -/
  | entering (orders : List Order) (next : Option (BotEvent × Env))
  /-- `on_dispatch` has run, the state's handler has not. -/
  | called (env : Env)
  /-- In `get_execution_status`, with these agents left. -/
  | asking (env : Env) (successes : Nat) (rest : List AgentRef)
  | panicked

structure Config where
  sweeper : Sweeper
  phase   : Phase

/-- The handler of `sweeping`. -/
def onStatus : ExecutionStatus → Response State
  | .done => .transition .sellingTokenMainW
  | _     => .super

/-- The states that `get_execution_status` takes for an end. -/
def terminal : FoxfireAgent.State → Bool
  | .success     => true
  | .error _     => true
  | .deactivated => true
  | _            => false

namespace Config

/-- Begin an entry action. -/
def enter (s : Sweeper) (env : Env) (next : Option (BotEvent × Env)) : Config :=
  ⟨(s.prepare env s.state).1, .entering (s.prepare env s.state).2 next⟩

/-- Do what the state's handler answered. -/
def respond (s : Sweeper) (env : Env) : Response State → Config
  | .transition target => enter { s with state := target } env none
  | _                  => ⟨s, .waiting⟩

/-- Call the handler of the current state. -/
def call (s : Sweeper) (env : Env) : Config :=
  match s.state with
  | .list              => respond s env (.transition .sweeping)
  | .sweeping          =>
      if s.agents.isEmpty then respond s env (onStatus .idle)
      else ⟨s, .asking env 0 (List.range s.agents.length)⟩
  | .sellingTokenMainW => respond s env (.transition .done)
  | .done              => respond s env .handled

/-- Read the next agent's state. -/
def ask (s : Sweeper) (env : Env) (successes : Nat) : List AgentRef → Config
  | [] => respond s env (onStatus (if 0 < successes then .done else .error))
  | r :: rest =>
      match s.agents[r]? with
      | none => ⟨s, .asking env successes rest⟩
      | some agent =>
          if terminal agent.state then
            ⟨s, .asking env (if agent.state = .success then successes + 1 else successes) rest⟩
          else respond s env (onStatus .pending)

/-- Give the next command.  A panic of the receiver is one of the handler. -/
def command (s : Sweeper) (o : Order) (orders : List Order) (next : Option (BotEvent × Env)) :
    Config × List Output :=
  match s.member o.receiver with
  | none   => (⟨s, .entering orders next⟩, [])
  | some a =>
      (⟨(s.tell o.receiver a (o.event a)).1,
          if (a.react (o.event a)).2.isSome then .entering orders next else .panicked⟩,
        (s.tell o.receiver a (o.event a)).2)

/-- The handler's next lock. -/
def advance (c : Config) : Config × List Output :=
  match c.phase with
  | .waiting                     => (c, [])
  | .entering [] none            => (⟨c.sweeper, .waiting⟩, [])
  | .entering [] (some (e, env)) =>
      (⟨{ c.sweeper with initialized := true }.spawn e, .called env⟩, [])
  | .entering (o :: os) next     => command c.sweeper o os next
  | .called env                  => (call c.sweeper env, [])
  | .asking env successes rest   => (ask c.sweeper env successes rest, [])
  | .panicked                    => (c, [])

end Config

/-- The events that `process_event` gives to the machine. -/
def isProcessed : BotEvent → Bool
  | .heartBeat _ _     => true
  | .blockchainEvent _ => true
  | _                  => false

/-- `process_event`, when the handler is free. -/
def Config.take (c : Config) (e : BotEvent) (initEnv env : Env) : Option Config :=
  match c.phase with
  | .waiting =>
      if isProcessed e then
        if c.sweeper.initialized then some ⟨c.sweeper.spawn e, .called env⟩
        else some (enter c.sweeper initEnv (some (e, env)))
      else some c
  | _ => none

/-- What moves a configuration: an event for the strategy, the handler's next lock, or a
    delivery by a task. -/
inductive Move where
  | event (e : BotEvent) (initEnv env : Env)
  | advance
  | task (k : Nat) (i : FoxfireAgent.Input)

/-- **ONE LOCK.** -/
def sweeper : Step Config Move Output
  | c, .event e initEnv env => (c.take e initEnv env).map fun c' => (c', [])
  | c, .advance             => some c.advance
  | c, .task k i            =>
      some (⟨(c.sweeper.deliver k i).1, c.phase⟩, (c.sweeper.deliver k i).2)

/-- A new strategy, before its first event. -/
def Config.new (inst : VolumeInstance) (pool : RaydiumPool) (key : Keypair) (now : Instant) :
    Config :=
  ⟨Sweeper.new inst pool key now, .waiting⟩

-- ── What a move can do ──────────────────────────────────────────────────────

/-- The commands left to an entry action. -/
def Config.orders (c : Config) : List Order :=
  match c.phase with
  | .entering orders _ => orders
  | _                  => []

/-- Who is given an event by a move, and which. -/
def handed (c : Config) : Move → Option (Member × Agent × FoxfireAgent.Input)
  | .event _ _ _ => none
  | .advance     =>
      match c.phase with
      | .entering (o :: _) _ => (c.sweeper.member o.receiver).map fun a =>
          (o.receiver, a, o.event a)
      | _ => none
  | .task k i    =>
      match c.sweeper.tasks[k]? with
      | none   => none
      | some t => (c.sweeper.receiver t).map fun p => (p.1, p.2, { i with event := t.event })

/-- The same members in the same state: only tasks may differ. -/
structure Same (s s' : Sweeper) : Prop where
  state    : s'.state = s.state
  init     : s.initialized = true → s'.initialized = true
  inst     : s'.inst = s.inst
  wallet   : s'.mainWallet = s.mainWallet
  agents   : s'.agents = s.agents
  forwards : Forwards s.tasks → Forwards s'.tasks

theorem Same.refl (s : Sweeper) : Same s s := ⟨rfl, id, rfl, rfl, rfl, id⟩

/-- The transitions between the states; only `sweeping` asks. -/
inductive Edge : State → Phase → State → Prop where
  | listed {env : Env} : Edge .list (.called env) .sweeping
  | swept {s : State} {env : Env} {n : Nat} (hn : 0 < n) :
      Edge s (.asking env n []) .sellingTokenMainW
  | sold {env : Env} : Edge .sellingTokenMainW (.called env) .done

theorem Edge.calls {s target : State} {p : Phase} (h : Edge s p target) :
    ∀ o os next, p ≠ .entering (o :: os) next := by
  intro o os next hp
  rw [hp] at h
  cases h

/-- Everything a move can do. -/
inductive Moved (c : Config) : Move → Config → List Output → Prop where
  /-- Nothing happens to the members, or to the handler. -/
  | rests {m : Move} {c' : Config} (hhanded : handed c m = none)
      (hsame : Same c.sweeper c'.sweeper) (hphase : c'.phase = c.phase) : Moved c m c' []
  /-- An entry action is complete. -/
  | settles {c' : Config} (hsame : Same c.sweeper c'.sweeper)
      (hentering : c.phase = .entering [] none) (hphase : c'.phase = .waiting) :
      Moved c .advance c' []
  /-- A task is spawned and the state's handler called. -/
  | calls {m : Move} {c' : Config} {env : Env} (hhanded : handed c m = none)
      (hsame : Same c.sweeper c'.sweeper) (hinit : c'.sweeper.initialized = true)
      (hidle : c.phase = .waiting ∨ ∃ p, c.phase = .entering [] (some p))
      (hphase : c'.phase = .called env) : Moved c m c' []
  /-- `get_execution_status` begins. -/
  | asks {c' : Config} {env : Env} (hsame : Same c.sweeper c'.sweeper)
      (hcalled : c.phase = .called env) (hstate : c.sweeper.state = .sweeping)
      (hphase : c'.phase = .asking env 0 (List.range c.sweeper.agents.length)) :
      Moved c .advance c' []
  /-- It reads an agent that has come to an end. -/
  | reads {c' : Config} {env : Env} {n n' : Nat} {r : AgentRef} {rest : List AgentRef}
      (hsame : Same c.sweeper c'.sweeper) (hasking : c.phase = .asking env n (r :: rest))
      (hread : ∀ a, c.sweeper.agents[r]? = some a → terminal a.state = true ∧
        n' = if a.state = .success then n + 1 else n)
      (hmissing : c.sweeper.agents[r]? = none → n' = n)
      (hphase : c'.phase = .asking env n' rest) : Moved c .advance c' []
  /-- The state's handler has nothing to do: an agent is at work, none succeeded, none is
      there, or the sweep is over. -/
  | stays {c' : Config} {env : Env} (hsame : Same c.sweeper c'.sweeper)
      (hwhy : (∃ n r rest a, c.phase = .asking env n (r :: rest) ∧
          c.sweeper.agents[r]? = some a ∧ terminal a.state = false) ∨
        c.phase = .asking env 0 [] ∨
        (c.phase = .called env ∧ c.sweeper.agents = []) ∨
        (c.phase = .called env ∧ c.sweeper.state = .done))
      (hphase : c'.phase = .waiting) : Moved c .advance c' []
  /-- A task delivers its event. -/
  | delivers {k : Nat} {i : FoxfireAgent.Input} {c' : Config} {t : DispatchTask}
      {who : Member} {a : Agent} (htask : c.sweeper.tasks[k]? = some t)
      (hmember : c.sweeper.member who = some a)
      (hhanded : handed c (.task k i) = some (who, a, { i with event := t.event }))
      (hsame : Same (c.sweeper.setMember (a.react { i with event := t.event }).1 who) c'.sweeper)
      (hphase : c'.phase = c.phase) :
      Moved c (.task k i) c' (outputs a (a.react { i with event := t.event }).2)
  /-- A command is given. -/
  | commands {c' : Config} {o : Order} {orders : List Order} {next : Option (BotEvent × Env)}
      {a : Agent} (hentering : c.phase = .entering (o :: orders) next)
      (hmember : c.sweeper.member o.receiver = some a)
      (hsame : Same (c.sweeper.setMember (a.react (o.event a)).1 o.receiver) c'.sweeper)
      (hphase : c'.phase
        = if (a.react (o.event a)).2.isSome then .entering orders next else .panicked) :
      Moved c .advance c' (outputs a (a.react (o.event a)).2)
  /-- A command is for nobody. -/
  | misses {c' : Config} {o : Order} {orders : List Order} {next : Option (BotEvent × Env)}
      (hentering : c.phase = .entering (o :: orders) next)
      (hmember : c.sweeper.member o.receiver = none)
      (hsame : Same c.sweeper c'.sweeper) (hphase : c'.phase = .entering orders next) :
      Moved c .advance c' []
  /-- The first event: the initial state is entered. -/
  | begins {e : BotEvent} {initEnv env : Env} (hinit : c.sweeper.initialized = false)
      (hwaiting : c.phase = .waiting) :
      Moved c (.event e initEnv env) (Config.enter c.sweeper initEnv (some (e, env))) []
  /-- Another state is entered. -/
  | moves {env : Env} {target : State} (hedge : Edge c.sweeper.state c.phase target) :
      Moved c .advance (Config.enter { c.sweeper with state := target } env none) []

/-- The command that is next, and those after it. -/
theorem Config.orders_of_entering {c : Config} {o : Order} {orders : List Order}
    {next : Option (BotEvent × Env)} (h : c.phase = .entering (o :: orders) next) :
    o ∈ c.orders ∧ ∀ q ∈ orders, q ∈ c.orders := by
  rw [Config.orders, h]
  exact ⟨List.mem_cons_self, fun q hq => List.mem_cons_of_mem _ hq⟩

/-- When a command has been given, those after it are left, or none after a panic. -/
theorem Config.orders_given {c c' : Config} {o : Order} {orders : List Order}
    {next : Option (BotEvent × Env)} {handled : Bool} (h : c.phase = .entering (o :: orders) next)
    (h' : c'.phase = if handled then .entering orders next else .panicked) :
    ∀ q ∈ c'.orders, q ∈ c.orders := by
  rw [Config.orders, h']
  cases handled with
  | false => exact fun q hq => (by cases hq)
  | true => exact (Config.orders_of_entering h).2

theorem forwards_told {tasks : List DispatchTask} {k : Nat} {t : DispatchTask}
    (hk : tasks[k]? = some t) (h : Forwards tasks) : Forwards (tasks.set k (told t)) := by
  refine FoxfireVolume.forwards_set hk ?_ h
  rw [told]
  split
  · rfl
  · rfl

namespace Config

theorem handed_none {c : Config} {p : Phase} (hp : c.phase = p)
    (hne : ∀ o os next, p ≠ .entering (o :: os) next) : handed c .advance = none := by
  rw [handed, hp]
  cases p with
  | entering orders next =>
      cases orders with
      | nil => rfl
      | cons o os => exact absurd rfl (hne o os next)
  | waiting => rfl
  | called env => rfl
  | asking env n rest => rfl
  | panicked => rfl

theorem call_cases {c : Config} {env : Env} (hc : c.phase = .called env) :
    Moved c .advance (call c.sweeper env) [] := by
  rw [call]
  cases hs : c.sweeper.state with
  | list => exact .moves (by rw [hs, hc]; exact .listed)
  | sweeping =>
      by_cases hempty : c.sweeper.agents.isEmpty = true
      · simp only [if_pos hempty]
        exact .stays (.refl _)
          (Or.inr (Or.inr (Or.inl ⟨hc, List.isEmpty_iff.mp hempty⟩))) rfl
      · simp only [if_neg hempty]
        exact .asks (.refl _) hc hs rfl
  | sellingTokenMainW => exact .moves (by rw [hs, hc]; exact .sold)
  | done => exact .stays (.refl _) (Or.inr (Or.inr (Or.inr ⟨hc, hs⟩))) rfl

theorem ask_cases {c : Config} {env : Env} {n : Nat} {rest : List AgentRef}
    (hc : c.phase = .asking env n rest) : Moved c .advance (ask c.sweeper env n rest) [] := by
  cases rest with
  | nil =>
      rw [ask]
      by_cases hn : 0 < n
      · rw [if_pos hn]
        exact .moves (by rw [hc]; exact .swept hn)
      · rw [if_neg hn]
        obtain rfl : n = 0 := Nat.eq_zero_of_not_pos hn
        exact .stays (.refl _) (Or.inr (Or.inl hc)) rfl
  | cons r rest =>
      rw [ask]
      cases ha : c.sweeper.agents[r]? with
      | none =>
          refine .reads (.refl _) hc ?_ (fun _ => rfl) rfl
          intro a h
          rw [ha] at h
          cases h
      | some a =>
          by_cases ht : terminal a.state = true
          · simp only [if_pos ht]
            refine .reads (.refl _) hc ?_ ?_ rfl
            · intro b h
              rw [ha] at h
              cases h
              exact ⟨ht, rfl⟩
            · intro h
              rw [ha] at h
              cases h
          · simp only [if_neg ht]
            exact .stays (.refl _) (Or.inl ⟨n, r, rest, a, hc, ha, Bool.eq_false_iff.mpr ht⟩) rfl

theorem command_cases {c : Config} {o : Order} {os : List Order}
    {next : Option (BotEvent × Env)} (hc : c.phase = .entering (o :: os) next) :
    Moved c .advance (command c.sweeper o os next).1 (command c.sweeper o os next).2 := by
  rw [command]
  cases hm : c.sweeper.member o.receiver with
  | none => exact .misses hc hm (.refl _) rfl
  | some a => exact .commands hc hm (.refl _) rfl

theorem advance_cases (c : Config) : Moved c .advance c.advance.1 c.advance.2 := by
  rw [advance]
  split
  · next hc => exact .rests (handed_none hc (fun _ _ _ h => by cases h)) (.refl _) rfl
  · next hc => exact .settles (.refl _) hc rfl
  · next e env hc =>
      exact .calls (handed_none hc (fun _ _ _ h => by cases h))
        ⟨rfl, fun _ => rfl, rfl, rfl, rfl, fun h => FoxfireVolume.forwards_spawn h _ _⟩ rfl
        (Or.inr ⟨_, hc⟩) rfl
  · next o os next hc => exact command_cases hc
  · next env hc => exact call_cases hc
  · next env n rest hc => exact ask_cases hc
  · next hc => exact .rests (handed_none hc (fun _ _ _ h => by cases h)) (.refl _) rfl

theorem tell_tasks (s : Sweeper) (who : Member) (a : Agent) (i : FoxfireAgent.Input) :
    (s.tell who a i).1.tasks = s.tasks := by
  cases who <;> rfl

theorem deliver_cases (c : Config) (k : Nat) (i : FoxfireAgent.Input) :
    Moved c (.task k i) ⟨(c.sweeper.deliver k i).1, c.phase⟩ (c.sweeper.deliver k i).2 := by
  have hrest : ∀ {s' : Sweeper}, handed c (.task k i) = none → Same c.sweeper s' →
      Moved c (.task k i) ⟨s', c.phase⟩ [] :=
    fun hhanded hsame => .rests hhanded hsame rfl
  rw [Sweeper.deliver]
  cases htask : c.sweeper.tasks[k]? with
  | none => exact hrest (by rw [handed, htask]) (.refl _)
  | some t =>
      dsimp only
      cases hr : c.sweeper.receiver t with
      | none =>
          refine hrest ?_ ⟨rfl, id, rfl, rfl, rfl, FoxfireVolume.forwards_erase⟩
          simp only [handed, htask, hr, Option.map_none]
      | some p =>
          obtain ⟨who, a⟩ := p
          have hmember : c.sweeper.member who = some a := by
            obtain ⟨q, -, hq⟩ := Option.bind_eq_some_iff.mp hr
            obtain ⟨b, hb, heq⟩ := Option.map_eq_some_iff.mp hq
            obtain ⟨rfl, rfl⟩ := Prod.mk.inj heq
            exact hb
          have hdelivers : ∀ {s' : Sweeper},
              Same (c.sweeper.setMember (a.react { i with event := t.event }).1 who) s' →
              Moved c (.task k i) ⟨s', c.phase⟩
                (outputs a (a.react { i with event := t.event }).2) := by
            intro s' hsame
            refine .delivers htask hmember ?_ hsame rfl
            simp only [handed, htask, hr, Option.map_some]
          refine hdelivers ⟨rfl, id, rfl, rfl, rfl, fun h => ?_⟩
          have htasks : Forwards c.sweeper.tasks := by
            rw [← tell_tasks c.sweeper who a { i with event := t.event }]
            exact h
          show Forwards (if _ then _ else _)
          split
          · exact forwards_told htask htasks
          · exact FoxfireVolume.forwards_erase htasks

end Config

/-- **INVERSION**: everything a move can do. -/
theorem move_cases {c c' : Config} {m : Move} {out : List Output}
    (h : sweeper c m = some (c', out)) : Moved c m c' out := by
  cases m with
  | event e initEnv env =>
      obtain ⟨d, htake, heq⟩ := Option.map_eq_some_iff.mp h
      obtain ⟨rfl, rfl⟩ := Prod.mk.inj heq
      rw [Config.take] at htake
      split at htake
      · next hwaiting =>
          split at htake
          · split at htake
            · next hinit =>
                obtain rfl := Option.some.inj htake
                exact .calls rfl
                  ⟨rfl, id, rfl, rfl, rfl, fun h => FoxfireVolume.forwards_spawn h _ _⟩ hinit
                  (Or.inl hwaiting) rfl
            · next hinit =>
                obtain rfl := Option.some.inj htake
                exact .begins (Bool.eq_false_iff.mpr hinit) hwaiting
          · obtain rfl := Option.some.inj htake
            exact .rests rfl (.refl _) rfl
      · cases htake
  | advance =>
      obtain ⟨rfl, rfl⟩ := Prod.mk.inj (Option.some.inj h)
      exact Config.advance_cases c
  | task k i =>
      obtain ⟨rfl, rfl⟩ := Prod.mk.inj (Option.some.inj h)
      exact Config.deliver_cases c k i

end FoxfireSweeper
