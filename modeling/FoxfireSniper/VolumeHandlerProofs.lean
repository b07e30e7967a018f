import FoxfireSniper.VolumeStrategyProofs

/-! # The volume strategy's handler, one lock at a time

    `VolumeStrategyProofs` takes an event of the strategy as one step.  In the source the
    handler is async: it locks the main wallet and each agent for itself, and between two
    locks the tasks of `on_dispatch` may lock the same machines.  Here a step of the
    handler is what it does under one lock:

    * an entry action first prepares (`prepare`: agents are created, the commands are
      settled), then gives its commands, each under the lock of its receiver.  The loops
      of `sweeping`, `fund` and `transferring_token_to_sellers` give them in turn; the
      others `join_all` and give them in any order;
    * `get_execution_status` reads one agent at a time and returns at the first one that
      is still busy.

    A panic ends the handler and leaves the tasks.

    **`volume_simulated`**: a step of `volume` is a run of this machine, so what holds in
    every configuration here holds in every state there. -/

namespace FoxfireVolume

open FoxfireTypes FoxfireAttempt FoxfireAgent FoxfireFunding MachineRun

/-- The main wallet (`none`), or an agent. -/
abbrev Member := Option AgentRef

/-- A command that an entry action has to give.  What it is may depend on the receiver's
    balances, which are read under the receiver's lock. -/
structure Order where
  receiver : Member
  input    : FoxfireAgent.Input
  choose   : Agent → Option AgentEvent

/-- The receiver handles its command, if there is one. -/
def Order.obey (o : Order) (agent : Agent) : Option (Agent × List Effect) :=
  match o.choose agent with
  | none       => some (agent, [])
  | some event => FoxfireAgent.handle agent { o.input with event := .forAgent event }

theorem obey_cases {o : Order} {a a' : Agent} {out : List Effect}
    (h : o.obey a = some (a', out)) :
    (o.choose a = none ∧ a' = a) ∨ ∃ event, o.choose a = some event ∧
      FoxfireAgent.handle a { o.input with event := .forAgent event } = some (a', out) := by
  rw [Order.obey] at h
  cases hc : o.choose a with
  | none =>
      rw [hc] at h
      exact Or.inl ⟨rfl, (Prod.mk.inj (Option.some.inj h)).1.symm⟩
  | some event =>
      rw [hc] at h
      exact Or.inr ⟨event, rfl, h⟩

namespace VolumeStrategy

def member (v : VolumeStrategy) : Member → Option Agent
  | none   => some v.mainWallet
  | some r => v.heap[r]?

def setMember (v : VolumeStrategy) (agent : Agent) : Member → VolumeStrategy
  | none   => { v with mainWallet := agent }
  | some r => { v with heap := v.heap.set r agent }

/-- Give one command. -/
def give (v : VolumeStrategy) (o : Order) : Option (VolumeStrategy × List Effect) :=
  match v.member o.receiver with
  | none       => some (v, [])
  | some agent => (o.obey agent).map fun p => (v.setMember p.1 o.receiver, p.2)

/-- Give commands in turn. -/
def giveAll : VolumeStrategy → List Order → Option (VolumeStrategy × List Effect)
  | v, []      => some (v, [])
  | v, o :: os =>
      (v.give o).bind fun p => (p.1.giveAll os).map fun q => (q.1, p.2 ++ q.2)

-- ── Entry actions, cut in two ───────────────────────────────────────────────

/-- One command for each agent of the list. -/
def toAgents (v : VolumeStrategy) (env : Env) (choose : Agent → Option AgentEvent) :
    List Order :=
  v.agents.map fun r => ⟨some r, env.agentInput r, choose⟩

/-- One `Transfer` per batch for the main wallet. -/
def toWallet (env : Env) (transfers : List SolanaTransferActionPayload) : List Order :=
  (chunks maxTransfersInOneTx transfers).mapIdx fun k batch =>
    ⟨none, env.tranche.walletInput k, fun _ => some (.transfer batch)⟩

/-- The command of `offload_inventory`. -/
def offloadCommand (env : Env) (wallet : Agent) : Option AgentEvent :=
  if 0 < agentTokens env wallet ∧
      baseTxFeeSol + transferPriorityFeeSol ≤ agentSol env wallet then
    some (.sell .max)
  else none

/-- The transfers of `initialize_agents_with_sol`. -/
def fundingTransfers (v : VolumeStrategy) (env : Env) : List SolanaTransferActionPayload :=
  (buyers v.funding env.tranche).map fun p => ⟨.sol, p.1.pubkey, .exactWithFees p.2⟩

/-- The agents that `transfer_token_to_sellers` creates. -/
def sellers (v : VolumeStrategy) (env : Env) : List Agent :=
  (env.tranche.created v.inst.agentsSellingInTranche).map (v.funding.newAgent env.tranche)

/-- The tokens that each of them is to receive. -/
def sellerAmounts (v : VolumeStrategy) (env : Env) : List UInt64 :=
  env.tranche.dirichlet env.tranche.tokenBalance (asUsize v.inst.agentsSellingInTranche)

/-- The transfers of `transfer_token_to_sellers`. -/
def supplyTransfers (v : VolumeStrategy) (env : Env) : List SolanaTransferActionPayload :=
  (((v.sellers env).zip (v.sellerAmounts env)).map fun p =>
    if eligible p.1 then sellerTransfers v.pool p.1.storage.pubkey p.2 else []).flatten

/-- What an entry action does before it gives its commands, and the commands. -/
def prepare (v : VolumeStrategy) (env : Env) : State → Option (VolumeStrategy × List Order)
  | .sweeping =>
      some (v.loadStaledAgents env,
        (v.loadStaledAgents env).toAgents env fun _ => some .collect)
  | .offloadingInventory => some (v, [⟨none, env.walletInput, offloadCommand env⟩])
  | .fund =>
      let new := (buyers v.funding env.tranche).map fun p => v.funding.newAgent env.tranche p.1
      some ({ v with
          heap := v.heap ++ new
          agents := v.agents ++ newRefs v.heap.length new.length },
        toWallet env (v.fundingTransfers env))
  | .buying => some (v, v.toAgents env fun _ => some (.buy .maxButLeaveForTransfer))
  | .collectingTokens => some (v, v.toAgents env (v.tokenCollection env))
  | .transferringTokenToSellers =>
      if (v.sellers env).length < (v.sellerAmounts env).length then none
      else
        some ({ v with
            heap := v.heap ++ v.sellers env
            agents := newRefs v.heap.length (v.sellers env).length },
          toWallet env (v.supplyTransfers env))
  | .selling       => some (v, v.toAgents env (v.saleCommand env))
  | .collectingSol => some (v, v.toAgents env fun _ => some .collect)
  | .sleeping      => some (v.setSleepTimerBeforeSelling env, [])
  | .idle          => some (v, [])
  | .error _       => some (v.cleanup env, [])

end VolumeStrategy

-- ── The handler ─────────────────────────────────────────────────────────────

/-- Where the strategy's handler is. -/
inductive Phase where
  /-- Between two events. -/
  | waiting
  /-- In an entry action, with these commands left.  The first event is handled once the
      initial state has been entered. -/
  | entering (orders : List Order) (next : Option (BotEvent × Env))
  /-- `on_dispatch` has run, the state's handler has not. -/
  | called (event : BotEvent) (env : Env)
  /-- In `get_execution_status`, with these agents left. -/
  | asking (env : Env) (successes : Nat) (rest : List AgentRef)
  | panicked

structure Config where
  strategy : VolumeStrategy
  phase    : Phase

/-- The entry actions that give their commands one after the other. -/
def State.inTurn : State → Bool
  | .sweeping                   => true
  | .fund                       => true
  | .transferringTokenToSellers => true
  | _                           => false

/-- The states whose handler asks `get_execution_status`. -/
def State.asksAgents : State → Bool
  | .sweeping         => true
  | .buying           => true
  | .collectingTokens => true
  | .selling          => true
  | .collectingSol    => true
  | _                 => false

/-- Where such a state goes with the answer. -/
def State.onStatus : State → VolumeStrategy.ExecutionStatus → Response State
  | .sweeping, .done          => .transition .offloadingInventory
  | .sweeping, .error         => .transition .offloadingInventory
  | .buying, .done            => .transition .collectingTokens
  | .buying, .error           => .transition .sweeping
  | .buying, .idle            => .transition .sweeping
  | .collectingTokens, .done  => .transition .transferringTokenToSellers
  | .collectingTokens, .error => .transition .sweeping
  | .selling, .done           => .transition .collectingSol
  | .selling, .error          => .transition .sweeping
  | .collectingSol, .done     => .transition .sleeping
  | .collectingSol, .error    => .transition .sweeping
  | _, _                      => .super

namespace Config

/-- Begin an entry action. -/
def enter (v : VolumeStrategy) (env : Env) (next : Option (BotEvent × Env)) : Config :=
  match v.prepare env v.state with
  | none   => ⟨v, .panicked⟩
  | some p => ⟨p.1, .entering p.2 next⟩

/-- Do what the state's handler answered. -/
def respond (v : VolumeStrategy) (env : Env) : Response State → Config × List Effect
  | .transition target => (enter { v.exit.1 with state := target } env none, v.exit.2)
  | _                  => (⟨v, .waiting⟩, [])

/-- Call the handler of the current state. -/
def call (v : VolumeStrategy) (event : BotEvent) (env : Env) : Config × List Effect :=
  if v.state.asksAgents then
    if v.agents.isEmpty then respond v env (v.state.onStatus .error)
    else (⟨v, .asking env 0 v.agents⟩, [])
  else respond (v.dispatch event env.now).1 env (v.dispatch event env.now).2

/-- Read the next agent's state. -/
def ask (v : VolumeStrategy) (env : Env) (successes : Nat) :
    List AgentRef → Config × List Effect
  | [] => respond v env
      (v.state.onStatus (if successes = v.agents.length then .done else .error))
  | r :: rest =>
      match v.heap[r]? with
      | none => (⟨v, .asking env successes rest⟩, [])
      | some agent =>
          if VolumeStrategy.settled agent then
            (⟨v, .asking env (if VolumeStrategy.succeeded agent then successes + 1
              else successes) rest⟩, [])
          else respond v env (v.state.onStatus .pending)

/-- Give the `k`-th of the commands left. -/
def command (v : VolumeStrategy) (orders : List Order) (next : Option (BotEvent × Env))
    (k : Nat) : Config × List Effect :=
  match orders[k]? with
  | none   => (⟨v, .entering orders next⟩, [])
  | some o =>
      match v.give o with
      | none   => (⟨v, .panicked⟩, [])
      | some p => (⟨p.1, .entering (orders.eraseIdx k) next⟩, p.2)

/-- The handler's next lock; `k` picks among commands that may be given in any order. -/
def advance (c : Config) (k : Nat) : Config × List Effect :=
  match c.phase with
  | .waiting                   => (c, [])
  | .entering [] none          => (⟨c.strategy, .waiting⟩, [])
  | .entering [] (some (e, env)) =>
      (⟨{ c.strategy with initialized := true }.spawn e, .called e env⟩, [])
  | .entering (o :: os) next   =>
      command c.strategy (o :: os) next (if c.strategy.state.inTurn then 0 else k)
  | .called e env              => call c.strategy e env
  | .asking env successes rest => ask c.strategy env successes rest
  | .panicked                  => (c, [])

/-- `process_event`, when the handler is free. -/
def take (c : Config) (e : BotEvent) (initEnv env : Env) : Option (Config × List Effect) :=
  match c.phase with
  | .waiting =>
      if VolumeStrategy.isProcessed e then
        if c.strategy.initialized then some (⟨c.strategy.spawn e, .called e env⟩, [])
        else some (enter c.strategy initEnv (some (e, env)), [])
      else some (c, [])
  | _ => none

end Config

/-- What moves a configuration: an event for the strategy, the handler's next lock, or a
    delivery by a task. -/
inductive Move where
  | event (e : BotEvent) (initEnv env : Env)
  | advance (k : Nat)
  | task (k : Nat) (i : FoxfireAgent.Input)

/-- **ONE LOCK.** -/
def handler : Step Config Move Effect
  | c, .event e initEnv env => c.take e initEnv env
  | c, .advance k           => some (c.advance k)
  | c, .task k i            =>
      some (⟨(c.strategy.deliver k i).1, c.phase⟩, (c.strategy.deliver k i).2)

/-- A new strategy, before its first event. -/
def Config.new (inst : VolumeInstance) (pool : RaydiumPool) (key : Keypair) (now : Instant) :
    Config :=
  ⟨VolumeStrategy.new inst pool key now, .waiting⟩

-- ── An entry action is its preparation and its commands ─────────────────────

namespace VolumeStrategy

variable {v v' : VolumeStrategy} {env : Env} {out : List Effect}

theorem give_agent (v : VolumeStrategy) (env : Env) (choose : Agent → Option AgentEvent)
    (r : AgentRef) :
    v.give ⟨some r, env.agentInput r, choose⟩ =
      (FoxfireVolume.command env choose v.heap r).map fun p => ({ v with heap := p.1 }, p.2) := by
  rw [give, FoxfireVolume.command]
  show (match v.heap[r]? with
    | none => _
    | some agent => _) = _
  cases ha : v.heap[r]? with
  | none => rfl
  | some agent =>
      simp only [Order.obey]
      cases hc : choose agent with
      | none =>
          -- putting an agent back where it was leaves the heap
          obtain ⟨hr, rfl⟩ := List.getElem?_eq_some_iff.mp ha
          simp only [Option.map_some, setMember, List.set_getElem_self]
      | some event =>
          simp only [Option.map_map]
          rfl

theorem giveAll_agents (env : Env) (choose : Agent → Option AgentEvent) :
    ∀ (refs : List AgentRef) (v : VolumeStrategy),
      v.giveAll (refs.map fun r => ⟨some r, env.agentInput r, choose⟩) =
        (commandAll env choose refs v.heap).map fun p => ({ v with heap := p.1 }, p.2) := by
  intro refs
  induction refs with
  | nil => intro v; rfl
  | cons r refs ih =>
      intro v
      rw [List.map_cons, giveAll, give_agent, commandAll]
      cases FoxfireVolume.command env choose v.heap r with
      | none => rfl
      | some p =>
          simp only [Option.map_some, Option.bind_some, ih, Option.map_map]
          rfl

theorem giveAll_wallet :
    ∀ (batches : List (List SolanaTransferActionPayload)) (input : Nat → FoxfireAgent.Input)
      (v : VolumeStrategy),
      v.giveAll (batches.mapIdx fun k batch => ⟨none, input k, fun _ => some (.transfer batch)⟩)
        = (run FoxfireAgent.handle v.mainWallet (batches.mapIdx fun k batch =>
            { input k with event := .forAgent (.transfer batch) })).map
              fun p => ({ v with mainWallet := p.1 }, p.2) := by
  intro batches
  induction batches with
  | nil => intro input v; rfl
  | cons batch batches ih =>
      intro input v
      rw [List.mapIdx_cons, List.mapIdx_cons, giveAll, run_cons]
      simp only [give, member, Order.obey]
      cases FoxfireAgent.handle v.mainWallet
          { input 0 with event := .forAgent (.transfer batch) } with
      | none => rfl
      | some p =>
          simp only [Option.map_some, Option.bind_some, setMember]
          rw [ih (fun k => input (k + 1)), Option.map_map, Option.map_map]
          rfl

/-- **ENTERING A STATE** is preparing its commands and giving them. -/
theorem enter_eq (v : VolumeStrategy) (env : Env) (s : State) :
    v.enter env s = (v.prepare env s).bind fun p => p.1.giveAll p.2 := by
  have hagents : ∀ (w : VolumeStrategy) (choose : Agent → Option AgentEvent),
      w.commandAgents env choose = w.giveAll (w.toAgents env choose) := by
    intro w choose
    rw [commandAgents, toAgents, giveAll_agents]
  cases s with
  | sweeping => exact hagents _ _
  | offloadingInventory =>
      simp only [enter, offloadInventory, prepare, Option.bind_some, giveAll, give, member,
        Order.obey, offloadCommand]
      split
      · dsimp only
        cases FoxfireAgent.handle v.mainWallet _ with
        | none => rfl
        | some p =>
            simp only [Option.map_some, Option.bind_some, setMember, List.append_nil]
      · rfl
  | fund =>
      simp only [enter, initializeAgents, initializeAgentsWithSol, prepare, Option.bind_some,
        toWallet, giveAll_wallet, handleBatches, Option.map_map]
      rfl
  | buying => exact hagents _ _
  | collectingTokens => exact hagents _ _
  | transferringTokenToSellers =>
      have hsupply : transferTokenToSellers v.funding env.tranche =
          if (v.sellers env).length < (v.sellerAmounts env).length then none
          else (handleBatches env.tranche v.mainWallet
            (chunks maxTransfersInOneTx (v.supplyTransfers env))).map fun r =>
              ({ v.funding with mainWallet := r.1, agents := v.sellers env }, r.2) := rfl
      simp only [enter, transferToSellers, hsupply, prepare]
      by_cases hlen : (v.sellers env).length < (v.sellerAmounts env).length
      · rw [if_pos hlen, if_pos hlen]
        rfl
      · rw [if_neg hlen, if_neg hlen]
        simp only [Option.bind_some, toWallet, giveAll_wallet, handleBatches, Option.map_map]
        rfl
  | selling => exact hagents _ _
  | collectingSol => exact hagents _ _
  | sleeping => rfl
  | idle => rfl
  | error _ => rfl

/-- What an entry action that returns has prepared and commanded. -/
theorem enter_eq_some {s : State} (h : v.enter env s = some (v', out)) :
    ∃ w orders, v.prepare env s = some (w, orders) ∧ w.giveAll orders = some (v', out) := by
  rw [enter_eq] at h
  obtain ⟨⟨w, orders⟩, hp, hg⟩ := Option.bind_eq_some_iff.mp h
  exact ⟨w, orders, hp, hg⟩

end VolumeStrategy

-- ── The handler's run over one event ────────────────────────────────────────

namespace Config

variable {v v' : VolumeStrategy} {env : Env} {out : List Effect}

theorem step_advance {c : Config} (k : Nat) :
    Reach handler Always c (c.advance k).1 :=
  .next .init trivial (i := .advance k) rfl

/-- The commands, in turn. -/
theorem reach_giveAll {next : Option (BotEvent × Env)} :
    ∀ {orders : List Order} {v v' : VolumeStrategy} {out : List Effect},
      v.giveAll orders = some (v', out) →
      Reach handler Always ⟨v, .entering orders next⟩ ⟨v', .entering [] next⟩ := by
  intro orders
  induction orders with
  | nil =>
      intro v v' out h
      obtain ⟨rfl, -⟩ := Prod.mk.inj (Option.some.inj h)
      exact .init
  | cons o os ih =>
      intro v v' out h
      obtain ⟨⟨w, o₁⟩, hgive, hrest⟩ := Option.bind_eq_some_iff.mp h
      obtain ⟨⟨w', o₂⟩, hall, heq⟩ := Option.map_eq_some_iff.mp hrest
      obtain ⟨rfl, -⟩ := Prod.mk.inj heq
      have hstep : (advance ⟨v, .entering (o :: os) next⟩ 0).1 = ⟨w, .entering os next⟩ := by
        simp only [advance, ite_self, command, List.getElem?_cons_zero, hgive,
          List.eraseIdx_zero, List.tail_cons]
      have hfirst := step_advance (c := ⟨v, .entering (o :: os) next⟩) 0
      rw [hstep] at hfirst
      exact hfirst.trans (ih hall)

/-- An entry action that returns. -/
theorem reach_enter (next : Option (BotEvent × Env))
    (h : v.enter env v.state = some (v', out)) :
    Reach handler Always (enter v env next) ⟨v', .entering [] next⟩ := by
  obtain ⟨w, orders, hp, hg⟩ := VolumeStrategy.enter_eq_some h
  rw [enter, hp]
  exact reach_giveAll hg

/-- A handler's answer, and the transition it asks for. -/
theorem reach_respond {resp : Response State}
    (h : (match resp with
      | .transition target => v.transition env target
      | _ => some (v, [])) = some (v', out)) :
    Reach handler Always (respond v env resp).1 ⟨v', .waiting⟩ := by
  have hstay : some (v, ([] : List Effect)) = some (v', out) →
      Reach handler Always ⟨v, .waiting⟩ ⟨v', .waiting⟩ := by
    intro heq
    obtain ⟨rfl, -⟩ := Prod.mk.inj (Option.some.inj heq)
    exact .init
  cases resp with
  | handled => exact hstay h
  | super => exact hstay h
  | transition target =>
      obtain ⟨⟨w, o⟩, hw, heq⟩ := Option.map_eq_some_iff.mp h
      obtain ⟨rfl, -⟩ := Prod.mk.inj heq
      exact (reach_enter none hw).trans (step_advance 0)

/-- The answer of the loop in `get_execution_status`, with these agents left. -/
def tally (v : VolumeStrategy) (successes : Nat) (rest : List AgentRef) :
    VolumeStrategy.ExecutionStatus :=
  let agents := rest.filterMap fun r => v.heap[r]?
  if agents.any (fun a => !VolumeStrategy.settled a) then .pending
  else if successes + agents.countP VolumeStrategy.succeeded = v.agents.length then .done
  else .error

/-- The loop, while nobody else moves. -/
theorem reach_ask : ∀ (rest : List AgentRef) (successes : Nat),
    Reach handler Always ⟨v, .asking env successes rest⟩
      (respond v env (v.state.onStatus (tally v successes rest))).1 := by
  intro rest
  induction rest with
  | nil =>
      intro n
      have hstep := step_advance (c := ⟨v, .asking env n []⟩) 0
      simpa [advance, ask, tally] using hstep
  | cons r rest ih =>
      intro n
      have hstep := step_advance (c := ⟨v, .asking env n (r :: rest)⟩) 0
      simp only [advance, ask] at hstep
      cases ha : v.heap[r]? with
      | none =>
          rw [ha] at hstep
          have htally : tally v n (r :: rest) = tally v n rest := by
            simp only [tally, List.filterMap_cons, ha]
          rw [htally]
          exact hstep.trans (ih n)
      | some a =>
          simp only [ha] at hstep
          by_cases hs : VolumeStrategy.settled a = true
          · rw [if_pos hs] at hstep
            have htally : tally v n (r :: rest) =
                tally v (if VolumeStrategy.succeeded a = true then n + 1 else n) rest := by
              simp only [tally, List.filterMap_cons, ha, List.any_cons, hs, Bool.not_true,
                Bool.false_or, List.countP_cons]
              split
              · rfl
              · congr 2
                split
                · rw [Nat.add_assoc, Nat.add_comm 1]
                · rw [Nat.add_zero]
            rw [htally]
            exact hstep.trans (ih _)
          · rw [if_neg hs] at hstep
            have htally : tally v n (r :: rest) = .pending := by
              simp only [tally, List.filterMap_cons, ha, List.any_cons, Bool.not_eq_true _ ▸ hs,
                Bool.not_false, Bool.true_or, if_true]
            rw [htally]
            exact hstep

theorem tally_agents (h : v.agents.isEmpty = false) :
    tally v 0 v.agents = v.getExecutionStatus := by
  rw [VolumeStrategy.getExecutionStatus, h, tally, Nat.zero_add]
  rfl

/-- The states that ask the agents read nothing else. -/
theorem dispatch_asksAgents {e : BotEvent} {now : Instant} (h : v.state.asksAgents = true) :
    v.dispatch e now = (v, v.state.onStatus v.getExecutionStatus) := by
  unfold VolumeStrategy.dispatch
  cases hs : v.state with
  | sweeping => cases v.getExecutionStatus <;> rfl
  | buying => cases v.getExecutionStatus <;> rfl
  | collectingTokens => cases v.getExecutionStatus <;> rfl
  | selling => cases v.getExecutionStatus <;> rfl
  | collectingSol => cases v.getExecutionStatus <;> rfl
  | offloadingInventory => rw [hs] at h; cases h
  | fund => rw [hs] at h; cases h
  | transferringTokenToSellers => rw [hs] at h; cases h
  | sleeping => rw [hs] at h; cases h
  | idle => rw [hs] at h; cases h
  | error _ => rw [hs] at h; cases h

/-- The handler of a state, and the transition it asks for. -/
theorem reach_call {e : BotEvent} (h : v.handleEvent e env = some (v', out)) :
    Reach handler Always ⟨v, .called e env⟩ ⟨v', .waiting⟩ := by
  rw [VolumeStrategy.handleEvent] at h
  have hstep := step_advance (c := ⟨v, .called e env⟩) 0
  simp only [advance, call] at hstep
  by_cases hasks : v.state.asksAgents = true
  · rw [dispatch_asksAgents hasks] at h
    rw [if_pos hasks] at hstep
    cases hempty : v.agents.isEmpty with
    | true =>
        rw [if_pos hempty] at hstep
        have hstatus : v.getExecutionStatus = .error := by
          rw [VolumeStrategy.getExecutionStatus, if_pos hempty]
        rw [hstatus] at h
        exact hstep.trans (reach_respond (by cases hr : v.state.onStatus .error <;>
          rw [hr] at h <;> exact h))
    | false =>
        rw [if_neg (by rw [hempty]; exact Bool.false_ne_true)] at hstep
        have hloop : Reach handler Always ⟨v, .asking env 0 v.agents⟩
            (respond v env (v.state.onStatus (tally v 0 v.agents))).1 := reach_ask v.agents 0
        rw [tally_agents hempty] at hloop
        exact (hstep.trans hloop).trans (reach_respond
          (by cases hr : v.state.onStatus v.getExecutionStatus <;> rw [hr] at h <;> exact h))
  · rw [if_neg hasks] at hstep
    cases hd : v.dispatch e env.now with
    | mk w resp =>
        rw [hd] at h hstep
        exact hstep.trans (reach_respond (by cases resp <;> exact h))

/-- `StateMachine::handle`. -/
theorem reach_handle {e : BotEvent} {initEnv : Env} (hp : VolumeStrategy.isProcessed e = true)
    (h : v.handle e initEnv env = some (v', out)) :
    Reach handler Always ⟨v, .waiting⟩ ⟨v', .waiting⟩ := by
  obtain ⟨⟨w, o₁⟩, hinit, hrest⟩ := Option.bind_eq_some_iff.mp h
  obtain ⟨⟨w', o₂⟩, hev, heq⟩ := Option.map_eq_some_iff.mp hrest
  obtain ⟨rfl, -⟩ := Prod.mk.inj heq
  have htake : handler ⟨v, .waiting⟩ (.event e initEnv env) =
      if v.initialized then some (⟨v.spawn e, .called e env⟩, [])
      else some (enter v initEnv (some (e, env)), []) := by
    show take ⟨v, .waiting⟩ e initEnv env = _
    rw [take, if_pos hp]
  rw [VolumeStrategy.init] at hinit
  by_cases hv : v.initialized = true
  · rw [if_pos hv] at hinit htake
    obtain ⟨rfl, -⟩ := Prod.mk.inj (Option.some.inj hinit)
    exact (Reach.next .init trivial htake).trans (reach_call hev)
  · rw [if_neg hv] at hinit htake
    obtain ⟨⟨u, o⟩, hu, heq⟩ := Option.map_eq_some_iff.mp hinit
    obtain ⟨rfl, -⟩ := Prod.mk.inj heq
    have hentered := reach_enter (some (e, env)) hu
    exact (((Reach.next .init trivial htake).trans hentered).trans (step_advance 0)).trans
      (reach_call hev)

end Config

/-- **A STEP OF THE STRATEGY IS A RUN OF ITS HANDLER.** -/
theorem volume_simulated {v v' : VolumeStrategy} {i : Input} {out : List Effect}
    (h : volume v i = some (v', out)) :
    Reach handler Always ⟨v, .waiting⟩ ⟨v', .waiting⟩ := by
  cases i with
  | event e initEnv env =>
      simp only [volume, VolumeStrategy.processEvent] at h
      split at h
      · next hp => exact Config.reach_handle hp h
      · obtain ⟨rfl, -⟩ := Prod.mk.inj (Option.some.inj h)
        exact .init
  | task k i =>
      obtain ⟨rfl, -⟩ := Prod.mk.inj (Option.some.inj h)
      exact .next .init trivial (i := .task k i) rfl

/-- So every state of the strategy is one in which its handler waits. -/
theorem reach_volume {v₀ v : VolumeStrategy} (h : Reach volume Always v₀ v) :
    Reach handler Always ⟨v₀, .waiting⟩ ⟨v, .waiting⟩ := by
  induction h with
  | init => exact .init
  | next _ _ hs ih => exact ih.trans (volume_simulated hs)

-- ── What a move can do ──────────────────────────────────────────────────────

/-- The tasks pass on what the strategy got: no task carries a command. -/
def Forwards (tasks : List DispatchTask) : Prop := ∀ t ∈ tasks, ∃ e, t.event = .original e

theorem forwards_spawn {tasks : List DispatchTask} (h : Forwards tasks) (e : BotEvent)
    (agents : List AgentRef) : Forwards (tasks ++ [⟨.original e, true, agents⟩]) := by
  intro t ht
  rcases List.mem_append.mp ht with ht | ht
  · exact h t ht
  · rw [List.mem_singleton.mp ht]
    exact ⟨e, rfl⟩

theorem forwards_set {tasks : List DispatchTask} {k : Nat} {t t' : DispatchTask}
    (hk : tasks[k]? = some t) (ht : t'.event = t.event) (h : Forwards tasks) :
    Forwards (tasks.set k t') := by
  intro u hu
  rcases List.mem_or_eq_of_mem_set hu with hu | rfl
  · exact h u hu
  · rw [ht]
    exact h t (List.mem_of_getElem? hk)

theorem forwards_erase {tasks : List DispatchTask} {k : Nat} (h : Forwards tasks) :
    Forwards (tasks.eraseIdx k) :=
  fun t ht => h t (List.mem_of_mem_eraseIdx ht)

/-- The same members in the same state: only timers and tasks may differ. -/
structure Same (v v' : VolumeStrategy) : Prop where
  state    : v'.state = v.state
  init     : v.initialized = true → v'.initialized = true
  inst     : v'.inst = v.inst
  agents   : v'.agents = v.agents
  wallet   : v'.mainWallet = v.mainWallet
  heap     : v'.heap = v.heap
  forwards : Forwards v.tasks → Forwards v'.tasks

theorem Same.refl (v : VolumeStrategy) : Same v v := ⟨rfl, id, rfl, rfl, rfl, rfl, id⟩

theorem Same.member {v v' : VolumeStrategy} (h : Same v v') (who : Member) :
    v'.member who = v.member who := by
  cases who with
  | none => exact congrArg some h.wallet
  | some r => exact congrArg (fun l => l[r]?) h.heap

/-- Who a task tells next. -/
def DispatchTask.receiver (t : DispatchTask) : Option Member :=
  if t.wallet then some none else t.agents.head?.map some

/-- The commands left to an entry action. -/
def Config.orders (c : Config) : List Order :=
  match c.phase with
  | .entering orders _ => orders
  | _                  => []

/-- The heartbeat that ends the sleep. -/
def VolumeStrategy.wakes (v : VolumeStrategy) (e : BotEvent) (now : Instant) : Bool :=
  match e with
  | .heartBeat tick _ => v.stopwatch.isTimeElapsed tick now
  | _                 => false

/-- Everything a move can do. -/
inductive Moved (c : Config) : Move → Config → Prop where
  /-- Nothing happens to the members, or to the handler. -/
  | rests {m : Move} {c' : Config} (hsame : Same c.strategy c'.strategy)
      (hphase : c'.phase = c.phase) : Moved c m c'
  /-- An entry action is complete, or the state's handler has nothing to do. -/
  | settles {m : Move} {c' : Config} (hsame : Same c.strategy c'.strategy)
      (hbusy : c.phase = .entering [] none ∨ (∃ e env, c.phase = .called e env) ∨
        ∃ env n rest, c.phase = .asking env n rest)
      (hphase : c'.phase = .waiting) : Moved c m c'
  /-- A task is spawned and the state's handler called. -/
  | calls {m : Move} {c' : Config} {e : BotEvent} {env : Env}
      (hsame : Same c.strategy c'.strategy) (hinit : c'.strategy.initialized = true)
      (hidle : (c.phase = .waiting ∧ c.strategy.initialized = true) ∨
        ∃ p, c.phase = .entering [] (some p))
      (hphase : c'.phase = .called e env) : Moved c m c'
  /-- `get_execution_status` begins. -/
  | asks {k : Nat} {c' : Config} {e : BotEvent} {env : Env}
      (hsame : Same c.strategy c'.strategy) (hcalled : c.phase = .called e env)
      (hasks : c.strategy.state.asksAgents = true)
      (hphase : c'.phase = .asking env 0 c.strategy.agents) : Moved c (.advance k) c'
  /-- It reads an agent that has come to an end. -/
  | reads {k : Nat} {c' : Config} {env : Env} {n n' : Nat} {r : AgentRef}
      {rest : List AgentRef} (hsame : Same c.strategy c'.strategy)
      (hasking : c.phase = .asking env n (r :: rest))
      (hsettled : ∀ a, c.strategy.heap[r]? = some a → VolumeStrategy.settled a = true)
      (hphase : c'.phase = .asking env n' rest) : Moved c (.advance k) c'
  /-- A task delivers its event. -/
  | delivers {k : Nat} {i : FoxfireAgent.Input} {c' : Config} {t : DispatchTask}
      {who : Member} {a a' : Agent} {out : List Effect}
      (htask : c.strategy.tasks[k]? = some t) (hwho : t.receiver = some who)
      (hmember : c.strategy.member who = some a)
      (hhandle : FoxfireAgent.handle a { i with event := t.event } = some (a', out))
      (hsame : Same (c.strategy.setMember a' who) c'.strategy)
      (hphase : c'.phase = c.phase) : Moved c (.task k i) c'
  /-- A command is given. -/
  | commands {k j : Nat} {c' : Config} {o : Order} {orders : List Order}
      {next : Option (BotEvent × Env)} {a a' : Agent} {out : List Effect}
      (hentering : c.phase = .entering orders next) (horder : orders[j]? = some o)
      (hturn : j = if c.strategy.state.inTurn then 0 else k)
      (hmember : c.strategy.member o.receiver = some a)
      (hobey : o.obey a = some (a', out))
      (hsame : Same (c.strategy.setMember a' o.receiver) c'.strategy)
      (hphase : c'.phase = .entering (orders.eraseIdx j) next) : Moved c (.advance k) c'
  /-- A command is for nobody. -/
  | misses {k j : Nat} {c' : Config} {o : Order} {orders : List Order}
      {next : Option (BotEvent × Env)}
      (hentering : c.phase = .entering orders next) (horder : orders[j]? = some o)
      (hmember : c.strategy.member o.receiver = none)
      (hsame : Same c.strategy c'.strategy)
      (hphase : c'.phase = .entering (orders.eraseIdx j) next) : Moved c (.advance k) c'
  | panics {m : Move} {c' : Config} (hsame : Same c.strategy c'.strategy)
      (hphase : c'.phase = .panicked) : Moved c m c'
  /-- The first event: the initial state is entered. -/
  | begins {e : BotEvent} {initEnv env : Env} (hinit : c.strategy.initialized = false)
      (hwaiting : c.phase = .waiting) :
      Moved c (.event e initEnv env) (Config.enter c.strategy initEnv (some (e, env)))
  /-- Another state is entered. -/
  | moves {k : Nat} {v : VolumeStrategy} {env : Env} {target : State}
      {status : VolumeStrategy.ExecutionStatus} (hsame : Same c.strategy v)
      (hedge : Edge c.strategy.mainWallet.state status c.strategy.state target)
      (hphase : (∃ e, c.phase = .called e env ∧
          (c.strategy.state.asksAgents = true → c.strategy.agents = []) ∧
          (c.strategy.state = .sleeping → c.strategy.wakes e env.now = true)) ∨
        ∃ n, c.phase = .asking env n [] ∧ c.strategy.state.asksAgents = true) :
      Moved c (.advance k) (Config.enter { v.exit.1 with state := target } env none)

theorem onStatus_edge {s target : State} {status : VolumeStrategy.ExecutionStatus}
    (wallet : FoxfireAgent.State) (h : s.onStatus status = .transition target) :
    Edge wallet status s target ∧ s.asksAgents = true := by
  cases s with
  | sweeping =>
      cases status <;> cases h
      · exact ⟨.swept (Or.inr rfl), rfl⟩
      · exact ⟨.swept (Or.inl rfl), rfl⟩
  | buying =>
      cases status <;> cases h
      · exact ⟨.buyingFailed (Or.inr rfl), rfl⟩
      · exact ⟨.buyingFailed (Or.inl rfl), rfl⟩
      · exact ⟨.bought rfl, rfl⟩
  | collectingTokens =>
      cases status <;> cases h
      · exact ⟨.collectionFailed rfl, rfl⟩
      · exact ⟨.tokensCollected rfl, rfl⟩
  | selling =>
      cases status <;> cases h
      · exact ⟨.saleFailed rfl, rfl⟩
      · exact ⟨.sold rfl, rfl⟩
  | collectingSol =>
      cases status <;> cases h
      · exact ⟨.solFailed rfl, rfl⟩
      · exact ⟨.solCollected rfl, rfl⟩
  | offloadingInventory => cases h
  | fund => cases h
  | transferringTokenToSellers => cases h
  | sleeping => cases h
  | idle => cases h
  | error _ => cases h

theorem onStatus_pending (s : State) : s.onStatus .pending = .super := by
  cases s <;> rfl

theorem dispatch_wakes {v : VolumeStrategy} {e : BotEvent} {now : Instant} {target : State}
    (hs : v.state = .sleeping) (h : (v.dispatch e now).2 = .transition target) :
    v.wakes e now = true := by
  unfold VolumeStrategy.dispatch at h
  rw [hs] at h
  cases e with
  | heartBeat tick at_ =>
      by_cases ht : v.stopwatch.isTimeElapsed tick now = true
      · exact ht
      · simp only [if_neg ht] at h
        cases h
  | blockchainEvent _ => cases h
  | derivedEvent _ => cases h
  | executionResult _ _ _ => cases h
  | systemEvent _ => cases h

namespace Config

variable {c c' : Config} {v : VolumeStrategy} {env : Env} {k : Nat}

/-- A handler's answer. -/
theorem respond_cases {resp : Response State} (hsame : Same c.strategy v)
    (hbusy : (∃ e env, c.phase = .called e env) ∨ ∃ env n rest, c.phase = .asking env n rest)
    (hmove : ∀ target, resp = .transition target →
      ∃ status, Edge c.strategy.mainWallet.state status c.strategy.state target ∧
        ((∃ e, c.phase = .called e env ∧
            (c.strategy.state.asksAgents = true → c.strategy.agents = []) ∧
            (c.strategy.state = .sleeping → c.strategy.wakes e env.now = true)) ∨
          ∃ n, c.phase = .asking env n [] ∧ c.strategy.state.asksAgents = true)) :
    Moved c (.advance k) (respond v env resp).1 := by
  cases resp with
  | handled => exact .settles hsame (Or.inr hbusy) rfl
  | super => exact .settles hsame (Or.inr hbusy) rfl
  | transition target =>
      obtain ⟨status, hedge, hphase⟩ := hmove target rfl
      exact .moves hsame hedge hphase

theorem call_cases {e : BotEvent} (hc : c.phase = .called e env) :
    Moved c (.advance k) (call c.strategy e env).1 := by
  have hbusy : (∃ e env, c.phase = .called e env) ∨ ∃ env n rest,
      c.phase = .asking env n rest := Or.inl ⟨e, env, hc⟩
  rw [call]
  by_cases hasks : c.strategy.state.asksAgents = true
  · rw [if_pos hasks]
    by_cases hempty : c.strategy.agents.isEmpty = true
    · rw [if_pos hempty]
      refine respond_cases (.refl _) hbusy ?_
      intro target h
      obtain ⟨hedge, -⟩ := onStatus_edge _ h
      refine ⟨_, hedge, Or.inl ⟨e, hc, fun _ => List.isEmpty_iff.mp hempty, ?_⟩⟩
      intro hs
      rw [hs] at hasks
      cases hasks
    · rw [if_neg hempty]
      exact .asks (.refl _) hc hasks rfl
  · rw [if_neg hasks]
    obtain ⟨sw, hsw⟩ := VolumeStrategy.dispatch_timer c.strategy e env.now
    rw [hsw]
    refine respond_cases ⟨rfl, id, rfl, rfl, rfl, rfl, id⟩ hbusy ?_
    intro target h
    exact ⟨_, VolumeStrategy.dispatch_edge h, Or.inl ⟨e, hc, fun h => absurd h hasks,
      fun hs => dispatch_wakes hs h⟩⟩

theorem ask_cases {n : Nat} {rest : List AgentRef} (hc : c.phase = .asking env n rest) :
    Moved c (.advance k) (ask c.strategy env n rest).1 := by
  have hbusy : (∃ e env, c.phase = .called e env) ∨ ∃ env n rest,
      c.phase = .asking env n rest := Or.inr ⟨env, n, rest, hc⟩
  cases rest with
  | nil =>
      refine respond_cases (.refl _) hbusy ?_
      intro target h
      obtain ⟨hedge, hasks⟩ := onStatus_edge _ h
      exact ⟨_, hedge, Or.inr ⟨n, hc, hasks⟩⟩
  | cons r rest =>
      rw [ask]
      cases ha : c.strategy.heap[r]? with
      | none =>
          refine .reads (.refl _) hc ?_ rfl
          intro a h
          rw [ha] at h
          cases h
      | some a =>
          by_cases hs : VolumeStrategy.settled a = true
          · simp only [if_pos hs]
            refine .reads (.refl _) hc ?_ rfl
            intro b h
            rw [ha] at h
            cases h
            exact hs
          · simp only [if_neg hs, onStatus_pending]
            exact .settles (.refl _) (Or.inr hbusy) rfl

theorem command_cases {orders : List Order} {next : Option (BotEvent × Env)} {j : Nat}
    (hc : c.phase = .entering orders next) (hj : j = if c.strategy.state.inTurn then 0 else k) :
    Moved c (.advance k) (command c.strategy orders next j).1 := by
  rw [command]
  cases ho : orders[j]? with
  | none => exact .rests (.refl _) hc.symm
  | some o =>
      simp only [VolumeStrategy.give]
      cases hm : c.strategy.member o.receiver with
      | none => exact .misses hc ho hm (.refl _) rfl
      | some a =>
          cases hobey : o.obey a with
          | none =>
              simp only [hobey, Option.map_none]
              exact .panics (.refl _) rfl
          | some p =>
              simp only [hobey, Option.map_some]
              exact .commands hc ho hj hm hobey (.refl _) rfl

theorem advance_cases (c : Config) (k : Nat) : Moved c (.advance k) (c.advance k).1 := by
  rw [advance]
  split
  · exact .rests (.refl _) rfl
  · next hc => exact .settles (.refl _) (Or.inl hc) rfl
  · next e env hc =>
      exact .calls ⟨rfl, fun _ => rfl, rfl, rfl, rfl, rfl, fun h => forwards_spawn h _ _⟩ rfl
        (Or.inr ⟨_, hc⟩) rfl
  · next o os next hc => exact command_cases hc rfl
  · next e env hc => exact call_cases hc
  · next env n rest hc => exact ask_cases hc
  · exact .rests (.refl _) rfl

/-- A delivery: one member handles the event, or the task ends. -/
theorem deliver_cases (c : Config) (k : Nat) (i : FoxfireAgent.Input) :
    Moved c (.task k i) ⟨(c.strategy.deliver k i).1, c.phase⟩ := by
  have hrest : ∀ {v' : VolumeStrategy}, Same c.strategy v' → Moved c (.task k i) ⟨v', c.phase⟩ :=
    fun h => .rests h rfl
  rw [VolumeStrategy.deliver]
  cases htask : c.strategy.tasks[k]? with
  | none => exact hrest (.refl _)
  | some t =>
      by_cases hw : t.wallet = true
      · simp only [if_pos hw]
        cases hh : FoxfireAgent.handle c.strategy.mainWallet { i with event := t.event } with
        | none => exact hrest ⟨rfl, id, rfl, rfl, rfl, rfl, forwards_erase⟩
        | some p =>
            have hwho : t.receiver = some none := by rw [DispatchTask.receiver, if_pos hw]
            exact .delivers htask hwho rfl hh
              ⟨rfl, id, rfl, rfl, rfl, rfl, forwards_set htask rfl⟩ rfl
      · simp only [if_neg hw]
        cases hagents : t.agents with
        | nil => exact hrest ⟨rfl, id, rfl, rfl, rfl, rfl, forwards_erase⟩
        | cons r rs =>
            have hwho : t.receiver = some (some r) := by
              rw [DispatchTask.receiver, if_neg hw, hagents]
              rfl
            cases hh : (c.strategy.heap[r]?).bind fun a =>
              FoxfireAgent.handle a { i with event := t.event } with
            | none =>
                simp only [hh]
                exact hrest ⟨rfl, id, rfl, rfl, rfl, rfl, forwards_erase⟩
            | some p =>
                simp only [hh]
                obtain ⟨a, ha, hp⟩ := Option.bind_eq_some_iff.mp hh
                exact .delivers htask hwho ha hp
                  ⟨rfl, id, rfl, rfl, rfl, rfl, forwards_set htask rfl⟩ rfl

end Config

/-- **INVERSION**: everything a move can do. -/
theorem move_cases {c c' : Config} {m : Move} {out : List Effect}
    (h : handler c m = some (c', out)) : Moved c m c' := by
  cases m with
  | event e initEnv env =>
      simp only [handler, Config.take] at h
      split at h
      · next hwaiting =>
          split at h
          · split at h
            · next hinit =>
                obtain ⟨rfl, -⟩ := Prod.mk.inj (Option.some.inj h)
                exact .calls ⟨rfl, id, rfl, rfl, rfl, rfl, fun h => forwards_spawn h _ _⟩ hinit
                  (Or.inl ⟨hwaiting, hinit⟩) rfl
            · next hinit =>
                obtain ⟨rfl, -⟩ := Prod.mk.inj (Option.some.inj h)
                exact .begins (by simpa using hinit) hwaiting
          · obtain ⟨rfl, -⟩ := Prod.mk.inj (Option.some.inj h)
            exact .rests (.refl _) rfl
      · cases h
  | advance k =>
      obtain ⟨rfl, -⟩ := Prod.mk.inj (Option.some.inj h)
      exact Config.advance_cases c k
  | task k i =>
      obtain ⟨rfl, -⟩ := Prod.mk.inj (Option.some.inj h)
      exact Config.deliver_cases c k i

-- ── What an entry action prepares ───────────────────────────────────────────

/-- Preparing an entry action may create agents, and changes no member. -/
structure Prepared (v w : VolumeStrategy) : Prop where
  state  : w.state = v.state
  init   : w.initialized = v.initialized
  inst   : w.inst = v.inst
  wallet : w.mainWallet = v.mainWallet
  tasks  : w.tasks = v.tasks
  heap   : ∃ new, w.heap = v.heap ++ new ∧ ∀ a ∈ new, a.state = .idle

/-- Which commands belong to a state, and for whom. -/
structure OrderOf (s : State) (agents : List AgentRef) (o : Order) : Prop where
  wallet : o.receiver = none → s.asksAgents = false
  agent  : ∀ r, o.receiver = some r → r ∈ agents ∧ s.asksAgents = true
  buys   : ∀ a amt, o.choose a = some (.buy amt) → s = .buying
  sells  : ∀ a amt, o.choose a = some (.sell amt) → s = .selling ∨ s = .offloadingInventory
  keeps  : ∀ a, o.choose a ≠ some .deactivate

/-- A member after the preparation was there before, or is a new agent. -/
theorem Prepared.member {v w : VolumeStrategy} (h : Prepared v w) {who : Member} {a : Agent}
    (ha : w.member who = some a) : v.member who = some a ∨ a.state = .idle := by
  cases who with
  | none => exact Or.inl ((congrArg some h.wallet).symm.trans ha)
  | some r =>
      obtain ⟨new, hheap, hidle⟩ := h.heap
      have hget : (v.heap ++ new)[r]? = some a := by rw [← hheap]; exact ha
      by_cases hr : r < v.heap.length
      · rw [List.getElem?_append_left hr] at hget
        exact Or.inl hget
      · rw [List.getElem?_append_right (Nat.le_of_not_lt hr)] at hget
        exact Or.inr (hidle a (List.mem_of_getElem? hget))

namespace VolumeStrategy

variable {v w : VolumeStrategy} {env : Env}

theorem prepared_self (v : VolumeStrategy) : Prepared v v :=
  ⟨rfl, rfl, rfl, rfl, rfl, [], (List.append_nil _).symm, fun a ha => by cases ha⟩

theorem loadStaledAgents_prepared (v : VolumeStrategy) (env : Env) :
    Prepared v (v.loadStaledAgents env) := by
  rcases loadStaledAgents_cases v env with ⟨-, heq⟩ | ⟨traders, -, heq⟩
  · rw [heq]
    exact prepared_self v
  · rw [heq]
    refine ⟨rfl, rfl, rfl, rfl, rfl, _, rfl, ?_⟩
    intro a ha
    obtain ⟨t, -, ht⟩ := List.mem_filterMap.mp ha
    rw [agentOfTrader] at ht
    split at ht
    · cases ht
    · split at ht
      · cases ht
      · obtain ⟨key, -, rfl⟩ := Option.map_eq_some_iff.mp ht
        rfl

theorem prepare_prepared {s : State} {orders : List Order}
    (h : v.prepare env s = some (w, orders)) : Prepared v w := by
  have hret : ∀ {u : VolumeStrategy} {os : List Order}, some (u, os) = some (w, orders) →
      Prepared v u → Prepared v w := by
    intro u os heq hu
    obtain ⟨rfl, -⟩ := Prod.mk.inj (Option.some.inj heq)
    exact hu
  have hself := prepared_self v
  cases s with
  | sweeping => exact hret h (loadStaledAgents_prepared v env)
  | fund =>
      refine hret h ⟨rfl, rfl, rfl, rfl, rfl, _, rfl, ?_⟩
      intro a ha
      obtain ⟨p, -, rfl⟩ := List.mem_map.mp ha
      rfl
  | transferringTokenToSellers =>
      rw [prepare] at h
      split at h
      · cases h
      · refine hret h ⟨rfl, rfl, rfl, rfl, rfl, _, rfl, ?_⟩
        intro a ha
        obtain ⟨key, -, rfl⟩ := List.mem_map.mp ha
        rfl
  | offloadingInventory => exact hret h hself
  | buying => exact hret h hself
  | collectingTokens => exact hret h hself
  | selling => exact hret h hself
  | collectingSol => exact hret h hself
  | sleeping => exact hret h ⟨rfl, rfl, rfl, rfl, rfl, hself.heap⟩
  | idle => exact hret h hself
  | error _ => exact hret h ⟨rfl, rfl, rfl, rfl, rfl, hself.heap⟩

/-- Commands to the agents. -/
theorem orderOf_toAgents {u : VolumeStrategy} {s : State} {choose : Agent → Option AgentEvent}
    (hs : s.asksAgents = true)
    (hbuys : ∀ a amt, choose a = some (.buy amt) → s = .buying)
    (hsells : ∀ a amt, choose a = some (.sell amt) → s = .selling ∨ s = .offloadingInventory)
    (hkeeps : ∀ a, choose a ≠ some .deactivate) :
    ∀ o ∈ u.toAgents env choose, OrderOf s u.agents o := by
  intro o ho
  obtain ⟨r, hr, rfl⟩ := List.mem_map.mp ho
  constructor
  · intro h
    cases h
  · intro q hq
    rw [← Option.some.inj hq]
    exact ⟨hr, hs⟩
  · exact hbuys
  · exact hsells
  · exact hkeeps

/-- Batches of transfers for the main wallet. -/
theorem orderOf_toWallet {s : State} {agents : List AgentRef}
    {transfers : List SolanaTransferActionPayload} (hs : s.asksAgents = false) :
    ∀ o ∈ toWallet env transfers, OrderOf s agents o := by
  intro o ho
  obtain ⟨k, hk, rfl⟩ := List.mem_mapIdx.mp ho
  constructor
  · exact fun _ => hs
  · intro r h
    cases h
  · intro a amt h
    cases h
  · intro a amt h
    cases h
  · intro a h
    cases h

theorem tokenCollection_eq_some {a : Agent} {event : AgentEvent}
    (h : v.tokenCollection env a = some event) :
    event = .collect ∨ ∃ batch, event = .transfer batch := by
  by_cases hkeep : v.tokensToKeep = 0
  · simp only [tokenCollection, if_pos hkeep] at h
    split at h
    · exact Or.inl (Option.some.inj h).symm
    · cases h
  · simp only [tokenCollection, if_neg hkeep] at h
    split at h
    · exact Or.inr ⟨_, (Option.some.inj h).symm⟩
    · cases h

theorem saleCommand_eq_some {a : Agent} {event : AgentEvent}
    (h : v.saleCommand env a = some event) :
    event = .collect ∨ ∃ amt, event = .sell amt := by
  rw [saleCommand] at h
  split at h
  · split at h
    · exact Or.inl (Option.some.inj h).symm
    · cases h
  · split at h
    · exact Or.inr ⟨_, (Option.some.inj h).symm⟩
    · cases h

theorem offloadCommand_eq_some {a : Agent} {event : AgentEvent}
    (h : offloadCommand env a = some event) : event = .sell .max := by
  rw [offloadCommand] at h
  split at h
  · exact (Option.some.inj h).symm
  · cases h

/-- **THE COMMANDS OF EACH STATE.** -/
theorem prepare_orders {s : State} {orders : List Order}
    (h : v.prepare env s = some (w, orders)) : ∀ o ∈ orders, OrderOf s w.agents o := by
  have hret : ∀ {u : VolumeStrategy} {os : List Order}, some (u, os) = some (w, orders) →
      (∀ o ∈ os, OrderOf s u.agents o) → ∀ o ∈ orders, OrderOf s w.agents o := by
    intro u os heq hos
    obtain ⟨rfl, rfl⟩ := Prod.mk.inj (Option.some.inj heq)
    exact hos
  have hnone : ∀ o ∈ ([] : List Order), OrderOf s v.agents o := by
    intro o ho
    cases ho
  -- a command that is the same for all
  have hconst : ∀ {u : VolumeStrategy} {event : AgentEvent}, s.asksAgents = true →
      (∀ amt, event = .buy amt → s = .buying) → (∀ amt, event ≠ .sell amt) →
      event ≠ .deactivate → ∀ o ∈ u.toAgents env fun _ => some event, OrderOf s u.agents o := by
    intro u event hs hbuy hsell hdeactivate
    refine orderOf_toAgents hs ?_ ?_ ?_
    · intro a amt hc
      exact hbuy amt (Option.some.inj hc)
    · intro a amt hc
      exact absurd (Option.some.inj hc) (hsell amt)
    · intro a hc
      exact hdeactivate (Option.some.inj hc)
  cases s with
  | sweeping =>
      exact hret h (hconst rfl (fun _ h => by cases h) (fun _ h => by cases h)
        (fun h => by cases h))
  | offloadingInventory =>
      refine hret h ?_
      intro o ho
      rw [List.mem_singleton.mp ho]
      constructor
      · exact fun _ => rfl
      · intro r h
        cases h
      · intro a amt hc
        cases offloadCommand_eq_some hc
      · exact fun _ _ _ => Or.inr rfl
      · intro a hc
        cases offloadCommand_eq_some hc
  | fund => exact hret h (orderOf_toWallet rfl)
  | buying =>
      exact hret h (hconst rfl (fun _ _ => rfl) (fun _ h => by cases h) (fun h => by cases h))
  | collectingTokens =>
      refine hret h (orderOf_toAgents rfl ?_ ?_ ?_)
      · intro a amt hc
        rcases tokenCollection_eq_some hc with heq | ⟨b, heq⟩ <;> cases heq
      · intro a amt hc
        rcases tokenCollection_eq_some hc with heq | ⟨b, heq⟩ <;> cases heq
      · intro a hc
        rcases tokenCollection_eq_some hc with heq | ⟨b, heq⟩ <;> cases heq
  | transferringTokenToSellers =>
      rw [prepare] at h
      split at h
      · cases h
      · exact hret h (orderOf_toWallet rfl)
  | selling =>
      refine hret h (orderOf_toAgents rfl ?_ (fun _ _ _ => Or.inl rfl) ?_)
      · intro a amt hc
        rcases saleCommand_eq_some hc with heq | ⟨b, heq⟩ <;> cases heq
      · intro a hc
        rcases saleCommand_eq_some hc with heq | ⟨b, heq⟩ <;> cases heq
  | collectingSol =>
      exact hret h (hconst rfl (fun _ h => by cases h) (fun _ h => by cases h)
        (fun h => by cases h))
  | sleeping => exact hret h hnone
  | idle => exact hret h hnone
  | error _ => exact hret h hnone

end VolumeStrategy

end FoxfireVolume
