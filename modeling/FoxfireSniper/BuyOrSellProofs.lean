import FoxfireSniper.VolumeHandlerProofs
import FoxfireSniper.TrancheProofs

/-! # Never buying and selling at once

    The volume strategy's documentation says that it cannot happen that some agents are
    buying and some are selling.  An agent starts either only on a command, the command is
    given only while the strategy is in the matching state, and a state is left only when
    no agent is at work.

    The last point needs care: `get_execution_status` looks at one agent after the other,
    while the tasks of `on_dispatch` drive the agents on.  But an agent that has come to
    an end starts nothing without a command, so what the loop has seen of an agent stays
    true (`Apart.asked`). -/

namespace FoxfireAgent

open FoxfireTypes FoxfireAttempt

def State.isBuying : State → Bool
  | .buying _ _ => true
  | _           => false

def State.isSelling : State → Bool
  | .selling _ _ => true
  | _            => false

/-- Neither buying nor selling. -/
structure State.Resting (s : State) : Prop where
  buying  : s.isBuying = false
  selling : s.isSelling = false

theorem resting_of {s : State} (hb : s.isBuying ≠ true) (hs : s.isSelling ≠ true) :
    s.Resting := ⟨Bool.eq_false_iff.mpr hb, Bool.eq_false_iff.mpr hs⟩

theorem resting_of_not_working {s : State} (h : s.working = false) : s.Resting := by
  rcases not_working_cases h with (rfl | rfl) | ⟨msg, rfl⟩ | ⟨r, rfl⟩ | rfl <;>
    exact ⟨rfl, rfl⟩

/-- **ONLY A COMMAND BEGINS A WORK**; a retry goes on with it. -/
theorem Turns.begun {m : Agent} {event : SolanaStrategyEvent} {s : State} {work : State → Bool}
    (h : Turns m event s) (hev : event ≠ .forAgent .deactivate)
    (hretried : ∀ s : State, work s.retried = work s)
    (hworking : ∀ s : State, work s = true → s.working = true) (hs : work s = true) :
    work m.state = true ∨ commanded event = some s := by
  have hw := hworking s hs
  cases h with
  | stays => exact Or.inl hs
  | retries _ => exact Or.inl ((hretried _).symm.trans hs)
  | obeys _ hc => exact Or.inr hc
  | deactivates h => exact absurd h hev
  | succeeds _ => cases hw
  | fails _ => cases hw
  | recovers _ _ => cases hw
  | givesUp _ _ => cases hw
  | isDeactivated _ => cases hw

theorem Turns.isBuying {m : Agent} {event : SolanaStrategyEvent} {s : State}
    (h : Turns m event s) (hev : event ≠ .forAgent .deactivate) (hs : s.isBuying = true) :
    m.state.isBuying = true ∨ ∃ amt, event = .forAgent (.buy amt) := by
  have hbegun := @Turns.begun m event s State.isBuying h hev (fun s => by cases s <;> rfl)
    (fun s h => by cases s <;> first | rfl | cases h) hs
  refine hbegun.imp_right fun hc => ?_
  rcases commanded_cases hc with ⟨_, -, rfl⟩ | ⟨-, rfl⟩ | ⟨amt, hbuy, -⟩ | ⟨_, -, rfl⟩
  · cases hs
  · cases hs
  · exact ⟨amt, hbuy⟩
  · cases hs

theorem Turns.isSelling {m : Agent} {event : SolanaStrategyEvent} {s : State}
    (h : Turns m event s) (hev : event ≠ .forAgent .deactivate) (hs : s.isSelling = true) :
    m.state.isSelling = true ∨ ∃ amt, event = .forAgent (.sell amt) := by
  have hbegun := @Turns.begun m event s State.isSelling h hev (fun s => by cases s <;> rfl)
    (fun s h => by cases s <;> first | rfl | cases h) hs
  refine hbegun.imp_right fun hc => ?_
  rcases commanded_cases hc with ⟨_, -, rfl⟩ | ⟨-, rfl⟩ | ⟨_, -, rfl⟩ | ⟨amt, hsell, -⟩
  · cases hs
  · cases hs
  · cases hs
  · exact ⟨amt, hsell⟩

/-- So an agent at rest stays at rest when an event is passed on to it. -/
theorem Turns.resting {m : Agent} {e : BotEvent} {s : State} (h : Turns m (.original e) s)
    (hm : m.state.Resting) : s.Resting := by
  have hev : SolanaStrategyEvent.original e ≠ .forAgent .deactivate := fun h => by cases h
  refine resting_of ?_ ?_
  · intro hs
    rcases h.isBuying hev hs with hb | ⟨amt, h⟩
    · exact absurd hb (Bool.eq_false_iff.mp hm.buying)
    · cases h
  · intro hs
    rcases h.isSelling hev hs with hb | ⟨amt, h⟩
    · exact absurd hb (Bool.eq_false_iff.mp hm.selling)
    · cases h

end FoxfireAgent

namespace FoxfireVolume

open FoxfireTypes FoxfireAttempt FoxfireAgent FoxfireFunding MachineRun

/-- Who may buy or sell in the strategy's state. -/
structure Allows (v : VolumeStrategy) (who : Member) (s : FoxfireAgent.State) : Prop where
  buying  : s.isBuying = true → v.state = .buying ∧ ∃ r ∈ v.agents, who = some r
  selling : s.isSelling = true →
    (v.state = .selling ∧ ∃ r ∈ v.agents, who = some r) ∨
      (v.state = .offloadingInventory ∧ who = none)

theorem allows_of_resting {v : VolumeStrategy} {who : Member} {s : FoxfireAgent.State}
    (h : s.Resting) : Allows v who s := by
  constructor
  · intro hs
    rw [h.buying] at hs
    cases hs
  · intro hs
    rw [h.selling] at hs
    cases hs

theorem Allows.congr {v v' : VolumeStrategy} {who : Member} {s : FoxfireAgent.State}
    (h : Allows v who s) (hstate : v'.state = v.state) (hagents : v'.agents = v.agents) :
    Allows v' who s := by
  constructor
  · rw [hstate, hagents]
    exact h.buying
  · rw [hstate, hagents]
    exact h.selling

/-- The handler of a state is running. -/
def Phase.running : Phase → Bool
  | .called _ _   => true
  | .asking _ _ _ => true
  | _             => false

/-- The invariant of the handler. -/
structure Apart (c : Config) : Prop where
  initial  : c.strategy.initialized = false → c.strategy.state = .sweeping
  started  : c.phase.running = true → c.strategy.initialized = true
  forwards : Forwards c.strategy.tasks
  members  : ∀ who a, c.strategy.member who = some a → Allows c.strategy who a.state
  orders   : ∀ o ∈ c.orders, OrderOf c.strategy.state c.strategy.agents o
  /-- The agents that `get_execution_status` has seen are at rest. -/
  asked    : ∀ env n rest, c.phase = .asking env n rest → ∀ r ∈ c.strategy.agents, r ∉ rest →
    ∀ a, c.strategy.heap[r]? = some a → a.state.Resting

-- ── Members after a step ────────────────────────────────────────────────────

theorem member_setMember {v : VolumeStrategy} {a' b : Agent} {who q : Member}
    (h : (v.setMember a' who).member q = some b) :
    (q = who ∧ b = a') ∨ (q ≠ who ∧ v.member q = some b) := by
  cases who with
  | none =>
      cases q with
      | none => exact Or.inl ⟨rfl, (Option.some.inj h).symm⟩
      | some r => exact Or.inr ⟨Option.some_ne_none r, h⟩
  | some r =>
      cases q with
      | none => exact Or.inr ⟨(Option.some_ne_none r).symm, h⟩
      | some q =>
          have hset : (v.heap.set r a')[q]? = some b := h
          rw [List.getElem?_set] at hset
          by_cases hq : r = q
          · rw [if_pos hq] at hset
            split at hset
            · exact Or.inl ⟨by rw [hq], (Option.some.inj hset).symm⟩
            · cases hset
          · rw [if_neg hq] at hset
            exact Or.inr ⟨fun heq => hq (Option.some.inj heq).symm, hset⟩

theorem setMember_state (v : VolumeStrategy) (a : Agent) (who : Member) :
    (v.setMember a who).state = v.state := by
  cases who <;> rfl

theorem setMember_agents (v : VolumeStrategy) (a : Agent) (who : Member) :
    (v.setMember a who).agents = v.agents := by
  cases who <;> rfl

theorem setMember_initialized (v : VolumeStrategy) (a : Agent) (who : Member) :
    (v.setMember a who).initialized = v.initialized := by
  cases who <;> rfl

theorem setMember_tasks (v : VolumeStrategy) (a : Agent) (who : Member) :
    (v.setMember a who).tasks = v.tasks := by
  cases who <;> rfl

/-- Allowed before an event, allowed after it, unless the event is a command. -/
theorem allows_turns {v : VolumeStrategy} {who : Member} {a : Agent}
    {event : SolanaStrategyEvent} {s : FoxfireAgent.State} (h : Turns a event s)
    (hev : event ≠ .forAgent .deactivate) (ha : Allows v who a.state)
    (hbuy : ∀ amt, event = .forAgent (.buy amt) → v.state = .buying ∧ ∃ r ∈ v.agents, who = some r)
    (hsell : ∀ amt, event = .forAgent (.sell amt) →
      (v.state = .selling ∧ ∃ r ∈ v.agents, who = some r) ∨
        (v.state = .offloadingInventory ∧ who = none)) :
    Allows v who s := by
  constructor
  · intro hs
    rcases h.isBuying hev hs with hb | ⟨amt, hb⟩
    · exact ha.buying hb
    · exact hbuy amt hb
  · intro hs
    rcases h.isSelling hev hs with hb | ⟨amt, hb⟩
    · exact ha.selling hb
    · exact hsell amt hb

/-- A command of the strategy's state is allowed. -/
theorem allows_obey {v : VolumeStrategy} {o : Order} {a a' : Agent} {out : List Effect}
    (ho : OrderOf v.state v.agents o) (ha : Allows v o.receiver a.state)
    (h : o.obey a = some (a', out)) : Allows v o.receiver a'.state := by
  have hagent : v.state.asksAgents = true → ∃ r ∈ v.agents, o.receiver = some r := by
    intro hasks
    cases hr : o.receiver with
    | none =>
        rw [ho.wallet hr] at hasks
        cases hasks
    | some r => exact ⟨r, (ho.agent r hr).1, rfl⟩
  rcases obey_cases h with ⟨-, rfl⟩ | ⟨event, hc, hhandle⟩
  · exact ha
  · refine allows_turns (handle_turns hhandle) ?_ ha ?_ ?_
    · rintro ⟨⟩
      exact ho.keeps a hc
    · rintro amt ⟨⟩
      have hs := ho.buys a amt hc
      exact ⟨hs, hagent (by rw [hs]; rfl)⟩
    · rintro amt ⟨⟩
      rcases ho.sells a amt hc with hs | hs
      · exact Or.inl ⟨hs, hagent (by rw [hs]; rfl)⟩
      · refine Or.inr ⟨hs, ?_⟩
        cases hr : o.receiver with
        | none => rfl
        | some r =>
            have hasks := (ho.agent r hr).2
            rw [hs] at hasks
            cases hasks

-- ── The invariant is kept ───────────────────────────────────────────────────

/-- A member handles an event, and it is still allowed what it does. -/
theorem members_set {v : VolumeStrategy} {who : Member} {a' : Agent}
    (h : ∀ q b, v.member q = some b → Allows v q b.state) (ha : Allows v who a'.state) :
    ∀ q b, (v.setMember a' who).member q = some b →
      Allows (v.setMember a' who) q b.state := by
  intro q b hb
  refine Allows.congr ?_ (setMember_state v a' who) (setMember_agents v a' who)
  rcases member_setMember hb with ⟨rfl, rfl⟩ | ⟨-, hb⟩
  · exact ha
  · exact h q b hb

theorem members_same {v v' : VolumeStrategy} (hsame : Same v v')
    (h : ∀ q b, v.member q = some b → Allows v q b.state) :
    ∀ q b, v'.member q = some b → Allows v' q b.state := by
  intro q b hb
  rw [hsame.member] at hb
  exact (h q b hb).congr hsame.state hsame.agents

/-- What has been initialized stays so. -/
theorem Same.initial {v v' : VolumeStrategy} (h : Same v v') (hv' : v'.initialized = false) :
    v.initialized = false := by
  cases hv : v.initialized with
  | false => rfl
  | true =>
      rw [h.init hv] at hv'
      cases hv'

/-- Only timers, tasks and the phase change. -/
theorem Apart.of_same {c c' : Config} (hI : Apart c) (hsame : Same c.strategy c'.strategy)
    (hstarted : c'.phase.running = true → c'.strategy.initialized = true)
    (horders : ∀ o ∈ c'.orders, o ∈ c.orders)
    (hasked : ∀ env n rest, c'.phase = .asking env n rest → ∀ r ∈ c.strategy.agents, r ∉ rest →
      ∀ a, c.strategy.heap[r]? = some a → a.state.Resting) : Apart c' := by
  constructor
  · intro h
    rw [hsame.state]
    exact hI.initial (hsame.initial h)
  · exact hstarted
  · exact hsame.forwards hI.forwards
  · exact members_same hsame hI.members
  · intro o ho
    rw [hsame.state, hsame.agents]
    exact hI.orders o (horders o ho)
  · intro env n rest hphase r hr hrest a ha
    rw [hsame.agents] at hr
    rw [hsame.heap] at ha
    exact hasked env n rest hphase r hr hrest a ha

/-- And no state's handler is running. -/
theorem Apart.of_idle {c c' : Config} (hI : Apart c) (hsame : Same c.strategy c'.strategy)
    (hphase : c'.phase.running = false) (horders : ∀ o ∈ c'.orders, o ∈ c.orders) :
    Apart c' := by
  refine hI.of_same hsame ?_ horders ?_
  · intro h
    rw [hphase] at h
    cases h
  · intro env n rest h
    rw [h] at hphase
    cases hphase

/-- A member handles what it is allowed to. -/
theorem Apart.of_member {c c' : Config} {who : Member} {a' : Agent} (hI : Apart c)
    (hsame : Same (c.strategy.setMember a' who) c'.strategy)
    (hallows : Allows c.strategy who a'.state)
    (hstarted : c'.phase.running = true → c'.strategy.initialized = true)
    (horders : ∀ o ∈ c'.orders, o ∈ c.orders)
    (hasked : ∀ env n rest, c'.phase = .asking env n rest → ∀ r ∈ c.strategy.agents, r ∉ rest →
      ∀ a, (c.strategy.setMember a' who).heap[r]? = some a → a.state.Resting) : Apart c' := by
  constructor
  · intro h
    rw [hsame.state, setMember_state]
    exact hI.initial ((setMember_initialized _ _ _).symm.trans (hsame.initial h))
  · exact hstarted
  · refine hsame.forwards ?_
    rw [setMember_tasks]
    exact hI.forwards
  · exact members_same hsame (members_set hI.members hallows)
  · intro o ho
    rw [hsame.state, hsame.agents, setMember_state, setMember_agents]
    exact hI.orders o (horders o ho)
  · intro env n rest hp r hr hrest a ha
    rw [hsame.agents, setMember_agents] at hr
    rw [hsame.heap] at ha
    exact hasked env n rest hp r hr hrest a ha

/-- A new state is entered while everybody is at rest. -/
theorem apart_enter {v : VolumeStrategy} {env : Env} {next : Option (BotEvent × Env)}
    (hinit : v.initialized = false → v.state = .sweeping) (hforwards : Forwards v.tasks)
    (hrest : ∀ who a, v.member who = some a → a.state.Resting) :
    Apart (Config.enter v env next) := by
  rw [Config.enter]
  cases hp : v.prepare env v.state with
  | none =>
      refine ⟨hinit, ?_, hforwards, fun who a ha => allows_of_resting (hrest who a ha), ?_, ?_⟩
      · intro h
        cases h
      · intro o ho
        cases ho
      · intro env n rest h
        cases h
  | some p =>
      have hprep := VolumeStrategy.prepare_prepared hp
      have horders := VolumeStrategy.prepare_orders hp
      refine ⟨?_, ?_, ?_, ?_, ?_, ?_⟩
      · intro h
        exact hprep.state.trans (hinit (hprep.init.symm.trans h))
      · intro h
        cases h
      · show Forwards p.1.tasks
        rw [hprep.tasks]
        exact hforwards
      · intro who a ha
        rcases hprep.member ha with hold | hidle
        · exact allows_of_resting (hrest who a hold)
        · exact allows_of_resting (by rw [hidle]; exact ⟨rfl, rfl⟩)
      · intro o ho
        have hspec := horders o ho
        rw [← hprep.state] at hspec
        exact hspec
      · intro env n rest h
        cases h

/-- When a state is left, nobody buys or sells. -/
theorem resting_at_edge {c : Config} {target : State} {env : Env}
    {status : VolumeStrategy.ExecutionStatus} (hI : Apart c)
    (hedge : Edge c.strategy.mainWallet.state status c.strategy.state target)
    (hphase : (∃ e, c.phase = .called e env ∧
        (c.strategy.state.asksAgents = true → c.strategy.agents = []) ∧
        (c.strategy.state = .sleeping → c.strategy.wakes e env.now = true)) ∨
      ∃ n, c.phase = .asking env n [] ∧ c.strategy.state.asksAgents = true) :
    ∀ who a, c.strategy.member who = some a → a.state.Resting := by
  intro who a ha
  have hall := hI.members who a ha
  -- an agent of the list has been asked, or there is none
  have hagent : c.strategy.state.asksAgents = true → (∃ r ∈ c.strategy.agents, who = some r) →
      a.state.Resting := by
    rintro hasks ⟨r, hr, rfl⟩
    rcases hphase with ⟨e, -, hnil, -⟩ | ⟨n, hc, -⟩
    · rw [hnil hasks] at hr
      cases hr
    · exact hI.asked env n [] hc r hr List.not_mem_nil a ha
  refine resting_of ?_ ?_
  · intro hs
    obtain ⟨hstate, hr⟩ := hall.buying hs
    have hrest := hagent (by rw [hstate]; rfl) hr
    exact absurd hs (Bool.eq_false_iff.mp hrest.buying)
  · intro hs
    rcases hall.selling hs with ⟨hstate, hr⟩ | ⟨hstate, rfl⟩
    · have hrest := hagent (by rw [hstate]; rfl) hr
      exact absurd hs (Bool.eq_false_iff.mp hrest.selling)
    · -- the main wallet has sold before `offloading_inventory` is left
      obtain rfl : c.strategy.mainWallet = a := Option.some.inj ha
      rw [hstate] at hedge
      cases hedge with
      | offloaded h =>
          rcases h with h | ⟨msg, h⟩ | h | h <;>
            · rw [h] at hs
              cases hs

theorem settled_resting {a : Agent} (h : VolumeStrategy.settled a = true) :
    a.state.Resting := by
  rw [VolumeStrategy.settled] at h
  refine resting_of_not_working ?_
  cases hs : a.state with
  | success => rfl
  | error _ => rfl
  | deactivating _ => rfl
  | deactivated => rfl
  | idle => rfl
  | transferring _ _ => rw [hs] at h; cases h
  | collecting _ => rw [hs] at h; cases h
  | buying _ _ => rw [hs] at h; cases h
  | selling _ _ => rw [hs] at h; cases h

/-- A task delivers its event. -/
theorem apart_delivers {c c' : Config} {e : BotEvent} {i : FoxfireAgent.Input} {who : Member}
    {a a' : Agent} {out : List Effect} (hI : Apart c)
    (hmember : c.strategy.member who = some a)
    (hhandle : FoxfireAgent.handle a { i with event := .original e } = some (a', out))
    (hsame : Same (c.strategy.setMember a' who) c'.strategy) (hphase : c'.phase = c.phase) :
    Apart c' := by
  have hturns : Turns a (.original e) a'.state := handle_turns hhandle
  have hallows : Allows c.strategy who a'.state := by
    refine allows_turns hturns ?_ (hI.members who a hmember) ?_ ?_
    · intro h
      cases h
    · intro amt h
      cases h
    · intro amt h
      cases h
  refine hI.of_member hsame hallows ?_ ?_ ?_
  · intro h
    rw [hphase] at h
    exact hsame.init ((setMember_initialized _ _ _).trans (hI.started h))
  · intro o ho
    rwa [Config.orders, hphase] at ho
  · intro env n rest hp r hr hrest b hb
    rw [hphase] at hp
    have hseen := hI.asked env n rest hp r hr hrest
    rcases member_setMember (q := some r) hb with ⟨rfl, rfl⟩ | ⟨-, hb⟩
    · exact hturns.resting (hseen a hmember)
    · exact hseen b hb

/-- `get_execution_status` goes on from an agent that has come to an end. -/
theorem apart_reads {c c' : Config} {env : Env} {n n' : Nat} {q : AgentRef}
    {rest : List AgentRef} (hI : Apart c) (hsame : Same c.strategy c'.strategy)
    (hasking : c.phase = .asking env n (q :: rest))
    (hsettled : ∀ a, c.strategy.heap[q]? = some a → VolumeStrategy.settled a = true)
    (hphase : c'.phase = .asking env n' rest) : Apart c' := by
  refine hI.of_same hsame ?_ ?_ ?_
  · intro _
    exact hsame.init (hI.started (by rw [hasking]; rfl))
  · intro o ho
    rw [Config.orders, hphase] at ho
    cases ho
  · intro env' m rest' hp r hr hrest a ha
    rw [hphase] at hp
    cases hp
    by_cases hq : r = q
    · exact settled_resting (hsettled a (hq ▸ ha))
    · refine hI.asked env n _ hasking r hr ?_ a ha
      intro hmem
      rcases List.mem_cons.mp hmem with heq | hmem
      · exact hq heq
      · exact hrest hmem

/-- A member obeys a command. -/
theorem apart_commands {c c' : Config} {j : Nat} {o : Order} {orders : List Order}
    {next : Option (BotEvent × Env)} {a a' : Agent} {out : List Effect} (hI : Apart c)
    (hentering : c.phase = .entering orders next) (horder : orders[j]? = some o)
    (hmember : c.strategy.member o.receiver = some a) (hobey : o.obey a = some (a', out))
    (hsame : Same (c.strategy.setMember a' o.receiver) c'.strategy)
    (hphase : c'.phase = .entering (orders.eraseIdx j) next) : Apart c' := by
  have horders : c.orders = orders := by rw [Config.orders, hentering]
  have hof : OrderOf c.strategy.state c.strategy.agents o :=
    hI.orders o (by rw [horders]; exact List.mem_of_getElem? horder)
  refine hI.of_member hsame (allows_obey hof (hI.members _ a hmember) hobey) ?_ ?_ ?_
  · intro h
    rw [hphase] at h
    cases h
  · intro q hq
    rw [Config.orders, hphase] at hq
    rw [horders]
    exact List.mem_of_mem_eraseIdx hq
  · intro env n rest hp
    rw [hphase] at hp
    cases hp

/-- The initial state is entered: nobody has been told anything. -/
theorem apart_begins {c : Config} {e : BotEvent} {initEnv env : Env} (hI : Apart c)
    (hinit : c.strategy.initialized = false) :
    Apart (Config.enter c.strategy initEnv (some (e, env))) := by
  have hstate := hI.initial hinit
  refine apart_enter hI.initial hI.forwards ?_
  intro who a ha
  have hall := hI.members who a ha
  refine resting_of ?_ ?_
  · intro hs
    obtain ⟨h, -⟩ := hall.buying hs
    rw [hstate] at h
    cases h
  · intro hs
    rcases hall.selling hs with ⟨h, -⟩ | ⟨h, -⟩
    · rw [hstate] at h
      cases h
    · rw [hstate] at h
      cases h

/-- Another state is entered. -/
theorem apart_moves {c : Config} {v : VolumeStrategy} {env : Env} {target : State}
    {status : VolumeStrategy.ExecutionStatus} (hI : Apart c) (hsame : Same c.strategy v)
    (hedge : Edge c.strategy.mainWallet.state status c.strategy.state target)
    (hphase : (∃ e, c.phase = .called e env ∧
        (c.strategy.state.asksAgents = true → c.strategy.agents = []) ∧
        (c.strategy.state = .sleeping → c.strategy.wakes e env.now = true)) ∨
      ∃ n, c.phase = .asking env n [] ∧ c.strategy.state.asksAgents = true) :
    Apart (Config.enter { v.exit.1 with state := target } env none) := by
  have hrest := resting_at_edge hI hedge hphase
  have hrunning : c.phase.running = true := by
    rcases hphase with ⟨e, h, -⟩ | ⟨n, h, -⟩
    · rw [h]
      rfl
    · rw [h]
      rfl
  rw [VolumeStrategy.exit_eq]
  refine apart_enter ?_ (hsame.forwards hI.forwards) ?_
  · intro h
    have hinit : v.initialized = true := hsame.init (hI.started hrunning)
    rw [show _ = v.initialized from rfl, hinit] at h
    cases h
  · intro who a ha
    refine hrest who a ?_
    rw [← hsame.member]
    cases who with
    | none => exact ha
    | some r => exact ha

/-- **ONE MOVE KEEPS BUYERS AND SELLERS APART.** -/
theorem apart_move {c c' : Config} {m : Move} (hI : Apart c) (h : Moved c m c') : Apart c' := by
  cases h with
  | rests hsame hphase =>
      refine hI.of_same hsame ?_ ?_ ?_
      · intro hp
        rw [hphase] at hp
        exact hsame.init (hI.started hp)
      · intro o ho
        rwa [Config.orders, hphase] at ho
      · intro env n rest hp
        exact hI.asked env n rest (hphase.symm.trans hp)
  | settles hsame _ hphase =>
      refine hI.of_idle hsame (by rw [hphase]; rfl) ?_
      intro o ho
      rw [Config.orders, hphase] at ho
      cases ho
  | calls hsame hinit _ hphase =>
      refine hI.of_same hsame (fun _ => hinit) ?_ ?_
      · intro o ho
        rw [Config.orders, hphase] at ho
        cases ho
      · intro env n rest hp
        rw [hphase] at hp
        cases hp
  | asks hsame hcalled _ hphase =>
      refine hI.of_same hsame ?_ ?_ ?_
      · intro _
        exact hsame.init (hI.started (by rw [hcalled]; rfl))
      · intro o ho
        rw [Config.orders, hphase] at ho
        cases ho
      · intro env n rest hp r hr hrest
        rw [hphase] at hp
        cases hp
        exact absurd hr hrest
  | reads hsame hasking hsettled hphase => exact apart_reads hI hsame hasking hsettled hphase
  | @delivers _ _ _ t _ _ _ _ htask _ hmember hhandle hsame hphase =>
      obtain ⟨e, he⟩ := hI.forwards t (List.mem_of_getElem? htask)
      rw [he] at hhandle
      exact apart_delivers hI hmember hhandle hsame hphase
  | commands hentering horder _ hmember hobey hsame hphase =>
      exact apart_commands hI hentering horder hmember hobey hsame hphase
  | @misses _ j _ o orders next hentering horder _ hsame hphase =>
      refine hI.of_idle hsame (by rw [hphase]; rfl) ?_
      intro q hq
      rw [Config.orders, hphase] at hq
      rw [Config.orders, hentering]
      exact List.mem_of_mem_eraseIdx hq
  | panics hsame hphase =>
      refine hI.of_idle hsame (by rw [hphase]; rfl) ?_
      intro o ho
      rw [Config.orders, hphase] at ho
      cases ho
  | begins hinit _ => exact apart_begins hI hinit
  | moves hsame hedge hphase => exact apart_moves hI hsame hedge hphase

theorem apart_reach {inst : VolumeInstance} {pool : RaydiumPool} {key : Keypair} {now : Instant}
    {c : Config} (h : Reach handler Always (Config.new inst pool key now) c) : Apart c := by
  refine h.invariant ?_ ?_
  · constructor
    · exact fun _ => rfl
    · intro h
      cases h
    · intro t ht
      cases ht
    · intro who a ha
      cases who with
      | none =>
          obtain rfl := Option.some.inj ha
          exact allows_of_resting ⟨rfl, rfl⟩
      | some r => cases ha
    · intro o ho
      cases ho
    · intro env n rest h
      cases h
  · intro c m c' out hI _ hs
    exact apart_move hI (move_cases hs)

/-- **NEVER BUYING AND SELLING AT ONCE.**  In every configuration that the strategy's
    handler and the tasks reach, whatever their order: no two members, among the main
    wallet and all agents ever created, are one buying and the other selling, and a member
    buys only while the strategy is in `buying`. -/
theorem never_buying_and_selling {inst : VolumeInstance} {pool : RaydiumPool} {key : Keypair}
    {now : Instant} {c : Config}
    (hreach : Reach handler Always (Config.new inst pool key now) c) :
    (∀ a ∈ c.strategy.mainWallet :: c.strategy.heap,
      ∀ b ∈ c.strategy.mainWallet :: c.strategy.heap,
        ¬ (a.state.isBuying = true ∧ b.state.isSelling = true)) ∧
    ∀ a ∈ c.strategy.mainWallet :: c.strategy.heap,
      a.state.isBuying = true → c.strategy.state = .buying := by
  have hI := apart_reach hreach
  have hmember : ∀ a ∈ c.strategy.mainWallet :: c.strategy.heap, ∃ who,
      c.strategy.member who = some a := by
    intro a ha
    rcases List.mem_cons.mp ha with rfl | ha
    · exact ⟨none, rfl⟩
    · obtain ⟨r, hr⟩ := List.mem_iff_getElem?.mp ha
      exact ⟨some r, hr⟩
  have hbuying : ∀ a ∈ c.strategy.mainWallet :: c.strategy.heap,
      a.state.isBuying = true → c.strategy.state = .buying := by
    intro a ha hs
    obtain ⟨who, hwho⟩ := hmember a ha
    exact ((hI.members who a hwho).buying hs).1
  refine ⟨?_, hbuying⟩
  rintro a ha b hb ⟨hs, hs'⟩
  have hstate := hbuying a ha hs
  obtain ⟨who, hwho⟩ := hmember b hb
  rcases (hI.members who b hwho).selling hs' with ⟨h, -⟩ | ⟨h, -⟩
  · rw [hstate] at h
    cases h
  · rw [hstate] at h
    cases h

-- ── A run in which an agent buys ────────────────────────────────────────────

/-- A strategy with one buyer and one seller. -/
def smallConfig : Config := Config.new ⟨⟨1, 1, 1, 1, 0⟩, 1, 100⟩ default ⟨⟨1⟩, 1⟩ 0

/-- The strategy handles a heartbeat at time `n`, in `k` locks. -/
def beats (n k : Nat) : List Move :=
  .event (.heartBeat tick n) (fineEnv n) (fineEnv n) :: List.replicate k (.advance 0)

/-- The strategy handles the receipt of action `u` at time `n`, and task `k` passes it to
    the first `receivers` members. -/
def receives (u n k receivers : Nat) (err : Option TransactionError) : List Move :=
  [.event (.blockchainEvent (.executionReceipt ⟨⟨BitVec.ofNat 128 u⟩, default, err, n⟩))
    (fineEnv n) (fineEnv n), .advance 0, .advance 0] ++
    List.replicate receivers (.task k (input (.forAgent .collect) n ⟨BitVec.ofNat 128 n⟩))

/-- Sweep, offload, fund one agent, and tell it to buy. -/
def buyOne : List Move :=
  beats 1 4 ++ beats 2 3 ++ receives 2 3 2 1 none ++ beats 4 2

/-- The state of the strategy, and who is buying. -/
def viewBuyers (c : Config) : State × List Bool :=
  (c.strategy.state, c.strategy.heap.map fun a => a.state.isBuying)

theorem one_agent_buys :
    ∃ c, Reach handler Always smallConfig c ∧ viewBuyers c = (.buying, [true]) ∧
      (∀ a ∈ c.strategy.mainWallet :: c.strategy.heap,
        ∀ b ∈ c.strategy.mainWallet :: c.strategy.heap,
          ¬ (a.state.isBuying = true ∧ b.state.isSelling = true)) ∧
      ∀ a ∈ c.strategy.mainWallet :: c.strategy.heap,
        a.state.isBuying = true → c.strategy.state = .buying := by
  have hview : (run handler smallConfig buyOne).map (fun p => viewBuyers p.1) =
      some (.buying, [true]) := by decide +kernel
  obtain ⟨⟨c, out⟩, hrun, hc⟩ := Option.map_eq_some_iff.mp hview
  have hreach := reach_of_run (C := Always) (fun _ _ => trivial) hrun
  exact ⟨c, hreach, hc, never_buying_and_selling hreach⟩

end FoxfireVolume
