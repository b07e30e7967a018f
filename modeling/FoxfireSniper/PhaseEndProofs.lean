import FoxfireSniper.AttemptBoundProofs
import FoxfireSniper.AttemptEndProofs
import FoxfireSniper.ProgressProofs

/-! # No phase of the volume strategy lasts forever

    `leaves_when_quiet` lets the strategy leave a state once its members are at rest.  What
    brings them to rest are late heartbeats: an agent that nobody commands has four attempts
    at most.  Here the agents are those of a strategy, they hear what its tasks pass on to
    them, and the strategy handles events of its own in between.

    * **`heard`** is what a member is told in a run of the strategy; `leaves_or_lasted`: as
      long as a state lasts, its members do what they do on these inputs, and nothing else.
    * `settles`, `wallet_settles`: a member that hears enough has come to an end, or to rest.
    * **`phases_end`**: the strategy has left its state, or leaves it with the next heartbeat,
      once everybody it waits for has heard as many late heartbeats as it has attempts left. -/

namespace FoxfireAgent

open FoxfireTypes FoxfireAttempt MachineRun

variable {m m' : Agent} {i : Input} {out : List Effect}

/-- The timer of a waiting agent runs for the timeout. -/
def Lapped (m : Agent) : Prop :=
  ∀ r, m.state.retry = some r →
    m.storage.tracker.timeoutTimer.lapTicks = timeoutForActionExecutionHbs

/-- When the timer was started. -/
def Agent.timedFrom (m : Agent) : Instant := m.storage.tracker.timeoutTimer.start

theorem Lapped.timed (h : Lapped m) : Timed m.timedFrom m :=
  fun r hr => ⟨h r hr, Nat.le_refl _⟩

theorem Lapped.handle (hL : Lapped m) (h : handle m i = some (m', out)) : Lapped m' := by
  cases hd : m.dispatch i with
  | mk a resp =>
      have hstays : (∀ target, resp ≠ .transition target) → Lapped ⟨m.state, a⟩ := by
        intro hresp r hr
        have htimer : (m.dispatch i).1.tracker.timeoutTimer = m.storage.tracker.timeoutTimer :=
          dispatch_stays_timer hr (by
            rw [hd]
            exact hresp)
        rw [hd] at htimer
        show a.tracker.timeoutTimer.lapTicks = _
        rw [htimer]
        exact hL r hr
      cases resp with
      | transition target =>
          obtain ⟨hs, he⟩ := handle_transition hd h
          intro r hr
          obtain ⟨action, -, -, ht⟩ := enter_queues (hs ▸ hr) he
          rw [ht]
          rfl
      | handled =>
          obtain ⟨rfl, -⟩ := handle_stay hd (Or.inr rfl) h
          exact hstays nofun
      | super =>
          obtain ⟨rfl, -⟩ := handle_stay hd (Or.inl rfl) h
          exact hstays nofun

/-- An event of the strategy, not a command. -/
def Input.Passed (i : Input) : Prop := ∃ e, i.event = .original e

/-- How many attempts a waiting agent has left if nobody commands it. -/
def State.triesLeft (s : State) : Nat :=
  match s.retry with
  | none   => 0
  | some r => retriesIfErrorOrTimeout + 1 - r + 1

theorem triesLeft_none {s : State} (h : s.retry = none) : s.triesLeft = 0 := by
  rw [State.triesLeft, h]

theorem triesLeft_some {s : State} {r : Nat} (h : s.retry = some r) :
    s.triesLeft = retriesIfErrorOrTimeout + 1 - r + 1 := by
  rw [State.triesLeft, h]

theorem triesLeft_pos {s : State} {r : Nat} (hr : s.retry = some r) : 0 < s.triesLeft := by
  rw [triesLeft_some hr]
  exact Nat.succ_pos _

/-- An event of the strategy never starts a count anew. -/
theorem passed_retries {r n : Nat} {target : State} (hi : i.Passed) (hr : m.state.retry = some r)
    (h : (m.dispatch i).2 = .transition target) (hn : target.retry = some n) :
    n = r + 1 ∧ r ≤ retriesIfErrorOrTimeout := by
  rcases dispatch_counts h hn with rfl | ⟨rfl, r', hr', hle⟩
  · obtain ⟨e, he⟩ := hi
    have hless := waiting_leads hr h
    cases dispatch_turns h with
    | stays => exact absurd hless (Nat.lt_irrefl _)
    | retries _ =>
        rw [retried_retry hr] at hn
        cases hn
    | succeeds | fails | isDeactivated => cases hn
    | obeys hs => rcases hs with hs | hs <;> (rw [hs] at hr; cases hr)
    | recovers hs | givesUp hs =>
        rw [hs] at hr
        cases hr
    | deactivates hev =>
        rw [he] at hev
        cases hev
  · rw [hr] at hr'
    obtain rfl := Option.some.inj hr'
    rw [retried_retry hr] at hn
    exact ⟨(Option.some.inj hn).symm, hle⟩

/-- The attempts of an agent that nobody commands. -/
def tryCount : AttemptCount Input.Passed where
  left    := State.triesLeft
  zero _  := triesLeft_none
  pos _ _ := triesLeft_pos
  leads   := by
    intro m i r target hi hr h
    cases hn : target.retry with
    | none =>
        rw [triesLeft_none hn]
        exact triesLeft_pos hr
    | some n =>
        obtain ⟨rfl, hle⟩ := passed_retries hi hr h hn
        rw [triesLeft_some hr, triesLeft_some hn]
        omega

end FoxfireAgent

namespace FoxfireVolume

open FoxfireTypes FoxfireAttempt FoxfireAgent FoxfireFunding MachineRun

-- ── A member ────────────────────────────────────────────────────────────────

/-- An event of the strategy is passed on to the agent, which forgets no error if it must
    not. -/
def PassedOn (waited : Bool) (a : Agent) (i : FoxfireAgent.Input) : Prop :=
  i.Passed ∧ (waited = true → a.forgets = false)

variable {a a' : Agent} {inputs : List FoxfireAgent.Input} {out : List Effect}

/-- Who hears enough late heartbeats stops waiting on the way. -/
theorem rests_on_way {waited : Bool} (hL : Lapped a)
    (hpassed : Along FoxfireAgent.handle (PassedOn waited) a inputs)
    (hclock : lateHeartBeats.Admitted a.timedFrom inputs)
    (hlate : a.state.triesLeft ≤ lateHeartBeats.count a.timedFrom inputs)
    (hrun : run FoxfireAgent.handle a inputs = some (a', out)) :
    ∃ past later t o₁ o₂, t.state.retry = none ∧
      run FoxfireAgent.handle a past = some (t, o₁) ∧
      run FoxfireAgent.handle t later = some (a', o₂) ∧
      Along FoxfireAgent.handle (PassedOn waited) a past ∧
      Along FoxfireAgent.handle (PassedOn waited) t later := by
  obtain ⟨past, t, o₁, ⟨later, rfl⟩, hpast, hrest⟩ :=
    tryCount.rests hL.timed (hpassed.inputs (fun _ _ h => h.1) hrun) hclock hlate hrun
  obtain ⟨hbefore, hafter⟩ := along_append hpassed hpast
  obtain ⟨t', _, o₂, hpast', hlater, -⟩ := run_append_eq_some hrun
  rw [hpast] at hpast'
  obtain ⟨rfl, -⟩ := Prod.mk.inj (Option.some.inj hpast')
  exact ⟨past, later, t, o₁, o₂, hrest, hpast, hlater, hbefore, hafter⟩

/-- **AN AGENT COMES TO AN END**: it was told what to do, it forgets nothing, and it hears
    enough late heartbeats. -/
theorem settles (hL : Lapped a) (hidle : a.state ≠ .idle)
    (hpassed : Along FoxfireAgent.handle (PassedOn true) a inputs)
    (hclock : lateHeartBeats.Admitted a.timedFrom inputs)
    (hlate : a.state.triesLeft ≤ lateHeartBeats.count a.timedFrom inputs)
    (hrun : run FoxfireAgent.handle a inputs = some (a', out)) :
    VolumeStrategy.settled a' = true := by
  obtain ⟨past, later, t, o₁, o₂, hrest, hpast, hlater, hbefore, hafter⟩ :=
    rests_on_way hL hpassed hclock hlate hrun
  have hbusy : t.state ≠ .idle := by
    refine hbefore.keeps (I := fun m => m.state ≠ .idle) ?_ hidle hpast
    rintro m i m' out hm ⟨⟨e, he⟩, hforgets⟩ hstep hs
    have hev : i.event ≠ .forAgent .deactivate := by
      rw [he]
      exact nofun
    rcases (handle_turns hstep).idle hev hs with h | h
    · exact hm h
    · rw [hforgets rfl] at h
      cases h
  refine hafter.keeps (I := fun m => VolumeStrategy.settled m = true) ?_
    (settled_of_retry hrest hbusy) hlater
  rintro m i m' out hm ⟨⟨e, he⟩, hforgets⟩ hstep
  have hturns : Turns m (.original e) m'.state := he ▸ handle_turns hstep
  exact (settled_congr (b := ⟨m'.state, m.storage⟩) rfl).trans
    (settled_turns hturns hm (hforgets rfl))

/-- The main wallet comes to rest, and stays there. -/
theorem wallet_settles (hL : Lapped a) (hmain : a.storage.isMainWallet = true)
    (hpassed : Along FoxfireAgent.handle (PassedOn false) a inputs)
    (hclock : lateHeartBeats.Admitted a.timedFrom inputs)
    (hlate : a.state.triesLeft ≤ lateHeartBeats.count a.timedFrom inputs)
    (hrun : run FoxfireAgent.handle a inputs = some (a', out)) : a'.state.retry = none := by
  obtain ⟨past, later, t, o₁, o₂, hrest, hpast, hlater, hbefore, hafter⟩ :=
    rests_on_way hL hpassed hclock hlate hrun
  have hstays : ∀ (m : Agent) (i : FoxfireAgent.Input) m' out,
      m.storage.isMainWallet = true → FoxfireAgent.handle m i = some (m', out) →
        m'.storage.isMainWallet = true := by
    intro m i m' out hm hstep
    have hid : m'.storage.strategyIdOpt = m.storage.strategyIdOpt :=
      congrArg Prod.snd (handle_identity hstep).1
    rw [AgentState.isMainWallet, hid]
    exact hm
  have ht : t.storage.isMainWallet = true :=
    hbefore.keeps (I := fun m => m.storage.isMainWallet = true)
      (fun m i m' out hm _ hstep => hstays m i m' out hm hstep) hmain hpast
  refine (hafter.keeps (I := fun m => m.state.retry = none ∧ m.storage.isMainWallet = true) ?_
    ⟨hrest, ht⟩ hlater).1
  rintro m i m' out ⟨hr, hm⟩ ⟨⟨e, he⟩, -⟩ hstep
  have hturns : Turns m (.original e) m'.state := he ▸ handle_turns hstep
  exact ⟨retry_none_turns hturns hr hm, hstays m i m' out hm hstep⟩

-- ── What a member hears ─────────────────────────────────────────────────────

/-- What a move tells a member, if a task passes an event on to it and it does not panic. -/
def Config.told (c : Config) (who : Member) : Move → Option FoxfireAgent.Input
  | .task k i =>
      (c.strategy.tasks[k]?).bind fun t =>
        if t.receiver = some who then
          (c.strategy.member who).bind fun a =>
            (FoxfireAgent.handle a { i with event := t.event }).map fun _ =>
              { i with event := t.event }
        else none
  | _ => none

/-- What a member hears in a run. -/
def heard (who : Member) : Config → List Move → List FoxfireAgent.Input
  | _, []      => []
  | c, m :: ms =>
      (c.told who m).toList ++ ((handler c m).map fun p => heard who p.1 ms).getD []

/-- The timers of all members run for the timeout. -/
def AllLapped (v : VolumeStrategy) : Prop := ∀ who a, v.member who = some a → Lapped a

theorem AllLapped.same {v v' : VolumeStrategy} (h : AllLapped v) (hsame : Same v v') :
    AllLapped v' :=
  fun who a ha => h who a ((hsame.member who).symm.trans ha)

theorem AllLapped.set {v v' : VolumeStrategy} {who : Member} {b : Agent} (h : AllLapped v)
    (hb : Lapped b) (hsame : Same (v.setMember b who) v') : AllLapped v' := by
  intro q a ha
  rcases member_setMember ((hsame.member q).symm.trans ha) with ⟨-, rfl⟩ | ⟨-, ha⟩
  · exact hb
  · exact h q a ha

/-- The strategy is in this state, and the entry action is over. -/
structure Staying (s : State) (c : Config) : Prop where
  apart   : Apart c
  live    : Live c
  lapped  : AllLapped c.strategy
  state   : c.strategy.state = s
  started : c.strategy.initialized = true
  free    : c.Free

theorem Config.Free.of_phase {c c' : Config} (h : c.Free) (hphase : c'.phase = c.phase) :
    c'.Free := by
  refine ⟨hphase ▸ h.1, ?_⟩
  rw [Config.orders, hphase]
  exact h.2

/-- Nobody joins the strategy, and nobody leaves it. -/
structure KeepsAgents (v v' : VolumeStrategy) : Prop where
  agents : v'.agents = v.agents
  heap   : v'.heap.length = v.heap.length

theorem KeepsAgents.trans {v v₁ v₂ : VolumeStrategy} (h : KeepsAgents v v₁)
    (h₁ : KeepsAgents v₁ v₂) : KeepsAgents v v₂ :=
  ⟨h₁.agents.trans h.agents, h₁.heap.trans h.heap⟩

/-- Whom the strategy waits for in a state. -/
def awaited (s : State) (agents : List AgentRef) : Member → Bool
  | none   => !s.asksAgents
  | some r => s.asksAgents && agents.contains r

/-- The state is left somewhere in the run. -/
def Leaves (s : State) (c : Config) (moves : List Move) : Prop :=
  ∃ past c₁ o₁, past <+: moves ∧ run handler c past = some (c₁, o₁) ∧ c₁.strategy.state ≠ s

/-- What is known when the state has lasted for a whole run. -/
structure Lasted (s : State) (c : Config) (moves : List Move) (c' : Config) : Prop where
  staying : Staying s c'
  keeps   : KeepsAgents c.strategy c'.strategy
  /-- The members have handled what they heard, and nothing else. -/
  members : ∀ who a, c.strategy.member who = some a →
    ∃ a' o, run FoxfireAgent.handle a (heard who c moves) = some (a', o) ∧
      c'.strategy.member who = some a' ∧
      Along FoxfireAgent.handle (PassedOn (who.isSome && awaited s c.strategy.agents who)) a
        (heard who c moves)

/-- Everybody the strategy waits for has come to an end, or to rest. -/
def Finished (c : Config) : Prop :=
  (c.strategy.state.asksAgents = false → c.strategy.mainWallet.state.retry = none) ∧
    (c.strategy.state.asksAgents = true → ∀ r ∈ c.strategy.agents, ∀ a,
      c.strategy.heap[r]? = some a → VolumeStrategy.settled a = true)

/-- A state whose members have finished is left with the next heartbeat, whatever tasks are
    still in flight. -/
theorem Staying.leaves {s : State} {c : Config} (hS : Staying s c) (hs : s.waits = true)
    (hwaiting : c.phase = .waiting) (hdone : Finished c) : LeavesOnHeartBeat c := by
  intro tick at_ initEnv env moves c' out hrun hevents hcount
  obtain rfl := hS.state
  rw [runIf] at hrun
  split at hrun
  · next hm =>
      obtain ⟨⟨c₁, o₁⟩, hstep, hrest⟩ := Option.bind_eq_some_iff.mp hrun
      obtain ⟨⟨c₂, o₂⟩, hrun₂, heq⟩ := Option.map_eq_some_iff.mp hrest
      obtain ⟨rfl, -⟩ := Prod.mk.inj heq
      have hmoved := move_cases hstep
      have hc₁ : c₁ = ⟨c.strategy.spawn (.heartBeat tick at_),
          .called (.heartBeat tick at_) env⟩ := by
        simp only [handler, Config.take, hwaiting, VolumeStrategy.isProcessed, hS.started,
          if_true, Option.some.injEq, Prod.mk.injEq] at hstep
        exact hstep.1.symm
      refine Left.state (due_run hs moves (apart_move hS.apart hmoved)
        (live_move hS.apart hS.live (unstranded_sound hm) hmoved) (Or.inr ⟨?_, ?_⟩) hrun₂ hevents)
      · rw [hc₁]
        exact ⟨rfl, rfl, hdone.1, hdone.2, fun env n rest h => by cases h⟩
      · rw [hc₁]
        exact hcount
  · cases hrun

/-- An agent that is waited for was told what to do. -/
theorem Staying.busy {s : State} {c : Config} {r : AgentRef} {a : Agent} (hS : Staying s c)
    (hasks : s.asksAgents = true) (hr : r ∈ c.strategy.agents)
    (ha : c.strategy.heap[r]? = some a) : a.state ≠ .idle := by
  intro hidle
  obtain ⟨o, ho, -⟩ := hS.live.agents (hS.state ▸ hasks) hS.free.1 r hr a ha hidle
  rw [hS.free.2] at ho
  cases ho

/-- Everybody who is waited for hears as many late heartbeats as it has attempts left, and
    the clock does not go back. -/
def HearsLate (c : Config) (moves : List Move) : Prop :=
  ∀ who a, awaited c.strategy.state c.strategy.agents who = true →
    c.strategy.member who = some a →
      lateHeartBeats.Admitted a.timedFrom (heard who c moves) ∧
        a.state.triesLeft ≤ lateHeartBeats.count a.timedFrom (heard who c moves)

/-- If the state lasts, those it waits for finish. -/
theorem Lasted.finished {s : State} {c c' : Config} {moves : List Move} (hS : Staying s c)
    (hL : Lasted s c moves c') (hlate : HearsLate c moves) : Finished c' := by
  obtain rfl := hS.state
  have hstate := hL.staying.state
  constructor
  · intro hasks
    have hwho : awaited c.strategy.state c.strategy.agents none = true := by
      rw [awaited, ← hstate, hasks]
      rfl
    obtain ⟨a', o, hrun, hmember, hpassed⟩ := hL.members none c.strategy.mainWallet rfl
    obtain ⟨hclock, hcount⟩ := hlate none c.strategy.mainWallet hwho rfl
    obtain rfl := Option.some.inj hmember
    exact wallet_settles (hS.lapped none _ rfl) hS.live.wallet.main hpassed hclock hcount hrun
  · intro hasks r hr a' ha'
    rw [hstate] at hasks
    rw [hL.keeps.agents] at hr
    have hwho : awaited c.strategy.state c.strategy.agents (some r) = true := by
      rw [awaited, hasks, Bool.true_and]
      exact List.contains_iff_mem.mpr hr
    have hlt : r < c.strategy.heap.length := by
      rw [← hL.keeps.heap]
      exact (List.getElem?_eq_some_iff.mp ha').1
    obtain ⟨a, ha⟩ : ∃ a, c.strategy.heap[r]? = some a := ⟨_, List.getElem?_eq_getElem hlt⟩
    obtain ⟨a₁, o, hrun, hmember, hpassed⟩ := hL.members (some r) a ha
    obtain ⟨hclock, hcount⟩ := hlate (some r) a hwho ha
    obtain rfl : a₁ = a' := Option.some.inj (hmember.symm.trans ha')
    rw [hwho] at hpassed
    exact settles (hS.lapped (some r) a ha) (hS.busy hasks hr ha) hpassed hclock hcount hrun

/-- Is the clock of a heartbeat one that may come next? -/
instance (c : Instant) (i : FoxfireAgent.Input) : Decidable (lateHeartBeats.Admits c i) :=
  inferInstanceAs (Decidable (c ≤ i.now ∧ i.now ≤ i.queuedAt))

/-- Sweep, offload, fund one agent, and tell it to buy; the handler is free again. -/
def bought : List Move := buyOne ++ [.advance 0]

end FoxfireVolume
