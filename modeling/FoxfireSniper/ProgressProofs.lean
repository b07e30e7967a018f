import FoxfireSniper.BuyOrSellProofs

/-! # When the volume strategy gets stuck

    A state of the strategy is left on a heartbeat once its members have come to an end.
    Two readings of the members' states miss the case of a member that is `idle`: `fund`
    waits for the main wallet to succeed or fail, and `get_execution_status` takes an idle
    agent for one that is still at work.  So a member that is idle when its work should
    have begun, or that falls back to `idle`, is waited for without end:

    * `fund` is entered with an idle main wallet and no agent could be created, so there
      is nothing to transfer;
    * the main wallet is in its error state when the last `Transfer` reaches it: the error
      state swallows any event and goes to `idle`.  The same happens when its transfer has
      failed and a task passes on an event before the strategy looks;
    * `sell` skips an agent because of its balances;
    * an agent without a strategy id — the main wallet of another user, which `sweeping`
      loads with the rest of the table — behaves like a main wallet and forgets its error.

    `strands` is this list, as a test of the configuration before a move.
    **`leaves_when_quiet`**: if no move strands a member, the strategy is never stuck. -/

namespace FoxfireAgent

open FoxfireTypes FoxfireAttempt

/-- In its error state, and back to `idle` with the next event. -/
def Agent.forgets (a : Agent) : Bool :=
  a.storage.isMainWallet &&
    match a.state with
    | .error _ => true
    | _        => false

theorem forgets_of_error {a : Agent} {msg : ErrorMsg} (hs : a.state = .error msg)
    (hm : a.storage.isMainWallet = true) : a.forgets = true := by
  rw [Agent.forgets, hm, hs]
  rfl

theorem commanded_ne_idle {event : SolanaStrategyEvent} : commanded event ≠ some .idle := by
  intro h
  cases working_of_commanded h

/-- **AN AGENT IS IDLE** because it was, or because it forgot an error. -/
theorem Turns.idle {m : Agent} {event : SolanaStrategyEvent} {s : State} (h : Turns m event s)
    (hev : event ≠ .forAgent .deactivate) (hs : s = .idle) :
    m.state = .idle ∨ m.forgets = true := by
  cases h with
  | stays => exact Or.inl hs
  | retries hr =>
      have h := retried_retry hr
      rw [hs] at h
      cases h
  | obeys _ hc =>
      rw [hs] at hc
      exact absurd hc commanded_ne_idle
  | recovers he hm => exact Or.inr (forgets_of_error he hm)
  | deactivates h => exact absurd h hev
  | succeeds _ => cases hs
  | fails _ => cases hs
  | givesUp _ _ => cases hs
  | isDeactivated _ => cases hs

/-- A command to an agent that waits for one, or that works, does not leave it idle. -/
theorem handle_command_idle {m m' : Agent} {i : Input} {out : List Effect} {s : State}
    (hc : commanded i.event = some s) (hf : m.forgets = false)
    (h : handle m i = some (m', out)) : m'.state ≠ .idle := by
  intro hs
  have hev : i.event ≠ .forAgent .deactivate := by
    intro hev
    rw [hev] at hc
    cases hc
  rcases (handle_turns h).idle hev hs with hidle | hforgets
  · rw [handle_commanded (Or.inl hidle) hc h] at hs
    rw [hs] at hc
    exact commanded_ne_idle hc
  · rw [hf] at hforgets
    cases hforgets

/-- Deactivated, or about to be. -/
def State.isOff : State → Bool
  | .deactivating _ => true
  | .deactivated    => true
  | _               => false

theorem retried_isOff (s : State) : s.retried.isOff = s.isOff := by
  cases s <;> rfl

theorem isOff_of_working {s : State} (h : s.working = true) : s.isOff = false := by
  cases s <;> first | rfl | cases h

/-- A state without an action to wait for, in a wallet that is on. -/
theorem rest_cases {s : State} (h : s.retry = none) (hon : s.isOff = false) :
    s = .idle ∨ s = .success ∨ ∃ msg, s = .error msg := by
  have hw : s.working = false := by
    cases hw : s.working with
    | false => rfl
    | true =>
        obtain ⟨r, hr⟩ := retry_of_working hw
        rw [h] at hr
        cases hr
  rcases not_working_cases hw with (rfl | rfl) | ⟨msg, rfl⟩ | ⟨r, rfl⟩ | rfl
  · exact Or.inl rfl
  · exact Or.inr (Or.inl rfl)
  · exact Or.inr (Or.inr ⟨msg, rfl⟩)
  · cases hon
  · cases hon

/-- A main wallet in use. -/
structure Wallet (a : Agent) : Prop where
  main : a.storage.isMainWallet = true
  on   : a.state.isOff = false

theorem Turns.on {m : Agent} {event : SolanaStrategyEvent} {s : State} (h : Turns m event s)
    (hev : event ≠ .forAgent .deactivate) (hm : Wallet m) : s.isOff = false := by
  cases h with
  | stays => exact hm.on
  | retries hr => exact (retried_isOff _).trans hm.on
  | obeys _ hc => exact isOff_of_working (working_of_commanded hc)
  | givesUp _ hfalse =>
      rw [hm.main] at hfalse
      cases hfalse
  | isDeactivated hs =>
      have hon := hm.on
      rw [hs] at hon
      cases hon
  | deactivates h => exact absurd h hev
  | succeeds _ => rfl
  | fails _ => rfl
  | recovers _ _ => rfl

end FoxfireAgent

namespace FoxfireVolume

open FoxfireTypes FoxfireAttempt FoxfireAgent FoxfireFunding MachineRun

-- ── The moves that strand a member ──────────────────────────────────────────

/-- The strategy waits for this member, and the entry action has no command left for it
    among `orders`. -/
def VolumeStrategy.waitsFor (v : VolumeStrategy) (orders : List Order) : Member → Bool
  | none   => v.state = .fund && orders.isEmpty
  | some r => v.state.asksAgents && v.agents.contains r

/-- **THE MOVES THAT STRAND A MEMBER.** -/
def strands (c : Config) : Move → Bool
  | .event _ _ _ => false
  | .task k _ =>
      match (c.strategy.tasks[k]?).bind DispatchTask.receiver with
      | none     => false
      | some who =>
          -- the event makes the member forget its error
          (c.strategy.member who).any Agent.forgets && c.strategy.waitsFor c.orders who
  | .advance k =>
      match c.phase with
      | .entering orders _ =>
          let j := if c.strategy.state.inTurn then 0 else k
          match orders[j]? with
          | none   => false
          | some o =>
              -- the command does, or an idle agent is skipped
              (c.strategy.member o.receiver).any fun a =>
                (a.forgets && c.strategy.waitsFor (orders.eraseIdx j) o.receiver) ||
                  (o.receiver.isSome && a.state = .idle && (o.choose a).isNone)
      | .called e env =>
          -- `fund` will have nothing to transfer
          (c.strategy.state = .offloadingInventory ||
              (c.strategy.state = .sleeping && c.strategy.wakes e env.now)) &&
            c.strategy.mainWallet.state = .idle &&
            (buyers c.strategy.funding env.tranche).isEmpty
      | _ => false

/-- No move so far has stranded a member. -/
def Unstranded (c : Config) (m : Move) : Prop := strands c m = false

-- ── The invariant ───────────────────────────────────────────────────────────

/-- Whoever the strategy waits for has begun, or will be told to. -/
structure Live (c : Config) : Prop where
  wallet : Wallet c.strategy.mainWallet
  fund   : c.strategy.state = .fund → c.strategy.mainWallet.state = .idle →
    c.phase ≠ .panicked → c.orders ≠ []
  /-- `Transfer` is a command, whatever the balances are. -/
  told   : c.strategy.state = .fund → ∀ o ∈ c.orders, ∀ a, ∃ batch,
    o.choose a = some (.transfer batch)
  agents : c.strategy.state.asksAgents = true → c.phase ≠ .panicked →
    ∀ r ∈ c.strategy.agents, ∀ a, c.strategy.heap[r]? = some a → a.state = .idle →
      ∃ o ∈ c.orders, o.receiver = some r

theorem wallet_handle {a a' : Agent} {i : FoxfireAgent.Input} {out : List Effect}
    (ha : Wallet a) (hev : i.event ≠ .forAgent .deactivate)
    (h : FoxfireAgent.handle a i = some (a', out)) : Wallet a' := by
  constructor
  · have hid : a'.storage.strategyIdOpt = a.storage.strategyIdOpt :=
      congrArg Prod.snd (handle_identity h).1
    rw [AgentState.isMainWallet, hid]
    exact ha.main
  · exact (handle_turns h).on hev ha

/-- A command, or none, leaves the main wallet in use. -/
theorem wallet_obey {a a' : Agent} {o : Order} {out : List Effect} (ha : Wallet a)
    (ho : ∀ a, o.choose a ≠ some .deactivate) (h : o.obey a = some (a', out)) : Wallet a' := by
  rcases obey_cases h with ⟨-, rfl⟩ | ⟨event, hc, hhandle⟩
  · exact ha
  · refine wallet_handle ha ?_ hhandle
    rintro ⟨⟩
    exact ho a hc

/-- An agent that is idle after its command was skipped, or forgot an error. -/
theorem obey_idle {a a' : Agent} {o : Order} {out : List Effect}
    (ho : ∀ a, o.choose a ≠ some .deactivate) (h : o.obey a = some (a', out))
    (hs : a'.state = .idle) :
    (a.state = .idle ∧ o.choose a = none) ∨ a.forgets = true := by
  rcases obey_cases h with ⟨hnone, rfl⟩ | ⟨event, hc, hhandle⟩
  · exact Or.inl ⟨hs, hnone⟩
  · cases hf : a.forgets with
    | true => exact Or.inr rfl
    | false =>
        have hcmd : ∃ s, commanded (.forAgent event) = some s := by
          cases event with
          | transfer batch => exact ⟨_, rfl⟩
          | collect => exact ⟨_, rfl⟩
          | buy amt => exact ⟨_, rfl⟩
          | sell amt => exact ⟨_, rfl⟩
          | deactivate => exact absurd hc (ho a)
        obtain ⟨s, hcmd⟩ := hcmd
        exact absurd hs (handle_command_idle hcmd hf hhandle)

theorem running_cases {c : Config} (h : c.phase.running = true) :
    (∃ e env, c.phase = .called e env) ∨ ∃ env n rest, c.phase = .asking env n rest := by
  cases hp : c.phase with
  | called e env => exact Or.inl ⟨e, env, rfl⟩
  | asking env n rest => exact Or.inr ⟨env, n, rest, rfl⟩
  | waiting => rw [hp] at h; cases h
  | entering _ _ => rw [hp] at h; cases h
  | panicked => rw [hp] at h; cases h

/-- No entry action has a command left. -/
def Config.Free (c : Config) : Prop := c.phase ≠ .panicked ∧ c.orders = []

theorem free_of_waiting {c : Config} (h : c.phase = .waiting) : c.Free := by
  rw [Config.Free, Config.orders, h]
  exact ⟨fun h => (by cases h), rfl⟩

theorem free_of_entered {c : Config} {next : Option (BotEvent × Env)}
    (h : c.phase = .entering [] next) : c.Free := by
  rw [Config.Free, Config.orders, h]
  exact ⟨fun h => (by cases h), rfl⟩

theorem free_of_running {c : Config} (h : c.phase.running = true) : c.Free := by
  rcases running_cases h with ⟨e, env, hp⟩ | ⟨env, n, rest, hp⟩
  · rw [Config.Free, Config.orders, hp]
    exact ⟨fun h => (by cases h), rfl⟩
  · rw [Config.Free, Config.orders, hp]
    exact ⟨fun h => (by cases h), rfl⟩

/-- An entry action is over, or none is under way: nobody is idle, and nobody becomes so. -/
theorem Live.of_free {c c' : Config} (hL : Live c) (hsame : Same c.strategy c'.strategy)
    (hfree : c.Free) (horders' : c'.orders = []) : Live c' := by
  obtain ⟨hphase, horders⟩ := hfree
  constructor
  · rw [hsame.wallet]
    exact hL.wallet
  · intro hs hw _
    rw [hsame.state] at hs
    rw [hsame.wallet] at hw
    exact absurd horders (hL.fund hs hw hphase)
  · intro _ o ho
    rw [horders'] at ho
    cases ho
  · intro hs _ r hr a ha hidle
    rw [hsame.state] at hs
    rw [hsame.agents] at hr
    rw [hsame.heap] at ha
    obtain ⟨o, ho, -⟩ := hL.agents hs hphase r hr a ha hidle
    rw [horders] at ho
    cases ho

/-- The handler is where it was, or in the same entry action. -/
theorem Live.of_phase {c c' : Config} (hL : Live c) (hsame : Same c.strategy c'.strategy)
    (hphase : c'.phase = c.phase) : Live c' := by
  have horders : c'.orders = c.orders := by rw [Config.orders, Config.orders, hphase]
  constructor
  · rw [hsame.wallet]
    exact hL.wallet
  · rw [hsame.state, hsame.wallet, hphase, horders]
    exact hL.fund
  · rw [hsame.state, horders]
    exact hL.told
  · rw [hsame.state, hsame.agents, hsame.heap, hphase, horders]
    exact hL.agents

theorem live_delivers {c c' : Config} {k : Nat} {i : FoxfireAgent.Input} {t : DispatchTask}
    {e : BotEvent} {who : Member} {a a' : Agent} {out : List Effect} (hL : Live c)
    (hC : strands c (.task k i) = false) (htask : c.strategy.tasks[k]? = some t)
    (hwho : t.receiver = some who) (hmember : c.strategy.member who = some a)
    (hhandle : FoxfireAgent.handle a { i with event := .original e } = some (a', out))
    (hsame : Same (c.strategy.setMember a' who) c'.strategy) (hphase : c'.phase = c.phase) :
    Live c' := by
  have horders : c'.orders = c.orders := by rw [Config.orders, Config.orders, hphase]
  have hev : SolanaStrategyEvent.original e ≠ .forAgent .deactivate := fun h => by cases h
  have hforgets : a.forgets = true → c.strategy.waitsFor c.orders who = false := by
    intro hf
    have hC' : ((c.strategy.member who).any Agent.forgets &&
        c.strategy.waitsFor c.orders who) = false := by
      have hrec : (c.strategy.tasks[k]?).bind DispatchTask.receiver = some who := by
        rw [htask]
        exact hwho
      simpa only [strands, hrec] using hC
    rw [hmember, Option.any_some, hf, Bool.true_and] at hC'
    exact hC'
  have hstate : c'.strategy.state = c.strategy.state := by rw [hsame.state, setMember_state]
  have hagents : c'.strategy.agents = c.strategy.agents := by
    rw [hsame.agents, setMember_agents]
  constructor
  · rw [hsame.wallet]
    cases who with
    | none =>
        obtain rfl : c.strategy.mainWallet = a := Option.some.inj hmember
        exact wallet_handle hL.wallet hev hhandle
    | some r => exact hL.wallet
  · intro hs hw hp
    rw [hstate] at hs
    rw [hphase] at hp
    rw [horders]
    rw [hsame.wallet] at hw
    cases who with
    | none =>
        obtain rfl : c.strategy.mainWallet = a := Option.some.inj hmember
        rcases (handle_turns hhandle).idle hev hw with hidle | hf
        · exact hL.fund hs hidle hp
        · intro hnil
          have hwaits := hforgets hf
          rw [VolumeStrategy.waitsFor, hs, hnil] at hwaits
          cases hwaits
    | some r => exact hL.fund hs hw hp
  · rw [hstate, horders]
    exact hL.told
  · intro hs hp r hr b hb hidle
    rw [hstate] at hs
    rw [hagents] at hr
    rw [hphase] at hp
    rw [hsame.heap] at hb
    rw [horders]
    rcases member_setMember (q := some r) hb with ⟨rfl, rfl⟩ | ⟨-, hb⟩
    · rcases (handle_turns hhandle).idle hev hidle with hold | hf
      · exact hL.agents hs hp r hr a hmember hold
      · have hwaits := hforgets hf
        rw [VolumeStrategy.waitsFor, hs, List.contains_iff_mem.mpr hr] at hwaits
        cases hwaits
    · exact hL.agents hs hp r hr b hb hidle

theorem mem_eraseIdx_of_receiver {orders : List Order} {q o : Order} {j : Nat} (hq : q ∈ orders)
    (ho : orders[j]? = some o) (hne : q.receiver ≠ o.receiver) : q ∈ orders.eraseIdx j := by
  obtain ⟨i, hi⟩ := List.mem_iff_getElem?.mp hq
  refine List.mem_eraseIdx_iff_getElem?.mpr ⟨i, ?_, hi⟩
  intro hij
  rw [hij, ho] at hi
  cases hi
  exact hne rfl

theorem live_commands {c c' : Config} {k j : Nat} {o : Order} {orders : List Order}
    {next : Option (BotEvent × Env)} {a a' : Agent} {out : List Effect} (hI : Apart c)
    (hL : Live c) (hC : strands c (.advance k) = false)
    (hentering : c.phase = .entering orders next) (horder : orders[j]? = some o)
    (hturn : j = if c.strategy.state.inTurn then 0 else k)
    (hmember : c.strategy.member o.receiver = some a) (hobey : o.obey a = some (a', out))
    (hsame : Same (c.strategy.setMember a' o.receiver) c'.strategy)
    (hphase : c'.phase = .entering (orders.eraseIdx j) next) : Live c' := by
  have horders : c.orders = orders := by rw [Config.orders, hentering]
  have horders' : c'.orders = orders.eraseIdx j := by rw [Config.orders, hphase]
  have hnp : c.phase ≠ .panicked := by
    rw [hentering]
    intro h
    cases h
  have hof : OrderOf c.strategy.state c.strategy.agents o :=
    hI.orders o (by rw [horders]; exact List.mem_of_getElem? horder)
  have hstate : c'.strategy.state = c.strategy.state := by rw [hsame.state, setMember_state]
  have hagents : c'.strategy.agents = c.strategy.agents := by
    rw [hsame.agents, setMember_agents]
  have hC' : ((a.forgets && c.strategy.waitsFor (orders.eraseIdx j) o.receiver) ||
      (o.receiver.isSome && a.state = .idle && (o.choose a).isNone)) = false := by
    rw [hturn] at horder ⊢
    simpa only [strands, hentering, horder, hmember, Option.any_some] using hC
  obtain ⟨hforgets, hskip⟩ := (Bool.or_eq_false_iff).mp hC'
  constructor
  · rw [hsame.wallet]
    cases hr : o.receiver with
    | none =>
        rw [hr] at hmember
        obtain rfl : c.strategy.mainWallet = a := Option.some.inj hmember
        exact wallet_obey hL.wallet hof.keeps hobey
    | some r => exact hL.wallet
  · intro hs hw _
    rw [hstate] at hs
    rw [horders']
    rw [hsame.wallet] at hw
    intro hnil
    cases hr : o.receiver with
    | none =>
        rw [hr] at hmember hw hforgets
        obtain rfl : c.strategy.mainWallet = a := Option.some.inj hmember
        rcases obey_idle hof.keeps hobey hw with ⟨-, hnone⟩ | hf
        · obtain ⟨batch, hbatch⟩ := hL.told hs o
            (by rw [horders]; exact List.mem_of_getElem? horder) c.strategy.mainWallet
          cases hbatch.symm.trans hnone
        · rw [VolumeStrategy.waitsFor, hs, hnil, hf] at hforgets
          cases hforgets
    | some r =>
        have hasks := (hof.agent r hr).2
        rw [hs] at hasks
        cases hasks
  · intro hs q hq
    rw [hstate] at hs
    rw [horders'] at hq
    exact hL.told hs q (by rw [horders]; exact List.mem_of_mem_eraseIdx hq)
  · intro hs _ r hr b hb hidle
    rw [hstate] at hs
    rw [hagents] at hr
    rw [hsame.heap] at hb
    rw [horders']
    rcases member_setMember (q := some r) hb with ⟨hrec, rfl⟩ | ⟨hne, hb⟩
    · rcases obey_idle hof.keeps hobey hidle with ⟨hold, hnone⟩ | hf
      · rw [← hrec, hold, hnone] at hskip
        cases hskip
      · rw [← hrec, VolumeStrategy.waitsFor, hs, List.contains_iff_mem.mpr hr, hf] at hforgets
        cases hforgets
    · -- the order for another agent is still there
      obtain ⟨q, hq, hqr⟩ := hL.agents hs hnp r hr b hb hidle
      rw [horders] at hq
      exact ⟨q, mem_eraseIdx_of_receiver hq horder (fun h => hne (hqr.symm.trans h)), hqr⟩

/-- The commands of a state that asks its agents reach all of them. -/
theorem prepare_reaches {v w : VolumeStrategy} {env : Env} {s : State} {orders : List Order}
    (hs : s.asksAgents = true) (h : v.prepare env s = some (w, orders)) :
    ∀ r ∈ w.agents, ∃ o ∈ orders, o.receiver = some r := by
  have hto : ∀ {u : VolumeStrategy} {choose : Agent → Option AgentEvent},
      some (u, u.toAgents env choose) = some (w, orders) →
      ∀ r ∈ w.agents, ∃ o ∈ orders, o.receiver = some r := by
    intro u choose heq r hr
    obtain ⟨rfl, rfl⟩ := Prod.mk.inj (Option.some.inj heq)
    exact ⟨_, List.mem_map.mpr ⟨r, hr, rfl⟩, rfl⟩
  cases s with
  | sweeping => exact hto h
  | buying => exact hto h
  | collectingTokens => exact hto h
  | selling => exact hto h
  | collectingSol => exact hto h
  | offloadingInventory => cases hs
  | fund => cases hs
  | transferringTokenToSellers => cases hs
  | sleeping => cases hs
  | idle => cases hs
  | error _ => cases hs

/-- Batches for the main wallet: there is one if there is anything to transfer. -/
theorem toWallet_ne_nil {env : Env} {transfers : List SolanaTransferActionPayload}
    (h : transfers ≠ []) : VolumeStrategy.toWallet env transfers ≠ [] := by
  obtain ⟨rest, hrest⟩ := chunks_cons (n := maxTransfersInOneTx) (by decide) h
  rw [VolumeStrategy.toWallet, hrest, List.mapIdx_cons]
  exact List.cons_ne_nil _ _

theorem toWallet_told {env : Env} {transfers : List SolanaTransferActionPayload} {o : Order}
    (ho : o ∈ VolumeStrategy.toWallet env transfers) (a : Agent) :
    ∃ batch, o.choose a = some (.transfer batch) := by
  obtain ⟨k, hk, rfl⟩ := List.mem_mapIdx.mp ho
  exact ⟨_, rfl⟩

/-- Who is created to buy depends on the instance and the draws. -/
theorem buyers_congr {s s' : Strategy} (h : s.inst = s'.inst) (x : TrancheInput) :
    buyers s x = buyers s' x := by
  rw [buyers, buyers, h]

/-- A state is entered; for `fund`, with somebody to fund if the main wallet is idle. -/
theorem live_enter {v : VolumeStrategy} {env : Env} {next : Option (BotEvent × Env)}
    (hwallet : Wallet v.mainWallet)
    (hfund : v.state = .fund → v.mainWallet.state = .idle →
      buyers v.funding env.tranche ≠ []) : Live (Config.enter v env next) := by
  rw [Config.enter]
  cases hp : v.prepare env v.state with
  | none =>
      refine ⟨hwallet, fun _ _ h => absurd rfl h, ?_, fun _ h => absurd rfl h⟩
      intro _ o ho
      cases ho
  | some p =>
      have hprep := VolumeStrategy.prepare_prepared hp
      have hfunding : p.1.state = .fund →
          p.2 = VolumeStrategy.toWallet env (v.fundingTransfers env) := by
        intro hs
        rw [hprep.state] at hs
        rw [hs] at hp
        exact (congrArg Prod.snd (Option.some.inj hp)).symm
      constructor
      · rw [hprep.wallet]
        exact hwallet
      · intro hs hw _
        rw [hprep.wallet] at hw
        have hbuyers := hfund (hprep.state.symm.trans hs) hw
        show p.2 ≠ []
        rw [hfunding hs]
        refine toWallet_ne_nil ?_
        intro hnil
        exact hbuyers (List.map_eq_nil_iff.mp hnil)
      · intro hs o ho a
        have ho' : o ∈ p.2 := ho
        rw [hfunding hs] at ho'
        exact toWallet_told ho' a
      · intro hs _ r hr a _ _
        rw [hprep.state] at hs
        exact prepare_reaches hs hp r hr

/-- A command for nobody is dropped. -/
theorem live_misses {c c' : Config} {j : Nat} {o : Order} {orders : List Order}
    {next : Option (BotEvent × Env)} (hI : Apart c) (hL : Live c)
    (hentering : c.phase = .entering orders next) (horder : orders[j]? = some o)
    (hmember : c.strategy.member o.receiver = none) (hsame : Same c.strategy c'.strategy)
    (hphase : c'.phase = .entering (orders.eraseIdx j) next) : Live c' := by
  have horders : c.orders = orders := by rw [Config.orders, hentering]
  have horders' : c'.orders = orders.eraseIdx j := by rw [Config.orders, hphase]
  have hnp : c.phase ≠ .panicked := by
    rw [hentering]
    rintro ⟨⟩
  obtain ⟨q, hq⟩ : ∃ q, o.receiver = some q := by
    cases hr : o.receiver with
    | none =>
        rw [hr] at hmember
        cases hmember
    | some q => exact ⟨q, rfl⟩
  have hof : OrderOf c.strategy.state c.strategy.agents o :=
    hI.orders o (by rw [horders]; exact List.mem_of_getElem? horder)
  constructor
  · rw [hsame.wallet]
    exact hL.wallet
  · intro hs
    rw [hsame.state] at hs
    have hasks := (hof.agent q hq).2
    rw [hs] at hasks
    cases hasks
  · intro hs u hu
    rw [hsame.state] at hs
    rw [horders'] at hu
    exact hL.told hs u (by rw [horders]; exact List.mem_of_mem_eraseIdx hu)
  · intro hs _ r hr a ha hidle
    rw [hsame.state] at hs
    rw [hsame.agents] at hr
    rw [hsame.heap] at ha
    rw [horders']
    obtain ⟨u, hu, hur⟩ := hL.agents hs hnp r hr a ha hidle
    rw [horders] at hu
    refine ⟨u, mem_eraseIdx_of_receiver hu horder ?_, hur⟩
    intro heq
    rw [← heq, hur] at hmember
    cases (show c.strategy.heap[r]? = none from hmember).symm.trans ha

/-- Another state is entered; `fund` with an idle main wallet only if it has buyers. -/
theorem live_moves {c : Config} {k : Nat} {v : VolumeStrategy} {env : Env} {target : State}
    {status : VolumeStrategy.ExecutionStatus} (hL : Live c)
    (hC : strands c (.advance k) = false) (hsame : Same c.strategy v)
    (hedge : Edge c.strategy.mainWallet.state status c.strategy.state target)
    (hphase : (∃ e, c.phase = .called e env ∧
        (c.strategy.state.asksAgents = true → c.strategy.agents = []) ∧
        (c.strategy.state = .sleeping → c.strategy.wakes e env.now = true)) ∨
      ∃ n, c.phase = .asking env n [] ∧ c.strategy.state.asksAgents = true) :
    Live (Config.enter { v.exit.1 with state := target } env none) := by
  rw [VolumeStrategy.exit_eq]
  refine live_enter ?_ ?_
  · show Wallet v.mainWallet
    rw [hsame.wallet]
    exact hL.wallet
  · intro htarget hidle hbuyers
    obtain rfl : target = .fund := htarget
    have hidle' : v.mainWallet.state = .idle := hidle
    rw [hsame.wallet] at hidle'
    have hbuyers' : buyers c.strategy.funding env.tranche = [] :=
      (buyers_congr
        (congrArg VolumeInstance.toVolumeStrategyInstance hsame.inst.symm) _).trans hbuyers
    -- `fund` is entered from `offloading_inventory`, or after the sleep
    have hcalled : ∃ e, c.phase = .called e env ∧ (c.strategy.state = .offloadingInventory ∨
        (c.strategy.state = .sleeping ∧ c.strategy.wakes e env.now = true)) := by
      generalize hs : c.strategy.state = s at hedge
      rcases hphase with ⟨e, hp, -, hwakes⟩ | ⟨n, -, hasks⟩
      · cases hedge with
        | offloaded _ => exact ⟨e, hp, Or.inl rfl⟩
        | awake => exact ⟨e, hp, Or.inr ⟨rfl, hwakes hs⟩⟩
      · rw [hs] at hasks
        cases hedge with
        | offloaded _ => cases hasks
        | awake => cases hasks
    obtain ⟨e, hp, hs⟩ := hcalled
    simp only [strands, hp, hidle', hbuyers', List.isEmpty_nil, decide_true,
      Bool.and_true] at hC
    rcases hs with hs | ⟨hs, hwakes⟩
    · rw [hs] at hC
      cases hC
    · rw [hs, hwakes] at hC
      cases hC

/-- **ONE MOVE**: if it strands nobody, nobody is stranded. -/
theorem live_move {c c' : Config} {m : Move} (hI : Apart c) (hL : Live c)
    (hC : strands c m = false) (h : Moved c m c') : Live c' := by
  cases h with
  | rests hsame hphase => exact hL.of_phase hsame hphase
  | settles hsame hbusy hphase =>
      have horders' : c'.orders = [] := by rw [Config.orders, hphase]
      rcases hbusy with hp | ⟨e, env, hp⟩ | ⟨env, n, rest, hp⟩
      · exact hL.of_free hsame (free_of_entered hp) horders'
      · exact hL.of_free hsame (free_of_running (by rw [hp]; rfl)) horders'
      · exact hL.of_free hsame (free_of_running (by rw [hp]; rfl)) horders'
  | calls hsame _ hidle hphase =>
      have horders' : c'.orders = [] := by rw [Config.orders, hphase]
      rcases hidle with ⟨hp, -⟩ | ⟨p, hp⟩
      · exact hL.of_free hsame (free_of_waiting hp) horders'
      · exact hL.of_free hsame (free_of_entered hp) horders'
  | asks hsame hcalled _ hphase =>
      exact hL.of_free hsame (free_of_running (by rw [hcalled]; rfl))
        (by rw [Config.orders, hphase])
  | reads hsame hasking _ hphase =>
      exact hL.of_free hsame (free_of_running (by rw [hasking]; rfl))
        (by rw [Config.orders, hphase])
  | @delivers _ _ _ t _ _ _ _ htask hwho hmember hhandle hsame hphase =>
      obtain ⟨e, he⟩ := hI.forwards t (List.mem_of_getElem? htask)
      rw [he] at hhandle
      exact live_delivers hL hC htask hwho hmember hhandle hsame hphase
  | commands hentering horder hturn hmember hobey hsame hphase =>
      exact live_commands hI hL hC hentering horder hturn hmember hobey hsame hphase
  | misses hentering horder hmember hsame hphase =>
      exact live_misses hI hL hentering horder hmember hsame hphase
  | panics hsame hphase =>
      refine ⟨?_, fun _ _ h => absurd hphase h, ?_, fun _ h => absurd hphase h⟩
      · rw [hsame.wallet]
        exact hL.wallet
      · intro _ o ho
        rw [Config.orders, hphase] at ho
        cases ho
  | begins hinit _ =>
      refine live_enter hL.wallet ?_
      intro hs
      rw [hI.initial hinit] at hs
      cases hs
  | moves hsame hedge hphase => exact live_moves hL hC hsame hedge hphase

theorem live_reach {inst : VolumeInstance} {pool : RaydiumPool} {key : Keypair} {now : Instant}
    {c : Config} (h : Reach handler Unstranded (Config.new inst pool key now) c) :
    Apart c ∧ Live c := by
  refine Reach.invariant (I := fun c => Apart c ∧ Live c) ⟨apart_reach .init, ?_⟩ ?_ h
  · refine ⟨⟨rfl, rfl⟩, ?_, ?_, ?_⟩
    · intro hs
      cases hs
    · intro hs
      cases hs
    · intro _ _ r hr
      cases hr
  · rintro c m c' out ⟨hI, hL⟩ hC hs
    have hmoved := move_cases hs
    exact ⟨apart_move hI hmoved, live_move hI hL hC hmoved⟩

-- ── Leaving a state ─────────────────────────────────────────────────────────

/-- The states in which the strategy waits for its members. -/
def State.waits : State → Bool
  | .sweeping                   => true
  | .offloadingInventory        => true
  | .fund                       => true
  | .buying                     => true
  | .collectingTokens           => true
  | .transferringTokenToSellers => true
  | .selling                    => true
  | .collectingSol              => true
  | _                           => false

/-- The handler waits for an event, no member is at work, and no task has anything left
    to deliver.  (A member at work is one with a retry count: `transferring`,
    `collecting`, `buying`, `selling` or `deactivating`.) -/
structure Quiet (c : Config) : Prop where
  waiting : c.phase = .waiting
  started : c.strategy.initialized = true
  wallet  : c.strategy.mainWallet.state.retry = none
  agents  : ∀ r ∈ c.strategy.agents, ∀ a, c.strategy.heap[r]? = some a → a.state.retry = none
  flight  : ∀ t ∈ c.strategy.tasks, t.receiver = none

/-- The state has been left for another one. -/
structure Left (s : State) (c : Config) : Prop where
  state : c.strategy.state ≠ s
  phase : c.phase = .waiting ∨ c.phase = .panicked ∨ ∃ orders, c.phase = .entering orders none

/-- How many locks the handler still needs to leave its state. -/
def Config.locks (c : Config) : Nat :=
  match c.phase with
  | .called _ _      => c.strategy.agents.length + 2
  | .asking _ _ rest => rest.length + 1
  | _                => 0

/-- The state is about to be left. -/
structure Due (s : State) (c : Config) : Prop where
  state   : c.strategy.state = s
  running : c.phase.running = true
  wallet  : s.asksAgents = false → c.strategy.mainWallet.state.retry = none
  agents  : s.asksAgents = true → ∀ r ∈ c.strategy.agents, ∀ a, c.strategy.heap[r]? = some a →
    VolumeStrategy.settled a = true
  asked   : ∀ env n rest, c.phase = .asking env n rest →
    s.asksAgents = true ∧ ∀ r ∈ rest, r ∈ c.strategy.agents

/-- A transition leaves the state. -/
theorem left_enter {v : VolumeStrategy} {env : Env} {s : State} (h : v.state ≠ s) :
    Left s (Config.enter v env none) := by
  rw [Config.enter]
  cases hp : v.prepare env v.state with
  | none => exact ⟨h, Or.inr (Or.inl rfl)⟩
  | some p =>
      refine ⟨?_, Or.inr (Or.inr ⟨_, rfl⟩)⟩
      rw [(VolumeStrategy.prepare_prepared hp).state]
      exact h

theorem edge_ne {wallet : FoxfireAgent.State} {status : VolumeStrategy.ExecutionStatus}
    {s target : State} (h : Edge wallet status s target) : target ≠ s := by
  cases h <;> intro heq <;> cases heq

/-- The states that read the main wallet leave once it has come to an end. -/
theorem dispatch_leaves {v : VolumeStrategy} {e : BotEvent} {now : Instant}
    (hs : v.state.waits = true) (hasks : v.state.asksAgents = false)
    (hw : v.mainWallet.state.retry = none) (hon : v.mainWallet.state.isOff = false)
    (hfund : v.state = .fund → v.mainWallet.state ≠ .idle) :
    ∃ target, (v.dispatch e now).2 = .transition target := by
  have hends := rest_cases hw hon
  unfold VolumeStrategy.dispatch
  generalize v.mainWallet.state = w at hends hfund
  cases hstate : v.state with
  | offloadingInventory =>
      rcases hends with rfl | rfl | ⟨msg, rfl⟩ <;> exact ⟨_, rfl⟩
  | fund =>
      rcases hends with rfl | rfl | ⟨msg, rfl⟩
      · exact absurd rfl (hfund hstate)
      · exact ⟨_, rfl⟩
      · exact ⟨_, rfl⟩
  | transferringTokenToSellers =>
      rcases hends with rfl | rfl | ⟨msg, rfl⟩ <;> exact ⟨_, rfl⟩
  | sweeping => rw [hstate] at hasks; cases hasks
  | buying => rw [hstate] at hasks; cases hasks
  | collectingTokens => rw [hstate] at hasks; cases hasks
  | selling => rw [hstate] at hasks; cases hasks
  | collectingSol => rw [hstate] at hasks; cases hasks
  | sleeping => rw [hstate] at hs; cases hs
  | idle => rw [hstate] at hs; cases hs
  | error _ => rw [hstate] at hs; cases hs

/-- Those that ask the agents leave with any answer but `pending`. -/
theorem onStatus_leaves {s : State} {status : VolumeStrategy.ExecutionStatus}
    (hs : s.asksAgents = true) (h : status = .done ∨ status = .error) :
    ∃ target, s.onStatus status = .transition target := by
  rcases h with rfl | rfl
  · cases s <;> first | exact ⟨_, rfl⟩ | cases hs
  · cases s <;> first | exact ⟨_, rfl⟩ | cases hs

/-- A transition that the handler answers is made. -/
theorem respond_leaves {v : VolumeStrategy} {env : Env} {s target : State} {resp : Response State}
    (hresp : resp = .transition target) (h : target ≠ s) :
    Left s (Config.respond v env resp).1 := by
  rw [hresp]
  exact left_enter h

/-- The state's handler is called: it leaves, or begins to ask the agents. -/
theorem due_call {v : VolumeStrategy} {e : BotEvent} {env : Env} {s : State}
    (hs : s.waits = true) (hL : Live ⟨v, .called e env⟩) (hD : Due s ⟨v, .called e env⟩) :
    Left s (Config.call v e env).1 ∨ (Due s (Config.call v e env).1 ∧
      (Config.call v e env).1.locks + 1 ≤ v.agents.length + 2) := by
  have hstate : v.state = s := hD.state
  rw [Config.call]
  by_cases hasks : v.state.asksAgents = true
  · rw [if_pos hasks]
    by_cases hempty : v.agents.isEmpty = true
    · rw [if_pos hempty]
      obtain ⟨target, ht⟩ := onStatus_leaves hasks (Or.inr rfl)
      exact Or.inl (respond_leaves ht (hstate ▸ edge_ne (onStatus_edge .idle ht).1))
    · rw [if_neg hempty]
      refine Or.inr ⟨⟨hstate, rfl, hD.wallet, hD.agents, ?_⟩, ?_⟩
      · intro env' n rest heq
        cases heq
        exact ⟨hstate ▸ hasks, fun r hr => hr⟩
      · show v.agents.length + 1 + 1 ≤ v.agents.length + 2
        exact Nat.le_refl _
  · rw [if_neg hasks]
    have hno : s.asksAgents = false := by rw [← hstate]; simpa using hasks
    have hleaves : ∃ target, (v.dispatch e env.now).2 = .transition target :=
      dispatch_leaves (hstate ▸ hs) (hstate ▸ hno) (hD.wallet hno) hL.wallet.on
        (fun hf hidle => hL.fund hf hidle (fun h => by cases h) rfl)
    obtain ⟨target, ht⟩ := hleaves
    exact Or.inl (respond_leaves ht (hstate ▸ edge_ne (VolumeStrategy.dispatch_edge ht)))

/-- The next agent is asked: none is pending, so the loop goes on, and leaves at its end. -/
theorem due_ask {v : VolumeStrategy} {env : Env} {n : Nat} {rest : List AgentRef} {s : State}
    (hD : Due s ⟨v, .asking env n rest⟩) :
    Left s (Config.ask v env n rest).1 ∨ (Due s (Config.ask v env n rest).1 ∧
      (Config.ask v env n rest).1.locks + 1 ≤ rest.length + 1) := by
  have hstate : v.state = s := hD.state
  obtain ⟨hasks, hrest⟩ := hD.asked env n rest rfl
  cases rest with
  | nil =>
      have hanswer : (if n = v.agents.length then VolumeStrategy.ExecutionStatus.done
          else .error) = .done ∨ (if n = v.agents.length then
            VolumeStrategy.ExecutionStatus.done else .error) = .error := by
        split
        · exact Or.inl rfl
        · exact Or.inr rfl
      obtain ⟨target, ht⟩ := onStatus_leaves (hstate ▸ hasks) hanswer
      exact Or.inl (respond_leaves ht (hstate ▸ edge_ne (onStatus_edge .idle ht).1))
  | cons r rest =>
      have hgoes : ∃ n', (Config.ask v env n (r :: rest)).1 = ⟨v, .asking env n' rest⟩ := by
        rw [Config.ask]
        cases ha : v.heap[r]? with
        | none => exact ⟨n, rfl⟩
        | some a =>
            have hset := hD.agents hasks r (hrest r List.mem_cons_self) a ha
            simp only [if_pos hset]
            exact ⟨_, rfl⟩
      obtain ⟨n', hgoes⟩ := hgoes
      rw [hgoes]
      refine Or.inr ⟨⟨hstate, rfl, hD.wallet, hD.agents, ?_⟩, ?_⟩
      · intro env' m rest' heq
        cases heq
        exact ⟨hasks, fun q hq => hrest q (List.mem_cons_of_mem r hq)⟩
      · show rest.length + 1 + 1 ≤ (r :: rest).length + 1
        exact Nat.le_refl _

/-- The handler's next lock brings it closer to leaving, or leaves. -/
theorem due_advance {c : Config} {s : State} {k : Nat} (hs : s.waits = true) (hL : Live c)
    (hD : Due s c) :
    Left s (c.advance k).1 ∨ (Due s (c.advance k).1 ∧ (c.advance k).1.locks + 1 ≤ c.locks) := by
  obtain ⟨v, phase⟩ := c
  rcases running_cases hD.running with ⟨e, env, hp⟩ | ⟨env, n, rest, hp⟩
  · obtain rfl : phase = .called e env := hp
    exact due_call hs hL hD
  · obtain rfl : phase = .asking env n rest := hp
    exact due_ask hD

theorem settled_congr {a b : Agent} (h : a.state = b.state) :
    VolumeStrategy.settled a = VolumeStrategy.settled b := by
  rw [VolumeStrategy.settled, VolumeStrategy.settled, h]

theorem settled_turns {a : Agent} {e : BotEvent} {s : FoxfireAgent.State}
    (h : Turns a (.original e) s) (ha : VolumeStrategy.settled a = true)
    (hf : a.forgets = false) : VolumeStrategy.settled ⟨s, a.storage⟩ = true := by
  cases h with
  | stays => exact ha
  | retries hr =>
      rw [VolumeStrategy.settled] at ha ⊢
      cases hs : a.state with
      | deactivating r => rfl
      | idle => rw [hs] at hr; cases hr
      | success => rw [hs] at hr; cases hr
      | error _ => rw [hs] at hr; cases hr
      | deactivated => rw [hs] at hr; cases hr
      | transferring _ _ => rw [hs] at ha; cases ha
      | collecting _ => rw [hs] at ha; cases ha
      | buying _ _ => rw [hs] at ha; cases ha
      | selling _ _ => rw [hs] at ha; cases ha
  | obeys _ hc => cases hc
  | recovers hs hm =>
      rw [forgets_of_error hs hm] at hf
      cases hf
  | deactivates h => cases h
  | succeeds _ => rfl
  | fails _ => rfl
  | givesUp _ _ => rfl
  | isDeactivated _ => rfl

/-- A main wallet at rest stays at rest when an event is passed on to it. -/
theorem retry_none_turns {a : Agent} {e : BotEvent} {s : FoxfireAgent.State}
    (h : Turns a (.original e) s) (ha : a.state.retry = none)
    (hm : a.storage.isMainWallet = true) : s.retry = none := by
  cases h with
  | stays => exact ha
  | retries hr =>
      rw [ha] at hr
      cases hr
  | obeys _ hc => cases hc
  | givesUp _ hfalse =>
      rw [hm] at hfalse
      cases hfalse
  | deactivates h => cases h
  | succeeds _ => rfl
  | fails _ => rfl
  | recovers _ _ => rfl
  | isDeactivated _ => rfl

/-- A task's delivery does not keep the strategy from leaving. -/
theorem due_task {c c' : Config} {s : State} {k : Nat} {i : FoxfireAgent.Input}
    {out : List Effect} (hI : Apart c) (hL : Live c) (hD : Due s c)
    (hC : strands c (.task k i) = false) (h : handler c (.task k i) = some (c', out)) :
    Due s c' ∧ c'.locks = c.locks := by
  have hphase : c'.phase = c.phase := by
    obtain ⟨rfl, -⟩ := Prod.mk.inj (Option.some.inj h)
    rfl
  have hlocks : c'.strategy.agents = c.strategy.agents → c'.locks = c.locks := by
    intro hagents
    rw [Config.locks, Config.locks, hphase, hagents]
  have hof : ∀ {v : VolumeStrategy}, Same v c'.strategy → v.state = c.strategy.state →
      v.agents = c.strategy.agents →
      (s.asksAgents = false → v.mainWallet.state.retry = none) →
      (s.asksAgents = true → ∀ r ∈ c.strategy.agents, ∀ a, v.heap[r]? = some a →
        VolumeStrategy.settled a = true) → Due s c' ∧ c'.locks = c.locks := by
    intro v hsame hstate hagents hwallet hset
    have ha : c'.strategy.agents = c.strategy.agents := hsame.agents.trans hagents
    refine ⟨⟨(hsame.state.trans hstate).trans hD.state, ?_, ?_, ?_, ?_⟩, hlocks ha⟩
    · rw [hphase]
      exact hD.running
    · rw [hsame.wallet]
      exact hwallet
    · rw [ha, hsame.heap]
      exact hset
    · intro env n rest hp
      rw [ha]
      exact hD.asked env n rest (hphase.symm.trans hp)
  have hmoved := move_cases h
  cases hmoved with
  | rests hsame _ => exact hof hsame rfl rfl hD.wallet hD.agents
  | settles _ _ hp =>
      have hr := hD.running
      rw [← hphase, hp] at hr
      cases hr
  | calls _ _ hidle _ =>
      have hr := hD.running
      rcases hidle with ⟨hp, -⟩ | ⟨p, hp⟩
      · rw [hp] at hr
        cases hr
      · rw [hp] at hr
        cases hr
  | panics _ hp =>
      have hr := hD.running
      rw [← hphase, hp] at hr
      cases hr
  | @delivers _ _ _ t who a a' _ htask hwho hmember hhandle hsame _ =>
      obtain ⟨e, he⟩ := hI.forwards t (List.mem_of_getElem? htask)
      rw [he] at hhandle
      have hturns : Turns a (.original e) a'.state := handle_turns hhandle
      refine hof hsame (setMember_state _ _ _) (setMember_agents _ _ _) ?_ ?_
      · intro hasks
        cases who with
        | none =>
            obtain rfl : c.strategy.mainWallet = a := Option.some.inj hmember
            exact retry_none_turns hturns (hD.wallet hasks) hL.wallet.main
        | some r => exact hD.wallet hasks
      · intro hasks r hr b hb
        rcases member_setMember (q := some r) hb with ⟨rfl, rfl⟩ | ⟨-, hb⟩
        · have hset := hD.agents hasks r hr a hmember
          have hf : a.forgets = false := by
            have hrec : (c.strategy.tasks[k]?).bind DispatchTask.receiver = some (some r) := by
              rw [htask]
              exact hwho
            simp only [strands, hrec, hmember, Option.any_some, VolumeStrategy.waitsFor,
              hD.state, hasks, List.contains_iff_mem.mpr hr, Bool.and_true] at hC
            exact hC
          exact (settled_congr (b := ⟨b.state, a.storage⟩) rfl).trans
            (settled_turns hturns hset hf)
        · exact hD.agents hasks r hr b hb

theorem give_state {v v' : VolumeStrategy} {o : Order} {out : List Effect}
    (h : v.give o = some (v', out)) : v'.state = v.state := by
  rw [VolumeStrategy.give] at h
  split at h
  · obtain ⟨rfl, -⟩ := Prod.mk.inj (Option.some.inj h)
    rfl
  · obtain ⟨p, -, heq⟩ := Option.map_eq_some_iff.mp h
    obtain ⟨rfl, -⟩ := Prod.mk.inj heq
    exact setMember_state _ _ _

/-- Once left, a state stays left while the handler completes the transition. -/
theorem left_advance {c : Config} {s : State} (hL : Left s c) (k : Nat) :
    Left s (c.advance k).1 := by
  obtain ⟨v, phase⟩ := c
  have hstate : v.state ≠ s := hL.state
  rcases hL.phase with h | h | ⟨orders, h⟩
  · obtain rfl : phase = .waiting := h
    exact hL
  · obtain rfl : phase = .panicked := h
    exact hL
  · obtain rfl : phase = .entering orders none := h
    cases orders with
    | nil => exact ⟨hstate, Or.inl rfl⟩
    | cons o os =>
        simp only [Config.advance, Config.command]
        split
        · exact hL
        · split
          · exact ⟨hstate, Or.inr (Or.inl rfl)⟩
          · next hgive =>
              refine ⟨?_, Or.inr (Or.inr ⟨_, rfl⟩)⟩
              rw [give_state hgive]
              exact hstate

theorem left_task {c c' : Config} {s : State} {k : Nat} {i : FoxfireAgent.Input}
    {out : List Effect} (hL : Left s c) (h : handler c (.task k i) = some (c', out)) :
    Left s c' := by
  obtain ⟨rfl, -⟩ := Prod.mk.inj (Option.some.inj h)
  refine ⟨?_, hL.phase⟩
  have hout := (VolumeStrategy.deliver_spec c.strategy k i).2
  cases hout with
  | quiet _ hstate _ _ =>
      show (c.strategy.deliver k i).1.state ≠ s
      rw [hstate]
      exact hL.state
  | handled hev => cases hev
  | started hev => cases hev

-- ── The strategy is never stuck ─────────────────────────────────────────────

def Move.isEvent : Move → Bool
  | .event _ _ _ => true
  | _            => false

def Move.isAdvance : Move → Bool
  | .advance _ => true
  | _          => false

/-- No move of a run strands a member. -/
def unstranded (c : Config) (m : Move) : Bool := !strands c m

theorem unstranded_sound {c : Config} {m : Move} (h : unstranded c m = true) :
    Unstranded c m := by
  rw [unstranded, Bool.not_eq_true'] at h
  exact h

/-- Handling one more heartbeat makes the strategy leave its state: in every run that
    begins with the heartbeat, strands nobody and brings no further event, the state has
    been left once the handler has had its locks. -/
def LeavesOnHeartBeat (c : Config) : Prop :=
  ∀ (tick : TickSizeMs) (at_ : Instant) (initEnv env : Env) (moves : List Move) (c' : Config)
    (out : List Effect),
    runIf handler unstranded c (.event (.heartBeat tick at_) initEnv env :: moves)
      = some (c', out) →
    (∀ m ∈ moves, m.isEvent = false) →
    c.strategy.agents.length + 2 ≤ moves.countP Move.isAdvance →
    c'.strategy.state ≠ c.strategy.state

theorem locks_pos {c : Config} (h : c.phase.running = true) : 0 < c.locks := by
  rw [Config.locks]
  rcases running_cases h with ⟨e, env, hp⟩ | ⟨env, n, rest, hp⟩
  · rw [hp]
    exact Nat.succ_pos _
  · rw [hp]
    exact Nat.succ_pos _

/-- The handler's run, from where the state is about to be left. -/
theorem due_run {s : State} (hs : s.waits = true) :
    ∀ (moves : List Move) {c c' : Config} {out : List Effect}, Apart c → Live c →
      (Left s c ∨ (Due s c ∧ c.locks ≤ moves.countP Move.isAdvance)) →
      runIf handler unstranded c moves = some (c', out) →
      (∀ m ∈ moves, m.isEvent = false) → Left s c' := by
  intro moves
  induction moves with
  | nil =>
      intro c c' out _ _ hcase hrun _
      obtain ⟨rfl, -⟩ := Prod.mk.inj (Option.some.inj hrun)
      rcases hcase with hleft | ⟨hD, hle⟩
      · exact hleft
      · exact absurd (locks_pos hD.running) (Nat.not_lt.mpr hle)
  | cons m moves ih =>
      intro c c' out hI hL hcase hrun hevents
      rw [runIf] at hrun
      split at hrun
      · next hm =>
          have hC : strands c m = false := unstranded_sound hm
          obtain ⟨⟨c₁, o₁⟩, hstep, hrest⟩ := Option.bind_eq_some_iff.mp hrun
          obtain ⟨⟨c₂, o₂⟩, hrun₂, heq⟩ := Option.map_eq_some_iff.mp hrest
          obtain ⟨rfl, -⟩ := Prod.mk.inj heq
          have hmoved := move_cases hstep
          refine ih (apart_move hI hmoved) (live_move hI hL hC hmoved) ?_ hrun₂
            (fun q hq => hevents q (List.mem_cons_of_mem m hq))
          cases m with
          | event e initEnv env => cases hevents _ List.mem_cons_self
          | advance k =>
              obtain ⟨rfl, -⟩ := Prod.mk.inj (Option.some.inj hstep)
              rcases hcase with hleft | ⟨hD, hle⟩
              · exact Or.inl (left_advance hleft k)
              · rcases due_advance (k := k) hs hL hD with hleft | ⟨hD', hlocks⟩
                · exact Or.inl hleft
                · refine Or.inr ⟨hD', ?_⟩
                  rw [List.countP_cons_of_pos rfl] at hle
                  exact Nat.le_of_succ_le_succ (Nat.le_trans hlocks hle)
          | task k i =>
              rcases hcase with hleft | ⟨hD, hle⟩
              · exact Or.inl (left_task hleft hstep)
              · obtain ⟨hD', hlocks⟩ := due_task hI hL hD hC hstep
                refine Or.inr ⟨hD', ?_⟩
                rw [List.countP_cons_of_neg (fun h => by cases h)] at hle
                rw [hlocks]
                exact hle
      · cases hrun

/-- A member at rest that is not idle has come to an end. -/
theorem settled_of_retry {a : Agent} (h : a.state.retry = none) (hidle : a.state ≠ .idle) :
    VolumeStrategy.settled a = true := by
  rw [VolumeStrategy.settled]
  cases hs : a.state with
  | success => rfl
  | error _ => rfl
  | deactivating _ => rfl
  | deactivated => rfl
  | idle => exact absurd hs hidle
  | transferring _ _ => rw [hs] at h; cases h
  | collecting _ => rw [hs] at h; cases h
  | buying _ _ => rw [hs] at h; cases h
  | selling _ _ => rw [hs] at h; cases h

/-- **NO DEADLOCK, IF NO MEMBER IS STRANDED.**  In every run of the handler and the tasks
    in which no move strands a member: whenever the strategy waits for its members, and
    neither they nor the tasks have anything left to do, one more heartbeat makes it leave
    its state, in whatever order the handler and the task of that heartbeat go on. -/
theorem leaves_when_quiet {inst : VolumeInstance} {pool : RaydiumPool} {key : Keypair}
    {now : Instant} {c : Config}
    (hreach : Reach handler Unstranded (Config.new inst pool key now) c)
    (hwaits : c.strategy.state.waits = true) (hquiet : Quiet c) : LeavesOnHeartBeat c := by
  intro tick at_ initEnv env moves c' out hrun hevents hcount
  obtain ⟨hI, hL⟩ := live_reach hreach
  rw [runIf] at hrun
  split at hrun
  · next hm =>
      obtain ⟨⟨c₁, o₁⟩, hstep, hrest⟩ := Option.bind_eq_some_iff.mp hrun
      obtain ⟨⟨c₂, o₂⟩, hrun₂, heq⟩ := Option.map_eq_some_iff.mp hrest
      obtain ⟨rfl, -⟩ := Prod.mk.inj heq
      have hc₁ : c₁ = ⟨c.strategy.spawn (.heartBeat tick at_),
          .called (.heartBeat tick at_) env⟩ := by
        simp only [handler, Config.take, hquiet.waiting, VolumeStrategy.isProcessed,
          hquiet.started, if_true, Option.some.injEq, Prod.mk.injEq] at hstep
        exact hstep.1.symm
      have hmoved := move_cases hstep
      obtain ⟨hnp, horders⟩ := free_of_waiting hquiet.waiting
      have hleft : Left c.strategy.state c₂ := by
        refine due_run hwaits moves (apart_move hI hmoved)
          (live_move hI hL (unstranded_sound hm) hmoved) (Or.inr ⟨?_, ?_⟩) hrun₂ hevents
        · rw [hc₁]
          refine ⟨rfl, rfl, fun _ => hquiet.wallet, ?_, fun env n rest h => by cases h⟩
          intro hasks r hr a ha
          refine settled_of_retry (hquiet.agents r hr a ha) ?_
          intro hidle
          obtain ⟨o, ho, -⟩ := hL.agents hasks hnp r hr a ha hidle
          rw [horders] at ho
          cases ho
        · rw [hc₁]
          exact hcount
      exact hleft.state
  · cases hrun

-- ── A strategy that leaves, and one that is stuck ───────────────────────────

/-- A test for a quiet configuration in which no agent ever created is at work. -/
def isQuiet (c : Config) : Bool :=
  (match c.phase with
    | .waiting => true
    | _        => false) &&
    c.strategy.initialized && c.strategy.mainWallet.state.retry.isNone &&
    c.strategy.heap.all (fun a => a.state.retry.isNone) &&
    c.strategy.tasks.all (fun t => t.receiver.isNone)

theorem isQuiet_sound {c : Config} (h : isQuiet c = true) :
    Quiet c ∧ ∀ a ∈ c.strategy.heap, a.state.retry = none := by
  simp only [isQuiet, Bool.and_eq_true, List.all_eq_true, Option.isNone_iff_eq_none] at h
  obtain ⟨⟨⟨⟨hphase, hinit⟩, hwallet⟩, hheap⟩, htasks⟩ := h
  refine ⟨⟨?_, hinit, hwallet, ?_, htasks⟩, hheap⟩
  · cases hp : c.phase with
    | waiting => rfl
    | entering _ _ => rw [hp] at hphase; cases hphase
    | called _ _ => rw [hp] at hphase; cases hphase
    | asking _ _ _ => rw [hp] at hphase; cases hphase
    | panicked => rw [hp] at hphase; cases hphase
  · intro r _ a ha
    exact hheap a (List.mem_of_getElem? ha)

/-- Task `k` passes its event to the next `receivers` members, at time `n`. -/
def passes (k n receivers : Nat) : List Move :=
  List.replicate receivers (.task k (input (.forAgent .collect) n ⟨BitVec.ofNat 128 n⟩))

/-- The state of a configuration, and whether it is quiet. -/
def viewQuiet (c : Config) : State × Bool := (c.strategy.state, isQuiet c)

/-- A strategy that has nothing to offload: once the first heartbeat has been passed on,
    the next one makes it leave. -/
theorem leaves_offloading :
    ∃ c, Reach handler Unstranded smallConfig c ∧ c.strategy.state = .offloadingInventory ∧
      LeavesOnHeartBeat c := by
  have hview : (runIf handler unstranded smallConfig (beats 1 4 ++ passes 0 1 1)).map
      (fun p => viewQuiet p.1) = some (.offloadingInventory, true) := by decide +kernel
  obtain ⟨⟨c, out⟩, hrun, hc⟩ := Option.map_eq_some_iff.mp hview
  obtain ⟨hstate, hquiet⟩ := Prod.mk.inj hc
  have hreach := reach_of_runIf (C := Unstranded) (fun _ _ => unstranded_sound) hrun
  have hwaits : c.strategy.state.waits = true := by
    rw [hstate]
    rfl
  exact ⟨c, hreach, hstate, leaves_when_quiet hreach hwaits (isQuiet_sound hquiet).1⟩

/-- The strategy handles a heartbeat at time `n` while every token balance reads zero. -/
def beatsBroke (n k : Nat) : List Move :=
  .event (.heartBeat tick n) (fineEnv n) { fineEnv n with tokenBalance := fun _ => some 0 } ::
    List.replicate k (.advance 0)

/-- Buy and collect; supply a seller, and skip it because its balance still reads zero.
    Then the tasks pass on what they have left. -/
def skipSeller : List Move :=
  beats 1 4 ++ beats 2 3 ++ receives 2 3 2 1 none ++ beats 4 3 ++ receives 4 5 4 2 none ++
    beats 6 5 ++ receives 6 7 6 2 none ++ beats 8 5 ++ receives 8 9 8 1 none ++
    beatsBroke 10 3 ++ passes 0 11 1 ++ passes 1 11 1 ++ passes 2 11 1 ++ passes 3 11 2 ++
    passes 5 11 2 ++ passes 7 11 2 ++ passes 8 11 1 ++ passes 9 11 2

/-- **A SKIPPED SELLER IS WAITED FOR WITHOUT END**: the strategy is in `selling`, nobody
    is at work, and a heartbeat changes nothing. -/
theorem stuck_in_selling :
    ¬ ∀ (inst : VolumeInstance) (pool : RaydiumPool) (key : Keypair) (now : Instant) (c : Config),
      Reach handler Always (Config.new inst pool key now) c → c.strategy.state.waits = true →
      Quiet c → (∀ a ∈ c.strategy.heap, a.state.retry = none) →
      ∀ (tick : TickSizeMs) (at_ : Instant) (initEnv env : Env) (moves : List Move) (c' : Config)
        (out : List Effect),
        run handler c (.event (.heartBeat tick at_) initEnv env :: moves) = some (c', out) →
        (∀ m ∈ moves, m.isEvent = false) →
        c.strategy.agents.length + 2 ≤ moves.countP Move.isAdvance →
        c'.strategy.state ≠ c.strategy.state := by
  intro hclaim
  have hview : ((run handler smallConfig skipSeller).bind fun p =>
      (run handler p.1 (beats 12 3)).map fun q =>
        (viewQuiet p.1, p.1.strategy.agents.length, q.1.strategy.state)) =
      some ((.selling, true), 1, .selling) := by decide +kernel
  obtain ⟨⟨c, out⟩, hrun, hrest⟩ := Option.bind_eq_some_iff.mp hview
  obtain ⟨⟨c', out'⟩, hbeat, heq⟩ := Option.map_eq_some_iff.mp hrest
  obtain ⟨hc, hlen, hstate'⟩ : viewQuiet c = (.selling, true) ∧ c.strategy.agents.length = 1 ∧
      c'.strategy.state = .selling := by simpa using heq
  obtain ⟨hstate, hquiet⟩ := Prod.mk.inj hc
  obtain ⟨hq, hheap⟩ := isQuiet_sound hquiet
  have hreach := reach_of_run (C := Always) (fun _ _ => trivial) hrun
  have hwaits : c.strategy.state.waits = true := by
    rw [hstate]
    rfl
  refine hclaim _ _ _ _ c hreach hwaits hq hheap _ _ _ _ _ c' out' hbeat ?_ ?_
    (hstate'.trans hstate.symm)
  · intro m hm
    rw [List.eq_of_mem_replicate hm]
    rfl
  · rw [hlen]
    decide

end FoxfireVolume
