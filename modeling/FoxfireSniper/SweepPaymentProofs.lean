import FoxfireSniper.SweeperProofs

/-! # Who pays for a sweep

    The sweeper's agents are meant to be paid for by the user's main wallet, and to sweep to
    it again when they give up.  But `get_agents_with_balance` hands them the main wallet of
    the main wallet's own agent, which has none (the volume strategy hands them the main
    wallet's key).  So every transfer of a sweep is paid by the agent, out of an account that
    the same transaction empties, and an agent that gives up unwraps a `None`.

    * **`Paid`** is the property of a run's outputs, `Spared` the condition on a move;
    * **`sweep_paid_iff`**: the outputs of a run are paid for if and only if every move of it
      is spared;
    * **`sweep_not_paid`** is a run in which a sweep fails. -/

namespace FoxfireAgent

open FoxfireTypes FoxfireAttempt

/-- The action transfers all SOL of its wallet. -/
def sweepsSol (action : SolanaAction) : Prop :=
  ∃ t, .transfer t ∈ action.actionPayload ∧ t.asset = .sol ∧
    (t.amount = .max ∨ t.amount = .maxAndClose)

/-- An agent without a main wallet pays for itself. -/
theorem enter_feePayer {a a' : AgentState} {i : Input} {s : State} {out : List Effect}
    (hw : a.mainWallet = none) (h : a.enter i s = some (a', out)) :
    ∀ action, .queued action ∈ out → action.feePayer = a.agentKey := by
  intro action hmem
  have hqueued : ∀ {first : SolanaAction}, out = [.queued first] →
      first.feePayer = a.agentKey → action.feePayer = a.agentKey := by
    intro first hout hfirst
    rw [hout] at hmem
    cases List.mem_singleton.mp hmem
    exact hfirst
  have hcollect : a.collect i = some (a', out) → False := by
    intro hc
    rw [AgentState.collect, hw] at hc
    cases hc
  cases s with
  | collecting _ => exact (hcollect h).elim
  | deactivating _ => exact (hcollect h).elim
  | transferring batch r =>
      refine hqueued (Prod.mk.inj (Option.some.inj h)).2.symm ?_
      show (if _ then a.mainWallet.getD a.agentKey else a.agentKey) = a.agentKey
      rw [hw]
      split
      · rfl
      · rfl
  | buying _ _ => exact hqueued (Prod.mk.inj (Option.some.inj h)).2.symm rfl
  | selling _ _ => exact hqueued (Prod.mk.inj (Option.some.inj h)).2.symm rfl
  | idle =>
      rw [← (Prod.mk.inj (Option.some.inj h)).2] at hmem
      cases hmem
  | success =>
      rw [← (Prod.mk.inj (Option.some.inj h)).2] at hmem
      cases hmem
  | error _ =>
      rw [← (Prod.mk.inj (Option.some.inj h)).2] at hmem
      cases hmem
  | deactivated =>
      rw [← (Prod.mk.inj (Option.some.inj h)).2, AgentState.drop] at hmem
      split at hmem
      · cases hmem
      · simp at hmem

theorem handle_feePayer {m m' : Agent} {i : Input} {out : List Effect}
    (hw : m.storage.mainWallet = none) (h : handle m i = some (m', out)) :
    ∀ action, .queued action ∈ out → action.feePayer = m.storage.agentKey := by
  obtain ⟨t, ht⟩ := FoxfireVolume.dispatch_storage m i
  cases hd : m.dispatch i with
  | mk a resp =>
      rw [hd] at ht
      obtain rfl : a = { m.storage with tracker := t } := ht
      cases resp with
      | transition target =>
          exact enter_feePayer (a := { m.storage with tracker := t }) hw (handle_transition hd h).2
      | handled =>
          obtain ⟨-, rfl⟩ := handle_stay hd (Or.inr rfl) h
          intro action hmem
          cases hmem
      | super =>
          obtain ⟨-, rfl⟩ := handle_stay hd (Or.inl rfl) h
          intro action hmem
          cases hmem

end FoxfireAgent

namespace FoxfireSweeper

open FoxfireTypes FoxfireAttempt FoxfireAgent MachineRun
open FoxfireVolume (VolumeInstance Trader AgentRef DispatchTask Member Forwards)

-- ── The property and the condition ──────────────────────────────────────────

/-- No agent has unwrapped an absent main wallet, and whatever sweeps all SOL of a wallet is
    paid for by `payer`. -/
def Paid (payer : Pubkey) (out : List Output) : Prop :=
  (∀ w, .collectPanics w ∉ out) ∧
  ∀ action, .effect (.queued action) ∈ out → sweepsSol action → action.feePayer.pubkey = payer

/-- What an agent may be given: nothing when it is in its error state and has an owner, and
    no command that it obeys unless it holds the main wallet's key. -/
structure Allowed (payer : Pubkey) (a : Agent) (event : SolanaStrategyEvent) : Prop where
  error : ∀ msg, a.state = .error msg → a.storage.isMainWallet = true
  obeys : ∀ s, a.state = .idle ∨ a.state = .success → commanded event = some s →
    a.storage.pubkey = payer

/-- **THE CONDITION ON A MOVE**: the agent that is given an event may be given it. -/
def Spared (c : Config) (m : Move) : Prop :=
  ∀ r a i, handed c m = some (some r, a, i) →
    Allowed c.sweeper.mainWallet.storage.pubkey a i.event

theorem paid_nil (payer : Pubkey) : Paid payer [] := by
  constructor
  · intro w h
    cases h
  · intro action h
    cases h

theorem paid_append (payer : Pubkey) (out₁ out₂ : List Output) :
    Paid payer (out₁ ++ out₂) ↔ Paid payer out₁ ∧ Paid payer out₂ := by
  constructor
  · rintro ⟨hpanic, hpaid⟩
    refine ⟨⟨fun w h => hpanic w (List.mem_append_left _ h), fun action h =>
      hpaid action (List.mem_append_left _ h)⟩, ⟨fun w h =>
      hpanic w (List.mem_append_right _ h), fun action h =>
      hpaid action (List.mem_append_right _ h)⟩⟩
  · rintro ⟨h₁, h₂⟩
    constructor
    · intro w h
      rcases List.mem_append.mp h with h | h
      · exact h₁.1 w h
      · exact h₂.1 w h
    · intro action h
      rcases List.mem_append.mp h with h | h
      · exact h₁.2 action h
      · exact h₂.2 action h

/-- What an agent outputs when it pays with the right key. -/
theorem paid_outputs {payer : Pubkey} {a : Agent} {out : List Effect}
    (h : ∀ action, .queued action ∈ out → action.feePayer.pubkey = payer) :
    Paid payer (outputs a (some out)) := by
  constructor
  · intro w hmem
    obtain ⟨e, -, heq⟩ := List.mem_map.mp hmem
    cases heq
  · intro action hmem _
    obtain ⟨e, he, heq⟩ := List.mem_map.mp hmem
    cases heq
    exact h action he

theorem not_paid_panic {payer : Pubkey} {a : Agent} : ¬ Paid payer (outputs a none) :=
  fun h => h.1 _ (List.mem_singleton.mpr rfl)

-- ── One agent ───────────────────────────────────────────────────────────────

/-- The events of the sweeper: what the tasks pass on, and commands to transfer all SOL. -/
inductive Sweeping : SolanaStrategyEvent → Prop where
  | passedOn (e : BotEvent) : Sweeping (.original e)
  | swept {batch : List SolanaTransferActionPayload}
      (h : ∃ t ∈ batch, t.asset = .sol ∧ t.amount = .max) : Sweeping (.forAgent (.transfer batch))

/-- An agent without a main wallet that does not collect, and works only if it holds the
    payer's key. -/
structure Swept (payer : Pubkey) (a : Agent) : Prop where
  alone : a.storage.mainWallet = none
  idle  : a.state.collects = false
  paid  : ∀ r, a.state.retry = some r → a.storage.pubkey = payer

variable {payer : Pubkey} {a : Agent} {i : FoxfireAgent.Input}

theorem react_pubkey (a : Agent) (i : FoxfireAgent.Input) :
    (a.react i).1.storage.pubkey = a.storage.pubkey := by
  obtain ⟨t, ht⟩ := react_storage a i
  rw [ht]
  rfl

theorem react_mainWallet (a : Agent) (i : FoxfireAgent.Input) :
    (a.react i).1.storage.mainWallet = a.storage.mainWallet := by
  obtain ⟨t, ht⟩ := react_storage a i
  rw [ht]

/-- In its error state: a main wallet recovers, and any other agent panics. -/
theorem react_error {msg : ErrorMsg} (ha : Swept payer a) (hs : a.state = .error msg) :
    (Paid payer (outputs a (a.react i).2) ↔ a.storage.isMainWallet = true) ∧
      (a.storage.isMainWallet = true → (a.react i).1.state = .idle) := by
  cases hm : a.storage.isMainWallet with
  | true =>
      have hd : a.dispatch i = (a.storage, .transition .idle) := by
        rw [Agent.dispatch, hs]
        show (a.storage, if a.storage.isMainWallet = true then _ else _) = _
        rw [hm]
        rfl
      have hstep : FoxfireAgent.handle a i = some (⟨.idle, a.storage⟩, []) := by
        rw [FoxfireAgent.handle, hd]
        rfl
      rw [react_handled hstep]
      exact ⟨⟨fun _ => rfl, fun _ => paid_nil payer⟩, fun _ => rfl⟩
  | false =>
      have hd : a.dispatch i = (a.storage, .transition (.deactivating 0)) := by
        rw [Agent.dispatch, hs]
        show (a.storage, if a.storage.isMainWallet = true then _ else _) = _
        rw [hm]
        rfl
      rw [react_panics hd rfl ha.alone]
      exact ⟨⟨fun h => absurd h not_paid_panic, fun h => by cases h⟩, fun h => by cases h⟩

/-- Waiting for a command: what is passed on is ignored. -/
theorem react_passedOn {e : BotEvent} (hs : a.state = .idle ∨ a.state = .success)
    (hev : i.event = .original e) : a.react i = (a, some []) := by
  have hd : a.dispatch i = (a.storage, .super) := by
    rw [dispatch_awaiting i hs, AgentState.awaitCommand, hev]
  exact react_stays hd (Or.inl rfl)

/-- And a command to transfer is obeyed, at the agent's expense. -/
theorem react_obeys {batch : List SolanaTransferActionPayload}
    (hs : a.state = .idle ∨ a.state = .success) (hev : i.event = .forAgent (.transfer batch)) :
    a.react i = (⟨.transferring batch 0, (a.storage.transfer i batch).1⟩,
      some (a.storage.transfer i batch).2) := by
  have hd : a.dispatch i = (a.storage, .transition (.transferring batch 0)) := by
    rw [dispatch_awaiting i hs, AgentState.awaitCommand, hev]
  refine react_handled ?_
  rw [FoxfireAgent.handle, hd]
  rfl

/-- An action waited for: whatever follows is paid for by the agent. -/
theorem react_waits {r : Nat} (ha : Swept payer a) (hr : a.state.retry = some r)
    (hev : i.event ≠ .forAgent .deactivate) :
    Paid payer (outputs a (a.react i).2) ∧ (a.react i).1.state.collects = false := by
  have hcollects : (a.react i).1.state.collects = false := by
    have hidle := ha.idle
    have hturns := react_turns a i
    generalize (a.react i).1.state = s at hturns ⊢
    cases hturns with
    | stays => exact hidle
    | retries _ => exact (retried_collects _).trans hidle
    | succeeds _ => rfl
    | fails _ => rfl
    | obeys hs _ =>
        rcases hs with hs | hs
        · rw [hs] at hr; cases hr
        · rw [hs] at hr; cases hr
    | recovers hs _ => rw [hs] at hr; cases hr
    | givesUp hs _ => rw [hs] at hr; cases hr
    | isDeactivated hs => rw [hs] at hidle; cases hidle
    | deactivates h => exact absurd h hev
  obtain ⟨out, hstep, hout⟩ := react_handles hcollects
  refine ⟨?_, hcollects⟩
  rw [hout]
  refine paid_outputs fun action hmem => ?_
  rw [handle_feePayer ha.alone hstep action hmem]
  exact ha.paid r hr

/-- Waiting for a command. -/
theorem swept_awaits (ha : Swept payer a) (hev : Sweeping i.event)
    (hs : a.state = .idle ∨ a.state = .success) :
    (Paid payer (outputs a (a.react i).2) ↔ Allowed payer a i.event) ∧
      (Allowed payer a i.event → Swept payer (a.react i).1) := by
  have hnoerror : ∀ msg, a.state = .error msg → a.storage.isMainWallet = true := by
    intro msg h
    rcases hs with hs | hs
    · rw [hs] at h; cases h
    · rw [hs] at h; cases h
  cases hevent : i.event with
  | original e =>
      rw [react_passedOn hs hevent]
      have hallowed : Allowed payer a (.original e) := by
        refine ⟨hnoerror, ?_⟩
        intro s _ hc
        cases hc
      exact ⟨⟨fun _ => hallowed, fun _ => paid_nil payer⟩, fun _ => ha⟩
  | forAgent command =>
      rw [hevent] at hev
      cases hev with
      | @swept batch hbatch =>
          have hreact := react_obeys hs hevent
          rw [hreact]
          constructor
          · constructor
            · intro hpaid
              refine ⟨hnoerror, fun _ _ _ => ?_⟩
              -- the transfer of all SOL is among what was queued
              obtain ⟨t, ht, hsol, hmax⟩ := hbatch
              have hfee : ∀ action, Effect.queued action ∈ (a.storage.transfer i batch).2 →
                  action.feePayer = a.storage.agentKey :=
                enter_feePayer (s := .transferring batch 0) ha.alone rfl
              have hkey := hpaid.2 _ (List.mem_singleton.mpr rfl)
                ⟨t, List.mem_map.mpr ⟨t, ht, rfl⟩, hsol, Or.inl hmax⟩
              rw [hfee _ (List.mem_singleton.mpr rfl)] at hkey
              exact hkey
            · intro hallowed
              refine paid_outputs fun action hmem => ?_
              rw [enter_feePayer (s := .transferring batch 0) ha.alone rfl action hmem]
              exact hallowed.obeys _ hs rfl
          · intro hallowed
            exact ⟨ha.alone, rfl, fun _ _ => hallowed.obeys _ hs rfl⟩

/-- **ONE AGENT** pays right, and keeps doing so, if and only if it is given what it may be
    given. -/
theorem swept_react (ha : Swept payer a) (hev : Sweeping i.event) :
    (Paid payer (outputs a (a.react i).2) ↔ Allowed payer a i.event) ∧
      (Allowed payer a i.event → Swept payer (a.react i).1) := by
  have halone : (a.react i).1.storage.mainWallet = none :=
    (react_mainWallet a i).trans ha.alone
  have hoff : i.event ≠ .forAgent .deactivate := by
    intro h
    rw [h] at hev
    cases hev
  cases hr : a.state.retry with
  | some r =>
      obtain ⟨hpaid, hcollects⟩ := react_waits ha hr hoff
      have hallowed : Allowed payer a i.event := by
        constructor
        · intro msg hs
          rw [hs] at hr
          cases hr
        · rintro s (hs | hs) _
          · rw [hs] at hr; cases hr
          · rw [hs] at hr; cases hr
      refine ⟨⟨fun _ => hallowed, fun _ => hpaid⟩, fun _ => ⟨halone, hcollects, ?_⟩⟩
      intro n _
      exact (react_pubkey a i).trans (ha.paid r hr)
  | none =>
      cases hs : a.state with
      | idle => exact swept_awaits ha hev (Or.inl hs)
      | success => exact swept_awaits ha hev (Or.inr hs)
      | error msg =>
          obtain ⟨hpaid, hidle⟩ := react_error (i := i) ha hs
          refine ⟨hpaid.trans ⟨fun hm => ⟨fun _ _ => hm, ?_⟩, fun h => h.error msg hs⟩, ?_⟩
          · rintro s (h | h) _
            · rw [hs] at h; cases h
            · rw [hs] at h; cases h
          · intro hallowed
            have hstate := hidle (hallowed.error msg hs)
            refine ⟨halone, ?_, ?_⟩
            · rw [hstate]
              rfl
            · rw [hstate]
              intro n hn
              cases hn
      | deactivated =>
          have hd : a.dispatch i = (a.storage, .handled) := by rw [Agent.dispatch, hs]
          have hreact : a.react i = (a, some []) := react_stays hd (Or.inr rfl)
          rw [hreact]
          refine ⟨⟨fun _ => ⟨?_, ?_⟩, fun _ => paid_nil payer⟩, fun _ => ha⟩
          · intro msg h
            rw [hs] at h
            cases h
          · rintro s (h | h) _
            · rw [hs] at h; cases h
            · rw [hs] at h; cases h
      | transferring _ _ => rw [hs] at hr; cases hr
      | collecting _ => rw [hs] at hr; cases hr
      | buying _ _ => rw [hs] at hr; cases hr
      | selling _ _ => rw [hs] at hr; cases hr
      | deactivating _ => rw [hs] at hr; cases hr

-- ── The strategy ────────────────────────────────────────────────────────────

/-- The commands of the sweeper: a sale for the main wallet, a sweep for an agent. -/
structure OrderOf (o : Order) : Prop where
  wallet : o.receiver = none → ∀ a, o.command a = .sell .max
  agent  : ∀ r, o.receiver = some r → ∀ a, Sweeping (.forAgent (o.command a))

/-- Nobody is told to collect. -/
theorem OrderOf.not_collect {o : Order} {a : Agent} (h : OrderOf o) (hr : o.receiver = none) :
    (o.event a).event ≠ .forAgent .collect := by
  intro hcol
  rw [Order.event, h.wallet hr] at hcol
  cases hcol

/-- The members: a main wallet that holds the payer's key, and agents that pay right. -/
structure Members (payer : Pubkey) (s : Sweeper) : Prop where
  wallet : Sole s.mainWallet
  key    : s.mainWallet.storage.pubkey = payer
  agents : ∀ a ∈ s.agents, Swept payer a

structure Billed (payer : Pubkey) (c : Config) : Prop where
  members  : Members payer c.sweeper
  forwards : Forwards c.sweeper.tasks
  orders   : ∀ o ∈ c.orders, OrderOf o

theorem sweepTransfers_all (s : Sweeper) (env : Env) (a : Agent) :
    ∃ t ∈ s.sweepTransfers env a, t.asset = .sol ∧ t.amount = .max := by
  rw [Sweeper.sweepTransfers]
  split
  · exact ⟨_, List.mem_cons_of_mem _ (List.mem_singleton.mpr rfl), rfl, rfl⟩
  · exact ⟨_, List.mem_singleton.mpr rfl, rfl, rfl⟩

theorem prepare_orders (s : Sweeper) (env : Env) (target : State) :
    ∀ o ∈ (s.prepare env target).2, OrderOf o := by
  intro o ho
  cases target with
  | list => cases ho
  | done => cases ho
  | sweeping =>
      obtain ⟨r, -, rfl⟩ := List.mem_map.mp ho
      refine ⟨fun h => (by cases h), ?_⟩
      intro _ _ a
      exact .swept (sweepTransfers_all s env a)
  | sellingTokenMainW =>
      obtain rfl := List.mem_singleton.mp ho
      exact ⟨fun _ _ => rfl, fun _ h => by cases h⟩

/-- The agents that are listed have no main wallet. -/
theorem listed_swept {s : Sweeper} {env : Env} {payer : Pubkey} (hs : Sole s.mainWallet)
    {t : Trader} {a : Agent} (h : s.agentOfTrader env t = some a) : Swept payer a := by
  rw [Sweeper.agentOfTrader] at h
  split at h
  · cases h
  · split at h
    · cases h
    · obtain ⟨key, -, rfl⟩ := Option.map_eq_some_iff.mp h
      exact ⟨hs.alone, rfl, fun r hr => by cases hr⟩

theorem prepare_members {s : Sweeper} {payer : Pubkey} (hs : Members payer s) (env : Env)
    (target : State) : Members payer (s.prepare env target).1 := by
  cases target with
  | sweeping => exact hs
  | sellingTokenMainW => exact hs
  | done => exact hs
  | list =>
      show Members payer (s.getAgentsWithBalance env)
      rw [Sweeper.getAgentsWithBalance]
      split
      · exact hs
      · refine ⟨hs.wallet, hs.key, ?_⟩
        intro a ha
        obtain ⟨t, -, ht⟩ := List.mem_filterMap.mp ha
        exact listed_swept hs.wallet ht

theorem prepare_tasks (s : Sweeper) (env : Env) (target : State) :
    (s.prepare env target).1.tasks = s.tasks := by
  cases target with
  | sweeping => rfl
  | sellingTokenMainW => rfl
  | done => rfl
  | list =>
      show (s.getAgentsWithBalance env).tasks = s.tasks
      rw [Sweeper.getAgentsWithBalance]
      split
      · rfl
      · rfl

theorem billed_enter {s : Sweeper} {payer : Pubkey} (hs : Members payer s)
    (hforwards : Forwards s.tasks) (env : Env) (next : Option (BotEvent × Env)) :
    Billed payer (Config.enter s env next) := by
  refine ⟨prepare_members hs env _, ?_, prepare_orders s env _⟩
  show Forwards (s.prepare env s.state).1.tasks
  rw [prepare_tasks]
  exact hforwards

theorem Members.same {payer : Pubkey} {s s' : Sweeper} (hs : Members payer s)
    (hsame : Same s s') : Members payer s' := by
  refine ⟨?_, ?_, ?_⟩
  · rw [hsame.wallet]
    exact hs.wallet
  · rw [hsame.wallet]
    exact hs.key
  · rw [hsame.agents]
    exact hs.agents

theorem Billed.of_same {payer : Pubkey} {c c' : Config} (hI : Billed payer c)
    (hsame : Same c.sweeper c'.sweeper) (horders : ∀ o ∈ c'.orders, o ∈ c.orders) :
    Billed payer c' :=
  ⟨hI.members.same hsame, hsame.forwards hI.forwards, fun o ho => hI.orders o (horders o ho)⟩

/-- One member has handled an event. -/
theorem Billed.of_member {payer : Pubkey} {c c' : Config} {who : Member} {a' : Agent}
    (hI : Billed payer c) (hmembers : Members payer (c.sweeper.setMember a' who))
    (hsame : Same (c.sweeper.setMember a' who) c'.sweeper)
    (horders : ∀ o ∈ c'.orders, o ∈ c.orders) : Billed payer c' := by
  refine ⟨hmembers.same hsame, hsame.forwards ?_, fun o ho => hI.orders o (horders o ho)⟩
  have htasks : (c.sweeper.setMember a' who).tasks = c.sweeper.tasks := by
    cases who <;> rfl
  rw [htasks]
  exact hI.forwards

/-- **ONE MEMBER** is given an event. -/
theorem members_react {payer : Pubkey} {s : Sweeper} {who : Member} {a : Agent}
    {i : FoxfireAgent.Input} (hs : Members payer s) (hmember : s.member who = some a)
    (hwallet : who = none → i.event ≠ .forAgent .collect)
    (hagent : ∀ r, who = some r → Sweeping i.event) :
    (Paid payer (outputs a (a.react i).2) ↔ ∀ r, who = some r → Allowed payer a i.event) ∧
      ((∀ r, who = some r → Allowed payer a i.event) →
        Members payer (s.setMember (a.react i).1 who)) := by
  cases who with
  | none =>
      obtain rfl : s.mainWallet = a := Option.some.inj hmember
      obtain ⟨a', out, hstep, hsole, -⟩ := sole_handle hs.wallet (hwallet rfl)
      have hpaid : Paid payer (outputs s.mainWallet (some out)) := by
        refine paid_outputs fun action hmem => ?_
        rw [handle_feePayer hs.wallet.alone hstep action hmem]
        exact hs.key
      have hkey := react_pubkey s.mainWallet i
      rw [react_handled hstep] at hkey ⊢
      refine ⟨⟨fun _ r h => (by cases h), fun _ => hpaid⟩, fun _ => ?_⟩
      exact ⟨hsole, hkey.trans hs.key, hs.agents⟩
  | some r =>
      obtain ⟨hpaid, hswept⟩ := swept_react (hs.agents a (List.mem_of_getElem? hmember))
        (hagent r rfl)
      have hone : Allowed payer a i.event ↔ ∀ q, some r = some q → Allowed payer a i.event :=
        ⟨fun h _ _ => h, fun h => h r rfl⟩
      refine ⟨hpaid.trans hone, fun h => ?_⟩
      refine ⟨hs.wallet, hs.key, ?_⟩
      intro b hb
      rcases List.mem_or_eq_of_mem_set hb with hb | rfl
      · exact hs.agents b hb
      · exact hswept (h r rfl)

/-- **ONE MOVE**: its outputs are paid for if and only if it is spared. -/
theorem billed_step {payer : Pubkey} {c c' : Config} {m : Move} {out : List Output}
    (hI : Billed payer c) (h : sweeper c m = some (c', out)) :
    (Paid payer out ↔ Spared c m) ∧ (Spared c m → Billed payer c') := by
  have hquiet : handed c m = none → (Paid payer [] ↔ Spared c m) := by
    intro hhanded
    refine ⟨fun _ r a i heq => ?_, fun _ => paid_nil payer⟩
    rw [hhanded] at heq
    cases heq
  have hgives : ∀ {who : Member} {a : Agent} {i : FoxfireAgent.Input},
      handed c m = some (who, a, i) →
      (Spared c m ↔ ∀ r, who = some r → Allowed payer a i.event) := by
    intro who a i hhanded
    rw [Spared, hhanded, hI.members.key]
    constructor
    · rintro hspared r rfl
      exact hspared r a i rfl
    · rintro hall r b j heq
      cases heq
      exact hall r rfl
  have hdone : handed c m = none → Same c.sweeper c'.sweeper → c'.orders = [] →
      (Paid payer [] ↔ Spared c m) ∧ (Spared c m → Billed payer c') := by
    intro hhanded hsame horders
    refine ⟨hquiet hhanded, fun _ => hI.of_same hsame fun o ho => ?_⟩
    rw [horders] at ho
    cases ho
  cases move_cases h with
  | rests hhanded hsame hphase =>
      refine ⟨hquiet hhanded, fun _ => hI.of_same hsame fun o ho => ?_⟩
      rwa [Config.orders, hphase] at ho
  | settles hsame hentering hphase =>
      exact hdone (Config.handed_none hentering fun _ _ _ h => by cases h) hsame
        (by rw [Config.orders, hphase])
  | calls hhanded hsame _ _ hphase =>
      exact hdone hhanded hsame (by rw [Config.orders, hphase])
  | asks hsame hcalled _ hphase =>
      exact hdone (Config.handed_none hcalled fun _ _ _ h => by cases h) hsame
        (by rw [Config.orders, hphase])
  | reads hsame hasking _ _ hphase =>
      exact hdone (Config.handed_none hasking fun _ _ _ h => by cases h) hsame
        (by rw [Config.orders, hphase])
  | stays hsame hwhy hphase =>
      refine hdone ?_ hsame (by rw [Config.orders, hphase])
      rcases hwhy with ⟨n, r, rest, a, hp, -, -⟩ | hp | ⟨hp, -⟩ | ⟨hp, -⟩ <;>
        exact Config.handed_none hp fun _ _ _ h => by cases h
  | @delivers k i _ t who a htask hmember hhanded hsame hphase =>
      obtain ⟨e, he⟩ := hI.forwards t (List.mem_of_getElem? htask)
      obtain ⟨hpaid, hmembers⟩ := members_react (i := { i with event := t.event }) hI.members
        hmember (fun _ hcol => by rw [show t.event = _ from hcol] at he; cases he)
        (fun _ _ => by
          show Sweeping t.event
          rw [he]
          exact .passedOn e)
      refine ⟨hpaid.trans (hgives hhanded).symm, fun hspared => ?_⟩
      refine hI.of_member (hmembers ((hgives hhanded).mp hspared)) hsame fun o ho => ?_
      rwa [Config.orders, hphase] at ho
  | @commands _ o orders next a hentering hmember hsame hphase =>
      have hof : OrderOf o := hI.orders o (Config.orders_of_entering hentering).1
      have hhanded : handed c .advance = some (o.receiver, a, o.event a) := by
        rw [handed, hentering]
        dsimp only
        rw [hmember]
        rfl
      obtain ⟨hpaid, hmembers⟩ := members_react (i := o.event a) hI.members hmember
        hof.not_collect (fun r hr => hof.agent r hr a)
      refine ⟨hpaid.trans (hgives hhanded).symm, fun hspared => ?_⟩
      exact hI.of_member (hmembers ((hgives hhanded).mp hspared)) hsame
        (Config.orders_given hentering hphase)
  | @misses _ o orders next hentering hmember hsame hphase =>
      have hhanded : handed c .advance = none := by
        rw [handed, hentering]
        dsimp only
        rw [hmember]
        rfl
      refine ⟨hquiet hhanded, fun _ => hI.of_same hsame ?_⟩
      exact @Config.orders_given c c' o orders next true hentering hphase
  | begins hinit hwaiting =>
      exact ⟨hquiet rfl, fun _ => billed_enter hI.members hI.forwards _ _⟩
  | @moves env target hedge =>
      refine ⟨hquiet (Config.handed_none rfl hedge.calls), fun _ => ?_⟩
      exact @billed_enter { c.sweeper with state := target } payer
        ⟨hI.members.wallet, hI.members.key, hI.members.agents⟩ hI.forwards env none

/-- **A SWEEP IS PAID FOR BY THE MAIN WALLET** in exactly the runs that give no sweep to an
    agent with a key of its own, and no event to an agent with an owner in its error state.
    In such a run no agent unwraps an absent main wallet either. -/
theorem sweep_paid_iff {inst : VolumeInstance} {pool : RaydiumPool} {key : Keypair}
    {now : Instant} {moves : List Move} {c : Config} {out : List Output}
    (h : run sweeper (Config.new inst pool key now) moves = some (c, out)) :
    Paid key.pubkey out ↔ Along sweeper Spared (Config.new inst pool key now) moves := by
  have hnew : Billed key.pubkey (Config.new inst pool key now) := by
    refine ⟨⟨⟨⟨rfl, rfl⟩, rfl, rfl⟩, rfl, ?_⟩, ?_, ?_⟩
    · intro a ha
      cases ha
    · intro t ht
      cases ht
    · intro o ho
      cases ho
  refine run_iff_along (I := Billed key.pubkey) (paid_nil _) (paid_append _) ?_ ?_ hnew h
  · intro c m c' out hI hs
    exact (billed_step hI hs).1
  · intro c m c' out hI hspared hs
    exact (billed_step hI hs).2 hspared

-- ── A sweep that fails ──────────────────────────────────────────────────────

/-- One trader, with a key of its own, that holds SOL and no tokens. -/
def traderEnv : Env where
  now := 0
  traders := some [⟨1, some 1, ⟨5⟩, "key 5", true⟩]
  newFromPrivkey := fun _ => some ⟨⟨5⟩, 5⟩
  solBalance := fun _ => some 1000000000
  tokenBalance := fun _ => some 0
  walletInput := input (.forAgent .collect) 0 ⟨100⟩
  agentInput := fun _ => input (.forAgent .collect) 0 ⟨1⟩

/-- The sweeper of instance 1. -/
def traderSweeper : Config := Config.new ⟨⟨1, 1, 1, 1, 0⟩, 1, 100⟩ default ⟨⟨1⟩, 1⟩ 0

/-- The first heartbeat: the trader is listed and told to sweep. -/
def firstSweep : List Move :=
  .event (.heartBeat tick 0) traderEnv traderEnv :: List.replicate 4 .advance

/-- The receipt of action `n`, which failed; the agent queues action `n + 1`. -/
def failedSweep (n : Nat) : List Move :=
  [.event (.blockchainEvent (.executionReceipt ⟨⟨BitVec.ofNat 128 n⟩, default, some ⟨6001⟩, 10⟩))
      traderEnv traderEnv, .advance, .advance,
    .task n (input (.forAgent .collect) 10 ⟨100⟩),
    .task n (input (.forAgent .collect) 10 ⟨BitVec.ofNat 128 (n + 1)⟩)]

/-- Four sweeps fail, and another heartbeat finds the agent in its error state. -/
def abandonedSweep : List Move :=
  firstSweep ++ failedSweep 1 ++ failedSweep 2 ++ failedSweep 3 ++ failedSweep 4 ++
    .event (.heartBeat tick 20) traderEnv traderEnv :: List.replicate 3 .advance ++
    List.replicate 2 (.task 5 (input (.forAgent .collect) 20 ⟨6⟩))

/-- The panics among the outputs. -/
def panics (out : List Output) : List Pubkey :=
  out.filterMap fun
    | .collectPanics w => some w
    | .effect _        => none

theorem mem_of_panics {w : Pubkey} {out : List Output} (h : w ∈ panics out) :
    .collectPanics w ∈ out := by
  obtain ⟨o, ho, hw⟩ := List.mem_filterMap.mp h
  cases o with
  | collectPanics v =>
      cases hw
      exact ho
  | effect e => cases hw

/-- The condition at work: with the trader listed, some move is not spared. -/
theorem first_sweep_not_spared :
    ∃ c out, run sweeper traderSweeper firstSweep = some (c, out) ∧
      (Paid ⟨1⟩ out ↔ Along sweeper Spared traderSweeper firstSweep) := by
  obtain ⟨c, out, hrun⟩ : ∃ c out, run sweeper traderSweeper firstSweep = some (c, out) :=
    ⟨_, _, rfl⟩
  exact ⟨c, out, hrun, sweep_paid_iff hrun⟩

/-- **A SWEEP THAT IS NOT PAID FOR**, and an agent that panics when it gives up. -/
theorem sweep_not_paid :
    ¬ ∀ moves c out, run sweeper traderSweeper moves = some (c, out) → Paid ⟨1⟩ out := by
  intro hall
  have hview : (run sweeper traderSweeper abandonedSweep).map (fun p => panics p.2)
      = some [⟨5⟩] := rfl
  obtain ⟨⟨c, out⟩, hrun, hpanics⟩ := Option.map_eq_some_iff.mp hview
  refine (hall _ c out hrun).1 ⟨5⟩ (mem_of_panics ?_)
  rw [show panics out = [⟨5⟩] from hpanics]
  exact List.mem_singleton.mpr rfl

end FoxfireSweeper
