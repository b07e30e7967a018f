import FoxfireSniper.TrancheProofs

/-! # Sweeping — whose traders pay?

    `collect_everything_from_staled_agents` loads traders from the table and tells each
    of them to send all it owns to the main wallet.  The query compares the wallet only;
    the filter on `strategy_instance_id` is commented out.  So the sweep takes whatever
    trader of the table owns enough, whoever it belongs to.

    * **`Sweeps`** says which steps of the machine run the entry action, and on what.
    * **`Owned`**: outside `sweeping`, the agents in the list were created for this
      strategy.  So a sweep whose query fails takes from these only.
    * **`sweep_isolated_iff`**: a sweep keeps to its user, and away from other running
      strategies, exactly when every trader of the table that it can take from does. -/

namespace FoxfireVolume

open FoxfireTypes FoxfireAttempt FoxfireAgent FoxfireFunding MachineRun

/-- A row of `volumestrategyinstances`. -/
structure InstanceRow where
  id     : StrategyId
  userId : Int

/-- The tables, and the strategies that are running. -/
structure Tables where
  traders   : List Trader
  instances : List InstanceRow
  running   : List StrategyId

/-- The step `i` runs `collect_everything_from_staled_agents` on `x`: it is the first
    event, or the handler asks for `sweeping`. -/
inductive Sweeps (v : VolumeStrategy) : Input → VolumeStrategy → Env → Prop where
  | start {e : BotEvent} {initEnv env : Env} (hinit : v.initialized = false)
      (he : VolumeStrategy.isProcessed e = true) :
      Sweeps v (.event e initEnv env) v initEnv
  | reenter {e : BotEvent} {initEnv env : Env} {w : VolumeStrategy}
      (hinit : v.initialized = true) (he : VolumeStrategy.isProcessed e = true)
      (hd : (v.spawn e).dispatch e env.now = (w, .transition .sweeping)) :
      Sweeps v (.event e initEnv env) { w.exit.1 with state := .sweeping } env

/-- The agents that are told to `Collect`. -/
def VolumeStrategy.swept (x : VolumeStrategy) (env : Env) : List Agent :=
  (x.loadStaledAgents env).current

/-- The owner is an instance of the same user, and not another running strategy. -/
def MaySweep (db : Tables) (inst : VolumeInstance) (owner : Option StrategyId) : Prop :=
  ∃ id, owner = some id ∧ (∃ row ∈ db.instances, row.id = id ∧ row.userId = inst.userId) ∧
    (id ∈ db.running → id = inst.id)

/-- All agents told to collect may be swept, and nobody else's funds are moved. -/
structure Isolated (db : Tables) (inst : VolumeInstance) (x : VolumeStrategy) (env : Env) :
    Prop where
  told  : ∀ a ∈ x.swept env, MaySweep db inst a.storage.strategyIdOpt
  moved : ∀ x' out, x.collectEverythingFromStaledAgents env = some (x', out) →
    ∀ action ∈ queuedActions out, ∃ a ∈ x.swept env,
      action.sniper = a.storage.agentKey ∧ MaySweep db inst a.storage.strategyIdOpt

/-- The trader is not the main wallet, its balance is known, it has SOL or tokens worth
    taking, and its key can be read. -/
def WorthSweeping (inst : VolumeInstance) (wallet : Pubkey) (env : Env) (t : Trader) :
    Prop :=
  t.wallet ≠ wallet ∧ (∃ sol, env.solBalance t.wallet = some sol ∧
    (newAccountThresholdSol ≤ sol ∨
      asU64 inst.agentsKeepTokensLamports ≤ (env.tokenBalance t.wallet).getD 0)) ∧
  ∃ key, env.newFromPrivkey t.privateKey = some key

-- ── Outside `sweeping`, the agents are the strategy's own ───────────────────

/-- What holds in every state of a strategy that began as
    `VolumeStrategy.new inst pool key now`. -/
structure Owned (inst : VolumeInstance) (key : Keypair) (v : VolumeStrategy) : Prop where
  instEq  : v.inst = inst
  keyEq   : v.mainWallet.storage.agentKey = key
  initial : v.initialized = false → v.state = .sweeping ∧ v.agents = []
  own     : v.state ≠ .sweeping → ∀ r ∈ v.agents, OwnedBy inst.id v.heap r

theorem OwnedBy.mono {id : StrategyId} {heap heap' : List Agent} {r : AgentRef}
    (h : OwnedBy id heap r) (hpre : identities heap <+: identities heap') :
    OwnedBy id heap' r := by
  obtain ⟨key, hget⟩ := h
  obtain ⟨rest, hrest⟩ := hpre
  obtain ⟨hlt, -⟩ := List.getElem?_eq_some_iff.mp hget
  refine ⟨key, ?_⟩
  rw [← hrest, List.getElem?_append_left hlt, hget]

/-- What a state leaves behind belongs to the strategy: `sweeping` leaves nothing. -/
theorem Owned.leaves {inst : VolumeInstance} {key : Keypair} {v : VolumeStrategy}
    (hI : Owned inst key v) : ∀ r ∈ v.leaves, OwnedBy inst.id v.heap r := by
  intro r hr
  rw [VolumeStrategy.leaves] at hr
  split at hr
  · cases hr
  · next hclears =>
      refine hI.own ?_ r hr
      intro hs
      rw [hs] at hclears
      exact hclears rfl

/-- So does what the next state has, unless that is `sweeping`. -/
theorem owned_entered {id : StrategyId} {agents : List AgentRef} {heap : List Agent}
    {v' : VolumeStrategy} {s : State} (hagents : ∀ r ∈ agents, OwnedBy id heap r)
    (hpre : identities heap <+: identities v'.heap)
    (hent : Entered agents heap id v' s) (hs : s ≠ .sweeping) :
    ∀ r ∈ v'.agents, OwnedBy id v'.heap r := by
  cases hent with
  | kept _ ha _ =>
      rw [ha]
      intro r hr
      exact (hagents r hr).mono hpre
  | loaded => exact absurd rfl hs
  | funded ha hown =>
      rw [ha]
      intro r hr
      rcases List.mem_append.mp hr with hr | hr
      · exact (hagents r hr).mono hpre
      · exact hown r hr
  | supplied ha hown =>
      rw [ha]
      exact hown

theorem owned_handled {inst : VolumeInstance} {key : Keypair} {v v' : VolumeStrategy}
    (hI : Owned inst key v) (hkeeps : Keeps v v') (hinit : v'.initialized = true)
    (h : Handled v v') : Owned inst key v' := by
  refine ⟨hkeeps.inst.trans hI.instEq, (congrArg Prod.fst hkeeps.wallet).trans hI.keyEq, ?_, ?_⟩
  · intro hfalse
    rw [hinit] at hfalse
    cases hfalse
  · intro hne
    cases h with
    | stays hstate hagents hheap =>
        rw [hagents, hheap]
        exact hI.own (fun h => hne (hstate.trans h))
    | moves _ hent =>
        rw [hI.instEq] at hent
        exact owned_entered hI.leaves hkeeps.heap hent hne

theorem owned_step {inst : VolumeInstance} {key : Keypair} {v v' : VolumeStrategy}
    {i : Input} {out : List Effect} (hI : Owned inst key v)
    (h : volume v i = some (v', out)) : Owned inst key v' := by
  obtain ⟨hkeeps, hout⟩ := step_cases h
  cases hout with
  | quiet hinit hstate hagents =>
      refine ⟨hkeeps.inst.trans hI.instEq, (congrArg Prod.fst hkeeps.wallet).trans hI.keyEq,
        ?_, ?_⟩
      · rw [hinit, hstate, hagents]
        exact hI.initial
      · rw [hstate, hagents]
        intro hne r hr
        exact (hI.own hne r hr).mono hkeeps.heap
  | handled _ _ hinit' hh => exact owned_handled hI hkeeps hinit' hh
  | started _ hinit hinit' hinit₁ hstate hkeeps₁ hkeeps' _ hh =>
      have hs₁ := hstate.trans (hI.initial hinit).1
      refine owned_handled ⟨hkeeps₁.inst.trans hI.instEq,
        (congrArg Prod.fst hkeeps₁.wallet).trans hI.keyEq, ?_, fun h => absurd hs₁ h⟩
        hkeeps' hinit' hh
      intro hfalse
      rw [hinit₁] at hfalse
      cases hfalse

theorem owned_reach {inst : VolumeInstance} {pool : RaydiumPool} {key : Keypair}
    {now : Instant} {v : VolumeStrategy}
    (h : Reach volume Always (VolumeStrategy.new inst pool key now) v) : Owned inst key v := by
  refine h.invariant ⟨rfl, rfl, fun _ => ⟨rfl, rfl⟩, ?_⟩ ?_
  · intro hne
    exact absurd rfl hne
  · intro s i s' out hI _ hs
    exact owned_step hI hs

-- ── What a sweep takes ──────────────────────────────────────────────────────

/-- A sweep starts with agents of the strategy. -/
theorem sweeps_owned {inst : VolumeInstance} {key : Keypair} {v x : VolumeStrategy}
    {i : Input} {env : Env} (hI : Owned inst key v) (h : Sweeps v i x env) :
    x.inst = inst ∧ x.mainWallet.storage.agentKey = key ∧
      ∀ r ∈ x.agents, OwnedBy inst.id x.heap r := by
  cases h with
  | start hinit _ =>
      refine ⟨hI.instEq, hI.keyEq, ?_⟩
      rw [(hI.initial hinit).2]
      intro r hr
      cases hr
  | reenter _ _ hd =>
      obtain ⟨sw, hsw⟩ := VolumeStrategy.dispatch_timer (v.spawn _) _ env.now
      rw [hd] at hsw
      obtain rfl := hsw
      rw [VolumeStrategy.exit_eq]
      exact ⟨hI.instEq, hI.keyEq, hI.leaves⟩

/-- The agents named by new references are the new agents. -/
theorem mem_current_append {heap new : List Agent} {a : Agent} :
    a ∈ (newRefs heap.length new.length).filterMap (fun r => (heap ++ new)[r]?) ↔ a ∈ new := by
  rw [List.mem_filterMap]
  constructor
  · rintro ⟨r, hr, hget⟩
    rw [newRefs, List.mem_range'_1] at hr
    rw [List.getElem?_append_right hr.1] at hget
    exact List.mem_of_getElem? hget
  · intro ha
    obtain ⟨k, hk, rfl⟩ := List.mem_iff_getElem.mp ha
    refine ⟨heap.length + k, ?_, ?_⟩
    · rw [newRefs, List.mem_range'_1]
      omega
    · rw [List.getElem?_append_right (Nat.le_add_right _ _), Nat.add_sub_cancel_left,
        List.getElem?_eq_getElem hk]

/-- If the query fails, the sweep takes from the agents in the list. -/
theorem swept_of_none {x : VolumeStrategy} {env : Env} (h : env.traders = none) :
    x.swept env = x.current := by
  rw [VolumeStrategy.swept, VolumeStrategy.loadStaledAgents, h]

/-- Otherwise from the traders it loads. -/
theorem mem_swept_of_some {x : VolumeStrategy} {env : Env} {traders : List Trader} {a : Agent}
    (h : env.traders = some traders) :
    a ∈ x.swept env ↔ a ∈ x.loadedAgents env traders := by
  rw [VolumeStrategy.swept, VolumeStrategy.loadStaledAgents, h]
  exact mem_current_append

/-- Which trader becomes an agent. -/
theorem agentOfTrader_eq_some {x : VolumeStrategy} {env : Env} {t : Trader} {a : Agent}
    (h : x.agentOfTrader env t = some a) :
    (∃ sol, env.solBalance t.wallet = some sol ∧ (newAccountThresholdSol ≤ sol ∨
      x.tokensToKeep ≤ (env.tokenBalance t.wallet).getD 0)) ∧
    (∃ key, env.newFromPrivkey t.privateKey = some key) ∧
    a.storage.strategyIdOpt = t.strategyInstanceId := by
  rw [VolumeStrategy.agentOfTrader] at h
  cases hsol : env.solBalance t.wallet with
  | none => rw [hsol] at h; cases h
  | some sol =>
      simp only [hsol] at h
      split at h
      · cases h
      · next hlow =>
          obtain ⟨key, hkey, rfl⟩ := Option.map_eq_some_iff.mp h
          refine ⟨⟨sol, rfl, ?_⟩, ⟨key, hkey⟩, rfl⟩
          rw [Decidable.not_and_iff_not_or_not, UInt64.not_lt, UInt64.not_lt] at hlow
          exact hlow

theorem agentOfTrader_of_worth {x : VolumeStrategy} {env : Env} {t : Trader}
    {wallet : Pubkey} (h : WorthSweeping x.inst wallet env t) :
    ∃ a, x.agentOfTrader env t = some a ∧ a.storage.strategyIdOpt = t.strategyInstanceId := by
  obtain ⟨-, ⟨sol, hsol, hworth⟩, key, hkey⟩ := h
  rw [VolumeStrategy.agentOfTrader]
  simp only [hsol]
  rw [if_neg, hkey]
  · exact ⟨_, rfl, rfl⟩
  · rw [Decidable.not_and_iff_not_or_not, UInt64.not_lt, UInt64.not_lt]
    exact hworth

/-- **THE OWNERS OF WHAT IS LOADED** are the owners of the traders worth sweeping. -/
theorem mem_loadedAgents_owner {x : VolumeStrategy} {env : Env} {traders : List Trader}
    {owner : Option StrategyId} :
    (∃ a ∈ x.loadedAgents env traders, a.storage.strategyIdOpt = owner) ↔
      ∃ t ∈ traders, WorthSweeping x.inst x.mainWallet.storage.pubkey env t ∧
        t.strategyInstanceId = owner := by
  constructor
  · rintro ⟨a, ha, rfl⟩
    obtain ⟨t, ht, hagent⟩ := List.mem_filterMap.mp ha
    obtain ⟨hmem, hne⟩ := List.mem_filter.mp ht
    obtain ⟨hbal, hkey, howner⟩ := agentOfTrader_eq_some hagent
    exact ⟨t, hmem, ⟨by simpa using hne, hbal, hkey⟩, howner.symm⟩
  · rintro ⟨t, hmem, hworth, rfl⟩
    obtain ⟨a, hagent, howner⟩ := agentOfTrader_of_worth hworth
    refine ⟨a, List.mem_filterMap.mpr ⟨t, List.mem_filter.mpr ⟨hmem, ?_⟩, hagent⟩, howner⟩
    simpa using hworth.1

/-- The actions a sweep queues are signed by the agents it tells. -/
theorem moved_by_swept {x x' : VolumeStrategy} {env : Env} {out : List Effect}
    (h : x.collectEverythingFromStaledAgents env = some (x', out)) :
    ∀ action ∈ queuedActions out, ∃ a ∈ x.swept env, action.sniper = a.storage.agentKey := by
  intro action hmem
  obtain ⟨p, hc, heq⟩ := Option.map_eq_some_iff.mp h
  obtain ⟨-, rfl⟩ := Prod.mk.inj heq
  obtain ⟨r, hr, q, hq, hsig⟩ := (commandAll_identities hc).2 action hmem
  rw [List.getElem?_map] at hq
  obtain ⟨a, ha, rfl⟩ := Option.map_eq_some_iff.mp hq
  exact ⟨a, List.mem_filterMap.mpr ⟨r, hr, ha⟩, hsig⟩

/-- A sweep is isolated as soon as the agents it tells may be swept. -/
theorem isolated_iff_told {db : Tables} {inst : VolumeInstance} {x : VolumeStrategy}
    {env : Env} :
    Isolated db inst x env ↔ ∀ a ∈ x.swept env, MaySweep db inst a.storage.strategyIdOpt := by
  constructor
  · exact fun h => h.told
  · intro h
    refine ⟨h, ?_⟩
    intro x' out hcollect action hmem
    obtain ⟨a, ha, hsig⟩ := moved_by_swept hcollect action hmem
    exact ⟨a, ha, hsig, h a ha⟩

/-- **A SWEEP IS ISOLATED EXACTLY WHEN THE TABLE IS.**  In any run, a sweep tells only
    traders of its own user, and none of another running strategy, if and only if every
    trader of the table that is worth sweeping is such a trader.  If the query fails, no
    trader of another strategy is told. -/
theorem sweep_isolated_iff {inst : VolumeInstance} {pool : RaydiumPool} {key : Keypair}
    {now : Instant} {v x : VolumeStrategy} {i : Input} {env : Env} {db : Tables}
    (hreach : Reach volume Always (VolumeStrategy.new inst pool key now) v)
    (hsweep : Sweeps v i x env)
    (hquery : env.traders = none ∨ env.traders = some db.traders)
    (hrow : ∃ row ∈ db.instances, row.id = inst.id ∧ row.userId = inst.userId) :
    Isolated db inst x env ↔ (env.traders = some db.traders → ∀ t ∈ db.traders,
      WorthSweeping inst key.pubkey env t → MaySweep db inst t.strategyInstanceId) := by
  obtain ⟨hinst, hkey, hown⟩ := sweeps_owned (owned_reach hreach) hsweep
  rw [isolated_iff_told]
  rcases hquery with hnone | hsome
  · refine iff_of_true ?_ ?_
    · rw [swept_of_none hnone]
      intro a ha
      obtain ⟨r, hr, hget⟩ := List.mem_filterMap.mp ha
      obtain ⟨k, hid⟩ := hown r hr
      rw [List.getElem?_map, hget] at hid
      have howner : a.storage.strategyIdOpt = some inst.id :=
        congrArg Prod.snd (Option.some.inj hid)
      exact ⟨inst.id, howner, hrow, fun _ => rfl⟩
    · intro hq
      rw [hnone] at hq
      cases hq
  · have howners : ∀ owner, (∃ a ∈ x.loadedAgents env db.traders,
        a.storage.strategyIdOpt = owner) ↔ ∃ t ∈ db.traders,
          WorthSweeping inst key.pubkey env t ∧ t.strategyInstanceId = owner := by
      intro owner
      rw [mem_loadedAgents_owner, hinst, AgentState.pubkey, hkey]
    constructor
    · intro h _ t ht hworth
      obtain ⟨a, ha, howner⟩ := (howners _).mpr ⟨t, ht, hworth, rfl⟩
      rw [← howner]
      exact h a ((mem_swept_of_some hsome).mpr ha)
    · intro h a ha
      obtain ⟨t, ht, hworth, howner⟩ :=
        (howners _).mp ⟨a, (mem_swept_of_some hsome).mp ha, rfl⟩
      rw [← howner]
      exact h hsome t ht hworth

/-- A trader with one SOL, created for a strategy. -/
def richTrader (owner : StrategyId) : Trader :=
  ⟨7, some owner, ⟨9⟩, "a key", true⟩

/-- Two users, one running strategy each, and a trader of one of them. -/
def twoUsers (owner : StrategyId) : Tables :=
  ⟨[richTrader owner], [⟨1, 1⟩, ⟨2, 2⟩], [1, 2]⟩

/-- The query succeeds, and every key can be read. -/
def tableEnv (owner : StrategyId) : Env :=
  { fineEnv 1 with
    traders := some (twoUsers owner).traders
    newFromPrivkey := fun _ => some ⟨⟨9⟩, 9⟩ }

/-- The first event of the first user's strategy. -/
def firstBeat (owner : StrategyId) : Input :=
  .event (.heartBeat tick 1) (tableEnv owner) (fineEnv 1)

theorem firstBeat_sweeps (owner : StrategyId) :
    Sweeps smallVolume.1 (firstBeat owner) smallVolume.1 (tableEnv owner) :=
  .start rfl rfl

theorem richTrader_worth (owner : StrategyId) :
    WorthSweeping smallVolume.1.inst ⟨1⟩ (tableEnv owner) (richTrader owner) := by
  refine ⟨?_, ⟨1000000000, rfl, Or.inl (by decide)⟩, _, rfl⟩
  show (⟨9⟩ : Pubkey) ≠ ⟨1⟩
  decide

/-- With traders of its own only, the sweep is isolated. -/
theorem own_trader_is_swept :
    Isolated (twoUsers 1) smallVolume.1.inst smallVolume.1 (tableEnv 1) := by
  have hreach : Reach volume Always
      (VolumeStrategy.new smallVolume.1.inst default ⟨⟨1⟩, 1⟩ 0) smallVolume.1 := Reach.init
  refine (sweep_isolated_iff hreach (firstBeat_sweeps 1) (Or.inr rfl)
    ⟨⟨1, 1⟩, List.mem_cons_self, rfl, rfl⟩).mpr ?_
  intro _ t ht _
  rw [List.mem_singleton.mp ht]
  exact ⟨1, rfl, ⟨⟨1, 1⟩, List.mem_cons_self, rfl, rfl⟩, fun _ => rfl⟩

/-- **ONE USER'S STRATEGY EMPTIES ANOTHER USER'S TRADER.** -/
theorem other_users_trader_is_swept :
    ¬ ∀ (db : Tables) (v x : VolumeStrategy) (i : Input) (env : Env),
      Reach volume Always smallVolume.1 v → Sweeps v i x env →
      env.traders = some db.traders →
      (∃ row ∈ db.instances, row.id = smallVolume.1.inst.id ∧
        row.userId = smallVolume.1.inst.userId) →
      Isolated db smallVolume.1.inst x env := by
  intro hclaim
  have hiso := hclaim (twoUsers 2) _ _ _ _ Reach.init (firstBeat_sweeps 2) rfl
    ⟨⟨1, 1⟩, List.mem_cons_self, rfl, rfl⟩
  obtain ⟨a, ha, howner⟩ := mem_loadedAgents_owner.mpr
    ⟨richTrader 2, List.mem_singleton.mpr rfl, richTrader_worth 2, rfl⟩
  obtain ⟨id, hid, ⟨row, hrow, hrid, huser⟩, -⟩ :=
    hiso.told a ((mem_swept_of_some rfl).mpr ha)
  rw [howner] at hid
  obtain rfl : 2 = id := Option.some.inj hid
  simp only [twoUsers, List.mem_cons, List.not_mem_nil, or_false] at hrow
  rcases hrow with rfl | rfl
  · exact absurd hrid (by decide)
  · exact absurd huser (by decide)

end FoxfireVolume
