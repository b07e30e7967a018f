import FoxfireSniper.BuyOrSellProofs

/-! # The funds of a strategy stay with its wallets

    The strategy moves money between its main wallet and many short-lived agents, through
    transfers whose receivers are computed far from the place where the action is queued:
    the batches of `fund` and `transferring_token_to_sellers` name agents that have just
    been created, and `collecting_tokens` names the main wallet.  Between the two, tasks
    deliver events to the same agents, and a retry queues a batch again long after its
    command was given.

    * **`Sealed.handle`**: an agent whose command stays among some wallets queues actions
      that stay among them, whatever else happens to it.
    * **`Closed.step`**: every lock of the handler keeps all members sealed; commands and
      new agents name wallets of the strategy only.
    * **`funds_stay`**: so in every run, under any interleaving, every action is signed and
      paid for by a wallet of the strategy, trades in its own pool, and sends nothing but
      SOL and the pool's token, to a wallet of the strategy. -/

namespace FoxfireVolume

open FoxfireTypes FoxfireAttempt FoxfireAgent FoxfireFunding MachineRun

-- ── What stays where ────────────────────────────────────────────────────────

/-- A transfer to one of the wallets, of SOL or of the token that the pool trades. -/
structure Inside (wallets : List Keypair) (pool : RaydiumPool)
    (t : SolanaTransferActionPayload) : Prop where
  receiver : ∃ w ∈ wallets, w.pubkey = t.receiver
  asset    : t.asset = .sol ∨ t.asset = .token pool.baseMint

/-- A transfer to one of the wallets, or a trade in the pool. -/
def PayloadInside (wallets : List Keypair) (pool : RaydiumPool) : SolanaActionPayload → Prop
  | .swap s     => s.keys = pool.toLiquidityKeys
  | .transfer t => Inside wallets pool t

/-- The action moves funds of the wallets, and between them only. -/
structure InCustody (wallets : List Keypair) (pool : RaydiumPool) (action : SolanaAction) :
    Prop where
  sniper   : action.sniper ∈ wallets
  feePayer : action.feePayer ∈ wallets
  payload  : ∀ p ∈ action.actionPayload, PayloadInside wallets pool p

/-- An agent of the pool that knows no wallet but these. -/
structure Sealed (wallets : List Keypair) (pool : RaydiumPool) (a : Agent) : Prop where
  samePool   : a.storage.pool = pool
  key        : a.storage.agentKey ∈ wallets
  mainWallet : ∀ w, a.storage.mainWallet = some w → w ∈ wallets
  batch      : ∀ b r, a.state = .transferring b r → ∀ t ∈ b, Inside wallets pool t

variable {wallets wallets' : List Keypair} {pool : RaydiumPool}

theorem Inside.mono {t : SolanaTransferActionPayload} (h : Inside wallets pool t)
    (hsub : wallets ⊆ wallets') : Inside wallets' pool t := by
  obtain ⟨w, hw, heq⟩ := h.receiver
  exact ⟨⟨w, hsub hw, heq⟩, h.asset⟩

theorem InCustody.mono {action : SolanaAction} (h : InCustody wallets pool action)
    (hsub : wallets ⊆ wallets') : InCustody wallets' pool action := by
  refine ⟨hsub h.sniper, hsub h.feePayer, ?_⟩
  intro p hp
  have hin := h.payload p hp
  cases p with
  | swap s => exact hin
  | transfer t => exact Inside.mono hin hsub

theorem Sealed.mono {a : Agent} (h : Sealed wallets pool a) (hsub : wallets ⊆ wallets') :
    Sealed wallets' pool a :=
  ⟨h.samePool, hsub h.key, fun w hw => hsub (h.mainWallet w hw),
    fun b r hs t ht => (h.batch b r hs t ht).mono hsub⟩

-- ── One agent ───────────────────────────────────────────────────────────────

theorem retried_transferring {s : FoxfireAgent.State} {b : List SolanaTransferActionPayload}
    {r : Nat} (h : s.retried = .transferring b r) : ∃ r', s = .transferring b r' := by
  cases s with
  | transferring b' r' =>
      cases h
      exact ⟨r', rfl⟩
  | collecting _ => cases h
  | buying _ _ => cases h
  | selling _ _ => cases h
  | deactivating _ => cases h
  | idle => cases h
  | success => cases h
  | error _ => cases h
  | deactivated => cases h

theorem retryOrError_transferring {s : FoxfireAgent.State}
    {b : List SolanaTransferActionPayload} {n r : Nat} {msg : ErrorMsg}
    (h : retryOrError n s.retried .error msg = .transition (.transferring b r)) :
    ∃ r', s = .transferring b r' := by
  rw [retryOrError] at h
  split at h
  · exact retried_transferring (Response.transition.inj h)
  · cases h

theorem await_transferring {a : AgentState} {i : FoxfireAgent.Input}
    {b : List SolanaTransferActionPayload} {r : Nat}
    (h : (a.awaitCommand i).2 = .transition (.transferring b r)) :
    i.event = .forAgent (.transfer b) := by
  rcases await_leads h with ⟨-, ht⟩ | hc
  · cases ht
  · rcases commanded_cases hc with ⟨b', hev, ht⟩ | ⟨-, ht⟩ | ⟨_, -, ht⟩ | ⟨_, -, ht⟩
    · cases ht
      exact hev
    · cases ht
    · cases ht
    · cases ht

theorem deactivating_transferring {a : AgentState} {i : FoxfireAgent.Input} {n r : Nat}
    {b : List SolanaTransferActionPayload} :
    (a.deactivating i n).2 ≠ .transition (.transferring b r) := by
  intro h
  rw [AgentState.deactivating] at h
  split at h
  · split at h
    · cases h
    · cases h
    · obtain ⟨r', hs⟩ := retryOrError_transferring (s := .deactivating n) h
      cases hs
  · split at h
    · dsimp only at h
      split at h
      · cases h
      · cases h
    · cases h
  · cases h

/-- A batch is transferred because it was being transferred, or because of the command. -/
theorem transferring_target {m : Agent} {i : FoxfireAgent.Input}
    {b : List SolanaTransferActionPayload} {r : Nat}
    (h : (m.dispatch i).2 = .transition (.transferring b r)) :
    (∃ r', m.state = .transferring b r') ∨ i.event = .forAgent (.transfer b) := by
  cases hw : m.state.working with
  | true =>
      obtain ⟨n, hr⟩ := retry_of_working hw
      rw [dispatch_working hw hr] at h
      cases attempt_leads h with
      | deactivates _ ht =>
          rcases ht with ht | ht
          · cases ht
          · cases ht
      | succeeds ht => cases ht
      | retries heq => exact Or.inl (retryOrError_transferring heq)
  | false =>
      rw [Agent.dispatch] at h
      rcases not_working_cases hw with (hs | hs) | ⟨msg, hs⟩ | ⟨n, hs⟩ | hs
      · rw [hs] at h
        exact Or.inr (await_transferring h)
      · rw [hs] at h
        exact Or.inr (await_transferring h)
      · rw [hs] at h
        dsimp only at h
        split at h
        · cases h
        · cases h
      · rw [hs] at h
        exact absurd h deactivating_transferring
      · rw [hs] at h
        cases h

/-- The transfers that an event orders stay among the wallets. -/
def Contained (wallets : List Keypair) (pool : RaydiumPool) (event : SolanaStrategyEvent) :
    Prop :=
  ∀ b, event = .forAgent (.transfer b) → ∀ t ∈ b, Inside wallets pool t

/-- What entering a state queues stays among the wallets, if the batch does. -/
theorem enter_custody {a a' : AgentState} {i : FoxfireAgent.Input} {s : FoxfireAgent.State}
    {out : List Effect} (ha : Sealed wallets pool ⟨s, a⟩) (h : a.enter i s = some (a', out)) :
    ∀ action ∈ queuedActions out, InCustody wallets pool action := by
  have hcollect : a.collect i = some (a', out) →
      ∀ action ∈ queuedActions out, InCustody wallets pool action := by
    intro hc action hmem
    rw [AgentState.collect] at hc
    obtain ⟨w, hw, heq⟩ := Option.map_eq_some_iff.mp hc
    obtain ⟨-, rfl⟩ := Prod.mk.inj heq
    rw [List.mem_singleton.mp hmem]
    have hwallet : w ∈ wallets := ha.mainWallet w hw
    refine ⟨ha.key, hwallet, ?_⟩
    intro p hp
    rcases List.mem_append.mp hp with hp | hp
    · split at hp
      · rw [List.mem_singleton.mp hp]
        refine ⟨⟨w, hwallet, rfl⟩, Or.inr ?_⟩
        rw [← ha.samePool]
      · cases hp
    · rw [List.mem_singleton.mp hp]
      exact ⟨⟨w, hwallet, rfl⟩, Or.inl rfl⟩
  have hswap : ∀ {method : SwapMethod} {amt : Amount} {action : SolanaAction},
      action = SolanaAction.new i.uuid i.queuedAt a.agentKey
        [.swap ⟨a.pool.toLiquidityKeys, method, amt, 0⟩] → InCustody wallets pool action := by
    rintro method amt action rfl
    refine ⟨ha.key, ha.key, ?_⟩
    intro p hp
    rw [List.mem_singleton.mp hp, ← ha.samePool]
    rfl
  cases hr : s.retry with
  | none =>
      obtain ⟨-, hout⟩ := enter_quiet hr h
      rw [hout]
      intro action hmem
      cases hmem
  | some r =>
      cases s with
      | collecting _ => exact hcollect h
      | deactivating _ => exact hcollect h
      | transferring batch _ =>
          obtain ⟨-, rfl⟩ := Prod.mk.inj (Option.some.inj h)
          intro action hmem
          rw [List.mem_singleton.mp hmem]
          refine ⟨ha.key, ?_, ?_⟩
          · show (if _ then _ else _ : Keypair) ∈ wallets
            split
            · show a.mainWallet.getD a.agentKey ∈ wallets
              cases hw : a.mainWallet with
              | none => exact ha.key
              | some w => exact ha.mainWallet w hw
            · exact ha.key
          · intro p hp
            obtain ⟨t, ht, rfl⟩ := List.mem_map.mp hp
            exact ha.batch batch _ rfl t ht
      | buying _ _ =>
          obtain ⟨-, rfl⟩ := Prod.mk.inj (Option.some.inj h)
          intro action hmem
          exact hswap (List.mem_singleton.mp hmem)
      | selling _ _ =>
          obtain ⟨-, rfl⟩ := Prod.mk.inj (Option.some.inj h)
          intro action hmem
          exact hswap (List.mem_singleton.mp hmem)
      | idle => cases hr
      | success => cases hr
      | error _ => cases hr
      | deactivated => cases hr

/-- **ONE EVENT OF AN AGENT**: it stays sealed, and what it queues stays among the
    wallets. -/
theorem Sealed.handle {m m' : Agent} {i : FoxfireAgent.Input} {out : List Effect}
    (hm : Sealed wallets pool m) (hev : Contained wallets pool i.event)
    (h : FoxfireAgent.handle m i = some (m', out)) :
    Sealed wallets pool m' ∧ ∀ action ∈ queuedActions out, InCustody wallets pool action := by
  obtain ⟨t, ht⟩ := dispatch_storage m i
  -- the tracker is not part of the seal
  have hseal : ∀ {s : FoxfireAgent.State} {t : ActionTracker},
      (∀ b r, s = .transferring b r → ∀ x ∈ b, Inside wallets pool x) →
      Sealed wallets pool ⟨s, { m.storage with tracker := t }⟩ :=
    fun hb => ⟨hm.samePool, hm.key, hm.mainWallet, hb⟩
  cases hd : m.dispatch i with
  | mk a resp =>
      obtain rfl : a = { m.storage with tracker := t } := (congrArg Prod.fst hd).symm.trans ht
      cases resp with
      | transition target =>
          obtain ⟨hs, he⟩ := handle_transition hd h
          have hbatch : ∀ b r, target = .transferring b r → ∀ x ∈ b, Inside wallets pool x := by
            rintro b r rfl
            rcases transferring_target (congrArg Prod.snd hd) with ⟨r', hm'⟩ | hev'
            · exact hm.batch b r' hm'
            · exact hev b hev'
          obtain ⟨⟨t', hst⟩, -⟩ := enter_storage he
          refine ⟨?_, enter_custody (hseal hbatch) he⟩
          have hm' : m' = ⟨target, { m.storage with tracker := t' }⟩ := by
            rw [← hs, ← hst]
          rw [hm']
          exact hseal hbatch
      | handled =>
          obtain ⟨rfl, rfl⟩ := handle_stay hd (Or.inr rfl) h
          exact ⟨hseal hm.batch, fun action hmem => by cases hmem⟩
      | super =>
          obtain ⟨rfl, rfl⟩ := handle_stay hd (Or.inl rfl) h
          exact ⟨hseal hm.batch, fun action hmem => by cases hmem⟩

-- ── The wallets of a strategy ───────────────────────────────────────────────

/-- The keys of the main wallet and of every agent the strategy has created or loaded. -/
def VolumeStrategy.ownedKeys (v : VolumeStrategy) : List Keypair :=
  v.mainWallet.storage.agentKey :: v.heap.map fun a => a.storage.agentKey

theorem ownedKeys_eq (v : VolumeStrategy) :
    v.ownedKeys = (identity v.mainWallet).1 :: (identities v.heap).map Prod.fst := by
  rw [VolumeStrategy.ownedKeys, identities, List.map_map]
  rfl

theorem ownedKeys_mono {v v' : VolumeStrategy} (hw : identity v'.mainWallet = identity v.mainWallet)
    (hheap : identities v.heap <+: identities v'.heap) : v.ownedKeys ⊆ v'.ownedKeys := by
  rw [ownedKeys_eq, ownedKeys_eq, hw]
  exact List.cons_subset_cons _ (hheap.map Prod.fst).subset

theorem Same.ownedKeys {v v' : VolumeStrategy} (h : Same v v') : v'.ownedKeys = v.ownedKeys := by
  rw [VolumeStrategy.ownedKeys, VolumeStrategy.ownedKeys, h.wallet, h.heap]

theorem setMember_ownedKeys {v : VolumeStrategy} {who : Member} {a a' : Agent}
    (ha : v.member who = some a) (hid : identity a' = identity a) :
    (v.setMember a' who).ownedKeys = v.ownedKeys := by
  rw [ownedKeys_eq, ownedKeys_eq]
  cases who with
  | none =>
      obtain rfl := Option.some.inj ha
      rw [← hid]
      rfl
  | some r =>
      show (identity v.mainWallet).1 :: (identities (v.heap.set r a')).map Prod.fst = _
      rw [identities_set ha hid]

theorem member_wallet {v : VolumeStrategy} {who : Member} {a : Agent}
    (ha : v.member who = some a) : a.storage.agentKey ∈ v.ownedKeys := by
  cases who with
  | none =>
      obtain rfl := Option.some.inj ha
      exact List.mem_cons_self
  | some r => exact List.mem_cons_of_mem _ (List.mem_map.mpr ⟨a, List.mem_of_getElem? ha, rfl⟩)

-- ── What an entry action prepares ───────────────────────────────────────────

/-- An agent that the strategy creates, or loads from the table. -/
def FreshFor (v : VolumeStrategy) (a : Agent) : Prop :=
  ∃ key sid now, a = Agent.new v.pool key sid (some v.mainWallet.storage.agentKey) now

namespace VolumeStrategy

variable {v w : VolumeStrategy} {env : Env}

theorem loadStaledAgents_fresh (v : VolumeStrategy) (env : Env) :
    (v.loadStaledAgents env).pool = v.pool ∧
      ∃ new, (v.loadStaledAgents env).heap = v.heap ++ new ∧ ∀ a ∈ new, FreshFor v a := by
  rcases loadStaledAgents_cases v env with ⟨-, heq⟩ | ⟨traders, -, heq⟩
  · rw [heq]
    exact ⟨rfl, [], (List.append_nil _).symm, fun a ha => by cases ha⟩
  · rw [heq]
    refine ⟨rfl, _, rfl, ?_⟩
    intro a ha
    obtain ⟨t, -, ht⟩ := List.mem_filterMap.mp ha
    rw [agentOfTrader] at ht
    split at ht
    · cases ht
    · split at ht
      · cases ht
      · obtain ⟨key, -, rfl⟩ := Option.map_eq_some_iff.mp ht
        exact ⟨key, _, _, rfl⟩

/-- Preparing an entry action leaves the pool, and new agents are the strategy's own. -/
theorem prepare_fresh {s : State} {orders : List Order}
    (h : v.prepare env s = some (w, orders)) :
    w.pool = v.pool ∧ ∃ new, w.heap = v.heap ++ new ∧ ∀ a ∈ new, FreshFor v a := by
  have hkeeps : ∀ {u : VolumeStrategy} {os : List Order}, some (u, os) = some (w, orders) →
      u.pool = v.pool → u.heap = v.heap →
      w.pool = v.pool ∧ ∃ new, w.heap = v.heap ++ new ∧ ∀ a ∈ new, FreshFor v a := by
    intro u os heq hpool hheap
    obtain ⟨rfl, -⟩ := Prod.mk.inj (Option.some.inj heq)
    exact ⟨hpool, [], by rw [hheap, List.append_nil], fun a ha => by cases ha⟩
  cases s with
  | sweeping =>
      obtain ⟨rfl, -⟩ := Prod.mk.inj (Option.some.inj h)
      exact loadStaledAgents_fresh v env
  | fund =>
      obtain ⟨rfl, -⟩ := Prod.mk.inj (Option.some.inj h)
      refine ⟨rfl, _, rfl, ?_⟩
      intro a ha
      obtain ⟨p, -, rfl⟩ := List.mem_map.mp ha
      exact ⟨p.1, _, _, rfl⟩
  | transferringTokenToSellers =>
      rw [prepare] at h
      split at h
      · cases h
      · obtain ⟨rfl, -⟩ := Prod.mk.inj (Option.some.inj h)
        refine ⟨rfl, _, rfl, ?_⟩
        intro a ha
        obtain ⟨key, -, rfl⟩ := List.mem_map.mp ha
        exact ⟨key, _, _, rfl⟩
  | offloadingInventory => exact hkeeps h rfl rfl
  | buying => exact hkeeps h rfl rfl
  | collectingTokens => exact hkeeps h rfl rfl
  | selling => exact hkeeps h rfl rfl
  | collectingSol => exact hkeeps h rfl rfl
  | sleeping => exact hkeeps h rfl rfl
  | idle => exact hkeeps h rfl rfl
  | error _ => exact hkeeps h rfl rfl

end VolumeStrategy

/-- A command whose transfers stay among the wallets, for any agent of the pool. -/
def Order.Inside (wallets : List Keypair) (pool : RaydiumPool) (o : Order) : Prop :=
  ∀ a command, a.storage.pool = pool → o.choose a = some command →
    Contained wallets pool (.forAgent command)

/-- The funds of a strategy are with its wallets: every member knows these only. -/
structure AllSealed (pool : RaydiumPool) (v : VolumeStrategy) : Prop where
  samePool : v.pool = pool
  members  : ∀ who a, v.member who = some a → Sealed v.ownedKeys pool a
  forwards : Forwards v.tasks

theorem contained_of_ne {command : AgentEvent} (h : ∀ b, command ≠ .transfer b) :
    Contained wallets pool (.forAgent command) := by
  intro b heq
  cases heq
  exact absurd rfl (h b)

theorem mem_of_mem_chunks {α : Type} {n : Nat} {l piece : List α} {x : α}
    (hpiece : piece ∈ chunks n l) (hx : x ∈ piece) : x ∈ l := by
  obtain ⟨k, -, rfl⟩ := List.mem_map.mp hpiece
  exact List.mem_of_mem_drop (List.mem_of_mem_take hx)

/-- Batches for the main wallet stay where their transfers do. -/
theorem toWallet_inside {env : Env} {transfers : List SolanaTransferActionPayload}
    (h : ∀ t ∈ transfers, Inside wallets pool t) :
    ∀ o ∈ VolumeStrategy.toWallet env transfers, o.Inside wallets pool := by
  intro o ho a command _ hc b heq t ht
  obtain ⟨k, hk, rfl⟩ := List.mem_mapIdx.mp ho
  obtain rfl := Option.some.inj hc
  cases heq
  exact h t (mem_of_mem_chunks (List.getElem_mem hk) ht)

/-- Commands to the agents that order no transfer. -/
theorem toAgents_inside {v : VolumeStrategy} {env : Env} {choose : Agent → Option AgentEvent}
    (h : ∀ a command, choose a = some command → ∀ b, command ≠ .transfer b) :
    ∀ o ∈ v.toAgents env choose, o.Inside wallets pool := by
  intro o ho a command _ hc
  obtain ⟨r, -, rfl⟩ := List.mem_map.mp ho
  exact contained_of_ne (h a command hc)

namespace VolumeStrategy

variable {v w : VolumeStrategy} {env : Env}

/-- The transfers of `fund` go to the agents it creates. -/
theorem fundingTransfers_inside {t : SolanaTransferActionPayload}
    (hnew : ∀ p ∈ buyers v.funding env.tranche, p.1 ∈ wallets)
    (ht : t ∈ v.fundingTransfers env) : Inside wallets pool t := by
  obtain ⟨p, hp, rfl⟩ := List.mem_map.mp ht
  exact ⟨⟨p.1, hnew p hp, rfl⟩, Or.inl rfl⟩

/-- Those of `transferring_token_to_sellers` to its sellers. -/
theorem supplyTransfers_inside {t : SolanaTransferActionPayload}
    (hnew : ∀ a ∈ v.sellers env, a.storage.agentKey ∈ wallets)
    (ht : t ∈ v.supplyTransfers env) : Inside wallets v.pool t := by
  obtain ⟨batch, hbatch, ht⟩ := List.mem_flatten.mp ht
  obtain ⟨p, hp, rfl⟩ := List.mem_map.mp hbatch
  have hseller := hnew p.1 (List.of_mem_zip hp).1
  split at ht
  · rcases List.mem_cons.mp ht with rfl | ht
    · exact ⟨⟨_, hseller, rfl⟩, Or.inl rfl⟩
    · rw [List.mem_singleton.mp ht]
      exact ⟨⟨_, hseller, rfl⟩, Or.inr rfl⟩
  · cases ht

/-- The surplus of an agent goes to the main wallet. -/
theorem tokenCollection_inside {a : Agent} {command : AgentEvent} (hpool : a.storage.pool = pool)
    (h : v.tokenCollection env a = some command) :
    Contained v.ownedKeys pool (.forAgent command) := by
  intro b heq t ht
  cases heq
  by_cases hkeep : v.tokensToKeep = 0
  · simp only [tokenCollection, if_pos hkeep] at h
    split at h
    · cases h
    · cases h
  · simp only [tokenCollection, if_neg hkeep] at h
    split at h
    · cases h
      rw [List.mem_singleton.mp ht, ← hpool]
      exact ⟨⟨_, List.mem_cons_self, rfl⟩, Or.inr rfl⟩
    · cases h

/-- **EVERY COMMAND STAYS AMONG THE STRATEGY'S WALLETS.** -/
theorem prepare_inside {s : State} {orders : List Order}
    (h : v.prepare env s = some (w, orders)) :
    ∀ o ∈ orders, o.Inside w.ownedKeys v.pool := by
  have hnew : ∀ {new : List Agent}, w.heap = v.heap ++ new →
      ∀ a ∈ new, a.storage.agentKey ∈ w.ownedKeys := by
    intro new hheap a ha
    refine List.mem_cons_of_mem _ (List.mem_map.mpr ⟨a, ?_, rfl⟩)
    rw [hheap]
    exact List.mem_append_right _ ha
  -- a command without a transfer, the same for all
  have hconst : ∀ {u : VolumeStrategy} {command : AgentEvent},
      some (u, u.toAgents env fun _ => some command) = some (w, orders) →
      (∀ b, command ≠ .transfer b) → ∀ o ∈ orders, o.Inside w.ownedKeys v.pool := by
    intro u command heq hne
    obtain ⟨-, rfl⟩ := Prod.mk.inj (Option.some.inj heq)
    refine toAgents_inside ?_
    intro a c hc b
    rw [← Option.some.inj hc]
    exact hne b
  have hnone : ∀ {u : VolumeStrategy}, some (u, []) = some (w, orders) →
      ∀ o ∈ orders, o.Inside w.ownedKeys v.pool := by
    intro u heq o ho
    obtain ⟨-, rfl⟩ := Prod.mk.inj (Option.some.inj heq)
    cases ho
  cases s with
  | sweeping => exact hconst h (fun b heq => by cases heq)
  | offloadingInventory =>
      obtain ⟨-, rfl⟩ := Prod.mk.inj (Option.some.inj h)
      intro o ho a command _ hc
      rw [List.mem_singleton.mp ho] at hc
      rw [offloadCommand_eq_some hc]
      exact contained_of_ne (fun b heq => by cases heq)
  | fund =>
      obtain ⟨hw, rfl⟩ := Prod.mk.inj (Option.some.inj h)
      refine toWallet_inside fun t ht => fundingTransfers_inside ?_ ht
      intro p hp
      exact hnew (congrArg VolumeStrategy.heap hw).symm (v.funding.newAgent env.tranche p.1)
        (List.mem_map.mpr ⟨p, hp, rfl⟩)
  | buying => exact hconst h (fun b heq => by cases heq)
  | collectingTokens =>
      obtain ⟨rfl, rfl⟩ := Prod.mk.inj (Option.some.inj h)
      intro o ho a command hpool hc
      obtain ⟨r, -, rfl⟩ := List.mem_map.mp ho
      exact tokenCollection_inside hpool hc
  | transferringTokenToSellers =>
      rw [prepare] at h
      split at h
      · cases h
      · obtain ⟨hw, rfl⟩ := Prod.mk.inj (Option.some.inj h)
        exact toWallet_inside fun t ht =>
          supplyTransfers_inside (hnew (congrArg VolumeStrategy.heap hw).symm) ht
  | selling =>
      obtain ⟨rfl, rfl⟩ := Prod.mk.inj (Option.some.inj h)
      refine toAgents_inside ?_
      intro a command hc b heq
      rcases saleCommand_eq_some hc with hs | ⟨amt, hs⟩
      · cases hs.symm.trans heq
      · cases hs.symm.trans heq
  | collectingSol => exact hconst h (fun b heq => by cases heq)
  | sleeping => exact hnone h
  | idle => exact hnone h
  | error _ => exact hnone h

end VolumeStrategy

theorem prepare_ownedKeys {v w : VolumeStrategy} {env : Env} {s : State} {orders : List Order}
    (h : v.prepare env s = some (w, orders)) : v.ownedKeys ⊆ w.ownedKeys := by
  obtain ⟨-, new, hheap, -⟩ := VolumeStrategy.prepare_fresh h
  refine ownedKeys_mono (congrArg identity (VolumeStrategy.prepare_prepared h).wallet) ?_
  rw [hheap]
  exact (List.prefix_append v.heap new).map identity

/-- Preparing an entry action keeps all members sealed. -/
theorem AllSealed.prepare {v w : VolumeStrategy} {env : Env} {s : State} {orders : List Order}
    (hv : AllSealed pool v) (h : v.prepare env s = some (w, orders)) :
    AllSealed pool w := by
  have hprep := VolumeStrategy.prepare_prepared h
  obtain ⟨hpool, new, hheap, hfresh⟩ := VolumeStrategy.prepare_fresh h
  have hmono : v.ownedKeys ⊆ w.ownedKeys := prepare_ownedKeys h
  refine ⟨hpool.trans hv.samePool, ?_, ?_⟩
  · intro who a ha
    cases who with
    | none =>
        refine (hv.members none a ?_).mono hmono
        rw [← ha]
        exact (congrArg some hprep.wallet).symm
    | some r =>
        have hget : (v.heap ++ new)[r]? = some a := by
          rw [← hheap]
          exact ha
        by_cases hr : r < v.heap.length
        · rw [List.getElem?_append_left hr] at hget
          exact (hv.members (some r) a hget).mono hmono
        · rw [List.getElem?_append_right (Nat.le_of_not_lt hr)] at hget
          have hmember : w.member (some r) = some a := ha
          have hkey := member_wallet hmember
          obtain ⟨key, sid, now, rfl⟩ := hfresh a (List.mem_of_getElem? hget)
          refine ⟨hv.samePool, hkey, ?_, fun b n hs => by cases hs⟩
          intro x hx
          rw [← Option.some.inj hx]
          exact hmono List.mem_cons_self
  · rw [hprep.tasks]
    exact hv.forwards

-- ── What a lock changes ─────────────────────────────────────────────────────

/-- Why an agent gets an event: a task delivers it, or it is the command of an entry
    action. -/
inductive Caused (c : Config) (a : Agent) : SolanaStrategyEvent → Prop where
  | told {t : DispatchTask} (ht : t ∈ c.strategy.tasks) : Caused c a t.event
  | ordered {o : Order} {command : AgentEvent} (ho : o ∈ c.orders)
      (hc : o.choose a = some command) : Caused c a (.forAgent command)

/-- Where an action comes from: a member queued it when it got an event. -/
def QueuedBy (c : Config) (action : SolanaAction) : Prop :=
  ∃ who a a' i out, c.strategy.member who = some a ∧ Caused c a i.event ∧
    FoxfireAgent.handle a i = some (a', out) ∧ action ∈ queuedActions out

/-- What a lock leaves of the strategy, and what it may queue. -/
structure Locked (c c' : Config) (out : List Effect) : Prop where
  samePool : c'.strategy.pool = c.strategy.pool
  queued   : ∀ action ∈ queuedActions out, QueuedBy c action

theorem Locked.silent {c c' : Config} {out : List Effect}
    (hpool : c'.strategy.pool = c.strategy.pool) (hout : queuedActions out = []) :
    Locked c c' out :=
  ⟨hpool, fun action hmem => by rw [hout] at hmem; cases hmem⟩

/-- Leaving a state queues nothing. -/
theorem exit_queues_nothing (v : VolumeStrategy) : queuedActions v.exit.2 = [] := by
  have hzero : queuedActions v.zeroAgents.2 = [] := by
    refine List.filterMap_eq_nil_iff.mpr ?_
    intro e he
    obtain ⟨stops, hstops, he⟩ := List.mem_flatten.mp he
    obtain ⟨a, -, rfl⟩ := List.mem_map.mp hstops
    rcases List.mem_cons.mp he with rfl | he
    · rfl
    · rw [List.mem_singleton.mp he]
  rw [VolumeStrategy.exit]
  split
  · exact hzero
  · exact hzero
  · exact hzero
  · rfl

namespace Config

variable {c c' : Config} {v : VolumeStrategy} {env : Env}

theorem enter_pool (v : VolumeStrategy) (env : Env) (next : Option (BotEvent × Env)) :
    (enter v env next).strategy.pool = v.pool := by
  rw [enter]
  cases hp : v.prepare env v.state with
  | none => rfl
  | some p => exact (VolumeStrategy.prepare_fresh hp).1

theorem respond_locked (hpool : v.pool = c.strategy.pool) (resp : Response State) :
    Locked c (respond v env resp).1 (respond v env resp).2 := by
  cases resp with
  | handled => exact .silent hpool rfl
  | super => exact .silent hpool rfl
  | transition target =>
      refine .silent ?_ (exit_queues_nothing v)
      refine (enter_pool _ _ _).trans ?_
      rw [VolumeStrategy.exit_eq]
      exact hpool

theorem call_locked (c : Config) (e : BotEvent) (env : Env) :
    Locked c (call c.strategy e env).1 (call c.strategy e env).2 := by
  rw [call]
  split
  · split
    · exact respond_locked rfl _
    · exact .silent rfl rfl
  · obtain ⟨sw, hsw⟩ := VolumeStrategy.dispatch_timer c.strategy e env.now
    rw [hsw]
    exact respond_locked (c := c) (v := { c.strategy with stopwatch := sw }) rfl _

theorem ask_locked (c : Config) (env : Env) (n : Nat) (rest : List AgentRef) :
    Locked c (ask c.strategy env n rest).1 (ask c.strategy env n rest).2 := by
  cases rest with
  | nil => exact respond_locked rfl _
  | cons r rest =>
      rw [ask]
      split
      · exact .silent rfl rfl
      · split
        · exact .silent rfl rfl
        · exact respond_locked rfl _

theorem setMember_pool (v : VolumeStrategy) (a : Agent) (who : Member) :
    (v.setMember a who).pool = v.pool := by
  cases who <;> rfl

theorem command_locked {orders : List Order} {next : Option (BotEvent × Env)}
    (hc : c.phase = .entering orders next) (j : Nat) :
    Locked c (command c.strategy orders next j).1 (command c.strategy orders next j).2 := by
  rw [command]
  cases ho : orders[j]? with
  | none => exact .silent rfl rfl
  | some o =>
      have hmem : o ∈ c.orders := by
        rw [Config.orders, hc]
        exact List.mem_of_getElem? ho
      simp only [VolumeStrategy.give]
      cases hm : c.strategy.member o.receiver with
      | none => exact .silent rfl rfl
      | some a =>
          cases hobey : o.obey a with
          | none =>
              simp only [hobey, Option.map_none]
              exact .silent rfl rfl
          | some p =>
              simp only [hobey, Option.map_some]
              refine ⟨setMember_pool _ _ _, ?_⟩
              intro action hq
              rw [Order.obey] at hobey
              cases hchoose : o.choose a with
              | none =>
                  rw [hchoose] at hobey
                  cases hobey
                  cases hq
              | some event =>
                  rw [hchoose] at hobey
                  exact ⟨_, a, _, _, _, hm, .ordered hmem hchoose, hobey, hq⟩

theorem deliver_locked (c : Config) (k : Nat) (i : FoxfireAgent.Input) :
    Locked c ⟨(c.strategy.deliver k i).1, c.phase⟩ (c.strategy.deliver k i).2 := by
  rw [VolumeStrategy.deliver]
  cases htask : c.strategy.tasks[k]? with
  | none => exact .silent rfl rfl
  | some t =>
      have ht : t ∈ c.strategy.tasks := List.mem_of_getElem? htask
      by_cases hw : t.wallet = true
      · simp only [if_pos hw]
        cases hh : FoxfireAgent.handle c.strategy.mainWallet { i with event := t.event } with
        | none => exact .silent rfl rfl
        | some p =>
            exact ⟨rfl, fun action hq => ⟨none, _, _, _, _, rfl, .told ht, hh, hq⟩⟩
      · simp only [if_neg hw]
        cases hagents : t.agents with
        | nil => exact .silent rfl rfl
        | cons r rs =>
            cases hh : (c.strategy.heap[r]?).bind fun a =>
              FoxfireAgent.handle a { i with event := t.event } with
            | none =>
                simp only [hh]
                exact .silent rfl rfl
            | some p =>
                simp only [hh]
                obtain ⟨a, ha, hp⟩ := Option.bind_eq_some_iff.mp hh
                exact ⟨rfl, fun action hq => ⟨some r, a, _, _, _, ha, .told ht, hp, hq⟩⟩

theorem advance_locked (c : Config) (k : Nat) : Locked c (c.advance k).1 (c.advance k).2 := by
  rw [advance]
  split
  · exact .silent rfl rfl
  · exact .silent rfl rfl
  · exact .silent rfl rfl
  · next hc => exact command_locked hc _
  · exact call_locked c _ _
  · exact ask_locked c _ _ _
  · exact .silent rfl rfl

end Config

/-- **WHAT A LOCK MAY QUEUE.** -/
theorem handler_locked {c c' : Config} {m : Move} {out : List Effect}
    (h : handler c m = some (c', out)) : Locked c c' out := by
  cases m with
  | event e initEnv env =>
      simp only [handler, Config.take] at h
      split at h
      · split at h
        · split at h
          · obtain ⟨rfl, rfl⟩ := Prod.mk.inj (Option.some.inj h)
            exact .silent rfl rfl
          · obtain ⟨rfl, rfl⟩ := Prod.mk.inj (Option.some.inj h)
            exact .silent (Config.enter_pool _ _ _) rfl
        · obtain ⟨rfl, rfl⟩ := Prod.mk.inj (Option.some.inj h)
          exact .silent rfl rfl
      · cases h
  | advance k =>
      obtain ⟨rfl, rfl⟩ := Prod.mk.inj (Option.some.inj h)
      exact Config.advance_locked c k
  | task k i =>
      obtain ⟨rfl, rfl⟩ := Prod.mk.inj (Option.some.inj h)
      exact Config.deliver_locked c k i

-- ── The invariant ───────────────────────────────────────────────────────────

/-- **THE INVARIANT**: all members are sealed, and so are the commands left. -/
structure Closed (pool : RaydiumPool) (c : Config) : Prop where
  strategy : AllSealed pool c.strategy
  orders   : ∀ o ∈ c.orders, o.Inside c.strategy.ownedKeys pool

theorem Caused.contained {c : Config} {a : Agent} {event : SolanaStrategyEvent}
    (hI : Closed pool c) (ha : a.storage.pool = pool) (h : Caused c a event) :
    Contained c.strategy.ownedKeys pool event := by
  cases h with
  | told ht =>
      obtain ⟨e, he⟩ := hI.strategy.forwards _ ht
      intro b heq
      rw [he] at heq
      cases heq
  | ordered ho hc => exact hI.orders _ ho a _ ha hc

theorem AllSealed.of_same {v v' : VolumeStrategy} (hv : AllSealed pool v)
    (hpool : v'.pool = v.pool) (hsame : Same v v') : AllSealed pool v' := by
  refine ⟨hpool.trans hv.samePool, ?_, hsame.forwards hv.forwards⟩
  intro who a ha
  rw [hsame.ownedKeys]
  exact hv.members who a ((hsame.member who).symm.trans ha)

/-- The agents of an earlier state are no longer told anything, but are still there. -/
theorem AllSealed.retarget {v : VolumeStrategy} (hv : AllSealed pool v) (agents : List AgentRef)
    (s : State) : AllSealed pool { v with agents := agents, state := s } := by
  refine ⟨hv.samePool, ?_, hv.forwards⟩
  intro who a ha
  cases who with
  | none => exact hv.members none a ha
  | some r => exact hv.members (some r) a ha

theorem Closed.of_same {c c' : Config} (hI : Closed pool c)
    (hpool : c'.strategy.pool = c.strategy.pool) (hsame : Same c.strategy c'.strategy)
    (horders : ∀ o ∈ c'.orders, o ∈ c.orders) : Closed pool c' := by
  refine ⟨hI.strategy.of_same hpool hsame, ?_⟩
  intro o ho
  rw [hsame.ownedKeys]
  exact hI.orders o (horders o ho)

theorem setMember_self {v : VolumeStrategy} {who : Member} {a : Agent}
    (ha : v.member who = some a) : v.setMember a who = v := by
  cases who with
  | none =>
      obtain rfl := Option.some.inj ha
      rfl
  | some r =>
      obtain ⟨hr, rfl⟩ := List.getElem?_eq_some_iff.mp ha
      simp only [VolumeStrategy.setMember, List.set_getElem_self]

/-- A member handles an event that has a cause. -/
theorem Closed.of_member {c c' : Config} {who : Member} {a a' : Agent} {i : FoxfireAgent.Input}
    {out : List Effect} (hI : Closed pool c) (hpool : c'.strategy.pool = c.strategy.pool)
    (ha : c.strategy.member who = some a) (hcause : Caused c a i.event)
    (h : FoxfireAgent.handle a i = some (a', out))
    (hsame : Same (c.strategy.setMember a' who) c'.strategy)
    (horders : ∀ o ∈ c'.orders, o ∈ c.orders) : Closed pool c' := by
  have hsealed := hI.strategy.members who a ha
  have hkeys : c'.strategy.ownedKeys = c.strategy.ownedKeys :=
    hsame.ownedKeys.trans (setMember_ownedKeys ha (handle_identity h).1)
  refine ⟨⟨hpool.trans hI.strategy.samePool, ?_, hsame.forwards ?_⟩, ?_⟩
  · intro q b hb
    rw [hkeys]
    rcases member_setMember ((hsame.member q).symm.trans hb) with ⟨-, rfl⟩ | ⟨-, hb⟩
    · exact (hsealed.handle (hcause.contained hI hsealed.samePool) h).1
    · exact hI.strategy.members q b hb
  · rw [setMember_tasks]
    exact hI.strategy.forwards
  · intro o ho
    rw [hkeys]
    exact hI.orders o (horders o ho)

theorem closed_enter {v : VolumeStrategy} (hv : AllSealed pool v) (env : Env)
    (next : Option (BotEvent × Env)) : Closed pool (Config.enter v env next) := by
  rw [Config.enter]
  cases hp : v.prepare env v.state with
  | none => exact ⟨hv, fun o ho => by cases ho⟩
  | some p =>
      refine ⟨hv.prepare hp, ?_⟩
      intro o ho
      rw [← hv.samePool]
      exact VolumeStrategy.prepare_inside hp o ho

theorem eraseIdx_mem {orders : List Order} {next : Option (BotEvent × Env)} {c c' : Config}
    {j : Nat} (hc : c.phase = .entering orders next)
    (hc' : c'.phase = .entering (orders.eraseIdx j) next) : ∀ o ∈ c'.orders, o ∈ c.orders := by
  intro o ho
  rw [Config.orders, hc'] at ho
  rw [Config.orders, hc]
  exact List.mem_of_mem_eraseIdx ho

/-- **ONE LOCK KEEPS THE FUNDS WHERE THEY ARE.** -/
theorem Closed.step {c c' : Config} {m : Move} {out : List Effect} (hI : Closed pool c)
    (h : handler c m = some (c', out)) : Closed pool c' := by
  have hpool := (handler_locked h).samePool
  have hnone : ∀ {p : Phase}, c'.phase = p → (∀ os next, p ≠ .entering os next) →
      ∀ o ∈ c'.orders, o ∈ c.orders := by
    intro p hp hne o ho
    rw [Config.orders, hp] at ho
    split at ho
    · exact absurd rfl (hne _ _)
    · cases ho
  cases move_cases h with
  | rests hsame hphase =>
      refine hI.of_same hpool hsame ?_
      intro o ho
      rwa [Config.orders, hphase] at ho
  | settles hsame _ hphase =>
      exact hI.of_same hpool hsame (hnone hphase (fun _ _ h => by cases h))
  | calls hsame _ _ hphase =>
      exact hI.of_same hpool hsame (hnone hphase (fun _ _ h => by cases h))
  | asks hsame _ _ hphase =>
      exact hI.of_same hpool hsame (hnone hphase (fun _ _ h => by cases h))
  | reads hsame _ _ hphase =>
      exact hI.of_same hpool hsame (hnone hphase (fun _ _ h => by cases h))
  | panics hsame hphase =>
      exact hI.of_same hpool hsame (hnone hphase (fun _ _ h => by cases h))
  | misses hentering _ _ hsame hphase =>
      exact hI.of_same hpool hsame (eraseIdx_mem hentering hphase)
  | delivers htask _ hmember hhandle hsame hphase =>
      refine hI.of_member hpool hmember (.told (List.mem_of_getElem? htask)) hhandle hsame ?_
      intro o ho
      rwa [Config.orders, hphase] at ho
  | commands hentering horder _ hmember hobey hsame hphase =>
      have hsub := eraseIdx_mem hentering hphase
      rcases obey_cases hobey with ⟨-, rfl⟩ | ⟨event, hc, hh⟩
      · rw [setMember_self hmember] at hsame
        exact hI.of_same hpool hsame hsub
      · refine hI.of_member hpool hmember (.ordered ?_ hc) hh hsame hsub
        rw [Config.orders, hentering]
        exact List.mem_of_getElem? horder
  | begins _ _ => exact closed_enter hI.strategy _ _
  | @moves k v env target status hsame _ _ =>
      rw [Config.enter_pool, VolumeStrategy.exit_eq] at hpool
      have hv : AllSealed pool v := hI.strategy.of_same hpool hsame
      rw [VolumeStrategy.exit_eq]
      exact closed_enter (hv.retarget _ _) _ _

-- ── The wallets of a strategy only grow ─────────────────────────────────────

theorem enter_ownedKeys (v : VolumeStrategy) (env : Env) (next : Option (BotEvent × Env)) :
    v.ownedKeys ⊆ (Config.enter v env next).strategy.ownedKeys := by
  rw [Config.enter]
  cases hp : v.prepare env v.state with
  | none => exact List.Subset.refl _
  | some p => exact prepare_ownedKeys hp

theorem move_ownedKeys {c c' : Config} {m : Move} (h : Moved c m c') :
    c.strategy.ownedKeys ⊆ c'.strategy.ownedKeys := by
  have hkept : ∀ {v : VolumeStrategy}, Same v c'.strategy → v.ownedKeys = c.strategy.ownedKeys →
      c.strategy.ownedKeys ⊆ c'.strategy.ownedKeys := by
    intro v hsame hv
    rw [hsame.ownedKeys, hv]
    exact List.Subset.refl _
  cases h with
  | rests hsame _ => exact hkept hsame rfl
  | settles hsame _ _ => exact hkept hsame rfl
  | calls hsame _ _ _ => exact hkept hsame rfl
  | asks hsame _ _ _ => exact hkept hsame rfl
  | reads hsame _ _ _ => exact hkept hsame rfl
  | panics hsame _ => exact hkept hsame rfl
  | misses _ _ _ hsame _ => exact hkept hsame rfl
  | delivers _ _ hmember hhandle hsame _ =>
      exact hkept hsame (setMember_ownedKeys hmember (handle_identity hhandle).1)
  | commands _ _ _ hmember hobey hsame _ =>
      refine hkept hsame (setMember_ownedKeys hmember ?_)
      rcases obey_cases hobey with ⟨-, rfl⟩ | ⟨event, -, hh⟩
      · rfl
      · exact (handle_identity hh).1
  | begins _ _ => exact enter_ownedKeys _ _ _
  | @moves k v env target status hsame _ _ =>
      rw [← hsame.ownedKeys, VolumeStrategy.exit_eq]
      exact enter_ownedKeys { v with agents := v.leaves, state := target } env none

-- ── Whole runs ──────────────────────────────────────────────────────────────

theorem closed_new (inst : VolumeInstance) (pool : RaydiumPool) (key : Keypair)
    (now : Instant) : Closed pool (Config.new inst pool key now) := by
  refine ⟨⟨rfl, ?_, fun t ht => by cases ht⟩, fun o ho => by cases ho⟩
  intro who a ha
  cases who with
  | none =>
      obtain rfl := Option.some.inj ha
      exact ⟨rfl, List.mem_cons_self, fun w hw => (by cases hw), fun b r hs => (by cases hs)⟩
  | some r => cases ha

/-- **A WHOLE RUN** keeps all members sealed, and what it queues in custody. -/
theorem closed_run {inst : VolumeInstance} {pool : RaydiumPool} {key : Keypair} {now : Instant}
    {moves : List Move} {c : Config} {out : List Effect}
    (h : run handler (Config.new inst pool key now) moves = some (c, out)) :
    Closed pool c ∧ ∀ action ∈ queuedActions out, InCustody c.strategy.ownedKeys pool action := by
  have hstep : ∀ past c (m : Move) c' out,
      (Closed pool c ∧ ∀ action ∈ queuedActions past, InCustody c.strategy.ownedKeys pool action) →
      handler c m = some (c', out) →
      Closed pool c' ∧
        ∀ action ∈ queuedActions (past ++ out), InCustody c'.strategy.ownedKeys pool action := by
    rintro past c m c' out ⟨hI, hpast⟩ hm
    have hmono := move_ownedKeys (move_cases hm)
    refine ⟨hI.step hm, ?_⟩
    intro action hmem
    rw [queuedActions, List.filterMap_append, List.mem_append] at hmem
    rcases hmem with hmem | hmem
    · exact (hpast action hmem).mono hmono
    · obtain ⟨who, a, a', i, out', ha, hcause, hh, hq⟩ := (handler_locked hm).queued action hmem
      have hsealed := hI.strategy.members who a ha
      have hcontained := hcause.contained hI hsealed.samePool
      exact ((hsealed.handle hcontained hh).2 action hq).mono hmono
  have hinit : Closed pool (Config.new inst pool key now) ∧
      ∀ action ∈ queuedActions ([] : List Effect),
        InCustody (Config.new inst pool key now).strategy.ownedKeys pool action :=
    ⟨closed_new inst pool key now, fun action hmem => by cases hmem⟩
  exact run_invariant hstep hinit h

/-- **THE FUNDS OF A STRATEGY STAY WITH ITS WALLETS**: in every run, however the locks of the
    handler and of the tasks interleave, an action is signed and paid for by the main wallet
    or by an agent of the strategy, trades in its pool only, and transfers SOL or the pool's
    token, to the main wallet or to an agent. -/
theorem funds_stay (inst : VolumeInstance) (pool : RaydiumPool) (key : Keypair)
    (now : Instant) (moves : List Move) (c : Config) (out : List Effect)
    (h : run handler (Config.new inst pool key now) moves = some (c, out)) :
    ∀ action ∈ queuedActions out, InCustody c.strategy.ownedKeys pool action :=
  (closed_run h).2

/-- A run in which one agent is funded and told to buy. -/
theorem one_agent_funds_stay :
    ∃ c out, run handler smallConfig buyOne = some (c, out) ∧
      (queuedActions out).map (fun action => action.sniper.pubkey) = [⟨1⟩, ⟨200⟩] ∧
      ∀ action ∈ queuedActions out, InCustody c.strategy.ownedKeys default action := by
  have hview : (run handler smallConfig buyOne).map
      (fun p => (queuedActions p.2).map fun action => action.sniper.pubkey) =
        some [⟨1⟩, ⟨200⟩] := by decide +kernel
  obtain ⟨⟨c, out⟩, hrun, hsenders⟩ := Option.map_eq_some_iff.mp hview
  exact ⟨c, out, hrun, hsenders,
    funds_stay ⟨⟨1, 1, 1, 1, 0⟩, 1, 100⟩ default ⟨⟨1⟩, 1⟩ 0 buyOne c out hrun⟩

end FoxfireVolume
