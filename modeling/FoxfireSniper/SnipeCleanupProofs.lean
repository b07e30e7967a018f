import FoxfireSniper.PriceCacheProofs
import FoxfireSniper.SnipePriceProofs
import FoxfireSniper.SniperStrategyProofs

/-! # What a snipe cleans up when it is done

    `stop_monitoring` (`src/strategies/sniper_strategy/agent/agent_state_machine.rs`) is the
    entry action of `done`: the snipe's pool is no target any more, and neither the wallet's
    account nor its account of the pool's token is monitored.  The tables are those of the
    cache, shared by all strategies, and the wallet is that of all snipes.

    The strategy runs beside the cache and the strategies that use it.  Every write of an
    entry action takes its lock for itself, so anything can happen between two of them; only
    the snipe itself is locked until its entry action is over.

    * `handle_frame`: a snipe only ever removes its pool, its wallet and its token account;
    * `cleansOwn_iff`: what one of these writes takes from others;
    * **`cleanup_iff`**: so nothing is taken from others in a run exactly if the wallet is
      never monitored, and no target pool in use, when a write removes it. -/

namespace FoxfireCleanup

open FoxfireTypes FoxfireAttempt FoxfireSnipe FoxfireCache FoxfireSniperStrategy MachineRun

-- ── The cache ───────────────────────────────────────────────────────────────

/-- A write to one of the tables of the cache. -/
inductive Write where
  /-- `update_account`, and with `none` `monitor_with_geyser`. -/
  | updateAccount (acc : Pubkey) (account : Option AccountPretty)
  /-- `drop_account_monitoring` -/
  | dropAccount (acc : Pubkey)
  | insertPool (id : Pubkey) (details : RaydiumPool)
  | insertPrice (id : Pubkey) (price : RaydiumPoolPriceUpdate)
  | removePool (id : Pubkey)

def carryOut (c : OperationalCache) : Write → OperationalCache
  | .updateAccount acc account => c.updateAccount acc account
  | .dropAccount acc           => c.dropAccountMonitoring acc
  | .insertPool id details     =>
      { c with targetPools := Function.update c.targetPools id (some details) }
  | .insertPrice id price      =>
      { c with targetPoolsPrices := Function.update c.targetPoolsPrices id (some price) }
  | .removePool id             => FoxfirePrices.forgetPool id c

/-- The write of an effect, given the associated token addresses. -/
def writeOf (ata : Pubkey → Pubkey → Pubkey) : Effect → Option Write
  | .queued _                              => none
  | .insertTargetPool id details           => some (.insertPool id details)
  | .insertTargetPoolPrice id price        => some (.insertPrice id price)
  | .removeTargetPool id                   => some (.removePool id)
  | .stopMonitoringAccount acc             => some (.dropAccount acc)
  | .stopMonitoringTokenAccount owner mint => some (.dropAccount (ata owner mint))

-- ── The strategy beside the cache ───────────────────────────────────────────

structure World where
  strategy : SniperStrategy
  cache    : OperationalCache
  /-- The writes of an entry action that are still to come, by snipe. -/
  pending  : SnipeRef → List Write
  /-- The pools that other strategies use. -/
  users    : List Pubkey

inductive Move where
  | sniping (i : FoxfireSniperStrategy.Input)
  /-- The next write of this snipe's entry action. -/
  | write (r : SnipeRef)
  /-- A write of another task. -/
  | other (x : Write)
  /-- Another strategy starts, or stops, to use a pool. -/
  | use (id : Pubkey)
  | leave (id : Pubkey)

/-- The snipe whose lock a step takes. -/
def touches (s : SniperStrategy) : FoxfireSniperStrategy.Input → Option SnipeRef
  | .deliver k j _ =>
      match s.dispatches[k]? with
      | some (.delivering _ refs) => refs[j]?
      | _                         => none
  | .examine => s.collecting.bind fun c => c.rest.head?.map Sigma.snd
  | _ => none

/-- These are the writes of the snipe that are still to come. -/
def World.schedule (w : World) (r : SnipeRef) (writes : List Write) : SnipeRef → List Write :=
  Function.update w.pending r writes

def step (ata : Pubkey → Pubkey → Pubkey) : Step World Move Effect := fun w m =>
  match m with
  | .sniping i =>
      match touches w.strategy i with
      | none => (SniperStrategy.step w.strategy i).map fun p => ({ w with strategy := p.1 }, p.2)
      | some r =>
          -- the snipe is locked until its entry action is over
          if (w.pending r).isEmpty then
            (SniperStrategy.step w.strategy i).map fun p =>
              ({ w with strategy := p.1, pending := w.schedule r (p.2.filterMap (writeOf ata)) }, p.2)
          else none
  | .write r =>
      match w.pending r with
      | []        => none
      | x :: rest =>
          some ({ w with cache := carryOut w.cache x, pending := w.schedule r rest }, [])
  | .other x => some ({ w with cache := carryOut w.cache x }, [])
  | .use id => some ({ w with users := id :: w.users }, [])
  | .leave id => some ({ w with users := w.users.erase id }, [])

def World.new (inst : SniperInstance) (wallet : Keypair) (cache : OperationalCache)
    (users : List Pubkey) : World :=
  ⟨SniperStrategy.new inst wallet, cache, fun _ => [], users⟩

-- ── What is to be left alone ────────────────────────────────────────────────

/-- The snipe is in the map, and has neither been done nor failed. -/
structure Live (s : SniperStrategy) (r : SnipeRef) (m : Sniper) : Prop where
  listed : r ∈ s.poolSnipes.entries.map Sigma.snd
  found  : s.heap[r]? = some m
  going  : s.isFinished r = false

def OthersLive (w : World) (r : SnipeRef) : Prop := ∃ q m, q ≠ r ∧ Live w.strategy q m

/-- Another live snipe or another strategy uses the pool. -/
def UsedByOthers (w : World) (r : SnipeRef) (id : Pubkey) : Prop :=
  (∃ q m, q ≠ r ∧ Live w.strategy q m ∧ m.storage.pool.id = id) ∨ id ∈ w.users

/-- From `c` to `c'`, only the snipe's own monitoring is removed: that of its token account,
    and of its pool if nobody else uses it. -/
structure OnlyOwn (ata : Pubkey → Pubkey → Pubkey) (w : World) (r : SnipeRef) (m : Sniper)
    (c' : OperationalCache) : Prop where
  accounts : ∀ acc, w.cache.accounts acc ≠ none → c'.accounts acc = none →
    acc = ata m.storage.agentKey.pubkey m.storage.pool.baseMint
  pools    : ∀ id, w.cache.targetPools id ≠ none → c'.targetPools id = none →
    id = m.storage.pool.id ∧ ¬ UsedByOthers w r id

/-- A write of a snipe removes its own monitoring only. -/
def CleansOwn (ata : Pubkey → Pubkey → Pubkey) (w : World) : Move → Prop
  | .write r => ∀ m w' out, w.strategy.heap[r]? = some m →
      step ata w (.write r) = some (w', out) → OnlyOwn ata w r m w'.cache
  | _ => True

/-- The wallet's account stays monitored while another snipe is live. -/
def KeepsWallet (ata : Pubkey → Pubkey → Pubkey) (w : World) : Move → Prop
  | .write r => ∀ w' out, step ata w (.write r) = some (w', out) → OthersLive w r →
      w.cache.accounts w.strategy.sniperWallet.pubkey ≠ none →
        w'.cache.accounts w.strategy.sniperWallet.pubkey ≠ none
  | _ => True

-- ── The conditions ──────────────────────────────────────────────────────────

/-- The next write of a snipe finds nothing that it should leave alone: the wallet is not
    monitored, and the pool is no target, or nobody else uses it. -/
def Spares (w : World) : Move → Prop
  | .write r =>
      match w.pending r with
      | .removePool id :: _   => w.cache.targetPools id ≠ none → ¬ UsedByOthers w r id
      | .dropAccount acc :: _ =>
          acc = w.strategy.sniperWallet.pubkey → w.cache.accounts acc = none
      | _                     => True
  | _ => True

/-- The same for the wallet alone, as long as another snipe is live. -/
def SparesWallet (w : World) : Move → Prop
  | .write r =>
      match w.pending r with
      | .dropAccount acc :: _ =>
          acc = w.strategy.sniperWallet.pubkey → OthersLive w r → w.cache.accounts acc = none
      | _                     => True
  | _ => True

-- ── A snipe ─────────────────────────────────────────────────────────────────

/-- The pool and the wallet are the same. -/
structure SameOwner (a a' : SniperAgentState) : Prop where
  pool : a'.pool = a.pool
  key  : a'.agentKey = a.agentKey

/-- What a snipe may write: only one that is done removes anything, and then its pool, its
    wallet or its token account. -/
def Owned (ata : Pubkey → Pubkey → Pubkey) (m : Sniper) : Write → Prop
  | .updateAccount _ _ => False
  | .insertPool _ _    => True
  | .insertPrice _ _   => True
  | .removePool id     => m.state = .done ∧ id = m.storage.pool.id
  | .dropAccount acc   => m.state = .done ∧ (acc = m.storage.agentKey.pubkey ∨
      acc = ata m.storage.agentKey.pubkey m.storage.pool.baseMint)

/-- A handler keeps the owner. -/
theorem dispatch_sameOwner (m : Sniper) (i : FoxfireSnipe.Input) :
    SameOwner m.storage ((m.ready i).dispatch i m.state).1 := by
  obtain ⟨t, ht⟩ := ready_eq m i
  obtain ⟨tracker, t', ht'⟩ := dispatch_eq (m.ready i) i m.state
  rw [ht', ht]
  exact ⟨rfl, rfl⟩

theorem enter_sameOwner {a a' : SniperAgentState} {i : FoxfireSnipe.Input}
    {target : FoxfireSnipe.State} {out : List Effect} (h : a.enter i target = some (a', out)) :
    SameOwner a a' := by
  obtain ⟨tracker, delay, bought, price, rfl⟩ := enter_frame h
  exact ⟨rfl, rfl⟩

/-- Entering a state writes what a snipe in that state may write. -/
theorem enter_owned (ata : Pubkey → Pubkey → Pubkey) {a : SniperAgentState} {m' : Sniper}
    {i : FoxfireSnipe.Input} {out : List Effect}
    (h : a.enter i m'.state = some (m'.storage, out)) :
    ∀ x ∈ out.filterMap (writeOf ata), Owned ata m' x := by
  obtain ⟨target, a', initialized⟩ := m'
  cases target with
  | waitingToSell =>
      obtain ⟨price, -, heq⟩ := Option.map_eq_some_iff.mp h
      obtain ⟨rfl, rfl⟩ := Prod.mk.inj heq
      intro x hx
      rw [List.filterMap_append, List.mem_append] at hx
      rcases hx with hx | hx
      · cases hd : i.poolDetails with
        | none => rw [hd] at hx; cases hx
        | some details =>
            rw [hd] at hx
            obtain rfl := List.mem_singleton.mp hx
            trivial
      · cases hp : i.poolPrice with
        | none => rw [hp] at hx; cases hx
        | some p =>
            rw [hp] at hx
            obtain rfl := List.mem_singleton.mp hx
            trivial
  | done =>
      obtain ⟨rfl, rfl⟩ := Prod.mk.inj (Option.some.inj h)
      intro x hx
      rcases List.mem_cons.mp hx with rfl | hx
      · exact ⟨rfl, rfl⟩
      · rcases List.mem_cons.mp hx with rfl | hx
        · exact ⟨rfl, Or.inl rfl⟩
        · obtain rfl := List.mem_singleton.mp hx
          exact ⟨rfl, Or.inr rfl⟩
  | waitingToBuy | buying | selling | error =>
      obtain ⟨rfl, rfl⟩ := Prod.mk.inj (Option.some.inj h)
      exact nofun

/-- **A SNIPE REMOVES ONLY WHAT IT NAMES**: its pool, its wallet and its token account, and
    nothing before it is done. -/
theorem handle_frame (ata : Pubkey → Pubkey → Pubkey) {m m' : Sniper} {i : FoxfireSnipe.Input}
    {out : List Effect} (h : handle m i = some (m', out)) :
    SameOwner m.storage m'.storage ∧ ∀ x ∈ out.filterMap (writeOf ata), Owned ata m' x := by
  have howner := dispatch_sameOwner m i
  cases hd : (m.ready i).dispatch i m.state with
  | mk a resp =>
      rw [hd] at howner
      cases resp with
      | transition target =>
          obtain ⟨rfl, henter⟩ := handle_transition hd h
          have hsame := enter_sameOwner henter
          exact ⟨⟨hsame.pool.trans howner.pool, hsame.key.trans howner.key⟩,
            enter_owned ata henter⟩
      | super =>
          obtain ⟨rfl, rfl⟩ := handle_stay hd (Or.inl rfl) h
          exact ⟨howner, nofun⟩
      | handled =>
          obtain ⟨rfl, rfl⟩ := handle_stay hd (Or.inr rfl) h
          exact ⟨howner, nofun⟩

-- ── The strategy's snipes ───────────────────────────────────────────────────

/-- What a step does to the snipes. -/
inductive HeapOutcome (s : SniperStrategy) (i : FoxfireSniperStrategy.Input)
    (s' : SniperStrategy) (out : List Effect) : Prop where
  | same (hheap : s'.heap = s.heap) (hout : out = [])
  | inserted {task : Insertion} {now : Instant}
      (hheap : s'.heap = s.heap ++ [Sniper.new task.pool s.sniperWallet
        s.inst.toSnipingStrategyInstance task.price now]) (hout : out = [])
  /-- A snipe handles an event. -/
  | delivered {r : SnipeRef} {m m' : Sniper} {j : FoxfireSnipe.Input}
      (htouch : touches s i = some r) (hfound : s.heap[r]? = some m)
      (hhandle : handle m j = some (m', out)) (hheap : s'.heap = s.heap.set r m')

/-- A snipe handles the event, or there is none, or it panics. -/
theorem delivered_cases (s : SniperStrategy) (r : SnipeRef) (event : SolanaStrategyEvent)
    (i : FoxfireSnipe.Input) : s.delivered r event i = (s.heap, []) ∨
      ∃ m m' out, s.heap[r]? = some m ∧ handle m { i with event := event } = some (m', out) ∧
        s.delivered r event i = (s.heap.set r m', out) := by
  cases hresult : (s.heap[r]?).bind fun sniper => handle sniper { i with event := event } with
  | none =>
      left
      rw [SniperStrategy.delivered, hresult]
  | some p =>
      right
      obtain ⟨m, hfound, hhandle⟩ := Option.bind_eq_some_iff.mp hresult
      refine ⟨m, p.1, p.2, hfound, hhandle, ?_⟩
      rw [SniperStrategy.delivered, hresult]

/-- **WHAT A STEP OF THE STRATEGY DOES TO THE SNIPES.** -/
theorem step_heap {s s' : SniperStrategy} {i : FoxfireSniperStrategy.Input} {out : List Effect}
    (h : SniperStrategy.step s i = some (s', out)) :
    HeapOutcome s i s' out ∧ s'.sniperWallet = s.sniperWallet := by
  cases step_cases h with
  | @handled e idText =>
      obtain ⟨handler, heq⟩ := running_eq (s.spawnDispatch e) e idText
      rw [heq]
      exact ⟨.same rfl rfl, rfl⟩
  | @checked a pool price =>
      unfold SniperStrategy.checked
      split <;> exact ⟨.same rfl rfl, rfl⟩
  | inserted => exact ⟨.inserted rfl rfl, rfl⟩
  | @delivered k j i event refs r hdispatch hr =>
      refine ⟨?_, rfl⟩
      have htouch : touches s (.deliver k j i) = some r := by
        simp only [touches, hdispatch, hr]
      rcases delivered_cases s r event i with heq | ⟨m, m', out, hfound, hhandle, heq⟩
      · rw [heq]
        exact .same rfl rfl
      · rw [heq]
        exact .delivered htouch hfound hhandle rfl
  | ignored | removed | searched => exact ⟨.same rfl rfl, rfl⟩

-- ── Runs ────────────────────────────────────────────────────────────────────

variable {ata : Pubkey → Pubkey → Pubkey} {wallet : Keypair} {w w' : World} {r : SnipeRef}

/-- All snipes have the strategy's wallet, and what they still have to write is theirs. -/
structure Inv (ata : Pubkey → Pubkey → Pubkey) (wallet : Keypair) (w : World) : Prop where
  shared : w.strategy.sniperWallet = wallet
  keys   : ∀ (r : SnipeRef) m, w.strategy.heap[r]? = some m → m.storage.agentKey = wallet
  owned  : ∀ r, ∀ x ∈ w.pending r, ∃ m, w.strategy.heap[r]? = some m ∧ Owned ata m x

theorem inv_new (inst : SniperInstance) (wallet : Keypair) (cache : OperationalCache)
    (users : List Pubkey) : Inv ata wallet (World.new inst wallet cache users) where
  shared := rfl
  keys := fun _ _ h => by cases h
  owned := fun _ _ h => absurd h List.not_mem_nil

theorem mem_schedule {writes : List Write} {q : SnipeRef} {x : Write}
    (h : x ∈ w.schedule r writes q) : (q = r ∧ x ∈ writes) ∨ (q ≠ r ∧ x ∈ w.pending q) := by
  by_cases hq : q = r
  · subst hq
    rw [World.schedule, Function.update_self] at h
    exact Or.inl ⟨rfl, h⟩
  · rw [World.schedule, Function.update_of_ne hq] at h
    exact Or.inr ⟨hq, h⟩

/-- A step of the strategy schedules what the snipe that it touches writes, and leaves the
    other snipes' writes alone. -/
theorem step_sniping {i : FoxfireSniperStrategy.Input} {out : List Effect}
    (h : step ata w (.sniping i) = some (w', out)) :
    SniperStrategy.step w.strategy i = some (w'.strategy, out) ∧
      ∀ q, ∀ x ∈ w'.pending q, (touches w.strategy i ≠ some q ∧ x ∈ w.pending q) ∨
        (touches w.strategy i = some q ∧ x ∈ out.filterMap (writeOf ata)) := by
  simp only [step] at h
  split at h
  · next hnone =>
      obtain ⟨⟨s', out'⟩, hs, heq⟩ := Option.map_eq_some_iff.mp h
      obtain ⟨rfl, rfl⟩ := Prod.mk.inj heq
      refine ⟨hs, ?_⟩
      intro q x hx
      rw [hnone]
      exact Or.inl ⟨nofun, hx⟩
  · next r hsome =>
      split at h
      · obtain ⟨⟨s', out'⟩, hs, heq⟩ := Option.map_eq_some_iff.mp h
        obtain ⟨rfl, rfl⟩ := Prod.mk.inj heq
        refine ⟨hs, ?_⟩
        intro q x hx
        rw [hsome]
        rcases mem_schedule hx with ⟨rfl, hnew⟩ | ⟨hq, hold⟩
        · exact Or.inr ⟨rfl, hnew⟩
        · exact Or.inl ⟨fun h => hq (Option.some.inj h).symm, hold⟩
      · cases h

theorem Inv.sniping (hI : Inv ata wallet w) {i : FoxfireSniperStrategy.Input}
    {out : List Effect} (h : step ata w (.sniping i) = some (w', out)) : Inv ata wallet w' := by
  obtain ⟨hs, hpending⟩ := step_sniping h
  obtain ⟨houtcome, hwallet⟩ := step_heap hs
  cases houtcome with
  | same hheap hout =>
      refine ⟨hwallet.trans hI.shared, ?_, ?_⟩
      · rw [hheap]
        exact hI.keys
      · intro q x hx
        rw [hheap]
        rcases hpending q x hx with ⟨-, hold⟩ | ⟨-, hnew⟩
        · exact hI.owned q x hold
        · rw [hout] at hnew
          cases hnew
  | inserted hheap hout =>
      refine ⟨hwallet.trans hI.shared, ?_, ?_⟩
      · intro q m hm
        rw [hheap, List.getElem?_append] at hm
        split at hm
        · exact hI.keys q m hm
        · obtain rfl := List.mem_singleton.mp (List.mem_of_getElem? hm)
          exact hI.shared
      · intro q x hx
        rcases hpending q x hx with ⟨-, hold⟩ | ⟨-, hnew⟩
        · obtain ⟨m, hm, howned⟩ := hI.owned q x hold
          refine ⟨m, ?_, howned⟩
          rw [hheap, List.getElem?_append_left (List.getElem?_eq_some_iff.mp hm).1, hm]
        · rw [hout] at hnew
          cases hnew
  | @delivered r m m' j htouch hfound hhandle hheap =>
      obtain ⟨howner, howned⟩ := handle_frame ata hhandle
      have hself : w'.strategy.heap[r]? = some m' := by
        rw [hheap, List.getElem?_set_self (List.getElem?_eq_some_iff.mp hfound).1]
      refine ⟨hwallet.trans hI.shared, ?_, ?_⟩
      · intro q n hn
        by_cases hq : q = r
        · subst hq
          obtain rfl := Option.some.inj (hself.symm.trans hn)
          exact howner.key.trans (hI.keys q m hfound)
        · rw [hheap, List.getElem?_set_ne (Ne.symm hq)] at hn
          exact hI.keys q n hn
      · intro q x hx
        rcases hpending q x hx with ⟨hother, hold⟩ | ⟨hsame, hnew⟩
        · have hq : r ≠ q := fun h => hother (h ▸ htouch)
          rw [hheap, List.getElem?_set_ne hq]
          exact hI.owned q x hold
        · obtain rfl := Option.some.inj (htouch.symm.trans hsame)
          exact ⟨m', hself, howned x hnew⟩

theorem step_no_write (hp : w.pending r = []) : step ata w (.write r) = none := by
  simp only [step, hp]

/-- A write is due, and it is what is pending. -/
theorem step_write {x : Write} {rest : List Write} (hp : w.pending r = x :: rest) :
    step ata w (.write r) =
      some ({ w with cache := carryOut w.cache x, pending := w.schedule r rest }, []) := by
  simp only [step, hp]

theorem Inv.step (hI : Inv ata wallet w) {m : Move} {out : List Effect}
    (h : step ata w m = some (w', out)) : Inv ata wallet w' := by
  cases m with
  | sniping i => exact hI.sniping h
  | write r =>
      cases hp : w.pending r with
      | nil =>
          rw [step_no_write hp] at h
          cases h
      | cons x rest =>
          rw [step_write hp] at h
          obtain ⟨rfl, -⟩ := Prod.mk.inj (Option.some.inj h)
          refine ⟨hI.shared, hI.keys, ?_⟩
          intro q y hy
          refine hI.owned q y ?_
          rcases mem_schedule hy with ⟨rfl, hrest⟩ | ⟨-, hold⟩
          · rw [hp]
            exact List.mem_cons_of_mem x hrest
          · exact hold
  | other | use | leave =>
      obtain ⟨rfl, -⟩ := Prod.mk.inj (Option.some.inj h)
      exact ⟨hI.shared, hI.keys, hI.owned⟩

theorem inv_run {inst : SniperInstance} {cache : OperationalCache} {users : List Pubkey}
    {moves : List Move} {out : List Effect}
    (h : run (step ata) (World.new inst wallet cache users) moves = some (w, out)) :
    Inv ata wallet w :=
  run_history (J := fun _ w => Inv ata wallet w) (inv_new inst wallet cache users)
    (fun _ _ _ _ _ hI hs => hI.step hs) h

-- ── What a write takes from others ──────────────────────────────────────────

/-- With the write that is due in view. -/
theorem cleansOwn_write {m : Sniper} {x : Write} {rest : List Write}
    (hp : w.pending r = x :: rest) (hm : w.strategy.heap[r]? = some m) :
    CleansOwn ata w (.write r) ↔ OnlyOwn ata w r m (carryOut w.cache x) := by
  constructor
  · intro h
    exact h m _ _ hm (step_write hp)
  · intro h m' w' out hm' hs
    obtain rfl := Option.some.inj (hm.symm.trans hm')
    rw [step_write hp] at hs
    obtain ⟨rfl, -⟩ := Prod.mk.inj (Option.some.inj hs)
    exact h

theorem cleansOwn_removePool {m : Sniper} :
    OnlyOwn ata w r m (carryOut w.cache (.removePool m.storage.pool.id)) ↔
      (w.cache.targetPools m.storage.pool.id ≠ none →
        ¬ UsedByOthers w r m.storage.pool.id) := by
  constructor
  · intro h htarget
    exact (h.pools _ htarget (Function.update_self ..)).2
  · intro h
    refine ⟨fun acc hacc hnone => absurd hnone hacc, ?_⟩
    intro id hid hnone
    by_cases heq : id = m.storage.pool.id
    · subst heq
      exact ⟨rfl, h hid⟩
    · have hsame : (carryOut w.cache (.removePool m.storage.pool.id)).targetPools id =
          w.cache.targetPools id := Function.update_of_ne heq ..
      rw [hsame] at hnone
      exact absurd hnone hid

theorem cleansOwn_dropAccount {m : Sniper} {acc : Pubkey} :
    OnlyOwn ata w r m (carryOut w.cache (.dropAccount acc)) ↔
      (acc ≠ ata m.storage.agentKey.pubkey m.storage.pool.baseMint →
        w.cache.accounts acc = none) := by
  constructor
  · intro h hother
    by_contra hmonitored
    exact hother (h.accounts acc hmonitored (Function.update_self ..))
  · intro h
    refine ⟨?_, fun id hid hnone => absurd hnone hid⟩
    intro k hk hnone
    by_cases heq : k = acc
    · subst heq
      by_contra hother
      exact hk (h hother)
    · have hsame : (carryOut w.cache (.dropAccount acc)).accounts k = w.cache.accounts k :=
        Function.update_of_ne heq ..
      rw [hsame] at hnone
      exact absurd hnone hk

theorem cleansOwn_other {m : Sniper} {x : Write}
    (haccounts : ∀ k, w.cache.accounts k ≠ none → (carryOut w.cache x).accounts k ≠ none)
    (hpools : ∀ k, w.cache.targetPools k ≠ none → (carryOut w.cache x).targetPools k ≠ none) :
    OnlyOwn ata w r m (carryOut w.cache x) :=
  ⟨fun k hk hnone => absurd hnone (haccounts k hk), fun k hk hnone => absurd hnone (hpools k hk)⟩

/-- **A WRITE LEAVES OTHERS ALONE** if and only if it finds nothing of theirs. -/
theorem cleansOwn_iff (hI : Inv ata wallet w)
    (hata : ∀ owner mint, ata owner mint ≠ wallet.pubkey) (m : Move) :
    CleansOwn ata w m ↔ Spares w m := by
  cases m with
  | write r =>
      cases hp : w.pending r with
      | nil =>
          simp only [Spares, hp, iff_true]
          intro m w' out _ hs
          rw [step_no_write hp] at hs
          cases hs
      | cons x rest =>
          obtain ⟨m, hm, howned⟩ := hI.owned r x (by rw [hp]; exact List.mem_cons_self)
          rw [cleansOwn_write hp hm]
          simp only [Spares, hp]
          cases x with
          | updateAccount acc account => exact howned.elim
          | insertPool id details =>
              refine iff_of_true (cleansOwn_other (fun _ h => h) ?_) trivial
              intro k hk
              show Function.update w.cache.targetPools id (some details) k ≠ none
              rw [Function.update_apply]
              split
              · exact Option.some_ne_none details
              · exact hk
          | insertPrice id price =>
              exact iff_of_true (cleansOwn_other (fun _ h => h) fun _ h => h) trivial
          | removePool id =>
              obtain ⟨-, rfl⟩ := howned
              exact cleansOwn_removePool
          | dropAccount acc =>
              rw [cleansOwn_dropAccount, hI.shared]
              obtain ⟨-, rfl | rfl⟩ := howned
              · rw [hI.keys r m hm]
                exact ⟨fun h _ => h (Ne.symm (hata _ _)), fun h _ => h rfl⟩
              · exact iff_of_true (fun h => absurd rfl h) fun h => absurd h (hata _ _)
  | sniping | other | use | leave => exact Iff.rfl

theorem keepsWallet_write {x : Write} {rest : List Write} (hp : w.pending r = x :: rest) :
    KeepsWallet ata w (.write r) ↔ (OthersLive w r →
      w.cache.accounts w.strategy.sniperWallet.pubkey ≠ none →
        (carryOut w.cache x).accounts w.strategy.sniperWallet.pubkey ≠ none) := by
  constructor
  · intro h
    exact h _ _ (step_write hp)
  · intro h w' out hs
    rw [step_write hp] at hs
    obtain ⟨rfl, -⟩ := Prod.mk.inj (Option.some.inj hs)
    exact h

/-- **THE WALLET STAYS MONITORED** if and only if a write that removes it finds it
    unmonitored, or no other snipe live. -/
theorem keepsWallet_iff (hI : Inv ata wallet w) (m : Move) :
    KeepsWallet ata w m ↔ SparesWallet w m := by
  cases m with
  | write r =>
      cases hp : w.pending r with
      | nil =>
          simp only [SparesWallet, hp, iff_true]
          intro w' out hs
          rw [step_no_write hp] at hs
          cases hs
      | cons x rest =>
          rw [keepsWallet_write hp]
          simp only [SparesWallet, hp]
          obtain ⟨m, hm, howned⟩ := hI.owned r x (by rw [hp]; exact List.mem_cons_self)
          cases x with
          | updateAccount acc account => exact howned.elim
          | insertPool | insertPrice | removePool => exact iff_of_true (fun _ h => h) trivial
          | dropAccount acc =>
              show (_ → _ → Function.update w.cache.accounts acc none _ ≠ none) ↔ _
              rw [Function.update_apply]
              constructor
              · rintro h rfl hlive
                by_contra hmonitored
                exact h hlive hmonitored (if_pos rfl)
              · intro h hlive hmonitored
                split
                · next heq =>
                    rw [heq] at hmonitored
                    exact absurd (h heq.symm hlive) hmonitored
                · exact hmonitored
  | sniping | other | use | leave => exact Iff.rfl

/-- What is left alone includes the wallet, which is no token account. -/
theorem CleansOwn.keepsWallet (hI : Inv ata wallet w)
    (hata : ∀ owner mint, ata owner mint ≠ wallet.pubkey) {m : Move}
    (h : CleansOwn ata w m) : KeepsWallet ata w m := by
  rw [keepsWallet_iff hI]
  have hspares := (cleansOwn_iff hI hata m).mp h
  cases m with
  | write r =>
      simp only [Spares] at hspares
      simp only [SparesWallet]
      split
      · next acc rest hp =>
          rw [hp] at hspares
          exact fun heq _ => hspares heq
      · trivial
  | sniping | other | use | leave => trivial

-- ── The claim ───────────────────────────────────────────────────────────────

/-- **A SNIPE'S CLEANUP TAKES NOTHING FROM OTHERS**, in a run beside any other strategies, if
    and only if whenever a write removes the wallet it is not monitored, and whenever one
    removes a target pool nobody else uses it.  For the wallet alone it is enough that it is
    not monitored while another snipe is live.  The wallet signs, so it is no token account. -/
theorem cleanup_iff (ata : Pubkey → Pubkey → Pubkey) (inst : SniperInstance) (wallet : Keypair)
    (cache : OperationalCache) (users : List Pubkey)
    (hata : ∀ owner mint, ata owner mint ≠ wallet.pubkey) (moves : List Move) :
    (Throughout (step ata) (fun _ w m => CleansOwn ata w m ∧ KeepsWallet ata w m)
        (World.new inst wallet cache users) moves ↔
      Throughout (step ata) (fun _ w m => Spares w m) (World.new inst wallet cache users) moves) ∧
    (Throughout (step ata) (fun _ w m => KeepsWallet ata w m)
        (World.new inst wallet cache users) moves ↔
      Throughout (step ata) (fun _ w m => SparesWallet w m)
        (World.new inst wallet cache users) moves) := by
  constructor
  · refine throughout_congr ?_
    intro past m w out hrun
    have hI := inv_run hrun
    rw [← cleansOwn_iff hI hata]
    exact ⟨fun h => h.1, fun h => ⟨h, h.keepsWallet hI hata⟩⟩
  · refine throughout_congr ?_
    intro past m w out hrun
    exact keepsWallet_iff (inv_run hrun) m

-- ── Two snipes ──────────────────────────────────────────────────────────────

/-- Token accounts have odd addresses, wallets even ones. -/
def oddAta (owner mint : Pubkey) : Pubkey := ⟨(owner.bytes + mint.bytes) ||| 1⟩

theorem oddAta_ne (owner mint : Pubkey) : oddAta owner mint ≠ ⟨2⟩ := by
  intro h
  have hbit := congrArg (fun k => k.bytes.getLsbD 0) h
  simp [oddAta] at hbit

def twoAtATime : SniperInstance := ⟨patientInstance, 2, 0, false, false⟩

/-- The pool `n` of the token `n`, at a price of one. -/
def listed (n : Nat) : Move :=
  .sniping (.event (.blockchainEvent (.raydiumNewPoolEvent
    { id := ⟨BitVec.ofNat 256 n⟩, baseMint := ⟨BitVec.ofNat 256 n⟩ }
    ⟨⟨BitVec.ofNat 256 n⟩, 1, 0, 0, 0⟩)) "a pool")

/-- Snipes of the pools `7` and `8` are started, and the price of `7` falls to a quarter: its
    snipe is done. -/
def firstOfTwoEnds : List Move :=
  [listed 7, .sniping fine, .sniping (.insertSnipe 0 0),
    listed 8, .sniping fine, .sniping (.insertSnipe 0 0),
    .sniping (.event (.blockchainEvent (.raydiumHeartbeatPriceUpdate ⟨⟨7⟩, 1/4, 0, 0, 5⟩)) ""),
    .sniping (.fetch 2), .sniping (.deliver 2 1 (priceAt 5 ⟨7⟩ (1/4)))]

def emptyWorld : World :=
  World.new twoAtATime ⟨⟨2⟩, 2⟩ (OperationalCache.new (fun _ => none) (fun _ => none)) []

/-- A test for `Spares`: no other strategy uses any pool. -/
def spares (w : World) : Move → Bool
  | .write r =>
      match w.pending r with
      | .removePool id :: _   => w.users.isEmpty && w.strategy.poolSnipes.entries.all fun e =>
          e.2 = r || (w.strategy.heap[e.2]?).all fun m => m.storage.pool.id ≠ id
      | .dropAccount acc :: _ =>
          acc ≠ w.strategy.sniperWallet.pubkey || (w.cache.accounts acc).isNone
      | _                     => true
  | _ => true

theorem spares_sound {w : World} {m : Move} (h : spares w m = true) : Spares w m := by
  cases m with
  | write r =>
      simp only [spares] at h
      simp only [Spares]
      split
      · next id rest hp =>
          simp only [hp, Bool.and_eq_true, List.isEmpty_iff, List.all_eq_true, Bool.or_eq_true,
            decide_eq_true_eq] at h
          rintro - (⟨q, m, hq, hlive, heq⟩ | huser)
          · obtain ⟨e, he, rfl⟩ := List.mem_map.mp hlive.listed
            rcases h.2 e he with hself | hother
            · exact hq hself
            · rw [hlive.found] at hother
              exact (decide_eq_true_eq.mp hother) heq
          · rw [h.1] at huser
            exact absurd huser List.not_mem_nil
      · next acc rest hp =>
          simp only [hp, Bool.or_eq_true, decide_eq_true_eq, Option.isNone_iff_eq_none] at h
          intro heq
          rcases h with hne | hnone
          · exact absurd heq hne
          · exact hnone
      · trivial
  | sniping | other | use | leave => trivial

/-- The pool `7` is a target, and the token account of its snipe is monitored; then the snipe
    cleans up. -/
def firstOfTwoCleansUp : List Move :=
  [.other (.insertPool ⟨7⟩ default), .other (.updateAccount (oddAta ⟨2⟩ ⟨7⟩) none)]
    ++ firstOfTwoEnds ++ [.write 0, .write 0, .write 0]

/-- Its pool and its token account are removed, and nothing else is. -/
theorem first_snipe_cleans_up :
    (run (step oddAta) emptyWorld firstOfTwoCleansUp).map (fun p =>
      ((p.1.cache.targetPools ⟨7⟩).isSome, (p.1.cache.accounts (oddAta ⟨2⟩ ⟨7⟩)).isSome))
        = some (false, false) ∧
    Throughout (step oddAta) (fun _ w m => CleansOwn oddAta w m ∧ KeepsWallet oddAta w m)
      emptyWorld firstOfTwoCleansUp := by
  have hchecked : (runIf (step oddAta) spares emptyWorld firstOfTwoCleansUp).isSome = true := by
    decide +kernel
  obtain ⟨⟨w, out⟩, hrun⟩ := Option.isSome_iff_exists.mp hchecked
  refine ⟨by decide +kernel, ?_⟩
  refine (cleanup_iff oddAta twoAtATime ⟨⟨2⟩, 2⟩ _ [] oddAta_ne _).1.mpr ?_
  exact throughout_of_runIf (fun _ _ => spares_sound) hrun

/-- What is seen of the world: the accounts to be dropped next by the first snipe, the snipes
    in the map, whether the second one is found, and not finished, and the wallet
    monitored. -/
def view (w : World) : Option Pubkey × List SnipeRef × Bool × Bool × Bool :=
  ((w.pending 0).head?.bind fun
      | .dropAccount acc => some acc
      | _                => none,
    w.strategy.poolSnipes.entries.map Sigma.snd, (w.strategy.heap[1]?).isSome,
    w.strategy.isFinished 1, (w.cache.accounts ⟨2⟩).isSome)

/-- **THE WALLET IS DROPPED** by the first of two snipes that ends: the other one is live. -/
theorem first_snipe_drops_wallet :
    ¬ ∀ (ata : Pubkey → Pubkey → Pubkey) (inst : SniperInstance) (wallet : Keypair)
      (cache : OperationalCache) (users : List Pubkey),
      (∀ owner mint, ata owner mint ≠ wallet.pubkey) → ∀ moves : List Move,
      Throughout (step ata) (fun _ w m => CleansOwn ata w m ∧ KeepsWallet ata w m)
        (World.new inst wallet cache users) moves := by
  intro hclaim
  have hview : (run (step oddAta) emptyWorld
      (.other (.updateAccount ⟨2⟩ none) :: firstOfTwoEnds ++ [.write 0])).map
        (fun p => view p.1) = some (some ⟨2⟩, [1, 0], true, false, true) := by decide +kernel
  obtain ⟨⟨w, out⟩, hrun, hseen⟩ := Option.map_eq_some_iff.mp hview
  obtain ⟨hnext, hrest⟩ := Prod.mk.inj hseen
  obtain ⟨hlisted, hrest⟩ := Prod.mk.inj hrest
  obtain ⟨hfound, hrest⟩ := Prod.mk.inj hrest
  obtain ⟨hgoing, hmonitored⟩ := Prod.mk.inj hrest
  have hI := inv_run hrun
  obtain ⟨m, hm⟩ := Option.isSome_iff_exists.mp hfound
  have hlive : OthersLive w 0 := by
    refine ⟨1, m, by decide, ?_, hm, hgoing⟩
    rw [hlisted]
    decide
  -- the wallet is the next to be dropped
  have hspares := (keepsWallet_iff hI (.write 0)).mp (hclaim oddAta twoAtATime ⟨⟨2⟩, 2⟩ _ []
    oddAta_ne _ _ (.write 0) w out (List.prefix_refl _) hrun).2
  simp only [SparesWallet] at hspares
  split at hspares
  · next acc rest hp =>
      rw [hp] at hnext
      obtain rfl := Option.some.inj hnext
      have hwallet : (⟨2⟩ : Pubkey) = w.strategy.sniperWallet.pubkey := by rw [hI.shared]
      rw [hspares hwallet hlive] at hmonitored
      cases hmonitored
  · next hother =>
      cases hp : w.pending 0 with
      | nil => rw [hp] at hnext; cases hnext
      | cons x rest =>
          rw [hp] at hnext
          cases x with
          | dropAccount acc => exact hother acc rest hp
          | updateAccount | insertPool | insertPrice | removePool => cases hnext

end FoxfireCleanup
