import FoxfireSniper.PriceCacheProofs

/-! # Counting swaps — the feed against the polls

    The collector keeps the reserves of a pool by adding what each parsed swap moves; the
    polling stream and the sniper overwrite them with what they have read from the chain.
    A query reads the base vault, then the quote vault, and its answer is written later;
    no write looks at what the entry already counts.

    The machine follows one monitored pool: its swaps on chain, how many of them the
    collector has come to, and the queries under way.  `counted` is a HISTORY VARIABLE: of
    how many swaps the entry is the result, so far as its last reading was exact.

    * `race_exact`: WHAT ONE MOVE KEEPS.
    * **`reserves_are_prefixes`**: when every overwrite comes from one point of the chain,
      not before the swaps that are counted, the collector only adds the swap that comes
      next, and the pool keeps its decimals, the cached reserves are those of the chain
      after `counted` swaps. -/

namespace FoxfireReserves

open FoxfireTypes FoxfireCache FoxfireParser FoxfireCollector FoxfirePool FoxfirePrices
open NoRollback MachineRun

-- ── True reserves ───────────────────────────────────────────────────────────

/-- The reserves after some swaps. -/
def reservesAfter (pool : RaydiumPool) (start : ℚ × ℚ) (swaps : List Swap) : ℚ × ℚ :=
  (start.1 + (swaps.map (baseDelta pool)).sum, start.2 + (swaps.map (quoteDelta pool)).sum)

theorem reservesAfter_append (pool : RaydiumPool) (start : ℚ × ℚ) (swaps : List Swap)
    (s : Swap) :
    reservesAfter pool start (swaps ++ [s]) =
      ((reservesAfter pool start swaps).1 + baseDelta pool s,
        (reservesAfter pool start swaps).2 + quoteDelta pool s) := by
  simp only [reservesAfter, List.map_append, List.sum_append, List.map_cons, List.map_nil,
    List.sum_singleton, add_assoc]

/-- What a query answers, when its two balances are these. -/
theorem getPoolPrice_eq {nodes : Nodes} {pool : Pubkey} {state : LiquidityStateV4}
    {base quote : UInt64} (hstate : nodes.liquidityState pool = .ok state)
    (hcoin : state.baseMint ≠ wsolMintPubkey)
    (hbase : nodes.tokenAmount state.baseVault = .ok base)
    (hquote : nodes.tokenAmount state.quoteVault = .ok quote)
    (hb : Convertible base state.baseDecimal.toUInt8)
    (hq : Convertible quote state.quoteDecimal.toUInt8) (now : Instant) :
    getPoolPrice nodes now pool = .ok {
      pool := pool
      price := uiAmount quote state.quoteDecimal.toUInt8 / uiAmount base state.baseDecimal.toUInt8
      baseReserve := uiAmount base state.baseDecimal.toUInt8
      quoteReserve := uiAmount quote state.quoteDecimal.toUInt8
      createdAt := now } := by
  rw [getPoolPrice, getPoolReserves_eq hstate hcoin, ownReserves, poolDetails, hbase, ok_bind,
    hquote, ok_bind, tokensToUiAmount_eq, if_pos hb, ok_bind, tokensToUiAmount_eq, if_pos hq]
  rfl

-- ── The race ────────────────────────────────────────────────────────────────

/-- A query of the pool's price: each balance with the number of swaps that the chain had
    executed when it was read. -/
inductive Query where
  | asked
  | gotBase (base : ℚ) (baseAt : Nat)
  | gotBoth (base : ℚ) (baseAt : Nat) (quote : ℚ) (quoteAt : Nat)

structure Race where
  cache   : OperationalCache
  /-- The swaps of the pool that the chain has executed. -/
  chain   : List Swap
  /-- How many of them the collector has come to. -/
  fed     : Nat
  /-- The queries of the polling stream and of the snipers. -/
  queries : List Query
  counted : Nat

inductive Move where
  | trade (s : Swap)
  | ask
  | readBase (query : Nat)
  | readQuote (query : Nat)
  /-- `target_pools_prices.lock().await.insert(..)` -/
  | overwrite (query : Nat) (now : Instant)
  /-- The query has failed. -/
  | giveUp (query : Nat)
  /-- The first write of `set_when_bought_timer`. -/
  | details (nodes : Nodes)
  /-- The collector comes to the next swap. -/
  | feed (now : Instant) (signature : Signature)

variable (pool : RaydiumPool) (start : ℚ × ℚ)

/-- The reserves on chain. -/
def Race.reserves (r : Race) : ℚ × ℚ := reservesAfter pool start r.chain

/-- A query gets a balance. -/
def Race.answer (r : Race) (query : Nat) (q : Query) : Race :=
  { r with queries := r.queries.set query q }

/-- A query is over. -/
def Race.close (r : Race) (query : Nat) : Race :=
  { r with queries := r.queries.eraseIdx query }

/-- The chain executes a swap: a pool pays out no more than it has. -/
def Pays (r : Race) (s : Swap) : Prop :=
  s.poolId = pool.id ∧ 0 ≤ (reservesAfter pool start (r.chain ++ [s])).1 ∧
    0 ≤ (reservesAfter pool start (r.chain ++ [s])).2

instance (r : Race) (s : Swap) : Decidable (Pays pool start r s) :=
  inferInstanceAs (Decidable (_ ∧ _))

def race : Step Race Move BotEvent
  | r, .trade s              =>
      if Pays pool start r s then some ({ r with chain := r.chain ++ [s] }, []) else none
  | r, .ask                  => some ({ r with queries := r.queries ++ [.asked] }, [])
  | r, .readBase query       =>
      match r.queries[query]? with
      | some .asked =>
          some (r.answer query (.gotBase (r.reserves pool start).1 r.chain.length), [])
      | _ => none
  | r, .readQuote query      =>
      match r.queries[query]? with
      | some (.gotBase base baseAt) =>
          some (r.answer query
            (.gotBoth base baseAt (r.reserves pool start).2 r.chain.length), [])
      | _ => none
  | r, .overwrite query now  =>
      match r.queries[query]? with
      | some (.gotBoth base baseAt quote _) =>
          let update : RaydiumPoolPriceUpdate := {
            pool := pool.id
            price := quote / base
            baseReserve := base
            quoteReserve := quote
            createdAt := now }
          some ({ r.close query with
            cache := insertPrice r.cache update
            counted := baseAt }, [])
      | _ => none
  | r, .giveUp query         => some (r.close query, [])
  | r, .details nodes        =>
      some ({ r with cache := refreshDetails nodes pool.id r.cache }, [])
  | r, .feed now signature   =>
      match r.chain[r.fed]? with
      | some s =>
          let (result, cache) := exec (applySwap now signature s) r.cache
          some ({ r with cache := cache, fed := r.fed + 1, counted := r.counted + 1 },
            result.toOption.getD [])
      | none => none

/-- The pool is monitored, with its decimals. -/
def Monitored (cache : OperationalCache) : Prop :=
  ∃ p, cache.targetPools pool.id = some p ∧ p.baseDecimals = pool.baseDecimals ∧
    p.quoteDecimals = pool.quoteDecimals

/-- The move keeps the count: an overwrite has read both balances at one point of the chain,
    not before the swaps that the entry counts, the collector adds the first swap that is
    not counted, at its full amounts, and the pool's details keep its decimals. -/
def InStep (r : Race) : Move → Prop
  | .overwrite query _ => ∀ base baseAt quote quoteAt,
      r.queries[query]? = some (.gotBoth base baseAt quote quoteAt) →
      baseAt = quoteAt ∧
        ((r.cache.targetPoolsPrices pool.id).isSome → r.counted ≤ baseAt)
  | .feed _ _          => (r.cache.targetPoolsPrices pool.id).isSome →
      ∀ s, r.chain[r.fed]? = some s → r.counted = r.fed ∧
        Convertible s.baseAmount pool.baseDecimals ∧
        Convertible s.quoteAmount pool.quoteDecimals
  | .details nodes     => ∀ poolInfo, getPoolDetails nodes pool.id = .ok poolInfo →
      poolInfo.baseDecimals = pool.baseDecimals ∧ poolInfo.quoteDecimals = pool.quoteDecimals
  | _                  => True

-- ── The invariant ───────────────────────────────────────────────────────────

/-- A balance was that of the chain when it was read. -/
def Query.Exact (chain : List Swap) : Query → Prop
  | .asked                             => True
  | .gotBase base baseAt               =>
      baseAt ≤ chain.length ∧ base = (reservesAfter pool start (chain.take baseAt)).1
  | .gotBoth base baseAt quote quoteAt =>
      (baseAt ≤ chain.length ∧ base = (reservesAfter pool start (chain.take baseAt)).1) ∧
      (quoteAt ≤ chain.length ∧ quote = (reservesAfter pool start (chain.take quoteAt)).2)

/-- The cached reserves are those of the chain after the counted swaps. -/
def Exact (r : Race) : Prop :=
  ∀ entry, r.cache.targetPoolsPrices pool.id = some entry →
    r.counted ≤ r.chain.length ∧
    (entry.baseReserve, entry.quoteReserve) = reservesAfter pool start (r.chain.take r.counted)

structure Inv (r : Race) : Prop where
  monitored : Monitored pool r.cache
  own       : ∀ s ∈ r.chain, s.poolId = pool.id
  queries   : ∀ q ∈ r.queries, q.Exact pool start r.chain
  exact     : Exact pool start r

variable {pool : RaydiumPool} {start : ℚ × ℚ}

theorem take_append_le {chain : List Swap} {n : Nat} (h : n ≤ chain.length) (s : Swap) :
    (chain ++ [s]).take n = chain.take n :=
  List.take_append_of_le_length h

/-- What was read stays exact when the chain goes on. -/
theorem Query.Exact.append {chain : List Swap} {q : Query} (h : q.Exact pool start chain)
    (s : Swap) : q.Exact pool start (chain ++ [s]) := by
  have hlen : ∀ n, n ≤ chain.length → n ≤ (chain ++ [s]).length := by
    intro n hn
    rw [List.length_append]
    exact Nat.le_add_right_of_le hn
  cases q with
  | asked => exact trivial
  | gotBase base baseAt =>
      refine ⟨hlen _ h.1, ?_⟩
      rw [take_append_le h.1]
      exact h.2
  | gotBoth base baseAt quote quoteAt =>
      refine ⟨⟨hlen _ h.1.1, ?_⟩, hlen _ h.2.1, ?_⟩
      · rw [take_append_le h.1.1]
        exact h.1.2
      · rw [take_append_le h.2.1]
        exact h.2.2

/-- The next swap of the chain. -/
theorem reservesAfter_take_succ {chain : List Swap} {n : Nat} {s : Swap}
    (h : chain[n]? = some s) :
    reservesAfter pool start (chain.take (n + 1)) =
      ((reservesAfter pool start (chain.take n)).1 + baseDelta pool s,
        (reservesAfter pool start (chain.take n)).2 + quoteDelta pool s) := by
  rw [List.take_add_one, h, Option.toList_some, reservesAfter_append]

theorem close_exact {r : Race} (h : ∀ q ∈ r.queries, q.Exact pool start r.chain)
    (query : Nat) : ∀ q ∈ (r.close query).queries, q.Exact pool start r.chain := by
  intro q hq
  exact h q (List.mem_of_mem_eraseIdx hq)

theorem answer_exact {r : Race} (h : ∀ q ∈ r.queries, q.Exact pool start r.chain)
    {query : Nat} {a : Query} (ha : a.Exact pool start r.chain) :
    ∀ q ∈ (r.answer query a).queries, q.Exact pool start r.chain := by
  intro q hq
  rcases List.mem_or_eq_of_mem_set hq with hq | rfl
  · exact h q hq
  · exact ha

/-- A swap moves the reserves by the decimals of its pool, and by nothing else of it. -/
theorem deltas_congr {p : RaydiumPool} (hb : p.baseDecimals = pool.baseDecimals)
    (hq : p.quoteDecimals = pool.quoteDecimals) (s : Swap) :
    baseDelta p s = baseDelta pool s ∧ quoteDelta p s = quoteDelta pool s := by
  rw [baseDelta, baseDelta, quoteDelta, quoteDelta, hb, hq]
  exact ⟨rfl, rfl⟩

/-- The details of the pool are written. -/
theorem details_monitored {cache : OperationalCache} (h : Monitored pool cache) {nodes : Nodes}
    (hkeeps : ∀ poolInfo, getPoolDetails nodes pool.id = .ok poolInfo →
      poolInfo.baseDecimals = pool.baseDecimals ∧
        poolInfo.quoteDecimals = pool.quoteDecimals) :
    Monitored pool (refreshDetails nodes pool.id cache) := by
  rw [refreshDetails]
  cases hd : getPoolDetails nodes pool.id with
  | error stop => exact h
  | ok poolInfo => exact ⟨poolInfo, Function.update_self .., hkeeps poolInfo hd⟩

theorem refreshDetails_prices (nodes : Nodes) (id : Pubkey) (cache : OperationalCache) :
    (refreshDetails nodes id cache).targetPoolsPrices = cache.targetPoolsPrices := by
  rw [refreshDetails]
  cases getPoolDetails nodes id <;> rfl

/-- The collector's step: the entry moves with the swap. -/
theorem feed_exact {r : Race} (hinv : Inv pool start r) {now : Instant}
    {signature : Signature} {s : Swap} (hs : r.chain[r.fed]? = some s)
    (hin : InStep pool r (.feed now signature)) :
    Inv pool start { r with
      cache := (exec (applySwap now signature s) r.cache).2
      fed := r.fed + 1
      counted := r.counted + 1 } := by
  have hid : s.poolId = pool.id := hinv.own s (List.mem_of_getElem? hs)
  obtain ⟨p, hp, hpb, hpq⟩ := hinv.monitored
  by_cases hreach : ∃ pool' entry, Reaches r.cache s pool' entry
  · obtain ⟨pool', entry, hreach⟩ := hreach
    have hmonitored := hreach.monitored
    rw [hid, hp] at hmonitored
    obtain rfl := Option.some.inj hmonitored
    obtain ⟨hbase, hquote⟩ := deltas_congr hpb hpq s
    have hpriced := hreach.priced
    rw [hid] at hpriced
    obtain ⟨hcount, -, -⟩ := hin (by rw [hpriced]; rfl) s hs
    obtain ⟨hle, hexact⟩ := hinv.exact entry hpriced
    rw [applySwap_reaches hreach]
    refine ⟨?_, hinv.own, hinv.queries, ?_⟩
    · show Monitored pool (shiftPrices r.cache s)
      rw [Monitored, shiftPrices_targetPools]
      exact hinv.monitored
    · intro entry' hentry'
      have hself := shiftPrices_self hreach.monitored
      rw [hid, hpriced] at hself
      obtain rfl := Option.some.inj (hself.symm.trans hentry')
      have hlt : r.fed < r.chain.length := (List.getElem?_eq_some_iff.mp hs).1
      refine ⟨?_, ?_⟩
      · show r.counted + 1 ≤ r.chain.length
        rw [hcount]
        exact hlt
      · show (_, _) = reservesAfter pool start (r.chain.take (r.counted + 1))
        rw [hcount, reservesAfter_take_succ hs, ← hcount, ← hexact, ← hbase, ← hquote]
        rfl
  · rw [applySwap_misses (fun pool' entry hr => hreach ⟨pool', entry, hr⟩)]
    refine ⟨hinv.monitored, hinv.own, hinv.queries, ?_⟩
    intro entry hentry
    -- the entry would be reached
    have hpriced : r.cache.targetPoolsPrices pool.id = some entry := hentry
    obtain ⟨-, hb, hq⟩ := hin (by rw [hpriced]; rfl) s hs
    refine absurd ⟨p, entry, ?_, ?_, ?_, ?_⟩ hreach
    · rw [hid]
      exact hp
    · rw [hid]
      exact hpriced
    · rw [hpb]
      exact hb
    · rw [hpq]
      exact hq

/-- The chain goes on. -/
theorem trade_exact {r : Race} (hinv : Inv pool start r) {s : Swap}
    (hpays : Pays pool start r s) : Inv pool start { r with chain := r.chain ++ [s] } := by
  refine ⟨hinv.monitored, ?_, fun q hq => (hinv.queries q hq).append s, ?_⟩
  · intro t ht
    rcases List.mem_append.mp ht with ht | ht
    · exact hinv.own t ht
    · obtain rfl := List.mem_singleton.mp ht
      exact hpays.1
  · intro entry hentry
    obtain ⟨hle, hexact⟩ := hinv.exact entry hentry
    refine ⟨?_, ?_⟩
    · show r.counted ≤ (r.chain ++ [s]).length
      rw [List.length_append]
      exact Nat.le_add_right_of_le hle
    · show _ = reservesAfter pool start ((r.chain ++ [s]).take r.counted)
      rw [take_append_le hle]
      exact hexact

/-- What was read at one point of the chain is written. -/
theorem overwrite_exact {r : Race} (hinv : Inv pool start r) {query : Nat} {base quote : ℚ}
    {baseAt quoteAt : Nat} (hq : r.queries[query]? = some (.gotBoth base baseAt quote quoteAt))
    (hat : baseAt = quoteAt) (now : Instant) :
    Inv pool start { r.close query with
      cache := insertPrice r.cache ⟨pool.id, quote / base, base, quote, now⟩
      counted := baseAt } := by
  subst hat
  obtain ⟨⟨hle, hbase⟩, -, hquote⟩ := hinv.queries _ (List.mem_of_getElem? hq)
  refine ⟨hinv.monitored, hinv.own, close_exact hinv.queries query, ?_⟩
  intro entry hentry
  rw [insertPrice_self r.cache ⟨pool.id, _, _, _, _⟩] at hentry
  obtain rfl := Option.some.inj hentry
  exact ⟨hle, Prod.ext hbase hquote⟩

/-- A move, and what it finds. -/
inductive Moved (pool : RaydiumPool) (start : ℚ × ℚ) (r : Race) : Move → Race → Prop where
  | traded {s : Swap} (hpays : Pays pool start r s) :
      Moved pool start r (.trade s) { r with chain := r.chain ++ [s] }
  | asked : Moved pool start r .ask { r with queries := r.queries ++ [.asked] }
  | gotBase {query : Nat} (hq : r.queries[query]? = some .asked) :
      Moved pool start r (.readBase query)
        (r.answer query (.gotBase (r.reserves pool start).1 r.chain.length))
  | gotQuote {query baseAt : Nat} {base : ℚ}
      (hq : r.queries[query]? = some (.gotBase base baseAt)) :
      Moved pool start r (.readQuote query)
        (r.answer query (.gotBoth base baseAt (r.reserves pool start).2 r.chain.length))
  | overwritten {query baseAt quoteAt : Nat} {base quote : ℚ} {now : Instant}
      (hq : r.queries[query]? = some (.gotBoth base baseAt quote quoteAt)) :
      Moved pool start r (.overwrite query now)
        { r.close query with
          cache := insertPrice r.cache ⟨pool.id, quote / base, base, quote, now⟩
          counted := baseAt }
  | gaveUp {query : Nat} : Moved pool start r (.giveUp query) (r.close query)
  | detailed {nodes : Nodes} :
      Moved pool start r (.details nodes)
        { r with cache := refreshDetails nodes pool.id r.cache }
  | fed {now : Instant} {signature : Signature} {s : Swap} (hs : r.chain[r.fed]? = some s) :
      Moved pool start r (.feed now signature)
        { r with
          cache := (exec (applySwap now signature s) r.cache).2
          fed := r.fed + 1
          counted := r.counted + 1 }

/-- **INVERSION**: a move is one of these. -/
theorem race_cases {r r' : Race} {m : Move} {out : List BotEvent}
    (h : race pool start r m = some (r', out)) : Moved pool start r m r' := by
  cases m with
  | trade s =>
      rw [race] at h
      split at h
      · next hpays =>
          obtain ⟨rfl, -⟩ := Prod.mk.inj (Option.some.inj h)
          exact .traded hpays
      · cases h
  | ask =>
      obtain ⟨rfl, -⟩ := Prod.mk.inj (Option.some.inj h)
      exact .asked
  | readBase query =>
      rw [race] at h
      split at h
      · next hq =>
          obtain ⟨rfl, -⟩ := Prod.mk.inj (Option.some.inj h)
          exact .gotBase hq
      · cases h
  | readQuote query =>
      rw [race] at h
      split at h
      · next hq =>
          obtain ⟨rfl, -⟩ := Prod.mk.inj (Option.some.inj h)
          exact .gotQuote hq
      · cases h
  | overwrite query now =>
      rw [race] at h
      split at h
      · next hq =>
          obtain ⟨rfl, -⟩ := Prod.mk.inj (Option.some.inj h)
          exact .overwritten hq
      · cases h
  | giveUp query =>
      obtain ⟨rfl, -⟩ := Prod.mk.inj (Option.some.inj h)
      exact .gaveUp
  | details nodes =>
      obtain ⟨rfl, -⟩ := Prod.mk.inj (Option.some.inj h)
      exact .detailed
  | feed now signature =>
      rw [race] at h
      split at h
      · next hs =>
          obtain ⟨rfl, -⟩ := Prod.mk.inj (Option.some.inj h)
          exact .fed hs
      · cases h

/-- **WHAT ONE MOVE KEEPS.** -/
theorem race_exact {r r' : Race} {m : Move} {out : List BotEvent} (hinv : Inv pool start r)
    (hin : InStep pool r m) (hstep : race pool start r m = some (r', out)) :
    Inv pool start r' := by
  cases race_cases hstep with
  | traded hpays => exact trade_exact hinv hpays
  | asked =>
      refine ⟨hinv.monitored, hinv.own, ?_, hinv.exact⟩
      intro q hq
      rcases List.mem_append.mp hq with hq | hq
      · exact hinv.queries q hq
      · obtain rfl := List.mem_singleton.mp hq
        exact trivial
  | gotBase hq =>
      refine ⟨hinv.monitored, hinv.own, answer_exact hinv.queries ⟨le_rfl, ?_⟩, hinv.exact⟩
      rw [List.take_length]
      rfl
  | gotQuote hq =>
      have hread := hinv.queries _ (List.mem_of_getElem? hq)
      refine ⟨hinv.monitored, hinv.own,
        answer_exact hinv.queries ⟨hread, le_rfl, ?_⟩, hinv.exact⟩
      rw [List.take_length]
      rfl
  | overwritten hq => exact overwrite_exact hinv hq (hin _ _ _ _ hq).1 _
  | gaveUp => exact ⟨hinv.monitored, hinv.own, close_exact hinv.queries _, hinv.exact⟩
  | @detailed nodes =>
      refine ⟨details_monitored hinv.monitored hin, hinv.own, hinv.queries, ?_⟩
      intro entry hentry
      have hentry' : (refreshDetails nodes pool.id r.cache).targetPoolsPrices pool.id =
          some entry := hentry
      rw [refreshDetails_prices] at hentry'
      exact hinv.exact entry hentry'
  | fed hs => exact feed_exact hinv hs hin

/-- No swap that the entry counts is forgotten. -/
theorem counted_le {r r' : Race} {m : Move} {out : List BotEvent}
    (hin : InStep pool r m) (hpriced : (r.cache.targetPoolsPrices pool.id).isSome)
    (hstep : race pool start r m = some (r', out)) : r.counted ≤ r'.counted := by
  cases race_cases hstep with
  | traded | asked | gotBase | gotQuote | gaveUp | detailed => exact le_rfl
  | overwritten hq => exact (hin _ _ _ _ hq).2 hpriced
  | fed => exact Nat.le_succ r.counted

-- ── Runs ────────────────────────────────────────────────────────────────────

/-- The pool is monitored, and its entry, if there is one, has the reserves of the chain. -/
structure Started (pool : RaydiumPool) (start : ℚ × ℚ) (cache : OperationalCache) : Prop where
  monitored : cache.targetPools pool.id = some pool
  priced    : ∀ entry, cache.targetPoolsPrices pool.id = some entry →
    (entry.baseReserve, entry.quoteReserve) = start

def begin (cache : OperationalCache) : Race where
  cache := cache
  chain := []
  fed := 0
  queries := []
  counted := 0

/-- The cached reserves are those of the chain after some of its swaps. -/
def Prefixed (pool : RaydiumPool) (start : ℚ × ℚ) (r : Race) : Prop :=
  ∀ entry, r.cache.targetPoolsPrices pool.id = some entry →
    ∃ n, n ≤ r.chain.length ∧
      (entry.baseReserve, entry.quoteReserve) = reservesAfter pool start (r.chain.take n)

/-- **THE CACHED RESERVES ARE THOSE OF THE CHAIN AFTER SOME OF ITS SWAPS**, in every state
    of every run whose moves keep the count; and they never go back: each further such move
    counts at least the swaps that were counted. -/
theorem reserves_are_prefixes {cache : OperationalCache} {r : Race}
    (hstart : Started pool start cache)
    (h : Reach (race pool start) (InStep pool) (begin cache) r) :
    Prefixed pool start r ∧ ∀ m r' out, InStep pool r m →
      race pool start r m = some (r', out) →
      ∀ entry entry', r.cache.targetPoolsPrices pool.id = some entry →
        r'.cache.targetPoolsPrices pool.id = some entry' →
        ∃ n n', n ≤ n' ∧
          (entry.baseReserve, entry.quoteReserve) = reservesAfter pool start (r.chain.take n) ∧
          (entry'.baseReserve, entry'.quoteReserve) =
            reservesAfter pool start (r'.chain.take n') := by
  have hinv : Inv pool start r := by
    refine Reach.invariant ?_ ?_ h
    · refine ⟨⟨pool, hstart.monitored, rfl, rfl⟩, fun s hs => (by cases hs),
        fun q hq => (by cases hq), ?_⟩
      intro entry hentry
      refine ⟨le_rfl, ?_⟩
      rw [hstart.priced entry hentry]
      exact Prod.ext (add_zero _).symm (add_zero _).symm
    · intro r m r' out hinv hin hstep
      exact race_exact hinv hin hstep
  refine ⟨fun entry hentry => ⟨r.counted, hinv.exact entry hentry⟩, ?_⟩
  intro m r' out hin hstep entry entry' hentry hentry'
  have hpriced : (r.cache.targetPoolsPrices pool.id).isSome := by
    rw [hentry]
    rfl
  exact ⟨r.counted, r'.counted, counted_le hin hpriced hstep, (hinv.exact entry hentry).2,
    ((race_exact hinv hin hstep).exact entry' hentry').2⟩

-- ── A poll that waits for the feed, and one that does not ───────────────────

/-- The test for `InStep`. -/
def inStep (pool : RaydiumPool) (r : Race) : Move → Bool
  | .overwrite query _ =>
      match r.queries[query]? with
      | some (.gotBoth _ baseAt _ quoteAt) =>
          baseAt == quoteAt &&
            (!(r.cache.targetPoolsPrices pool.id).isSome || decide (r.counted ≤ baseAt))
      | _ => true
  | .feed _ _          =>
      !(r.cache.targetPoolsPrices pool.id).isSome ||
        match r.chain[r.fed]? with
        | some s =>
            r.counted == r.fed && (decide (Convertible s.baseAmount pool.baseDecimals) &&
              decide (Convertible s.quoteAmount pool.quoteDecimals))
        | none   => true
  | .details nodes     =>
      match getPoolDetails nodes pool.id with
      | .ok poolInfo => poolInfo.baseDecimals == pool.baseDecimals &&
          poolInfo.quoteDecimals == pool.quoteDecimals
      | .error _     => true
  | _                  => true

theorem inStep_sound (r : Race) (m : Move) (h : inStep pool r m = true) : InStep pool r m := by
  cases m with
  | overwrite query now =>
      intro base baseAt quote quoteAt hq
      rw [inStep, hq, Bool.and_eq_true, Bool.or_eq_true] at h
      refine ⟨beq_iff_eq.mp h.1, ?_⟩
      intro hsome
      rw [hsome] at h
      exact of_decide_eq_true (h.2.resolve_left Bool.false_ne_true)
  | feed now signature =>
      intro hsome s hs
      rw [inStep, hsome, hs, Bool.not_true, Bool.false_or, Bool.and_eq_true,
        Bool.and_eq_true] at h
      exact ⟨beq_iff_eq.mp h.1, of_decide_eq_true h.2.1, of_decide_eq_true h.2.2⟩
  | details nodes =>
      intro poolInfo hinfo
      rw [inStep, hinfo, Bool.and_eq_true] at h
      exact ⟨beq_iff_eq.mp h.1, beq_iff_eq.mp h.2⟩
  | trade s => exact trivial
  | ask => exact trivial
  | readBase query => exact trivial
  | readQuote query => exact trivial
  | giveUp query => exact trivial

/-- Half of the tokens are bought, and sold again. -/
def halfBought : Swap := ⟨default, ⟨104⟩, 100000000000, 50, .buy⟩
def halfSold : Swap := ⟨default, ⟨104⟩, 100000000000, 50, .sell⟩

def quietStart : OperationalCache := OperationalCache.new quietPools quietPrices

theorem quietStart_started : Started quietPool (100, 100) quietStart := by
  refine ⟨rfl, ?_⟩
  intro entry hentry
  obtain rfl : (⟨⟨104⟩, 1, 100, 100, 0⟩ : RaydiumPoolPriceUpdate) = entry := Option.some.inj hentry
  rfl

/-- The cached reserves, and the swaps on chain. -/
def viewRace (p : Option (Race × List BotEvent)) : Option (Option (ℚ × ℚ) × List Swap) :=
  p.map fun q => ((q.1.cache.targetPoolsPrices ⟨104⟩).map
    fun e => (e.baseReserve, e.quoteReserve), q.1.chain)

theorem viewRace_eq_some {p : Option (Race × List BotEvent)} {reserves : ℚ × ℚ}
    {chain : List Swap} (h : viewRace p = some (some reserves, chain)) :
    ∃ r out entry, p = some (r, out) ∧ r.chain = chain ∧
      r.cache.targetPoolsPrices ⟨104⟩ = some entry ∧
      (entry.baseReserve, entry.quoteReserve) = reserves := by
  obtain ⟨⟨r, out⟩, hp, heq⟩ := Option.map_eq_some_iff.mp h
  obtain ⟨hentry, hchain⟩ := Prod.mk.inj heq
  obtain ⟨entry, he, hres⟩ := Option.map_eq_some_iff.mp hentry
  exact ⟨r, out, entry, hp, hchain, he, hres⟩

/-- The sniper looks the pool up once the collector has come to the purchase. -/
theorem poll_after_feed_exact :
    ∃ r entry, r.chain = [halfBought, halfSold] ∧
      r.cache.targetPoolsPrices ⟨104⟩ = some entry ∧
      (entry.baseReserve, entry.quoteReserve) = (100, 100) ∧
      Prefixed quietPool (100, 100) r := by
  have hview : viewRace (runIf (race quietPool (100, 100)) (inStep quietPool) (begin quietStart)
      [.trade halfBought, .feed 1 default, .details (quietNodes 50 200000000000), .ask,
        .readBase 0, .readQuote 0, .overwrite 0 1, .trade halfSold, .feed 2 default]) =
      some (some (100, 100), [halfBought, halfSold]) := by decide +kernel
  obtain ⟨r, out, entry, hrun, hchain, hentry, hres⟩ := viewRace_eq_some hview
  exact ⟨r, entry, hchain, hentry, hres,
    (reserves_are_prefixes quietStart_started (reach_of_runIf inStep_sound hrun)).1⟩

/-- **A SWAP IS COUNTED TWICE**: a poll reads the reserves after the purchase, and the
    collector comes to the purchase after the poll's answer is written. -/
theorem swap_counted_twice :
    ¬ ∀ (pool : RaydiumPool) (start : ℚ × ℚ) (cache : OperationalCache) (r : Race),
      Started pool start cache → Reach (race pool start) Always (begin cache) r →
      Prefixed pool start r := by
  intro hclaim
  have hview : viewRace (run (race quietPool (100, 100)) (begin quietStart)
      [.ask, .trade halfBought, .readBase 0, .readQuote 0, .overwrite 0 1, .feed 1 default]) =
      some (some (0, 300), [halfBought]) := by decide +kernel
  obtain ⟨r, out, entry, hrun, hchain, hentry, hres⟩ := viewRace_eq_some hview
  obtain ⟨n, hn, heq⟩ := hclaim _ _ _ _ quietStart_started
    (reach_of_run (fun _ _ => trivial) hrun) entry hentry
  rw [hchain] at hn heq
  rw [hres] at heq
  have hcases : n = 0 ∨ n = 1 := Nat.le_one_iff_eq_zero_or_eq_one.mp hn
  rcases hcases with rfl | rfl
  · exact absurd heq (by decide +kernel)
  · exact absurd heq (by decide +kernel)

end FoxfireReserves
