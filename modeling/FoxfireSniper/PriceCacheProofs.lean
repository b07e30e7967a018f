import FoxfireSniper.MachineRunProofs
import FoxfireSniper.PoolOrientationProofs

/-! # What the price cache says about a pool

    `target_pools_prices` keeps a price beside the two reserves that make it.  Three
    writers share an entry: the polling stream of
    `src/collectors/prices_heartbeat_streamer.rs` and the sniper after a purchase
    overwrite it with what the nodes answer; the collector moves the two reserves by the
    amounts of each parsed swap, keeps the price, and looks at the signs afterwards.

    Every write takes the lock for itself, so a step of the machine is one write, and a
    call of the collector is a step for each of its swaps (`applySwaps_run`).

    * `swap_coherent_iff`: A SWAP KEEPS ALL ENTRIES COHERENT exactly when it is on course,
      and `onCourse_iff`: at a positive price only a swap of nothing is.
    * **`prices_coherent`**: in runs whose swaps are on course every entry of every state is
      coherent. -/

namespace FoxfirePrices

open FoxfireTypes FoxfireCache FoxfireParser FoxfireCollector FoxfirePool NoRollback MachineRun

-- ── Writers ─────────────────────────────────────────────────────────────────

/-- `target_pools_prices.lock().await.insert(pool_price.pool, pool_price)` -/
def insertPrice (cache : OperationalCache) (update : RaydiumPoolPriceUpdate) : OperationalCache :=
  { cache with
    targetPoolsPrices := Function.update cache.targetPoolsPrices update.pool (some update) }

theorem insertPrice_self (cache : OperationalCache) (update : RaydiumPoolPriceUpdate) :
    (insertPrice cache update).targetPoolsPrices update.pool = some update :=
  Function.update_self ..

theorem insertPrice_other (cache : OperationalCache) {update : RaydiumPoolPriceUpdate}
    {pool : Pubkey} (h : pool ≠ update.pool) :
    (insertPrice cache update).targetPoolsPrices pool = cache.targetPoolsPrices pool :=
  Function.update_of_ne h ..

/-- The body of the loop of `start_prices_stream`, for one pool.  A query that fails is
    skipped, and one that panics ends the stream; both write nothing. -/
def pollPrice (nodes : Nodes) (now : Instant) (pool : Pubkey) (cache : OperationalCache) :
    OperationalCache :=
  match getPoolPrice nodes now pool with
  | .ok poolPriceUpdate => insertPrice cache poolPriceUpdate
  | .error _            => cache

/-- The first write of `set_when_bought_timer`. -/
def refreshDetails (nodes : Nodes) (pool : Pubkey) (cache : OperationalCache) :
    OperationalCache :=
  match getPoolDetails nodes pool with
  | .ok poolInfo =>
      { cache with targetPools := Function.update cache.targetPools pool (some poolInfo) }
  | .error _     => cache

/-- Its second write. -/
def refreshPrice (nodes : Nodes) (now : Instant) (pool : Pubkey) (cache : OperationalCache) :
    OperationalCache :=
  match getPoolPrice nodes now pool with
  | .ok poolPrice => insertPrice cache poolPrice
  | .error _      => cache

/-- `target_pools.write().await.remove(&pool.id)`, when a sniper is done. -/
def forgetPool (pool : Pubkey) (cache : OperationalCache) : OperationalCache :=
  { cache with targetPools := Function.update cache.targetPools pool none }

/-- A write of one of the tasks. -/
inductive Write where
  | poll (nodes : Nodes) (now : Instant) (pool : Pubkey)
  | details (nodes : Nodes) (pool : Pubkey)
  | price (nodes : Nodes) (now : Instant) (pool : Pubkey)
  | forget (pool : Pubkey)
  /-- The collector comes to a parsed swap. -/
  | swap (now : Instant) (signature : Signature) (parsedSwap : Swap)

def writer : Step OperationalCache Write BotEvent
  | cache, .poll nodes now pool  => some (pollPrice nodes now pool cache, [])
  | cache, .details nodes pool   => some (refreshDetails nodes pool cache, [])
  | cache, .price nodes now pool => some (refreshPrice nodes now pool cache, [])
  | cache, .forget pool          => some (forgetPool pool cache, [])
  | cache, .swap now signature s =>
      let (result, cache') := exec (applySwap now signature s) cache
      some (cache', result.toOption.getD [])

/-- **A CALL OF THE COLLECTOR IS A RUN**: its swaps are steps, up to the one it stops at. -/
theorem applySwaps_run (now : Instant) (signature : Signature) :
    ∀ (swaps : List Swap) (cache : OperationalCache),
      ∃ done events, done <+: swaps ∧
        run writer cache (done.map (Write.swap now signature)) =
          some ((exec (applySwaps now signature swaps) cache).2, events) := by
  intro swaps
  induction swaps with
  | nil => intro cache; exact ⟨[], [], List.prefix_rfl, rfl⟩
  | cons s swaps ih =>
      intro cache
      rw [applySwaps]
      cases h : exec (applySwap now signature s) cache with
      | mk result cache' =>
          have hstep : writer cache (.swap now signature s) =
              some (cache', result.toOption.getD []) := by
            rw [writer, h]
          cases result with
          | error stop =>
              refine ⟨[s], [], List.prefix_append [s] swaps, ?_⟩
              rw [exec_bind_error h, List.map_cons, run_cons, hstep]
              rfl
          | ok event =>
              obtain ⟨done, events, hdone, hrun⟩ := ih cache'
              refine ⟨s :: done, event ++ events, (List.prefix_cons_inj s).mpr hdone, ?_⟩
              rw [exec_bind_ok h, List.map_cons, run_cons, hstep, Option.bind_some, hrun,
                Option.map_some]
              cases hrest : exec (applySwaps now signature swaps) cache' with
              | mk rest cache'' =>
                  cases rest with
                  | error stop =>
                      rw [exec_bind_error hrest]
                      rfl
                  | ok events' =>
                      rw [exec_bind_ok hrest]
                      rfl

-- ── What a swap writes ──────────────────────────────────────────────────────

/-- A swap reaches the entry of its pool. -/
structure Reaches (cache : OperationalCache) (s : Swap) (pool : RaydiumPool)
    (entry : RaydiumPoolPriceUpdate) : Prop where
  monitored        : cache.targetPools s.poolId = some pool
  priced           : cache.targetPoolsPrices s.poolId = some entry
  baseConvertible  : Convertible s.baseAmount pool.baseDecimals
  quoteConvertible : Convertible s.quoteAmount pool.quoteDecimals

/-- It is written, whatever is found about it afterwards. -/
theorem applySwap_reaches {cache : OperationalCache} {s : Swap} {pool : RaydiumPool}
    {entry : RaydiumPoolPriceUpdate} (h : Reaches cache s pool entry) (now : Instant)
    (signature : Signature) :
    (exec (applySwap now signature s) cache).2 = shiftPrices cache s := by
  obtain ⟨event, heq⟩ := applySwap_converted now signature h.monitored h.priced
    h.baseConvertible h.quoteConvertible
  rw [heq]
  split
  · rfl
  · split <;> rfl

/-- A swap that does not reach an entry writes nothing. -/
theorem applySwap_misses {cache : OperationalCache} {s : Swap}
    (h : ∀ pool entry, ¬ Reaches cache s pool entry) (now : Instant) (signature : Signature) :
    (exec (applySwap now signature s) cache).2 = cache := by
  rw [applySwap, exec_get_bind]
  cases hpool : cache.targetPools s.poolId with
  | none => rfl
  | some pool =>
      dsimp only
      cases hentry : cache.targetPoolsPrices s.poolId with
      | none => rfl
      | some entry =>
          rw [tokensToUiAmount_eq, tokensToUiAmount_eq]
          by_cases hb : Convertible s.baseAmount pool.baseDecimals
          · by_cases hq : Convertible s.quoteAmount pool.quoteDecimals
            · exact absurd ⟨hpool, hentry, hb, hq⟩ (h pool entry)
            · rw [if_pos hb, if_neg hq]
              rfl
          · rw [if_neg hb]
            rfl

-- ── Coherence ───────────────────────────────────────────────────────────────

/-- An entry whose price is the price of its reserves. -/
structure Coherent (entry : RaydiumPoolPriceUpdate) : Prop where
  base_nonneg  : 0 ≤ entry.baseReserve
  quote_nonneg : 0 ≤ entry.quoteReserve
  price        : entry.price * entry.baseReserve = entry.quoteReserve

def PricesCoherent (cache : OperationalCache) : Prop :=
  ∀ pool entry, cache.targetPoolsPrices pool = some entry → Coherent entry

/-- The swap moves along the cached price, and leaves something on both sides. -/
structure OnCourse (pool : RaydiumPool) (s : Swap) (entry : RaydiumPoolPriceUpdate) : Prop where
  base_nonneg  : 0 ≤ entry.baseReserve + baseDelta pool s
  quote_nonneg : 0 ≤ entry.quoteReserve + quoteDelta pool s
  price        : entry.price * baseDelta pool s = quoteDelta pool s

/-- **WHAT A SWAP KEEPS.** -/
theorem coherent_shiftEntry_iff {entry : RaydiumPoolPriceUpdate} (h : Coherent entry)
    (pool : RaydiumPool) (s : Swap) :
    Coherent (shiftEntry pool s entry) ↔ OnCourse pool s entry := by
  have hprice : entry.price * (entry.baseReserve + baseDelta pool s) =
      entry.quoteReserve + quoteDelta pool s ↔
      entry.price * baseDelta pool s = quoteDelta pool s := by
    rw [mul_add, h.price, add_right_inj]
  constructor
  · intro hc
    exact ⟨hc.base_nonneg, hc.quote_nonneg, hprice.mp hc.price⟩
  · intro hc
    exact ⟨hc.base_nonneg, hc.quote_nonneg, hprice.mpr hc.price⟩

theorem uiAmount_nonneg (amount : UInt64) (decimals : UInt8) : 0 ≤ uiAmount amount decimals :=
  div_nonneg (Nat.cast_nonneg _) (pow_nonneg (by norm_num) _)

/-- **ONLY A SWAP OF NOTHING IS ON COURSE**, at a positive price: the reserves of a pool
    move in opposite directions. -/
theorem onCourse_iff {entry : RaydiumPoolPriceUpdate} (h : Coherent entry)
    (hprice : 0 < entry.price) (pool : RaydiumPool) (s : Swap) :
    OnCourse pool s entry ↔ uiAmount s.baseAmount pool.baseDecimals = 0 ∧
      uiAmount s.quoteAmount pool.quoteDecimals = 0 := by
  have hbase := uiAmount_nonneg s.baseAmount pool.baseDecimals
  have hquote := uiAmount_nonneg s.quoteAmount pool.quoteDecimals
  constructor
  · intro hon
    have hmove := hon.price
    rw [baseDelta, quoteDelta] at hmove
    cases hd : s.tradeDirection with
    | buy =>
        rw [hd, updatedBaseReserve, updatedQuoteReserve, zero_sub, zero_add, mul_neg] at hmove
        have hflow := mul_nonneg hprice.le hbase
        have hq : uiAmount s.quoteAmount pool.quoteDecimals = 0 := by linarith
        rw [hq, neg_eq_zero] at hmove
        exact ⟨(mul_eq_zero.mp hmove).resolve_left hprice.ne', hq⟩
    | sell =>
        rw [hd, updatedBaseReserve, updatedQuoteReserve, zero_sub, zero_add] at hmove
        have hflow := mul_nonneg hprice.le hbase
        have hq : uiAmount s.quoteAmount pool.quoteDecimals = 0 := by linarith
        rw [hq, neg_zero] at hmove
        exact ⟨(mul_eq_zero.mp hmove).resolve_left hprice.ne', hq⟩
  · rintro ⟨hb, hq⟩
    have hdb : baseDelta pool s = 0 := by
      rw [baseDelta, hb]
      cases s.tradeDirection <;> simp [updatedBaseReserve]
    have hdq : quoteDelta pool s = 0 := by
      rw [quoteDelta, hq]
      cases s.tradeDirection <;> simp [updatedQuoteReserve]
    refine ⟨?_, ?_, ?_⟩
    · rw [hdb, add_zero]
      exact h.base_nonneg
    · rw [hdq, add_zero]
      exact h.quote_nonneg
    · rw [hdb, hdq, mul_zero]

/-- The swap would leave less than nothing on a side. -/
def Rejected (cache : OperationalCache) (s : Swap) : Prop :=
  ∃ pool entry, Reaches cache s pool entry ∧
    (entry.baseReserve + baseDelta pool s < 0 ∨ entry.quoteReserve + quoteDelta pool s < 0)

/-- A refreshed base reserve is positive. -/
def PositiveReserve : Write → Prop
  | .poll nodes now pool  =>
      ∀ update, getPoolPrice nodes now pool = .ok update → 0 < update.baseReserve
  | .price nodes now pool =>
      ∀ update, getPoolPrice nodes now pool = .ok update → 0 < update.baseReserve
  | _ => True

/-- A swap that reaches an entry is on course. -/
def KeepsPrice (cache : OperationalCache) : Write → Prop
  | .swap _ _ s => ∀ pool entry, Reaches cache s pool entry → OnCourse pool s entry
  | _           => True

-- ── What the queries answer ─────────────────────────────────────────────────

theorem getPoolReserves_nonneg {nodes : Nodes} {pool : Pubkey} {base quote : ℚ}
    (h : getPoolReserves nodes pool = .ok (base, quote)) : 0 ≤ base ∧ 0 ≤ quote := by
  have hread : ∀ (baseVault quoteVault : Pubkey) (baseDecimal quoteDecimal : UInt8),
      (nodes.tokenAmount baseVault >>= fun a => nodes.tokenAmount quoteVault >>= fun b =>
        tokensToUiAmountWithDecimals a baseDecimal >>= fun base =>
          tokensToUiAmountWithDecimals b quoteDecimal >>= fun quote =>
            (pure (base, quote) : Flow (ℚ × ℚ))) = .ok (base, quote) → 0 ≤ base ∧ 0 ≤ quote := by
    intro baseVault quoteVault baseDecimal quoteDecimal h
    cases ha : nodes.tokenAmount baseVault with
    | error stop => rw [ha] at h; cases h
    | ok a =>
        cases hb : nodes.tokenAmount quoteVault with
        | error stop => rw [ha, hb] at h; cases h
        | ok b =>
            rw [ha, hb, ok_bind, ok_bind, tokensToUiAmount_eq, tokensToUiAmount_eq] at h
            split at h
            · split at h
              · obtain ⟨rfl, rfl⟩ := Prod.mk.inj (Except.ok.inj h)
                exact ⟨uiAmount_nonneg a baseDecimal, uiAmount_nonneg b quoteDecimal⟩
              · cases h
            · cases h
  rw [getPoolReserves] at h
  cases hm : nodes.liquidityState pool with
  | error stop => rw [hm] at h; cases h
  | ok market =>
      rw [hm, ok_bind] at h
      by_cases hcoin : market.baseMint = wsolMintPubkey
      · rw [if_pos hcoin] at h
        exact hread _ _ _ _ h
      · rw [if_neg hcoin] at h
        exact hread _ _ _ _ h

/-- **A QUERY ANSWERS COHERENTLY**, if there is something in the pool. -/
theorem getPoolPrice_coherent {nodes : Nodes} {now : Instant} {pool : Pubkey}
    {update : RaydiumPoolPriceUpdate} (h : getPoolPrice nodes now pool = .ok update)
    (hpos : 0 < update.baseReserve) : Coherent update := by
  rw [getPoolPrice] at h
  cases hr : getPoolReserves nodes pool with
  | error stop => rw [hr] at h; cases h
  | ok reserves =>
      rw [hr] at h
      obtain ⟨base, quote⟩ := reserves
      obtain rfl := Except.ok.inj h
      obtain ⟨hbase, hquote⟩ := getPoolReserves_nonneg hr
      exact ⟨hbase, hquote, div_mul_cancel₀ quote hpos.ne'⟩

-- ── Runs ────────────────────────────────────────────────────────────────────

theorem insertPrice_coherent {cache : OperationalCache} (h : PricesCoherent cache)
    {update : RaydiumPoolPriceUpdate} (hupdate : Coherent update) :
    PricesCoherent (insertPrice cache update) := by
  intro pool entry hentry
  by_cases hp : pool = update.pool
  · subst hp
    rw [insertPrice_self] at hentry
    obtain rfl := Option.some.inj hentry
    exact hupdate
  · rw [insertPrice_other cache hp] at hentry
    exact h pool entry hentry

/-- **THE STEP OF A SWAP.** -/
theorem swap_coherent_iff {cache : OperationalCache} (h : PricesCoherent cache) (s : Swap)
    (now : Instant) (signature : Signature) :
    PricesCoherent (exec (applySwap now signature s) cache).2 ↔
      ∀ pool entry, Reaches cache s pool entry → OnCourse pool s entry := by
  by_cases hreach : ∃ pool entry, Reaches cache s pool entry
  · obtain ⟨pool, entry, hreach⟩ := hreach
    rw [applySwap_reaches hreach]
    have hself : (shiftPrices cache s).targetPoolsPrices s.poolId =
        some (shiftEntry pool s entry) := by
      rw [shiftPrices_self hreach.monitored, hreach.priced]
      rfl
    have hcoherent := coherent_shiftEntry_iff (h _ _ hreach.priced) pool s
    constructor
    · intro hafter pool' entry' hreach'
      obtain rfl := Option.some.inj (hreach.monitored.symm.trans hreach'.monitored)
      obtain rfl := Option.some.inj (hreach.priced.symm.trans hreach'.priced)
      exact hcoherent.mp (hafter _ _ hself)
    · intro hon id e he
      by_cases hid : id = s.poolId
      · subst hid
        obtain rfl := Option.some.inj (hself.symm.trans he)
        exact hcoherent.mpr (hon pool entry hreach)
      · have hother : (shiftPrices cache s).targetPoolsPrices id =
            cache.targetPoolsPrices id := by
          rw [shiftPrices, hreach.monitored]
          exact Function.update_of_ne hid ..
        rw [hother] at he
        exact h id e he
  · rw [applySwap_misses (fun pool entry hr => hreach ⟨pool, entry, hr⟩)]
    exact ⟨fun _ pool entry hr => absurd ⟨pool, entry, hr⟩ hreach, fun _ => h⟩

/-- What one write keeps. -/
theorem writer_coherent {cache cache' : OperationalCache} {w : Write} {out : List BotEvent}
    (h : PricesCoherent cache) (hpos : PositiveReserve w) (hkeeps : KeepsPrice cache w)
    (hstep : writer cache w = some (cache', out)) : PricesCoherent cache' := by
  cases w with
  | poll nodes now pool =>
      obtain ⟨rfl, -⟩ := Prod.mk.inj (Option.some.inj hstep)
      rw [pollPrice]
      cases hq : getPoolPrice nodes now pool with
      | error stop => exact h
      | ok update => exact insertPrice_coherent h (getPoolPrice_coherent hq (hpos update hq))
  | price nodes now pool =>
      obtain ⟨rfl, -⟩ := Prod.mk.inj (Option.some.inj hstep)
      rw [refreshPrice]
      cases hq : getPoolPrice nodes now pool with
      | error stop => exact h
      | ok update => exact insertPrice_coherent h (getPoolPrice_coherent hq (hpos update hq))
  | details nodes pool =>
      obtain ⟨rfl, -⟩ := Prod.mk.inj (Option.some.inj hstep)
      rw [refreshDetails]
      cases getPoolDetails nodes pool with
      | error stop => exact h
      | ok poolInfo => exact h
  | forget pool =>
      obtain ⟨rfl, -⟩ := Prod.mk.inj (Option.some.inj hstep)
      exact h
  | swap now signature s =>
      obtain ⟨rfl, -⟩ := Prod.mk.inj (Option.some.inj hstep)
      exact (swap_coherent_iff h s now signature).mpr hkeeps

/-- What the engine starts with: the prices that the nodes have answered. -/
def Queried (prices : Pubkey → Option RaydiumPoolPriceUpdate) : Prop :=
  ∀ pool entry, prices pool = some entry →
    (∃ nodes now, getPoolPrice nodes now pool = .ok entry) ∧ 0 < entry.baseReserve

/-- **EVERY ENTRY OF EVERY STATE IS COHERENT** in runs whose swaps move along the cached
    price and leave no reserve negative; there a rejected swap leaves the cache alone,
    because none is rejected. -/
theorem prices_coherent {pools : Pubkey → Option RaydiumPool}
    {prices : Pubkey → Option RaydiumPoolPriceUpdate} {cache : OperationalCache}
    (hstart : Queried prices)
    (h : Reach writer (fun c w => PositiveReserve w ∧ KeepsPrice c w)
      (OperationalCache.new pools prices) cache) :
    PricesCoherent cache ∧ ∀ now signature s, KeepsPrice cache (.swap now signature s) →
      Rejected cache s → (exec (applySwap now signature s) cache).2 = cache := by
  constructor
  · refine Reach.invariant (I := PricesCoherent) ?_ ?_ h
    · intro pool entry hentry
      obtain ⟨⟨nodes, now, hq⟩, hpos⟩ := hstart pool entry hentry
      exact getPoolPrice_coherent hq hpos
    · intro c w c' out hc hw hstep
      exact writer_coherent hc hw.1 hw.2 hstep
  · rintro now signature s hkeeps ⟨pool, entry, hreach, hneg⟩
    have hon := hkeeps pool entry hreach
    rcases hneg with hneg | hneg
    · exact absurd hneg (not_lt_of_ge hon.base_nonneg)
    · exact absurd hneg (not_lt_of_ge hon.quote_nonneg)

-- ── A run that keeps the price, and one that does not ───────────────────────

/-- A pool of a token without decimals against WSOL, with this much in it. -/
def quietNodes (base quote : UInt64) : Nodes where
  liquidityState _ := .ok (openingState ⟨7⟩ wsolMintPubkey 0 9)
  tokenAmount vault := .ok (if vault = ⟨110⟩ then base else quote)

def quietPool : RaydiumPool := poolDetails ⟨104⟩ (openingState ⟨7⟩ wsolMintPubkey 0 9)

def quietPools (id : Pubkey) : Option RaydiumPool :=
  if id = ⟨104⟩ then some quietPool else none

/-- The engine starts with 100 tokens and 100 SOL in the pool. -/
def quietPrices (id : Pubkey) : Option RaydiumPoolPriceUpdate :=
  if id = ⟨104⟩ then some ⟨⟨104⟩, 1, 100, 100, 0⟩ else none

theorem quietPrices_queried : Queried quietPrices := by
  intro pool entry h
  have hid : pool = ⟨104⟩ := by
    by_contra hne
    rw [quietPrices, if_neg hne] at h
    cases h
  subst hid
  obtain rfl : (⟨⟨104⟩, 1, 100, 100, 0⟩ : RaydiumPoolPriceUpdate) = entry := Option.some.inj h
  exact ⟨⟨quietNodes 100 100000000000, 0, by decide +kernel⟩, by norm_num⟩

/-- The pool is polled once it has doubled, then a swap in another pool is parsed. -/
theorem polled_prices_coherent :
    PricesCoherent (pollPrice (quietNodes 200 200000000000) 1 ⟨104⟩
      (OperationalCache.new quietPools quietPrices)) := by
  have hpolled : getPoolPrice (quietNodes 200 200000000000) 1 ⟨104⟩ =
      .ok ⟨⟨104⟩, 1, 200, 200, 1⟩ := by decide +kernel
  have hreach : Reach writer (fun c w => PositiveReserve w ∧ KeepsPrice c w)
      (OperationalCache.new quietPools quietPrices)
      (pollPrice (quietNodes 200 200000000000) 1 ⟨104⟩
        (OperationalCache.new quietPools quietPrices)) := by
    refine Reach.next (i := .swap 1 default ⟨default, ⟨9⟩, 1, 1, .buy⟩)
      (Reach.next (i := .poll (quietNodes 200 200000000000) 1 ⟨104⟩) Reach.init ⟨?_, trivial⟩ rfl)
      ⟨trivial, ?_⟩ rfl
    · intro update hupdate
      obtain rfl := Except.ok.inj (hpolled.symm.trans hupdate)
      norm_num
    · intro pool entry hr
      have hpool := hr.monitored
      rw [pollPrice, hpolled] at hpool
      cases hpool
  exact (prices_coherent quietPrices_queried hreach).1

/-- **A SWAP LEAVES THE PRICE BEHIND**: 50 of 100 tokens are bought for 100 SOL, and the
    price stays at 1 SOL for a token. -/
theorem swap_leaves_price_behind :
    ¬ ∀ (pools : Pubkey → Option RaydiumPool) (prices : Pubkey → Option RaydiumPoolPriceUpdate)
      (cache : OperationalCache), Queried prices →
      Reach writer (fun _ w => PositiveReserve w) (OperationalCache.new pools prices) cache →
      PricesCoherent cache ∧ ∀ now signature s, Rejected cache s →
        (exec (applySwap now signature s) cache).2 = cache := by
  intro hclaim
  have hreach : Reach writer (fun _ w => PositiveReserve w)
      (OperationalCache.new quietPools quietPrices)
      (exec (applySwap 1 default ⟨default, ⟨104⟩, 100000000000, 50, .buy⟩)
        (OperationalCache.new quietPools quietPrices)).2 :=
    Reach.next (i := .swap 1 default ⟨default, ⟨104⟩, 100000000000, 50, .buy⟩) Reach.init
      trivial rfl
  have hentry : (exec (applySwap 1 default ⟨default, ⟨104⟩, 100000000000, 50, .buy⟩)
      (OperationalCache.new quietPools quietPrices)).2.targetPoolsPrices ⟨104⟩ =
        some ⟨⟨104⟩, 1, 50, 200, 0⟩ := by decide +kernel
  have hprice := ((hclaim _ _ _ quietPrices_queried hreach).1 _ _ hentry).price
  norm_num at hprice

end FoxfirePrices
