import FoxfireSniper.PriceCacheProofs
import FoxfireSniper.SnipePriceProofs

/-! # The price that a position is watched from

    When a purchase is confirmed, `set_when_bought_timer` asks the nodes for the pool and
    for its price, caches what they answer, and unwraps the cached price of the pool: the
    `buy_price` that `waiting_to_sell` compares with from then on.

    Here the entry action has its queries in it; `enter_eq` connects it with the machine,
    for which the answers are inputs.

    **`watched_iff`**: the action panics, or leaves a price that means nothing, unless the
    query succeeds on a pool that is not empty, or fails beside a good cached price. -/

namespace FoxfireSnipe

open FoxfireTypes FoxfireCache FoxfireParser FoxfirePool FoxfirePrices MachineRun

-- ── The entry action ────────────────────────────────────────────────────────

/-- A query that returns an `Err` is logged; one that panics takes the task with it. -/
def survives {α : Type} (query : Flow α) : Flow Unit :=
  match query with
  | .error .panicked => throw .panicked
  | _                => pure ()

/-- What the two queries of the entry action meet. -/
structure Queries where
  detailNodes : Nodes
  priceNodes  : Nodes
  askedAt     : Instant

/-- `set_when_bought_timer` -/
def setWhenBoughtTimer (q : Queries) (now : Instant) (a : SniperAgentState)
    (cache : OperationalCache) : Flow (SniperAgentState × OperationalCache) := do
  survives (getPoolDetails q.detailNodes a.pool.id)
  let cache := refreshDetails q.detailNodes a.pool.id cache
  survives (getPoolPrice q.priceNodes q.askedAt a.pool.id)
  let cache := refreshPrice q.priceNodes q.askedAt a.pool.id cache
  let price ← unwrap (cache.targetPoolsPrices a.pool.id)
  return ({ a with whenBoughtTimer := now, buyPrice := price }, cache)

-- ── A position that is watched ──────────────────────────────────────────────

/-- The action does not panic, and as long as the position waits to be sold, its buy price
    is a positive one of its own pool.  The price of a pool without a base reserve is no
    number; as a rational it is `0`. -/
def Watched (q : Queries) (now : Instant) (a : SniperAgentState) (cache : OperationalCache) :
    Prop :=
  ∃ a' cache', setWhenBoughtTimer q now a cache = .ok (a', cache') ∧ a'.pool = a.pool ∧
    ∀ is m out, run handle ⟨.waitingToSell, a', true⟩ is = some (m, out) →
      m.state = .waitingToSell →
      m.storage.buyPrice.pool = a.pool.id ∧ 0 < m.storage.buyPrice.price

/-- What the two queries answer, and the cached price if the second one fails. -/
structure HasReference (q : Queries) (pool : Pubkey) (cache : OperationalCache) : Prop where
  details : getPoolDetails q.detailNodes pool ≠ .error .panicked
  price   : match getPoolReserves q.priceNodes pool with
    | .ok (base, quote)    => 0 < base ∧ 0 < quote
    | .error .returnedNone =>
        ∃ entry, cache.targetPoolsPrices pool = some entry ∧ entry.pool = pool ∧ 0 < entry.price
    | .error .panicked     => False

-- ── What the action leaves ──────────────────────────────────────────────────

variable {q : Queries} {now : Instant} {a a' : SniperAgentState} {cache cache' : OperationalCache}

/-- The price that the entry action takes. -/
def referencePrice (q : Queries) (pool : Pubkey) (cache : OperationalCache) :
    Flow RaydiumPoolPriceUpdate :=
  match getPoolPrice q.priceNodes q.askedAt pool with
  | .ok poolPrice        => .ok poolPrice
  | .error .returnedNone => unwrap (cache.targetPoolsPrices pool)
  | .error .panicked     => .error .panicked

/-- A query answers with a price of the pool it is asked about. -/
theorem getPoolPrice_cases (nodes : Nodes) (askedAt : Instant) (pool : Pubkey) :
    (∃ base quote, getPoolReserves nodes pool = .ok (base, quote) ∧
      getPoolPrice nodes askedAt pool = .ok ⟨pool, quote / base, base, quote, askedAt⟩) ∨
    ∃ stop, getPoolReserves nodes pool = .error stop ∧
      getPoolPrice nodes askedAt pool = .error stop := by
  rw [getPoolPrice]
  cases getPoolReserves nodes pool with
  | ok reserves => exact Or.inl ⟨reserves.1, reserves.2, rfl, rfl⟩
  | error stop => exact Or.inr ⟨stop, rfl, rfl⟩

/-- The cache after both writes. -/
def refreshed (q : Queries) (pool : Pubkey) (cache : OperationalCache) : OperationalCache :=
  refreshPrice q.priceNodes q.askedAt pool (refreshDetails q.detailNodes pool cache)

theorem refreshDetails_prices (nodes : Nodes) (pool : Pubkey) (cache : OperationalCache) :
    (refreshDetails nodes pool cache).targetPoolsPrices = cache.targetPoolsPrices := by
  rw [refreshDetails]
  split
  · rfl
  · rfl

/-- The second query, and the price read after its write. -/
theorem read_refreshed (q : Queries) (pool : Pubkey) (cache : OperationalCache) :
    (do
      survives (getPoolPrice q.priceNodes q.askedAt pool)
      unwrap ((refreshed q pool cache).targetPoolsPrices pool)) = referencePrice q pool cache := by
  rw [referencePrice, refreshed, refreshPrice]
  rcases getPoolPrice_cases q.priceNodes q.askedAt pool with ⟨base, quote, -, hprice⟩ |
      ⟨stop, -, hprice⟩
  · rw [hprice]
    show unwrap ((insertPrice _ ⟨pool, quote / base, base, quote, q.askedAt⟩).targetPoolsPrices
      pool) = _
    rw [insertPrice_self (refreshDetails q.detailNodes pool cache)
      ⟨pool, quote / base, base, quote, q.askedAt⟩]
    rfl
  · rw [hprice]
    cases stop with
    | panicked => rfl
    | returnedNone =>
        show unwrap ((refreshDetails q.detailNodes pool cache).targetPoolsPrices pool) = _
        rw [refreshDetails_prices]

/-- **THE ENTRY ACTION**: it survives the first query, and takes the reference price. -/
theorem setWhenBoughtTimer_eq (q : Queries) (now : Instant) (a : SniperAgentState)
    (cache : OperationalCache) :
    setWhenBoughtTimer q now a cache = (do
      survives (getPoolDetails q.detailNodes a.pool.id)
      let price ← referencePrice q a.pool.id cache
      return ({ a with whenBoughtTimer := now, buyPrice := price },
        refreshed q a.pool.id cache)) := by
  rw [← read_refreshed, bind_assoc]
  rfl

theorem survives_ok_iff {α : Type} {query : Flow α} :
    survives query = .ok () ↔ query ≠ .error .panicked := by
  cases query with
  | ok answer => exact iff_of_true rfl nofun
  | error stop =>
      cases stop with
      | panicked => exact iff_of_false nofun fun h => h rfl
      | returnedNone => exact iff_of_true rfl nofun

theorem setWhenBoughtTimer_ok_iff :
    setWhenBoughtTimer q now a cache = .ok (a', cache') ↔
      getPoolDetails q.detailNodes a.pool.id ≠ .error .panicked ∧
      ∃ price, referencePrice q a.pool.id cache = .ok price ∧
        a' = { a with whenBoughtTimer := now, buyPrice := price } ∧
        cache' = refreshed q a.pool.id cache := by
  rw [setWhenBoughtTimer_eq, ← survives_ok_iff]
  cases hs : survives (getPoolDetails q.detailNodes a.pool.id) with
  | error stop =>
      refine iff_of_false nofun ?_
      rintro ⟨h, -⟩
      cases h
  | ok _ =>
      cases hr : referencePrice q a.pool.id cache with
      | error stop =>
          refine iff_of_false nofun ?_
          rintro ⟨-, price, h, -⟩
          cases h
      | ok price =>
          constructor
          · intro h
            obtain ⟨rfl, rfl⟩ := Prod.mk.inj (Except.ok.inj h)
            exact ⟨rfl, price, rfl, rfl, rfl⟩
          · rintro ⟨-, price', h, rfl, rfl⟩
            obtain rfl := Except.ok.inj h
            rfl

/-- A query whose reserves are positive, or a positive price of the pool in the cache. -/
theorem referencePrice_good_iff (q : Queries) (pool : Pubkey) (cache : OperationalCache) :
    (∃ price, referencePrice q pool cache = .ok price ∧ price.pool = pool ∧ 0 < price.price) ↔
      match getPoolReserves q.priceNodes pool with
      | .ok (base, quote)    => 0 < base ∧ 0 < quote
      | .error .returnedNone =>
          ∃ entry, cache.targetPoolsPrices pool = some entry ∧ entry.pool = pool ∧ 0 < entry.price
      | .error .panicked     => False := by
  rw [referencePrice]
  rcases getPoolPrice_cases q.priceNodes q.askedAt pool with ⟨base, quote, hreserves, hprice⟩ |
      ⟨stop, hreserves, hprice⟩
  · rw [hreserves, hprice]
    obtain ⟨hbase, hquote⟩ := getPoolReserves_nonneg hreserves
    constructor
    · rintro ⟨price, hok, -, hpos⟩
      obtain rfl := Except.ok.inj hok
      have hpos : 0 < quote / base := hpos
      refine ⟨lt_of_le_of_ne hbase ?_, lt_of_le_of_ne hquote ?_⟩
      · rintro rfl
        rw [div_zero] at hpos
        exact lt_irrefl _ hpos
      · rintro rfl
        rw [zero_div] at hpos
        exact lt_irrefl _ hpos
    · rintro ⟨hb, hq⟩
      exact ⟨_, rfl, rfl, div_pos hq hb⟩
  · rw [hreserves, hprice]
    cases stop with
    | panicked =>
        refine iff_of_false ?_ id
        rintro ⟨price, h, -⟩
        cases h
    | returnedNone =>
        cases hcached : cache.targetPoolsPrices pool with
        | none =>
            refine iff_of_false ?_ ?_
            · rintro ⟨price, h, -⟩
              cases h
            · rintro ⟨entry, h, -⟩
              cases h
        | some entry =>
            constructor
            · rintro ⟨price, h, hpool, hpos⟩
              obtain rfl := Except.ok.inj h
              exact ⟨entry, rfl, hpool, hpos⟩
            · rintro ⟨entry', h, hpool, hpos⟩
              obtain rfl := Option.some.inj h
              exact ⟨entry, rfl, hpool, hpos⟩

/-- The input of a step that meets these queries and this cache. -/
structure Answers (q : Queries) (pool : Pubkey) (cache : OperationalCache) (i : Input) : Prop where
  details : i.poolDetails = (getPoolDetails q.detailNodes pool).toOption
  price   : i.poolPrice = (getPoolPrice q.priceNodes q.askedAt pool).toOption
  cached  : i.cachedPrice = cache.targetPoolsPrices pool

/-- **THE MACHINE ENTERS `waiting_to_sell` BY THIS ACTION**, if no query panics. -/
theorem enter_eq {i : Input} (h : Answers q a.pool.id cache i)
    (hdetails : getPoolDetails q.detailNodes a.pool.id ≠ .error .panicked)
    (hprice : getPoolPrice q.priceNodes q.askedAt a.pool.id ≠ .error .panicked) :
    (a.enter i .waitingToSell).map Prod.fst =
      ((setWhenBoughtTimer q i.enteredAt a cache).map Prod.fst).toOption := by
  have henter : (a.enter i .waitingToSell).map Prod.fst =
      (i.poolPrice <|> i.cachedPrice).map fun price =>
        { a with whenBoughtTimer := i.enteredAt, buyPrice := price } := by
    show Option.map Prod.fst (a.setWhenBoughtTimer i) = _
    rw [SniperAgentState.setWhenBoughtTimer, Option.map_map]
    rfl
  rw [henter, h.price, h.cached, setWhenBoughtTimer_eq, survives_ok_iff.mpr hdetails,
    referencePrice]
  cases hq : getPoolPrice q.priceNodes q.askedAt a.pool.id with
  | ok poolPrice => rfl
  | error stop =>
      cases stop with
      | panicked => exact absurd hq hprice
      | returnedNone =>
          cases cache.targetPoolsPrices a.pool.id with
          | none => rfl
          | some entry => rfl

/-- **A POSITION IS WATCHED FROM A PRICE OF ITS POOL** exactly if the queries and the cache
    have one. -/
theorem watched_iff (q : Queries) (now : Instant) (a : SniperAgentState)
    (cache : OperationalCache) : Watched q now a cache ↔ HasReference q a.pool.id cache := by
  constructor
  · rintro ⟨a', cache', hok, -, hwatched⟩
    obtain ⟨hdetails, price, hprice, rfl, rfl⟩ := setWhenBoughtTimer_ok_iff.mp hok
    obtain ⟨hpool, hpos⟩ := hwatched [] _ [] rfl rfl
    exact ⟨hdetails, (referencePrice_good_iff q a.pool.id cache).mp ⟨price, hprice, hpool, hpos⟩⟩
  · rintro ⟨hdetails, hgood⟩
    obtain ⟨price, hprice, hpool, hpos⟩ := (referencePrice_good_iff q a.pool.id cache).mpr hgood
    refine ⟨_, _, setWhenBoughtTimer_ok_iff.mpr ⟨hdetails, price, hprice, rfl, rfl⟩, rfl, ?_⟩
    intro is m out hrun hs
    obtain ⟨-, -, hbuy⟩ := samePosition_run rfl hrun hs
    rw [hbuy]
    exact ⟨hpool, hpos⟩

/-- Nodes that do not answer. -/
def silentNodes : Nodes where
  liquidityState _ := .error .returnedNone
  tokenAmount _ := .error .returnedNone

/-- **A QUERY THAT FAILS ABANDONS THE POSITION**, when nothing is cached for its pool. -/
theorem unanswered_query_panics :
    ¬ ∀ (q : Queries) (now : Instant) (a : SniperAgentState) (cache : OperationalCache),
      Watched q now a cache := by
  intro hclaim
  obtain ⟨a', cache', hok, -⟩ := hclaim ⟨silentNodes, silentNodes, 0⟩ 0
    (boughtAtOne (1/5) (1/5)).storage (.new (fun _ => none) (fun _ => none))
  cases hok

end FoxfireSnipe
