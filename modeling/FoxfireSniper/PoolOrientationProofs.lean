import FoxfireSniper.CollectorProofs
import FoxfireSniper.NewPoolProofs

/-! # Which side of a pool is the base

    The pool queries of `src/solana/rpc_pool.rs`, beside `extract_pool_from_init_tx`.
    Three places decide for themselves which side of a pool is the base:

    * the search for new pools swaps mints and vaults when the coin mint is WSOL, notes
      it in `reverse_pool`, and takes the quote to have nine decimals;
    * `get_pool_reserves_f64` takes the vaults the other way round when the coin mint is
      WSOL;
    * `get_pool_details` takes the account as it is.

    `pools_agree_iff`: they agree exactly on the pools that are not reversed and whose
    quote has nine decimals. -/

namespace FoxfirePool

open FoxfireTypes FoxfireFeed FoxfireCache FoxfireParser FoxfireCollector NoRollback

-- ── Queries ─────────────────────────────────────────────────────────────────

/-- `LiquidityStateV4`: the fields that are read. -/
structure LiquidityStateV4 where
  baseDecimal     : UInt64
  quoteDecimal    : UInt64
  baseVault       : Pubkey
  quoteVault      : Pubkey
  baseMint        : Pubkey
  quoteMint       : Pubkey
  lpMint          : Pubkey
  openOrders      : Pubkey
  marketId        : Pubkey
  marketProgramId : Pubkey
  targetOrders    : Pubkey
  withdrawQueue   : Pubkey
  lpVault         : Pubkey
  deriving DecidableEq, Repr

/-- What the nodes answer.  A request that fails makes the query return its `Err`, for
    which `Stop.returnedNone` stands; data that is no such account makes it panic. -/
structure Nodes where
  /-- `get_account`, then `LiquidityStateV4::try_from_slice(..).unwrap()`. -/
  liquidityState : Pubkey → Flow LiquidityStateV4
  /-- `get_token_account_balance_ui(..)?.amount.parse::<u64>().unwrap()` -/
  tokenAmount    : Pubkey → Flow UInt64

/-- `get_pool_reserves_f64`: the base reserve, then the quote reserve. -/
def getPoolReserves (nodes : Nodes) (poolLp : Pubkey) : Flow (ℚ × ℚ) := do
  let market ← nodes.liquidityState poolLp
  let (quoteVault, quoteDecimal, baseVault, baseDecimal) :=
    if market.baseMint = wsolMintPubkey then
      (market.baseVault, market.baseDecimal.toUInt8,
        market.quoteVault, market.quoteDecimal.toUInt8)
    else
      (market.quoteVault, market.quoteDecimal.toUInt8,
        market.baseVault, market.baseDecimal.toUInt8)
  let tokenABalance ← nodes.tokenAmount baseVault
  let tokenBBalance ← nodes.tokenAmount quoteVault
  let base ← tokensToUiAmountWithDecimals tokenABalance baseDecimal
  let quote ← tokensToUiAmountWithDecimals tokenBBalance quoteDecimal
  return (base, quote)

/-- `get_pool_price` -/
def getPoolPrice (nodes : Nodes) (now : Instant) (poolLp : Pubkey) :
    Flow RaydiumPoolPriceUpdate := do
  let (reserveBase, reserveQuote) ← getPoolReserves nodes poolLp
  return {
    pool := poolLp
    price := reserveQuote / reserveBase
    baseReserve := reserveBase
    quoteReserve := reserveQuote
    createdAt := now }

/-- The pool that `get_pool_details` makes of an account. -/
def poolDetails (poolPubkey : Pubkey) (ammInfoData : LiquidityStateV4) : RaydiumPool where
  id := poolPubkey
  baseMint := ammInfoData.baseMint
  quoteMint := ammInfoData.quoteMint
  lpMint := ammInfoData.lpMint
  baseDecimals := ammInfoData.baseDecimal.toUInt8
  quoteDecimals := ammInfoData.quoteDecimal.toUInt8
  lpDecimals := 0
  version := 3
  programId := raydiumV4ProgramId
  authority := raydiumV4Authority
  openOrders := ammInfoData.openOrders
  targetOrders := ammInfoData.targetOrders
  baseVault := ammInfoData.baseVault
  quoteVault := ammInfoData.quoteVault
  withdrawQueue := ammInfoData.withdrawQueue
  lpVault := ammInfoData.lpVault
  marketVersion := 3
  marketProgramId := ammInfoData.marketProgramId
  marketId := ammInfoData.marketId
  lpReserve := 0
  openTime := 0
  reversePool := false
  freezeAuthority := none

/-- `get_pool_details` -/
def getPoolDetails (nodes : Nodes) (poolPubkey : Pubkey) : Flow RaydiumPool := do
  let ammInfoData ← nodes.liquidityState poolPubkey
  return poolDetails poolPubkey ammInfoData

-- ── Agreement ───────────────────────────────────────────────────────────────

/-- The account of the pool that an instruction opened: its coin and pc fields are the
    instruction's coin and pc accounts, and the base mint has the decimals that the
    transaction shows. -/
structure AccountOf (ix : UiPartiallyDecodedInstruction) (pool : RaydiumPool)
    (state : LiquidityStateV4) : Prop where
  coinMint  : state.baseMint = ix.accounts.getD 8 default
  pcMint    : state.quoteMint = ix.accounts.getD 9 default
  coinVault : state.baseVault = ix.accounts.getD 10 default
  pcVault   : state.quoteVault = ix.accounts.getD 11 default
  /-- A pool trades two different mints. -/
  mints     : state.baseMint ≠ state.quoteMint
  decimals  : pool.baseDecimals =
    (if pool.baseMint = state.baseMint then state.baseDecimal else state.quoteDecimal).toUInt8

/-- The reserves of a pool by its own vaults and decimals. -/
def ownReserves (nodes : Nodes) (pool : RaydiumPool) : Flow (ℚ × ℚ) := do
  let baseBalance ← nodes.tokenAmount pool.baseVault
  let quoteBalance ← nodes.tokenAmount pool.quoteVault
  let base ← tokensToUiAmountWithDecimals baseBalance pool.baseDecimals
  let quote ← tokensToUiAmountWithDecimals quoteBalance pool.quoteDecimals
  return (base, quote)

/-- The cache when it monitors this pool. -/
def monitoring (cache : OperationalCache) (pool : RaydiumPool) : OperationalCache :=
  { cache with targetPools := Function.update cache.targetPools pool.id (some pool) }

/-- The collector takes every later swap of two pools for the same: the same event, and the
    same reserves in the cache. -/
def ReadAlike (p q : RaydiumPool) : Prop :=
  p.id = q.id ∧ ∀ (now : Instant) (signature : Signature) (swap : Swap)
    (cache : OperationalCache), swap.poolId = p.id →
    (exec (applySwap now signature swap) (monitoring cache p)).1 =
      (exec (applySwap now signature swap) (monitoring cache q)).1 ∧
    (exec (applySwap now signature swap) (monitoring cache p)).2.targetPoolsPrices =
      (exec (applySwap now signature swap) (monitoring cache q)).2.targetPoolsPrices

/-- The pool of the transaction and the pool of the account agree, and so do the reserves
    that are read from the nodes. -/
structure Agree (pool : RaydiumPool) (state : LiquidityStateV4) : Prop where
  baseMint      : pool.baseMint = (poolDetails pool.id state).baseMint
  quoteMint     : pool.quoteMint = (poolDetails pool.id state).quoteMint
  baseDecimals  : pool.baseDecimals = (poolDetails pool.id state).baseDecimals
  quoteDecimals : pool.quoteDecimals = (poolDetails pool.id state).quoteDecimals
  keys          : ∀ nodes details, nodes.liquidityState pool.id = .ok state →
    getPoolDetails nodes pool.id = .ok details →
    pool.toLiquidityKeys.baseMint = details.toLiquidityKeys.baseMint ∧
    pool.toLiquidityKeys.quoteMint = details.toLiquidityKeys.quoteMint ∧
    pool.toLiquidityKeys.baseVault = details.toLiquidityKeys.baseVault ∧
    pool.toLiquidityKeys.quoteVault = details.toLiquidityKeys.quoteVault
  reserves      : ∀ nodes, nodes.liquidityState pool.id = .ok state →
    getPoolReserves nodes pool.id = ownReserves nodes pool ∧
    getPoolReserves nodes pool.id = ownReserves nodes (poolDetails pool.id state)
  later         : ReadAlike pool (poolDetails pool.id state)

-- ── Reading later swaps ─────────────────────────────────────────────────────

theorem monitoring_self {pool : RaydiumPool} {id : Pubkey} (h : id = pool.id)
    (cache : OperationalCache) : (monitoring cache pool).targetPools id = some pool := by
  subst h
  exact Function.update_self ..

/-- The collector looks at the id and the decimals of a pool, and at nothing else. -/
theorem readAlike_of_decimals {p q : RaydiumPool} (hid : p.id = q.id)
    (hbase : p.baseDecimals = q.baseDecimals) (hquote : p.quoteDecimals = q.quoteDecimals) :
    ReadAlike p q := by
  refine ⟨hid, ?_⟩
  intro now signature swap cache hswap
  have hp := monitoring_self hswap cache
  have hq := monitoring_self (hswap.trans hid) cache
  rw [applySwap, exec_get_bind, exec_get_bind, hp, hq]
  have hprices : ∀ r, (monitoring cache r).targetPoolsPrices = cache.targetPoolsPrices :=
    fun r => rfl
  rw [hprices, hprices]
  cases cache.targetPoolsPrices swap.poolId with
  | none => exact ⟨rfl, rfl⟩
  | some entry =>
      dsimp only
      rw [hbase, hquote, show orNone (some entry) = .ok entry from rfl, exec_outcome_ok_bind,
        exec_outcome_ok_bind]
      cases tokensToUiAmountWithDecimals swap.baseAmount q.baseDecimals with
      | error e =>
          rw [exec_outcome_error_bind, exec_outcome_error_bind]
          exact ⟨rfl, rfl⟩
      | ok base =>
          rw [exec_outcome_ok_bind, exec_outcome_ok_bind]
          cases tokensToUiAmountWithDecimals swap.quoteAmount q.quoteDecimals with
          | error e =>
              rw [exec_outcome_error_bind, exec_outcome_error_bind]
              exact ⟨rfl, rfl⟩
          | ok quote =>
              have hevent : ∀ b r, swapEvent now signature p swap.tradeDirection base quote b r =
                  swapEvent now signature q swap.tradeDirection base quote b r := by
                intro b r
                rw [swapEvent, swapEvent, hid]
              simp only [exec_outcome_ok_bind, exec_set_bind, hevent]
              split
              · exact ⟨rfl, rfl⟩
              · split
                · exact ⟨rfl, rfl⟩
                · exact ⟨rfl, rfl⟩

-- ── The three paths ─────────────────────────────────────────────────────────

/-- A query of a known account. -/
theorem getPoolDetails_eq {nodes : Nodes} {id : Pubkey} {state : LiquidityStateV4}
    (h : nodes.liquidityState id = .ok state) :
    getPoolDetails nodes id = .ok (poolDetails id state) := by
  rw [getPoolDetails, h]
  rfl

/-- Without reversal the reserves are read as the account has them. -/
theorem getPoolReserves_eq {nodes : Nodes} {id : Pubkey} {state : LiquidityStateV4}
    (h : nodes.liquidityState id = .ok state) (hcoin : state.baseMint ≠ wsolMintPubkey) :
    getPoolReserves nodes id = ownReserves nodes (poolDetails id state) := by
  rw [getPoolReserves, h, ok_bind, if_neg hcoin]
  rfl

/-- The sides of the pool that an instruction opened, when its coin mint is not WSOL. -/
theorem pool_normal {d : Deployment} {decimals : UInt8} {state : LiquidityStateV4}
    (h : AccountOf d.instruction (d.pool decimals) state)
    (hcoin : state.baseMint ≠ wsolMintPubkey) :
    (d.pool decimals).baseMint = state.baseMint ∧ (d.pool decimals).quoteMint = state.quoteMint ∧
    (d.pool decimals).baseVault = state.baseVault ∧
    (d.pool decimals).quoteVault = state.quoteVault ∧ (d.pool decimals).reversePool = false := by
  have hnormal : d.reversedPool = false := by
    rw [Deployment.reversedPool, Deployment.account, ← h.coinMint]
    exact beq_false_of_ne hcoin
  have hno : ¬ d.reversedPool = true := by
    rw [hnormal]
    exact Bool.false_ne_true
  refine ⟨?_, ?_, ?_, ?_, hnormal⟩
  · exact (if_neg hno).trans h.coinMint.symm
  · exact (if_neg hno).trans h.pcMint.symm
  · exact (if_neg hno).trans h.coinVault.symm
  · exact (if_neg hno).trans h.pcVault.symm

/-- When its coin mint is WSOL, its base is the pc. -/
theorem pool_reversed {d : Deployment} {decimals : UInt8} {state : LiquidityStateV4}
    (h : AccountOf d.instruction (d.pool decimals) state)
    (hcoin : state.baseMint = wsolMintPubkey) :
    (d.pool decimals).baseMint = state.quoteMint := by
  have hrev : d.reversedPool = true := by
    rw [Deployment.reversedPool, Deployment.account, ← h.coinMint]
    exact beq_iff_eq.mpr hcoin
  exact (if_pos hrev).trans h.pcMint.symm

/-- **THE THREE PATHS AGREE EXACTLY ON POOLS WHOSE COIN IS NOT WSOL AND WHOSE PC HAS NINE
    DECIMALS.** -/
theorem pools_agree_iff {crates : Crates} {now : Instant}
    {txUpdate : SubscribeUpdateTransaction} {pool : RaydiumPool}
    {price : RaydiumPoolPriceUpdate} {ix : UiPartiallyDecodedInstruction}
    {state : LiquidityStateV4}
    (h : extractPoolFromInitTx crates now txUpdate = .ok (pool, price))
    (hused : usedInstruction txUpdate = some ix) (haccount : AccountOf ix pool state) :
    Agree pool state ↔
      state.baseMint ≠ wsolMintPubkey ∧ state.quoteDecimal.toUInt8 = 9 := by
  obtain ⟨txPretty, d, b, hp, hd, -, -, rfl, -⟩ := extract_eq_ok h
  obtain rfl : d.instruction = ix :=
    Option.some.inj ((findDeployment_uses hp hd).symm.trans hused)
  constructor
  · intro hagree
    refine ⟨?_, hagree.quoteDecimals.symm⟩
    intro hcoin
    exact haccount.mints (hagree.baseMint.symm.trans (pool_reversed haccount hcoin))
  · rintro ⟨hcoin, hquote⟩
    obtain ⟨hbm, hqm, hbv, hqv, hrev⟩ := pool_normal haccount hcoin
    have hdecimals : (d.pool b.decimals).baseDecimals = state.baseDecimal.toUInt8 := by
      rw [haccount.decimals, if_pos hbm]
    refine ⟨hbm, hqm, hdecimals, hquote.symm, ?_, ?_, ?_⟩
    · intro nodes details hstate hdetails
      obtain rfl := Except.ok.inj ((getPoolDetails_eq hstate).symm.trans hdetails)
      refine ⟨hbm, hqm, ?_, ?_⟩
      · rw [RaydiumPool.toLiquidityKeys, RaydiumPool.toLiquidityKeys, hrev]
        exact hbv
      · rw [RaydiumPool.toLiquidityKeys, RaydiumPool.toLiquidityKeys, hrev]
        exact hqv
    · intro nodes hstate
      have hread := getPoolReserves_eq hstate hcoin
      have hpc : (d.pool b.decimals).quoteDecimals = state.quoteDecimal.toUInt8 := hquote.symm
      refine ⟨hread.trans ?_, hread⟩
      rw [ownReserves, ownReserves, hbv, hqv, hdecimals, hpc]
      rfl
    · exact readAlike_of_decimals rfl hdecimals hquote.symm

-- ── A normal pool, and a reversed one ───────────────────────────────────────

/-- The opening of a pool, in a transaction that shows the decimals of both mints. -/
def openingTx (coinMint pcMint : Pubkey) : SubscribeUpdateTransaction where
  transaction := (deploymentTx none initialize2Tag coinMint pcMint).transaction.map fun info =>
    { info with encoded := info.encoded.map fun tx =>
      { tx with statusMeta := tx.statusMeta.map fun m =>
        { m with preTokenBalances := some [⟨some ⟨7⟩, 6⟩, ⟨some wsolMintPubkey, 9⟩] } } }

theorem usedInstruction_openingTx (coinMint pcMint : Pubkey) :
    usedInstruction (openingTx coinMint pcMint) = some {
      programId := raydiumV4ProgramId
      accounts := deploymentAccounts coinMint pcMint
      data := some [initialize2Tag] } := rfl

/-- Its account. -/
def openingState (coinMint pcMint : Pubkey) (coinDecimals pcDecimals : UInt64) :
    LiquidityStateV4 where
  baseDecimal := coinDecimals
  quoteDecimal := pcDecimals
  baseVault := ⟨110⟩
  quoteVault := ⟨111⟩
  baseMint := coinMint
  quoteMint := pcMint
  lpMint := ⟨107⟩
  openOrders := ⟨106⟩
  marketId := ⟨116⟩
  marketProgramId := ⟨115⟩
  targetOrders := ⟨113⟩
  withdrawQueue := default
  lpVault := ⟨112⟩

/-- The base of what is returned. -/
def viewBase (r : Flow (RaydiumPool × RaydiumPoolPriceUpdate)) : Option (Pubkey × UInt8) :=
  match r with
  | .ok p    => some (p.1.baseMint, p.1.baseDecimals)
  | .error _ => none

theorem viewBase_eq_some {r : Flow (RaydiumPool × RaydiumPoolPriceUpdate)} {base : Pubkey}
    {decimals : UInt8} (h : viewBase r = some (base, decimals)) :
    ∃ pool price, r = .ok (pool, price) ∧ pool.baseMint = base ∧ pool.baseDecimals = decimals := by
  cases r with
  | error e => cases h
  | ok p =>
      obtain ⟨hb, hd⟩ := Prod.mk.inj (Option.some.inj h)
      exact ⟨p.1, p.2, rfl, hb, hd⟩

/-- A token against WSOL. -/
theorem normal_pool_agrees :
    ∃ pool price, extractPoolFromInitTx plainCrates 0 (openingTx ⟨7⟩ wsolMintPubkey) =
        .ok (pool, price) ∧ Agree pool (openingState ⟨7⟩ wsolMintPubkey 6 9) := by
  have hview : viewBase (extractPoolFromInitTx plainCrates 0 (openingTx ⟨7⟩ wsolMintPubkey)) =
      some (⟨7⟩, 6) := by decide +kernel
  obtain ⟨pool, price, hr, hbase, hdecimals⟩ := viewBase_eq_some hview
  refine ⟨pool, price, hr, (pools_agree_iff hr (usedInstruction_openingTx ..)
    ⟨rfl, rfl, rfl, rfl, ?_, ?_⟩).mpr ?_⟩
  · decide +kernel
  · rw [hbase, hdecimals]
    decide +kernel
  · decide +kernel

/-- **A REVERSED POOL CHANGES SIDES**: WSOL against a token, with the token as the base
    when the pool is found and as the quote when its account is read. -/
theorem reversed_pool_disagrees :
    ¬ ∀ (crates : Crates) (now : Instant) (txUpdate : SubscribeUpdateTransaction)
      (pool : RaydiumPool) (price : RaydiumPoolPriceUpdate) (ix : UiPartiallyDecodedInstruction)
      (state : LiquidityStateV4),
      extractPoolFromInitTx crates now txUpdate = .ok (pool, price) →
      usedInstruction txUpdate = some ix → AccountOf ix pool state → Agree pool state := by
  intro hclaim
  have hview : viewBase (extractPoolFromInitTx plainCrates 0 (openingTx wsolMintPubkey ⟨7⟩)) =
      some (⟨7⟩, 6) := by decide +kernel
  obtain ⟨pool, price, hr, hbase, hdecimals⟩ := viewBase_eq_some hview
  have hagree : Agree pool (openingState wsolMintPubkey ⟨7⟩ 9 6) := by
    refine hclaim plainCrates 0 (openingTx wsolMintPubkey ⟨7⟩) pool price _ _ hr
      (usedInstruction_openingTx ..) ⟨rfl, rfl, rfl, rfl, by decide +kernel, ?_⟩
    rw [hbase, hdecimals]
    decide +kernel
  have hmint : (⟨7⟩ : Pubkey) = wsolMintPubkey := hbase.symm.trans hagree.baseMint
  exact absurd hmint (by decide +kernel)

end FoxfirePool
