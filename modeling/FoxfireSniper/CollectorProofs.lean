import Mathlib.Algebra.BigOperators.Group.List.Basic
import Mathlib.Tactic.Linarith
import FoxfireSniper.CacheProofs
import FoxfireSniper.NoRollbackProofs
import FoxfireSniper.TxParserProofs

/-! # `RealtimeFeedEventsCollector` — from feed events to bot events

    `src/collectors/realtime_feed_events_collector.rs`.  `parse_transaction` confirms
    the bot's own transactions, then follows the swaps of monitored pools, then looks
    for new pools; the events of all three stages are returned together, so a stage
    that stops the function takes the events of the earlier ones with it.

    A call is a program over the cache that does not roll back: the outcome
    `.error .returnedNone` is the `None` of the source, `.error .panicked` a panic.

    * `applySwap_cases`: what one swap can do, and `swapsApply_cons`: the condition on
      a list of swaps, swap by swap.
    * `applySwaps_ok_iff`: THE SWAP STAGE GOES THROUGH exactly when every monitored
      swap has a price entry and leaves both reserves non-negative (`SwapsApply`). -/

namespace FoxfireCollector

open FoxfireTypes FoxfireFeed FoxfireCache FoxfireParser NoRollback

/-- `Mode` of the engine settings. -/
inductive Mode where
  | backTesting
  | paperTrading
  | live
  deriving DecidableEq, Repr

abbrev Call := Prog Stop OperationalCache

/-- `if let Some(x) = call { body(x) }`, where the body gives events. -/
def ifLetSome {α : Type} (x : Flow α) (body : α → Call (List BotEvent)) :
    Call (List BotEvent) :=
  match x with
  | .ok a                => body a
  | .error .returnedNone => pure []
  | .error .panicked     => throw .panicked

-- ── Confirming sent transactions ────────────────────────────────────────────

/-- The receipt of a transaction that was seen on chain. -/
def receiptOf (now : Instant) (tx : TransactionPretty) (uuid : Uuid) : BotEvent :=
  .blockchainEvent (.executionReceipt {
    actionUuid := uuid
    transactionSignature := tx.signature
    err := tx.tx.statusMeta.bind (·.err)
    statusChangedAt := now })

/-- `parse_cached_executions`.  In paper trading any transaction confirms the oldest
    action. -/
def parseCachedExecutions (mode : Mode) (now : Instant) (tx : TransactionPretty) :
    Call (List BotEvent) := do
  let cache ← get
  match mode with
  | .live =>
      match cache.getUuidBySignature tx.signature with
      | some swapUuid =>
          set (cache.markSignatureAsProcessed swapUuid tx.signature)
          return [receiptOf now tx swapUuid]
      | none => return []
  | .paperTrading =>
      let (pop, cache) := cache.popFront
      set cache
      match pop with
      | some (swapUuid, _) =>
          return [.blockchainEvent (.executionReceipt {
            actionUuid := swapUuid
            transactionSignature := default
            err := none
            statusChangedAt := now })]
      | none => return []
  | .backTesting => throw .panicked

/-- The fee statistics: price per compute unit of a successful transaction. -/
def noteFee (tx : TransactionPretty) (cache : OperationalCache) : OperationalCache :=
  match tx.tx.statusMeta with
  | none            => cache
  | some statusMeta =>
      if tx.isSuccessful then
        match statusMeta.computeUnitsConsumed with
        | none            => cache
        | some cuConsumed =>
            if 0 < cuConsumed ∧ baseTxFeeSol < statusMeta.fee then
              cache.updateOptimalFee ((statusMeta.fee - baseTxFeeSol) / cuConsumed)
            else cache
      else cache

-- ── Swaps of monitored pools ────────────────────────────────────────────────

def updatedBaseReserve (direction : TradeDirection) (reserve amount : ℚ) : ℚ :=
  match direction with
  | .buy  => reserve - amount
  | .sell => reserve + amount

def updatedQuoteReserve (direction : TradeDirection) (reserve amount : ℚ) : ℚ :=
  match direction with
  | .buy  => reserve + amount
  | .sell => reserve - amount

/-- The event of a swap, with the price it leaves. -/
def swapEvent (now : Instant) (signature : Signature) (clientPool : RaydiumPool)
    (tradeDirection : TradeDirection)
    (baseAmountUi quoteAmountUi baseReserve quoteReserve : ℚ) : BotEvent :=
  .blockchainEvent (.raydiumSwapEvent {
    priceUpdate := {
      pool := clientPool.id
      price := quoteReserve / baseReserve
      baseReserve, quoteReserve
      createdAt := now }
    signature
    pool := clientPool.id
    tradeDirection
    baseAmount := baseAmountUi
    quoteAmount := quoteAmountUi
    price := quoteAmountUi / baseAmountUi
    volume := quoteAmountUi
    createdAt := now })

/-- The body of the loop over the parsed swaps.  The cached reserves are written
    before the two checks, and stay written when a check fails. -/
def applySwap (now : Instant) (signature : Signature) (parsedSwap : Swap) :
    Call (List BotEvent) := do
  let cache ← get
  match cache.targetPools parsedSwap.poolId with
  | none            => return []
  | some clientPool =>
      let preSwapPoolState ← outcome (orNone (cache.targetPoolsPrices parsedSwap.poolId))
      let baseAmountUi ← outcome
        (tokensToUiAmountWithDecimals parsedSwap.baseAmount clientPool.baseDecimals)
      let quoteAmountUi ← outcome
        (tokensToUiAmountWithDecimals parsedSwap.quoteAmount clientPool.quoteDecimals)
      let direction := parsedSwap.tradeDirection
      let baseReserve :=
        updatedBaseReserve direction preSwapPoolState.baseReserve baseAmountUi
      let quoteReserve :=
        updatedQuoteReserve direction preSwapPoolState.quoteReserve quoteAmountUi
      set { cache with
        targetPoolsPrices := Function.update cache.targetPoolsPrices parsedSwap.poolId
          (some { preSwapPoolState with baseReserve, quoteReserve }) }
      if baseReserve < 0 then
        throw .returnedNone
      else if quoteReserve < 0 then
        throw .returnedNone
      else
        return [swapEvent now signature clientPool direction baseAmountUi quoteAmountUi
          baseReserve quoteReserve]

def applySwaps (now : Instant) (signature : Signature) :
    List Swap → Call (List BotEvent)
  | []            => pure []
  | swap :: swaps => do
      let event ← applySwap now signature swap
      let events ← applySwaps now signature swaps
      return event ++ events

-- ── New pools, and the whole call ───────────────────────────────────────────

/-- A new pool is announced once per token, as far back as the cache remembers. -/
def announcePool (newPool : RaydiumPool) (priceUpdate : RaydiumPoolPriceUpdate) :
    Call (List BotEvent) := do
  let cache ← get
  if cache.targetTokens.contains newPool.baseMint then return []
  else
    set { cache with targetTokens := cache.targetTokens.put newPool.baseMint newPool.id }
    return [.blockchainEvent (.raydiumNewPoolEvent newPool priceUpdate)]

/-- What `parse_transaction` does once it has looked for a confirmation. -/
def laterStages (crates : Crates) (now : Instant) (txUpdate : SubscribeUpdateTransaction)
    (tx : TransactionPretty) (confirmation : List BotEvent) : Call (List BotEvent) := do
  let swapEvents ← ifLetSome (parseTxForSwaps crates tx.tx) (applySwaps now tx.signature)
  let poolEvents ←
    ifLetSome (extractPoolFromInitTx crates now txUpdate) fun p => announcePool p.1 p.2
  let events := confirmation ++ swapEvents ++ poolEvents
  if events.isEmpty then throw .returnedNone else return events

/-- `parse_transaction`; the clock is read once. -/
def parseTransaction (crates : Crates) (mode : Mode) (now : Instant)
    (txUpdate : SubscribeUpdateTransaction) : Call (List BotEvent) := do
  let tx ← outcome (unwrap (TransactionPretty.ofUpdate txUpdate))
  if tx.isVote then throw .returnedNone
  else
    let confirmation ← parseCachedExecutions mode now tx
    modify (noteFee tx)
    laterStages crates now txUpdate tx confirmation

/-- `parse_account`: a change of the balance that no agent signed is a deposit or a
    withdrawal. -/
def parseAccount (acc : AccountPretty) : Call (List BotEvent) := do
  let cache ← get
  let prevBalance := (cache.getAccount acc.pubkey).join.elim 0 (·.lamports)
  set (cache.updateAccount acc.pubkey (some acc))
  let update : BotEvent := .blockchainEvent (.accountUpdate acc)
  if cache.ifAgentSignature acc.txnSignature then return [update]
  else if prevBalance < acc.lamports
      ∧ balanceChangeThresholdSol < acc.lamports - prevBalance then
    return [update, .blockchainEvent
      (.deposit acc.txnSignature acc.pubkey (acc.lamports - prevBalance))]
  else if acc.lamports < prevBalance
      ∧ balanceChangeThresholdSol < prevBalance - acc.lamports then
    return [update, .blockchainEvent
      (.withdrawal acc.txnSignature acc.pubkey (prevBalance - acc.lamports))]
  else return [update]

/-- The closure of the collector's `filter_map`.  A status update gives nothing. -/
def onFeedEvent (crates : Crates) (mode : Mode) (now : Instant) (e : GeyserFeedEvent) :
    Call (List BotEvent) :=
  match e with
  | .transaction txUpdate => parseTransaction crates mode now txUpdate
  | .account acc          => parseAccount acc
  | .txStatusUpdate _     => throw .returnedNone

-- ── When the swap stage goes through ────────────────────────────────────────

/-- What a swap adds to the base reserve of its pool. -/
def baseDelta (pool : RaydiumPool) (s : Swap) : ℚ :=
  updatedBaseReserve s.tradeDirection 0 (uiAmount s.baseAmount pool.baseDecimals)

/-- What a swap adds to the quote reserve of its pool. -/
def quoteDelta (pool : RaydiumPool) (s : Swap) : ℚ :=
  updatedQuoteReserve s.tradeDirection 0 (uiAmount s.quoteAmount pool.quoteDecimals)

/-- The sum of `delta` over the swaps in the pool `id`. -/
def shift (delta : Swap → ℚ) (id : Pubkey) (swaps : List Swap) : ℚ :=
  ((swaps.filter fun s => s.poolId = id).map delta).sum

/-- The swap `s`, coming after the swaps `before`, converts to token units and leaves
    no reserve of its pool negative, when the cache has `entry` for the pool. -/
structure Fits (pool : RaydiumPool) (entry : RaydiumPoolPriceUpdate)
    (before : List Swap) (s : Swap) : Prop where
  baseConvertible  : Convertible s.baseAmount pool.baseDecimals
  quoteConvertible : Convertible s.quoteAmount pool.quoteDecimals
  base_nonneg      : 0 ≤ entry.baseReserve + shift (baseDelta pool) s.poolId (before ++ [s])
  quote_nonneg     :
    0 ≤ entry.quoteReserve + shift (quoteDelta pool) s.poolId (before ++ [s])

/-- Every swap of a monitored pool has a price entry, and fits. -/
def SwapsApply (cache : OperationalCache) (swaps : List Swap) : Prop :=
  ∀ before s rest pool, swaps = before ++ s :: rest →
    cache.targetPools s.poolId = some pool →
    ∃ entry, cache.targetPoolsPrices s.poolId = some entry ∧ Fits pool entry before s

/-- The cache entry of a pool after one of its swaps. -/
def shiftEntry (pool : RaydiumPool) (s : Swap) (entry : RaydiumPoolPriceUpdate) :
    RaydiumPoolPriceUpdate :=
  { entry with
    baseReserve := entry.baseReserve + baseDelta pool s
    quoteReserve := entry.quoteReserve + quoteDelta pool s }

/-- The cache after a swap that went through. -/
def shiftPrices (cache : OperationalCache) (s : Swap) : OperationalCache :=
  match cache.targetPools s.poolId with
  | none      => cache
  | some pool =>
      { cache with
        targetPoolsPrices := Function.update cache.targetPoolsPrices s.poolId
          ((cache.targetPoolsPrices s.poolId).map (shiftEntry pool s)) }

theorem updatedBaseReserve_eq (d : TradeDirection) (reserve amount : ℚ) :
    updatedBaseReserve d reserve amount = reserve + updatedBaseReserve d 0 amount := by
  cases d with
  | buy => simp [updatedBaseReserve, sub_eq_add_neg]
  | sell => simp [updatedBaseReserve]

theorem updatedQuoteReserve_eq (d : TradeDirection) (reserve amount : ℚ) :
    updatedQuoteReserve d reserve amount = reserve + updatedQuoteReserve d 0 amount := by
  cases d with
  | buy => simp [updatedQuoteReserve]
  | sell => simp [updatedQuoteReserve, sub_eq_add_neg]

theorem shift_cons_self (delta : Swap → ℚ) (s : Swap) (swaps : List Swap) :
    shift delta s.poolId (s :: swaps) = delta s + shift delta s.poolId swaps := by
  simp [shift]

theorem shift_cons_other (delta : Swap → ℚ) {s : Swap} {id : Pubkey} (h : s.poolId ≠ id)
    (swaps : List Swap) : shift delta id (s :: swaps) = shift delta id swaps := by
  simp [shift, h]

theorem shift_singleton (delta : Swap → ℚ) (s : Swap) :
    shift delta s.poolId [s] = delta s := by
  simp [shift]

variable {cache : OperationalCache} {s t : Swap} {pool : RaydiumPool}

/-- Only the cached prices are shifted. -/
theorem shiftPrices_eq (cache : OperationalCache) (s : Swap) :
    ∃ prices, shiftPrices cache s = { cache with targetPoolsPrices := prices } := by
  cases h : cache.targetPools s.poolId with
  | none => exact ⟨cache.targetPoolsPrices, by simp [shiftPrices, h]⟩
  | some pool =>
      simp only [shiftPrices, h]
      exact ⟨_, rfl⟩

theorem shiftPrices_targetPools (cache : OperationalCache) (s : Swap) :
    (shiftPrices cache s).targetPools = cache.targetPools := by
  obtain ⟨prices, h⟩ := shiftPrices_eq cache s
  rw [h]

/-- A swap in another pool leaves the entry of a pool alone. -/
theorem shiftPrices_other (h : s.poolId ≠ t.poolId) :
    (shiftPrices cache s).targetPoolsPrices t.poolId =
      cache.targetPoolsPrices t.poolId := by
  cases hp : cache.targetPools s.poolId with
  | none => simp [shiftPrices, hp]
  | some p => simp [shiftPrices, hp, Function.update_of_ne (Ne.symm h)]

theorem shiftPrices_self (h : cache.targetPools s.poolId = some pool) :
    (shiftPrices cache s).targetPoolsPrices s.poolId =
      (cache.targetPoolsPrices s.poolId).map (shiftEntry pool s) := by
  simp [shiftPrices, h]

theorem fits_shiftEntry {entry : RaydiumPoolPriceUpdate} {before : List Swap}
    (h : s.poolId = t.poolId) :
    Fits pool (shiftEntry pool s entry) before t ↔ Fits pool entry (s :: before) t := by
  have hbase : shift (baseDelta pool) t.poolId (s :: (before ++ [t])) =
      baseDelta pool s + shift (baseDelta pool) t.poolId (before ++ [t]) := by
    rw [← h]
    exact shift_cons_self _ s _
  have hquote : shift (quoteDelta pool) t.poolId (s :: (before ++ [t])) =
      quoteDelta pool s + shift (quoteDelta pool) t.poolId (before ++ [t]) := by
    rw [← h]
    exact shift_cons_self _ s _
  constructor
  · intro hf
    refine ⟨hf.baseConvertible, hf.quoteConvertible, ?_, ?_⟩
    · rw [List.cons_append, hbase, ← add_assoc]
      exact hf.base_nonneg
    · rw [List.cons_append, hquote, ← add_assoc]
      exact hf.quote_nonneg
  · intro hf
    refine ⟨hf.baseConvertible, hf.quoteConvertible, ?_, ?_⟩
    · have := hf.base_nonneg
      rwa [List.cons_append, hbase, ← add_assoc] at this
    · have := hf.quote_nonneg
      rwa [List.cons_append, hquote, ← add_assoc] at this

theorem fits_cons_other {entry : RaydiumPoolPriceUpdate} {before : List Swap}
    (h : s.poolId ≠ t.poolId) :
    Fits pool entry (s :: before) t ↔ Fits pool entry before t := by
  constructor
  · intro hf
    refine ⟨hf.baseConvertible, hf.quoteConvertible, ?_, ?_⟩
    · have := hf.base_nonneg
      rwa [List.cons_append, shift_cons_other _ h] at this
    · have := hf.quote_nonneg
      rwa [List.cons_append, shift_cons_other _ h] at this
  · intro hf
    refine ⟨hf.baseConvertible, hf.quoteConvertible, ?_, ?_⟩
    · rw [List.cons_append, shift_cons_other _ h]
      exact hf.base_nonneg
    · rw [List.cons_append, shift_cons_other _ h]
      exact hf.quote_nonneg

/-- A later swap fits after the shift iff it fits before it, counting the earlier one. -/
theorem entry_shiftPrices_iff {before : List Swap}
    (ht : cache.targetPools t.poolId = some pool) :
    (∃ entry, (shiftPrices cache s).targetPoolsPrices t.poolId = some entry ∧
        Fits pool entry before t) ↔
      ∃ entry, cache.targetPoolsPrices t.poolId = some entry ∧
        Fits pool entry (s :: before) t := by
  by_cases h : s.poolId = t.poolId
  · have hs : cache.targetPools s.poolId = some pool := by rw [h]; exact ht
    have hself := shiftPrices_self hs
    rw [h] at hself
    rw [hself]
    cases he : cache.targetPoolsPrices t.poolId with
    | none => simp
    | some entry => simp [fits_shiftEntry h]
  · rw [shiftPrices_other h]
    simp [fits_cons_other h]

/-- **THE CONDITION, SWAP BY SWAP.** -/
theorem swapsApply_cons (rest : List Swap) :
    SwapsApply cache (s :: rest) ↔
      SwapsApply cache [s] ∧ SwapsApply (shiftPrices cache s) rest := by
  constructor
  · intro h
    constructor
    · intro before t post pool heq hp
      cases before with
      | nil =>
          obtain ⟨rfl, -⟩ := List.cons.inj heq
          exact h [] s rest pool rfl hp
      | cons b bs => simp at heq
    · intro before t post pool heq hp
      rw [shiftPrices_targetPools] at hp
      rw [entry_shiftPrices_iff hp]
      exact h (s :: before) t post pool (by rw [heq]; rfl) hp
  · rintro ⟨hone, hrest⟩ before t post pool heq hp
    cases before with
    | nil =>
        obtain ⟨rfl, -⟩ := List.cons.inj heq
        exact hone [] s [] pool rfl hp
    | cons b bs =>
        obtain ⟨rfl, hbs⟩ := List.cons.inj heq
        rw [← entry_shiftPrices_iff hp]
        exact hrest bs t post pool hbs (by rw [shiftPrices_targetPools]; exact hp)

theorem swapsApply_nil : SwapsApply cache [] := by
  intro before t post pool heq
  simp at heq

theorem swapsApply_unmonitored (h : cache.targetPools s.poolId = none) :
    SwapsApply cache [s] := by
  intro before t post pool heq hp
  cases before with
  | nil =>
      obtain ⟨rfl, -⟩ := List.cons.inj heq
      rw [h] at hp
      cases hp
  | cons b bs => simp at heq

theorem swapsApply_monitored (h : cache.targetPools s.poolId = some pool) :
    SwapsApply cache [s] ↔
      ∃ entry, cache.targetPoolsPrices s.poolId = some entry ∧ Fits pool entry [] s := by
  constructor
  · intro hs
    exact hs [] s [] pool rfl h
  · intro hfit before t post pool' heq hp
    cases before with
    | nil =>
        obtain ⟨rfl, -⟩ := List.cons.inj heq
        rw [h, Option.some.injEq] at hp
        subst hp
        exact hfit
    | cons b bs => simp at heq

/-- One swap, with both of its checks. -/
theorem fits_nil_iff {entry : RaydiumPoolPriceUpdate} :
    Fits pool entry [] s ↔
      (Convertible s.baseAmount pool.baseDecimals ∧
        Convertible s.quoteAmount pool.quoteDecimals) ∧
      0 ≤ entry.baseReserve + baseDelta pool s ∧
      0 ≤ entry.quoteReserve + quoteDelta pool s := by
  constructor
  · rintro ⟨hb, hq, h1, h2⟩
    rw [List.nil_append, shift_singleton] at h1 h2
    exact ⟨⟨hb, hq⟩, h1, h2⟩
  · rintro ⟨⟨hb, hq⟩, h1, h2⟩
    refine ⟨hb, hq, ?_, ?_⟩
    · rw [List.nil_append, shift_singleton]
      exact h1
    · rw [List.nil_append, shift_singleton]
      exact h2

/-- The two checks, once the amounts are converted and the reserves written. -/
theorem applySwap_converted {entry : RaydiumPoolPriceUpdate} (now : Instant)
    (sig : Signature) (hpool : cache.targetPools s.poolId = some pool)
    (hentry : cache.targetPoolsPrices s.poolId = some entry)
    (hb : Convertible s.baseAmount pool.baseDecimals)
    (hq : Convertible s.quoteAmount pool.quoteDecimals) :
    ∃ event, exec (applySwap now sig s) cache =
      exec (if entry.baseReserve + baseDelta pool s < 0 then throw .returnedNone
        else if entry.quoteReserve + quoteDelta pool s < 0 then throw .returnedNone
        else pure [event] : Call (List BotEvent)) (shiftPrices cache s) := by
  have hshift : shiftPrices cache s = { cache with
      targetPoolsPrices := Function.update cache.targetPoolsPrices s.poolId
        (some (shiftEntry pool s entry)) } := by
    simp [shiftPrices, hpool, hentry]
  have hbase : updatedBaseReserve s.tradeDirection entry.baseReserve
      (uiAmount s.baseAmount pool.baseDecimals) = entry.baseReserve + baseDelta pool s :=
    updatedBaseReserve_eq _ _ _
  have hquote : updatedQuoteReserve s.tradeDirection entry.quoteReserve
      (uiAmount s.quoteAmount pool.quoteDecimals) = entry.quoteReserve + quoteDelta pool s :=
    updatedQuoteReserve_eq _ _ _
  refine ⟨swapEvent now sig pool s.tradeDirection (uiAmount s.baseAmount pool.baseDecimals)
    (uiAmount s.quoteAmount pool.quoteDecimals) (entry.baseReserve + baseDelta pool s)
    (entry.quoteReserve + quoteDelta pool s), ?_⟩
  rw [hshift, applySwap, exec_get_bind]
  simp only [hpool, hentry, tokensToUiAmount_eq, if_pos hb, if_pos hq]
  rw [show orNone (some entry) = .ok entry from rfl, exec_outcome_ok_bind,
    exec_outcome_ok_bind, exec_outcome_ok_bind, exec_set_bind, hbase, hquote]
  rfl

/-- **WHAT ONE SWAP DOES**: it applies and shifts the reserves, or it stops the call,
    and nothing but the cached prices may have changed. -/
theorem applySwap_cases (now : Instant) (sig : Signature) (cache : OperationalCache)
    (s : Swap) :
    (SwapsApply cache [s] ∧ ∃ events,
      exec (applySwap now sig s) cache = (.ok events, shiftPrices cache s)) ∨
    (¬ SwapsApply cache [s] ∧ ∃ stop prices,
      exec (applySwap now sig s) cache =
        (.error stop, { cache with targetPoolsPrices := prices })) := by
  cases hpool : cache.targetPools s.poolId with
  | none =>
      refine .inl ⟨swapsApply_unmonitored hpool, [], ?_⟩
      simp [applySwap, shiftPrices, hpool]
  | some pool =>
      rw [swapsApply_monitored hpool]
      cases hentry : cache.targetPoolsPrices s.poolId with
      | none =>
          refine .inr ⟨by simp, .returnedNone, cache.targetPoolsPrices, ?_⟩
          rw [applySwap, exec_get_bind]
          simp only [hpool, hentry]
          rfl
      | some entry =>
          simp only [Option.some.injEq, exists_eq_left', fits_nil_iff]
          by_cases hb : Convertible s.baseAmount pool.baseDecimals
          · by_cases hq : Convertible s.quoteAmount pool.quoteDecimals
            · obtain ⟨event, hexec⟩ := applySwap_converted now sig hpool hentry hb hq
              obtain ⟨prices, hprices⟩ := shiftPrices_eq cache s
              rw [hexec]
              by_cases h1 : entry.baseReserve + baseDelta pool s < 0
              · refine .inr ⟨fun h => absurd h.2.1 (not_le.mpr h1), .returnedNone, prices, ?_⟩
                rw [if_pos h1, exec_throw, hprices]
              · by_cases h2 : entry.quoteReserve + quoteDelta pool s < 0
                · refine .inr ⟨fun h => absurd h.2.2 (not_le.mpr h2), .returnedNone, prices,
                    ?_⟩
                  rw [if_neg h1, if_pos h2, exec_throw, hprices]
                · refine .inl ⟨⟨⟨hb, hq⟩, not_lt.mp h1, not_lt.mp h2⟩, [event], ?_⟩
                  rw [if_neg h1, if_neg h2, exec_pure]
            · refine .inr ⟨fun h => hq h.1.2, .panicked, cache.targetPoolsPrices, ?_⟩
              rw [applySwap, exec_get_bind]
              simp only [hpool, hentry, tokensToUiAmount_eq, if_pos hb, if_neg hq]
              rfl
          · refine .inr ⟨fun h => hb h.1.1, .panicked, cache.targetPoolsPrices, ?_⟩
            rw [applySwap, exec_get_bind]
            simp only [hpool, hentry, tokensToUiAmount_eq, if_neg hb]
            rfl

-- ── The stages of a call ────────────────────────────────────────────────────

/-- The tables of signatures are as they were. -/
def SameSignatures (c c' : OperationalCache) : Prop :=
  c'.agentTxSignatures = c.agentTxSignatures ∧
    c'.processedSignatures = c.processedSignatures

theorem SameSignatures.refl (c : OperationalCache) : SameSignatures c c := ⟨rfl, rfl⟩

theorem SameSignatures.trans (a b c : OperationalCache) (hab : SameSignatures a b)
    (hbc : SameSignatures b c) : SameSignatures a c :=
  ⟨hbc.1.trans hab.1, hbc.2.trans hab.2⟩

theorem noteFee_same (tx : TransactionPretty) (c : OperationalCache) :
    SameSignatures c (noteFee tx c) := by
  simp only [noteFee]
  split
  · exact .refl c
  · split
    · split
      · exact .refl c
      · split
        · exact ⟨rfl, rfl⟩
        · exact .refl c
    · exact .refl c

theorem applySwap_frame (now : Instant) (sig : Signature) (s : Swap) :
    Frame SameSignatures (applySwap now sig s) := by
  intro c
  rcases applySwap_cases now sig c s with ⟨-, events, h⟩ | ⟨-, stop, prices, h⟩
  · obtain ⟨prices, hprices⟩ := shiftPrices_eq c s
    rw [h, hprices]
    exact ⟨rfl, rfl⟩
  · rw [h]
    exact ⟨rfl, rfl⟩

theorem applySwaps_frame (now : Instant) (sig : Signature) (swaps : List Swap) :
    Frame SameSignatures (applySwaps now sig swaps) := by
  induction swaps with
  | nil => exact SameSignatures.refl
  | cons s rest ih =>
      refine Frame.bind SameSignatures.trans (applySwap_frame now sig s) fun event => ?_
      exact Frame.bind SameSignatures.trans ih fun events => SameSignatures.refl

/-- **WHEN THE SWAP STAGE GOES THROUGH.** -/
theorem applySwaps_ok_iff (now : Instant) (sig : Signature) (swaps : List Swap)
    (cache : OperationalCache) :
    (∃ events, (exec (applySwaps now sig swaps) cache).1 = .ok events) ↔
      SwapsApply cache swaps := by
  induction swaps generalizing cache with
  | nil => exact ⟨fun _ => swapsApply_nil, fun _ => ⟨[], rfl⟩⟩
  | cons s rest ih =>
      rw [swapsApply_cons, applySwaps]
      rcases applySwap_cases now sig cache s with ⟨hs, event, h⟩ | ⟨hs, stop, prices, h⟩
      · rw [exec_bind_ok h, ← ih (shiftPrices cache s)]
        cases hrest : exec (applySwaps now sig rest) (shiftPrices cache s) with
        | mk x c =>
            cases x with
            | error e =>
                rw [exec_bind_error hrest]
                simp
            | ok events =>
                rw [exec_bind_ok hrest]
                simp [hs]
      · rw [exec_bind_error h]
        simp [hs]

theorem announcePool_ok (p : RaydiumPool) (u : RaydiumPoolPriceUpdate)
    (c : OperationalCache) :
    ∃ events c', exec (announcePool p u) c = (.ok events, c') ∧ SameSignatures c c' := by
  rw [announcePool, exec_get_bind]
  by_cases h : c.targetTokens.contains p.baseMint = true
  · rw [if_pos h]
    exact ⟨[], c, rfl, .refl c⟩
  · rw [if_neg h]
    exact ⟨_, _, rfl, rfl, rfl⟩

theorem ifLetSome_frame {α : Type} {x : Flow α} {body : α → Call (List BotEvent)}
    (h : ∀ a, Frame SameSignatures (body a)) :
    Frame SameSignatures (ifLetSome x body) := by
  intro c
  cases x with
  | ok a => exact h a c
  | error stop =>
      cases stop with
      | panicked => exact .refl c
      | returnedNone => exact .refl c

/-- A stage goes through unless its parser panics or its body stops. -/
theorem ifLetSome_ok_iff {α : Type} (x : Flow α) (body : α → Call (List BotEvent))
    (c : OperationalCache) :
    (∃ events, (exec (ifLetSome x body) c).1 = .ok events) ↔
      x ≠ .error .panicked ∧
        ∀ a, x = .ok a → ∃ events, (exec (body a) c).1 = .ok events := by
  cases x with
  | ok a => simp [ifLetSome]
  | error stop =>
      cases stop with
      | panicked => simp [ifLetSome]
      | returnedNone => simp [ifLetSome]

end FoxfireCollector
