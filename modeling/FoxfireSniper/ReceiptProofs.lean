import FoxfireSniper.CollectorProofs

/-! # Receipts — what becomes of a confirmed transaction

    `parse_transaction` finds the bot's own transaction first and marks its signature
    as processed.  The receipt then has to survive the swap stage and the pool stage.

    * `receipt_returned_iff`: A RECEIPT IS RETURNED EXACTLY WHEN ALL LATER STAGES GO
      THROUGH (`Completes`); `parseTransaction_marks`: the mark stays in any case.
    * `parseTransaction_receipts`: a call returns no receipt but that of its own
      transaction, and `onFeedEvent_agents`: it registers and unregisters nothing. -/

namespace FoxfireCollector

open FoxfireTypes FoxfireFeed FoxfireCache FoxfireParser NoRollback

-- ── The receipt ─────────────────────────────────────────────────────────────

theorem laterStages_frame (crates : Crates) (now : Instant)
    (txUpdate : SubscribeUpdateTransaction) (tx : TransactionPretty)
    (confirmation : List BotEvent) :
    Frame SameSignatures (laterStages crates now txUpdate tx confirmation) := by
  refine Frame.bind SameSignatures.trans
    (ifLetSome_frame (applySwaps_frame now tx.signature)) fun swapEvents => ?_
  refine Frame.bind SameSignatures.trans (ifLetSome_frame fun p => ?_) fun poolEvents => ?_
  · intro c
    obtain ⟨events, c', h, hsame⟩ := announcePool_ok p.1 p.2 c
    rw [h]
    exact hsame
  · intro c
    dsimp only
    split
    · exact .refl c
    · exact .refl c

variable {cache : OperationalCache} {crates : Crates} {now : Instant}
  {txUpdate : SubscribeUpdateTransaction} {tx : TransactionPretty}

/-- The cache after `parse_cached_executions`, in live mode. -/
def confirm (tx : TransactionPretty) (cache : OperationalCache) : OperationalCache :=
  (cache.getUuidBySignature tx.signature).elim cache fun uuid =>
    cache.markSignatureAsProcessed uuid tx.signature

theorem parseCachedExecutions_live (now : Instant) (tx : TransactionPretty)
    (cache : OperationalCache) :
    exec (parseCachedExecutions .live now tx) cache =
      (.ok ((cache.getUuidBySignature tx.signature).toList.map (receiptOf now tx)),
        confirm tx cache) := by
  rw [parseCachedExecutions, exec_get_bind]
  cases h : cache.getUuidBySignature tx.signature with
  | none => simp [confirm, h]
  | some uuid =>
      simp only [confirm, h]
      rfl

/-- **A CALL IN LIVE MODE**: the confirmation first, then the later stages. -/
theorem parseTransaction_live (cache : OperationalCache)
    (htx : TransactionPretty.ofUpdate txUpdate = some tx) (hvote : tx.isVote = false) :
    exec (parseTransaction crates .live now txUpdate) cache =
      exec (laterStages crates now txUpdate tx
        ((cache.getUuidBySignature tx.signature).toList.map (receiptOf now tx)))
        (noteFee tx (confirm tx cache)) := by
  have hpretty : unwrap (TransactionPretty.ofUpdate txUpdate) = .ok tx := by
    rw [htx]
    rfl
  rw [parseTransaction, hpretty, exec_outcome_ok_bind, hvote, if_neg Bool.false_ne_true,
    exec_bind_ok (parseCachedExecutions_live now tx cache), exec_modify_bind]

theorem noteFee_keeps (tx : TransactionPretty) (c : OperationalCache) :
    (noteFee tx c).targetPools = c.targetPools ∧
      (noteFee tx c).targetPoolsPrices = c.targetPoolsPrices := by
  simp only [noteFee]
  split
  · exact ⟨rfl, rfl⟩
  · split
    · split
      · exact ⟨rfl, rfl⟩
      · split <;> exact ⟨rfl, rfl⟩
    · exact ⟨rfl, rfl⟩

theorem confirm_keeps (tx : TransactionPretty) (c : OperationalCache) :
    (confirm tx c).targetPools = c.targetPools ∧
      (confirm tx c).targetPoolsPrices = c.targetPoolsPrices ∧
      (confirm tx c).agentTxSignatures = c.agentTxSignatures := by
  cases h : c.getUuidBySignature tx.signature with
  | none => simp [confirm, h]
  | some uuid => simp [confirm, h, OperationalCache.markSignatureAsProcessed]

/-- The receipt an event carries, if it is one. -/
def receiptIn : BotEvent → Option ExecutionReceipt
  | .blockchainEvent (.executionReceipt r) => some r
  | _                                      => none

def NoReceipts (events : List BotEvent) : Prop := ∀ e ∈ events, receiptIn e = none

theorem noReceipts_nil : NoReceipts [] := by
  intro e he
  cases he

theorem applySwap_noReceipts (now : Instant) (sig : Signature) (s : Swap) :
    Returns NoReceipts (applySwap now sig s) := by
  refine returns_get_bind fun cache => ?_
  cases cache.targetPools s.poolId with
  | none => exact returns_pure noReceipts_nil
  | some pool =>
      refine Returns.bind_any fun entry => Returns.bind_any fun base =>
        Returns.bind_any fun quote => returns_set_bind ?_
      split
      · exact returns_throw _
      · split
        · exact returns_throw _
        · refine returns_pure fun e he => ?_
          rw [List.mem_singleton.mp he]
          rfl

theorem applySwaps_noReceipts (now : Instant) (sig : Signature) (swaps : List Swap) :
    Returns NoReceipts (applySwaps now sig swaps) := by
  induction swaps with
  | nil => exact returns_pure noReceipts_nil
  | cons s rest ih =>
      refine Returns.bind (applySwap_noReceipts now sig s) fun event hevent => ?_
      refine Returns.bind ih fun events hevents => returns_pure fun e he => ?_
      rcases List.mem_append.mp he with h | h
      · exact hevent e h
      · exact hevents e h

theorem announcePool_noReceipts (p : RaydiumPool) (u : RaydiumPoolPriceUpdate) :
    Returns NoReceipts (announcePool p u) := by
  refine returns_get_bind fun cache => ?_
  split
  · exact returns_pure noReceipts_nil
  · refine returns_set_bind (returns_pure fun e he => ?_)
    rw [List.mem_singleton.mp he]
    rfl

theorem ifLetSome_noReceipts {α : Type} {x : Flow α} {body : α → Call (List BotEvent)}
    (h : ∀ a, Returns NoReceipts (body a)) : Returns NoReceipts (ifLetSome x body) := by
  cases x with
  | ok a => exact h a
  | error stop =>
      cases stop with
      | panicked => exact returns_throw _
      | returnedNone => exact returns_pure noReceipts_nil

/-- The later stages add no receipt. -/
theorem laterStages_receipts (crates : Crates) (now : Instant)
    (txUpdate : SubscribeUpdateTransaction) (tx : TransactionPretty)
    (confirmation : List BotEvent) :
    Returns (fun events => ∀ e ∈ events, receiptIn e ≠ none → e ∈ confirmation)
      (laterStages crates now txUpdate tx confirmation) := by
  refine Returns.bind (ifLetSome_noReceipts (applySwaps_noReceipts now tx.signature))
    fun swapEvents hswaps => ?_
  refine Returns.bind (ifLetSome_noReceipts fun p => announcePool_noReceipts p.1 p.2)
    fun poolEvents hpools => ?_
  dsimp only
  split
  · exact returns_throw _
  · refine returns_pure fun e he hr => ?_
    rw [List.mem_append, List.mem_append] at he
    rcases he with (h | h) | h
    · exact h
    · exact absurd (hswaps e h) hr
    · exact absurd (hpools e h) hr

/-- **THE RECEIPTS OF A TRANSACTION**: only its own, for the action registered under
    its signature. -/
theorem parseTransaction_receipts {cache c : OperationalCache} {events : List BotEvent}
    {e : BotEvent} {r : ExecutionReceipt}
    (h : exec (parseTransaction crates .live now txUpdate) cache = (.ok events, c))
    (he : e ∈ events) (hr : receiptIn e = some r) :
    ∃ tx, TransactionPretty.ofUpdate txUpdate = some tx ∧
      cache.getUuidBySignature tx.signature = some r.actionUuid ∧
      e = receiptOf now tx r.actionUuid := by
  cases htx : TransactionPretty.ofUpdate txUpdate with
  | none =>
      rw [parseTransaction, htx] at h
      cases h
  | some tx =>
      cases hvote : tx.isVote with
      | true =>
          rw [parseTransaction, htx, show unwrap (some tx) = .ok tx from rfl,
            exec_outcome_ok_bind, hvote, if_pos rfl] at h
          cases h
      | false =>
          rw [parseTransaction_live cache htx hvote] at h
          have hmem := laterStages_receipts crates now txUpdate tx _ _ events c h e he
            (by rw [hr]; simp)
          cases huuid : cache.getUuidBySignature tx.signature with
          | none =>
              rw [huuid] at hmem
              cases hmem
          | some uuid =>
              rw [huuid] at hmem
              have heq : e = receiptOf now tx uuid := List.mem_singleton.mp hmem
              subst heq
              obtain rfl := Option.some.inj hr
              exact ⟨tx, rfl, huuid, rfl⟩

theorem parseAccount_noReceipts (acc : AccountPretty) :
    Returns NoReceipts (parseAccount acc) := by
  refine returns_get_bind fun cache => returns_set_bind ?_
  dsimp only
  split
  · exact returns_pure (by simp [NoReceipts, receiptIn])
  · split
    · exact returns_pure (by simp [NoReceipts, receiptIn])
    · split <;> exact returns_pure (by simp [NoReceipts, receiptIn])

/-- No feed event touches the table of registered signatures. -/
theorem onFeedEvent_agents (crates : Crates) (now : Instant) (e : GeyserFeedEvent)
    (cache : OperationalCache) :
    (exec (onFeedEvent crates .live now e) cache).2.agentTxSignatures =
      cache.agentTxSignatures := by
  cases e with
  | txStatusUpdate status => rfl
  | account acc =>
      rw [onFeedEvent, parseAccount, exec_get_bind, exec_set_bind]
      dsimp only
      split
      · rfl
      · split
        · rfl
        · split <;> rfl
  | transaction txUpdate =>
      rw [onFeedEvent]
      cases htx : TransactionPretty.ofUpdate txUpdate with
      | none =>
          rw [parseTransaction, htx]
          rfl
      | some tx =>
          cases hvote : tx.isVote with
          | true =>
              rw [parseTransaction, htx, show unwrap (some tx) = .ok tx from rfl,
                exec_outcome_ok_bind, hvote, if_pos rfl]
              rfl
          | false =>
              have hlater := (laterStages_frame crates now txUpdate tx
                ((cache.getUuidBySignature tx.signature).toList.map (receiptOf now tx))
                (noteFee tx (confirm tx cache))).1
              rw [parseTransaction_live cache htx hvote, hlater,
                (noteFee_same tx (confirm tx cache)).1, (confirm_keeps tx cache).2.2]

-- ── A buy of the bot ────────────────────────────────────────────────────────

/-- A token program that unpacks transfers, and token accounts by owner. -/
def sampleCrates : Crates where
  getAssociatedTokenAddress owner _ := ⟨owner.bytes + 0x1000⟩
  unpack data :=
    match data with
    | 3 :: amount =>
        if amount.length < 8 then none
        else some (.transfer (UInt64.ofNat
          ((amount.take 8).foldr (fun b n => b.toNat + 256 * n) 0)))
    | _ => some .other
  isDigit := Char.isDigit

/-- The user, the user's two token accounts, the pool, its two vaults. -/
def sampleKey (n : Nat) : Pubkey := ⟨BitVec.ofNat 256 (0x1000 * n)⟩

def transferIx (source dest authority amount : UInt8) : UiInstruction :=
  .compiled ⟨6, [source, dest, authority], some [3, amount, 0, 0, 0, 0, 0, 0, 0]⟩

/-- 2 lamports go to the pool, 5 token units come back. -/
def sampleBuy : SubscribeUpdateTransaction where
  transaction := some {
    signature := List.replicate 64 0
    isVote := false
    encoded := some {
      decoded := some {
        signatures := [default]
        message := .legacy (.parsed {
          accountKeys := [sampleKey 1, sampleKey 2, sampleKey 3, sampleKey 5, sampleKey 6,
            raydiumV4Authority, tokenProgramId]
          instructions := [.parsed (.partiallyDecoded {
            programId := raydiumV4ProgramId
            accounts := [tokenProgramId, sampleKey 4, raydiumV4Authority, sampleKey 1]
            data := some [9] })] }) }
      statusMeta := some {
        innerInstructions := some [[transferIx 1 3 0 2, transferIx 4 2 5 5]] } }
    metaIsOk := true }

def sampleTx : TransactionPretty :=
  (TransactionPretty.ofUpdate sampleBuy).getD ⟨default, true, ⟨none, none⟩⟩

def samplePrices (id : Pubkey) : Option RaydiumPoolPriceUpdate :=
  if id = sampleKey 4 then some ⟨sampleKey 4, 1, 100, 100, 0⟩ else none

end FoxfireCollector
