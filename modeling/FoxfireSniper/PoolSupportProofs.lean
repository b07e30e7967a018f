import FoxfireSniper.AgentProofs
import FoxfireSniper.BuildProofs
import FoxfireSniper.PoolOrientationProofs

/-! # From an accepted pool to a trade

    `is_valid_raydium_pool` (`src/solana/rpc_pool.rs`) accepts the pool that a user enters
    if either side is WSOL.  The strategy trades it as `get_pool_details` loads it, and the
    token is found three times over: the agent takes the base mint,
    `get_tokens_used_in_tx` the side that is not WSOL, and `build_instructions` refuses
    every pool whose quote is not WSOL.

    **`trades_token_iff`**: for an accepted pool they agree on the token, and no trade is
    refused, exactly when the base of the account is not WSOL. -/

namespace FoxfirePool

open FoxfireTypes FoxfireParser FoxfireAgent FoxfireBuild

-- ── Acceptance ──────────────────────────────────────────────────────────────

/-- `is_valid_raydium_pool`; `owner` is that of the account, if it can be read. -/
def isValidRaydiumPool (nodes : Nodes) (owner : Pubkey → Option Pubkey) (pubkey : Pubkey) :
    Flow Bool :=
  match owner pubkey with
  | none         => return false
  | some program =>
      if program = raydiumV4ProgramId then
        match getPoolDetails nodes pubkey with
        | .error .panicked     => throw .panicked
        | .error .returnedNone => return false
        | .ok pool             =>
            -- `unwrap`
            match getPoolReserves nodes pubkey with
            | .error _                         => throw .panicked
            | .ok (reserveBase, reserveQuote) =>
                return 0 < reserveBase && 0 < reserveQuote &&
                  (pool.baseMint = wsolMintPubkey || pool.quoteMint = wsolMintPubkey)
      else return false

/-- An accepted pool has WSOL on one side. -/
theorem wsol_of_valid {nodes : Nodes} {owner : Pubkey → Option Pubkey} {id : Pubkey}
    {pool : RaydiumPool} (h : isValidRaydiumPool nodes owner id = .ok true)
    (hpool : getPoolDetails nodes id = .ok pool) :
    pool.baseMint = wsolMintPubkey ∨ pool.quoteMint = wsolMintPubkey := by
  rw [isValidRaydiumPool, hpool] at h
  split at h
  · cases h
  · split at h
    · dsimp only at h
      split at h
      · cases h
      · have hand := Except.ok.inj h
        simp only [Bool.and_eq_true, Bool.or_eq_true, decide_eq_true_eq] at hand
        exact hand.2
    · cases h

-- ── Trades ──────────────────────────────────────────────────────────────────

/-- `AgentState::get_token_mint`. -/
def getTokenMint (a : AgentState) : Pubkey := a.pool.baseMint

/-- The agent queues this action to buy or to sell. -/
def Trades (a : AgentState) (action : SolanaAction) : Prop :=
  ∃ i, action ∈ queuedActions (a.buyForAll i).2 ∨
    ∃ amt, action ∈ queuedActions (a.sell i amt).2

/-- No trade of the agent is refused for its pool, and all take the pool's token for the one
    to trade. -/
structure TradesToken (a : AgentState) : Prop where
  supported : ∀ action, Trades a action → ∀ chain price cu base quote,
    buildInstructions chain action price cu ≠ .error (.unsupportedPool base quote)
  token     : ∃ mint, mint ≠ wsolMintPubkey ∧
    (mint = a.pool.baseMint ∨ mint = a.pool.quoteMint) ∧ getTokenMint a = mint ∧
    ∀ action, Trades a action → getTokensUsedInTx action = [mint] ∧
      ∀ chain price cu, (txContext chain action price cu).sniperTokenAta =
        chain.ata action.sniper.pubkey mint

/-- A trade is one swap, with the keys of the agent's pool. -/
theorem Trades.payload {a : AgentState} {action : SolanaAction} (h : Trades a action) :
    ∃ s, action.actionPayload = [.swap s] ∧ s.keys = a.pool.toLiquidityKeys := by
  obtain ⟨i, hmem | ⟨amt, hmem⟩⟩ := h
  · obtain rfl := List.mem_singleton.mp hmem
    exact ⟨_, rfl, rfl⟩
  · obtain rfl := List.mem_singleton.mp hmem
    exact ⟨_, rfl, rfl⟩

/-- The token that a trade of a supported pool is about. -/
theorem Trades.token {a : AgentState} {action : SolanaAction} (h : Trades a action)
    (hbase : a.pool.baseMint ≠ wsolMintPubkey) :
    getTokensUsedInTx action = [a.pool.baseMint] := by
  obtain ⟨s, hpay, hkeys⟩ := h.payload
  have hmint : s.keys.baseMint = a.pool.baseMint := by
    rw [hkeys]
    rfl
  have hne : s.keys.baseMint ≠ wsolMintPubkey := by
    rw [hmint]
    exact hbase
  have htoken : tokenOf (.swap s) = some a.pool.baseMint := (if_pos hne).trans (by rw [hmint])
  rw [getTokensUsedInTx, hpay, List.filterMap_cons_some htoken]
  rfl

/-- **AN ACCEPTED POOL CAN BE TRADED EXACTLY WHEN ITS BASE IS NOT WSOL.** -/
theorem trades_token_iff {nodes : Nodes} {owner : Pubkey → Option Pubkey} {id : Pubkey}
    {pool : RaydiumPool} {a : AgentState} (hvalid : isValidRaydiumPool nodes owner id = .ok true)
    (hpool : getPoolDetails nodes id = .ok pool) (ha : a.pool = pool) :
    TradesToken a ↔ pool.baseMint ≠ wsolMintPubkey := by
  subst ha
  constructor
  · intro h hbase
    obtain ⟨mint, hne, -, hmint, -⟩ := h.token
    exact hne (hmint.symm.trans hbase)
  · intro hbase
    have hquote : a.pool.quoteMint = wsolMintPubkey :=
      (wsol_of_valid hvalid hpool).resolve_left hbase
    refine ⟨?_, a.pool.baseMint, hbase, Or.inl rfl, rfl, ?_⟩
    · intro action htrade chain price cu base quote hrefused
      cases buildInstructions_refused hrefused with
      | @pool s hmem hunsup =>
          obtain ⟨s', hpay, hkeys⟩ := htrade.payload
          rw [hpay, List.mem_singleton, SolanaActionPayload.swap.injEq] at hmem
          subst hmem
          have hsup : supportedPool s.keys = true := by
            rw [hkeys, supportedPool, Bool.and_eq_true, decide_eq_true_eq, decide_eq_true_eq]
            exact ⟨hbase, hquote⟩
          rw [hsup] at hunsup
          cases hunsup
    · intro action htrade
      have htokens := htrade.token hbase
      refine ⟨htokens, fun chain price cu => ?_⟩
      show chain.ata action.sniper.pubkey (actionTokenMint action) = _
      rw [actionTokenMint, htokens]
      rfl

-- ── A pool of either orientation ────────────────────────────────────────────

/-- Nodes that hold one pool, with tokens in its vaults. -/
def onePool (coinMint pcMint : Pubkey) : Nodes where
  liquidityState := fun _ => .ok (openingState coinMint pcMint 6 9)
  tokenAmount := fun _ => .ok 1000

def raydiumOwned (_ : Pubkey) : Option Pubkey := some raydiumV4ProgramId

/-- An agent with the pool as it is loaded. -/
def poolAgent (coinMint pcMint : Pubkey) : AgentState :=
  (Agent.new (poolDetails ⟨1⟩ (openingState coinMint pcMint 6 9)) ⟨⟨2⟩, 2⟩ (some 1) none 0).storage

theorem token_against_wsol_trades : TradesToken (poolAgent ⟨7⟩ wsolMintPubkey) := by
  have hvalid : isValidRaydiumPool (onePool ⟨7⟩ wsolMintPubkey) raydiumOwned ⟨1⟩ = .ok true := by
    decide +kernel
  exact (trades_token_iff hvalid rfl rfl).mpr (by decide +kernel)

/-- **AN ACCEPTED POOL IS REFUSED**: WSOL against a token, and a purchase of an agent with
    one SOL. -/
theorem wsol_against_token_refused :
    ¬ ∀ (nodes : Nodes) (owner : Pubkey → Option Pubkey) (id : Pubkey) (pool : RaydiumPool)
      (a : AgentState), isValidRaydiumPool nodes owner id = .ok true →
      getPoolDetails nodes id = .ok pool → a.pool = pool → TradesToken a := by
  intro hclaim
  have hvalid : isValidRaydiumPool (onePool wsolMintPubkey ⟨7⟩) raydiumOwned ⟨1⟩ = .ok true := by
    decide +kernel
  have htrades := hclaim _ _ _ _ (poolAgent wsolMintPubkey ⟨7⟩) hvalid rfl rfl
  have hbuy : Trades (poolAgent wsolMintPubkey ⟨7⟩) (SolanaAction.new ⟨1⟩ 0 ⟨⟨2⟩, 2⟩
      [.swap ⟨(poolAgent wsolMintPubkey ⟨7⟩).pool.toLiquidityKeys, .buyTokensForExactSol,
        .maxButLeaveForTransfer, 0⟩]) :=
    ⟨⟨.forAgent .collect, 0, 0, ⟨1⟩, 0⟩, Or.inl List.mem_cons_self⟩
  exact htrades.supported _ hbuy sampleChain 0 0 wsolMintPubkey ⟨7⟩ rfl

end FoxfirePool
