import FoxfireSniper.Types
import FoxfireSniper.WordProofs
import Mathlib.Data.List.Dedup
import Mathlib.Algebra.BigOperators.Group.List.Basic

/-! # Building the instructions of an action — and where its tokens go

    `build_instructions` (`src/executors/build_instructions.rs`) walks the steps of an
    action with running pointers: the SOL and tokens still there, the fee still to be
    charged, the SOL to keep.  Every branch is modelled, with its instructions and its
    costs, in the source's `u64` arithmetic; a `Word` also records whether an addition
    or a subtraction wrapped, which a release build would not notice.

    Balances, account existence and associated token addresses are asked of `Chain`.

    * **`tokens_conserved`**: what the instructions take out of the sniper's token
      account never exceeds its balance, and an action that asks for more, or names two
      tokens, is refused. -/

namespace FoxfireBuild

open FoxfireTypes WordArith

-- ── What is asked of the chain ──────────────────────────────────────────────

structure Chain where
  /-- `get_balance(...).unwrap_or(0)` -/
  balance       : Pubkey → UInt64
  /-- `get_token_balance(...).unwrap_or(0)`, by owner and mint. -/
  tokenBalance  : Pubkey → Pubkey → UInt64
  /-- `is_account_exist` -/
  accountExists : Pubkey → Bool
  /-- `get_associated_token_address`, by owner and mint. -/
  ata           : Pubkey → Pubkey → Pubkey

/-- What stays fixed while the steps of one action are processed. -/
structure TxContext where
  chain        : Chain
  sniper       : Pubkey
  feePayer     : Pubkey
  tokenMint    : Pubkey
  solBalance   : UInt64
  tokenBalance : UInt64
  txFee        : UInt64

def TxContext.sniperTokenAta (tx : TxContext) : Pubkey := tx.chain.ata tx.sniper tx.tokenMint

def TxContext.sniperWsolAta (tx : TxContext) : Pubkey := tx.chain.ata tx.sniper wsolMintPubkey

/-- The running pointers of the loop; `wrapped` is set once an addition or a
    subtraction has wrapped. -/
structure Pointers where
  solBalancePointer        : UInt64
  txFeePointer             : UInt64
  tokenBalancePointer      : UInt64
  minSolToKeepAfterPointer : UInt64
  wrapped                  : Bool

/-- What a step that does something adds to the transaction. -/
structure Emission where
  stepIxs           : List Instruction
  solCost           : UInt64
  tokenCost         : UInt64
  minSolToKeepAfter : UInt64

/-- A step's emission, if it does anything, and whether its arithmetic wrapped. -/
abbrev StepResult := Option Emission × Bool

-- ── The steps ───────────────────────────────────────────────────────────────

/-- `Asset::Sol`. -/
def transferSol (tx : TxContext) (p : Pointers) (t : SolanaTransferActionPayload) :
    StepResult :=
  match t.amount with
  | .exact amount =>
      if 0 < amount then
        let cost : Word := amount + p.txFeePointer
        (some ⟨[.systemTransfer tx.sniper t.receiver amount], cost.val, 0, 0⟩, cost.wrapped)
      else (none, false)
  | .exactWithFees amount =>
      if 0 < amount then
        let amtToTransfer : Word := amount - p.txFeePointer
        let cost : Word := amtToTransfer + p.txFeePointer
        (some ⟨[.systemTransfer tx.sniper t.receiver amtToTransfer.val], cost.val, 0, 0⟩,
          cost.wrapped)
      else (none, false)
  | .max | .maxAndClose =>
      -- the balance before the action, not the pointer
      let cost : Word := p.solBalancePointer - p.txFeePointer
      (some ⟨[.systemTransfer tx.sniper t.receiver tx.solBalance], cost.val, 0, 0⟩,
        cost.wrapped)
  | .maxButLeaveForTransfer =>
      let reserve : Word := tx.txFee + p.txFeePointer
      if reserve.val < p.solBalancePointer then
        let amtToTransfer : Word := p.solBalancePointer - tx.txFee - p.txFeePointer
        let cost : Word := amtToTransfer + p.txFeePointer
        (some ⟨[.systemTransfer tx.sniper t.receiver amtToTransfer.val], cost.val, 0,
          tx.txFee⟩, reserve.wrapped || cost.wrapped)
      else (none, reserve.wrapped)

/-- The tokens that an amount stands for: a given number, or all that are left. -/
def tokenAmount (p : Pointers) : Amount → UInt64
  | .exact amount           => amount
  | .exactWithFees amount   => amount
  | .maxButLeaveForTransfer => p.tokenBalancePointer
  | .max                    => p.tokenBalancePointer
  | .maxAndClose            => p.tokenBalancePointer

/-- `Asset::Token`. -/
def transferToken (tx : TxContext) (p : Pointers) (t : SolanaTransferActionPayload)
    (tokenPubkey : Pubkey) : StepResult :=
  let receiverAta := tx.chain.ata t.receiver tx.tokenMint
  let tokenAmt := tokenAmount p t.amount
  let create := !tx.chain.accountExists receiverAta
  if 0 < tokenAmt then
    (some ⟨(if create then
          [.createAssociatedTokenAccount tx.feePayer t.receiver tokenPubkey tokenProgramId]
          else [])
        ++ [.tokenTransfer tx.sniperTokenAta receiverAta tx.sniper tokenAmt]
        ++ (if t.amount = .maxAndClose
          then [.closeAccount tx.sniperTokenAta tx.feePayer tx.sniper] else []),
      if create then rentExemptionThresholdSol else 0, tokenAmt, 0⟩, false)
  else (none, false)

/-- The accounts a swap pays from and into, by method and orientation of the pool. -/
def userKeys (tx : TxContext) (s : SolanaSwapActionPayload) : UserKeys :=
  match s.swapMethod with
  | .buyTokensForExactSol =>
      if s.keys.baseMint = wsolMintPubkey
      then ⟨tx.sniperTokenAta, tx.sniperWsolAta, tx.sniper⟩
      else ⟨tx.sniperWsolAta, tx.sniperTokenAta, tx.sniper⟩
  | .sellExactTokensForSol =>
      if s.keys.baseMint = wsolMintPubkey
      then ⟨tx.sniperWsolAta, tx.sniperTokenAta, tx.sniper⟩
      else ⟨tx.sniperTokenAta, tx.sniperWsolAta, tx.sniper⟩

def ataCreationFee (tx : TxContext) : UInt64 :=
  if tx.chain.accountExists tx.sniperTokenAta then 0 else rentExemptionThresholdSol

def wsolAtaCreationFeeReimbursed (tx : TxContext) : UInt64 :=
  if tx.chain.accountExists tx.sniperWsolAta then 0 else rentExemptionThresholdSol

/-- `swap_sol_amount_in`.  Only the amounts that depend on the balance are checked
    against it. -/
def swapSolAmountIn (tx : TxContext) (p : Pointers) : Amount → Except ExecutionError Word
  | .exact amount => .ok amount
  | .exactWithFees amount =>
      let fees : Word := p.txFeePointer + ataCreationFee tx + wsolAtaCreationFeeReimbursed tx
      if p.solBalancePointer < amount
      then .error (.notEnoughSolBalance amount p.solBalancePointer)
      else .ok (amount - fees)
  | .max =>
      let amtNeeded : Word :=
        p.txFeePointer + ataCreationFee tx + wsolAtaCreationFeeReimbursed tx
      if p.solBalancePointer < amtNeeded.val
      then .error (.notEnoughSolBalance amtNeeded.val p.solBalancePointer)
      else .ok (p.solBalancePointer - amtNeeded)
  | .maxButLeaveForTransfer =>
      let amtNeeded : Word :=
        p.txFeePointer + tx.txFee + ataCreationFee tx + wsolAtaCreationFeeReimbursed tx
      if p.solBalancePointer < amtNeeded.val
      then .error (.notEnoughSolBalance amtNeeded.val p.solBalancePointer)
      else .ok (p.solBalancePointer - amtNeeded)
  | .maxAndClose => .ok p.solBalancePointer

/-- The instructions of a purchase: create what is missing, wrap, swap, unwrap. -/
def buyIxs (tx : TxContext) (s : SolanaSwapActionPayload) (amountIn : UInt64) :
    List Instruction :=
  (if tx.chain.accountExists tx.sniperTokenAta then [] else
      [.createAssociatedTokenAccount tx.feePayer tx.sniper tx.tokenMint tokenProgramId])
    ++ (if tx.chain.accountExists tx.sniperWsolAta then [] else
      [.createAssociatedTokenAccount tx.feePayer tx.sniper wsolMintPubkey tokenProgramId])
    ++ [.systemTransfer tx.sniper tx.sniperWsolAta amountIn,
      .syncNative tx.sniperWsolAta,
      .swapFixedIn s.keys (userKeys tx s) amountIn 0 s.keys.version,
      .closeAccount tx.sniperWsolAta tx.feePayer tx.sniper]

/-- `SwapMethod::BuyTokensForExactSol`. -/
def buy (tx : TxContext) (p : Pointers) (s : SolanaSwapActionPayload) :
    Except ExecutionError StepResult :=
  match swapSolAmountIn tx p s.amountIn with
  | .error e => .error e
  | .ok amountIn =>
      if 0 < amountIn.val then
        let cost : Word := amountIn + ataCreationFee tx
        .ok (some ⟨buyIxs tx s amountIn.val, cost.val, 0, rentExemptionThresholdSol⟩,
          cost.wrapped)
      else .ok (none, amountIn.wrapped)

/-- `SwapMethod::SellExactTokensForSol`. -/
def sell (tx : TxContext) (p : Pointers) (s : SolanaSwapActionPayload) : StepResult :=
  let amountIn := tokenAmount p s.amountIn
  if 0 < amountIn then
    (some ⟨(if tx.chain.accountExists tx.sniperWsolAta then [] else
          [.createAssociatedTokenAccount tx.feePayer tx.sniper wsolMintPubkey
            tokenProgramId])
        ++ [.syncNative tx.sniperWsolAta,
          .swapFixedIn s.keys (userKeys tx s) amountIn s.minAmountOut s.keys.version,
          .closeAccount tx.sniperWsolAta tx.feePayer tx.sniper],
      0, amountIn, 0⟩, false)
  else (none, false)

/-- Only pools of a token against wSOL, in this order, are supported. -/
def supportedPool (keys : LiquidityPoolKeys) : Bool :=
  keys.baseMint ≠ wsolMintPubkey && keys.quoteMint = wsolMintPubkey

/-- The `match step` of the loop. -/
def stepResult (tx : TxContext) (p : Pointers) :
    SolanaActionPayload → Except ExecutionError StepResult
  | .transfer t =>
      match t.asset with
      | .sol               => .ok (transferSol tx p t)
      | .token tokenPubkey => .ok (transferToken tx p t tokenPubkey)
  | .swap s =>
      if supportedPool s.keys then
        match s.swapMethod with
        | .buyTokensForExactSol  => buy tx p s
        | .sellExactTokensForSol => .ok (sell tx p s)
      else .error (.unsupportedPool s.keys.baseMint s.keys.quoteMint)

/-- The pointer updates: the fee is charged once, with the first emission, and SOL
    that is not there is not subtracted. -/
def Pointers.advance (tx : TxContext) (p : Pointers) (e : Emission) : Pointers :=
  let charged : Word :=
    if 0 < p.txFeePointer then (p.solBalancePointer : Word) - tx.txFee
    else p.solBalancePointer
  let tokens : Word := p.tokenBalancePointer - e.tokenCost
  let keep : Word := p.minSolToKeepAfterPointer + e.minSolToKeepAfter
  { solBalancePointer :=
      if e.solCost < charged.val then charged.val - e.solCost else 0
    txFeePointer := 0
    tokenBalancePointer := tokens.val
    minSolToKeepAfterPointer := keep.val
    wrapped := p.wrapped || charged.wrapped || tokens.wrapped || keep.wrapped }

/-- One round of the loop. -/
def processStep (tx : TxContext) (p : Pointers) (step : SolanaActionPayload) :
    Except ExecutionError (Pointers × List Instruction) :=
  match stepResult tx p step with
  | .error e => .error e
  | .ok (none, w) => .ok ({ p with wrapped := p.wrapped || w }, [])
  | .ok (some e, w) =>
      if p.tokenBalancePointer < e.tokenCost then
        .error (.notEnoughTokenBalance (e.tokenCost + p.tokenBalancePointer) tx.tokenBalance)
      else .ok (Pointers.advance tx { p with wrapped := p.wrapped || w } e, e.stepIxs)

/-- The loop over the steps. -/
def processSteps (tx : TxContext) (p : Pointers) :
    List SolanaActionPayload → Except ExecutionError (Pointers × List Instruction)
  | []      => .ok (p, [])
  | s :: ss =>
      match processStep tx p s with
      | .error e => .error e
      | .ok (p', ixs) =>
          match processSteps tx p' ss with
          | .error e => .error e
          | .ok (p'', rest) => .ok (p'', ixs ++ rest)

-- ── The function ────────────────────────────────────────────────────────────

/-- The token that a step names, if any. -/
def tokenOf : SolanaActionPayload → Option Pubkey
  | .transfer t =>
      match t.asset with
      | .token tokenPubkey => some tokenPubkey
      | .sol               => none
  | .swap s =>
      if s.keys.baseMint ≠ wsolMintPubkey then some s.keys.baseMint else some s.keys.quoteMint

/-- `get_tokens_used_in_tx`: the set of tokens named. -/
def getTokensUsedInTx (action : SolanaAction) : List Pubkey :=
  (action.actionPayload.filterMap tokenOf).dedup

/-- `tx_fee`: base fee, priority fee rounded up, in lamports. -/
def computeTxFee (pricePerCuMicrolamports : UInt64) (computeUnitsPerTx : UInt32) : Word :=
  (baseTxFeeSol : Word)
    + ((pricePerCuMicrolamports * computeUnitsPerTx.toUInt64) / 1000000 : UInt64)
    + (1 : UInt64)

/-- `token_mint`: the one token, or the default address if there is none. -/
def actionTokenMint (action : SolanaAction) : Pubkey :=
  (getTokensUsedInTx action).head?.getD default

def txContext (chain : Chain) (action : SolanaAction) (pricePerCuMicrolamports : UInt64)
    (computeUnitsPerTx : UInt32) : TxContext where
  chain := chain
  sniper := action.sniper.pubkey
  feePayer := action.feePayer.pubkey
  tokenMint := actionTokenMint action
  solBalance := chain.balance action.sniper.pubkey
  tokenBalance := chain.tokenBalance action.sniper.pubkey (actionTokenMint action)
  txFee := (computeTxFee pricePerCuMicrolamports computeUnitsPerTx).val

/-- The pointers before the first step. -/
def TxContext.start (tx : TxContext) : Pointers :=
  ⟨tx.solBalance, tx.txFee, tx.tokenBalance, 0, false⟩

/-- What `build_instructions` returns, and whether its arithmetic wrapped. -/
structure Built where
  balanceBefore : Balance
  actionIxs     : List Instruction
  wrapped       : Bool

/-- **`build_instructions`**. -/
def buildInstructions (chain : Chain) (action : SolanaAction)
    (pricePerCuMicrolamports : UInt64) (computeUnitsPerTx : UInt32) :
    Except ExecutionError Built :=
  let tx := txContext chain action pricePerCuMicrolamports computeUnitsPerTx
  let tokens := getTokensUsedInTx action
  if tx.solBalance = 0 then .error .zeroSolBalance
  else if 1 < tokens.length then .error .severalTokensInOneTx
  else if tx.solBalance < tx.txFee then
    .error (.notEnoughSolBalance tx.txFee tx.solBalance)
  else
    match processSteps tx tx.start action.actionPayload with
    | .error e => .error e
    | .ok (p, ixs) =>
        .ok ⟨⟨tx.solBalance, tokens.map fun t => (t, tx.tokenBalance)⟩, ixs,
          (computeTxFee pricePerCuMicrolamports computeUnitsPerTx).wrapped || p.wrapped⟩

-- ── Spec lemmas of the loop ─────────────────────────────────────────────────

/-- What a step that is not refused comes to. -/
inductive Stepped (tx : TxContext) (p : Pointers) : SolanaActionPayload → StepResult → Prop where
  | sol {t : SolanaTransferActionPayload} (ha : t.asset = .sol) :
      Stepped tx p (.transfer t) (transferSol tx p t)
  | token {t : SolanaTransferActionPayload} {mint : Pubkey} (ha : t.asset = .token mint) :
      Stepped tx p (.transfer t) (transferToken tx p t mint)
  | bought {s : SolanaSwapActionPayload} {r : StepResult} (hsup : supportedPool s.keys = true)
      (hm : s.swapMethod = .buyTokensForExactSol) (h : buy tx p s = .ok r) :
      Stepped tx p (.swap s) r
  | sold {s : SolanaSwapActionPayload} (hsup : supportedPool s.keys = true)
      (hm : s.swapMethod = .sellExactTokensForSol) : Stepped tx p (.swap s) (sell tx p s)

theorem stepResult_cases {tx : TxContext} {p : Pointers} {step : SolanaActionPayload}
    {r : StepResult} (h : stepResult tx p step = .ok r) : Stepped tx p step r := by
  cases step with
  | transfer t =>
      cases ha : t.asset with
      | sol =>
          simp only [stepResult, ha, Except.ok.injEq] at h
          rw [← h]
          exact Stepped.sol ha
      | token mint =>
          simp only [stepResult, ha, Except.ok.injEq] at h
          rw [← h]
          exact Stepped.token ha
  | swap s =>
      by_cases hsup : supportedPool s.keys = true
      · cases hm : s.swapMethod with
        | buyTokensForExactSol =>
            simp only [stepResult, hsup, if_true, hm] at h
            exact Stepped.bought hsup hm h
        | sellExactTokensForSol =>
            simp only [stepResult, hsup, if_true, hm, Except.ok.injEq] at h
            rw [← h]
            exact Stepped.sold hsup hm
      · simp only [stepResult, if_neg hsup] at h
        cases h

/-- What one round that does not fail can do. -/
theorem processStep_cases {tx : TxContext} {p p' : Pointers} {step : SolanaActionPayload}
    {ixs : List Instruction} (h : processStep tx p step = .ok (p', ixs)) :
    (∃ w, stepResult tx p step = .ok (none, w) ∧ ixs = [] ∧
      p' = { p with wrapped := p.wrapped || w }) ∨
    (∃ e w, stepResult tx p step = .ok (some e, w) ∧ ixs = e.stepIxs ∧
      e.tokenCost ≤ p.tokenBalancePointer ∧
      p' = Pointers.advance tx { p with wrapped := p.wrapped || w } e) := by
  simp only [processStep] at h
  split at h
  · cases h
  · rename_i w heq
    obtain ⟨rfl, rfl⟩ := Prod.mk.inj (Except.ok.inj h)
    exact Or.inl ⟨w, heq, rfl, rfl⟩
  · rename_i e w heq
    split at h
    · cases h
    · rename_i hle
      obtain ⟨rfl, rfl⟩ := Prod.mk.inj (Except.ok.inj h)
      exact Or.inr ⟨e, w, heq, rfl, UInt64.not_lt.mp hle, rfl⟩

/-- A round whose tokens are there. -/
theorem processStep_some {tx : TxContext} {p : Pointers} {step : SolanaActionPayload}
    {e : Emission} {w : Bool} (h : stepResult tx p step = .ok (some e, w))
    (hle : e.tokenCost ≤ p.tokenBalancePointer) :
    processStep tx p step =
      .ok (Pointers.advance tx { p with wrapped := p.wrapped || w } e, e.stepIxs) := by
  simp only [processStep, h]
  exact if_neg (UInt64.not_lt.mpr hle)

theorem processSteps_cons {tx : TxContext} {p p'' : Pointers} {s : SolanaActionPayload}
    {ss : List SolanaActionPayload} {out : List Instruction}
    (h : processSteps tx p (s :: ss) = .ok (p'', out)) :
    ∃ p' ixs rest, processStep tx p s = .ok (p', ixs) ∧
      processSteps tx p' ss = .ok (p'', rest) ∧ out = ixs ++ rest := by
  simp only [processSteps] at h
  split at h
  · cases h
  · rename_i p' ixs hstep
    split at h
    · cases h
    · rename_i q rest hrest
      obtain ⟨rfl, rfl⟩ := Prod.mk.inj (Except.ok.inj h)
      exact ⟨p', ixs, rest, hstep, hrest, rfl⟩

/-- **THE LOOP RULE**: what an empty loop establishes and every round extends, the whole
    loop establishes. -/
theorem processSteps_induction {tx : TxContext}
    {motive : Pointers → List SolanaActionPayload → Pointers → List Instruction → Prop}
    (hnil : ∀ p, motive p [] p [])
    (hcons : ∀ p s ss p' ixs p'' rest, processStep tx p s = .ok (p', ixs) →
      processSteps tx p' ss = .ok (p'', rest) → motive p' ss p'' rest →
      motive p (s :: ss) p'' (ixs ++ rest)) :
    ∀ {steps : List SolanaActionPayload} {p p'' : Pointers} {out : List Instruction},
      processSteps tx p steps = .ok (p'', out) → motive p steps p'' out := by
  intro steps
  induction steps with
  | nil =>
      intro p p'' out h
      obtain ⟨rfl, rfl⟩ := Prod.mk.inj (Except.ok.inj h)
      exact hnil p
  | cons s ss ih =>
      intro p p'' out h
      obtain ⟨p', ixs, rest, hstep, hrest, rfl⟩ := processSteps_cons h
      exact hcons p s ss p' ixs p'' rest hstep hrest (ih hrest)

/-- A successful build passed the checks and ran the loop. -/
theorem buildInstructions_ok {chain : Chain} {action : SolanaAction} {price : UInt64}
    {cu : UInt32} {b : Built} (h : buildInstructions chain action price cu = .ok b) :
    ∃ p, (getTokensUsedInTx action).length ≤ 1 ∧
      (txContext chain action price cu).txFee ≤ (txContext chain action price cu).solBalance ∧
      processSteps (txContext chain action price cu) (txContext chain action price cu).start
        action.actionPayload = .ok (p, b.actionIxs) ∧
      b.wrapped = ((computeTxFee price cu).wrapped || p.wrapped) := by
  simp only [buildInstructions] at h
  split at h
  · cases h
  · split at h
    · cases h
    · rename_i hlen
      split at h
      · cases h
      · rename_i hfee
        split at h
        · cases h
        · rename_i p ixs hloop
          rw [← Except.ok.inj h]
          exact ⟨p, Nat.not_lt.mp hlen, UInt64.not_lt.mp hfee, hloop, rfl⟩

/-- And what passes the checks and runs through the loop is built. -/
theorem buildInstructions_ok_iff {chain : Chain} {action : SolanaAction} {price : UInt64}
    {cu : UInt32} :
    (∃ b, buildInstructions chain action price cu = .ok b) ↔
      (txContext chain action price cu).solBalance ≠ 0 ∧ (getTokensUsedInTx action).length ≤ 1 ∧
      (txContext chain action price cu).txFee ≤ (txContext chain action price cu).solBalance ∧
      ∃ r, processSteps (txContext chain action price cu) (txContext chain action price cu).start
        action.actionPayload = .ok r := by
  constructor
  · rintro ⟨b, hb⟩
    obtain ⟨p, hlen, hfee, hloop, -⟩ := buildInstructions_ok hb
    refine ⟨?_, hlen, hfee, _, hloop⟩
    intro hzero
    simp only [buildInstructions, if_pos hzero] at hb
    cases hb
  · rintro ⟨hpos, hlen, hfee, ⟨p, ixs⟩, hloop⟩
    simp only [buildInstructions, if_neg hpos, if_neg (Nat.not_lt.mpr hlen),
      if_neg (UInt64.not_lt.mpr hfee), hloop]
    exact ⟨_, rfl⟩

-- ── Refusals ────────────────────────────────────────────────────────────────

/-- The errors of a build, and what a pool that is refused says of the steps. -/
inductive Refused (steps : List SolanaActionPayload) : ExecutionError → Prop where
  | zeroSol : Refused steps .zeroSolBalance
  | severalTokens : Refused steps .severalTokensInOneTx
  | notEnoughSol (needed left : UInt64) : Refused steps (.notEnoughSolBalance needed left)
  | notEnoughTokens (needed left : UInt64) : Refused steps (.notEnoughTokenBalance needed left)
  | pool {s : SolanaSwapActionPayload} (hs : .swap s ∈ steps)
      (hsup : supportedPool s.keys = false) :
      Refused steps (.unsupportedPool s.keys.baseMint s.keys.quoteMint)

theorem Refused.mono {steps steps' : List SolanaActionPayload} {e : ExecutionError}
    (hsub : steps ⊆ steps') (h : Refused steps e) : Refused steps' e := by
  cases h with
  | zeroSol => exact Refused.zeroSol
  | severalTokens => exact Refused.severalTokens
  | notEnoughSol a b => exact Refused.notEnoughSol a b
  | notEnoughTokens a b => exact Refused.notEnoughTokens a b
  | pool hs hsup => exact Refused.pool (hsub hs) hsup

theorem swapSolAmountIn_refused {tx : TxContext} {p : Pointers} {amt : Amount}
    {steps : List SolanaActionPayload} {e : ExecutionError}
    (h : swapSolAmountIn tx p amt = .error e) : Refused steps e := by
  have hite : ∀ {c : Prop} [Decidable c] {a b : UInt64} {x : Word},
      (if c then .error (.notEnoughSolBalance a b) else .ok x) = Except.error e →
      Refused steps e := by
    intro c _ a b x hc
    split at hc
    · rw [← Except.error.inj hc]
      exact Refused.notEnoughSol a b
    · cases hc
  cases amt with
  | exact a => cases h
  | exactWithFees a => exact hite h
  | max => exact hite h
  | maxButLeaveForTransfer => exact hite h
  | maxAndClose => cases h

theorem stepResult_refused {tx : TxContext} {p : Pointers} {step : SolanaActionPayload}
    {e : ExecutionError} (h : stepResult tx p step = .error e) : Refused [step] e := by
  cases step with
  | transfer t =>
      simp only [stepResult] at h
      split at h <;> cases h
  | swap s =>
      by_cases hsup : supportedPool s.keys = true
      · simp only [stepResult, hsup, if_true] at h
        split at h
        · simp only [buy] at h
          split at h
          · next e' heq =>
              rw [← Except.error.inj h]
              exact swapSolAmountIn_refused heq
          · split at h <;> cases h
        · cases h
      · simp only [stepResult, if_neg hsup] at h
        rw [← Except.error.inj h]
        exact Refused.pool List.mem_cons_self (Bool.not_eq_true _ ▸ hsup)

theorem processStep_refused {tx : TxContext} {p : Pointers} {step : SolanaActionPayload}
    {e : ExecutionError} (h : processStep tx p step = .error e) : Refused [step] e := by
  simp only [processStep] at h
  split at h
  · next e' heq =>
      rw [← Except.error.inj h]
      exact stepResult_refused heq
  · cases h
  · split at h
    · rw [← Except.error.inj h]
      exact Refused.notEnoughTokens _ _
    · cases h

theorem processSteps_refused {tx : TxContext} :
    ∀ {steps : List SolanaActionPayload} {p : Pointers} {e : ExecutionError},
      processSteps tx p steps = .error e → Refused steps e := by
  intro steps
  induction steps with
  | nil => intro p e h; cases h
  | cons step steps ih =>
      intro p e h
      simp only [processSteps] at h
      split at h
      · next e' heq =>
          rw [← Except.error.inj h]
          refine (processStep_refused heq).mono ?_
          exact List.cons_subset_cons step (List.nil_subset steps)
      · split at h
        · next e' heq =>
            rw [← Except.error.inj h]
            exact (ih heq).mono (List.subset_cons_self step steps)
        · cases h

/-- **A BUILD THAT FAILS** has failed one of its checks; a pool is refused only if some swap's
    is not supported. -/
theorem buildInstructions_refused {chain : Chain} {action : SolanaAction} {price : UInt64}
    {cu : UInt32} {e : ExecutionError}
    (h : buildInstructions chain action price cu = .error e) : Refused action.actionPayload e := by
  simp only [buildInstructions] at h
  split at h
  · rw [← Except.error.inj h]
    exact Refused.zeroSol
  · split at h
    · rw [← Except.error.inj h]
      exact Refused.severalTokens
    · split at h
      · rw [← Except.error.inj h]
        exact Refused.notEnoughSol _ _
      · split at h
        · next e' heq =>
            rw [← Except.error.inj h]
            exact processSteps_refused heq
        · cases h

-- ── Tokens out of the sniper's token account ────────────────────────────────

/-- The tokens that an instruction takes out of the account `tokenAta`: a transfer from
    it, or a swap that pays from it. -/
def tokensOut (tokenAta : Pubkey) : Instruction → Nat
  | .tokenTransfer source _ _ amount      => if source = tokenAta then amount.toNat else 0
  | .swapFixedIn _ userKeys amountIn _ _  =>
      if userKeys.tokenAccountIn = tokenAta then amountIn.toNat else 0
  | _                                     => 0

/-- The sum over a list of instructions. -/
def totalTokensOut (tokenAta : Pubkey) (ixs : List Instruction) : Nat :=
  (ixs.map (tokensOut tokenAta)).sum

theorem totalTokensOut_append (tokenAta : Pubkey) (xs ys : List Instruction) :
    totalTokensOut tokenAta (xs ++ ys)
      = totalTokensOut tokenAta xs + totalTokensOut tokenAta ys := by
  simp only [totalTokensOut, List.map_append, List.sum_append]

/-- Of two accounts that a supported swap names, a purchase pays from the wrapped SOL
    and a sale from the token account. -/
theorem userKeys_supported {tx : TxContext} {s : SolanaSwapActionPayload}
    (h : supportedPool s.keys = true) :
    userKeys tx s = match s.swapMethod with
      | .buyTokensForExactSol  => ⟨tx.sniperWsolAta, tx.sniperTokenAta, tx.sniper⟩
      | .sellExactTokensForSol => ⟨tx.sniperTokenAta, tx.sniperWsolAta, tx.sniper⟩ := by
  have hbase : s.keys.baseMint ≠ wsolMintPubkey := by
    simp only [supportedPool, Bool.and_eq_true, decide_eq_true_eq] at h
    exact h.1
  cases hm : s.swapMethod with
  | buyTokensForExactSol => simp only [userKeys, hm, if_neg hbase]
  | sellExactTokensForSol => simp only [userKeys, hm, if_neg hbase]

/-- A purchase takes no tokens, as long as the token account is not the wrapped SOL
    account. -/
theorem buy_tokens {tx : TxContext} {p : Pointers} {s : SolanaSwapActionPayload}
    {e : Emission} {w : Bool} (hsup : supportedPool s.keys = true)
    (hm : s.swapMethod = .buyTokensForExactSol)
    (hata : tx.sniperTokenAta ≠ tx.sniperWsolAta) (h : buy tx p s = .ok (some e, w)) :
    totalTokensOut tx.sniperTokenAta e.stepIxs = e.tokenCost.toNat := by
  have hkeys : (userKeys tx s).tokenAccountIn ≠ tx.sniperTokenAta := by
    simp only [userKeys_supported hsup, hm]
    exact hata.symm
  simp only [buy] at h
  split at h
  · cases h
  · split at h
    · obtain ⟨he, -⟩ := Prod.mk.inj (Except.ok.inj h)
      obtain rfl := Option.some.inj he
      simp only [totalTokensOut, buyIxs]
      split <;> split <;> simp [tokensOut, hkeys]
    · obtain ⟨he, -⟩ := Prod.mk.inj (Except.ok.inj h)
      cases he

/-- A sale takes what it sells. -/
theorem sell_tokens {tx : TxContext} {p : Pointers} {s : SolanaSwapActionPayload}
    {e : Emission} {w : Bool} (hsup : supportedPool s.keys = true)
    (hm : s.swapMethod = .sellExactTokensForSol) (h : sell tx p s = (some e, w)) :
    totalTokensOut tx.sniperTokenAta e.stepIxs = e.tokenCost.toNat := by
  have hkeys : (userKeys tx s).tokenAccountIn = tx.sniperTokenAta := by
    simp only [userKeys_supported hsup, hm]
  simp only [sell] at h
  split at h
  · obtain ⟨he, -⟩ := Prod.mk.inj h
    obtain rfl := Option.some.inj he
    simp only [totalTokensOut]
    split <;> simp [tokensOut, hkeys]
  · obtain ⟨he, -⟩ := Prod.mk.inj h
    cases he

theorem transferToken_tokens {tx : TxContext} {p : Pointers}
    {t : SolanaTransferActionPayload} {mint : Pubkey} {e : Emission} {w : Bool}
    (h : transferToken tx p t mint = (some e, w)) :
    totalTokensOut tx.sniperTokenAta e.stepIxs = e.tokenCost.toNat := by
  simp only [transferToken] at h
  split at h
  · obtain ⟨he, -⟩ := Prod.mk.inj h
    obtain rfl := Option.some.inj he
    simp only [totalTokensOut]
    split <;> split <;> simp [tokensOut]
  · obtain ⟨he, -⟩ := Prod.mk.inj h
    cases he

theorem transferSol_tokens {tx : TxContext} {p : Pointers}
    {t : SolanaTransferActionPayload} {e : Emission} {w : Bool} (tokenAta : Pubkey)
    (h : transferSol tx p t = (some e, w)) :
    totalTokensOut tokenAta e.stepIxs = 0 ∧ e.tokenCost = 0 := by
  simp only [transferSol] at h
  split at h
  · split at h
    · obtain ⟨he, -⟩ := Prod.mk.inj h
      obtain rfl := Option.some.inj he
      exact ⟨rfl, rfl⟩
    · cases h
  · split at h
    · obtain ⟨he, -⟩ := Prod.mk.inj h
      obtain rfl := Option.some.inj he
      exact ⟨rfl, rfl⟩
    · cases h
  · obtain ⟨he, -⟩ := Prod.mk.inj h
    obtain rfl := Option.some.inj he
    exact ⟨rfl, rfl⟩
  · obtain ⟨he, -⟩ := Prod.mk.inj h
    obtain rfl := Option.some.inj he
    exact ⟨rfl, rfl⟩
  · split at h
    · obtain ⟨he, -⟩ := Prod.mk.inj h
      obtain rfl := Option.some.inj he
      exact ⟨rfl, rfl⟩
    · cases h

/-- A supported swap among the steps is of a token whose account is not the wrapped SOL
    account. -/
def SwapsApart (tx : TxContext) (steps : List SolanaActionPayload) : Prop :=
  ∀ s, .swap s ∈ steps → supportedPool s.keys = true → tx.sniperTokenAta ≠ tx.sniperWsolAta

/-- What a step takes out of the token account is its token cost. -/
theorem stepResult_tokens {tx : TxContext} {p : Pointers} {step : SolanaActionPayload}
    {e : Emission} {w : Bool} (hapart : SwapsApart tx [step])
    (h : stepResult tx p step = .ok (some e, w)) :
    totalTokensOut tx.sniperTokenAta e.stepIxs = e.tokenCost.toNat := by
  generalize hr : (some e, w) = r at h
  cases stepResult_cases h with
  | sol _ =>
      obtain ⟨hout, hcost⟩ := transferSol_tokens tx.sniperTokenAta hr.symm
      rw [hout, hcost]
      rfl
  | token _ => exact transferToken_tokens hr.symm
  | @bought s _ hsup hm hbuy =>
      rw [← hr] at hbuy
      exact buy_tokens hsup hm (hapart s (List.mem_singleton_self _) hsup) hbuy
  | sold hsup hm => exact sell_tokens hsup hm hr.symm

/-- The token pointer after an emission. -/
theorem advance_tokens {tx : TxContext} {p : Pointers} {e : Emission}
    (h : e.tokenCost ≤ p.tokenBalancePointer) :
    (p.advance tx e).tokenBalancePointer.toNat
      = p.tokenBalancePointer.toNat - e.tokenCost.toNat :=
  UInt64.toNat_sub_of_le _ _ h

/-- One round moves tokens from the pointer to the instructions. -/
theorem processStep_tokens {tx : TxContext} {p p' : Pointers} {step : SolanaActionPayload}
    {ixs : List Instruction} (hapart : SwapsApart tx [step])
    (h : processStep tx p step = .ok (p', ixs)) :
    totalTokensOut tx.sniperTokenAta ixs + p'.tokenBalancePointer.toNat
      = p.tokenBalancePointer.toNat := by
  rcases processStep_cases h with ⟨w, -, rfl, rfl⟩ | ⟨e, w, hstep, rfl, hle, rfl⟩
  · exact Nat.zero_add _
  · have hadv : (Pointers.advance tx { p with wrapped := p.wrapped || w } e
        ).tokenBalancePointer.toNat
        = p.tokenBalancePointer.toNat - e.tokenCost.toNat := advance_tokens hle
    rw [stepResult_tokens hapart hstep, hadv]
    exact Nat.add_sub_cancel' (UInt64.le_iff_toNat_le.mp hle)

/-- So does the whole loop. -/
theorem processSteps_tokens {tx : TxContext} {steps : List SolanaActionPayload}
    {p p' : Pointers} {ixs : List Instruction} (hapart : SwapsApart tx steps)
    (h : processSteps tx p steps = .ok (p', ixs)) :
    totalTokensOut tx.sniperTokenAta ixs + p'.tokenBalancePointer.toNat
      = p.tokenBalancePointer.toNat := by
  refine processSteps_induction
    (motive := fun p steps p' ixs => SwapsApart tx steps →
      totalTokensOut tx.sniperTokenAta ixs + p'.tokenBalancePointer.toNat
        = p.tokenBalancePointer.toNat) ?_ ?_ h hapart
  · intro p _
    exact Nat.zero_add _
  · intro p s ss p' ixs p'' rest hstep _ ih hap
    have hone := processStep_tokens
      (fun s' hs' hsup => hap s' (by rw [List.mem_singleton.mp hs']; exact List.mem_cons_self)
        hsup) hstep
    have hrest := ih (fun s' hs' hsup => hap s' (List.mem_cons_of_mem s hs') hsup)
    rw [totalTokensOut_append]
    omega

-- ── Actions that ask for too much ───────────────────────────────────────────

/-- The tokens that an amount asks for when `left` are left. -/
def askedAmount (left : Nat) : Amount → Nat
  | .exact amount         => amount.toNat
  | .exactWithFees amount => amount.toNat
  | _                     => left

/-- The tokens that a step asks for when `left` are left. -/
def asked (left : Nat) : SolanaActionPayload → Nat
  | .transfer t =>
      match t.asset with
      | .sol     => 0
      | .token _ => askedAmount left t.amount
  | .swap s =>
      match s.swapMethod with
      | .buyTokensForExactSol  => 0
      | .sellExactTokensForSol => askedAmount left s.amountIn

/-- Some step asks for more tokens than the steps before it leave. -/
def AsksTooMuch (left : Nat) : List SolanaActionPayload → Prop
  | []      => False
  | s :: ss => left < asked left s ∨ AsksTooMuch (left - asked left s) ss

/-- The steps name two different tokens. -/
def NamesTwoTokens (action : SolanaAction) : Prop :=
  ∃ s ∈ action.actionPayload, ∃ s' ∈ action.actionPayload, ∃ m m',
    tokenOf s = some m ∧ tokenOf s' = some m' ∧ m ≠ m'

theorem tokenAmount_asked (p : Pointers) (amount : Amount) :
    (tokenAmount p amount).toNat = askedAmount p.tokenBalancePointer.toNat amount := by
  cases amount <;> rfl

/-- The token cost of a step: what it asks for, or nothing. -/
def emittedTokens : Option Emission → Nat
  | some e => e.tokenCost.toNat
  | none   => 0

/-- A step of which nothing is asked, or some tokens. -/
theorem emittedTokens_ite {amount : UInt64} {e : Emission} {u w : Bool}
    (he : e.tokenCost = amount) :
    emittedTokens (if 0 < amount then (some e, u) else (none, w)).1 = amount.toNat := by
  by_cases hpos : 0 < amount
  · rw [if_pos hpos, ← he]
    rfl
  · rw [if_neg hpos]
    exact (Nat.eq_zero_of_not_pos hpos).symm

theorem stepResult_asked {tx : TxContext} {p : Pointers} {step : SolanaActionPayload}
    {r : Option Emission} {w : Bool} (h : stepResult tx p step = .ok (r, w)) :
    emittedTokens r = asked p.tokenBalancePointer.toNat step := by
  generalize hr : (r, w) = res at h
  obtain rfl : res.1 = r := (congrArg Prod.fst hr).symm
  cases stepResult_cases h with
  | @sol t ha =>
      simp only [asked, ha]
      cases he : (transferSol tx p t).1 with
      | none => rfl
      | some e =>
          have hcost := (transferSol_tokens (w := (transferSol tx p t).2) default
            (Prod.ext he rfl)).2
          rw [emittedTokens, hcost]
          rfl
  | token ha =>
      simp only [asked, ha, ← tokenAmount_asked]
      exact emittedTokens_ite rfl
  | bought _ hm hbuy =>
      simp only [asked, hm]
      simp only [buy] at hbuy
      split at hbuy
      · cases hbuy
      · split at hbuy
        · rw [← Except.ok.inj hbuy]
          rfl
        · rw [← Except.ok.inj hbuy]
          rfl
  | sold _ hm =>
      simp only [asked, hm, ← tokenAmount_asked]
      exact emittedTokens_ite rfl

/-- A round that succeeds was asked for no more than what was left, and leaves the
    rest. -/
theorem processStep_asked {tx : TxContext} {p p' : Pointers} {step : SolanaActionPayload}
    {ixs : List Instruction} (h : processStep tx p step = .ok (p', ixs)) :
    asked p.tokenBalancePointer.toNat step ≤ p.tokenBalancePointer.toNat ∧
      p'.tokenBalancePointer.toNat
        = p.tokenBalancePointer.toNat - asked p.tokenBalancePointer.toNat step := by
  rcases processStep_cases h with ⟨w, hstep, -, rfl⟩ | ⟨e, w, hstep, -, hle, rfl⟩
  · rw [← stepResult_asked hstep]
    exact ⟨Nat.zero_le _, rfl⟩
  · rw [← stepResult_asked hstep]
    exact ⟨UInt64.le_iff_toNat_le.mp hle, advance_tokens hle⟩

/-- A loop that succeeds was not asked for too much. -/
theorem processSteps_asked {tx : TxContext} {steps : List SolanaActionPayload}
    {p p' : Pointers} {ixs : List Instruction}
    (h : processSteps tx p steps = .ok (p', ixs)) :
    ¬ AsksTooMuch p.tokenBalancePointer.toNat steps := by
  refine processSteps_induction
    (motive := fun p steps _ _ => ¬ AsksTooMuch p.tokenBalancePointer.toNat steps) ?_ ?_ h
  · intro p hask
    exact hask
  · intro p s ss p' ixs p'' rest hstep _ ih hask
    obtain ⟨hle, hleft⟩ := processStep_asked hstep
    rcases hask with hlt | hrest
    · omega
    · rw [← hleft] at hrest
      exact ih hrest

/-- With at most one token in the set, every step that names a token names that one. -/
theorem tokenMint_of_named {action : SolanaAction} {s : SolanaActionPayload} {m : Pubkey}
    (hlen : (getTokensUsedInTx action).length ≤ 1) (hs : s ∈ action.actionPayload)
    (hm : tokenOf s = some m) : actionTokenMint action = m := by
  have hmem : m ∈ getTokensUsedInTx action :=
    List.mem_dedup.mpr (List.mem_filterMap.mpr ⟨s, hs, hm⟩)
  cases hl : getTokensUsedInTx action with
  | nil =>
      rw [hl] at hmem
      cases hmem
  | cons x xs =>
      rw [hl] at hmem hlen
      have hxs : xs = [] := by
        rw [← List.length_eq_zero_iff]
        simp only [List.length_cons] at hlen
        omega
      rw [hxs] at hmem
      simp only [actionTokenMint, hl, List.head?_cons, Option.getD_some]
      exact (List.mem_singleton.mp hmem).symm

/-- **TOKENS ARE CONSERVED.**  If the token's account is not the wrapped SOL account of
    another mint: the instructions of a successful build take at most the token balance
    out of the sniper's token account, and an action that names two tokens or asks for
    more tokens than are left is refused. -/
theorem tokens_conserved (chain : Chain) (action : SolanaAction) (price : UInt64)
    (cu : UInt32)
    (hata : chain.ata action.sniper.pubkey (actionTokenMint action)
        = chain.ata action.sniper.pubkey wsolMintPubkey →
      actionTokenMint action = wsolMintPubkey) :
    (∀ b, buildInstructions chain action price cu = .ok b →
      totalTokensOut (chain.ata action.sniper.pubkey (actionTokenMint action)) b.actionIxs
        ≤ (chain.tokenBalance action.sniper.pubkey (actionTokenMint action)).toNat) ∧
    (NamesTwoTokens action ∨
        AsksTooMuch (chain.tokenBalance action.sniper.pubkey (actionTokenMint action)).toNat
          action.actionPayload →
      ∃ e, buildInstructions chain action price cu = .error e) := by
  constructor
  · intro b hb
    obtain ⟨p, hlen, -, hloop, -⟩ := buildInstructions_ok hb
    have hapart : SwapsApart (txContext chain action price cu) action.actionPayload := by
      intro s hs hsup heq
      have hbase : s.keys.baseMint ≠ wsolMintPubkey := by
        simp only [supportedPool, Bool.and_eq_true, decide_eq_true_eq] at hsup
        exact hsup.1
      have hmint : actionTokenMint action = s.keys.baseMint :=
        tokenMint_of_named hlen hs (by simp only [tokenOf, if_pos hbase])
      exact hbase (hmint.symm.trans (hata heq))
    have hsum := processSteps_tokens hapart hloop
    have hstart : (txContext chain action price cu).start.tokenBalancePointer.toNat
        = (chain.tokenBalance action.sniper.pubkey (actionTokenMint action)).toNat := rfl
    rw [hstart] at hsum
    exact Nat.le.intro hsum
  · intro hbad
    cases hb : buildInstructions chain action price cu with
    | error e => exact ⟨e, rfl⟩
    | ok b =>
        obtain ⟨p, hlen, -, hloop, -⟩ := buildInstructions_ok hb
        rcases hbad with ⟨s, hs, s', hs', m, m', hm, hm', hne⟩ | hask
        · have h₁ := tokenMint_of_named hlen hs hm
          have h₂ := tokenMint_of_named hlen hs' hm'
          exact absurd (h₁.symm.trans h₂) hne
        · exact absurd hask (processSteps_asked hloop)

/-- A chain on which everybody owns one SOL and ten tokens, and a token account is named
    by its mint. -/
def sampleChain : Chain where
  balance := fun _ => 1000000000
  tokenBalance := fun _ _ => 10
  accountExists := fun _ => true
  ata := fun _ mint => mint

/-- Two transfers of the token `5`, for seven and then for all that is left. -/
def sampleTransfer : SolanaAction :=
  SolanaAction.new ⟨1⟩ 0 ⟨⟨1⟩, 1⟩
    [.transfer ⟨.token ⟨5⟩, ⟨2⟩, .exact 7⟩, .transfer ⟨.token ⟨5⟩, ⟨3⟩, .max⟩]

theorem sampleTransfer_tokens_conserved :
    ∃ b, buildInstructions sampleChain sampleTransfer 0 0 = .ok b ∧
      totalTokensOut ⟨5⟩ b.actionIxs ≤ 10 := by
  have hata : sampleChain.ata sampleTransfer.sniper.pubkey (actionTokenMint sampleTransfer)
      = sampleChain.ata sampleTransfer.sniper.pubkey wsolMintPubkey →
      actionTokenMint sampleTransfer = wsolMintPubkey := fun h => h
  obtain ⟨b, hb⟩ : ∃ b, buildInstructions sampleChain sampleTransfer 0 0 = .ok b :=
    ⟨_, rfl⟩
  exact ⟨b, hb, (tokens_conserved sampleChain sampleTransfer 0 0 hata).1 b hb⟩

end FoxfireBuild
