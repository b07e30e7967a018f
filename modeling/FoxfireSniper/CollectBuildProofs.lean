import FoxfireSniper.AgentProofs
import FoxfireSniper.SolvencyProofs

/-! # What a sweep moves

    `AgentState::collect` queues the agent's tokens, to be sent with the account closed, and
    all its SOL; the main wallet pays the fee.  `build_instructions` wants the fee from the
    agent's own balance before it looks at who pays, and refuses an agent without SOL.

    * `sweep_loop`: past these checks, the sweep emits what it should;
    * **`sweep_complete_iff`**: nothing is left behind exactly when the agent could have paid
      the fee, and has no empty token account. -/

namespace FoxfireCollect

open FoxfireTypes FoxfireAttempt FoxfireBuild FoxfireSolvency FoxfireAgent WordArith

-- ── Moving everything ───────────────────────────────────────────────────────

/-- The tokens that an instruction transfers from one account to another. -/
def tokensBetween (source dest : Pubkey) : Instruction → Nat
  | .tokenTransfer s d _ amount => if s = source ∧ d = dest then amount.toNat else 0
  | _                           => 0

/-- The lamports that it transfers. -/
def lamportsBetween (source dest : Pubkey) : Instruction → Nat
  | .systemTransfer s d lamports => if s = source ∧ d = dest then lamports.toNat else 0
  | _                            => 0

/-- The agent's account of its token. -/
def tokenAccount (chain : Chain) (a : AgentState) : Pubkey := chain.ata a.pubkey a.pool.baseMint

/-- **NOTHING IS LEFT BEHIND**: all tokens and all lamports go to the main wallet, and the
    token account, if there is one, is closed for its benefit. -/
structure LeavesNothing (chain : Chain) (a : AgentState) (w : Pubkey) (b : Built) : Prop where
  tokens   : (b.actionIxs.map
      (tokensBetween (tokenAccount chain a) (chain.ata w a.pool.baseMint))).sum
    = (chain.tokenBalance a.pubkey a.pool.baseMint).toNat
  lamports : (b.actionIxs.map (lamportsBetween a.pubkey w)).sum = (chain.balance a.pubkey).toNat
  closed   : chain.accountExists (tokenAccount chain a) = true →
    .closeAccount (tokenAccount chain a) w a.pubkey ∈ b.actionIxs
  exact    : b.wrapped = false

-- ── The loop ────────────────────────────────────────────────────────────────

/-- The instructions that move the tokens and close the account. -/
def tokenIxs (tx : TxContext) (receiver mint : Pubkey) (amount : UInt64) : List Instruction :=
  (if tx.chain.accountExists (tx.chain.ata receiver tx.tokenMint) = true then [] else
      [.createAssociatedTokenAccount tx.feePayer receiver mint tokenProgramId])
    ++ [.tokenTransfer tx.sniperTokenAta (tx.chain.ata receiver tx.tokenMint) tx.sniper amount,
      .closeAccount tx.sniperTokenAta tx.feePayer tx.sniper]

variable {tx : TxContext}

/-- An emission without SOL to keep, and of tokens that are there, wraps nothing. -/
theorem advance_unwrapped {p : Pointers} {e : Emission} (hf : FeeOK tx) (h : FeeDue tx p)
    (hw : p.wrapped = false) (htokens : e.tokenCost ≤ p.tokenBalancePointer)
    (hkeep : e.minSolToKeepAfter = 0) : (Pointers.advance tx p e).wrapped = false := by
  have hcharged : (if 0 < p.txFeePointer then (p.solBalancePointer : Word) - (tx.txFee : Word)
      else (p.solBalancePointer : Word)).wrapped = false := by
    split
    · next hpos =>
        rcases h with h | ⟨h, hsol⟩
        · rw [h] at hpos
          exact absurd hpos (UInt64.lt_irrefl _)
        · rw [hsol]
          exact (sub_exact_iff (is_coe _) (is_coe _)).mpr hf.le
    · rfl
  have hleft : ((p.tokenBalancePointer : Word) - (e.tokenCost : Word)).wrapped = false :=
    (sub_exact_iff (is_coe _) (is_coe _)).mpr (UInt64.le_iff_toNat_le.mp htokens)
  have hkept : ((p.minSolToKeepAfterPointer : Word) + (e.minSolToKeepAfter : Word)).wrapped
      = false := by
    rw [hkeep]
    exact (add_exact_iff (is_coe _) (is_coe _)).mpr p.minSolToKeepAfterPointer.toNat_lt
  show (p.wrapped || _ || _ || _) = false
  rw [hw, hcharged, hleft]
  exact hkept

/-- All tokens, and the account closed. -/
theorem tokenSweep_step (hf : FeeOK tx) (receiver mint : Pubkey) (hpos : 0 < tx.tokenBalance) :
    ∃ p, processStep tx tx.start (.transfer ⟨.token mint, receiver, .maxAndClose⟩) =
        .ok (p, tokenIxs tx receiver mint tx.tokenBalance) ∧
      p.wrapped = false ∧ FeeDue tx p := by
  have hstep : stepResult tx tx.start (.transfer ⟨.token mint, receiver, .maxAndClose⟩) =
      .ok (some ⟨tokenIxs tx receiver mint tx.tokenBalance,
        if !tx.chain.accountExists (tx.chain.ata receiver tx.tokenMint)
          then rentExemptionThresholdSol else 0, tx.tokenBalance, 0⟩, false) := by
    show Except.ok (transferToken _ _ _ _) = _
    have hamount : 0 < tokenAmount tx.start .maxAndClose := hpos
    simp only [transferToken, if_pos hamount, tokenIxs]
    cases tx.chain.accountExists (tx.chain.ata receiver tx.tokenMint) with
    | true => rfl
    | false => rfl
  have hall : tx.tokenBalance ≤ tx.start.tokenBalancePointer := UInt64.le_refl _
  exact ⟨_, processStep_some hstep hall,
    advance_unwrapped hf (Or.inr ⟨rfl, rfl⟩) rfl hall rfl, Or.inl rfl⟩

/-- All SOL: the balance before the action, whatever the pointer says. -/
theorem solSweep_step (hf : FeeOK tx) (receiver : Pubkey) {p : Pointers}
    (hw : p.wrapped = false) (hfee : FeeDue tx p) :
    ∃ p', processStep tx p (.transfer ⟨.sol, receiver, .max⟩) =
        .ok (p', [.systemTransfer tx.sniper receiver tx.solBalance]) ∧ p'.wrapped = false := by
  have hstep : stepResult tx p (.transfer ⟨.sol, receiver, .max⟩) =
      .ok (some ⟨[.systemTransfer tx.sniper receiver tx.solBalance],
        ((p.solBalancePointer : Word) - (p.txFeePointer : Word)).val, 0, 0⟩,
        ((p.solBalancePointer : Word) - (p.txFeePointer : Word)).wrapped) := rfl
  have hcost : ((p.solBalancePointer : Word) - (p.txFeePointer : Word)).wrapped = false :=
    (sub_exact_iff (is_coe _) (is_coe _)).mpr (hfee.covered hf)
  refine ⟨_, processStep_some hstep UInt64.zero_le, advance_unwrapped hf hfee ?_ UInt64.zero_le rfl⟩
  show (p.wrapped || _) = false
  rw [hw]
  exact hcost

/-- The steps of a sweep. -/
def sweepSteps (receiver mint : Pubkey) (tokens : UInt64) : List SolanaActionPayload :=
  (if 0 < tokens then [.transfer ⟨.token mint, receiver, .maxAndClose⟩] else [])
    ++ [.transfer ⟨.sol, receiver, .max⟩]

/-- What they should emit. -/
def sweepIxs (tx : TxContext) (receiver mint : Pubkey) (tokens : UInt64) : List Instruction :=
  (if 0 < tokens then tokenIxs tx receiver mint tokens else [])
    ++ [.systemTransfer tx.sniper receiver tx.solBalance]

/-- **THE LOOP OF A SWEEP**, of the tokens that are there. -/
theorem sweep_loop (hf : FeeOK tx) (receiver mint : Pubkey) {tokens : UInt64}
    (htokens : 0 < tokens → tx.tokenBalance = tokens) :
    ∃ p, processSteps tx tx.start (sweepSteps receiver mint tokens) =
      .ok (p, sweepIxs tx receiver mint tokens) ∧ p.wrapped = false := by
  by_cases hpos : 0 < tokens
  · obtain rfl := htokens hpos
    obtain ⟨p, hstep, hw, hfee⟩ := tokenSweep_step hf receiver mint hpos
    obtain ⟨p', hstep', hw'⟩ := solSweep_step hf receiver hw hfee
    refine ⟨p', ?_, hw'⟩
    simp only [sweepSteps, sweepIxs, if_pos hpos, List.cons_append, List.nil_append, processSteps,
      hstep, hstep', List.append_nil]
  · obtain ⟨p', hstep', hw'⟩ := solSweep_step (p := tx.start) hf receiver rfl (Or.inr ⟨rfl, rfl⟩)
    refine ⟨p', ?_, hw'⟩
    simp only [sweepSteps, sweepIxs, if_neg hpos, List.nil_append, processSteps, hstep',
      List.append_nil]

-- ── The sweep of an agent ───────────────────────────────────────────────────

variable {a a' : AgentState} {i : Input} {out : List Effect} {w : Keypair} {chain : Chain}
  {action : SolanaAction} {price : UInt64} {cu : UInt32} {b : Built}

/-- The action that `collect` queues. -/
theorem collect_action (hw : a.mainWallet = some w) (hcollect : a.collect i = some (a', out))
    (haction : action ∈ queuedActions out) :
    action = SolanaAction.newWithFeepayer i.uuid i.queuedAt a.agentKey w
      (sweepSteps w.pubkey a.pool.baseMint i.tokenBalance) := by
  rw [AgentState.collect, hw] at hcollect
  obtain ⟨-, rfl⟩ := Prod.mk.inj (Option.some.inj hcollect)
  exact List.mem_singleton.mp haction

/-- It names the agent's token, if there are tokens. -/
theorem sweep_tokens (uuid : Uuid) (now : Instant) (sniper payer : Keypair)
    (receiver mint : Pubkey) (tokens : UInt64) :
    getTokensUsedInTx (SolanaAction.newWithFeepayer uuid now sniper payer
      (sweepSteps receiver mint tokens)) = if 0 < tokens then [mint] else [] := by
  by_cases hpos : 0 < tokens
  · simp only [getTokensUsedInTx, SolanaAction.newWithFeepayer, sweepSteps, if_pos hpos]
    rfl
  · simp only [getTokensUsedInTx, SolanaAction.newWithFeepayer, sweepSteps, if_neg hpos]
    rfl

/-- What passes the checks and runs through the loop without wrapping is built so. -/
theorem built_of_loop {p : Pointers} {ixs : List Instruction}
    (hlen : (getTokensUsedInTx action).length ≤ 1) (hf : FeeOK (txContext chain action price cu))
    (hloop : processSteps (txContext chain action price cu)
      (txContext chain action price cu).start action.actionPayload = .ok (p, ixs))
    (hw : p.wrapped = false) :
    ∃ b, buildInstructions chain action price cu = .ok b ∧ b.wrapped = false ∧
      b.actionIxs = ixs := by
  have hnonzero : (txContext chain action price cu).solBalance ≠ 0 := by
    intro hzero
    have hle := hf.le
    rw [hzero] at hle
    exact absurd hf.pos (Nat.not_lt.mpr hle)
  obtain ⟨b, hb⟩ := buildInstructions_ok_iff.mpr
    ⟨hnonzero, hlen, UInt64.le_iff_toNat_le.mpr hf.le, _, hloop⟩
  obtain ⟨p', -, -, hloop', hwrap⟩ := buildInstructions_ok hb
  rw [hloop] at hloop'
  obtain ⟨rfl, rfl⟩ := Prod.mk.inj (Except.ok.inj hloop')
  refine ⟨b, hb, ?_, rfl⟩
  rw [hwrap, (computeTxFee_ok price cu).1, hw]
  rfl

/-- The sweep is built exactly when the agent has the fee, and then as it should be. -/
theorem sweep_built (price : UInt64) (cu : UInt32) (hw : a.mainWallet = some w)
    (hcollect : a.collect i = some (a', out)) (haction : action ∈ queuedActions out)
    (htokens : chain.tokenBalance a.pubkey a.pool.baseMint = i.tokenBalance) :
    (∀ b, buildInstructions chain action price cu = .ok b →
      (computeTxFee price cu).val ≤ chain.balance a.pubkey) ∧
    ((computeTxFee price cu).val ≤ chain.balance a.pubkey →
      ∃ b, buildInstructions chain action price cu = .ok b ∧ b.wrapped = false ∧
        b.actionIxs = sweepIxs (txContext chain action price cu) w.pubkey a.pool.baseMint
          i.tokenBalance) := by
  obtain rfl := collect_action hw hcollect haction
  have htoks := sweep_tokens i.uuid i.queuedAt a.agentKey w w.pubkey a.pool.baseMint i.tokenBalance
  constructor
  · intro b hb
    obtain ⟨p, -, hfee, -⟩ := buildInstructions_ok hb
    exact hfee
  · intro hfee
    have hf : FeeOK (txContext chain (SolanaAction.newWithFeepayer i.uuid i.queuedAt a.agentKey w
      (sweepSteps w.pubkey a.pool.baseMint i.tokenBalance)) price cu) := feeOK_txContext hfee
    have hbalance : 0 < i.tokenBalance → chain.tokenBalance a.pubkey
        (actionTokenMint (SolanaAction.newWithFeepayer i.uuid i.queuedAt a.agentKey w
          (sweepSteps w.pubkey a.pool.baseMint i.tokenBalance))) = i.tokenBalance := by
      intro hsome
      rw [actionTokenMint, htoks, if_pos hsome]
      exact htokens
    obtain ⟨p, hloop, hunwrapped⟩ := sweep_loop hf w.pubkey a.pool.baseMint hbalance
    refine built_of_loop ?_ hf hloop hunwrapped
    rw [htoks]
    split
    · exact Nat.le_refl _
    · exact Nat.zero_le _

/-- What a sweep of tokens moves and closes. -/
theorem leavesNothing_tokens {tx : TxContext} {receiver : Pubkey} {tokens : UInt64}
    (hchain : tx.chain = chain) (hsniper : tx.sniper = a.pubkey) (hpayer : tx.feePayer = receiver)
    (hmint : tx.tokenMint = a.pool.baseMint) (hsol : tx.solBalance = chain.balance a.pubkey)
    (htokens : chain.tokenBalance a.pubkey a.pool.baseMint = tokens) (hpos : 0 < tokens)
    (hw : b.wrapped = false) (hixs : b.actionIxs = sweepIxs tx receiver a.pool.baseMint tokens) :
    LeavesNothing chain a receiver b := by
  have hata : tx.sniperTokenAta = tokenAccount chain a := by
    rw [TxContext.sniperTokenAta, hchain, hsniper, hmint]
    rfl
  have hlist : b.actionIxs =
      (if chain.accountExists (chain.ata receiver a.pool.baseMint) = true then [] else
        [.createAssociatedTokenAccount receiver receiver a.pool.baseMint tokenProgramId])
      ++ [.tokenTransfer (tokenAccount chain a) (chain.ata receiver a.pool.baseMint) a.pubkey tokens,
        .closeAccount (tokenAccount chain a) receiver a.pubkey,
        .systemTransfer a.pubkey receiver (chain.balance a.pubkey)] := by
    rw [hixs, sweepIxs, if_pos hpos, tokenIxs, hata, hchain, hsniper, hpayer, hmint, hsol,
      List.append_assoc]
    rfl
  refine ⟨?_, ?_, ?_, hw⟩
  · rw [hlist, htokens]
    split <;> simp [tokensBetween]
  · rw [hlist]
    split <;> simp [lamportsBetween]
  · intro _
    rw [hlist]
    simp

/-- Without tokens, an account that exists stays open. -/
theorem leavesNothing_sol {tx : TxContext} {receiver : Pubkey}
    (hsniper : tx.sniper = a.pubkey) (hsol : tx.solBalance = chain.balance a.pubkey)
    (htokens : chain.tokenBalance a.pubkey a.pool.baseMint = 0) (hw : b.wrapped = false)
    (hixs : b.actionIxs = sweepIxs tx receiver a.pool.baseMint 0) :
    LeavesNothing chain a receiver b ↔ chain.accountExists (tokenAccount chain a) = false := by
  have hlist : b.actionIxs = [.systemTransfer a.pubkey receiver (chain.balance a.pubkey)] := by
    rw [hixs, sweepIxs, hsniper, hsol]
    rfl
  constructor
  · intro h
    rw [← Bool.not_eq_true]
    intro hex
    have hclose := h.closed hex
    rw [hlist] at hclose
    simp at hclose
  · intro hnone
    refine ⟨?_, ?_, ?_, hw⟩
    · rw [hlist, htokens]
      rfl
    · rw [hlist]
      simp [lamportsBetween]
    · intro hex
      rw [hnone] at hex
      cases hex

/-- **A SWEEP LEAVES NOTHING** if and only if the agent has the fee that the main wallet pays,
    and no token account that is empty. -/
theorem sweep_complete_iff (hw : a.mainWallet = some w) (hcollect : a.collect i = some (a', out))
    (haction : action ∈ queuedActions out)
    (htokens : chain.tokenBalance a.pubkey a.pool.baseMint = i.tokenBalance) :
    (∃ b, buildInstructions chain action price cu = .ok b ∧ LeavesNothing chain a w.pubkey b) ↔
      (computeTxFee price cu).val ≤ chain.balance a.pubkey ∧
        (i.tokenBalance = 0 → chain.accountExists (tokenAccount chain a) = false) := by
  obtain ⟨hneeds, hbuilds⟩ := sweep_built price cu hw hcollect haction htokens
  have hcontext : (txContext chain action price cu).sniper = a.pubkey ∧
      (txContext chain action price cu).feePayer = w.pubkey := by
    obtain rfl := collect_action hw hcollect haction
    exact ⟨rfl, rfl⟩
  have hsol : (txContext chain action price cu).solBalance = chain.balance a.pubkey :=
    congrArg chain.balance hcontext.1
  have hmint : 0 < i.tokenBalance →
      (txContext chain action price cu).tokenMint = a.pool.baseMint := by
    intro hpos
    obtain rfl := collect_action hw hcollect haction
    show actionTokenMint _ = _
    rw [actionTokenMint, sweep_tokens, if_pos hpos]
    rfl
  constructor
  · rintro ⟨b, hb, hleaves⟩
    have hfee := hneeds b hb
    obtain ⟨b', hb', hunwrapped, hixs⟩ := hbuilds hfee
    obtain rfl := Except.ok.inj (hb.symm.trans hb')
    refine ⟨hfee, fun hzero => ?_⟩
    rw [hzero] at hixs htokens
    exact (leavesNothing_sol hcontext.1 hsol htokens hunwrapped hixs).mp hleaves
  · rintro ⟨hfee, haccount⟩
    obtain ⟨b, hb, hunwrapped, hixs⟩ := hbuilds hfee
    refine ⟨b, hb, ?_⟩
    by_cases hzero : i.tokenBalance = 0
    · rw [hzero] at hixs htokens
      exact (leavesNothing_sol hcontext.1 hsol htokens hunwrapped hixs).mpr (haccount hzero)
    · have hpos : 0 < i.tokenBalance := UInt64.pos_iff_ne_zero.mpr hzero
      exact leavesNothing_tokens rfl hcontext.1 hcontext.2 (hmint hpos) hsol htokens hpos
        hunwrapped hixs

-- ── Small balances ──────────────────────────────────────────────────────────

/-- A trader of the token `7`, whose main wallet has the key 3. -/
def sweptTrader : AgentState :=
  ⟨{ (default : RaydiumPool) with baseMint := ⟨7⟩ }, ⟨⟨2⟩, 2⟩, some ⟨⟨3⟩, 3⟩, some 1,
    ActionTracker.new 0⟩

/-- A chain on which everybody has so much, and every account exists. -/
def levelChain (sol tokens : UInt64) : Chain where
  balance := fun _ => sol
  tokenBalance := fun _ _ => tokens
  accountExists := fun _ => true
  ata := fun _ mint => mint

/-- The agent reads its token balance and collects. -/
def collectInput (tokens : UInt64) : Input := ⟨.forAgent .collect, 0, 0, ⟨1⟩, tokens⟩

/-- Ten tokens and 10,000 lamports are swept, when the fee is 5,001. -/
theorem ten_tokens_are_swept : ∃ a' out, sweptTrader.collect (collectInput 10) = some (a', out) ∧
    ∀ action ∈ queuedActions out, ∃ b, buildInstructions (levelChain 10000 10) action 0 0 = .ok b ∧
      LeavesNothing (levelChain 10000 10) sweptTrader ⟨3⟩ b := by
  refine ⟨_, _, rfl, fun action haction => ?_⟩
  exact (sweep_complete_iff (i := collectInput 10) (w := ⟨⟨3⟩, 3⟩) rfl rfl haction rfl).mpr
    ⟨by decide, fun h => absurd h (by decide)⟩

/-- **A THOUSAND LAMPORTS ARE NOT SWEPT**: the main wallet would pay the fee of 5,001. -/
theorem thousand_lamports_are_not_swept :
    ¬ ∀ (a a' : AgentState) (i : Input) (out : List Effect) (w : Keypair) (chain : Chain)
      (action : SolanaAction) (price : UInt64) (cu : UInt32),
      a.mainWallet = some w → w.pubkey ≠ a.pubkey → a.collect i = some (a', out) →
      action ∈ queuedActions out →
      chain.tokenBalance a.pubkey a.pool.baseMint = i.tokenBalance →
      0 < (chain.balance a.pubkey).toNat + i.tokenBalance.toNat →
      ∃ b, buildInstructions chain action price cu = .ok b ∧ LeavesNothing chain a w.pubkey b := by
  intro hclaim
  obtain ⟨b, hb, -⟩ := hclaim sweptTrader _ (collectInput 10) _ ⟨⟨3⟩, 3⟩ (levelChain 1000 10) _ 0 0
    rfl (by decide) rfl List.mem_cons_self rfl (by decide)
  cases hb

end FoxfireCollect
