import FoxfireSniper.ExecutorProofs
import FoxfireSniper.PoolSupportProofs
import FoxfireSniper.TrancheBudgetProofs

/-! # Can an agent trade with what it was sent?

    `initialize_agents_with_sol` and `transfer_token_to_sellers` reckon with transactions of
    15,000 lamports and one new account.  The executor's price and `estimate_cu_per_tx` make
    a purchase 356,954 lamports and a sale 250,117, and a purchase that leaves the fee of a
    further transfer wants both accounts of the agent opened.

    * `buyCovered_iff`: a buyer needs 4,792,468 lamports;
    * **`agents_covered_iff`**: so the buyers can buy exactly when every share brings its
      buyer there, and the sellers can never sell. -/

namespace FoxfireCoverage

open FoxfireTypes FoxfireBuild FoxfireExecutor FoxfireFunding FoxfireDirichlet FoxfireBudget
open FoxfirePool RoundedShares WordArith
open FoxfireAgent hiding State

-- ── A purchase ──────────────────────────────────────────────────────────────

/-- Neither the agent's account of the token nor its WSOL account exists. -/
structure NoAccounts (chain : Chain) (a : AgentState) : Prop where
  token : chain.accountExists (chain.ata a.pubkey a.pool.baseMint) = false
  wsol  : chain.accountExists (chain.ata a.pubkey wsolMintPubkey) = false

/-- With this balance and no accounts, the instructions of the agent's purchase can be
    built. -/
def BuyCovered (a : AgentState) (sol : UInt64) : Prop :=
  ∀ (i : Input), ∀ action ∈ queuedActions (a.buyForAll i).2, ∀ chain : Chain,
    chain.balance a.pubkey = sol → NoAccounts chain a →
    ∃ b, buildInstructions chain action pricePerCuPriority (estimateCuPerTx action) = .ok b

/-- The fee of the purchase, the same for a transfer later, and the rent of two accounts. -/
def purchaseNeeds : Nat := 2 * 356954 + 2 * 2039280

/-- The SOL that a purchase keeps back. -/
def keptBack (tx : TxContext) (p : Pointers) : UInt64 :=
  ((p.txFeePointer : Word) + (tx.txFee : Word) + (ataCreationFee tx : Word)
    + (wsolAtaCreationFeeReimbursed tx : Word)).val

/-- **A PURCHASE FOR ALL** is built exactly when there is what it keeps back. -/
theorem purchase_built_iff {tx : TxContext} {p : Pointers} {keys : LiquidityPoolKeys}
    (hpool : supportedPool keys = true) :
    (∃ r, processSteps tx p [.swap ⟨keys, .buyTokensForExactSol, .maxButLeaveForTransfer, 0⟩]
      = .ok r) ↔ keptBack tx p ≤ p.solBalancePointer := by
  have hstep : stepResult tx p (.swap ⟨keys, .buyTokensForExactSol, .maxButLeaveForTransfer, 0⟩)
      = buy tx p ⟨keys, .buyTokensForExactSol, .maxButLeaveForTransfer, 0⟩ := if_pos hpool
  simp only [processSteps, processStep, hstep]
  by_cases hle : keptBack tx p ≤ p.solBalancePointer
  · refine iff_of_true ?_ hle
    have hamount : swapSolAmountIn tx p .maxButLeaveForTransfer =
        .ok ((p.solBalancePointer : Word) - ((p.txFeePointer : Word) + (tx.txFee : Word)
          + (ataCreationFee tx : Word) + (wsolAtaCreationFeeReimbursed tx : Word))) :=
      if_neg (UInt64.not_lt.mpr hle)
    simp only [buy, hamount]
    generalize (p.solBalancePointer : Word) - _ = amountIn
    by_cases hpos : 0 < amountIn.val
    · -- a purchase costs no tokens
      have hcost : ¬ p.tokenBalancePointer < 0 := UInt64.not_lt.mpr UInt64.zero_le
      simp only [if_pos hpos, if_neg hcost]
      exact ⟨_, rfl⟩
    · simp only [if_neg hpos]
      exact ⟨_, rfl⟩
  · refine iff_of_false ?_ hle
    have hamount : swapSolAmountIn tx p .maxButLeaveForTransfer =
        .error (.notEnoughSolBalance (keptBack tx p) p.solBalancePointer) :=
      if_pos (UInt64.not_le.mp hle)
    simp only [buy, hamount]
    rintro ⟨r, hr⟩
    cases hr

/-- With neither account, this is twice the fee and two rents. -/
theorem keptBack_start {tx : TxContext} (hfee : tx.txFee = 356954)
    (htoken : tx.chain.accountExists tx.sniperTokenAta = false)
    (hwsol : tx.chain.accountExists tx.sniperWsolAta = false) :
    (keptBack tx tx.start).toNat = purchaseNeeds := by
  rw [keptBack, ataCreationFee, wsolAtaCreationFeeReimbursed, htoken, hwsol, TxContext.start, hfee]
  show (((356954 : UInt64) : Word) + ((356954 : UInt64) : Word)
    + (rentExemptionThresholdSol : Word) + (rentExemptionThresholdSol : Word)).val.toNat = _
  decide

/-- The purchase of an agent without accounts. -/
theorem buy_built_iff {a : AgentState} {sol : UInt64} {i : Input} {action : SolanaAction}
    {chain : Chain} (hpool : supportedPool a.pool.toLiquidityKeys = true)
    (haction : action ∈ queuedActions (a.buyForAll i).2) (hbal : chain.balance a.pubkey = sol)
    (hnone : NoAccounts chain a) :
    (∃ b, buildInstructions chain action pricePerCuPriority (estimateCuPerTx action) = .ok b) ↔
      purchaseNeeds ≤ sol.toNat := by
  have htrade : Trades a action := ⟨i, Or.inl haction⟩
  have hbase : a.pool.baseMint ≠ wsolMintPubkey := by
    rw [supportedPool, Bool.and_eq_true, decide_eq_true_eq] at hpool
    exact hpool.1
  have htokens := htrade.token hbase
  obtain rfl := List.mem_singleton.mp haction
  rw [buildInstructions_ok_iff, htokens]
  generalize htx : txContext chain _ pricePerCuPriority (estimateCuPerTx _) = tx
  have hsol : tx.solBalance = sol := by
    rw [← htx, ← hbal]
    rfl
  have hfee : tx.txFee = 356954 := by
    rw [← htx]
    exact (by decide : (computeTxFee pricePerCuPriority 115300).val = 356954)
  have hmint : tx.tokenMint = a.pool.baseMint := by
    rw [← htx]
    show actionTokenMint _ = _
    rw [actionTokenMint, htokens]
    rfl
  have hsniper : tx.sniper = a.pubkey := by
    rw [← htx]
    rfl
  have hchain : tx.chain = chain := by
    rw [← htx]
    rfl
  have hkept : (keptBack tx tx.start).toNat = purchaseNeeds := by
    refine keptBack_start hfee ?_ ?_
    · rw [TxContext.sniperTokenAta, hmint, hsniper, hchain]
      exact hnone.token
    · rw [TxContext.sniperWsolAta, hsniper, hchain]
      exact hnone.wsol
  have hstart : tx.start.solBalancePointer = sol := hsol
  have hle : keptBack tx tx.start ≤ tx.start.solBalancePointer ↔ purchaseNeeds ≤ sol.toNat := by
    rw [UInt64.le_iff_toNat_le, hkept, hstart]
  rw [show (SolanaAction.new i.uuid i.queuedAt a.agentKey _).actionPayload = [_] from rfl,
    purchase_built_iff hpool, hle, hsol, hfee]
  have hneeds : purchaseNeeds = 4792468 := rfl
  constructor
  · intro h
    exact h.2.2.2
  · intro h
    refine ⟨?_, Nat.le_refl _, ?_, h⟩
    · rintro rfl
      rw [hneeds] at h
      exact absurd h (by decide)
    · rw [UInt64.le_iff_toNat_le]
      exact Nat.le_trans (by decide) h

/-- A chain on which nobody has an account, and everybody this balance. -/
def bareChain (sol : UInt64) : Chain where
  balance := fun _ => sol
  tokenBalance := fun _ _ => 0
  accountExists := fun _ => false
  ata := fun _ _ => default

/-- **A BUYER NEEDS 4,792,468 LAMPORTS.** -/
theorem buyCovered_iff {a : AgentState} {sol : UInt64}
    (hpool : supportedPool a.pool.toLiquidityKeys = true) :
    BuyCovered a sol ↔ purchaseNeeds ≤ sol.toNat := by
  constructor
  · intro h
    have hbuilt := h ⟨.forAgent .collect, 0, 0, ⟨1⟩, 0⟩ _ List.mem_cons_self (bareChain sol) rfl
      ⟨rfl, rfl⟩
    exact (buy_built_iff hpool List.mem_cons_self rfl ⟨rfl, rfl⟩).mp hbuilt
  · intro h i action haction chain hbal hnone
    exact (buy_built_iff hpool haction hbal hnone).mpr h

-- ── What the agents are sent ────────────────────────────────────────────────

/-- Every buyer that is created can buy with what it is sent. -/
def BuyersCovered (s : Strategy) {n : Nat} (p : Proportions ℚ n) : Prop :=
  ∀ x : TrancheInput,
    (x.dirichletWithMin = fun alpha n minAmount =>
      (getDirichletDistributedWithMinAmount p.parts alpha n minAmount).amounts) →
    ∀ q ∈ buyers s x, BuyCovered (s.newAgent x q.1).storage q.2

/-- With this balance, the agent can pay the fee of its sale and open its WSOL account. -/
def SellCovered (a : AgentState) (sol : Nat) : Prop :=
  ∀ (i : Input) (amt : Amount), ∀ action ∈ queuedActions (a.sell i amt).2,
    (computeTxFee pricePerCuPriority (estimateCuPerTx action)).val.toNat
      + rentExemptionThresholdSol.toNat ≤ sol

/-- Every seller can sell with the SOL that it is sent. -/
def SellersCovered (s : Strategy) : Prop :=
  ∀ (x : TrancheInput) (key : Keypair) (tokens : UInt64),
    ∀ t ∈ sellerTransfers s.pool key.pubkey tokens, t.asset = .sol →
      SellCovered (s.newAgent x key).storage (lamportsOf t.amount)

/-- Every share but the first brings its buyer to what a purchase needs, and so does what the
    others leave to the first. -/
def SharesCover (alpha minAmount : Nat) {n : Nat} (p : Proportions ℚ n) : Prop :=
  let others := shares (alpha - n * minAmount) p.parts.tail
  (∀ k ∈ others, purchaseNeeds ≤ k + minAmount) ∧
    (others.sum + (n - 1) * minAmount ≤ alpha →
      others.sum + (n - 1) * minAmount + purchaseNeeds ≤ alpha)

/-- **THE SELLERS ARE NEVER COVERED**: 2,054,280 lamports are sent, and 2,289,397 are due. -/
theorem not_sellersCovered (s : Strategy) : ¬ SellersCovered s := by
  intro h
  have hcost := h sampleInput ⟨⟨1⟩, 1⟩ 0 _ List.mem_cons_self rfl ⟨.forAgent .collect, 0, 0, ⟨1⟩, 0⟩
    .max _ List.mem_cons_self
  have hdue : 2054280 < (computeTxFee pricePerCuPriority 80300).val.toNat
      + rentExemptionThresholdSol.toNat := by decide
  exact absurd hdue (Nat.not_lt.mpr hcost)

/-- All amounts are sent to somebody, if all agents can be created. -/
theorem forall_buyers_iff (s : Strategy) (draw : UInt64 → Nat → UInt64 → List UInt64)
    (P : UInt64 → Prop) :
    (∀ x : TrancheInput, x.dirichletWithMin = draw → ∀ q ∈ buyers s x, P q.2) ↔
      ∀ amount ∈ draw (solToLamports s.inst.trancheSizeSol) (asUsize s.inst.agentsBuyingInTranche)
        (minAgentAmount s.inst), P amount := by
  constructor
  · intro h amount hmem
    obtain ⟨k, hk, rfl⟩ := List.mem_iff_getElem.mp hmem
    have hidx : (_, k) ∈ (draw (solToLamports s.inst.trancheSizeSol)
        (asUsize s.inst.agentsBuyingInTranche) (minAgentAmount s.inst)).zipIdx :=
      List.mk_mem_zipIdx_iff_getElem?.mpr (List.getElem?_eq_getElem hk)
    exact h { sampleInput with dirichletWithMin := draw } rfl (⟨⟨BitVec.ofNat 256 (k + 10)⟩, 0⟩, _)
      (List.mem_filterMap.mpr ⟨_, hidx, rfl⟩)
  · intro h x hx q hq
    obtain ⟨r, hr, heq⟩ := List.mem_filterMap.mp hq
    obtain ⟨key, -, rfl⟩ := Option.map_eq_some_iff.mp heq
    rw [hx] at hr
    exact h _ (List.fst_mem_of_mem_zipIdx hr)

/-- **THE SHARES DECIDE** about the amounts. -/
theorem amounts_cover_iff {alpha minAmount : UInt64} {n : Nat} (p : Proportions ℚ n)
    (hsize : n < 2 ^ 64) (hmin : n * minAmount.toNat ≤ alpha.toNat) :
    (∀ amount ∈ (getDirichletDistributedWithMinAmount p.parts alpha n minAmount).amounts,
        purchaseNeeds ≤ amount.toNat) ↔ SharesCover alpha.toNat minAmount.toNat p := by
  have halpha := alpha.toNat_lt
  obtain ⟨corrected, rest, heq, hmap, -, hval, hhuge⟩ :=
    splitWithMin_spec (by omega) hsize hmin p
  have hsum := natSum_rest hmap
  have hneeds : purchaseNeeds < 2 ^ 63 := by decide
  have hfirst : purchaseNeeds ≤ corrected.val.toNat ↔
      (natSum rest ≤ alpha.toNat → natSum rest + purchaseNeeds ≤ alpha.toNat) := by
    by_cases hle : natSum rest ≤ alpha.toNat
    · rw [hval hle]
      constructor
      · intro h _
        omega
      · intro h
        have := h hle
        omega
    · have hbig := hhuge (Nat.not_le.mp hle)
      exact iff_of_true (by omega) fun h => absurd h hle
  have hrest : (∀ amount ∈ rest, purchaseNeeds ≤ amount.toNat) ↔
      ∀ k ∈ shares (alpha.toNat - n * minAmount.toNat) p.parts.tail,
        purchaseNeeds ≤ k + minAmount.toNat := by
    rw [← List.forall_mem_map (f := UInt64.toNat) (P := fun k => purchaseNeeds ≤ k), hmap,
      List.forall_mem_map]
  rw [heq, List.forall_mem_cons, hfirst, hrest, SharesCover, ← hsum]
  exact and_comm

/-- The buyers are covered exactly when their shares are. -/
theorem buyersCovered_iff {s : Strategy} {n : Nat} (p : Proportions ℚ n)
    (hcount : s.inst.agentsBuyingInTranche = n) (hsize : n < 2 ^ 31)
    (hpool : supportedPool s.pool.toLiquidityKeys = true)
    (hmin : n * (minAgentAmount s.inst).toNat ≤ (solToLamports s.inst.trancheSizeSol).toNat) :
    BuyersCovered s p ↔ SharesCover (solToLamports s.inst.trancheSizeSol).toNat
      (minAgentAmount s.inst).toNat p := by
  have hcast : asUsize s.inst.agentsBuyingInTranche = n := by
    rw [asUsize, hcount]
    omega
  have hbuyers := forall_buyers_iff s
    (fun alpha n minAmount =>
      (getDirichletDistributedWithMinAmount p.parts alpha n minAmount).amounts)
    fun amount => purchaseNeeds ≤ amount.toNat
  rw [hcast] at hbuyers
  rw [← amounts_cover_iff p (by omega) hmin, ← hbuyers]
  exact forall_congr' fun x => imp_congr_right fun _ => forall_congr' fun q =>
    imp_congr_right fun _ => buyCovered_iff hpool

/-- **WHO CAN TRADE WITH WHAT IT WAS SENT.**  For every tranche, number of buyers, tokens to
    keep and sample, if the tranche holds the minima: every buyer can buy if and only if the
    shares bring them all to what a purchase needs; and the sellers cannot sell. -/
theorem agents_covered_iff (s : Strategy) {n : Nat} (p : Proportions ℚ n)
    (hcount : s.inst.agentsBuyingInTranche = n) (hsize : n < 2 ^ 31)
    (hpool : supportedPool s.pool.toLiquidityKeys = true)
    (hmin : n * (minAgentAmount s.inst).toNat ≤ (solToLamports s.inst.trancheSizeSol).toNat) :
    (BuyersCovered s p ↔ SharesCover (solToLamports s.inst.trancheSizeSol).toNat
      (minAgentAmount s.inst).toNat p) ∧ ¬ SellersCovered s :=
  ⟨buyersCovered_iff p hcount hsize hpool hmin, not_sellersCovered s⟩

-- ── Two buyers ──────────────────────────────────────────────────────────────

instance (alpha minAmount : Nat) {n : Nat} (p : Proportions ℚ n) :
    Decidable (SharesCover alpha minAmount p) := inferInstanceAs (Decidable (_ ∧ _))

/-- Two buyers of a token against WSOL, with a tranche of this size. -/
def twoTraders (size : ℚ) : Strategy :=
  { sampleStrategy 2 with
    inst := ⟨1, size, 2, 2, 0⟩
    pool := poolDetails ⟨1⟩ (openingState ⟨7⟩ wsolMintPubkey 6 9) }

/-- One SOL covers two purchases. -/
theorem one_sol_covers_two_buyers :
    BuyersCovered (twoTraders 1) halves ∧ ¬ SellersCovered (twoTraders 1) := by
  have h := agents_covered_iff (twoTraders 1) halves rfl (by decide) (by decide +kernel)
    (by decide +kernel)
  exact ⟨h.1.mpr (by decide +kernel), h.2⟩

/-- **NEITHER BUYERS NOR SELLERS ARE COVERED**: two buyers with half of five thousandths of a
    SOL each, which is more than the minimum. -/
theorem funded_agents_cannot_trade :
    (¬ ∀ (s : Strategy) (n : Nat) (p : Proportions ℚ n), s.inst.agentsBuyingInTranche = n →
      n < 2 ^ 31 → supportedPool s.pool.toLiquidityKeys = true →
      n * (minAgentAmount s.inst).toNat ≤ (solToLamports s.inst.trancheSizeSol).toNat →
      BuyersCovered s p) ∧
    ¬ ∀ s : Strategy, SellersCovered s := by
  constructor
  · intro hclaim
    have hpool : supportedPool (twoTraders (5 / 1000)).pool.toLiquidityKeys = true := by
      decide +kernel
    have hmin : 2 * (minAgentAmount (twoTraders (5 / 1000)).inst).toNat ≤
        (solToLamports (twoTraders (5 / 1000)).inst.trancheSizeSol).toNat := by decide +kernel
    have hall := hclaim _ 2 halves rfl (by decide) hpool hmin
    rw [buyersCovered_iff halves rfl (by decide) hpool hmin] at hall
    exact absurd hall (by decide +kernel)
  · intro hclaim
    exact not_sellersCovered (twoTraders 1) (hclaim _)

end FoxfireCoverage
