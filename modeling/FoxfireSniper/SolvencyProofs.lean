import FoxfireSniper.BuildProofs

/-! # When does a built transaction fit the balance?

    `build_instructions` checks some amounts against the SOL that is left, and not the
    others: the check at the end of the loop is commented out.  This file replays an
    action in EXACT arithmetic, with a ledger of natural numbers in place of the `u64`
    pointers, and says for each kind of step what the source does not check
    (`Fits`).

    **`solvent_iff_affordable`**: for every action that is built, nothing wrapped and the
    lamports sent by the sniper, with its fee, are within its balance, exactly when every
    step of the replay fits. -/

namespace FoxfireSolvency

open FoxfireTypes FoxfireBuild WordArith

-- ── Lamports out of the sniper's account ────────────────────────────────────

/-- The lamports that an instruction transfers out of the account `sniper`. -/
def lamportsOut (sniper : Pubkey) : Instruction → Nat
  | .systemTransfer source _ lamports => if source = sniper then lamports.toNat else 0
  | _                                 => 0

def totalLamportsOut (sniper : Pubkey) (ixs : List Instruction) : Nat :=
  (ixs.map (lamportsOut sniper)).sum

theorem totalLamportsOut_append (sniper : Pubkey) (xs ys : List Instruction) :
    totalLamportsOut sniper (xs ++ ys)
      = totalLamportsOut sniper xs + totalLamportsOut sniper ys := by
  simp only [totalLamportsOut, List.map_append, List.sum_append]

/-- The fee, if the sniper pays it itself. -/
def ownFee (tx : TxContext) : Nat := if tx.feePayer = tx.sniper then tx.txFee.toNat else 0

-- ── The replay in exact arithmetic ──────────────────────────────────────────

/-- The state of the replay. -/
structure Ledger where
  /-- SOL still there. -/
  left   : Nat
  /-- The fee, until it has been charged. -/
  fee    : Nat
  /-- Tokens still there. -/
  tokens : Nat
  /-- Lamports sent by the steps so far. -/
  spent  : Nat
  /-- SOL to keep. -/
  keep   : Nat

/-- What a step does to the ledger: lamports sent, cost charged, SOL to keep. -/
structure Outlay where
  pays : Nat
  cost : Nat
  keep : Nat

def Ledger.after (tx : TxContext) (l : Ledger) (o : Outlay) (tokens : Nat) : Ledger where
  left := l.left - (if 0 < l.fee then tx.txFee.toNat else 0) - o.cost
  fee := 0
  tokens := l.tokens - tokens
  spent := l.spent + o.pays
  keep := l.keep + o.keep

/-- The ledger before the first step. -/
def startLedger (tx : TxContext) : Ledger :=
  ⟨tx.solBalance.toNat, tx.txFee.toNat, tx.tokenBalance.toNat, 0, 0⟩

/-- A SOL transfer; `none` if it does nothing. -/
def solOutlay (tx : TxContext) (l : Ledger) : Amount → Option Outlay
  | .exact a         => if 0 < a then some ⟨a.toNat, a.toNat + l.fee, 0⟩ else none
  | .exactWithFees a => if 0 < a then some ⟨a.toNat - l.fee, a.toNat, 0⟩ else none
  | .max             => some ⟨tx.solBalance.toNat, l.left - l.fee, 0⟩
  | .maxAndClose     => some ⟨tx.solBalance.toNat, l.left - l.fee, 0⟩
  | .maxButLeaveForTransfer =>
      if tx.txFee.toNat + l.fee < l.left
      then some ⟨l.left - tx.txFee.toNat - l.fee, l.left - tx.txFee.toNat, tx.txFee.toNat⟩
      else none

/-- What a SOL transfer needs and the source does not check. -/
def SolFits (tx : TxContext) (l : Ledger) : Amount → Prop
  | .exact a         =>
      l.spent + a.toNat + ownFee tx ≤ tx.solBalance.toNat ∧ a.toNat + l.fee < 2 ^ 64
  | .exactWithFees a =>
      l.fee ≤ a.toNat ∧ l.spent + (a.toNat - l.fee) + ownFee tx ≤ tx.solBalance.toNat
  | .max             => l.spent = 0 ∧ ownFee tx = 0
  | .maxAndClose     => l.spent = 0 ∧ ownFee tx = 0
  | .maxButLeaveForTransfer => True

/-- The fees that a purchase sets aside, apart from the transaction fee. -/
def creationFees (tx : TxContext) : Nat :=
  (ataCreationFee tx).toNat + (wsolAtaCreationFeeReimbursed tx).toNat

/-- The lamports that a purchase swaps. -/
def buyAmount (tx : TxContext) (l : Ledger) : Amount → Nat
  | .exact a                => a.toNat
  | .exactWithFees a        => a.toNat - (l.fee + creationFees tx)
  | .max                    => l.left - (l.fee + creationFees tx)
  | .maxButLeaveForTransfer => l.left - (l.fee + tx.txFee.toNat + creationFees tx)
  | .maxAndClose            => l.left

/-- A purchase that swaps nothing is skipped.  An amount below the fees is not: the
    source's difference wraps. -/
def BuySkipped (tx : TxContext) (l : Ledger) : Amount → Prop
  | .exactWithFees a => a.toNat = l.fee + creationFees tx
  | amount           => buyAmount tx l amount = 0

instance (tx : TxContext) (l : Ledger) (amount : Amount) : Decidable (BuySkipped tx l amount) :=
  match amount with
  | .exact a                => inferInstanceAs (Decidable (a.toNat = 0))
  | .exactWithFees a        => inferInstanceAs (Decidable (a.toNat = l.fee + creationFees tx))
  | .max                    => inferInstanceAs (Decidable (buyAmount tx l .max = 0))
  | .maxButLeaveForTransfer =>
      inferInstanceAs (Decidable (buyAmount tx l .maxButLeaveForTransfer = 0))
  | .maxAndClose            => inferInstanceAs (Decidable (l.left = 0))

def buyOutlay (tx : TxContext) (l : Ledger) (amount : Amount) : Option Outlay :=
  if BuySkipped tx l amount then none
  else some ⟨buyAmount tx l amount, buyAmount tx l amount + (ataCreationFee tx).toNat,
    rentExemptionThresholdSol.toNat⟩

/-- What a purchase needs and the source does not check. -/
def BuyFits (tx : TxContext) (l : Ledger) : Amount → Prop
  | .exact a         =>
      l.spent + a.toNat + ownFee tx ≤ tx.solBalance.toNat ∧
        a.toNat + (ataCreationFee tx).toNat < 2 ^ 64
  | .exactWithFees a => l.fee + creationFees tx ≤ a.toNat
  | .max             => True
  | .maxButLeaveForTransfer => True
  | .maxAndClose     =>
      (0 < l.fee → ownFee tx = 0) ∧ l.left + (ataCreationFee tx).toNat < 2 ^ 64

/-- The outlay of a step; `none` if it does nothing. -/
def outlay (tx : TxContext) (l : Ledger) (step : SolanaActionPayload) : Option Outlay :=
  match step with
  | .transfer t =>
      match t.asset with
      | .sol     => solOutlay tx l t.amount
      | .token _ =>
          if asked l.tokens step = 0 then none
          else some ⟨0, if tx.chain.accountExists (tx.chain.ata t.receiver tx.tokenMint)
            then 0 else rentExemptionThresholdSol.toNat, 0⟩
  | .swap s =>
      match s.swapMethod with
      | .buyTokensForExactSol  => buyOutlay tx l s.amountIn
      | .sellExactTokensForSol => if asked l.tokens step = 0 then none else some ⟨0, 0, 0⟩

/-- **WHAT THE SOURCE DOES NOT CHECK**, step by step. -/
def Fits (tx : TxContext) (l : Ledger) (step : SolanaActionPayload) : Prop :=
  match step with
  | .transfer t =>
      match t.asset with
      | .sol     => SolFits tx l t.amount
      | .token _ => True
  | .swap s =>
      match s.swapMethod with
      | .buyTokensForExactSol  => BuyFits tx l s.amountIn
      | .sellExactTokensForSol => True

/-- Every step that does something fits. -/
def Affordable (tx : TxContext) (l : Ledger) : List SolanaActionPayload → Prop
  | []      => True
  | s :: ss =>
      match outlay tx l s with
      | none   => Affordable tx l ss
      | some o => Fits tx l s ∧ l.keep + o.keep < 2 ^ 64 ∧
          Affordable tx (l.after tx o (asked l.tokens s)) ss

-- ── The ledger and the pointers ─────────────────────────────────────────────

/-- The ledger shows what the pointers show. -/
structure Shows (l : Ledger) (p : Pointers) : Prop where
  left   : p.solBalancePointer.toNat = l.left
  fee    : p.txFeePointer.toNat = l.fee
  tokens : p.tokenBalancePointer.toNat = l.tokens
  keep   : p.minSolToKeepAfterPointer.toNat = l.keep

/-- A fee that can be charged: at least one lamport, far from the end of `u64`, and
    within the balance. -/
structure FeeOK (tx : TxContext) : Prop where
  pos   : 0 < tx.txFee.toNat
  small : tx.txFee.toNat < 2 ^ 45
  le    : tx.txFee.toNat ≤ tx.solBalance.toNat

/-- The fee was charged, or it is pending and nothing was spent. -/
def FeeDue (tx : TxContext) (p : Pointers) : Prop :=
  p.txFeePointer = 0 ∨ (p.txFeePointer = tx.txFee ∧ p.solBalancePointer = tx.solBalance)

theorem FeeDue.covered {tx : TxContext} {p : Pointers} (hf : FeeOK tx) (h : FeeDue tx p) :
    p.txFeePointer.toNat ≤ p.solBalancePointer.toNat := by
  rcases h with h | ⟨h, hsol⟩
  · rw [h]
    exact Nat.zero_le _
  · rw [h, hsol]
    exact hf.le

/-- Nothing was emitted yet; or what is left and what was sent, with the sniper's own
    fee, is within the balance. -/
def Balanced (tx : TxContext) (l : Ledger) : Prop :=
  (l.fee = tx.txFee.toNat ∧ l.left = tx.solBalance.toNat ∧ l.spent = 0) ∨
  (l.fee = 0 ∧ l.left + l.spent + ownFee tx ≤ tx.solBalance.toNat)

theorem ownFee_le (tx : TxContext) : ownFee tx ≤ tx.txFee.toNat := by
  simp only [ownFee]
  split
  · exact Nat.le_refl _
  · exact Nat.zero_le _

theorem solBalance_lt (tx : TxContext) : tx.solBalance.toNat < 2 ^ 64 := tx.solBalance.toNat_lt

/-- Until it is charged the fee is covered, and what was sent is within the balance. -/
theorem Balanced.covers {tx : TxContext} {l : Ledger} (hf : FeeOK tx) (h : Balanced tx l) :
    l.fee ≤ tx.txFee.toNat ∧ l.fee ≤ l.left ∧ l.left ≤ tx.solBalance.toNat ∧
      l.spent + ownFee tx ≤ tx.solBalance.toNat := by
  have hown := ownFee_le tx
  have hle := hf.le
  rcases h with ⟨hfee, hleft, hspent⟩ | ⟨hfee, hsum⟩
  · omega
  · omega

theorem creationFees_small (tx : TxContext) : creationFees tx < 2 ^ 45 := by
  simp only [creationFees, ataCreationFee, wsolAtaCreationFeeReimbursed]
  split <;> split <;> decide

-- ── One step of the source against one step of the replay ───────────────────

/-- The emission of a step agrees with its outlay.  `fits` holds exactly when the step
    did not wrap and what has been sent is still within the balance; then the numbers
    are those of the replay. -/
structure Emits (tx : TxContext) (l : Ledger) (o : Outlay) (fits : Prop) (e : Emission)
    (w : Bool) : Prop where
  keep    : e.minSolToKeepAfter.toNat = o.keep
  solvent : (w = false ∧ l.spent + totalLamportsOut tx.sniper e.stepIxs + ownFee tx
    ≤ tx.solBalance.toNat) ↔ fits
  numbers : fits → e.solCost.toNat = o.cost ∧
    totalLamportsOut tx.sniper e.stepIxs = o.pays
  covered : fits → o.pays ≤ o.cost ∨
    l.left - (if 0 < l.fee then tx.txFee.toNat else 0) ≤ o.cost

/-- A step of the source agrees with the outlay of the replay. -/
def Agrees (tx : TxContext) (l : Ledger) (out : Option Outlay) (fits : Prop) :
    StepResult → Prop
  | (none, w)   => out = none ∧ w = false
  | (some e, w) => ∃ o, out = some o ∧ Emits tx l o fits e w

/-- A single transfer out of the sniper. -/
theorem totalLamportsOut_one (sniper receiver : Pubkey) (a : UInt64) :
    totalLamportsOut sniper [.systemTransfer sniper receiver a] = a.toNat := by
  simp [totalLamportsOut, lamportsOut]

/-- `Amount::Max` and `Amount::MaxAndClose` of SOL: the whole balance before the action
    is sent, and nothing is left of the pointer. -/
theorem sweep_emits {tx : TxContext} {l : Ledger} {p : Pointers} (hf : FeeOK tx)
    (hb : Balanced tx l) (hs : Shows l p) (receiver : Pubkey) :
    Emits tx l ⟨tx.solBalance.toNat, l.left - l.fee, 0⟩ (l.spent = 0 ∧ ownFee tx = 0)
      ⟨[.systemTransfer tx.sniper receiver tx.solBalance],
        ((p.solBalancePointer : Word) - (p.txFeePointer : Word)).val, 0, 0⟩
      ((p.solBalancePointer : Word) - (p.txFeePointer : Word)).wrapped := by
  obtain ⟨-, hfee, -, -⟩ := hb.covers hf
  have hpos := hf.pos
  have hcost := (is_of_toNat hs.left).sub (is_of_toNat hs.fee) hfee
  refine ⟨rfl, ?_, ?_, ?_⟩
  · rw [totalLamportsOut_one]
    constructor
    · rintro ⟨-, hle⟩
      omega
    · rintro ⟨hspent, hown⟩
      exact ⟨hcost.1, by omega⟩
  · rintro -
    exact ⟨hcost.2, totalLamportsOut_one _ _ _⟩
  · rintro -
    refine Or.inr ?_
    show l.left - _ ≤ l.left - l.fee
    rcases hb with ⟨hfee', -, -⟩ | ⟨hfee', -⟩
    · rw [if_pos (by omega), hfee']
    · rw [if_neg (by omega), hfee']

/-- `Amount::Exact` of SOL. -/
theorem exact_emits {tx : TxContext} {l : Ledger} {p : Pointers} (hs : Shows l p)
    (receiver : Pubkey) (a : UInt64) :
    Emits tx l ⟨a.toNat, a.toNat + l.fee, 0⟩
      (l.spent + a.toNat + ownFee tx ≤ tx.solBalance.toNat ∧ a.toNat + l.fee < 2 ^ 64)
      ⟨[.systemTransfer tx.sniper receiver a],
        ((a : Word) + (p.txFeePointer : Word)).val, 0, 0⟩
      ((a : Word) + (p.txFeePointer : Word)).wrapped := by
  have hfeeW := is_of_toNat hs.fee
  have hsum := add_exact_iff (is_coe a) hfeeW
  refine ⟨rfl, ?_, ?_, ?_⟩
  · simp only [totalLamportsOut_one, hsum]
    exact and_comm
  · rintro ⟨-, hlt⟩
    exact ⟨((is_coe a).add hfeeW hlt).2, totalLamportsOut_one _ _ a⟩
  · intro _
    exact Or.inl (Nat.le_add_right _ _)

/-- `Amount::ExactWithFees` of SOL: below the pending fee the difference wraps. -/
theorem withFees_emits {tx : TxContext} {l : Ledger} {p : Pointers} (hs : Shows l p)
    (receiver : Pubkey) (a : UInt64) :
    Emits tx l ⟨a.toNat - l.fee, a.toNat, 0⟩
      (l.fee ≤ a.toNat ∧ l.spent + (a.toNat - l.fee) + ownFee tx ≤ tx.solBalance.toNat)
      ⟨[.systemTransfer tx.sniper receiver ((a : Word) - (p.txFeePointer : Word)).val],
        ((a : Word) - (p.txFeePointer : Word) + (p.txFeePointer : Word)).val, 0, 0⟩
      ((a : Word) - (p.txFeePointer : Word) + (p.txFeePointer : Word)).wrapped := by
  have hfeeW := is_of_toNat hs.fee
  have halt := a.toNat_lt
  have hexact : l.fee ≤ a.toNat →
      ((a : Word) - (p.txFeePointer : Word)).Is (a.toNat - l.fee) ∧
      ((a : Word) - (p.txFeePointer : Word) + (p.txFeePointer : Word)).Is a.toNat := by
    intro hle
    have hamt := (is_coe a).sub hfeeW hle
    have hcost := hamt.add hfeeW (by omega)
    rw [Nat.sub_add_cancel hle] at hcost
    exact ⟨hamt, hcost⟩
  refine ⟨rfl, ?_, ?_, ?_⟩
  · simp only [totalLamportsOut_one]
    constructor
    · rintro ⟨hw, hle⟩
      have hsub : ((a : Word) - (p.txFeePointer : Word)).wrapped = false := by
        rw [add_wrapped] at hw
        simp only [Bool.or_eq_false_iff] at hw
        exact hw.1.1
      have hge := (sub_exact_iff (is_coe a) hfeeW).mp hsub
      rw [(hexact hge).1.2] at hle
      exact ⟨hge, hle⟩
    · rintro ⟨hge, hle⟩
      refine ⟨(hexact hge).2.1, ?_⟩
      rw [(hexact hge).1.2]
      exact hle
  · rintro ⟨hge, -⟩
    refine ⟨(hexact hge).2.2, ?_⟩
    rw [totalLamportsOut_one]
    exact (hexact hge).1.2
  · rintro -
    exact Or.inl (Nat.sub_le _ _)

/-- `Amount::MaxButLeaveForTransfer` of SOL, when there is more than the two fees. -/
theorem leave_emits {tx : TxContext} {l : Ledger} {p : Pointers} (hf : FeeOK tx)
    (hb : Balanced tx l) (hs : Shows l p) (hlt : tx.txFee.toNat + l.fee < l.left)
    (receiver : Pubkey) :
    Emits tx l
      ⟨l.left - tx.txFee.toNat - l.fee, l.left - tx.txFee.toNat, tx.txFee.toNat⟩ True
      ⟨[.systemTransfer tx.sniper receiver
          ((p.solBalancePointer : Word) - (tx.txFee : Word) - (p.txFeePointer : Word)).val],
        ((p.solBalancePointer : Word) - (tx.txFee : Word) - (p.txFeePointer : Word)
          + (p.txFeePointer : Word)).val, 0, tx.txFee⟩
      (((tx.txFee : Word) + (p.txFeePointer : Word)).wrapped ||
        ((p.solBalancePointer : Word) - (tx.txFee : Word) - (p.txFeePointer : Word)
          + (p.txFeePointer : Word)).wrapped) := by
  obtain ⟨hfeeLe, -, hleft, hspent⟩ := hb.covers hf
  have hbal := solBalance_lt tx
  have hsmall := hf.small
  have hown := ownFee_le tx
  have hfeeW := is_of_toNat hs.fee
  have hreserve := (is_coe tx.txFee).add hfeeW (by omega)
  have hamt := ((is_of_toNat hs.left).sub (is_coe tx.txFee) (by omega)).sub hfeeW (by omega)
  have hcost := hamt.add hfeeW (by omega)
  refine ⟨rfl, ?_, ?_, ?_⟩
  · simp only [totalLamportsOut_one, hamt.2, hreserve.1, hcost.1, Bool.or_self, true_and,
      iff_true]
    rcases hb with ⟨hfee', hleft', hspent'⟩ | ⟨hfee', hsum⟩
    · omega
    · omega
  · rintro -
    refine ⟨?_, ?_⟩
    · rw [hcost.2]
      show _ = l.left - tx.txFee.toNat
      omega
    · rw [totalLamportsOut_one]
      exact hamt.2
  · rintro -
    exact Or.inl (Nat.sub_le _ _)

theorem transferSol_agrees {tx : TxContext} {l : Ledger} {p : Pointers} (hf : FeeOK tx)
    (hb : Balanced tx l) (hs : Shows l p) (t : SolanaTransferActionPayload) :
    Agrees tx l (solOutlay tx l t.amount) (SolFits tx l t.amount) (transferSol tx p t) := by
  cases ha : t.amount with
  | exact a =>
      simp only [transferSol, ha, solOutlay, SolFits]
      by_cases hpos : 0 < a
      · simp only [if_pos hpos]
        exact ⟨_, rfl, exact_emits hs t.receiver a⟩
      · simp only [if_neg hpos]
        exact ⟨rfl, rfl⟩
  | exactWithFees a =>
      simp only [transferSol, ha, solOutlay, SolFits]
      by_cases hpos : 0 < a
      · simp only [if_pos hpos]
        exact ⟨_, rfl, withFees_emits hs t.receiver a⟩
      · simp only [if_neg hpos]
        exact ⟨rfl, rfl⟩
  | max =>
      simp only [transferSol, ha, solOutlay, SolFits]
      exact ⟨_, rfl, sweep_emits hf hb hs t.receiver⟩
  | maxAndClose =>
      simp only [transferSol, ha, solOutlay, SolFits]
      exact ⟨_, rfl, sweep_emits hf hb hs t.receiver⟩
  | maxButLeaveForTransfer =>
      simp only [transferSol, ha, solOutlay, SolFits]
      obtain ⟨hfeeLe, -, -, -⟩ := hb.covers hf
      have hsmall := hf.small
      have hreserve := (is_coe tx.txFee).add (is_of_toNat hs.fee) (by omega)
      have hcond : ((tx.txFee : Word) + (p.txFeePointer : Word)).val < p.solBalancePointer
          ↔ tx.txFee.toNat + l.fee < l.left := by
        rw [UInt64.lt_iff_toNat_lt, hreserve.2, hs.left]
      by_cases hlt : tx.txFee.toNat + l.fee < l.left
      · simp only [if_pos (hcond.mpr hlt), if_pos hlt]
        exact ⟨_, rfl, leave_emits hf hb hs hlt t.receiver⟩
      · simp only [if_neg (fun h => hlt (hcond.mp h)), if_neg hlt]
        exact ⟨rfl, hreserve.1⟩

-- ── Purchases ───────────────────────────────────────────────────────────────

/-- A purchase sends exactly what it swaps. -/
theorem buyIxs_lamports (tx : TxContext) (s : SolanaSwapActionPayload) (a : UInt64) :
    totalLamportsOut tx.sniper (buyIxs tx s a) = a.toNat := by
  simp only [totalLamportsOut, buyIxs]
  split <;> split <;> simp [lamportsOut]

/-- A purchase for an amount that was computed exactly. -/
theorem buy_emits {tx : TxContext} {l : Ledger} {s : SolanaSwapActionPayload}
    {amountIn : Word} {n : Nat} {fits : Prop} (his : amountIn.Is n)
    (hfits : (n + (ataCreationFee tx).toNat < 2 ^ 64 ∧
      l.spent + n + ownFee tx ≤ tx.solBalance.toNat) ↔ fits) :
    Emits tx l ⟨n, n + (ataCreationFee tx).toNat, rentExemptionThresholdSol.toNat⟩ fits
      ⟨buyIxs tx s amountIn.val, (amountIn + (ataCreationFee tx : Word)).val, 0,
        rentExemptionThresholdSol⟩
      (amountIn + (ataCreationFee tx : Word)).wrapped := by
  have hsum := add_exact_iff his (is_coe (ataCreationFee tx))
  refine ⟨rfl, ?_, ?_, ?_⟩
  · rw [buyIxs_lamports, his.2, hsum]
    exact hfits
  · intro h
    have hlt := (hfits.mpr h).1
    refine ⟨(his.add (is_coe (ataCreationFee tx)) hlt).2, ?_⟩
    rw [buyIxs_lamports]
    exact his.2
  · intro _
    exact Or.inl (Nat.le_add_right _ _)

/-- `buy`, once the amount is known. -/
theorem buy_of_amount {tx : TxContext} {p : Pointers} {s : SolanaSwapActionPayload}
    {amountIn : Word} {r : StepResult} (hin : swapSolAmountIn tx p s.amountIn = .ok amountIn)
    (h : buy tx p s = .ok r) :
    (0 < amountIn.val ∧
      r = (some ⟨buyIxs tx s amountIn.val, (amountIn + (ataCreationFee tx : Word)).val, 0,
        rentExemptionThresholdSol⟩, (amountIn + (ataCreationFee tx : Word)).wrapped)) ∨
    (amountIn.val = 0 ∧ r = (none, amountIn.wrapped)) := by
  simp only [buy, hin] at h
  split at h
  · rename_i hpos
    exact Or.inl ⟨hpos, (Except.ok.inj h).symm⟩
  · rename_i hpos
    refine Or.inr ⟨?_, (Except.ok.inj h).symm⟩
    have hnat : ¬ 0 < amountIn.val.toNat := hpos
    have hzero : amountIn.val.toNat = (0 : UInt64).toNat := by
      rw [show (0 : UInt64).toNat = 0 from rfl]
      omega
    exact UInt64.toNat_inj.mp hzero

/-- A purchase whose amount is computed exactly agrees with the replay. -/
theorem buy_agrees_exact {tx : TxContext} {l : Ledger} {p : Pointers}
    {s : SolanaSwapActionPayload} {amountIn : Word} {r : StepResult}
    (hin : swapSolAmountIn tx p s.amountIn = .ok amountIn)
    (his : amountIn.Is (buyAmount tx l s.amountIn))
    (hskip : BuySkipped tx l s.amountIn ↔ buyAmount tx l s.amountIn = 0)
    (hfits : (buyAmount tx l s.amountIn + (ataCreationFee tx).toNat < 2 ^ 64 ∧
      l.spent + buyAmount tx l s.amountIn + ownFee tx ≤ tx.solBalance.toNat)
      ↔ BuyFits tx l s.amountIn)
    (h : buy tx p s = .ok r) :
    Agrees tx l (buyOutlay tx l s.amountIn) (BuyFits tx l s.amountIn) r := by
  rcases buy_of_amount hin h with ⟨hpos, rfl⟩ | ⟨hzero, rfl⟩
  · have hne : ¬ BuySkipped tx l s.amountIn := by
      rw [hskip, ← his.2]
      have hnat : 0 < amountIn.val.toNat := hpos
      omega
    refine ⟨_, ?_, buy_emits his hfits⟩
    simp only [buyOutlay, if_neg hne]
  · have hskipped : BuySkipped tx l s.amountIn := by
      rw [hskip, ← his.2, hzero]
      rfl
    refine ⟨?_, his.1⟩
    simp only [buyOutlay, if_pos hskipped]

/-- The fees of a purchase, added up by the source. -/
theorem purchaseFees_word {tx : TxContext} {p : Pointers} (hf : FeeOK tx)
    (hfee : p.txFeePointer.toNat ≤ tx.txFee.toNat) :
    ((p.txFeePointer : Word) + (ataCreationFee tx : Word)
      + (wsolAtaCreationFeeReimbursed tx : Word)).Is
      (p.txFeePointer.toNat + creationFees tx) := by
  have hsmall := hf.small
  have hcreate := creationFees_small tx
  simp only [creationFees] at hcreate ⊢
  have hone := (is_coe p.txFeePointer).add (is_coe (ataCreationFee tx)) (by omega)
  have htwo := hone.add (is_coe (wsolAtaCreationFeeReimbursed tx)) (by omega)
  rw [Nat.add_assoc] at htwo
  exact htwo

/-- The fees that `Amount::MaxButLeaveForTransfer` sets aside. -/
theorem reservedFees_word {tx : TxContext} {p : Pointers} (hf : FeeOK tx)
    (hfee : p.txFeePointer.toNat ≤ tx.txFee.toNat) :
    ((p.txFeePointer : Word) + (tx.txFee : Word) + (ataCreationFee tx : Word)
      + (wsolAtaCreationFeeReimbursed tx : Word)).Is
      (p.txFeePointer.toNat + tx.txFee.toNat + creationFees tx) := by
  have hsmall := hf.small
  have hcreate := creationFees_small tx
  simp only [creationFees] at hcreate ⊢
  have hone := (is_coe p.txFeePointer).add (is_coe tx.txFee) (by omega)
  have htwo := hone.add (is_coe (ataCreationFee tx)) (by omega)
  have hthree := htwo.add (is_coe (wsolAtaCreationFeeReimbursed tx)) (by omega)
  rw [Nat.add_assoc] at hthree
  exact hthree

theorem creationFees_word {tx : TxContext} {l : Ledger} {p : Pointers} (hf : FeeOK tx)
    (hb : Balanced tx l) (hs : Shows l p) :
    ((p.txFeePointer : Word) + (ataCreationFee tx : Word)
      + (wsolAtaCreationFeeReimbursed tx : Word)).Is (l.fee + creationFees tx) := by
  obtain ⟨hfeeLe, -, -, -⟩ := hb.covers hf
  rw [← hs.fee] at hfeeLe ⊢
  exact purchaseFees_word hf hfeeLe

/-- What the fee leaves of the pointer can still be sent. -/
theorem Balanced.room {tx : TxContext} {l : Ledger} (hf : FeeOK tx) (h : Balanced tx l) :
    l.left - l.fee + l.spent + ownFee tx ≤ tx.solBalance.toNat := by
  have hown := ownFee_le tx
  have hle := hf.le
  rcases h with ⟨hfee, hleft, hspent⟩ | ⟨hfee, hsum⟩
  · omega
  · omega

/-- A purchase for what is left after setting aside `needed`, which is checked. -/
theorem buy_agrees_rest {tx : TxContext} {l : Ledger} {p : Pointers} (hf : FeeOK tx)
    (hb : Balanced tx l) (hs : Shows l p) {s : SolanaSwapActionPayload} {r : StepResult}
    {needed : Word} {n : Nat} (hneeded : needed.Is n)
    (hn : l.fee + (ataCreationFee tx).toNat ≤ n)
    (hin : swapSolAmountIn tx p s.amountIn = if p.solBalancePointer < needed.val
      then .error (.notEnoughSolBalance needed.val p.solBalancePointer)
      else .ok ((p.solBalancePointer : Word) - needed))
    (hamount : buyAmount tx l s.amountIn = l.left - n)
    (hskip : BuySkipped tx l s.amountIn ↔ buyAmount tx l s.amountIn = 0)
    (hfits : BuyFits tx l s.amountIn) (h : buy tx p s = .ok r) :
    Agrees tx l (buyOutlay tx l s.amountIn) (BuyFits tx l s.amountIn) r := by
  obtain ⟨-, -, hleft, -⟩ := hb.covers hf
  have hbal := solBalance_lt tx
  have hroom := hb.room hf
  by_cases hlt : p.solBalancePointer < needed.val
  · rw [if_pos hlt] at hin
    simp only [buy, hin] at h
    cases h
  · rw [if_neg hlt] at hin
    have hle : n ≤ l.left := by
      rw [UInt64.lt_iff_toNat_lt, hneeded.2, hs.left] at hlt
      exact Nat.not_lt.mp hlt
    refine buy_agrees_exact hin ?_ hskip ?_ h
    · rw [hamount]
      exact (is_of_toNat hs.left).sub hneeded hle
    · rw [hamount]
      refine iff_of_true ⟨?_, ?_⟩ hfits
      · omega
      · omega

/-- A purchase for a given amount less the fees: the balance is checked, but not that
    the amount covers the fees. -/
theorem buy_agrees_withFees {tx : TxContext} {l : Ledger} {p : Pointers} (hf : FeeOK tx)
    (hb : Balanced tx l) (hs : Shows l p) {s : SolanaSwapActionPayload} {r : StepResult}
    {a : UInt64} (hamt : s.amountIn = .exactWithFees a) (h : buy tx p s = .ok r) :
    Agrees tx l (buyOutlay tx l s.amountIn) (BuyFits tx l s.amountIn) r := by
  obtain ⟨-, -, hleft, -⟩ := hb.covers hf
  have hbal := solBalance_lt tx
  have hroom := hb.room hf
  have hfees := creationFees_word hf hb hs
  have hata : (ataCreationFee tx).toNat ≤ creationFees tx := Nat.le_add_right _ _
  by_cases hle : p.solBalancePointer < a
  · simp only [buy, hamt, swapSolAmountIn, if_pos hle] at h
    cases h
  · have hin : swapSolAmountIn tx p s.amountIn = .ok ((a : Word) -
        ((p.txFeePointer : Word) + (ataCreationFee tx : Word)
          + (wsolAtaCreationFeeReimbursed tx : Word))) := by
      simp only [hamt, swapSolAmountIn, if_neg hle]
    have hale : a.toNat ≤ l.left := by
      rw [← hs.left]
      exact Nat.not_lt.mp hle
    by_cases hge : l.fee + creationFees tx ≤ a.toNat
    · refine buy_agrees_exact hin ?_ ?_ ?_ h
      · rw [hamt]
        exact (is_coe a).sub hfees hge
      · rw [hamt]
        show a.toNat = l.fee + creationFees tx ↔ a.toNat - (l.fee + creationFees tx) = 0
        omega
      · rw [hamt]
        refine iff_of_true (⟨?_, ?_⟩ :
          a.toNat - (l.fee + creationFees tx) + _ < 2 ^ 64 ∧
            l.spent + (a.toNat - (l.fee + creationFees tx)) + _ ≤ _) hge
        · omega
        · omega
    · -- the source's difference wraps around
      have hwrap := (sub_exact_iff (is_coe a) hfees).not.mpr hge
      have hne : ¬ BuySkipped tx l s.amountIn := by
        rw [hamt]
        show ¬ a.toNat = l.fee + creationFees tx
        omega
      have hnofit : ¬ BuyFits tx l s.amountIn := by
        rw [hamt]
        exact hge
      rcases buy_of_amount hin h with ⟨-, rfl⟩ | ⟨hzero, rfl⟩
      · refine ⟨_, if_neg hne, rfl, ?_, ?_, ?_⟩
        · constructor
          · rintro ⟨hw, -⟩
            rw [add_wrapped] at hw
            simp only [Bool.or_eq_false_iff] at hw
            exact absurd hw.1.1 hwrap
          · intro hfit
            exact absurd hfit hnofit
        · intro hfit
          exact absurd hfit hnofit
        · intro hfit
          exact absurd hfit hnofit
      · have heq := (sub_val_eq_zero_iff _ _).mp hzero
        have hnat := congrArg UInt64.toNat heq
        rw [hfees.2] at hnat
        exact absurd (Nat.le_of_eq hnat.symm) hge

theorem leaveFees_word {tx : TxContext} {l : Ledger} {p : Pointers} (hf : FeeOK tx)
    (hb : Balanced tx l) (hs : Shows l p) :
    ((p.txFeePointer : Word) + (tx.txFee : Word) + (ataCreationFee tx : Word)
      + (wsolAtaCreationFeeReimbursed tx : Word)).Is
      (l.fee + tx.txFee.toNat + creationFees tx) := by
  obtain ⟨hfeeLe, -, -, -⟩ := hb.covers hf
  rw [← hs.fee] at hfeeLe ⊢
  exact reservedFees_word hf hfeeLe

/-- Swapping all that is left is solvent unless the sniper still owes its own fee. -/
theorem drain_fits_iff {tx : TxContext} {l : Ledger} (hf : FeeOK tx) (hb : Balanced tx l) :
    (l.left + (ataCreationFee tx).toNat < 2 ^ 64 ∧
      l.spent + l.left + ownFee tx ≤ tx.solBalance.toNat) ↔
      (0 < l.fee → ownFee tx = 0) ∧ l.left + (ataCreationFee tx).toNat < 2 ^ 64 := by
  have hpos := hf.pos
  rcases hb with ⟨hfee', hleft', hspent'⟩ | ⟨hfee', hsum⟩
  · constructor
    · rintro ⟨hlt, hle⟩
      exact ⟨fun _ => by omega, hlt⟩
    · rintro ⟨himp, hlt⟩
      have hzero := himp (by omega)
      exact ⟨hlt, by omega⟩
  · constructor
    · rintro ⟨hlt, -⟩
      exact ⟨fun hlt' => absurd hlt' (by omega), hlt⟩
    · rintro ⟨-, hlt⟩
      exact ⟨hlt, by omega⟩

theorem buy_agrees {tx : TxContext} {l : Ledger} {p : Pointers} (hf : FeeOK tx)
    (hb : Balanced tx l) (hs : Shows l p) {s : SolanaSwapActionPayload} {r : StepResult}
    (h : buy tx p s = .ok r) :
    Agrees tx l (buyOutlay tx l s.amountIn) (BuyFits tx l s.amountIn) r := by
  have hfees := creationFees_word hf hb hs
  have hata : (ataCreationFee tx).toNat ≤ creationFees tx := Nat.le_add_right _ _
  cases hamt : s.amountIn with
  | exact a =>
      have hin : swapSolAmountIn tx p s.amountIn = .ok (a : Word) := by
        rw [hamt]
        rfl
      rw [← hamt]
      refine buy_agrees_exact hin ?_ ?_ ?_ h
      · rw [hamt]
        exact is_coe a
      · rw [hamt]
        exact Iff.rfl
      · rw [hamt]
        exact and_comm
  | exactWithFees a =>
      rw [← hamt]
      exact buy_agrees_withFees hf hb hs hamt h
  | max =>
      rw [← hamt]
      refine buy_agrees_rest hf hb hs hfees (by omega) ?_ ?_ ?_ ?_ h
      · rw [hamt]
        rfl
      · rw [hamt]
        rfl
      · rw [hamt]
        exact Iff.rfl
      · rw [hamt]
        exact trivial
  | maxButLeaveForTransfer =>
      rw [← hamt]
      refine buy_agrees_rest hf hb hs (leaveFees_word hf hb hs) (by omega) ?_ ?_ ?_ ?_ h
      · rw [hamt]
        rfl
      · rw [hamt]
        rfl
      · rw [hamt]
        exact Iff.rfl
      · rw [hamt]
        exact trivial
  | maxAndClose =>
      have hin : swapSolAmountIn tx p s.amountIn = .ok (p.solBalancePointer : Word) := by
        rw [hamt]
        rfl
      rw [← hamt]
      refine buy_agrees_exact hin ?_ ?_ ?_ h
      · rw [hamt]
        exact is_of_toNat hs.left
      · rw [hamt]
        exact Iff.rfl
      · rw [hamt]
        exact drain_fits_iff hf hb

-- ── Token transfers and sales ───────────────────────────────────────────────

/-- A step that sends no lamports always fits. -/
theorem emits_of_no_lamports {tx : TxContext} {l : Ledger} {e : Emission} {cost : Nat}
    (hf : FeeOK tx) (hb : Balanced tx l)
    (hnone : totalLamportsOut tx.sniper e.stepIxs = 0) (hcost : e.solCost.toNat = cost)
    (hkeep : e.minSolToKeepAfter = 0) : Emits tx l ⟨0, cost, 0⟩ True e false := by
  obtain ⟨-, -, -, hspent⟩ := hb.covers hf
  refine ⟨?_, ?_, ?_, ?_⟩
  · rw [hkeep]
    rfl
  · rw [hnone]
    exact iff_of_true ⟨rfl, hspent⟩ trivial
  · rintro -
    exact ⟨hcost, hnone⟩
  · rintro -
    exact Or.inl (Nat.zero_le _)

theorem transferToken_agrees {tx : TxContext} {l : Ledger} {p : Pointers} (hf : FeeOK tx)
    (hb : Balanced tx l) (hs : Shows l p) {t : SolanaTransferActionPayload} {mint : Pubkey}
    (ha : t.asset = .token mint) :
    Agrees tx l (outlay tx l (.transfer t)) (Fits tx l (.transfer t))
      (transferToken tx p t mint) := by
  have hasked : asked l.tokens (.transfer t) = (tokenAmount p t.amount).toNat := by
    simp only [asked, ha, tokenAmount_asked, hs.tokens]
  simp only [outlay, Fits, ha, hasked, transferToken]
  by_cases hpos : 0 < tokenAmount p t.amount
  · have hne : ¬ (tokenAmount p t.amount).toNat = 0 := Nat.ne_of_gt hpos
    rw [if_pos hpos, if_neg hne]
    refine ⟨_, rfl, emits_of_no_lamports hf hb ?_ ?_ rfl⟩
    · simp only [totalLamportsOut]
      split <;> split <;> simp [lamportsOut]
    · cases tx.chain.accountExists (tx.chain.ata t.receiver tx.tokenMint) <;> rfl
  · have hzero : (tokenAmount p t.amount).toNat = 0 := Nat.eq_zero_of_not_pos hpos
    rw [if_neg hpos, if_pos hzero]
    exact ⟨rfl, rfl⟩

theorem sell_agrees {tx : TxContext} {l : Ledger} {p : Pointers} (hf : FeeOK tx)
    (hb : Balanced tx l) (hs : Shows l p) {s : SolanaSwapActionPayload}
    (hm : s.swapMethod = .sellExactTokensForSol) :
    Agrees tx l (outlay tx l (.swap s)) (Fits tx l (.swap s)) (sell tx p s) := by
  have hasked : asked l.tokens (.swap s) = (tokenAmount p s.amountIn).toNat := by
    simp only [asked, hm, tokenAmount_asked, hs.tokens]
  simp only [outlay, Fits, hm, hasked, sell]
  by_cases hpos : 0 < tokenAmount p s.amountIn
  · have hne : ¬ (tokenAmount p s.amountIn).toNat = 0 := Nat.ne_of_gt hpos
    rw [if_pos hpos, if_neg hne]
    refine ⟨_, rfl, emits_of_no_lamports hf hb ?_ rfl rfl⟩
    simp only [totalLamportsOut]
    split <;> simp [lamportsOut]
  · have hzero : (tokenAmount p s.amountIn).toNat = 0 := Nat.eq_zero_of_not_pos hpos
    rw [if_neg hpos, if_pos hzero]
    exact ⟨rfl, rfl⟩

/-- **EVERY STEP AGREES WITH ITS REPLAY.** -/
theorem stepResult_agrees {tx : TxContext} {l : Ledger} {p : Pointers} (hf : FeeOK tx)
    (hb : Balanced tx l) (hs : Shows l p) {step : SolanaActionPayload} {r : StepResult}
    (h : stepResult tx p step = .ok r) : Agrees tx l (outlay tx l step) (Fits tx l step) r := by
  cases stepResult_cases h with
  | @sol t ha =>
      simp only [outlay, Fits, ha]
      exact transferSol_agrees hf hb hs t
  | token ha => exact transferToken_agrees hf hb hs ha
  | bought _ hm hbuy =>
      simp only [outlay, Fits, hm]
      exact buy_agrees hf hb hs hbuy
  | sold _ hm => exact sell_agrees hf hb hs hm

-- ── The loop ────────────────────────────────────────────────────────────────

/-- The pointers after an emission that fits are the ledger's. -/
theorem advance_shows {tx : TxContext} {l : Ledger} {p : Pointers} {o : Outlay}
    {e : Emission} {t : Nat} (hf : FeeOK tx) (hb : Balanced tx l) (hs : Shows l p)
    (hcost : e.solCost.toNat = o.cost) (htok : e.tokenCost.toNat = t)
    (hle : e.tokenCost ≤ p.tokenBalancePointer) (hkeep : e.minSolToKeepAfter.toNat = o.keep)
    (hfit : l.keep + o.keep < 2 ^ 64) : Shows (l.after tx o t) (p.advance tx e) := by
  have hcharged : (if 0 < p.txFeePointer then (p.solBalancePointer : Word) - (tx.txFee : Word)
      else (p.solBalancePointer : Word)).Is
      (l.left - (if 0 < l.fee then tx.txFee.toNat else 0)) := by
    have hiff : 0 < p.txFeePointer ↔ 0 < l.fee := by
      rw [UInt64.lt_iff_toNat_lt, hs.fee]
      rfl
    by_cases hpos : 0 < l.fee
    · rw [if_pos (hiff.mpr hpos), if_pos hpos]
      obtain ⟨hfeeLe, hfee, -, -⟩ := hb.covers hf
      refine (is_of_toNat hs.left).sub (is_coe tx.txFee) ?_
      rcases hb with ⟨hfee', -, -⟩ | ⟨hfee', -⟩
      · omega
      · omega
    · rw [if_neg (fun h => hpos (hiff.mp h)), if_neg hpos]
      exact is_of_toNat hs.left
  refine ⟨?_, rfl, ?_, ?_⟩
  · simp only [Pointers.advance, Ledger.after]
    by_cases hlt : e.solCost < (if 0 < p.txFeePointer
        then (p.solBalancePointer : Word) - (tx.txFee : Word)
        else (p.solBalancePointer : Word)).val
    · rw [if_pos hlt, UInt64.toNat_sub_of_le _ _ (UInt64.le_of_lt hlt), hcharged.2, hcost]
    · rw [if_neg hlt]
      rw [UInt64.lt_iff_toNat_lt, hcharged.2, hcost] at hlt
      show 0 = _
      omega
  · show (p.tokenBalancePointer - e.tokenCost).toNat = l.tokens - t
    rw [UInt64.toNat_sub_of_le _ _ hle, hs.tokens, htok]
  · exact ((is_of_toNat hs.keep).add (is_of_toNat hkeep) hfit).2

/-- The ledger after an outlay that fits is balanced. -/
theorem after_balanced {tx : TxContext} {l : Ledger} {o : Outlay} {t : Nat} (hf : FeeOK tx)
    (hb : Balanced tx l)
    (hpaid : l.spent + o.pays + ownFee tx ≤ tx.solBalance.toNat)
    (hcov : o.pays ≤ o.cost ∨ l.left - (if 0 < l.fee then tx.txFee.toNat else 0) ≤ o.cost) :
    Balanced tx (l.after tx o t) := by
  refine Or.inr ⟨rfl, ?_⟩
  show l.left - (if 0 < l.fee then tx.txFee.toNat else 0) - o.cost + (l.spent + o.pays)
    + ownFee tx ≤ tx.solBalance.toNat
  have hown := ownFee_le tx
  have hpos := hf.pos
  rcases hb with ⟨hfee, hleft, hspent⟩ | ⟨hfee, hsum⟩
  · rw [if_pos (by omega)] at hcov ⊢
    omega
  · rw [if_neg (by omega)] at hcov ⊢
    omega

/-- The mark of the pointers after an emission. -/
theorem advance_wrapped {tx : TxContext} {l : Ledger} {p : Pointers} {o : Outlay}
    {e : Emission} (hf : FeeOK tx) (hb : Balanced tx l) (hs : Shows l p)
    (hle : e.tokenCost ≤ p.tokenBalancePointer) (hkeep : e.minSolToKeepAfter.toNat = o.keep) :
    (p.advance tx e).wrapped = false ↔ p.wrapped = false ∧ l.keep + o.keep < 2 ^ 64 := by
  have hcharged : (if 0 < p.txFeePointer then (p.solBalancePointer : Word) - (tx.txFee : Word)
      else (p.solBalancePointer : Word)).wrapped = false := by
    by_cases hpos : 0 < p.txFeePointer
    · rw [if_pos hpos, sub_exact_iff (is_of_toNat hs.left) (is_coe tx.txFee)]
      rw [UInt64.lt_iff_toNat_lt, hs.fee] at hpos
      have hpos' : 0 < l.fee := hpos
      have hle' := hf.le
      rcases hb with ⟨hfee', hleft', -⟩ | ⟨hfee', -⟩
      · omega
      · omega
    · rw [if_neg hpos]
  have htok : ((p.tokenBalancePointer : Word) - (e.tokenCost : Word)).wrapped = false :=
    (sub_exact_iff (is_coe _) (is_coe _)).mpr (UInt64.le_iff_toNat_le.mp hle)
  have hk := add_exact_iff (is_of_toNat hs.keep) (is_of_toNat hkeep)
  show (p.wrapped || _ || _ || _) = false ↔ _
  rw [Bool.or_eq_false_iff, Bool.or_eq_false_iff, Bool.or_eq_false_iff]
  constructor
  · rintro ⟨⟨⟨hw, -⟩, -⟩, hkw⟩
    exact ⟨hw, hk.mp hkw⟩
  · rintro ⟨hw, hlt⟩
    exact ⟨⟨⟨hw, hcharged⟩, htok⟩, hk.mpr hlt⟩

/-- A mark, once set, stays. -/
theorem processStep_wrapped {tx : TxContext} {p p' : Pointers} {step : SolanaActionPayload}
    {ixs : List Instruction} (h : processStep tx p step = .ok (p', ixs))
    (hw : p'.wrapped = false) : p.wrapped = false := by
  rcases processStep_cases h with ⟨w, -, -, rfl⟩ | ⟨e, w, -, -, -, rfl⟩
  · exact (Bool.or_eq_false_iff.mp hw).1
  · have hall : (p.wrapped || w || _ || _ || _) = false := hw
    simp only [Bool.or_eq_false_iff] at hall
    exact hall.1.1.1.1

theorem processSteps_wrapped {tx : TxContext} {steps : List SolanaActionPayload}
    {p p' : Pointers} {ixs : List Instruction} (h : processSteps tx p steps = .ok (p', ixs)) :
    p'.wrapped = false → p.wrapped = false := by
  refine processSteps_induction
    (motive := fun p _ p' _ => p'.wrapped = false → p.wrapped = false) ?_ ?_ h
  · intro p hw
    exact hw
  · intro p s ss p' ixs p'' rest hstep _ ih hw
    exact processStep_wrapped hstep (ih hw)

/-- **THE LOOP**: from agreeing states, nothing wraps and everything sent is within the
    balance exactly when the replay is affordable. -/
theorem processSteps_solvent {tx : TxContext} (hf : FeeOK tx)
    {steps : List SolanaActionPayload} {p p' : Pointers} {ixs : List Instruction}
    (h : processSteps tx p steps = .ok (p', ixs)) :
    ∀ l : Ledger, Balanced tx l → Shows l p → p.wrapped = false →
      ((p'.wrapped = false ∧ l.spent + totalLamportsOut tx.sniper ixs + ownFee tx
        ≤ tx.solBalance.toNat) ↔ Affordable tx l steps) := by
  refine processSteps_induction
    (motive := fun p steps p' ixs => ∀ l : Ledger, Balanced tx l → Shows l p →
      p.wrapped = false → ((p'.wrapped = false ∧ l.spent + totalLamportsOut tx.sniper ixs
        + ownFee tx ≤ tx.solBalance.toNat) ↔ Affordable tx l steps)) ?_ ?_ h
  · intro p l hb _ hw
    obtain ⟨-, -, -, hspent⟩ := hb.covers hf
    exact iff_of_true ⟨hw, hspent⟩ trivial
  · intro p s ss p' ixs p'' rest hstep hrest ih l hb hs hw
    rw [totalLamportsOut_append]
    rcases processStep_cases hstep with ⟨w, hres, rfl, rfl⟩ | ⟨e, w, hres, rfl, hle, rfl⟩
    · -- nothing is emitted
      obtain ⟨hnone, rfl⟩ := stepResult_agrees hf hb hs hres
      have hs' : Shows l { p with wrapped := p.wrapped || false } :=
        ⟨hs.left, hs.fee, hs.tokens, hs.keep⟩
      have hiff := ih l hb hs' (by rw [hw]; rfl)
      simp only [Affordable, hnone]
      rw [← hiff]
      simp [totalLamportsOut]
    · obtain ⟨o, hsome, hem⟩ := stepResult_agrees hf hb hs hres
      have hs' : Shows l { p with wrapped := p.wrapped || w } :=
        ⟨hs.left, hs.fee, hs.tokens, hs.keep⟩
      have htok : e.tokenCost.toNat = asked l.tokens s := by
        rw [← hs.tokens, ← stepResult_asked hres]
        rfl
      have hmark := advance_wrapped hf hb hs' hle hem.keep
      have hmark' : ({ p with wrapped := p.wrapped || w } : Pointers).wrapped = false
          ↔ w = false := by
        show (p.wrapped || w) = false ↔ _
        rw [hw, Bool.false_or]
      simp only [Affordable, hsome]
      -- after a step that fits, the induction hypothesis applies to the next ledger
      have hnext : Fits tx l s → l.keep + o.keep < 2 ^ 64 →
          ((p''.wrapped = false ∧ l.spent + totalLamportsOut tx.sniper e.stepIxs
              + totalLamportsOut tx.sniper rest + ownFee tx ≤ tx.solBalance.toNat) ↔
            Affordable tx (l.after tx o (asked l.tokens s)) ss) := by
        intro hfits hkeep
        obtain ⟨hcost, hpays⟩ := hem.numbers hfits
        obtain ⟨hwf, hpaid⟩ := hem.solvent.mpr hfits
        rw [hpays] at hpaid ⊢
        exact ih _ (after_balanced hf hb hpaid (hem.covered hfits))
          (advance_shows hf hb hs' hcost htok hle hem.keep hkeep)
          (hmark.mpr ⟨hmark'.mpr hwf, hkeep⟩)
      constructor
      · rintro ⟨hw'', htotal⟩
        obtain ⟨hwp, hkeep⟩ := hmark.mp (processSteps_wrapped hrest hw'')
        have hfits := hem.solvent.mp ⟨hmark'.mp hwp, by omega⟩
        exact ⟨hfits, hkeep, (hnext hfits hkeep).mp ⟨hw'', by omega⟩⟩
      · rintro ⟨hfits, hkeep, haff⟩
        obtain ⟨hw'', htotal⟩ := (hnext hfits hkeep).mpr haff
        exact ⟨hw'', by omega⟩

-- ── Solvency ────────────────────────────────────────────────────────────────

/-- The fee never wraps and is small. -/
theorem computeTxFee_ok (price : UInt64) (cu : UInt32) :
    (computeTxFee price cu).wrapped = false ∧ 0 < (computeTxFee price cu).val.toNat ∧
      (computeTxFee price cu).val.toNat < 2 ^ 45 := by
  have hlt := (price * cu.toUInt64).toNat_lt
  have hdiv : ((price * cu.toUInt64) / 1000000).toNat
      = (price * cu.toUInt64).toNat / 1000000 := UInt64.toNat_div _ _
  have hbase : baseTxFeeSol.toNat = 5000 := rfl
  have hone := (is_coe baseTxFeeSol).add (is_of_toNat hdiv) (by omega)
  have htwo := hone.add (is_coe (1 : UInt64)) (by
    rw [show (1 : UInt64).toNat = 1 from rfl]
    omega)
  have hval : (computeTxFee price cu).val.toNat
      = baseTxFeeSol.toNat + (price * cu.toUInt64).toNat / 1000000 + (1 : UInt64).toNat :=
    htwo.2
  rw [show (1 : UInt64).toNat = 1 from rfl] at hval
  refine ⟨htwo.1, ?_, ?_⟩
  · omega
  · omega

/-- The fee of an action whose sniper has it. -/
theorem feeOK_txContext {chain : Chain} {action : SolanaAction} {price : UInt64} {cu : UInt32}
    (h : (txContext chain action price cu).txFee ≤ (txContext chain action price cu).solBalance) :
    FeeOK (txContext chain action price cu) := by
  obtain ⟨-, hpos, hsmall⟩ := computeTxFee_ok price cu
  exact ⟨hpos, hsmall, UInt64.le_iff_toNat_le.mp h⟩

/-- Nothing wrapped, and what the sniper sends, with the fee if it pays it, is within
    its balance. -/
def Solvent (chain : Chain) (action : SolanaAction) (price : UInt64) (cu : UInt32)
    (b : Built) : Prop :=
  b.wrapped = false ∧
    totalLamportsOut action.sniper.pubkey b.actionIxs
      + ownFee (txContext chain action price cu)
      ≤ (chain.balance action.sniper.pubkey).toNat

/-- **SOLVENCY, EXACTLY**: an action that is built is solvent if and only if every step
    fits when the action is replayed in exact arithmetic. -/
theorem solvent_iff_affordable {chain : Chain} {action : SolanaAction} {price : UInt64}
    {cu : UInt32} {b : Built} (h : buildInstructions chain action price cu = .ok b) :
    Solvent chain action price cu b ↔
      Affordable (txContext chain action price cu)
        (startLedger (txContext chain action price cu)) action.actionPayload := by
  obtain ⟨p, -, hfee, hloop, hwrap⟩ := buildInstructions_ok h
  obtain ⟨hfw, -⟩ := computeTxFee_ok price cu
  have hf := feeOK_txContext hfee
  have hloop' := processSteps_solvent hf hloop
    (startLedger (txContext chain action price cu)) (Or.inl ⟨rfl, rfl, rfl⟩)
    ⟨rfl, rfl, rfl, rfl⟩ rfl
  rw [← hloop']
  simp only [Solvent, hwrap, hfw, Bool.false_or]
  have hzero : (startLedger (txContext chain action price cu)).spent = 0 := rfl
  rw [hzero, Nat.zero_add]
  exact Iff.rfl

/-- A transfer of SOL by a sniper that owns one SOL. -/
def solTransferAction (amount : Amount) : SolanaAction :=
  SolanaAction.new ⟨1⟩ 0 ⟨⟨1⟩, 1⟩ [.transfer ⟨.sol, ⟨2⟩, amount⟩]

/-- Half a SOL fits. -/
theorem half_sol_is_solvent :
    ∃ b, buildInstructions sampleChain (solTransferAction (.exact 500000000)) 0 0 = .ok b ∧
      Solvent sampleChain (solTransferAction (.exact 500000000)) 0 0 b := by
  refine ⟨_, rfl, (solvent_iff_affordable rfl).mpr ?_⟩
  have hfits : Fits (txContext sampleChain (solTransferAction (.exact 500000000)) 0 0)
      (startLedger (txContext sampleChain (solTransferAction (.exact 500000000)) 0 0))
      (.transfer ⟨.sol, ⟨2⟩, .exact 500000000⟩) := ⟨by decide, by decide⟩
  exact ⟨hfits, by decide, trivial⟩

/-- **TWO SOL OUT OF ONE**: an exact amount is not checked against the balance. -/
theorem two_sol_are_built_from_one :
    ¬ ∀ (chain : Chain) (action : SolanaAction) (price : UInt64) (cu : UInt32) (b : Built),
      buildInstructions chain action price cu = .ok b → Solvent chain action price cu b := by
  intro hclaim
  obtain ⟨b, hb, htotal⟩ : ∃ b, buildInstructions sampleChain
      (solTransferAction (.exact 2000000000)) 0 0 = .ok b ∧
      totalLamportsOut ⟨1⟩ b.actionIxs = 2000000000 := ⟨_, rfl, rfl⟩
  obtain ⟨-, hle⟩ := hclaim _ _ _ _ b hb
  have hle' : totalLamportsOut ⟨1⟩ b.actionIxs + _ ≤ 1000000000 := hle
  rw [htotal] at hle'
  omega

end FoxfireSolvency
