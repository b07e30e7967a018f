import FoxfireSniper.MachineRunProofs
import FoxfireSniper.SolvencyProofs

/-! # The ledger of `build_instructions`

    The cost of a step is said to exclude the fees, which the loop charges once, with the
    first step that emits something.  The transfers of SOL add the pending fee to their cost
    all the same, and then the loop charges it again.

    The loop is run as a machine over the steps, with a book kept beside it: whether anything
    was emitted, and the lamports that the sniper was debited.  The rent of an account is
    debited from whoever funds it; the WSOL account of a swap is closed by the same step.

    * `advance_left_iff`: when a step's cost keeps the pointer in line with the book;
    * **`ledger_exact_iff`**: the pointer is what the book leaves of the balance, at every
      boundary, exactly when every step is charged what it debits, or takes all there is. -/

namespace FoxfireLedger

open FoxfireTypes FoxfireBuild FoxfireSolvency MachineRun WordArith

-- ── The loop and its book ───────────────────────────────────────────────────

/-- One round of the loop, as a step of a machine. -/
def round (tx : TxContext) : Step Pointers SolanaActionPayload Instruction :=
  fun p s => (processStep tx p s).toOption

theorem round_eq_some {tx : TxContext} {p p' : Pointers} {s : SolanaActionPayload}
    {out : List Instruction} (h : round tx p s = some (p', out)) :
    processStep tx p s = .ok (p', out) := by
  rw [round] at h
  cases hs : processStep tx p s with
  | error e =>
      rw [hs] at h
      cases h
  | ok r =>
      rw [hs] at h
      rw [Option.some.inj h]

/-- The machine runs as the loop does. -/
theorem run_round (tx : TxContext) (steps : List SolanaActionPayload) :
    ∀ p, run (round tx) p steps = (processSteps tx p steps).toOption := by
  induction steps with
  | nil => intro p; rfl
  | cons s ss ih =>
      intro p
      rw [run_cons, round, processSteps]
      cases processStep tx p s with
      | error e => rfl
      | ok r =>
          obtain ⟨p', ixs⟩ := r
          show (run (round tx) p' ss).map (fun q => (q.1, ixs ++ q.2)) = _
          rw [ih]
          dsimp only
          cases processSteps tx p' ss with
          | error e => rfl
          | ok q => rfl

/-- The rent that the sniper pays, for accounts of the mints that count. -/
def rentPaid (sniper : Pubkey) (counts : Pubkey → Bool) : Instruction → Nat
  | .createAssociatedTokenAccount funder _ mint _ =>
      if funder = sniper ∧ counts mint = true then rentExemptionThresholdSol.toNat else 0
  | _ => 0

/-- A swap closes the WSOL account again. -/
def countsRent : SolanaActionPayload → Pubkey → Bool
  | .transfer _, _ => true
  | .swap _, mint  => mint ≠ wsolMintPubkey

/-- The lamports that the instructions of a step debit from the sniper. -/
def debit (tx : TxContext) (s : SolanaActionPayload) (ixs : List Instruction) : Nat :=
  totalLamportsOut tx.sniper ixs + (ixs.map (rentPaid tx.sniper (countsRent s))).sum

/-- What the steps so far have done. -/
structure Book where
  emitted : Bool
  debited : Nat

def Book.note (tx : TxContext) (b : Book) (s : SolanaActionPayload) (ixs : List Instruction) :
    Book :=
  ⟨b.emitted || !ixs.isEmpty, b.debited + debit tx s ixs⟩

/-- The loop with its book. -/
abbrev booked (tx : TxContext) : Step (Pointers × Book) SolanaActionPayload Instruction :=
  tracked (round tx) fun b _ s _ ixs => b.note tx s ixs

/-- With the book or without, the machine runs as the loop does. -/
theorem run_booked (tx : TxContext) (t : Pointers × Book) (steps : List SolanaActionPayload) :
    (run (booked tx) t steps).map (fun q => (q.1.1, q.2)) =
      (processSteps tx t.1 steps).toOption := by
  rw [run_tracked, run_round]

/-- **THE LEDGER**: the pointer is the balance, less the fee once something was emitted, less
    the debits. -/
def LedgerHolds (tx : TxContext) (t : Pointers × Book) : Prop :=
  t.1.solBalancePointer.toNat =
    tx.solBalance.toNat - (if t.2.emitted then tx.txFee.toNat else 0) - t.2.debited

instance (tx : TxContext) (t : Pointers × Book) : Decidable (LedgerHolds tx t) :=
  inferInstanceAs (Decidable (_ = _))

/-- Before the first step. -/
def opened (tx : TxContext) : Pointers × Book := (tx.start, ⟨false, 0⟩)

-- ── Charging a step ─────────────────────────────────────────────────────────

/-- What the pending fee leaves of the pointer. -/
def leftAfterFee (p : Pointers) : Nat := p.solBalancePointer.toNat - p.txFeePointer.toNat

/-- The fee is pending as long as nothing was emitted, and the ledger holds. -/
structure Even (tx : TxContext) (t : Pointers × Book) : Prop where
  fee    : t.1.txFeePointer = if t.2.emitted then 0 else tx.txFee
  unused : t.2.emitted = false → t.1.solBalancePointer = tx.solBalance ∧ t.2.debited = 0
  holds  : LedgerHolds tx t

/-- The fee is due, and the pointer within the balance. -/
structure FeeShown (tx : TxContext) (p : Pointers) : Prop where
  fee    : FeeDue tx p
  within : p.solBalancePointer.toNat ≤ tx.solBalance.toNat

variable {tx : TxContext}

theorem Even.feeShown {t : Pointers × Book} (h : Even tx t) : FeeShown tx t.1 := by
  have hfee := h.fee
  have hholds : t.1.solBalancePointer.toNat = _ - _ - _ := h.holds
  refine ⟨?_, by omega⟩
  cases hem : t.2.emitted with
  | true =>
      rw [hem] at hfee
      exact Or.inl hfee
  | false =>
      rw [hem] at hfee
      exact Or.inr ⟨hfee, (h.unused hem).1⟩

theorem opened_even (tx : TxContext) : Even tx (opened tx) :=
  ⟨rfl, fun _ => ⟨rfl, rfl⟩, rfl⟩

theorem note_emitted {b : Book} {s : SolanaActionPayload} {ixs : List Instruction}
    (hne : ixs ≠ []) : (b.note tx s ixs).emitted = true := by
  show (b.emitted || !ixs.isEmpty) = true
  rw [Bool.or_eq_true, Bool.not_eq_true', List.isEmpty_eq_false_iff]
  exact Or.inr hne

/-- What an emission leaves of the pointer. -/
theorem advance_left {p : Pointers} (hf : FeeOK tx) (h : FeeDue tx p) (e : Emission) (w : Bool) :
    (Pointers.advance tx { p with wrapped := w } e).solBalancePointer.toNat =
      leftAfterFee p - e.solCost.toNat := by
  have hcharged : (if 0 < p.txFeePointer
      then (p.solBalancePointer : Word) - (tx.txFee : Word)
      else (p.solBalancePointer : Word)).val.toNat = leftAfterFee p := by
    rw [leftAfterFee]
    rcases h with hfee | ⟨hfee, hsol⟩
    · rw [hfee]
      exact (Nat.sub_zero _).symm
    · have hpos : 0 < tx.txFee := hf.pos
      have hle := hf.le
      rw [hfee, hsol, if_pos hpos]
      exact ((is_coe tx.solBalance).sub (is_coe tx.txFee) hle).2
  rw [← hcharged]
  generalize hch : (if 0 < p.txFeePointer
      then (p.solBalancePointer : Word) - (tx.txFee : Word)
      else (p.solBalancePointer : Word)) = charged
  have hadvance : (Pointers.advance tx { p with wrapped := w } e).solBalancePointer =
      if e.solCost < charged.val then charged.val - e.solCost else 0 := by
    rw [← hch]
    rfl
  rw [hadvance]
  split
  · next hlt => exact UInt64.toNat_sub_of_le _ _ (UInt64.le_of_lt hlt)
  · next hge =>
      have hle := UInt64.le_iff_toNat_le.mp (UInt64.not_lt.mp hge)
      exact (Nat.sub_eq_zero_of_le hle).symm

/-- The pointer only falls. -/
theorem FeeShown.advance {p : Pointers} (hf : FeeOK tx) (h : FeeShown tx p) (e : Emission)
    (w : Bool) : FeeShown tx (Pointers.advance tx { p with wrapped := w } e) := by
  refine ⟨Or.inl rfl, ?_⟩
  rw [advance_left hf h.fee, leftAfterFee, Nat.sub_sub]
  exact Nat.le_trans (Nat.sub_le _ _) h.within

/-- So it does in a round. -/
theorem FeeShown.processStep {p p' : Pointers} (hf : FeeOK tx) (h : FeeShown tx p)
    {s : SolanaActionPayload} {out : List Instruction}
    (hs : processStep tx p s = .ok (p', out)) : FeeShown tx p' := by
  rcases processStep_cases hs with ⟨w, -, -, rfl⟩ | ⟨e, w, -, -, -, rfl⟩
  · exact ⟨h.fee, h.within⟩
  · exact h.advance hf e _

/-- **A STEP IS CHARGED WHAT IT DEBITS**, or both take all that the fee leaves. -/
theorem advance_left_iff {t : Pointers × Book} (hf : FeeOK tx) (h : Even tx t) {e : Emission}
    {s : SolanaActionPayload} (w : Bool) (hne : e.stepIxs ≠ []) :
    LedgerHolds tx (Pointers.advance tx { t.1 with wrapped := w } e, t.2.note tx s e.stepIxs) ↔
      e.solCost.toNat = debit tx s e.stepIxs ∨
        (leftAfterFee t.1 ≤ e.solCost.toNat ∧ leftAfterFee t.1 ≤ debit tx s e.stepIxs) := by
  have hleft : leftAfterFee t.1 = tx.solBalance.toNat - tx.txFee.toNat - t.2.debited := by
    rw [leftAfterFee, h.holds, h.fee]
    cases hem : t.2.emitted with
    | true => rfl
    | false =>
        rw [(h.unused hem).2]
        rfl
  have hsome : (t.2.note tx s e.stepIxs).emitted = true := note_emitted hne
  have hdebited : (t.2.note tx s e.stepIxs).debited = t.2.debited + debit tx s e.stepIxs := rfl
  rw [LedgerHolds, advance_left hf h.feeShown.fee, hsome, hdebited, if_pos rfl]
  omega

-- ── Which steps are charged what they debit ─────────────────────────────────

/-- The cost of an emission keeps the ledger. -/
def InLine (tx : TxContext) (p : Pointers) (s : SolanaActionPayload) (e : Emission) : Prop :=
  e.solCost.toNat = debit tx s e.stepIxs ∨
    (leftAfterFee p ≤ e.solCost.toNat ∧ leftAfterFee p ≤ debit tx s e.stepIxs)

/-- A transfer of SOL, with a fee that is not pending; or it takes all that the fee leaves. -/
def SolCharged (tx : TxContext) (p : Pointers) : Amount → Prop
  | .exact a =>
      a = 0 ∨ p.txFeePointer = 0 ∨ (leftAfterFee p ≤ a.toNat ∧
        leftAfterFee p ≤ (a.toNat + p.txFeePointer.toNat) % 2 ^ 64)
  | .exactWithFees a =>
      a = 0 ∨ p.txFeePointer = 0 ∨ leftAfterFee p ≤
        if p.txFeePointer.toNat ≤ a.toNat then a.toNat - p.txFeePointer.toNat else a.toNat
  | .max | .maxAndClose => True
  | .maxButLeaveForTransfer =>
      p.txFeePointer = 0 ∨ p.solBalancePointer.toNat ≤ tx.txFee.toNat + p.txFeePointer.toNat

/-- A transfer of tokens: no account is opened, or the sniper pays for it; or there is nothing
    left to charge. -/
def TokenCharged (tx : TxContext) (p : Pointers) (t : SolanaTransferActionPayload) : Prop :=
  tokenAmount p t.amount = 0 ∨
    tx.chain.accountExists (tx.chain.ata t.receiver tx.tokenMint) = true ∨
    tx.feePayer = tx.sniper ∨ leftAfterFee p = 0

/-- The lamports that a purchase swaps: the difference of the source, which wraps. -/
def buyLamports (tx : TxContext) (p : Pointers) : Amount → Nat
  | .exact a         => a.toNat
  | .exactWithFees a => (2 ^ 64 - (p.txFeePointer.toNat + creationFees tx) + a.toNat) % 2 ^ 64
  | .max             => p.solBalancePointer.toNat - (p.txFeePointer.toNat + creationFees tx)
  | .maxButLeaveForTransfer =>
      p.solBalancePointer.toNat - (p.txFeePointer.toNat + tx.txFee.toNat + creationFees tx)
  | .maxAndClose     => p.solBalancePointer.toNat

/-- A purchase: the token's account exists, or the sniper pays for it, and its rent fits beside
    the amount; or the amount takes all that the fee leaves. -/
def BuyCharged (tx : TxContext) (p : Pointers) (amount : Amount) : Prop :=
  let a := buyLamports tx p amount
  let rent := (ataCreationFee tx).toNat
  a = 0 ∨ rent = 0 ∨ (tx.feePayer = tx.sniper ∧ a + rent < 2 ^ 64) ∨
    (leftAfterFee p ≤ a ∧ leftAfterFee p ≤ (a + rent) % 2 ^ 64)

/-- **THE STEPS THAT KEEP THE LEDGER.**  Sales always do. -/
def Charged (tx : TxContext) (p : Pointers) : SolanaActionPayload → Prop
  | .transfer t =>
      match t.asset with
      | .sol     => SolCharged tx p t.amount
      | .token _ => TokenCharged tx p t
  | .swap s =>
      match s.swapMethod with
      | .buyTokensForExactSol  => BuyCharged tx p s.amountIn
      | .sellExactTokensForSol => True

/-- What a step does is in line if and only if `C`, and it emits instructions, if it does
    anything. -/
def Decides (tx : TxContext) (p : Pointers) (s : SolanaActionPayload) (C : Prop) :
    StepResult → Prop
  | (none, _)   => C
  | (some e, _) => e.stepIxs ≠ [] ∧ (InLine tx p s e ↔ C)

variable {p : Pointers}

theorem FeeShown.le (h : FeeShown tx p) : p.txFeePointer.toNat ≤ tx.txFee.toNat := by
  rcases h.fee with h | ⟨h, -⟩
  · rw [h]
    exact Nat.zero_le _
  · rw [h]

/-- What a single transfer of SOL debits. -/
theorem debit_systemTransfer (t : SolanaTransferActionPayload) (a : UInt64) :
    debit tx (.transfer t) [.systemTransfer tx.sniper t.receiver a] = a.toNat := by
  rw [debit, totalLamportsOut_one]
  rfl

theorem toNat_zero_iff {a : UInt64} : a = 0 ↔ a.toNat = 0 := UInt64.toNat_inj.symm

/-- `Amount::Max` and `Amount::MaxAndClose` of SOL: the pointer is at the end. -/
theorem sweep_decides (hf : FeeOK tx) (hp : FeeShown tx p) (t : SolanaTransferActionPayload) :
    Decides tx p (.transfer t) True
      (some ⟨[.systemTransfer tx.sniper t.receiver tx.solBalance],
        ((p.solBalancePointer : Word) - (p.txFeePointer : Word)).val, 0, 0⟩,
        ((p.solBalancePointer : Word) - (p.txFeePointer : Word)).wrapped) := by
  refine ⟨List.cons_ne_nil _ _, iff_of_true (Or.inr ⟨?_, ?_⟩) trivial⟩
  · exact Nat.le_of_eq ((is_coe p.solBalancePointer).sub (is_coe p.txFeePointer)
      (hp.fee.covered hf)).2.symm
  · rw [debit_systemTransfer]
    exact Nat.le_trans (Nat.sub_le _ _) hp.within

/-- `Amount::Exact` of SOL: the pending fee is part of the cost. -/
theorem exact_inLine_iff (hp : FeeShown tx p) (hf : FeeOK tx) (t : SolanaTransferActionPayload)
    {a : UInt64} (ha : 0 < a) :
    InLine tx p (.transfer t) ⟨[.systemTransfer tx.sniper t.receiver a],
      ((a : Word) + (p.txFeePointer : Word)).val, 0, 0⟩ ↔ SolCharged tx p (.exact a) := by
  have hpos : 0 < a.toNat := ha
  have hlt := a.toNat_lt
  have hle := hp.le
  have hsmall := hf.small
  have hcost : ((a : Word) + (p.txFeePointer : Word)).val.toNat =
      (a.toNat + p.txFeePointer.toNat) % 2 ^ 64 := UInt64.toNat_add _ _
  simp only [InLine, SolCharged, debit_systemTransfer, hcost, toNat_zero_iff]
  omega

/-- `Amount::ExactWithFees` of SOL: the fee is taken out, and part of the cost. -/
theorem exactWithFees_inLine_iff (hp : FeeShown tx p) (hf : FeeOK tx)
    (t : SolanaTransferActionPayload) {a : UInt64} (ha : 0 < a) :
    InLine tx p (.transfer t)
      ⟨[.systemTransfer tx.sniper t.receiver ((a : Word) - (p.txFeePointer : Word)).val],
        ((a : Word) - (p.txFeePointer : Word) + (p.txFeePointer : Word)).val, 0, 0⟩ ↔
      SolCharged tx p (.exactWithFees a) := by
  have hpos : 0 < a.toNat := ha
  have hlt := a.toNat_lt
  have hle := hp.le
  have hsmall := hf.small
  have hcov := hp.fee.covered hf
  have hsolLt := p.solBalancePointer.toNat_lt
  have hamount : ((a : Word) - (p.txFeePointer : Word)).val.toNat =
      (2 ^ 64 - p.txFeePointer.toNat + a.toNat) % 2 ^ 64 := UInt64.toNat_sub _ _
  have hcost : ((a : Word) - (p.txFeePointer : Word) + (p.txFeePointer : Word)).val.toNat =
      (((a : Word) - (p.txFeePointer : Word)).val.toNat + p.txFeePointer.toNat) % 2 ^ 64 :=
    UInt64.toNat_add _ _
  simp only [InLine, SolCharged, debit_systemTransfer, hcost, hamount, toNat_zero_iff,
    leftAfterFee]
  split
  · omega
  · omega

/-- `Amount::MaxButLeaveForTransfer` of SOL: another fee stays, and the pending one is part of
    the cost. -/
theorem leaveForTransfer_inLine_iff (hf : FeeOK tx) (hp : FeeShown tx p)
    (t : SolanaTransferActionPayload)
    (hlt : tx.txFee.toNat + p.txFeePointer.toNat < p.solBalancePointer.toNat) :
    InLine tx p (.transfer t)
      ⟨[.systemTransfer tx.sniper t.receiver
          ((p.solBalancePointer : Word) - (tx.txFee : Word) - (p.txFeePointer : Word)).val],
        ((p.solBalancePointer : Word) - (tx.txFee : Word) - (p.txFeePointer : Word)
          + (p.txFeePointer : Word)).val, 0, tx.txFee⟩ ↔
      SolCharged tx p .maxButLeaveForTransfer := by
  have hsolLt := p.solBalancePointer.toNat_lt
  have hamount := ((is_coe p.solBalancePointer).sub (is_coe tx.txFee) (by omega)).sub
    (is_coe p.txFeePointer) (by omega)
  have hcost := hamount.add (is_coe p.txFeePointer) (by omega)
  simp only [InLine, SolCharged, debit_systemTransfer, hcost.2, hamount.2, toNat_zero_iff,
    leftAfterFee]
  have hpos := hf.pos
  rcases hp.fee with hzero | ⟨hfee, -⟩
  · rw [hzero]
    exact iff_of_true (Or.inl rfl) (Or.inl rfl)
  · rw [hfee] at hlt ⊢
    omega

theorem transferSol_decides (hf : FeeOK tx) (hp : FeeShown tx p)
    (t : SolanaTransferActionPayload) :
    Decides tx p (.transfer t) (SolCharged tx p t.amount) (transferSol tx p t) := by
  have hzero : ∀ {a : UInt64}, ¬ 0 < a → a = 0 := fun h =>
    toNat_zero_iff.mpr (Nat.eq_zero_of_not_pos h)
  cases hamt : t.amount with
  | exact a =>
      simp only [transferSol, hamt]
      split
      · next hpos => exact ⟨List.cons_ne_nil _ _, exact_inLine_iff hp hf t hpos⟩
      · next hnot => exact Or.inl (hzero hnot)
  | exactWithFees a =>
      simp only [transferSol, hamt]
      split
      · next hpos => exact ⟨List.cons_ne_nil _ _, exactWithFees_inLine_iff hp hf t hpos⟩
      · next hnot => exact Or.inl (hzero hnot)
  | max =>
      simp only [transferSol, hamt, SolCharged]
      exact sweep_decides hf hp t
  | maxAndClose =>
      simp only [transferSol, hamt, SolCharged]
      exact sweep_decides hf hp t
  | maxButLeaveForTransfer =>
      have hle := hp.le
      have hsmall := hf.small
      have hreserve : ((tx.txFee : Word) + (p.txFeePointer : Word)).val.toNat =
          tx.txFee.toNat + p.txFeePointer.toNat :=
        ((is_coe tx.txFee).add (is_coe p.txFeePointer) (by omega)).2
      simp only [transferSol, hamt]
      split
      · next hlt =>
          rw [UInt64.lt_iff_toNat_lt, hreserve] at hlt
          exact ⟨List.cons_ne_nil _ _, leaveForTransfer_inLine_iff hf hp t hlt⟩
      · next hnot =>
          rw [UInt64.lt_iff_toNat_lt, hreserve] at hnot
          exact Or.inr (Nat.not_lt.mp hnot)

/-- A transfer of tokens debits the rent of the account that it opens. -/
theorem debit_tokenTransfer (t : SolanaTransferActionPayload) (create : Bool)
    (mint receiverAta : Pubkey) (amount : UInt64) :
    debit tx (.transfer t)
      ((if create = true then
          [.createAssociatedTokenAccount tx.feePayer t.receiver mint tokenProgramId] else [])
        ++ [.tokenTransfer tx.sniperTokenAta receiverAta tx.sniper amount]
        ++ (if t.amount = .maxAndClose
          then [.closeAccount tx.sniperTokenAta tx.feePayer tx.sniper] else [])) =
      if create = true ∧ tx.feePayer = tx.sniper then rentExemptionThresholdSol.toNat else 0 := by
  by_cases hclose : t.amount = .maxAndClose
  · cases create with
    | false => simp [debit, totalLamportsOut, lamportsOut, rentPaid, hclose]
    | true => simp [debit, totalLamportsOut, lamportsOut, rentPaid, countsRent, hclose]
  · cases create with
    | false => simp [debit, totalLamportsOut, lamportsOut, rentPaid, hclose]
    | true => simp [debit, totalLamportsOut, lamportsOut, rentPaid, countsRent, hclose]

theorem transferToken_decides (t : SolanaTransferActionPayload) (mint : Pubkey) :
    Decides tx p (.transfer t) (TokenCharged tx p t) (transferToken tx p t mint) := by
  simp only [transferToken, TokenCharged]
  by_cases hpos : 0 < tokenAmount p t.amount
  · have hne : tokenAmount p t.amount ≠ 0 := by
      rw [ne_eq, toNat_zero_iff]
      exact Nat.ne_of_gt hpos
    rw [if_pos hpos]
    refine ⟨by simp, ?_⟩
    have hdebit := fun create => @debit_tokenTransfer tx t create mint
      (tx.chain.ata t.receiver tx.tokenMint) (tokenAmount p t.amount)
    cases tx.chain.accountExists (tx.chain.ata t.receiver tx.tokenMint) with
    | true => exact iff_of_true (Or.inl (hdebit false).symm) (Or.inr (Or.inl rfl))
    | false =>
        by_cases hpayer : tx.feePayer = tx.sniper
        · have hrent := (hdebit true).trans (if_pos ⟨rfl, hpayer⟩)
          exact iff_of_true (Or.inl hrent.symm) (Or.inr (Or.inr (Or.inl hpayer)))
        · have hnone := (hdebit true).trans (if_neg fun h => hpayer h.2)
          constructor
          · rintro (h | ⟨-, h⟩)
            · cases h.trans hnone
            · exact Or.inr (Or.inr (Or.inr (Nat.le_zero.mp (h.trans_eq hnone))))
          · rintro (h | h | h | h)
            · exact absurd h hne
            · cases h
            · exact absurd h hpayer
            · refine Or.inr ⟨?_, ?_⟩
              · rw [h]
                exact Nat.zero_le _
              · rw [h]
                exact Nat.zero_le _
  · rw [if_neg hpos]
    exact Or.inl (toNat_zero_iff.mpr (Nat.eq_zero_of_not_pos hpos))

theorem sell_decides (s : SolanaSwapActionPayload) :
    Decides tx p (.swap s) True (sell tx p s) := by
  simp only [sell]
  split
  · refine ⟨by simp, iff_of_true (Or.inl ?_) trivial⟩
    split <;> simp [debit, totalLamportsOut, lamportsOut, rentPaid, countsRent]
  · trivial

/-- A purchase debits what it swaps, and the rent of the token's account. -/
theorem debit_buyIxs (hmint : tx.tokenMint ≠ wsolMintPubkey) (s : SolanaSwapActionPayload)
    (a : UInt64) :
    debit tx (.swap s) (buyIxs tx s a) =
      a.toNat + if tx.feePayer = tx.sniper then (ataCreationFee tx).toNat else 0 := by
  rw [debit, buyIxs_lamports, ataCreationFee]
  congr 1
  simp only [buyIxs]
  cases tx.chain.accountExists tx.sniperTokenAta with
  | true =>
      cases tx.chain.accountExists tx.sniperWsolAta with
      | true => simp [rentPaid]
      | false => simp [rentPaid, countsRent]
  | false =>
      cases tx.chain.accountExists tx.sniperWsolAta with
      | true => simp [rentPaid, countsRent, hmint]
      | false => simp [rentPaid, countsRent, hmint]

/-- The lamports that a purchase swaps. -/
theorem swapSolAmountIn_lamports (hf : FeeOK tx) (hp : FeeShown tx p) {amount : Amount}
    {amountIn : Word} (h : swapSolAmountIn tx p amount = .ok amountIn) :
    amountIn.val.toNat = buyLamports tx p amount := by
  have hfees := purchaseFees_word hf hp.le
  have hreserved := reservedFees_word hf hp.le
  cases amount with
  | exact a =>
      rw [← Except.ok.inj h]
      rfl
  | exactWithFees a =>
      simp only [swapSolAmountIn] at h
      split at h
      · cases h
      · rw [← Except.ok.inj h, buyLamports, ← hfees.2]
        exact UInt64.toNat_sub _ _
  | max =>
      simp only [swapSolAmountIn] at h
      split at h
      · cases h
      · next hge =>
          rw [UInt64.lt_iff_toNat_lt, hfees.2] at hge
          rw [← Except.ok.inj h]
          exact ((is_coe p.solBalancePointer).sub hfees (Nat.not_lt.mp hge)).2
  | maxButLeaveForTransfer =>
      simp only [swapSolAmountIn] at h
      split at h
      · cases h
      · next hge =>
          rw [UInt64.lt_iff_toNat_lt, hreserved.2] at hge
          rw [← Except.ok.inj h]
          exact ((is_coe p.solBalancePointer).sub hreserved (Nat.not_lt.mp hge)).2
  | maxAndClose =>
      rw [← Except.ok.inj h]
      rfl

theorem buy_decides (hf : FeeOK tx) (hp : FeeShown tx p) (hmint : tx.tokenMint ≠ wsolMintPubkey)
    {s : SolanaSwapActionPayload} {r : StepResult} (h : buy tx p s = .ok r) :
    Decides tx p (.swap s) (BuyCharged tx p s.amountIn) r := by
  cases hin : swapSolAmountIn tx p s.amountIn with
  | error e =>
      simp only [buy, hin] at h
      cases h
  | ok amountIn =>
      have hamount := swapSolAmountIn_lamports hf hp hin
      rcases buy_of_amount hin h with ⟨hpos, rfl⟩ | ⟨hzero, rfl⟩
      · have hpos' : 0 < amountIn.val.toNat := hpos
        have hlt := amountIn.val.toNat_lt
        have hcost : (amountIn + (ataCreationFee tx : Word)).val.toNat =
            (amountIn.val.toNat + (ataCreationFee tx).toNat) % 2 ^ 64 := UInt64.toNat_add _ _
        have hrent : (ataCreationFee tx).toNat ≤ 2039280 := by
          rw [ataCreationFee]
          split <;> decide
        refine ⟨by simp [buyIxs], ?_⟩
        rw [InLine, debit_buyIxs hmint, hcost, BuyCharged, ← hamount]
        by_cases hpayer : tx.feePayer = tx.sniper
        · simp only [hpayer, if_true, true_and]
          omega
        · simp only [hpayer, if_false, false_and, false_or]
          omega
      · refine Or.inl ?_
        rw [← hamount, hzero]
        rfl

/-- The token that a step names, if any, is the action's. -/
def NamesToken (tx : TxContext) (s : SolanaActionPayload) : Prop :=
  ∀ m, tokenOf s = some m → tx.tokenMint = m

theorem namesToken_of_mem {chain : Chain} {action : SolanaAction} {price : UInt64} {cu : UInt32}
    (hlen : (getTokensUsedInTx action).length ≤ 1) :
    ∀ s ∈ action.actionPayload, NamesToken (txContext chain action price cu) s := by
  intro s hs m hm
  exact tokenMint_of_named hlen hs hm

/-- **EVERY STEP**: its cost keeps the ledger if and only if it is charged what it debits. -/
theorem stepResult_decides (hf : FeeOK tx) (hp : FeeShown tx p) {s : SolanaActionPayload}
    (hn : NamesToken tx s) {r : StepResult} (h : stepResult tx p s = .ok r) :
    Decides tx p s (Charged tx p s) r := by
  cases stepResult_cases h with
  | @sol t ha =>
      simp only [Charged, ha]
      exact transferSol_decides hf hp t
  | @token t mint ha =>
      simp only [Charged, ha]
      exact transferToken_decides t mint
  | @bought s _ hsup hm hbuy =>
      have hbase : s.keys.baseMint ≠ wsolMintPubkey := by
        rw [supportedPool, Bool.and_eq_true, decide_eq_true_eq] at hsup
        exact hsup.1
      have hmint : tx.tokenMint ≠ wsolMintPubkey := by
        rw [hn s.keys.baseMint (if_pos hbase)]
        exact hbase
      simp only [Charged, hm]
      exact buy_decides hf hp hmint hbuy
  | @sold s _ hm =>
      simp only [Charged, hm]
      exact sell_decides s

-- ── The loop ────────────────────────────────────────────────────────────────

/-- **ONE ROUND** keeps the ledger if and only if its step is charged what it debits. -/
theorem booked_step (hf : FeeOK tx) {t t' : Pointers × Book} {s : SolanaActionPayload}
    {out : List Instruction} (h : Even tx t) (hn : NamesToken tx s)
    (hs : booked tx t s = some (t', out)) :
    (LedgerHolds tx t' ↔ Charged tx t.1 s) ∧ (LedgerHolds tx t' → Even tx t') := by
  obtain ⟨hround, hbook⟩ := tracked_eq_some hs
  obtain ⟨p', b'⟩ := t'
  obtain rfl : b' = t.2.note tx s out := hbook
  rcases processStep_cases (round_eq_some hround) with ⟨w, hres, rfl, rfl⟩ | ⟨e, w, hres, rfl, -, rfl⟩
  · -- nothing is emitted
    have hsame : t.2.note tx s [] = t.2 := by
      rw [Book.note, debit]
      simp [totalLamportsOut]
    rw [hsame]
    have hC : Charged tx t.1 s := stepResult_decides hf h.feeShown hn hres
    exact ⟨iff_of_true h.holds hC, fun _ => ⟨h.fee, h.unused, h.holds⟩⟩
  · obtain ⟨hne, hiff⟩ : _ ∧ _ := stepResult_decides hf h.feeShown hn hres
    refine ⟨(advance_left_iff hf h (t.1.wrapped || w) hne).trans hiff, fun hholds => ?_⟩
    have hsome : (t.2.note tx s e.stepIxs).emitted = true := note_emitted hne
    refine ⟨?_, ?_, hholds⟩
    · rw [hsome]
      rfl
    · intro hnone
      rw [hsome] at hnone
      cases hnone

/-- The loop is reached: the checks before it have passed. -/
structure LoopReached (chain : Chain) (action : SolanaAction) (price : UInt64) (cu : UInt32) :
    Prop where
  nonzero  : (txContext chain action price cu).solBalance ≠ 0
  oneToken : (getTokensUsedInTx action).length ≤ 1
  fee      : (txContext chain action price cu).txFee ≤ (txContext chain action price cu).solBalance

/-- **THE LEDGER HOLDS AT EVERY BOUNDARY** of the loop that is reached. -/
def LedgerExact (tx : TxContext) (steps : List SolanaActionPayload) : Prop :=
  ∀ past t out, past <+: steps → run (booked tx) (opened tx) past = some (t, out) →
    LedgerHolds tx t

/-- Every step that is carried out is charged what it debits. -/
def AllCharged (tx : TxContext) (steps : List SolanaActionPayload) : Prop :=
  Along (booked tx) (fun t s => (booked tx t s).isSome = true → Charged tx t.1 s) (opened tx) steps

/-- **THE LEDGER IS EXACT** if and only if every step is charged what it debits, or takes all
    that is left. -/
theorem ledger_exact_iff {chain : Chain} {action : SolanaAction} {price : UInt64} {cu : UInt32}
    (h : LoopReached chain action price cu) :
    LedgerExact (txContext chain action price cu) action.actionPayload ↔
      AllCharged (txContext chain action price cu) action.actionPayload := by
  have hf := feeOK_txContext h.fee
  have hnames := @namesToken_of_mem chain action price cu h.oneToken
  refine boundaries_iff (I := Even (txContext chain action price cu))
    (C := fun t s => Charged (txContext chain action price cu) t.1 s)
    (fun t ht => ht.holds) ?_ ?_ hnames (opened_even _)
  · intro t s t' out heven hn hs
    exact (booked_step hf heven hn hs).1
  · intro t s t' out heven hn hC hs
    obtain ⟨hiff, hnext⟩ := booked_step hf heven hn hs
    exact hnext (hiff.mpr hC)

/-- Sending everything keeps the ledger. -/
theorem sweep_keeps_ledger : LedgerExact (txContext sampleChain (solTransferAction .max) 0 0)
    (solTransferAction .max).actionPayload :=
  (ledger_exact_iff ⟨by decide, by decide, by decide⟩).mpr
    ⟨fun _ => trivial, fun _ _ _ => trivial⟩

/-- **THE FEE IS COUNTED TWICE**: after half a SOL out of one, the pointer is short of another
    5,001 lamports. -/
theorem exact_transfer_pays_fee_twice :
    ¬ ∀ (chain : Chain) (action : SolanaAction) (price : UInt64) (cu : UInt32),
      LoopReached chain action price cu →
      LedgerExact (txContext chain action price cu) action.actionPayload := by
  intro hclaim
  have h := hclaim sampleChain (solTransferAction (.exact 500000000)) 0 0
    ⟨by decide, by decide, by decide⟩ _ _ _ (List.prefix_refl _) rfl
  exact absurd h (by decide)

end FoxfireLedger
