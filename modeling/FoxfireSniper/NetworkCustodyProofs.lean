import FoxfireSniper.CustodyProofs
import FoxfireSniper.ExecutorProofs
import FoxfireSniper.SnipeVettingProofs
import FoxfireSniper.SolvencyProofs

/-! # What reaches the network — the strategies' orders as transactions

    `funds_stay` and `snipes_vetted` are about the actions that the strategies queue.  What
    moves money is the instructions that `build_instructions` makes of an action, with
    accounts that no action names, and the transactions that `execute` and `execute_tx` make
    of these, with a tip for bloXroute in one of them.

    * `outcome_registers`: `transactions` is what a call of `execute` gets through, and the
      cache registers the signature of the first.
    * `built_from_steps`: every instruction comes from a step of the action.
    * **`funds_stay_on_network`**: a transaction that is sent for a volume strategy moves funds
      between the accounts of its wallets, to its pool, and a tip to bloXroute.
    * **`snipes_on_network`**: one that is sent for a snipe moves funds of the sniper's wallet to
      its own accounts and to the vetted pool, no more than the size of the settings, and a tip
      to bloXroute. -/

namespace FoxfireExecutor

open FoxfireTypes FoxfireBuild FoxfireExecuteTx FoxfireCache FoxfireSolvency NoRollback GuardScope

-- ── The transactions of a call ──────────────────────────────────────────────

/-- What a call of `execute` passes to `execute_tx`, if it gets that far. -/
def Env.submits (env : Env) (action : SolanaAction) : Option (Hash × List Instruction) :=
  if action.isExpired env.now then none
  else
    match env.build action with
    | .error _  => none
    | .ok built =>
        if built.actionIxs.isEmpty then none
        else
          match env.latestBlockhash, env.simulationError with
          | .answered (some hash), none =>
              some (hash, prefinalItxsWithCu (estimateCuPerTx action) built.actionIxs)
          | _, _ => none

/-- The transactions of the call that get through to the network. -/
def Env.transactions (env : Env) (action : SolanaAction) : List Transaction :=
  match env.submits action with
  | none              => []
  | some (hash, itxs) =>
      (executeTx env.sign env.bloxroute hash action.sniper action.feePayer itxs
        env.replies).2

variable {env : Env} {cache : OperationalCache} {action : SolanaAction}

theorem dropGuard_rest {σ τ ε α : Type} (r : Except (Stop ε) α × World σ τ) :
    (dropGuard r).2.rest = r.2.rest := by
  rw [dropGuard]
  split
  · rfl
  · rfl

/-- What the scope that sends does to the cache. -/
theorem sendGuarded_rest {built : Built} {s : World SolanaAction OperationalCache}
    (hs : s.held = true) :
    (exec (sendGuarded env (estimateCuPerTx action) built action) s).2.rest =
      match env.latestBlockhash, env.simulationError with
      | .answered (some hash), none =>
          match env.send action hash
              (prefinalItxsWithCu (estimateCuPerTx action) built.actionIxs) with
          | none     => s.rest
          | some sig => s.rest.addAgentTx action.uuid sig
      | _, _ => s.rest := by
  cases hb : env.latestBlockhash with
  | noClients | unanswered =>
      rw [sendGuarded, hb]
      rfl
  | answered hash =>
      cases hash with
      | none =>
          rw [sendGuarded, hb]
          rfl
      | some hash =>
          rw [sendGuarded, hb]
          cases hsim : env.simulationError with
          | some err =>
              simp only [exec_recentBlockhash_bind, exec_report_held hs]
          | none =>
              cases hsend : env.send action hash
                  (prefinalItxsWithCu (estimateCuPerTx action) built.actionIxs) with
              | none =>
                  simp only [exec_recentBlockhash_bind, hsend]
                  rfl
              | some sig =>
                  simp only [exec_recentBlockhash_bind, hsend, addAgentTx, exec_modify_bind]
                  rw [exec_locked_bind_held
                    (s := { s with rest := s.rest.addAgentTx action.uuid sig }) hs]

/-- **THE CALL REGISTERS THE SIGNATURE THAT THIS CALL OF `execute_tx` RETURNS**, and leaves the
    cache as it was if it does not get there. -/
theorem outcome_registers (env : Env) (cache : OperationalCache) (action : SolanaAction) :
    (outcomeOf env cache action).2.rest =
      match (env.submits action).bind fun p => env.send action p.1 p.2 with
      | none     => cache
      | some sig => cache.addAgentTx action.uuid sig := by
  cases hexp : action.isExpired env.now with
  | true =>
      rw [outcome_expired hexp, Env.submits, if_pos hexp]
      rfl
  | false =>
      cases hbuild : env.build action with
      | error e =>
          rw [outcome_not_built hexp hbuild]
          simp only [Env.submits, hexp, hbuild]
          rfl
      | ok built =>
          by_cases hnil : built.actionIxs = []
          · rw [outcome_empty hexp hbuild hnil]
            simp only [Env.submits, hexp, hbuild, hnil]
            rfl
          · rw [outcome_guarded hexp hbuild hnil, dropGuard_rest, sendGuarded_rest rfl]
            have hempty : built.actionIxs.isEmpty = false := by simpa using hnil
            simp only [Env.submits, hexp, hbuild, hempty, Bool.false_eq_true, if_false]
            split
            · rfl
            · rfl

/-- A call that gets to `execute_tx` has built the instructions. -/
theorem submits_eq_some {hash : Hash} {itxs : List Instruction}
    (h : env.submits action = some (hash, itxs)) :
    ∃ built, env.build action = .ok built ∧
      itxs = prefinalItxsWithCu (estimateCuPerTx action) built.actionIxs := by
  rw [Env.submits] at h
  split at h
  · cases h
  · split at h
    · cases h
    · next built hbuild =>
        split at h
        · cases h
        · split at h
          · obtain ⟨-, rfl⟩ := Prod.mk.inj (Option.some.inj h)
            exact ⟨built, hbuild, rfl⟩
          · cases h

/-- What a transaction holds besides what was built: its compute budget, and on bloXroute's
    route a tip and a memo. -/
inductive Overhead (bx : BloxRoute) (feePayer : Pubkey) : Instruction → Prop where
  | unitLimit (units : UInt32) : Overhead bx feePayer (setComputeUnitLimit units)
  | unitPrice (microLamports : UInt64) : Overhead bx feePayer (setComputeUnitPrice microLamports)
  | tip (hon : bx.useBloxrouteTraderApi = true) :
      Overhead bx feePayer (.systemTransfer feePayer bloxrouteTipWallet bx.tip)
  | memo (hon : bx.useBloxrouteTraderApi = true) (text : List UInt8) :
      Overhead bx feePayer (.other memoProgram [⟨feePayer, true, false⟩] text)

/-- The instructions of a transaction that gets through: those of the call, or with a tip. -/
def Carries (bx : BloxRoute) (feePayer : Keypair) (itxs : List Instruction) (tx : Transaction) :
    Prop :=
  tx.message.payer = feePayer.pubkey ∧
    (tx.message.instructions = itxs ∨
      bx.useBloxrouteTraderApi = true ∧ tx.message.instructions = withTip bx feePayer itxs)

theorem executeTx_carries {sign : Message → List Keypair → Signature} {bx : BloxRoute}
    {hash : Hash} {sender feePayer : Keypair} {itxs : List Instruction} {replies : Replies}
    {tx : Transaction} (h : tx ∈ (executeTx sign bx hash sender feePayer itxs replies).2) :
    Carries bx feePayer itxs tx := by
  obtain ⟨sent, hsent, hmem⟩ := List.mem_flatten.mp h
  obtain ⟨result, hresult, rfl⟩ := List.mem_map.mp hsent
  rcases List.mem_append.mp hresult with hbx | hrpc
  · split at hbx
    · next hon =>
        rw [List.mem_singleton.mp hbx] at hmem
        obtain ⟨reached, hreached, hmem⟩ := List.mem_flatten.mp hmem
        obtain ⟨uri, -, rfl⟩ := List.mem_map.mp hreached
        split at hmem
        · obtain rfl := List.mem_singleton.mp hmem
          exact ⟨rfl, Or.inr ⟨hon, rfl⟩⟩
        · cases hmem
    · cases hbx
  · rw [List.mem_singleton.mp hrpc] at hmem
    obtain rfl := sendTxToAllProviders_submitted hmem
    exact ⟨rfl, Or.inl rfl⟩

/-- **WHAT A CALL GETS THROUGH** is what was built for the action. -/
theorem transactions_carry {tx : Transaction} (h : tx ∈ env.transactions action) :
    ∃ built, env.build action = .ok built ∧ Carries env.bloxroute action.feePayer
      (prefinalItxsWithCu (estimateCuPerTx action) built.actionIxs) tx := by
  rw [Env.transactions] at h
  split at h
  · cases h
  · next hash itxs hsubmits =>
      obtain ⟨built, hbuild, rfl⟩ := submits_eq_some hsubmits
      exact ⟨built, hbuild, executeTx_carries h⟩

/-- The rest is overhead. -/
theorem Carries.cases {bx : BloxRoute} {feePayer : Keypair} {cu : UInt32}
    {ixs : List Instruction} {tx : Transaction}
    (h : Carries bx feePayer (prefinalItxsWithCu cu ixs) tx) :
    ∀ ix ∈ tx.message.instructions, ix ∈ ixs ∨ Overhead bx feePayer.pubkey ix := by
  have hbudget : ∀ ix ∈ prefinalItxsWithCu cu ixs, ix ∈ ixs ∨ Overhead bx feePayer.pubkey ix := by
    intro ix hix
    rcases List.mem_append.mp hix with hix | hix
    · split at hix
      · rcases List.mem_cons.mp hix with rfl | hix
        · exact Or.inr (.unitLimit _)
        · rw [List.mem_singleton.mp hix]
          exact Or.inr (.unitPrice _)
      · cases hix
    · exact Or.inl hix
  intro ix hix
  rcases h.2 with heq | ⟨hon, heq⟩
  · rw [heq] at hix
    exact hbudget ix hix
  · rw [heq] at hix
    rcases List.mem_append.mp hix with hix | hix
    · exact hbudget ix hix
    · rcases List.mem_cons.mp hix with rfl | hix
      · exact Or.inr (.tip hon)
      · rw [List.mem_singleton.mp hix]
        exact Or.inr (.memo hon _)

/-- The tip that a transaction may hold. -/
def tipDue (bx : BloxRoute) : Nat := if bx.useBloxrouteTraderApi then bx.tip.toNat else 0

/-- The overhead takes no SOL from an account but the tip. -/
theorem Carries.lamports {bx : BloxRoute} {feePayer : Keypair} {cu : UInt32}
    {ixs : List Instruction} {tx : Transaction} (account : Pubkey)
    (h : Carries bx feePayer (prefinalItxsWithCu cu ixs) tx) :
    totalLamportsOut account tx.message.instructions ≤
      totalLamportsOut account ixs + tipDue bx := by
  have hbudget : totalLamportsOut account (prefinalItxsWithCu cu ixs) =
      totalLamportsOut account ixs := by
    rw [prefinalItxsWithCu, totalLamportsOut_append]
    exact Nat.zero_add _
  rcases h.2 with heq | ⟨hon, heq⟩
  · rw [heq, hbudget]
    exact Nat.le_add_right _ _
  · rw [heq, withTip, totalLamportsOut_append, hbudget, tipDue, if_pos hon]
    refine Nat.add_le_add_left ?_ _
    show (if feePayer.pubkey = account then bx.tip.toNat else 0) + (0 + 0) ≤ bx.tip.toNat
    split
    · exact Nat.le_refl _
    · exact Nat.zero_le _

end FoxfireExecutor

namespace FoxfireBuild

open FoxfireTypes WordArith

-- ── The instructions of a step ──────────────────────────────────────────────

/-- What a step can put into a transaction, and an exact amount is what it says. -/
inductive FromStep (tx : TxContext) : SolanaActionPayload → Instruction → Prop where
  | pay {t : SolanaTransferActionPayload} (hsol : t.asset = .sol) {lamports : UInt64}
      (hexact : ∀ a, t.amount = .exact a → lamports = a) :
      FromStep tx (.transfer t) (.systemTransfer tx.sniper t.receiver lamports)
  | createReceiver {t : SolanaTransferActionPayload} {mint : Pubkey}
      (htoken : t.asset = .token mint) :
      FromStep tx (.transfer t)
        (.createAssociatedTokenAccount tx.feePayer t.receiver mint tokenProgramId)
  | send {t : SolanaTransferActionPayload} {mint : Pubkey} (htoken : t.asset = .token mint)
      {amount : UInt64} (hexact : ∀ a, t.amount = .exact a → amount = a) :
      FromStep tx (.transfer t)
        (.tokenTransfer tx.sniperTokenAta (tx.chain.ata t.receiver tx.tokenMint) tx.sniper amount)
  | empty {t : SolanaTransferActionPayload} {mint : Pubkey} (htoken : t.asset = .token mint) :
      FromStep tx (.transfer t) (.closeAccount tx.sniperTokenAta tx.feePayer tx.sniper)
  | createToken {s : SolanaSwapActionPayload} (hsup : supportedPool s.keys = true) :
      FromStep tx (.swap s)
        (.createAssociatedTokenAccount tx.feePayer tx.sniper tx.tokenMint tokenProgramId)
  | createWsol {s : SolanaSwapActionPayload} :
      FromStep tx (.swap s)
        (.createAssociatedTokenAccount tx.feePayer tx.sniper wsolMintPubkey tokenProgramId)
  | wrap {s : SolanaSwapActionPayload} (hbuy : s.swapMethod = .buyTokensForExactSol)
      {lamports : UInt64} (hexact : ∀ a, s.amountIn = .exact a → lamports = a) :
      FromStep tx (.swap s) (.systemTransfer tx.sniper tx.sniperWsolAta lamports)
  | sync {s : SolanaSwapActionPayload} : FromStep tx (.swap s) (.syncNative tx.sniperWsolAta)
  | trade {s : SolanaSwapActionPayload} (hsup : supportedPool s.keys = true)
      {amountIn minAmountOut : UInt64} (hexact : ∀ a, s.amountIn = .exact a → amountIn = a) :
      FromStep tx (.swap s)
        (.swapFixedIn s.keys (userKeys tx s) amountIn minAmountOut s.keys.version)
  | unwrap {s : SolanaSwapActionPayload} :
      FromStep tx (.swap s) (.closeAccount tx.sniperWsolAta tx.feePayer tx.sniper)

variable {tx : TxContext} {p : Pointers}

theorem transferSol_from {t : SolanaTransferActionPayload} {e : Emission} {w : Bool}
    (hsol : t.asset = .sol) (h : transferSol tx p t = (some e, w)) :
    ∀ ix ∈ e.stepIxs, FromStep tx (.transfer t) ix := by
  have hone : ∀ {lamports cost keep : UInt64} {u : Bool},
      (some ⟨[.systemTransfer tx.sniper t.receiver lamports], cost, 0, keep⟩, u) =
        ((some e, w) : StepResult) →
      (∀ a, t.amount = .exact a → lamports = a) →
      ∀ ix ∈ e.stepIxs, FromStep tx (.transfer t) ix := by
    intro lamports cost keep u heq hexact ix hix
    obtain rfl := Option.some.inj (Prod.mk.inj heq).1
    rw [List.mem_singleton.mp hix]
    exact .pay hsol hexact
  cases ha : t.amount with
  | exact a =>
      simp only [transferSol, ha] at h
      split at h
      · refine hone h fun b hb => ?_
        rw [ha] at hb
        exact Amount.exact.inj hb
      · cases (Prod.mk.inj h).1
  | exactWithFees a =>
      simp only [transferSol, ha] at h
      split at h
      · refine hone h fun b hb => ?_
        rw [ha] at hb
        cases hb
      · cases (Prod.mk.inj h).1
  | maxButLeaveForTransfer =>
      simp only [transferSol, ha] at h
      split at h
      · refine hone h fun b hb => ?_
        rw [ha] at hb
        cases hb
      · cases (Prod.mk.inj h).1
  | max | maxAndClose =>
      simp only [transferSol, ha] at h
      refine hone h fun b hb => ?_
      rw [ha] at hb
      cases hb

/-- An exact amount of tokens is what it says. -/
theorem tokenAmount_exact {amount : Amount} {a : UInt64} (h : amount = .exact a) :
    tokenAmount p amount = a := by
  rw [h]
  rfl

theorem transferToken_from {t : SolanaTransferActionPayload} {mint : Pubkey} {e : Emission}
    {w : Bool} (htoken : t.asset = .token mint)
    (h : transferToken tx p t mint = (some e, w)) :
    ∀ ix ∈ e.stepIxs, FromStep tx (.transfer t) ix := by
  simp only [transferToken] at h
  split at h
  · obtain rfl := Option.some.inj (Prod.mk.inj h).1
    intro ix hix
    rcases List.mem_append.mp hix with hix | hix
    · rcases List.mem_append.mp hix with hix | hix
      · split at hix
        · rw [List.mem_singleton.mp hix]
          exact .createReceiver htoken
        · cases hix
      · rw [List.mem_singleton.mp hix]
        exact .send htoken fun a ha => tokenAmount_exact ha
    · split at hix
      · rw [List.mem_singleton.mp hix]
        exact .empty htoken
      · cases hix
  · cases (Prod.mk.inj h).1

theorem buy_from {s : SolanaSwapActionPayload} {e : Emission} {w : Bool}
    (hsup : supportedPool s.keys = true) (hbuy : s.swapMethod = .buyTokensForExactSol)
    (h : buy tx p s = .ok (some e, w)) : ∀ ix ∈ e.stepIxs, FromStep tx (.swap s) ix := by
  rw [buy] at h
  split at h
  · cases h
  · next amountIn hamount =>
      have hexact : ∀ a, s.amountIn = .exact a → amountIn.val = a := by
        intro a ha
        rw [ha] at hamount
        obtain rfl := Except.ok.inj hamount
        rfl
      split at h
      · obtain rfl := Option.some.inj (Prod.mk.inj (Except.ok.inj h)).1
        intro ix hix
        rcases List.mem_append.mp hix with hix | hix
        · rcases List.mem_append.mp hix with hix | hix
          · split at hix
            · cases hix
            · rw [List.mem_singleton.mp hix]
              exact .createToken hsup
          · split at hix
            · cases hix
            · rw [List.mem_singleton.mp hix]
              exact .createWsol
        · simp only [List.mem_cons, List.not_mem_nil, or_false] at hix
          rcases hix with rfl | rfl | rfl | rfl
          · exact .wrap hbuy hexact
          · exact .sync
          · exact .trade hsup hexact
          · exact .unwrap
      · cases (Prod.mk.inj (Except.ok.inj h)).1

theorem sell_from {s : SolanaSwapActionPayload} {e : Emission} {w : Bool}
    (hsup : supportedPool s.keys = true) (h : sell tx p s = (some e, w)) :
    ∀ ix ∈ e.stepIxs, FromStep tx (.swap s) ix := by
  simp only [sell] at h
  split at h
  · obtain rfl := Option.some.inj (Prod.mk.inj h).1
    intro ix hix
    rcases List.mem_append.mp hix with hix | hix
    · split at hix
      · cases hix
      · rw [List.mem_singleton.mp hix]
        exact .createWsol
    · simp only [List.mem_cons, List.not_mem_nil, or_false] at hix
      rcases hix with rfl | rfl | rfl
      · exact .sync
      · exact .trade hsup fun a ha => tokenAmount_exact ha
      · exact .unwrap
  · cases (Prod.mk.inj h).1

theorem processStep_from {p' : Pointers} {step : SolanaActionPayload} {ixs : List Instruction}
    (h : processStep tx p step = .ok (p', ixs)) : ∀ ix ∈ ixs, FromStep tx step ix := by
  rcases processStep_cases h with ⟨w, -, rfl, -⟩ | ⟨e, w, hstep, rfl, -, -⟩
  · intro ix hix
    cases hix
  · have hcases := stepResult_cases hstep
    generalize hr : ((some e, w) : StepResult) = r at hcases
    cases hcases with
    | sol hsol => exact transferSol_from hsol hr.symm
    | token htoken => exact transferToken_from htoken hr.symm
    | bought hsup hbuy h => exact buy_from hsup hbuy (hr ▸ h)
    | sold hsup _ => exact sell_from hsup hr.symm

/-- **EVERY INSTRUCTION COMES FROM A STEP** of the action. -/
theorem built_from_steps {chain : Chain} {action : SolanaAction} {price : UInt64} {cu : UInt32}
    {b : Built} (h : buildInstructions chain action price cu = .ok b) :
    ∀ ix ∈ b.actionIxs, ∃ step ∈ action.actionPayload,
      FromStep (txContext chain action price cu) step ix := by
  obtain ⟨p, -, -, hloop, -⟩ := buildInstructions_ok h
  refine processSteps_induction (motive := fun _ steps _ out => ∀ ix ∈ out, ∃ step ∈ steps,
    FromStep (txContext chain action price cu) step ix) ?_ ?_ hloop
  · intro p ix hix
    cases hix
  · intro p s ss p' ixs p'' rest hstep _ ih ix hix
    rcases List.mem_append.mp hix with hix | hix
    · exact ⟨s, List.mem_cons_self, processStep_from hstep ix hix⟩
    · obtain ⟨step, hmem, hfrom⟩ := ih ix hix
      exact ⟨step, List.mem_cons_of_mem _ hmem, hfrom⟩

end FoxfireBuild

namespace FoxfireCustody

open FoxfireTypes FoxfireBuild FoxfireExecuteTx FoxfireExecutor MachineRun

-- ── Accounts of the wallets ─────────────────────────────────────────────────

/-- A mint that a pool trades. -/
def Traded (pool : RaydiumPool) (mint : Pubkey) : Prop :=
  mint = pool.baseMint ∨ mint = wsolMintPubkey

/-- An instruction of one of the wallets that leaves funds with the wallets, in their own
    accounts or their token accounts, or trades in the pool. -/
inductive Contained (chain : Chain) (wallets : List Keypair) (pool : RaydiumPool) :
    Instruction → Prop where
  | pay {w w' : Keypair} (hw : w ∈ wallets) (hw' : w' ∈ wallets) (lamports : UInt64) :
      Contained chain wallets pool (.systemTransfer w.pubkey w'.pubkey lamports)
  | wrap {w : Keypair} (hw : w ∈ wallets) (lamports : UInt64) :
      Contained chain wallets pool
        (.systemTransfer w.pubkey (chain.ata w.pubkey wsolMintPubkey) lamports)
  | create {w w' : Keypair} {mint : Pubkey} (hw : w ∈ wallets) (hw' : w' ∈ wallets)
      (hmint : Traded pool mint) :
      Contained chain wallets pool
        (.createAssociatedTokenAccount w.pubkey w'.pubkey mint tokenProgramId)
  | send {w w' : Keypair} (hw : w ∈ wallets) (hw' : w' ∈ wallets) (amount : UInt64) :
      Contained chain wallets pool
        (.tokenTransfer (chain.ata w.pubkey pool.baseMint) (chain.ata w'.pubkey pool.baseMint)
          w.pubkey amount)
  | sync {w : Keypair} (hw : w ∈ wallets) :
      Contained chain wallets pool (.syncNative (chain.ata w.pubkey wsolMintPubkey))
  | trade {w : Keypair} {keys : UserKeys} (hw : w ∈ wallets)
      (hkeys : keys = ⟨chain.ata w.pubkey wsolMintPubkey, chain.ata w.pubkey pool.baseMint,
          w.pubkey⟩ ∨
        keys = ⟨chain.ata w.pubkey pool.baseMint, chain.ata w.pubkey wsolMintPubkey, w.pubkey⟩)
      (amountIn minAmountOut : UInt64) :
      Contained chain wallets pool
        (.swapFixedIn pool.toLiquidityKeys keys amountIn minAmountOut pool.version)
  | close {w w' : Keypair} {mint : Pubkey} (hw : w ∈ wallets) (hw' : w' ∈ wallets)
      (hmint : Traded pool mint) :
      Contained chain wallets pool (.closeAccount (chain.ata w.pubkey mint) w'.pubkey w.pubkey)

variable {wallets : List Keypair} {pool : RaydiumPool} {action : SolanaAction}
  {env : FoxfireExecutor.Env}

/-- The token of an action that names one. -/
theorem tokenMint_of_step {chain : Chain} {price : UInt64} {cu : UInt32} {b : Built}
    (h : buildInstructions chain action price cu = .ok b) {step : SolanaActionPayload}
    (hstep : step ∈ action.actionPayload) {mint : Pubkey} (hmint : tokenOf step = some mint) :
    (txContext chain action price cu).tokenMint = mint := by
  obtain ⟨p, hlen, -, -, -⟩ := buildInstructions_ok h
  exact tokenMint_of_named hlen hstep hmint

theorem tokenOf_supported {s : SolanaSwapActionPayload} (hsup : supportedPool s.keys = true) :
    tokenOf (.swap s) = some s.keys.baseMint := by
  have hbase : s.keys.baseMint ≠ wsolMintPubkey := by
    simp only [supportedPool, Bool.and_eq_true, decide_eq_true_eq] at hsup
    exact hsup.1
  simp only [tokenOf, ne_eq, hbase, not_false_eq_true, if_true]

section Custody

open FoxfireVolume

/-- **FUNDS IN CUSTODY STAY THERE**: the instructions that are built for an action that moves
    funds between the wallets do. -/
theorem contained_of_custody {built : Built} (h : InCustody wallets pool action)
    (hbuild : env.build action = .ok built) :
    ∀ ix ∈ built.actionIxs, Contained env.chain wallets pool ix := by
  intro ix hix
  obtain ⟨step, hstep, hfrom⟩ := built_from_steps hbuild ix hix
  have hinside := h.payload step hstep
  -- the token of the action is the pool's
  have htokenAta : ∀ {mint}, tokenOf step = some mint → mint = pool.baseMint → ∀ w,
      env.chain.ata w (txContext env.chain action pricePerCuPriority
        (estimateCuPerTx action)).tokenMint = env.chain.ata w pool.baseMint := by
    intro mint hmint hbase w
    rw [tokenMint_of_step hbuild hstep hmint, hbase]
  have hasset : ∀ {t : SolanaTransferActionPayload} {mint}, Inside wallets pool t →
      t.asset = .token mint → mint = pool.baseMint := by
    intro t mint hin htoken
    rcases hin.asset with hsol | hbase
    · rw [htoken] at hsol
      cases hsol
    · rw [htoken] at hbase
      exact Asset.token.inj hbase
  have hnamed : ∀ {t : SolanaTransferActionPayload} {mint}, t.asset = .token mint →
      tokenOf (.transfer t) = some mint := by
    intro t mint htoken
    simp only [tokenOf, htoken]
  cases hfrom with
  | pay hsol hexact =>
      obtain ⟨w', hw', heq⟩ := hinside.receiver
      rw [← heq]
      exact .pay h.sniper hw' _
  | createReceiver htoken =>
      obtain ⟨w', hw', heq⟩ := hinside.receiver
      rw [← heq, hasset hinside htoken]
      exact .create h.feePayer hw' (Or.inl rfl)
  | @send t mint htoken amount hexact =>
      obtain ⟨w', hw', heq⟩ := hinside.receiver
      have hata := htokenAta (hnamed htoken) (hasset hinside htoken)
      rw [TxContext.sniperTokenAta, ← heq]
      show Contained env.chain wallets pool (.tokenTransfer (env.chain.ata _ _)
        (env.chain.ata _ _) _ _)
      rw [hata, hata]
      exact .send h.sniper hw' amount
  | @empty t mint htoken =>
      have hata := htokenAta (hnamed htoken) (hasset hinside htoken)
      show Contained env.chain wallets pool (.closeAccount (env.chain.ata _ _) _ _)
      rw [hata]
      exact .close h.sniper h.feePayer (Or.inl rfl)
  | @createToken s hsup =>
      have hmint : (txContext env.chain action pricePerCuPriority
          (estimateCuPerTx action)).tokenMint = pool.baseMint := by
        rw [tokenMint_of_step hbuild hstep (tokenOf_supported hsup),
          show s.keys = pool.toLiquidityKeys from hinside]
        rfl
      rw [hmint]
      exact .create h.feePayer h.sniper (Or.inl rfl)
  | createWsol => exact .create h.feePayer h.sniper (Or.inr rfl)
  | wrap hbuy hexact => exact .wrap h.sniper _
  | sync => exact .sync h.sniper
  | @trade s hsup amountIn minAmountOut hexact =>
      have hkeys : s.keys = pool.toLiquidityKeys := hinside
      have hata := htokenAta (tokenOf_supported hsup) (by rw [hkeys]; rfl)
      rw [userKeys_supported hsup, hkeys]
      refine .trade h.sniper ?_ amountIn minAmountOut
      cases s.swapMethod with
      | buyTokensForExactSol =>
          left
          exact congrArg (UserKeys.mk _ · _) (hata _)
      | sellExactTokensForSol =>
          right
          exact congrArg (UserKeys.mk · _ _) (hata _)
  | unwrap => exact .close h.sniper h.feePayer (Or.inr rfl)

/-- **THE FUNDS OF A STRATEGY STAY WITH ITS WALLETS, ON THE NETWORK TOO**: in every run of a
    volume strategy, whatever the chain and the network answer when one of its actions is
    executed, each transaction that gets through is paid for by one of the strategy's wallets,
    and moves funds of these only: between them and their token accounts, and to the
    strategy's pool, besides a tip to bloXroute if its route is used. -/
theorem funds_stay_on_network (inst : VolumeInstance) (pool : RaydiumPool) (key : Keypair)
    (now : Instant) (moves : List Move) (c : Config) (out : List FoxfireAgent.Effect)
    (h : run handler (Config.new inst pool key now) moves = some (c, out)) :
    ∀ action ∈ FoxfireAgent.queuedActions out, ∀ env : FoxfireExecutor.Env,
      ∀ tx ∈ env.transactions action,
        (∃ w ∈ c.strategy.ownedKeys, tx.message.payer = w.pubkey) ∧
          ∀ ix ∈ tx.message.instructions,
            Contained env.chain c.strategy.ownedKeys pool ix ∨
              ∃ w ∈ c.strategy.ownedKeys, Overhead env.bloxroute w.pubkey ix := by
  intro action haction env tx htx
  have hcustody := (closed_run h).2 action haction
  obtain ⟨built, hbuild, hcarries⟩ := transactions_carry htx
  refine ⟨⟨action.feePayer, hcustody.feePayer, hcarries.1⟩, fun ix hix => ?_⟩
  rcases hcarries.cases ix hix with hbuilt | hoverhead
  · exact Or.inl (contained_of_custody hcustody hbuild ix hbuilt)
  · exact Or.inr ⟨action.feePayer, hcustody.feePayer, hoverhead⟩

/-- Everybody has a SOL, all requests are accepted, and bloXroute is tipped. -/
def tippedEnv : FoxfireExecutor.Env :=
  { smoothEnv 1000000000 (.answered (some ⟨0⟩)) with bloxroute := ⟨1000, true⟩ }

/-- One agent is funded and told to buy: its funds reach the network three times, twice with a
    tip. -/
theorem funding_reaches_network :
    ∃ (c : Config) (action : SolanaAction), (tippedEnv.transactions action).length = 3 ∧
      ∀ tx ∈ tippedEnv.transactions action,
        (∃ w ∈ c.strategy.ownedKeys, tx.message.payer = w.pubkey) ∧
          ∀ ix ∈ tx.message.instructions,
            Contained tippedEnv.chain c.strategy.ownedKeys default ix ∨
              ∃ w ∈ c.strategy.ownedKeys, Overhead tippedEnv.bloxroute w.pubkey ix := by
  have hview : (run handler smallConfig buyOne).map (fun p =>
      (FoxfireAgent.queuedActions p.2).map fun a => (tippedEnv.transactions a).length) =
        some [3, 0] := by decide +kernel
  obtain ⟨⟨c, out⟩, hrun, hlengths⟩ := Option.map_eq_some_iff.mp hview
  obtain ⟨action, rest, hqueued, hlength, -⟩ := List.map_eq_cons_iff.mp hlengths
  refine ⟨c, action, hlength, ?_⟩
  exact funds_stay_on_network ⟨⟨1, 1, 1, 1, 0⟩, 1, 100⟩ default ⟨⟨1⟩, 1⟩ 0 buyOne c out hrun
    action (hqueued ▸ List.mem_cons_self) tippedEnv

end Custody

-- ── What a snipe spends ─────────────────────────────────────────────────────

section Snipes

open FoxfireSniperStrategy FoxfireSnipe FoxfireSolvency

variable {tx : TxContext} {p p' : Pointers} {s : SolanaSwapActionPayload}
  {ixs : List Instruction}

/-- A purchase for an exact amount sends no more than that. -/
theorem purchase_lamports {a : UInt64} (hbuy : s.swapMethod = .buyTokensForExactSol)
    (hexact : s.amountIn = .exact a) (h : processStep tx p (.swap s) = .ok (p', ixs)) :
    totalLamportsOut tx.sniper ixs ≤ a.toNat := by
  rcases processStep_cases h with ⟨w, -, rfl, -⟩ | ⟨e, w, hstep, rfl, -, -⟩
  · exact Nat.zero_le _
  · have hcases := stepResult_cases hstep
    generalize hr : ((some e, w) : StepResult) = r at hcases
    cases hcases with
    | bought hsup _ h =>
        subst hr
        rw [buy, hexact] at h
        simp only [swapSolAmountIn] at h
        split at h
        · obtain rfl := Option.some.inj (Prod.mk.inj (Except.ok.inj h)).1
          exact (buyIxs_lamports tx s a).le
        · cases (Prod.mk.inj (Except.ok.inj h)).1
    | sold _ hsell =>
        rw [hbuy] at hsell
        cases hsell

/-- A sale sends nothing. -/
theorem sale_lamports (hsell : s.swapMethod = .sellExactTokensForSol)
    (h : processStep tx p (.swap s) = .ok (p', ixs)) : totalLamportsOut tx.sniper ixs = 0 := by
  have hnone : ∀ ix ∈ ixs, lamportsOut tx.sniper ix = 0 := by
    intro ix hix
    cases processStep_from h ix hix with
    | createToken | createWsol | sync | trade | unwrap => rfl
    | wrap hbuy =>
        rw [hsell] at hbuy
        cases hbuy
  rw [totalLamportsOut, List.map_congr_left hnone]
  simp

/-- The loop over a single step. -/
theorem processSteps_one {step : SolanaActionPayload}
    (h : processSteps tx p [step] = .ok (p', ixs)) : processStep tx p step = .ok (p', ixs) := by
  obtain ⟨q, ixs', rest, hstep, hrest, rfl⟩ := processSteps_cons h
  obtain ⟨rfl, rfl⟩ := Prod.mk.inj (Except.ok.inj hrest)
  rw [List.append_nil]
  exact hstep

variable {inst : SniperInstance} {wallet : Keypair}

/-- An order moves funds of the wallet only. -/
theorem order_in_custody (hsigner : action.sniper = wallet) (hfee : action.feePayer = wallet)
    (h : action.actionPayload = purchase inst pool ∨ Sale pool action.actionPayload) :
    FoxfireVolume.InCustody [wallet] pool action := by
  refine ⟨List.mem_singleton.mpr hsigner, List.mem_singleton.mpr hfee, ?_⟩
  intro step hstep
  rcases h with hbuy | hsale
  · rw [hbuy] at hstep
    rw [List.mem_singleton.mp hstep]
    exact rfl
  · generalize action.actionPayload = payload at hsale hstep
    cases hsale with
    | max | maxAndClose =>
        rw [List.mem_singleton.mp hstep]
        exact rfl

/-- What an order takes out of the wallet's SOL. -/
theorem order_lamports {built : Built} (hsigner : action.sniper = wallet)
    (h : action.actionPayload = purchase inst pool ∨ Sale pool action.actionPayload)
    (hbuild : env.build action = .ok built) :
    totalLamportsOut wallet.pubkey built.actionIxs ≤ (solToLamports inst.sizeSol).toNat := by
  obtain ⟨p, -, -, hloop, -⟩ := buildInstructions_ok hbuild
  rw [← hsigner]
  rcases h with hbuy | hsale
  · rw [hbuy] at hloop
    exact purchase_lamports rfl rfl (processSteps_one hloop)
  · generalize action.actionPayload = payload at hsale hloop
    cases hsale with
    | max | maxAndClose => exact (sale_lamports rfl (processSteps_one hloop)).le.trans (Nat.zero_le _)

/-- **A SNIPE SPENDS ITS SIZE, IN A VETTED POOL, ON THE NETWORK TOO**: in every run of the sniper
    strategy, whatever the chain and the network answer when one of its actions is executed,
    each transaction that gets through is paid for by the strategy's wallet, moves its funds
    only between its own accounts and to one pool, which was vetted before, besides a tip to
    bloXroute if its route is used, and takes no more SOL out of the wallet than the size of
    the settings and this tip. -/
theorem snipes_on_network (inst : SniperInstance) (wallet : Keypair)
    (inputs : List FoxfireSniperStrategy.Input) (s : SniperStrategy)
    (out : List FoxfireSnipe.Effect)
    (h : run SniperStrategy.step (SniperStrategy.new inst wallet) inputs = some (s, out)) :
    ∀ action, .queued action ∈ out → ∀ env : FoxfireExecutor.Env,
      ∀ tx ∈ env.transactions action, ∃ past later pool price,
        inputs = past ++ later ∧ Vetted inst past pool price ∧
        tx.message.payer = wallet.pubkey ∧
        (∀ ix ∈ tx.message.instructions,
          Contained env.chain [wallet] pool ix ∨ Overhead env.bloxroute wallet.pubkey ix) ∧
        totalLamportsOut wallet.pubkey tx.message.instructions ≤
          (solToLamports inst.sizeSol).toNat + tipDue env.bloxroute := by
  intro action hmem env tx htx
  obtain ⟨past, later, sent, more, hinputs, -, -, hordered⟩ := ordered_of_queued h hmem
  obtain ⟨pool, price, hvetted, htrades⟩ := hordered.trades
  have horder : action.actionPayload = purchase inst pool ∨ Sale pool action.actionPayload :=
    htrades.imp_right And.left
  obtain ⟨built, hbuild, hcarries⟩ := transactions_carry htx
  have hcustody := order_in_custody hordered.signer hordered.feePayer horder
  refine ⟨past, later, pool, price, hinputs, hvetted, ?_, fun ix hix => ?_, ?_⟩
  · rw [← hordered.feePayer]
    exact hcarries.1
  · rcases hcarries.cases ix hix with hbuilt | hoverhead
    · exact Or.inl (contained_of_custody hcustody hbuild ix hbuilt)
    · rw [← hordered.feePayer]
      exact Or.inr hoverhead
  · exact (hcarries.lamports wallet.pubkey).trans
      (Nat.add_le_add_right (order_lamports hordered.signer horder hbuild) _)

/-- A pool of the token `8` is announced and found to be fine, and its snipe buys. -/
def eightBought : List FoxfireSniperStrategy.Input :=
  [.event (.blockchainEvent (.raydiumNewPoolEvent
    { id := ⟨7⟩, baseMint := ⟨8⟩, quoteMint := wsolMintPubkey } default)) "a pool", fine,
    .insertSnipe 0 0, .event (.heartBeat FoxfireAgent.tick 0) "", .fetch 1,
    .deliver 1 0 (beatAt 10 ⟨5⟩)]

theorem eightBought_on_network :
    ∃ action tx, tx ∈ tippedEnv.transactions action ∧ ∃ past later pool price,
      eightBought = past ++ later ∧ Vetted oneAtATime.inst past pool price ∧
      tx.message.payer = ⟨1⟩ ∧
      (∀ ix ∈ tx.message.instructions,
        Contained tippedEnv.chain [⟨⟨1⟩, 1⟩] pool ix ∨ Overhead tippedEnv.bloxroute ⟨1⟩ ix) ∧
      totalLamportsOut ⟨1⟩ tx.message.instructions ≤
        (solToLamports oneAtATime.inst.sizeSol).toNat + tipDue tippedEnv.bloxroute := by
  have hview : (run SniperStrategy.step oneAtATime eightBought).map (fun p =>
      (queuedActions p.2).map fun a => (tippedEnv.transactions a).length) = some [3] := by
    decide +kernel
  obtain ⟨⟨s, out⟩, hrun, hlengths⟩ := Option.map_eq_some_iff.mp hview
  obtain ⟨action, hone, hlength⟩ := List.map_eq_singleton_iff.mp hlengths
  obtain ⟨tx, htx⟩ := List.exists_mem_of_length_pos
    (show 0 < (tippedEnv.transactions action).length by rw [hlength]; decide)
  refine ⟨action, tx, htx, ?_⟩
  exact snipes_on_network oneAtATime.inst ⟨⟨1⟩, 1⟩ eightBought s out hrun action
    (mem_queuedActions.mp (hone ▸ List.mem_singleton_self action)) tippedEnv tx htx

end Snipes

end FoxfireCustody
