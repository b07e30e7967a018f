import FoxfireSniper.LedgerProofs

/-! # Replaying the instructions of an action

    `build_instructions` asks before every step which token accounts exist, and creates what
    is missing.  The answer is that of the cache, which does not see what the steps before
    have created and closed in the same transaction.

    The emitted instructions are replayed on the accounts that the cache knows, one after
    the other; the loop is run with the accounts as they are at each step beside it.

    * `emission_replays_iff`: a step's instructions can be carried out from its accounts
      exactly when the accounts it asks for are still as the cache knows them;
    * **`replayable_iff`**: the whole list can be carried out exactly when this holds of
      every step. -/

namespace FoxfireReplay

open FoxfireTypes FoxfireBuild FoxfireSolvency FoxfireLedger MachineRun

-- ── The accounts ────────────────────────────────────────────────────────────

/-- The accounts that exist at a point. -/
abbrev Accounts := Pubkey → Bool

/-- An associated token account. -/
def IsAta (chain : Chain) (k : Pubkey) : Prop := ∃ owner mint, chain.ata owner mint = k

/-- What an instruction does to the accounts. -/
def carryOut (chain : Chain) (E : Accounts) : Instruction → Accounts
  | .createAssociatedTokenAccount _ owner mint _ =>
      Function.update E (chain.ata owner mint) true
  | .closeAccount account _ _ => Function.update E account false
  | _ => E

/-- An instruction creates what does not exist, and uses what does. -/
def Possible (chain : Chain) (E : Accounts) : Instruction → Prop
  | .systemTransfer source dest _ =>
      -- wallets are not token accounts
      (IsAta chain source → E source = true) ∧ (IsAta chain dest → E dest = true)
  | .createAssociatedTokenAccount _ owner mint _ => E (chain.ata owner mint) = false
  | .tokenTransfer source dest _ _ => E source = true ∧ E dest = true
  | .closeAccount account _ _ => E account = true
  | .syncNative account => E account = true
  | .swapFixedIn _ userKeys _ _ _ =>
      E userKeys.tokenAccountIn = true ∧ E userKeys.tokenAccountOut = true
  | .other _ _ _ => True

/-- **REPLAY**: every instruction is possible where it stands. -/
def Replayable (chain : Chain) : Accounts → List Instruction → Prop
  | _, []        => True
  | E, ix :: ixs => Possible chain E ix ∧ Replayable chain (carryOut chain E ix) ixs

/-- The accounts after a list of instructions. -/
def carryOutAll (chain : Chain) (E : Accounts) (ixs : List Instruction) : Accounts :=
  ixs.foldl (carryOut chain) E

theorem replayable_append {chain : Chain} (a b : List Instruction) :
    ∀ E, Replayable chain E (a ++ b) ↔
      Replayable chain E a ∧ Replayable chain (carryOutAll chain E a) b := by
  induction a with
  | nil =>
      intro E
      exact ⟨fun h => ⟨trivial, h⟩, fun h => h.2⟩
  | cons ix ixs ih =>
      intro E
      show (_ ∧ Replayable chain (carryOut chain E ix) (ixs ++ b)) ↔ (_ ∧ _) ∧ _
      rw [ih, and_assoc]
      rfl

-- ── The loop and its accounts ───────────────────────────────────────────────

/-- The loop with the accounts as its instructions leave them. -/
abbrev replayed (tx : TxContext) :
    Step (Pointers × Accounts) SolanaActionPayload Instruction :=
  tracked (round tx) fun E _ _ _ ixs => carryOutAll tx.chain E ixs

/-- A transfer of SOL does something. -/
def SolSent (tx : TxContext) (p : Pointers) : Amount → Prop
  | .exact a | .exactWithFees a => 0 < a
  | .max | .maxAndClose => True
  | .maxButLeaveForTransfer => tx.txFee + p.txFeePointer < p.solBalancePointer

/-- An account is as the cache knows it. -/
def AsCached (tx : TxContext) (E : Accounts) (k : Pubkey) : Prop :=
  E k = tx.chain.accountExists k

/-- **THE STEPS THAT FIND THEIR ACCOUNTS**: what the step asks for is as the cache knows it,
    and what it spends from exists.  Steps that do nothing need no account. -/
def Usable (tx : TxContext) (E : Accounts) (p : Pointers) : SolanaActionPayload → Prop
  | .transfer t =>
      match t.asset with
      | .sol => SolSent tx p t.amount → IsAta tx.chain t.receiver → E t.receiver = true
      | .token _ => 0 < tokenAmount p t.amount →
          AsCached tx E (tx.chain.ata t.receiver tx.tokenMint) ∧
          (E tx.sniperTokenAta = true ∨
            tx.chain.ata t.receiver tx.tokenMint = tx.sniperTokenAta)
  | .swap s =>
      match s.swapMethod with
      | .buyTokensForExactSol => 0 < buyLamports tx p s.amountIn →
          AsCached tx E tx.sniperTokenAta ∧ AsCached tx E tx.sniperWsolAta ∧
          (tx.sniperTokenAta = tx.sniperWsolAta →
            tx.chain.accountExists tx.sniperWsolAta = true)
      | .sellExactTokensForSol => 0 < tokenAmount p s.amountIn →
          AsCached tx E tx.sniperWsolAta ∧
          (E tx.sniperTokenAta = true ∨ tx.sniperTokenAta = tx.sniperWsolAta)

-- ── What a step emits ───────────────────────────────────────────────────────

/-- The instructions of a step that may do nothing. -/
def emittedIxs : Option Emission → List Instruction
  | some e => e.stepIxs
  | none   => []

variable {tx : TxContext} {p : Pointers} {E : Accounts}

/-- A round emits the instructions of its step. -/
theorem processStep_emitted {p' : Pointers} {s : SolanaActionPayload} {out : List Instruction}
    (h : processStep tx p s = .ok (p', out)) :
    ∃ e w, stepResult tx p s = .ok (e, w) ∧ out = emittedIxs e := by
  rcases processStep_cases h with ⟨w, hres, rfl, -⟩ | ⟨e, w, hres, rfl, -, -⟩
  · exact ⟨none, w, hres, rfl⟩
  · exact ⟨some e, w, hres, rfl⟩

/-- A transfer of SOL, from a wallet. -/
theorem systemTransfer_replays_iff (hwallet : ¬ IsAta tx.chain tx.sniper) (dest : Pubkey)
    (a : UInt64) :
    Replayable tx.chain E [.systemTransfer tx.sniper dest a] ↔
      (IsAta tx.chain dest → E dest = true) := by
  constructor
  · rintro ⟨⟨-, hdest⟩, -⟩
    exact hdest
  · intro hdest
    exact ⟨⟨fun h => absurd h hwallet, hdest⟩, trivial⟩

theorem transferSol_replays_iff (hwallet : ¬ IsAta tx.chain tx.sniper)
    (t : SolanaTransferActionPayload) :
    Replayable tx.chain E (emittedIxs (transferSol tx p t).1) ↔
      (SolSent tx p t.amount → IsAta tx.chain t.receiver → E t.receiver = true) := by
  have hsent : ∀ {P : Prop} {a : UInt64}, P →
      (Replayable tx.chain E [.systemTransfer tx.sniper t.receiver a] ↔
        (P → IsAta tx.chain t.receiver → E t.receiver = true)) := by
    intro P a hP
    rw [systemTransfer_replays_iff hwallet]
    exact ⟨fun h _ => h, fun h => h hP⟩
  have hnone : ∀ {P Q : Prop}, ¬ P → (Replayable tx.chain E [] ↔ (P → Q)) := by
    intro P Q hP
    exact iff_of_true trivial fun h => absurd h hP
  simp only [transferSol]
  split
  · next a ha =>
      rw [ha, SolSent]
      split
      · next hpos => exact hsent hpos
      · next hzero => exact hnone hzero
  · next a ha =>
      rw [ha, SolSent]
      split
      · next hpos => exact hsent hpos
      · next hzero => exact hnone hzero
  · next ha =>
      rw [ha, SolSent]
      exact hsent trivial
  · next ha =>
      rw [ha, SolSent]
      exact hsent trivial
  · next ha =>
      rw [ha, SolSent]
      split
      · next hlt => exact hsent hlt
      · next hge => exact hnone hge

/-- The accounts once `k` was created, if the cache misses it. -/
def provided (tx : TxContext) (E : Accounts) (k : Pubkey) : Accounts :=
  if tx.chain.accountExists k then E else Function.update E k true

theorem provided_ne {k j : Pubkey} (h : j ≠ k) : provided tx E k j = E j := by
  rw [provided]
  split
  · rfl
  · exact Function.update_of_ne h true E

/-- Whether it exists then depends on it alone. -/
theorem provided_self {F : Accounts} {k : Pubkey} (h : E k = F k) :
    provided tx E k k = provided tx F k k := by
  rw [provided, provided]
  split
  · exact h
  · rw [Function.update_self, Function.update_self]

/-- An account that is created if the cache misses it, and then used, is as cached. -/
theorem asCached_iff (k : Pubkey) :
    AsCached tx E k ↔
      (tx.chain.accountExists k = false → E k = false) ∧ provided tx E k k = true := by
  rw [AsCached, provided]
  cases tx.chain.accountExists k with
  | true => exact ⟨fun h => ⟨fun hmiss => (by cases hmiss), h⟩, fun h => h.2⟩
  | false =>
      rw [if_neg Bool.false_ne_true, Function.update_self]
      exact ⟨fun h => ⟨fun _ => h, rfl⟩, fun h => h.1 rfl⟩

/-- Instructions that begin with an account, if the cache misses it. -/
theorem replays_provided (funder owner mint : Pubkey) (rest : List Instruction) :
    Replayable tx.chain E
      ((if tx.chain.accountExists (tx.chain.ata owner mint) = true then [] else
          [.createAssociatedTokenAccount funder owner mint tokenProgramId]) ++ rest) ↔
      (tx.chain.accountExists (tx.chain.ata owner mint) = false →
        E (tx.chain.ata owner mint) = false) ∧
      Replayable tx.chain (provided tx E (tx.chain.ata owner mint)) rest := by
  rw [provided]
  cases tx.chain.accountExists (tx.chain.ata owner mint) with
  | true => exact ⟨fun h => ⟨fun hmiss => (by cases hmiss), h⟩, fun h => h.2⟩
  | false => exact ⟨fun h => ⟨fun _ => h.1, h.2⟩, fun h => ⟨h.1 rfl, h.2⟩⟩

/-- The instructions of a transfer: the sniper's account is closed at will. -/
theorem tokenTransfer_replays_iff (t : SolanaTransferActionPayload) (amount : UInt64) :
    Replayable tx.chain E
      ((if (!tx.chain.accountExists (tx.chain.ata t.receiver tx.tokenMint)) = true then
          [.createAssociatedTokenAccount tx.feePayer t.receiver tx.tokenMint tokenProgramId]
          else [])
        ++ [.tokenTransfer tx.sniperTokenAta (tx.chain.ata t.receiver tx.tokenMint) tx.sniper
          amount]
        ++ (if t.amount = .maxAndClose
          then [.closeAccount tx.sniperTokenAta tx.feePayer tx.sniper] else [])) ↔
      AsCached tx E (tx.chain.ata t.receiver tx.tokenMint) ∧
        (E tx.sniperTokenAta = true ∨
          tx.chain.ata t.receiver tx.tokenMint = tx.sniperTokenAta) := by
  have hclose : ∀ F : Accounts, Replayable tx.chain F
      (if t.amount = .maxAndClose then [.closeAccount tx.sniperTokenAta tx.feePayer tx.sniper]
        else []) ↔ (t.amount = .maxAndClose → F tx.sniperTokenAta = true) := by
    intro F
    split
    · next h => exact ⟨fun hF _ => hF.1, fun hF => ⟨hF h, trivial⟩⟩
    · next h => exact iff_of_true trivial fun h' => absurd h' h
  have hflip : ∀ (c : Bool) (ixs : List Instruction),
      (if (!c) = true then ixs else []) = if c = true then [] else ixs := by
    intro c ixs
    cases c with
    | true => rfl
    | false => rfl
  rw [hflip, List.append_assoc, List.singleton_append, replays_provided, Replayable, hclose,
    asCached_iff]
  generalize hR : tx.chain.ata t.receiver tx.tokenMint = R
  simp only [Possible, carryOut]
  by_cases hself : R = tx.sniperTokenAta
  · rw [hself]
    exact ⟨fun h => ⟨⟨h.1, h.2.1.1⟩, Or.inr rfl⟩,
      fun h => ⟨h.1.1, ⟨h.1.2, h.1.2⟩, fun _ => h.1.2⟩⟩
  · rw [provided_ne fun h => hself h.symm]
    constructor
    · rintro ⟨hmiss, ⟨hT, hexists⟩, -⟩
      exact ⟨⟨hmiss, hexists⟩, Or.inl hT⟩
    · rintro ⟨⟨hmiss, hexists⟩, hT | h⟩
      · exact ⟨hmiss, ⟨hT, hexists⟩, fun _ => hT⟩
      · exact absurd h hself

/-- The instructions of a purchase. -/
theorem buyIxs_replays_iff (hwallet : ¬ IsAta tx.chain tx.sniper) {s : SolanaSwapActionPayload}
    (hsup : supportedPool s.keys = true) (hm : s.swapMethod = .buyTokensForExactSol)
    (a : UInt64) :
    Replayable tx.chain E (buyIxs tx s a) ↔
      AsCached tx E tx.sniperTokenAta ∧ AsCached tx E tx.sniperWsolAta ∧
        (tx.sniperTokenAta = tx.sniperWsolAta →
          tx.chain.accountExists tx.sniperWsolAta = true) := by
  have hkeys : userKeys tx s = ⟨tx.sniperWsolAta, tx.sniperTokenAta, tx.sniper⟩ := by
    rw [userKeys_supported hsup, hm]
  have hata : IsAta tx.chain tx.sniperWsolAta := ⟨_, _, rfl⟩
  have hswap : ∀ F : Accounts, Replayable tx.chain F
      [.systemTransfer tx.sniper tx.sniperWsolAta a, .syncNative tx.sniperWsolAta,
        .swapFixedIn s.keys (userKeys tx s) a 0 s.keys.version,
        .closeAccount tx.sniperWsolAta tx.feePayer tx.sniper] ↔
      F tx.sniperWsolAta = true ∧ F tx.sniperTokenAta = true := by
    intro F
    simp only [Replayable, Possible, carryOut, hkeys, and_true]
    constructor
    · rintro ⟨-, -, h, -⟩
      exact h
    · rintro ⟨hW, hT⟩
      exact ⟨⟨fun h => absurd h hwallet, fun _ => hW⟩, hW, ⟨hW, hT⟩, hW⟩
  rw [buyIxs, List.append_assoc]
  show Replayable _ _ ((if tx.chain.accountExists (tx.chain.ata tx.sniper tx.tokenMint) = true
    then [] else _) ++ ((if tx.chain.accountExists (tx.chain.ata tx.sniper wsolMintPubkey) = true
    then [] else _) ++ _)) ↔ _
  rw [replays_provided, replays_provided, hswap]
  show (tx.chain.accountExists tx.sniperTokenAta = false → E tx.sniperTokenAta = false) ∧
    (tx.chain.accountExists tx.sniperWsolAta = false →
      provided tx E tx.sniperTokenAta tx.sniperWsolAta = false) ∧
    provided tx (provided tx E tx.sniperTokenAta) tx.sniperWsolAta tx.sniperWsolAta = true ∧
    provided tx (provided tx E tx.sniperTokenAta) tx.sniperWsolAta tx.sniperTokenAta = true ↔ _
  by_cases hsame : tx.sniperTokenAta = tx.sniperWsolAta
  · -- created twice, unless the cache knows it
    rw [hsame, AsCached]
    cases hcached : tx.chain.accountExists tx.sniperWsolAta with
    | true => simp [provided, hcached]
    | false => simp [provided, hcached]
  · have hapart := fun h => hsame (Eq.symm h)
    rw [provided_ne hapart, provided_ne hsame, provided_self (provided_ne hapart), asCached_iff,
      asCached_iff]
    constructor
    · rintro ⟨hmissT, hmissW, hW, hT⟩
      exact ⟨⟨hmissT, hT⟩, ⟨hmissW, hW⟩, fun h => absurd h hsame⟩
    · rintro ⟨⟨hmissT, hT⟩, ⟨hmissW, hW⟩, -⟩
      exact ⟨hmissT, hmissW, hW, hT⟩

theorem buy_replays_iff (hf : FeeOK tx) (hp : FeeShown tx p)
    (hwallet : ¬ IsAta tx.chain tx.sniper) {s : SolanaSwapActionPayload}
    (hsup : supportedPool s.keys = true) (hm : s.swapMethod = .buyTokensForExactSol)
    {e : Option Emission} {w : Bool} (h : buy tx p s = .ok (e, w)) :
    Replayable tx.chain E (emittedIxs e) ↔
      (0 < buyLamports tx p s.amountIn →
        AsCached tx E tx.sniperTokenAta ∧ AsCached tx E tx.sniperWsolAta ∧
          (tx.sniperTokenAta = tx.sniperWsolAta →
            tx.chain.accountExists tx.sniperWsolAta = true)) := by
  cases hin : swapSolAmountIn tx p s.amountIn with
  | error err =>
      simp only [buy, hin] at h
      cases h
  | ok amountIn =>
      rw [← swapSolAmountIn_lamports hf hp hin]
      rcases buy_of_amount hin h with ⟨hpos, heq⟩ | ⟨hzero, heq⟩
      · obtain ⟨rfl, -⟩ := Prod.mk.inj heq
        rw [← buyIxs_replays_iff hwallet hsup hm amountIn.val]
        exact ⟨fun h _ => h, fun h => h hpos⟩
      · obtain ⟨rfl, -⟩ := Prod.mk.inj heq
        refine iff_of_true trivial fun hpos => ?_
        rw [hzero] at hpos
        exact absurd hpos (Nat.lt_irrefl 0)

theorem sell_replays_iff {s : SolanaSwapActionPayload} (hsup : supportedPool s.keys = true)
    (hm : s.swapMethod = .sellExactTokensForSol) :
    Replayable tx.chain E (emittedIxs (sell tx p s).1) ↔
      (0 < tokenAmount p s.amountIn → AsCached tx E tx.sniperWsolAta ∧
        (E tx.sniperTokenAta = true ∨ tx.sniperTokenAta = tx.sniperWsolAta)) := by
  have hkeys : userKeys tx s = ⟨tx.sniperTokenAta, tx.sniperWsolAta, tx.sniper⟩ := by
    rw [userKeys_supported hsup, hm]
  simp only [sell]
  split
  · next hpos =>
      show Replayable _ _ ((if tx.chain.accountExists (tx.chain.ata tx.sniper wsolMintPubkey) =
        true then [] else _) ++ _) ↔ _
      rw [replays_provided, asCached_iff]
      simp only [Replayable, Possible, carryOut, hkeys, and_true]
      show (tx.chain.accountExists tx.sniperWsolAta = false → E tx.sniperWsolAta = false) ∧
        provided tx E tx.sniperWsolAta tx.sniperWsolAta = true ∧
        (provided tx E tx.sniperWsolAta tx.sniperTokenAta = true ∧ _) ∧ _ ↔ _
      by_cases hsame : tx.sniperTokenAta = tx.sniperWsolAta
      · rw [hsame]
        exact ⟨fun h _ => ⟨⟨h.1, h.2.1⟩, Or.inr rfl⟩, fun h =>
          have hW := (h hpos).1
          ⟨hW.1, hW.2, ⟨hW.2, hW.2⟩, hW.2⟩⟩
      · rw [provided_ne hsame]
        constructor
        · rintro ⟨hmiss, hW, ⟨hT, -⟩, -⟩ -
          exact ⟨⟨hmiss, hW⟩, Or.inl hT⟩
        · intro h
          obtain ⟨⟨hmiss, hW⟩, hT | heq⟩ := h hpos
          · exact ⟨hmiss, hW, ⟨hT, hW⟩, hW⟩
          · exact absurd heq hsame
  · next hzero => exact iff_of_true trivial fun h => absurd h hzero

/-- **A STEP'S INSTRUCTIONS** can be carried out if and only if it finds its accounts. -/
theorem emission_replays_iff (hf : FeeOK tx) (hp : FeeShown tx p)
    (hwallet : ¬ IsAta tx.chain tx.sniper) {s : SolanaActionPayload} (hn : NamesToken tx s)
    {e : Option Emission} {w : Bool} (h : stepResult tx p s = .ok (e, w)) :
    Replayable tx.chain E (emittedIxs e) ↔ Usable tx E p s := by
  generalize hr : (e, w) = r at h
  obtain rfl : r.1 = e := (congrArg Prod.fst hr).symm
  cases stepResult_cases h with
  | @sol t ha =>
      simp only [Usable, ha]
      exact transferSol_replays_iff hwallet t
  | @token t mint ha =>
      have hmint : tx.tokenMint = mint := hn mint (by simp only [tokenOf, ha])
      simp only [Usable, ha]
      rw [← hmint, ← tokenTransfer_replays_iff t (tokenAmount p t.amount)]
      simp only [transferToken]
      split
      · next hpos => exact ⟨fun h _ => h, fun h => h hpos⟩
      · next hzero => exact iff_of_true trivial fun h => absurd h hzero
  | bought hsup hm hbuy =>
      simp only [Usable, hm]
      exact buy_replays_iff hf hp hwallet hsup hm hbuy
  | sold hsup hm =>
      simp only [Usable, hm]
      exact sell_replays_iff hsup hm

-- ── The loop ────────────────────────────────────────────────────────────────

/-- With the accounts beside it, the machine still runs as the loop does. -/
theorem run_replayed (tx : TxContext) (t : Pointers × Accounts)
    (steps : List SolanaActionPayload) :
    (run (replayed tx) t steps).map (fun q => (q.1.1, q.2)) =
      (processSteps tx t.1 steps).toOption := by
  rw [run_tracked, run_round]

/-- Every step that does something finds its accounts as they are at that point. -/
def AllUsable (tx : TxContext) (steps : List SolanaActionPayload) : Prop :=
  Along (replayed tx) (fun t s => Usable tx t.2 t.1 s) (tx.start, tx.chain.accountExists) steps

/-- **THE INSTRUCTIONS CAN BE REPLAYED** on the accounts that the cache knows if and only if
    every step finds its accounts as the cache knows them.  The sniper signs, so its address
    is not that of a token account. -/
theorem replayable_iff {chain : Chain} {action : SolanaAction} {price : UInt64} {cu : UInt32}
    {b : Built} (hwallet : ¬ IsAta chain action.sniper.pubkey)
    (hb : buildInstructions chain action price cu = .ok b) :
    Replayable chain chain.accountExists b.actionIxs ↔
      AllUsable (txContext chain action price cu) action.actionPayload := by
  obtain ⟨p, hlen, hfee, hloop, -⟩ := buildInstructions_ok hb
  have hf := feeOK_txContext hfee
  have hnames := @namesToken_of_mem chain action price cu hlen
  have hshown : FeeShown (txContext chain action price cu)
      (txContext chain action price cu).start := ⟨Or.inr ⟨rfl, rfl⟩, Nat.le_refl _⟩
  -- the machine emits what the loop does
  have hrun := run_replayed (txContext chain action price cu)
    ((txContext chain action price cu).start, chain.accountExists) action.actionPayload
  rw [hloop] at hrun
  obtain ⟨⟨t, out⟩, hrun, hout⟩ := Option.map_eq_some_iff.mp hrun
  obtain rfl : out = b.actionIxs := congrArg Prod.snd hout
  refine run_iff_along_from (Q := fun t ixs => Replayable chain t.2 ixs)
    (I := fun t => FeeShown (txContext chain action price cu) t.1) (fun _ => trivial) ?_ ?_ ?_
    hnames hshown hrun
  · intro t s t' a rest hs
    rw [replayable_append, (tracked_eq_some hs).2]
    rfl
  · intro t s t' ixs hI hn hs
    obtain ⟨e, w, hres, rfl⟩ := processStep_emitted (round_eq_some (tracked_eq_some hs).1)
    exact emission_replays_iff hf hI hwallet hn hres
  · intro t s t' ixs hI _ hs
    exact hI.processStep hf (round_eq_some (tracked_eq_some hs).1)

/-- Twenty tokens `4` in an account of the wallet `2`, and no account of anyone else: token
    accounts have odd addresses, wallets even ones. -/
def oneHolder : Chain where
  balance := fun _ => 1000000000
  tokenBalance := fun _ _ => 20
  accountExists := fun k => k = ⟨(2 + 4) ||| 1⟩
  ata := fun owner mint => ⟨(owner.bytes + mint.bytes) ||| 1⟩

theorem oneHolder_wallet : ¬ IsAta oneHolder ⟨2⟩ := by
  rintro ⟨owner, mint, h⟩
  have hbit := congrArg (fun k => k.bytes.getLsbD 0) h
  simp [oneHolder] at hbit

/-- Transfers of tokens, each of some to the wallet `6`. -/
def tokenAction (amounts : List UInt64) : SolanaAction :=
  SolanaAction.new ⟨1⟩ 0 ⟨⟨2⟩, 2⟩
    (amounts.map fun a => .transfer ⟨.token ⟨4⟩, ⟨6⟩, .exact a⟩)

/-- A single transfer creates the account of the receiver. -/
theorem single_transfer_replays : ∃ b, buildInstructions oneHolder (tokenAction [7]) 0 0 = .ok b ∧
    Replayable oneHolder oneHolder.accountExists b.actionIxs := by
  obtain ⟨b, hb⟩ : ∃ b, buildInstructions oneHolder (tokenAction [7]) 0 0 = .ok b := ⟨_, rfl⟩
  have husable : AllUsable (txContext oneHolder (tokenAction [7]) 0 0)
      (tokenAction [7]).actionPayload :=
    ⟨fun _ => ⟨rfl, Or.inl (by decide)⟩, fun _ _ _ => trivial⟩
  exact ⟨b, hb, (replayable_iff oneHolder_wallet hb).mpr husable⟩

/-- **THE ACCOUNT IS CREATED TWICE** by two transfers to one new receiver. -/
theorem second_transfer_creates_again :
    ¬ ∀ (chain : Chain) (action : SolanaAction) (price : UInt64) (cu : UInt32) (b : Built),
      ¬ IsAta chain action.sniper.pubkey → buildInstructions chain action price cu = .ok b →
      Replayable chain chain.accountExists b.actionIxs := by
  intro hclaim
  have h := hclaim oneHolder (tokenAction [7, 8]) 0 0 _ oneHolder_wallet rfl
  -- create, transfer, and create again
  exact absurd (show true = false from h.2.2.1) (by decide)

end FoxfireReplay
