import FoxfireSniper.DirichletProofs
import FoxfireSniper.TelegramAccessProofs

/-! # The budget of a tranche

    The button that starts a volume strategy (`src/tg_bot/user_menu/strategies/handler.rs`)
    wants a tranche that pays the fees of one swap for each agent, and a balance that holds
    the tranche.  `initialize_agents_with_sol` divides the tranche among the buyers, with a
    minimum of its own for each; a tranche that does not hold these minima is not divided,
    and each buyer is sent the minimum all the same.

    * `started_checks`: what the button has made sure of;
    * **`funding_within_tranche_iff`**: the buyers are funded from the tranche exactly when
      it holds their minima, and the other shares are not rounded up past the first.

    A negative number of agents is cast to one that no vector holds. -/

namespace FoxfireBudget

open FoxfireTypes FoxfireDirichlet RoundedShares
open FoxfireAgent hiding State
open FoxfireFunding hiding VolumeStrategyInstance
open FoxfireTelegram hiding Strategy

-- ── The amounts ─────────────────────────────────────────────────────────────

/-- What the distribution yields, for every number of parts. -/
abbrev Sample := ∀ n, 1 < n → Proportions ℚ n

/-- The proportions that are drawn; one part or none is not drawn. -/
def Sample.draw (sample : Sample) (n : Nat) : List ℚ :=
  if h : 1 < n then (sample n h).parts else []

/-- The longest vector of 64-bit numbers: `isize::MAX` bytes. -/
def maxVecLen : Nat := (2 ^ 63 - 1) / 8

/-- `get_dirichlet_distributed_with_min_amount`, for a number of agents that is a cast:
    `none` if it panics, because no vector holds so many. -/
def distribute (sample : Sample) (alpha : UInt64) (n : Nat) (minAmount : UInt64) :
    Option (List UInt64) :=
  if 1 < n ∧ maxVecLen < n then none
  else some (getDirichletDistributedWithMinAmount (sample.draw n) alpha n minAmount).amounts

/-- `transfer_vec` of `initialize_agents_with_sol`. -/
def transferVec (s : Strategy) (x : TrancheInput) : List SolanaTransferActionPayload :=
  (buyers s x).map fun p => ⟨.sol, p.1.pubkey, .exactWithFees p.2⟩

/-- These are what the main wallet is told to transfer. -/
theorem initializeAgentsWithSol_batches (s : Strategy) (x : TrancheInput) :
    initializeAgentsWithSol s x =
      (handleBatches x s.mainWallet (chunks maxTransfersInOneTx (transferVec s x))).map fun r =>
        ({ s with mainWallet := r.1
                  agents := s.agents ++ (buyers s x).map fun p => s.newAgent x p.1 }, r.2) := rfl

/-- The lamports of an amount that is given as a number. -/
def lamportsOf : Amount → Nat
  | .exact amount         => amount.toNat
  | .exactWithFees amount => amount.toNat
  | _                     => 0

def totalLamports (transfers : List SolanaTransferActionPayload) : Nat :=
  (transfers.map fun t => lamportsOf t.amount).sum

section

variable {minAmount : UInt64} {n : Nat}

/-- **THE AMOUNTS STAY WITHIN `alpha`** exactly when it holds the minima, and the other
    amounts do not exceed it. -/
theorem natSum_amounts_le_iff (sample : Sample) (alpha : UInt64) (hn : 1 < n)
    (hsize : n < 2 ^ 64) (hfits : n * minAmount.toNat < 2 ^ 64) :
    natSum (getDirichletDistributedWithMinAmount (sample.draw n) alpha n minAmount).amounts ≤
        alpha.toNat ↔
      n * minAmount.toNat ≤ alpha.toNat ∧
        (shares (alpha.toNat - n * minAmount.toNat) (sample.draw n).tail).sum
          + (n - 1) * minAmount.toNat ≤ alpha.toNat := by
  have hminima := toNat_minima hfits hsize
  by_cases hmin : n * minAmount.toNat ≤ alpha.toNat
  · obtain ⟨corrected, rest, heq, hmap, -, hval, -⟩ :=
      splitWithMin_spec hfits hsize hmin (sample n hn)
    have hdraw : sample.draw n = (sample n hn).parts := dif_pos hn
    rw [hdraw, heq, natSum_cons, ← natSum_rest hmap]
    constructor
    · intro h
      exact ⟨hmin, by omega⟩
    · rintro ⟨-, hle⟩
      rw [hval hle]
      omega
  · have hlt : alpha < UInt64.ofNat n * minAmount := by
      rw [UInt64.lt_iff_toNat_lt, hminima]
      omega
    have hcode : getDirichletDistributedWithMinAmount (sample.draw n) alpha n minAmount =
        ⟨List.replicate n minAmount, false⟩ := by
      rw [getDirichletDistributedWithMinAmount, if_neg (by omega), if_neg (by omega)]
      exact if_pos hlt
    have hsum : natSum (List.replicate n minAmount) = n * minAmount.toNat := by
      rw [natSum, List.map_replicate, List.sum_replicate_nat]
    rw [hcode, hsum]
    exact iff_of_false hmin fun h => hmin h.1

end

-- ── The transfers ───────────────────────────────────────────────────────────

/-- Agents that cannot be created are not funded. -/
theorem sum_created_le (newAgent : Nat → Option Keypair) (ps : List (UInt64 × Nat)) :
    ((ps.filterMap fun p => (newAgent p.2).map fun key => (key, p.1)).map
        fun q => q.2.toNat).sum ≤ (ps.map fun p => p.1.toNat).sum := by
  induction ps with
  | nil => exact Nat.le_refl _
  | cons p ps ih =>
      rw [List.map_cons, List.sum_cons, List.filterMap_cons]
      cases newAgent p.2 with
      | none => exact Nat.le_add_left_of_le ih
      | some key => exact Nat.add_le_add_left ih _

theorem totalLamports_transferVec (s : Strategy) (x : TrancheInput) :
    totalLamports (transferVec s x) = ((buyers s x).map fun p => p.2.toNat).sum := by
  rw [totalLamports, transferVec, List.map_map]
  rfl

/-- The amounts of a list with its indices. -/
theorem sum_zipIdx (l : List UInt64) : (l.zipIdx.map fun p => p.1.toNat).sum = natSum l := by
  have hmap : l.zipIdx.map (fun p => p.1.toNat) = (l.zipIdx.map Prod.fst).map UInt64.toNat := by
    rw [List.map_map]
    rfl
  rw [hmap, List.zipIdx_map_fst, natSum]

/-- The amounts that a strategy's buyers are funded with. -/
def buyerAmounts (s : Strategy) (x : TrancheInput) : List UInt64 :=
  x.dirichletWithMin (solToLamports s.inst.trancheSizeSol)
    (asUsize s.inst.agentsBuyingInTranche) (minAgentAmount s.inst)

theorem totalLamports_le (s : Strategy) (x : TrancheInput) :
    totalLamports (transferVec s x) ≤ natSum (buyerAmounts s x) := by
  rw [totalLamports_transferVec, ← sum_zipIdx]
  exact sum_created_le x.newAgent _

/-- If all can be created, all amounts are sent. -/
theorem totalLamports_all {s : Strategy} {x : TrancheInput} {key : Keypair}
    (h : x.newAgent = fun _ => some key) :
    totalLamports (transferVec s x) = natSum (buyerAmounts s x) := by
  rw [totalLamports_transferVec, buyers, h, ← sum_zipIdx]
  simp only [Option.map_some, List.filterMap_eq_map', List.map_map]
  rfl

-- ── What the button has made sure of ────────────────────────────────────────

theorem castToU64_mono {x y : ℚ} (h : x ≤ y) : (castToU64 x).toNat ≤ (castToU64 y).toNat := by
  have hfloor : x.floor.toNat ≤ y.floor.toNat := Int.toNat_le_toNat (Rat.floor_monotone h)
  rw [castToU64, castToU64, UInt64.toNat_ofNat', UInt64.toNat_ofNat',
    Nat.mod_eq_of_lt (by omega), Nat.mod_eq_of_lt (by omega)]
  omega

theorem solToLamports_mono {x y : ℚ} (h : x ≤ y) :
    (solToLamports x).toNat ≤ (solToLamports y).toNat :=
  castToU64_mono (mul_le_mul_of_nonneg_right h (by decide +kernel))

/-- A field that must be given is given. -/
theorem okOr_bind_ok {α β : Type} {o : Option α} {e : String} {f : α → Except String β} {b : β}
    (h : (okOr o e >>= f) = .ok b) : ∃ a, o = some a ∧ f a = .ok b := by
  cases o with
  | none => cases h
  | some a => exact ⟨a, rfl, h⟩

/-- An instance has the configuration's tranche size. -/
theorem trancheSize_of_tryFrom {env : Env} {args : VolumeStrategyConfigArgs}
    {inst : VolumeStrategyInstance} (h : VolumeStrategyInstance.tryFrom env args = .ok inst) :
    args.trancheSizeSol = some inst.trancheSizeSol := by
  obtain ⟨userId, -, h⟩ := okOr_bind_ok h
  obtain ⟨pool, -, h⟩ := okOr_bind_ok h
  obtain ⟨targetPool, -, h⟩ := okOr_bind_ok h
  obtain ⟨trancheSizeSol, hsize, h⟩ := okOr_bind_ok h
  obtain ⟨frequency, -, h⟩ := okOr_bind_ok h
  obtain ⟨length, -, h⟩ := okOr_bind_ok h
  obtain ⟨buying, -, h⟩ := okOr_bind_ok h
  obtain ⟨selling, -, h⟩ := okOr_bind_ok h
  obtain ⟨keep, -, h⟩ := okOr_bind_ok h
  cases h
  exact hsize

variable {cfg : BotConfig} {env : Env} {s : State} {m : Message} {user : BotUser}
  {inst : VolumeStrategyInstance} {bal : ℚ}

/-- Only the strategy of the configuration is started. -/
theorem tryFrom_of_started
    (h : .startStrategy (.volume inst) ∈ createAndStart env s m user) :
    VolumeStrategyInstance.tryFrom env s.getStrategyInProgress = .ok inst := by
  rw [createAndStart] at h
  split at h
  · cases h
  · rename_i created hcreated
    split at h
    · rcases List.mem_cons.mp h with heq | h
      · rw [hcreated]
        cases heq
        rfl
      · split at h
        · rcases List.mem_cons.mp h with heq | h
          · cases heq
          · rw [attempt, attempt] at h
            revert h
            cases env.writes <;> cases env.rendersMain <;> simp
        · cases List.mem_singleton.mp h
    · cases List.mem_singleton.mp h

/-- **WHAT THE BUTTON HAS MADE SURE OF**: the tranche is within the balance. -/
theorem started_checks (hbal : env.balanceUi user.walletAddress = some bal)
    (h : .startStrategy (.volume inst) ∈ startStrategy cfg env s m user) :
    inst.trancheSizeSol ≤ bal := by
  rw [startStrategy, hbal] at h
  dsimp only at h
  split at h
  · cases List.mem_singleton.mp h
  · rename_i henough
    split at h
    · cases List.mem_singleton.mp h
    · have hsize := trancheSize_of_tryFrom (tryFrom_of_started h)
      rw [hsize] at henough
      exact (le_max_right _ _).trans (not_lt.mp henough)

/-- And whoever passes, and has a strategy to start, starts it. -/
theorem started_of_checks (hbal : env.balanceUi user.walletAddress = some bal)
    (hdeposit : max cfg.tgbot.minimumDepositSol (s.getStrategyInProgress.trancheSizeSol.getD 0) ≤ bal)
    (hfees : minimumSolNeeded (max (s.getStrategyInProgress.agentsBuyingInTranche.getD 1)
      (s.getStrategyInProgress.agentsSellingInTranche.getD 1))
        ≤ s.getStrategyInProgress.trancheSizeSol.getD 0)
    (hinst : VolumeStrategyInstance.tryFrom env s.getStrategyInProgress = .ok inst)
    (hcreates : env.createsVolume inst = true) :
    .startStrategy (.volume inst) ∈ startStrategy cfg env s m user := by
  rw [startStrategy, hbal]
  dsimp only
  rw [if_neg (not_lt.mpr hdeposit), if_neg (not_lt.mpr hfees), createAndStart, hinst]
  dsimp only
  rw [if_pos hcreates]
  exact List.mem_cons_self

-- ── The budget ──────────────────────────────────────────────────────────────

/-- **THE BUDGET**: whichever agents can be created, their funding is within the tranche, and
    so within the balance that was checked. -/
def WithinBudget (inst : VolumeStrategyInstance) (sample : Sample) (userSolBalance : ℚ) : Prop :=
  ∀ (s : Strategy) (x : TrancheInput), s.inst = inst.toVolumeStrategyInstance →
    distribute sample (solToLamports inst.trancheSizeSol) (asUsize inst.agentsBuyingInTranche)
      (minAgentAmount inst.toVolumeStrategyInstance) = some (buyerAmounts s x) →
    totalLamports (transferVec s x) ≤ (solToLamports inst.trancheSizeSol).toNat ∧
      totalLamports (transferVec s x) ≤ (solToLamports userSolBalance).toNat

/-- There are minima and a tranche for the shares of `n` agents. -/
def SharesFit (sample : Sample) (alpha n minAmount : Nat) : Prop :=
  n * minAmount ≤ alpha ∧
    (shares (alpha - n * minAmount) (sample.draw n).tail).sum + (n - 1) * minAmount ≤ alpha

/-- There is at most one buyer, or the tranche holds the buyers' minima, and what all but the
    first of them get. -/
def TrancheHolds (inst : VolumeStrategyInstance) (sample : Sample) : Prop :=
  inst.agentsBuyingInTranche ≤ 1 ∨
    SharesFit sample (solToLamports inst.trancheSizeSol).toNat (asUsize inst.agentsBuyingInTranche)
      (minAgentAmount inst.toVolumeStrategyInstance).toNat

instance (sample : Sample) (alpha n minAmount : Nat) :
    Decidable (SharesFit sample alpha n minAmount) := inferInstanceAs (Decidable (_ ∧ _))

instance (inst : VolumeStrategyInstance) (sample : Sample) :
    Decidable (TrancheHolds inst sample) := inferInstanceAs (Decidable (_ ∨ _))

/-- A strategy of the instance, whose main wallet is idle. -/
def strategyOf (inst : VolumeStrategyInstance) : Strategy where
  inst := inst.toVolumeStrategyInstance
  pool := default
  mainWallet := Agent.new default ⟨⟨1⟩, 1⟩ none none 0
  agents := []

/-- All agents are created, and these amounts are drawn. -/
def inputOf (amounts : List UInt64) : TrancheInput :=
  { sampleInput with
    dirichletWithMin := fun _ _ _ => amounts
    newAgent := fun _ => some ⟨⟨1⟩, 1⟩ }

/-- The minimum is far below what a word holds. -/
theorem minAgentAmount_lt (inst : FoxfireFunding.VolumeStrategyInstance) :
    (minAgentAmount inst).toNat < 2 ^ 22 := by
  rw [minAgentAmount]
  split
  · decide
  · decide

/-- What `initialize_agents_with_sol` divides the tranche into. -/
def drawnAmounts (inst : VolumeStrategyInstance) (sample : Sample) : Option (List UInt64) :=
  distribute sample (solToLamports inst.trancheSizeSol) (asUsize inst.agentsBuyingInTranche)
    (minAgentAmount inst.toVolumeStrategyInstance)

/-- If all agents are created, the amounts are all sent: they decide. -/
theorem withinBudget_of_drawn {sample : Sample} {amounts : List UInt64}
    (hsize : inst.trancheSizeSol ≤ bal) (hdraw : drawnAmounts inst sample = some amounts) :
    WithinBudget inst sample bal ↔ natSum amounts ≤ (solToLamports inst.trancheSizeSol).toNat := by
  have hbal := solToLamports_mono hsize
  constructor
  · intro h
    have hall := (h (strategyOf inst) (inputOf amounts) rfl hdraw).1
    rwa [totalLamports_all rfl] at hall
  · intro hle s x hinst hbuyers
    have heq : amounts = buyerAmounts s x := Option.some.inj (hdraw.symm.trans hbuyers)
    have hsent := totalLamports_le s x
    rw [← heq] at hsent
    omega

/-- One buyer gets the tranche, and no buyer nothing. -/
theorem natSum_amounts_one {sample : List ℚ} {alpha minAmount : UInt64} {n : Nat} (hn : n ≤ 1) :
    natSum (getDirichletDistributedWithMinAmount sample alpha n minAmount).amounts ≤
      alpha.toNat := by
  obtain rfl | rfl : n = 0 ∨ n = 1 := by omega
  · exact Nat.zero_le _
  · exact Nat.le_refl _

/-- A tranche within the balance: it holds the buyers, or the budget is exceeded. -/
theorem withinBudget_iff (sample : Sample) (hsize : inst.trancheSizeSol ≤ bal)
    (hlow : -2 ^ 31 ≤ inst.agentsBuyingInTranche) (hhigh : inst.agentsBuyingInTranche < 2 ^ 31) :
    WithinBudget inst sample bal ↔ TrancheHolds inst sample := by
  have hlen : maxVecLen < 2 ^ 64 - 2 ^ 31 ∧ 2 ^ 31 < maxVecLen := by decide
  by_cases hnone : inst.agentsBuyingInTranche < 0
  · -- no vector holds the amounts, and nothing is sent
    have hcast : maxVecLen < asUsize inst.agentsBuyingInTranche := by
      rw [asUsize]
      omega
    refine iff_of_true ?_ (Or.inl (by omega))
    intro s x hinst hdraw
    rw [distribute, if_pos ⟨by omega, hcast⟩] at hdraw
    cases hdraw
  · have hcast : (asUsize inst.agentsBuyingInTranche : Int) = inst.agentsBuyingInTranche := by
      rw [asUsize]
      omega
    have hdraw : drawnAmounts inst sample = some
        (getDirichletDistributedWithMinAmount (sample.draw (asUsize inst.agentsBuyingInTranche))
          (solToLamports inst.trancheSizeSol) (asUsize inst.agentsBuyingInTranche)
          (minAgentAmount inst.toVolumeStrategyInstance)).amounts := by
      rw [drawnAmounts, distribute, if_neg (by omega)]
    rw [withinBudget_of_drawn hsize hdraw, TrancheHolds]
    by_cases hone : 1 < asUsize inst.agentsBuyingInTranche
    · have hmin := minAgentAmount_lt inst.toVolumeStrategyInstance
      have hfits : asUsize inst.agentsBuyingInTranche
          * (minAgentAmount inst.toVolumeStrategyInstance).toNat < 2 ^ 64 :=
        lt_of_lt_of_le (Nat.mul_lt_mul'' (show _ < 2 ^ 31 by omega) hmin) (by norm_num)
      rw [natSum_amounts_le_iff sample _ hone (by omega) hfits]
      constructor
      · exact Or.inr
      · rintro (hle | h)
        · omega
        · exact h
    · exact iff_of_true (natSum_amounts_one (by omega)) (Or.inl (by omega))

/-- **THE FUNDING COMES OUT OF THE TRANCHE, IF IT HOLDS THE MINIMA.**  For every configuration
    that the button starts, every balance that it was shown and every sample: whichever agents
    can be created, their funding is within the tranche and the balance, if and only if there
    is at most one buyer, or the tranche holds the buyers' minima and what all but the first
    of them get. -/
theorem funding_within_tranche_iff (sample : Sample)
    (hbal : env.balanceUi user.walletAddress = some bal)
    (hstart : .startStrategy (.volume inst) ∈ startStrategy cfg env s m user)
    (hlow : -2 ^ 31 ≤ inst.agentsBuyingInTranche) (hhigh : inst.agentsBuyingInTranche < 2 ^ 31) :
    WithinBudget inst sample bal ↔ TrancheHolds inst sample :=
  withinBudget_iff sample (started_checks hbal hstart) hlow hhigh

-- ── Two buyers ──────────────────────────────────────────────────────────────

/-- Equal parts. -/
def equalParts : Sample := fun n hn =>
  { parts := List.replicate n (1 / n)
    length_eq := List.length_replicate
    nonneg := by
      intro x hx
      rw [List.eq_of_mem_replicate hx]
      positivity
    sum_eq := by
      rw [List.sum_replicate, nsmul_eq_mul]
      field_simp }

/-- A configuration with two buyers, and a tranche of this size. -/
def twoBuyers (size : ℚ) : State :=
  .receiveStrategy (some
    { userId := some 7
      targetPool := some "pool"
      trancheSizeSol := some size
      trancheFrequencyHbs := some 10
      trancheLengthHbs := some 10
      agentsBuyingInTranche := some 2
      agentsSellingInTranche := some 2
      agentsKeepTokensLamports := some 0 })

/-- The instance that is started. -/
def twoBuyersInst (size : ℚ) : VolumeStrategyInstance :=
  ⟨⟨⟨0, size, 2, 2, 0⟩, 7, 10⟩, default, 10⟩

/-- The user who asks. -/
def asking : BotUser := ⟨⟨7, "key 7"⟩, 5, "wallet 7"⟩

/-- One SOL for two buyers. -/
theorem one_sol_holds_two_buyers : WithinBudget (twoBuyersInst 1) equalParts 10 := by
  have hstart : .startStrategy (.volume (twoBuyersInst 1)) ∈
      startStrategy listConfig formerEnv (twoBuyers 1) (formerMessage "menu") asking :=
    started_of_checks rfl (by decide +kernel) (by decide +kernel) rfl rfl
  exact (funding_within_tranche_iff equalParts rfl hstart (by decide) (by decide)).mpr
    (Or.inr (by decide +kernel))

/-- A wallet with a thousandth of a SOL, and a bot that is content with less. -/
def poorEnv : Env := { formerEnv with balanceUi := fun _ => some (1 / 1000) }

def poorConfig : BotConfig := { listConfig with tgbot := ⟨some [5], none, 1 / 2000⟩ }

/-- **TWO BUYERS OVERDRAW A THOUSANDTH OF A SOL**: the fees of two swaps are 30,000 lamports,
    and two minima are 1,871,760. -/
theorem two_buyers_overdraw_the_tranche :
    ¬ ∀ (cfg : BotConfig) (env : Env) (s : State) (m : Message) (user : BotUser)
      (inst : VolumeStrategyInstance) (bal : ℚ) (sample : Sample),
      env.balanceUi user.walletAddress = some bal →
      .startStrategy (.volume inst) ∈ startStrategy cfg env s m user →
      -2 ^ 31 ≤ inst.agentsBuyingInTranche → inst.agentsBuyingInTranche < 2 ^ 31 →
      WithinBudget inst sample bal := by
  intro hclaim
  have hstart : .startStrategy (.volume (twoBuyersInst (1 / 1000))) ∈
      startStrategy poorConfig poorEnv (twoBuyers (1 / 1000)) (formerMessage "menu") asking :=
    started_of_checks rfl (by decide +kernel) (by decide +kernel) rfl rfl
  have h := hclaim _ _ _ _ asking _ (1 / 1000) equalParts rfl hstart (by decide) (by decide)
  have hholds := (withinBudget_iff equalParts (le_refl _) (by decide) (by decide)).mp h
  exact absurd hholds (by decide +kernel)

end FoxfireBudget
