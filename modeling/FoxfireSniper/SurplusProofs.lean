import FoxfireSniper.TrancheProofs
import FoxfireSniper.VolumeHandlerProofs

/-! # What the sellers of a tranche sell

    An agent may have to keep some tokens, `agents_keep_tokens_lamports`.  Two entry actions
    take the rest from it: `collect_token_from_agents` from the buyers, and `sell` from the
    sellers.

    * `collection_keeps`: the first one checks that there is something to spare, and never
      takes too much.
    * **`sells_surplus_iff`**: the second one subtracts unchecked, and where nothing is to be
      kept it collects the tokens instead of selling them. -/

namespace FoxfireVolume

open FoxfireTypes FoxfireAttempt FoxfireAgent FoxfireFunding

namespace VolumeStrategy

/-- The SOL that a sale needs. -/
def saleSol : UInt64 := baseTxFeeSol + transferPriorityFeeSol

/-- `sell` computes the balance less the tokens to keep. -/
def SaleSubtracts (v : VolumeStrategy) (env : Env) (agent : Agent) : Prop :=
  v.inst.agentsKeepTokensLamports ≠ 0 ∧ saleSol ≤ agentSol env agent

/-- `collect_token_from_agents` computes it. -/
def CollectionSubtracts (v : VolumeStrategy) (env : Env) (agent : Agent) : Prop :=
  v.tokensToKeep < agentTokens env agent ∧
    (if v.tokensToKeep = 0 then baseTxFeeSol + transferPriorityFeeSol
      else rentExemptionThresholdSol + baseTxFeeSol + transferPriorityFeeSol) ≤ agentSol env agent

/-- How many of its tokens a command takes from an agent that has `balance` of them. -/
def tokensTaken (balance : UInt64) : Option AgentEvent → Nat
  | some (.sell (.exact amount)) => amount.toNat
  | some (.sell _)               => balance.toNat
  | some .collect                => balance.toNat
  | some (.transfer batch)       =>
      (batch.map fun t =>
        match t.asset, t.amount with
        | .token _, .exact amount => amount.toNat
        | .token _, _             => balance.toNat
        | .sol, _                 => 0).sum
  | _ => 0

/-- The command leaves the agent what it is to keep, or all it has. -/
def Keeps (v : VolumeStrategy) (env : Env) (agent : Agent) (cmd : Option AgentEvent) : Prop :=
  min (agentTokens env agent).toNat v.tokensToKeep.toNat + tokensTaken (agentTokens env agent) cmd
    ≤ (agentTokens env agent).toNat

/-- What the two entry actions should do with one agent.  To sell `Exact(0)` is to sell
    nothing. -/
structure SellsSurplus (v : VolumeStrategy) (env : Env) (agent : Agent) : Prop where
  surplus         : v.tokensToKeep < agentTokens env agent → saleSol ≤ agentSol env agent →
    v.saleCommand env agent = some (.sell (.exact (agentTokens env agent - v.tokensToKeep)))
  nothing         : agentTokens env agent ≤ v.tokensToKeep →
    v.saleCommand env agent = none ∨ v.saleCommand env agent = some (.sell (.exact 0))
  saleFits        : v.SaleSubtracts env agent → v.tokensToKeep ≤ agentTokens env agent
  collectionFits  : v.CollectionSubtracts env agent → v.tokensToKeep ≤ agentTokens env agent
  saleKeeps       : v.Keeps env agent (v.saleCommand env agent)
  collectionKeeps : v.Keeps env agent (v.tokenCollection env agent)

/-- The agent has what it is to keep, and nothing if it is to keep nothing. -/
def HoldsReserve (v : VolumeStrategy) (env : Env) (agent : Agent) : Prop :=
  if v.inst.agentsKeepTokensLamports = 0 then agentTokens env agent = 0
  else v.tokensToKeep ≤ agentTokens env agent

variable {v : VolumeStrategy} {env : Env} {agent : Agent}

instance : Decidable (v.SaleSubtracts env agent) := inferInstanceAs (Decidable (_ ∧ _))

instance : Decidable (v.HoldsReserve env agent) :=
  inferInstanceAs (Decidable (if v.inst.agentsKeepTokensLamports = 0
    then agentTokens env agent = 0 else v.tokensToKeep ≤ agentTokens env agent))

theorem tokenCollection_pos (h : v.CollectionSubtracts env agent) :
    v.tokenCollection env agent =
      if v.tokensToKeep = 0 then some .collect
      else some (.transfer [⟨.token agent.storage.pool.baseMint, v.mainWallet.storage.pubkey,
        .exact (agentTokens env agent - v.tokensToKeep)⟩]) := if_pos h

theorem tokenCollection_neg (h : ¬ v.CollectionSubtracts env agent) :
    v.tokenCollection env agent = none := if_neg h

/-- The column is an `i64`. -/
theorem tokensToKeep_toNat (hk : 0 ≤ v.inst.agentsKeepTokensLamports)
    (hk' : v.inst.agentsKeepTokensLamports < 2 ^ 63) :
    v.tokensToKeep.toNat = v.inst.agentsKeepTokensLamports.toNat := by
  rw [tokensToKeep, asU64, asUsize, UInt64.toNat_ofNat', Int.emod_eq_of_lt hk (by omega)]
  exact Nat.mod_eq_of_lt (by omega)

theorem tokensToKeep_eq_zero_iff (hk : 0 ≤ v.inst.agentsKeepTokensLamports)
    (hk' : v.inst.agentsKeepTokensLamports < 2 ^ 63) :
    v.tokensToKeep = 0 ↔ v.inst.agentsKeepTokensLamports = 0 := by
  rw [← UInt64.toNat_inj, tokensToKeep_toNat hk hk', UInt64.toNat_zero]
  omega

theorem keeps_none (v : VolumeStrategy) (env : Env) (agent : Agent) : v.Keeps env agent none :=
  Nat.min_le_left ..

theorem keeps_all (hzero : v.tokensToKeep = 0) {cmd : Option AgentEvent}
    (htaken : tokensTaken (agentTokens env agent) cmd ≤ (agentTokens env agent).toNat) :
    v.Keeps env agent cmd := by
  rw [Keeps, hzero, UInt64.toNat_zero, Nat.min_zero, Nat.zero_add]
  exact htaken

/-- An agent that is left with the tokens to keep. -/
theorem keeps_surplus (hle : v.tokensToKeep ≤ agentTokens env agent) {cmd : Option AgentEvent}
    (htaken : tokensTaken (agentTokens env agent) cmd =
      (agentTokens env agent - v.tokensToKeep).toNat) : v.Keeps env agent cmd := by
  have hle' := UInt64.le_iff_toNat_le.mp hle
  rw [Keeps, htaken, UInt64.toNat_sub_of_le _ _ hle, Nat.min_eq_right hle']
  omega

/-- **THE BUYERS KEEP WHAT THEY SHOULD.** -/
theorem collection_keeps (v : VolumeStrategy) (env : Env) (agent : Agent) :
    v.Keeps env agent (v.tokenCollection env agent) := by
  by_cases h : v.CollectionSubtracts env agent
  · rw [tokenCollection_pos h]
    split
    · next hzero => exact keeps_all hzero (Nat.le_refl _)
    · exact keeps_surplus (UInt64.le_of_lt h.1) (Nat.add_zero _)
  · rw [tokenCollection_neg h]
    exact keeps_none v env agent

/-- **ONE SELLER SELLS WHAT IT HAS TO SPARE** exactly if, with enough SOL, it holds what it is
    to keep, and nothing if it is to keep nothing. -/
theorem sellsSurplus_iff (hk : 0 ≤ v.inst.agentsKeepTokensLamports)
    (hk' : v.inst.agentsKeepTokensLamports < 2 ^ 63) :
    v.SellsSurplus env agent ↔ (saleSol ≤ agentSol env agent → v.HoldsReserve env agent) := by
  have hcollection : v.CollectionSubtracts env agent →
      v.tokensToKeep ≤ agentTokens env agent := fun h => UInt64.le_of_lt h.1
  by_cases hzero : v.inst.agentsKeepTokensLamports = 0
  · have hzero' : v.tokensToKeep = 0 := (tokensToKeep_eq_zero_iff hk hk').mpr hzero
    have hcommand : v.saleCommand env agent =
        if 0 < agentTokens env agent then some .collect else none := by
      rw [saleCommand, if_pos hzero]
    rw [HoldsReserve, if_pos hzero]
    constructor
    · intro h hsol
      by_contra hsome
      have hpos : 0 < agentTokens env agent := UInt64.pos_iff_ne_zero.mpr hsome
      have hsells := h.surplus (by rw [hzero']; exact hpos) hsol
      rw [hcommand, if_pos hpos] at hsells
      cases hsells
    · intro h
      refine ⟨?_, ?_, fun hsub => absurd hzero hsub.1, hcollection, ?_,
        collection_keeps v env agent⟩
      · intro hspare hsol
        rw [hzero', h hsol] at hspare
        exact absurd hspare (UInt64.lt_irrefl 0)
      · intro hle
        rw [hzero'] at hle
        rw [hcommand, if_neg (UInt64.not_lt.mpr hle)]
        exact Or.inl rfl
      · rw [hcommand]
        split
        · exact keeps_all hzero' (Nat.le_refl _)
        · exact keeps_none v env agent
  · have hcommand : v.saleCommand env agent = if saleSol ≤ agentSol env agent then
        some (.sell (.exact (agentTokens env agent - v.tokensToKeep))) else none := by
      rw [saleCommand, if_neg hzero]
      rfl
    rw [HoldsReserve, if_neg hzero]
    constructor
    · intro h hsol
      exact h.saleFits ⟨hzero, hsol⟩
    · intro h
      refine ⟨?_, ?_, fun hsub => h hsub.2, hcollection, ?_, collection_keeps v env agent⟩
      · intro _ hsol
        rw [hcommand, if_pos hsol]
      · intro hle
        rw [hcommand]
        split
        · next hsol =>
            rw [UInt64.le_antisymm (h hsol) hle, UInt64.sub_self]
            exact Or.inr rfl
        · exact Or.inl rfl
      · rw [hcommand]
        split
        · next hsol => exact keeps_surplus (h hsol) rfl
        · exact keeps_none v env agent

/-- **THE SELLERS OF A TRANCHE SELL WHAT THEY HAVE TO SPARE**, all that the strategy lists,
    exactly if each one with enough SOL holds its reserve. -/
theorem sells_surplus_iff (hk : 0 ≤ v.inst.agentsKeepTokensLamports)
    (hk' : v.inst.agentsKeepTokensLamports < 2 ^ 63) (env : Env) :
    (∀ agent ∈ v.current, v.SellsSurplus env agent) ↔
      ∀ agent ∈ v.current, saleSol ≤ agentSol env agent → v.HoldsReserve env agent :=
  forall_congr' fun _ => forall_congr' fun _ => sellsSurplus_iff hk hk'

/-- A strategy that lists one seller, which is to keep `k` tokens. -/
def oneSeller (k : Int) : VolumeStrategy :=
  { smallVolume.1 with
    inst := { smallVolume.1.inst with agentsKeepTokensLamports := k }
    heap := [Agent.new default ⟨⟨5⟩, 5⟩ (some 1) (some ⟨⟨1⟩, 1⟩) 0]
    agents := [0] }

/-- It has a thousand, and keeps four hundred. -/
theorem six_hundred_sold : (oneSeller 400).SellsSurplus (fineEnv 1)
    (Agent.new default ⟨⟨5⟩, 5⟩ (some 1) (some ⟨⟨1⟩, 1⟩) 0) := by
  refine (sells_surplus_iff (v := oneSeller 400) (by decide) (by decide) (fineEnv 1)).mpr ?_ _
    List.mem_cons_self
  intro agent hagent _
  obtain rfl := List.mem_singleton.mp hagent
  decide

/-- **WITH LESS THAN IT IS TO KEEP** a seller is told to sell almost `2 ^ 64` tokens. -/
theorem missing_reserve_wraps :
    ¬ ∀ (v : VolumeStrategy) (env : Env), 0 ≤ v.inst.agentsKeepTokensLamports →
      v.inst.agentsKeepTokensLamports < 2 ^ 63 →
      ∀ agent ∈ v.current, v.SellsSurplus env agent := by
  intro hclaim
  have h := hclaim (oneSeller 2000) (fineEnv 1) (by decide) (by decide) _ List.mem_cons_self
  exact absurd (h.saleFits (by decide)) (by decide)

-- with nothing to keep, it is told to collect
example : (oneSeller 0).saleCommand (fineEnv 1)
    (Agent.new default ⟨⟨5⟩, 5⟩ (some 1) (some ⟨⟨1⟩, 1⟩) 0) = some .collect := by decide

end VolumeStrategy

end FoxfireVolume
