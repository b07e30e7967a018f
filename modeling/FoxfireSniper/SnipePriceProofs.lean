import Mathlib.Tactic.Linarith
import FoxfireSniper.SnipePhaseProofs

/-! # The price tests of a snipe

    Two handlers of `agent_state_machine.rs` compare prices.  `waiting_to_buy` drops the
    snipe if the price has fallen too far since deployment, `waiting_to_sell` sells at the
    stop-loss and at the take-profit.

    * **`skips_iff`**: a snipe is dropped on every large fall, unless one shows at the very
      event at which the delay is over: the handler returns before it looks at the price.
    * **`sells_iff`**: the thresholds are `b * d` and `b * u` where the parameters, read as
      moves, ask for `b * (1 - d)` and `b * (1 + u)`. -/

namespace FoxfireSnipe

open FoxfireTypes MachineRun

-- ── Falls before the purchase ───────────────────────────────────────────────

/-- The event is an update for the pool with a price below the deployment price by more
    than this percentage. -/
def ShowsDrop (pool : Pubkey) (deployPrice percent : ℚ) (event : SolanaStrategyEvent) : Prop :=
  ∃ u, priceUpdateOf event = some u ∧ u.pool = pool ∧
    u.price < deployPrice * (1 - percent / 100)

/-- `waiting_to_buy` finds no delay, or one that is over. -/
def SniperAgentState.DelayOver (a : SniperAgentState) (i : Input) : Prop :=
  a.snipingStrategyInstance.buyDelayMs = 0 ∨
    a.snipingStrategyInstance.buyDelayMs % 2 ^ 128 < (i.now - a.buyDelayTimer : Nat)

instance (a : SniperAgentState) (i : Input) : Decidable (a.DelayOver i) :=
  inferInstanceAs (Decidable (_ ∨ _))

theorem waitingToBuy_over {a : SniperAgentState} {i : Input} (hover : a.DelayOver i) :
    a.waitingToBuy i = .transition
      (.buying (.exact (solToLamports a.snipingStrategyInstance.sizeSol)) 0) := if_pos hover

theorem quotientExceeds_iff {deploy price percent : ℚ} (hdeploy : 0 < deploy) :
    quotientExceeds (100 * (deploy - price)) deploy percent = true ↔
      price < deploy * (1 - percent / 100) := by
  rw [quotientExceeds, if_neg hdeploy.ne', decide_eq_true_eq, lt_div_iff₀ hdeploy]
  constructor
  · intro h
    linarith
  · intro h
    linarith

/-- What the handler of `waiting_to_buy` does, told from the delay and from whether the event
    shows a fall. -/
inductive WaitsToBuy (drop : Prop) (m : Sniper) (i : Input) (m' : Sniper) (out : List Effect) :
    Prop where
  | buys {amt : Amount} (hover : (m.ready i).DelayOver i) (hstate : m'.state = .buying amt 0)
  | skips (hwait : ¬ (m.ready i).DelayOver i) (hdrop : drop) (hstate : m'.state = .done)
      (hout : queuedActions out = [])
  | waits (hwait : ¬ (m.ready i).DelayOver i) (hdrop : ¬ drop)
      (hstate : m'.state = .waitingToBuy) (hstorage : m'.storage = m.ready i)

theorem ready_deployPrice (m : Sniper) (i : Input) :
    (m.ready i).deployPrice = m.storage.deployPrice := by
  obtain ⟨t, ht⟩ := ready_eq m i
  rw [ht]

theorem handle_waitingToBuy {m m' : Sniper} {i : Input} {out : List Effect}
    (hs : m.state = .waitingToBuy) (hprice : 0 < m.storage.deployPrice.price)
    (h : handle m i = some (m', out)) :
    WaitsToBuy (ShowsDrop m.storage.pool.id m.storage.deployPrice.price
      m.storage.snipingStrategyInstance.skipIfPriceDropsPercent i.event) m i m' out := by
  obtain ⟨-, hpool, hinst⟩ := ready_keeps m i
  have hdeploy := ready_deployPrice m i
  have hd := dispatch_waitingToBuy i hs
  simp only [SniperAgentState.waitingToBuy] at hd
  split at hd
  · next hover =>
      obtain ⟨hstate, -⟩ := handle_transition hd h
      exact .buys hover hstate
  · next hwait =>
      rw [hdeploy, hpool, hinst] at hd
      have hstays : ∀ {drop : Prop}, (m.ready i).dispatch i m.state = (m.ready i, .super) →
          ¬ drop → WaitsToBuy drop m i m' out := by
        intro drop hd hdrop
        obtain ⟨rfl, -⟩ := handle_stay hd (Or.inl rfl) h
        exact .waits hwait hdrop hs rfl
      split at hd
      · next u hu =>
          split at hd
          · next hfall =>
              obtain ⟨hstate, he⟩ := handle_transition hd h
              obtain ⟨-, rfl⟩ := Prod.mk.inj (Option.some.inj he)
              exact .skips hwait ⟨u, hu, hfall.1, (quotientExceeds_iff hprice).mp hfall.2⟩
                hstate rfl
          · next hfall =>
              refine hstays hd ?_
              rintro ⟨v, hv, hpool, hdrop⟩
              obtain rfl := Option.some.inj (hu.symm.trans hv)
              exact hfall ⟨hpool, (quotientExceeds_iff hprice).mpr hdrop⟩
      · next hu =>
          refine hstays hd ?_
          rintro ⟨v, hv, -⟩
          rw [hu] at hv
          cases hv

section Skips

variable (pool : RaydiumPool) (key : Keypair) (inst : SnipingStrategyInstance)
  (deployPrice : RaydiumPoolPriceUpdate) (now : Instant)

/-- A fall that this snipe should be dropped for. -/
abbrev Drops (i : Input) : Prop :=
  ShowsDrop pool.id deployPrice.price inst.skipIfPriceDropsPercent i.event

/-- A step in `waiting_to_buy` that enters `buying` follows no fall, nor is it one; and a
    fall ends the snipe without a purchase. -/
def SkipsDrops (past : List Input) (m : Sniper) (i : Input) : Prop :=
  m.state = .waitingToBuy → ∀ m' out, handle m i = some (m', out) →
    (isBuying m'.state = true → ∀ j ∈ past ++ [i], ¬ Drops pool inst deployPrice j) ∧
    (Drops pool inst deployPrice i → m'.state = .done ∧ queuedActions out = [])

variable {pool key inst deployPrice now}

/-- A snipe that still waits to buy is as it was created, and has seen no fall. -/
structure Untouched (pool : RaydiumPool) (inst : SnipingStrategyInstance)
    (deployPrice : RaydiumPoolPriceUpdate) (past : List Input) (m : Sniper) : Prop where
  pool_eq   : m.storage.pool = pool
  inst_eq   : m.storage.snipingStrategyInstance = inst
  deploy_eq : m.storage.deployPrice = deployPrice
  noDrop    : ∀ j ∈ past, ¬ Drops pool inst deployPrice j

theorem untouched_run (hprice : 0 < deployPrice.price) {past : List Input} {m : Sniper}
    {out : List Effect}
    (h : run handle (Sniper.new pool key inst deployPrice now) past = some (m, out)) :
    m.state = .waitingToBuy → Untouched pool inst deployPrice past m := by
  refine run_history (J := fun past m => m.state = .waitingToBuy →
    Untouched pool inst deployPrice past m) ?_ ?_ h
  · intro _
    exact ⟨rfl, rfl, rfl, fun j hj => absurd hj List.not_mem_nil⟩
  intro past m i m' out hJ hstep hs'
  have hs : m.state = .waitingToBuy := by
    rcases handle_turns hstep with ⟨target, -, hs, hturn⟩ | ⟨-, hs, -⟩
    · rw [hs] at hs'
      rw [hs'] at hturn
      have hlt : m.state.rank < 0 := hturn.enters rfl
      exact absurd hlt (Nat.not_lt_zero _)
    · rw [← hs]
      exact hs'
  obtain ⟨hpool, hinst, hdeploy, hnone⟩ := hJ hs
  have hcases := handle_waitingToBuy hs (by rw [hdeploy]; exact hprice) hstep
  rw [hpool, hinst, hdeploy] at hcases
  cases hcases with
  | buys _ hstate => rw [hs'] at hstate; cases hstate
  | skips _ _ hstate _ => rw [hs'] at hstate; cases hstate
  | waits _ hdrop _ hstorage =>
      obtain ⟨-, hp, hi⟩ := ready_keeps m i
      rw [← hstorage] at hp hi
      refine ⟨hp.trans hpool, hi.trans hinst, ?_, ?_⟩
      · rw [hstorage, ready_deployPrice, hdeploy]
      · intro j hj
        rcases List.mem_append.mp hj with hj | hj
        · exact hnone j hj
        · rw [List.mem_singleton.mp hj]
          exact hdrop

/-- **A LARGE FALL ENDS THE SNIPE**, and a snipe that buys has seen none, in every run from
    its creation, exactly if no event shows one when the delay is over. -/
theorem skips_iff (hprice : 0 < deployPrice.price) (is : List Input) :
    Throughout handle (SkipsDrops pool inst deployPrice)
        (Sniper.new pool key inst deployPrice now) is ↔
      Throughout handle (fun _ m i => m.state = .waitingToBuy → (m.ready i).DelayOver i →
        ¬ Drops pool inst deployPrice i) (Sniper.new pool key inst deployPrice now) is := by
  refine throughout_congr ?_
  intro past i m out hrun
  refine forall_congr' fun hs => ?_
  obtain ⟨hpool, hinst, hdeploy, hnone⟩ := untouched_run hprice hrun hs
  have hcases : ∀ {m' out}, handle m i = some (m', out) →
      WaitsToBuy (Drops pool inst deployPrice i) m i m' out := by
    intro m' out hstep
    have h := handle_waitingToBuy hs (by rw [hdeploy]; exact hprice) hstep
    rwa [hpool, hinst, hdeploy] at h
  constructor
  · intro hskips hover hdrop
    obtain ⟨⟨m', out'⟩, hstep⟩ : ∃ p, handle m i = some p := by
      have hd := dispatch_waitingToBuy i hs
      rw [waitingToBuy_over hover] at hd
      rw [handle, hd]
      exact ⟨_, rfl⟩
    have hdone := ((hskips m' out' hstep).2 hdrop).1
    cases hcases hstep with
    | buys _ hstate => rw [hdone] at hstate; cases hstate
    | skips hwait _ _ _ => exact hwait hover
    | waits hwait _ _ _ => exact hwait hover
  · intro hcond m' out' hstep
    cases hcases hstep with
    | buys hover hstate =>
        have hdrop := hcond hover
        refine ⟨?_, fun hd => absurd hd hdrop⟩
        intro _ j hj
        rcases List.mem_append.mp hj with hj | hj
        · exact hnone j hj
        · rw [List.mem_singleton.mp hj]
          exact hdrop
    | skips _ _ hstate hout =>
        refine ⟨?_, fun _ => ⟨hstate, hout⟩⟩
        intro hbuying
        rw [hstate] at hbuying
        cases hbuying
    | waits _ hdrop hstate _ =>
        refine ⟨?_, fun hd => absurd hd hdrop⟩
        intro hbuying
        rw [hstate] at hbuying
        cases hbuying

end Skips

/-- A price of a pool is reported. -/
def priceAt (now : Instant) (pool : Pubkey) (price : ℚ) : Input :=
  eventAt (.original (.blockchainEvent
    (.raydiumHeartbeatPriceUpdate ⟨pool, price, 0, 0, now⟩))) now ⟨1⟩

/-- A snipe that waits ten milliseconds and skips falls of more than half the price. -/
def patientInstance : SnipingStrategyInstance := ⟨1, 1/5, 1/5, 60, 10, 50⟩

/-- Deployed at a price of one; a fall to a third is reported while the snipe waits. -/
theorem early_fall_is_skipped :
    Throughout handle (SkipsDrops default patientInstance ⟨default, 1, 0, 0, 0⟩)
      (Sniper.new default ⟨⟨1⟩, 1⟩ patientInstance ⟨default, 1, 0, 0, 0⟩ 0)
      [priceAt 5 default (1/3)] := by
  refine (skips_iff (by norm_num) _).mpr ?_
  refine (throughout_cons ..).mpr ⟨?_, fun s' out _ => throughout_nil _ _⟩
  intro _ hover
  exact absurd hover (by decide)

/-- **A FALL AT THE EVENT THAT ENDS THE DELAY IS BOUGHT.** -/
theorem late_fall_is_bought :
    ¬ ∀ (pool : RaydiumPool) (key : Keypair) (inst : SnipingStrategyInstance)
      (deployPrice : RaydiumPoolPriceUpdate) (now : Instant) (is : List Input),
      0 < deployPrice.price → Throughout handle (SkipsDrops pool inst deployPrice)
        (Sniper.new pool key inst deployPrice now) is := by
  intro hclaim
  have h := hclaim default ⟨⟨1⟩, 1⟩ patientInstance ⟨default, 1, 0, 0, 0⟩ 0
    [beatAt 0 ⟨1⟩, priceAt 11 default (1/3)] (by norm_num)
  obtain ⟨hdone, -⟩ := (h [beatAt 0 ⟨1⟩] (priceAt 11 default (1/3)) _ _ (List.prefix_refl _)
    rfl rfl _ _ rfl).2 ⟨_, rfl, rfl, by norm_num [patientInstance]⟩
  cases hdone

-- ── Prices after the purchase ───────────────────────────────────────────────

/-- Whether the event is an update for the pool, with a price like this. -/
def Reports (pool : Pubkey) (P : ℚ → Prop) (event : SolanaStrategyEvent) : Prop :=
  ∃ u, priceUpdateOf event = some u ∧ u.pool = pool ∧ P u.price

/-- A sale is due: the price has moved up by more than the fraction `u` of `b`, or down by
    more than the fraction `d`. -/
def MovedOut (b u d p : ℚ) : Prop := b * (1 + u) < p ∨ p < b * (1 - d)

/-- The two branches of `waiting_to_sell` that sell. -/
def AtStopLoss (a : SniperAgentState) (p : ℚ) : Prop :=
  p < a.buyPrice.price * a.snipingStrategyInstance.stopLossPercentMoveDown

def AtTakeProfit (a : SniperAgentState) (p : ℚ) : Prop :=
  ¬ AtStopLoss a p ∧ p > a.buyPrice.price * a.snipingStrategyInstance.takeProfitPercentMoveUp

/-- The exit horizon is over. -/
def SniperAgentState.HorizonOver (a : SniperAgentState) (i : Input) : Prop :=
  a.snipingStrategyInstance.forceExitHorizonS % 2 ^ 64 < (a.secondsHeld i : Nat)

instance (a : SniperAgentState) (i : Input) : Decidable (a.HorizonOver i) :=
  inferInstanceAs (Decidable (_ < _))

/-- **THE HANDLER OF `waiting_to_sell`** before the horizon sells in one of the two branches,
    or stays and notes the time. -/
theorem waitingToSell_before {a : SniperAgentState} {i : Input} (hwithin : ¬ a.HorizonOver i) :
    (Reports a.pool.id (fun p => AtStopLoss a p ∨ AtTakeProfit a p) i.event ∧
      a.waitingToSell i = (a, .transition (.selling .max 0))) ∨
    (¬ Reports a.pool.id (fun p => AtStopLoss a p ∨ AtTakeProfit a p) i.event ∧
      a.waitingToSell i = (a.noteTime i, .super)) := by
  have hskip : a.waitingToSell i = _ := if_neg hwithin
  cases hu : priceUpdateOf i.event with
  | none =>
      rw [hu] at hskip
      refine Or.inr ⟨?_, hskip⟩
      rintro ⟨u, hu', -⟩
      rw [hu] at hu'
      cases hu'
  | some u =>
      rw [hu] at hskip
      by_cases hpool : u.pool = a.pool.id
      · by_cases hstop : AtStopLoss a u.price
        · refine Or.inl ⟨⟨u, hu, hpool, Or.inl hstop⟩, hskip.trans ?_⟩
          exact if_pos ⟨hpool, hstop⟩
        · have hnext := hskip.trans (if_neg fun h => hstop h.2)
          by_cases htake : u.price >
              a.buyPrice.price * a.snipingStrategyInstance.takeProfitPercentMoveUp
          · refine Or.inl ⟨⟨u, hu, hpool, Or.inr ⟨hstop, htake⟩⟩, hnext.trans ?_⟩
            exact if_pos ⟨hpool, htake⟩
          · refine Or.inr ⟨?_, hnext.trans (if_neg fun h => htake h.2)⟩
            rintro ⟨v, hv, -, hbranch⟩
            obtain rfl := Option.some.inj (hu.symm.trans hv)
            rcases hbranch with hbranch | hbranch
            · exact hstop hbranch
            · exact htake hbranch.2
      · refine Or.inr ⟨?_, (hskip.trans (if_neg fun h => hpool h.1)).trans
          (if_neg fun h => hpool h.1)⟩
        rintro ⟨v, hv, hpool', -⟩
        obtain rfl := Option.some.inj (hu.symm.trans hv)
        exact hpool hpool'

/-- A price at which the thresholds `b * d` and `b * u` decide as the moves do. -/
inductive ThresholdsAgree (b u d p : ℚ) : Prop where
  | up (h : b * (1 + u) < p)
  | down (hmove : p < b * (1 - d)) (hthreshold : p < b * d)
  | between (hmove : b * (1 - d) ≤ p) (hstop : b * d ≤ p) (htake : p ≤ b * u)

/-- **AT ONE PRICE**: a sale is decided on if one is due, at a gain if it takes profit and at
    a loss if it stops one, exactly if the thresholds agree with the moves. -/
theorem thresholds_agree_iff {b u d p : ℚ} (hb : 0 < b) (hu : 0 < u) (hd : 0 < d) (hd1 : d < 1) :
    ((p < b * d ∨ (¬ p < b * d ∧ p > b * u) ↔ MovedOut b u d p) ∧
      (¬ p < b * d ∧ p > b * u → b ≤ p) ∧ (p < b * d → p ≤ b)) ↔ ThresholdsAgree b u d p := by
  have hup : b * (1 + u) = b + b * u := mul_one_add b u
  have hdown : b * (1 - d) = b - b * d := mul_one_sub b d
  have hbu : 0 < b * u := mul_pos hb hu
  have hbd : b * d < b := mul_lt_of_lt_one_right hb hd1
  have hbd0 : 0 < b * d := mul_pos hb hd
  rw [MovedOut, hup, hdown]
  constructor
  · rintro ⟨hdecides, hgain, -⟩
    by_cases hmoved : b + b * u < p
    · exact .up (hup ▸ hmoved)
    · by_cases hfall : p < b - b * d
      · refine .down (hdown ▸ hfall) ?_
        by_contra hstop
        rcases hdecides.mpr (Or.inr hfall) with h | h
        · exact hstop h
        · have hle := hgain h
          linarith
      · have hstays : ¬ (p < b * d ∨ (¬ p < b * d ∧ p > b * u)) := by
          intro h
          rcases hdecides.mp h with h | h
          · exact hmoved h
          · exact hfall h
        rw [not_or, not_and] at hstays
        exact .between (hdown ▸ not_lt.mp hfall) (not_lt.mp hstays.1)
          (not_lt.mp (hstays.2 hstays.1))
  · intro h
    refine ⟨?_, ?_, fun hstop => (hstop.trans hbd).le⟩
    · cases h with
      | up hmove =>
          rw [hup] at hmove
          refine iff_of_true ?_ (Or.inl hmove)
          exact Or.inr ⟨by linarith, by linarith⟩
      | down hmove hthreshold =>
          rw [hdown] at hmove
          exact iff_of_true (Or.inl hthreshold) (Or.inr hmove)
      | between hmove hstop htake =>
          rw [hdown] at hmove
          refine iff_of_false ?_ ?_
          · rintro (hlt | ⟨-, hlt⟩)
            · exact absurd hlt (not_lt.mpr hstop)
            · exact absurd hlt (not_lt.mpr htake)
          · rintro (hlt | hlt)
            · linarith
            · exact absurd hlt (not_lt.mpr hmove)
    · rintro ⟨hstop, htake⟩
      cases h with
      | up hmove =>
          rw [hup] at hmove
          linarith
      | down _ hthreshold => exact absurd hthreshold hstop
      | between _ _ hle => exact absurd htake (not_lt.mpr hle)

section Sells

/-- With `a` bought, a step in `waiting_to_sell` before the horizon leaves it exactly on an
    update at which a sale is due, takes profit at no loss and stops a loss at no gain. -/
def SellsWhenDue (a : SniperAgentState) (_ : List Input) (m : Sniper) (i : Input) : Prop :=
  m.state = .waitingToSell → ¬ (m.ready i).HorizonOver i →
    ∀ m' out, handle m i = some (m', out) →
      (m'.state ≠ .waitingToSell ↔ Reports a.pool.id
        (MovedOut a.buyPrice.price a.snipingStrategyInstance.takeProfitPercentMoveUp
          a.snipingStrategyInstance.stopLossPercentMoveDown) i.event) ∧
      (∀ p, Reports a.pool.id (fun q => q = p) i.event →
        (AtTakeProfit m.storage p → a.buyPrice.price ≤ p) ∧
        (AtStopLoss m.storage p → p ≤ a.buyPrice.price))

/-- The prices that a step in `waiting_to_sell` handles before the horizon. -/
def HandlesAgreeing (a : SniperAgentState) (_ : List Input) (m : Sniper) (i : Input) : Prop :=
  m.state = .waitingToSell → ¬ (m.ready i).HorizonOver i →
    ∀ p, Reports a.pool.id (fun q => q = p) i.event →
      ThresholdsAgree a.buyPrice.price a.snipingStrategyInstance.takeProfitPercentMoveUp
        a.snipingStrategyInstance.stopLossPercentMoveDown p

/-- What `waiting_to_sell` compares prices with. -/
structure SamePosition (a a' : SniperAgentState) : Prop where
  pool     : a'.pool = a.pool
  inst     : a'.snipingStrategyInstance = a.snipingStrategyInstance
  buyPrice : a'.buyPrice = a.buyPrice

theorem samePosition_ready (m : Sniper) (i : Input) :
    SamePosition m.storage (m.ready i) := by
  obtain ⟨t, ht⟩ := ready_eq m i
  rw [ht]
  exact ⟨rfl, rfl, rfl⟩

theorem samePosition_noteTime (a : SniperAgentState) (i : Input) :
    SamePosition a (a.noteTime i) := by
  obtain ⟨t, ht⟩ := noteTime_eq a i
  rw [ht]
  exact ⟨rfl, rfl, rfl⟩

theorem SamePosition.trans {a b c : SniperAgentState} (h₁ : SamePosition a b)
    (h₂ : SamePosition b c) : SamePosition a c where
  pool := h₂.pool.trans h₁.pool
  inst := h₂.inst.trans h₁.inst
  buyPrice := h₂.buyPrice.trans h₁.buyPrice

variable {m₀ m : Sniper}

/-- The position does not change while it is waited for. -/
theorem samePosition_run (hs₀ : m₀.state = .waitingToSell) {past : List Input}
    {out : List Effect} (h : run handle m₀ past = some (m, out)) (hs : m.state = .waitingToSell) :
    SamePosition m₀.storage m.storage := by
  have hJ : 2 ≤ m.state.rank ∧
      (m.state = .waitingToSell → SamePosition m₀.storage m.storage) := by
    refine run_history (J := fun _ m => 2 ≤ m.state.rank ∧
      (m.state = .waitingToSell → SamePosition m₀.storage m.storage)) ?_ ?_ h
    · rw [hs₀]
      exact ⟨Nat.le_refl 2, fun _ => ⟨rfl, rfl, rfl⟩⟩
    · rintro past m i m' out ⟨hrank, hsame⟩ hstep
      have hrank' : m.state.rank ≤ m'.state.rank := by
        rcases handle_turns hstep with ⟨target, -, hs, hturn⟩ | ⟨-, hs, -⟩
        · rw [hs]
          exact hturn.rank_le
        · rw [hs]
      refine ⟨hrank.trans hrank', ?_⟩
      intro hs'
      have hs : m.state = .waitingToSell := by
        rcases handle_turns hstep with ⟨target, -, hs, hturn⟩ | ⟨-, hs, -⟩
        · rw [hs] at hs'
          rw [hs'] at hturn
          exact absurd (hturn.enters rfl) (Nat.not_lt.mpr hrank)
        · rw [← hs]
          exact hs'
      rw [handle_waitingToSell hs hs' hstep]
      exact ((hsame hs).trans (samePosition_ready m i)).trans (samePosition_noteTime _ i)
  exact hJ.2 hs

/-- An event reports one price. -/
theorem reports_iff {pool : Pubkey} {P : ℚ → Prop} {p : ℚ} {event : SolanaStrategyEvent}
    (h : Reports pool (fun q => q = p) event) : Reports pool P event ↔ P p := by
  obtain ⟨u, hu, hpool, rfl⟩ := h
  constructor
  · rintro ⟨v, hv, -, hP⟩
    obtain rfl := Option.some.inj (hu.symm.trans hv)
    exact hP
  · intro hP
    exact ⟨u, hu, hpool, hP⟩

/-- A step before the horizon, told from the price that the event reports. -/
theorem handle_before {i : Input} (hs : m.state = .waitingToSell)
    (hwithin : ¬ (m.ready i).HorizonOver i) :
    ∃ m' out, handle m i = some (m', out) ∧ (m'.state ≠ .waitingToSell ↔
      Reports m.storage.pool.id (fun p => AtStopLoss m.storage p ∨ AtTakeProfit m.storage p)
        i.event) := by
  have hd := dispatch_waitingToSell i hs
  obtain ⟨hpool, hinst, hbuy⟩ := samePosition_ready m i
  have hsame : Reports (m.ready i).pool.id
        (fun p => AtStopLoss (m.ready i) p ∨ AtTakeProfit (m.ready i) p) i.event ↔
      Reports m.storage.pool.id (fun p => AtStopLoss m.storage p ∨ AtTakeProfit m.storage p)
        i.event := by
    simp only [AtStopLoss, AtTakeProfit, hpool, hinst, hbuy]
  rcases waitingToSell_before hwithin with ⟨hreports, heq⟩ | ⟨hreports, heq⟩
  · refine ⟨⟨.selling .max 0, ((m.ready i).sell i .max).1, true⟩, ((m.ready i).sell i .max).2,
      ?_, iff_of_true State.noConfusion (hsame.mp hreports)⟩
    rw [handle, hd, heq]
    rfl
  · refine ⟨⟨m.state, (m.ready i).noteTime i, true⟩, [], ?_,
      iff_of_false (fun hne => hne hs) fun h => hreports (hsame.mpr h)⟩
    rw [handle, hd, heq]

/-- **THE THRESHOLDS**: for a position bought at a positive price, with a gain `u > 0` to
    take and a loss `0 < d < 1` to stop, every step before the horizon sells when a sale is
    due, exactly if every price handled is one at which `b * d` and `b * u` decide as
    `b * (1 - d)` and `b * (1 + u)` do. -/
theorem sells_iff (hs₀ : m₀.state = .waitingToSell) (hb : 0 < m₀.storage.buyPrice.price)
    (hu : 0 < m₀.storage.snipingStrategyInstance.takeProfitPercentMoveUp)
    (hd : 0 < m₀.storage.snipingStrategyInstance.stopLossPercentMoveDown)
    (hd1 : m₀.storage.snipingStrategyInstance.stopLossPercentMoveDown < 1) (is : List Input) :
    Throughout handle (SellsWhenDue m₀.storage) m₀ is ↔
      Throughout handle (HandlesAgreeing m₀.storage) m₀ is := by
  refine throughout_congr ?_
  intro past i m out hrun
  refine forall_congr' fun hs => forall_congr' fun hwithin => ?_
  obtain ⟨hpool, hinst, hbuy⟩ := samePosition_run hs₀ hrun hs
  obtain ⟨m', out', hstep, hleaves⟩ := handle_before hs hwithin
  have hstop : ∀ p, AtStopLoss m.storage p ↔ p < m₀.storage.buyPrice.price *
      m₀.storage.snipingStrategyInstance.stopLossPercentMoveDown := by
    intro p
    rw [AtStopLoss, hbuy, hinst]
  have htake : ∀ p, AtTakeProfit m.storage p ↔ ¬ p < m₀.storage.buyPrice.price *
      m₀.storage.snipingStrategyInstance.stopLossPercentMoveDown ∧
      p > m₀.storage.buyPrice.price *
        m₀.storage.snipingStrategyInstance.takeProfitPercentMoveUp := by
    intro p
    rw [AtTakeProfit, hstop, hbuy, hinst]
  simp only [hpool, hstop, htake] at hleaves
  constructor
  · intro hsells p hp
    obtain ⟨hdue, hsides⟩ := hsells m' out' hstep
    rw [hleaves, reports_iff hp, reports_iff hp] at hdue
    obtain ⟨hgain, hloss⟩ := hsides p hp
    rw [htake] at hgain
    rw [hstop] at hloss
    exact (thresholds_agree_iff hb hu hd hd1).mp ⟨hdue, hgain, hloss⟩
  · intro hagree m'' out'' hstep'
    obtain ⟨rfl, -⟩ := Prod.mk.inj (Option.some.inj (hstep.symm.trans hstep'))
    refine ⟨?_, ?_⟩
    · rw [hleaves]
      constructor
      · rintro ⟨u, hu', hown, hsale⟩
        have hp : Reports m₀.storage.pool.id (fun q => q = u.price) i.event :=
          ⟨u, hu', hown, rfl⟩
        exact ⟨u, hu', hown, ((thresholds_agree_iff hb hu hd hd1).mpr (hagree _ hp)).1.mp hsale⟩
      · rintro ⟨u, hu', hown, hdue⟩
        have hp : Reports m₀.storage.pool.id (fun q => q = u.price) i.event :=
          ⟨u, hu', hown, rfl⟩
        exact ⟨u, hu', hown, ((thresholds_agree_iff hb hu hd hd1).mpr (hagree _ hp)).1.mpr hdue⟩
    · intro p hp
      rw [htake, hstop]
      exact ((thresholds_agree_iff hb hu hd hd1).mpr (hagree p hp)).2

end Sells

/-- Bought at a price of one, with this stop-loss and take-profit. -/
def boughtAtOne (d u : ℚ) : Sniper :=
  ⟨.waitingToSell, ⟨default, ⟨⟨1⟩, 1⟩, ⟨1, d, u, 60, 10, 50⟩, .new 0, 0, 0,
    ⟨default, 1, 0, 0, 0⟩, ⟨default, 1, 0, 0, 0⟩, 0⟩, true⟩

/-- With a loss of a half and a gain of twice the price, the first price is kept and the
    fourfold one sold. -/
theorem fourfold_price_sells :
    Throughout handle (SellsWhenDue (boughtAtOne (1/2) 2).storage) (boughtAtOne (1/2) 2)
      [priceAt 5 default 1, priceAt 9 default 4] := by
  have hprice : ∀ {now pool p q}, Reports pool (fun r => r = q) (priceAt now pool p).event →
      q = p := by
    rintro now pool p q ⟨u, hu, -, rfl⟩
    rw [← Option.some.inj hu]
  refine (sells_iff rfl ?_ ?_ ?_ ?_ _).mpr ?_
  · norm_num [boughtAtOne]
  · norm_num [boughtAtOne]
  · norm_num [boughtAtOne]
  · norm_num [boughtAtOne]
  · refine (throughout_cons ..).mpr ⟨?_, fun m _ _ => (throughout_cons ..).mpr
      ⟨?_, fun _ _ _ => throughout_nil _ _⟩⟩
    · intro _ _ p hp
      rw [hprice hp]
      exact .between (by norm_num [boughtAtOne]) (by norm_num [boughtAtOne])
        (by norm_num [boughtAtOne])
    · intro _ _ p hp
      rw [hprice hp]
      exact .up (by norm_num [boughtAtOne])

/-- **WITH THE FRACTIONS OF THE EXAMPLE CONFIGURATION**, `0.2` each way, the price paid is
    already above the take-profit. -/
theorem unmoved_price_sells :
    ¬ ∀ (m₀ : Sniper) (is : List Input), m₀.state = .waitingToSell →
      0 < m₀.storage.buyPrice.price →
      0 < m₀.storage.snipingStrategyInstance.takeProfitPercentMoveUp →
      0 < m₀.storage.snipingStrategyInstance.stopLossPercentMoveDown →
      m₀.storage.snipingStrategyInstance.stopLossPercentMoveDown < 1 →
      Throughout handle (SellsWhenDue m₀.storage) m₀ is := by
  intro hclaim
  have h := hclaim (boughtAtOne (1/5) (1/5)) [priceAt 5 default 1] rfl
    (by norm_num [boughtAtOne]) (by norm_num [boughtAtOne]) (by norm_num [boughtAtOne])
    (by norm_num [boughtAtOne])
  obtain ⟨m', out, hstep, hleaves⟩ :=
    handle_before (m := boughtAtOne (1/5) (1/5)) (i := priceAt 5 default 1) rfl (by decide)
  have hdue := (h [] (priceAt 5 default 1) _ _ (List.prefix_refl _) rfl rfl (by decide) m' out
    hstep).1
  have hsells : Reports default (fun p => AtStopLoss (boughtAtOne (1/5) (1/5)).storage p ∨
      AtTakeProfit (boughtAtOne (1/5) (1/5)).storage p) (priceAt 5 default 1).event :=
    ⟨_, rfl, rfl, Or.inr ⟨by norm_num [AtStopLoss, boughtAtOne], by norm_num [boughtAtOne]⟩⟩
  obtain ⟨u, hu, -, hmoved⟩ := hdue.mp (hleaves.mpr hsells)
  rw [← Option.some.inj hu] at hmoved
  norm_num [MovedOut, boughtAtOne] at hmoved

end FoxfireSnipe
