import FoxfireSniper.VolumeStrategyProofs

/-! # Tranches — whose agents buy?

    `fund` pushes its new agents to the list that it finds.  The list is empty there if
    the state before cleared it: `sweeping`, `collecting_tokens` and `collecting_sol` do,
    by their exit action.  `transferring_token_to_sellers` does not, and when the
    transfer fails it leads to `offloading_inventory` and from there to `fund`, with the
    sellers still in the list.

    * **`trading`** is the volume strategy with, as a history variable, the agents that
      the last `fund` created and those that were created before.
    * **`buying_has_its_tranche`**: as long as no failed transfer leaves sellers behind,
      the agents that buy are those that the last `fund` created. -/

namespace FoxfireVolume

open FoxfireTypes FoxfireAttempt FoxfireAgent FoxfireFunding MachineRun

/-- The agents that the last `initialize_agents_with_sol` created, and all agents that
    existed before it. -/
structure Tranche where
  earlier : List AgentRef
  created : List AgentRef

/-- A step that enters `fund` opens a tranche. -/
def noteTranche (t : Tranche) (v v' : VolumeStrategy) : Tranche :=
  if v'.state = .fund ∧ v.state ≠ .fund then
    ⟨List.range v.heap.length, createdRefs v.heap v'.heap⟩
  else t

/-- The strategy together with its current tranche. -/
abbrev trading : Step (VolumeStrategy × Tranche) Input Effect :=
  tracked volume fun t v _ v' _ => noteTranche t v v'

/-- A new strategy, before its first tranche. -/
def opened (inst : VolumeInstance) (pool : RaydiumPool) (key : Keypair) (now : Instant) :
    VolumeStrategy × Tranche :=
  (VolumeStrategy.new inst pool key now, ⟨[], []⟩)

/-- The main wallet failed to supply the sellers. -/
def SupplyFailed (v : VolumeStrategy) : Prop :=
  v.state = .transferringTokenToSellers ∧
    ((∃ msg, v.mainWallet.state = .error msg) ∨ v.mainWallet.state = .deactivated)

/-- No event finds the supply failed while there are sellers. -/
def NoSellersLeft (t : VolumeStrategy × Tranche) : Input → Prop
  | .event _ _ _ => SupplyFailed t.1 → t.1.agents = []
  | .task _ _    => True

/-- The agents of `v` are those of the tranche, and none of them is older. -/
def IsTranche (v : VolumeStrategy) (t : Tranche) : Prop :=
  v.agents = t.created ∧ ∀ r ∈ v.agents, r ∉ t.earlier

/-- The states that lead to `fund` have no agents, and `fund` has those it created. -/
structure Tidy (t : VolumeStrategy × Tranche) : Prop where
  initial : t.1.initialized = false → t.1.state = .sweeping
  cleared : t.1.state = .offloadingInventory ∨ t.1.state = .sleeping → t.1.agents = []
  funded  : t.1.state = .fund → IsTranche t.1 t.2

-- ── Steps ───────────────────────────────────────────────────────────────────

/-- A step that does not enter `fund` leaves the tranche. -/
theorem noteTranche_of_not_fund {t : Tranche} {v v' : VolumeStrategy}
    (h : v'.state = .fund → v.state = .fund) : noteTranche t v v' = t := by
  rw [noteTranche, if_neg]
  rintro ⟨hf, hne⟩
  exact hne (h hf)

/-- What was created on a heap was not on it before. -/
theorem notMem_range_of_mem_createdRefs {heap heap' : List Agent} {r : AgentRef}
    (h : r ∈ createdRefs heap heap') : r ∉ List.range heap.length := by
  rw [createdRefs, newRefs, List.mem_range'_1] at h
  intro hmem
  exact absurd (List.mem_range.mp hmem) (Nat.not_lt.mpr h.1)

/-- Entering `fund` with no agents: the tranche is what it creates. -/
theorem isTranche_of_fund {v v' : VolumeStrategy} {t : Tranche} (hne : v.state ≠ .fund)
    (hs : v'.state = .fund) (hleft : v.leaves = [])
    (hent : Entered v.leaves v.heap v.inst.id v' .fund) :
    IsTranche v' (noteTranche t v v') := by
  rw [noteTranche, if_pos ⟨hs, hne⟩]
  cases hent with
  | kept hs' => exact absurd rfl hs'
  | funded hagents _ =>
      rw [hleft, List.nil_append] at hagents
      refine ⟨hagents, ?_⟩
      intro r hr
      rw [hagents] at hr
      exact notMem_range_of_mem_createdRefs hr

/-- The state that a step enters has no agents, if the one before cleared them and the
    entry action keeps the list. -/
theorem agents_nil_of_entered {v v' : VolumeStrategy} {s : State}
    (hleft : v.leaves = []) (hent : Entered v.leaves v.heap v.inst.id v' s)
    (hs : s = .offloadingInventory ∨ s = .sleeping) : v'.agents = [] := by
  cases hent with
  | kept _ hagents => rw [hagents, hleft]
  | loaded => rcases hs with hs | hs <;> cases hs
  | funded => rcases hs with hs | hs <;> cases hs
  | supplied => rcases hs with hs | hs <;> cases hs

theorem leaves_nil_of_clears {v : VolumeStrategy} (h : v.state.clears = true) :
    v.leaves = [] := by
  rw [VolumeStrategy.leaves, if_pos h]

theorem leaves_nil_of_agents {v : VolumeStrategy} (h : v.agents = []) : v.leaves = [] := by
  rw [VolumeStrategy.leaves, h, ite_self]

/-- **EVERY EDGE KEEPS THE LIST TIDY**, but the one that a failed transfer takes with
    sellers in the list. -/
theorem tidy_moves {v v' : VolumeStrategy} {t : Tranche} (hI : Tidy (v, t))
    (hinit : v'.initialized = true) (hC : SupplyFailed v → v.agents = [])
    (hedge : v.EdgeTo v'.state)
    (hent : Entered v.leaves v.heap v.inst.id v' v'.state) :
    Tidy (v', noteTranche t v v') := by
  have hstart : v'.initialized = false → v'.state = .sweeping := by
    intro h
    rw [hinit] at h
    cases h
  -- The target is none of the three states the invariant speaks of.
  have hother : v'.state ≠ .offloadingInventory → v'.state ≠ .sleeping →
      v'.state ≠ .fund → Tidy (v', noteTranche t v v') := by
    intro h₁ h₂ h₃
    refine ⟨hstart, ?_, fun h => absurd h h₃⟩
    rintro (h | h)
    · exact absurd h h₁
    · exact absurd h h₂
  -- The target is entered with an empty list.
  have hclear : v.leaves = [] → v'.state = .offloadingInventory ∨ v'.state = .sleeping →
      Tidy (v', noteTranche t v v') := by
    intro hleft hs
    refine ⟨hstart, fun _ => agents_nil_of_entered hleft hent hs, ?_⟩
    intro hf
    rw [hf] at hs
    rcases hs with hs | hs <;> cases hs
  have hfund : v.state ≠ .fund → v.agents = [] → v'.state = .fund →
      Tidy (v', noteTranche t v v') := by
    intro hne hnil hs
    refine ⟨hstart, ?_, fun _ => ?_⟩
    · intro h
      rw [hs] at h
      rcases h with h | h <;> cases h
    · rw [hs] at hent
      exact isTranche_of_fund hne hs (leaves_nil_of_agents hnil) hent
  rw [VolumeStrategy.EdgeTo] at hedge
  generalize hv : v.state = s at hedge
  generalize hv' : v'.state = s' at hedge
  have hclears : s.clears = true → v.leaves = [] := by
    intro h
    exact leaves_nil_of_clears (by rw [hv]; exact h)
  cases hedge with
  | swept => exact hclear (hclears rfl) (Or.inl hv')
  | offloaded =>
      refine hfund ?_ (hI.cleared (Or.inl hv)) hv'
      rw [hv]
      intro h
      cases h
  | supplyFailed hw =>
      exact hclear (leaves_nil_of_agents (hC ⟨hv, hw⟩)) (Or.inl hv')
  | solCollected => exact hclear (hclears rfl) (Or.inr hv')
  | awake =>
      refine hfund ?_ (hI.cleared (Or.inr hv)) hv'
      rw [hv]
      intro h
      cases h
  | funded | fundingFailed | bought | buyingFailed | tokensCollected | collectionFailed
  | supplied | sold | saleFailed | solFailed =>
      apply hother <;> (rw [hv']; intro h; cases h)

/-- A step that neither moves nor changes the list keeps it tidy. -/
theorem tidy_stays {v v' : VolumeStrategy} {t : Tranche} (hI : Tidy (v, t))
    (hinit : v'.initialized = false → v.initialized = false) (hstate : v'.state = v.state)
    (hagents : v'.agents = v.agents) : Tidy (v', noteTranche t v v') := by
  rw [noteTranche_of_not_fund (fun h => hstate.symm.trans h)]
  refine ⟨?_, ?_, ?_⟩
  · intro h
    show v'.state = _
    rw [hstate]
    exact hI.initial (hinit h)
  · show v'.state = _ ∨ v'.state = _ → v'.agents = _
    rw [hstate, hagents]
    exact hI.cleared
  · show v'.state = _ → IsTranche v' t
    rw [hstate, IsTranche, hagents]
    exact hI.funded

/-- The first event finds the machine in `sweeping`, and leaves it there or in
    `offloading_inventory`. -/
theorem not_fund_of_sweeping {v v' : VolumeStrategy} (hs : v.state = .sweeping)
    (h : Handled v v') : v'.state ≠ .fund := by
  cases h with
  | stays hstate => rw [hstate, hs]; intro h; cases h
  | moves hedge =>
      rw [VolumeStrategy.EdgeTo, hs] at hedge
      intro hf
      rw [hf] at hedge
      cases hedge

theorem tidy_handled {v v' : VolumeStrategy} {t : Tranche} (hI : Tidy (v, t))
    (hinit : v'.initialized = true) (hC : SupplyFailed v → v.agents = [])
    (h : Handled v v') : Tidy (v', noteTranche t v v') := by
  cases h with
  | stays hstate hagents =>
      refine tidy_stays hI ?_ hstate hagents
      intro h
      rw [hinit] at h
      cases h
  | moves hedge hent => exact tidy_moves hI hinit hC hedge hent

theorem tidy_step {v v' : VolumeStrategy} {t : Tranche} {i : Input} {out : List Effect}
    (hI : Tidy (v, t)) (hC : NoSellersLeft (v, t) i) (h : volume v i = some (v', out)) :
    Tidy (v', noteTranche t v v') := by
  obtain ⟨-, hout⟩ := step_cases h
  cases hout with
  | quiet hinit hstate hagents =>
      exact tidy_stays hI (fun h => hinit.symm.trans h) hstate hagents
  | handled hev _ hinit' hh =>
      rw [hev] at hC
      exact tidy_handled hI hinit' hC hh
  | started _ hinit hinit' _ hstate _ _ _ hh =>
      -- The machine is in `sweeping`, of which the invariant says nothing.
      have hs : v.state = .sweeping := hI.initial hinit
      have hs₁ := hstate.trans hs
      have htidy : Tidy (_, t) := ⟨fun _ => hs₁, ?_, ?_⟩
      · have hmoved := tidy_handled htidy hinit' ?_ hh
        · rw [noteTranche_of_not_fund (fun h => absurd h (not_fund_of_sweeping hs₁ hh))] at hmoved
          rw [noteTranche_of_not_fund (fun h => absurd h (not_fund_of_sweeping hs₁ hh))]
          exact hmoved
        · rintro ⟨hf, -⟩
          rw [hs₁] at hf
          cases hf
      · rintro (h | h)
        · exact absurd (hs₁.symm.trans h) (fun h => by cases h)
        · exact absurd (hs₁.symm.trans h) (fun h => by cases h)
      · intro h
        exact absurd (hs₁.symm.trans h) (fun h => by cases h)

theorem tidy_reach {inst : VolumeInstance} {pool : RaydiumPool} {key : Keypair}
    {now : Instant} {t : VolumeStrategy × Tranche}
    (h : Reach trading NoSellersLeft (opened inst pool key now) t) : Tidy t := by
  refine h.invariant ⟨fun _ => rfl, fun _ => rfl, ?_⟩ ?_
  · intro hf
    cases hf
  · intro s i s' out hI hC hs
    obtain ⟨hstep, hnote⟩ := tracked_eq_some hs
    have htidy := tidy_step (t := s.2) hI hC hstep
    rw [← hnote] at htidy
    exact htidy

/-- `buying` is entered from `fund`, with the agents that are there. -/
theorem enters_buying {v v' : VolumeStrategy} (h : Handled v v') (hne : v.state ≠ .buying)
    (hbuy : v'.state = .buying) : v.state = .fund ∧ v'.agents = v.agents := by
  cases h with
  | stays hstate => exact absurd (hstate.symm.trans hbuy) hne
  | moves hedge hent =>
      rw [hbuy] at hent
      rw [VolumeStrategy.EdgeTo, hbuy] at hedge
      generalize hv : v.state = s at hedge
      cases hedge with
      | funded =>
          cases hent with
          | kept _ hagents =>
              refine ⟨rfl, hagents.trans ?_⟩
              rw [VolumeStrategy.leaves, hv]
              rfl

/-- **ONLY ITS OWN TRANCHE BUYS.**  In every run in which no failed transfer leaves
    sellers behind, each step that enters `buying` finds exactly the agents that the
    `fund` just left created, and none that existed before. -/
theorem buying_has_its_tranche {inst : VolumeInstance} {pool : RaydiumPool} {key : Keypair}
    {now : Instant} {t t' : VolumeStrategy × Tranche} {i : Input} {out : List Effect}
    (hreach : Reach trading NoSellersLeft (opened inst pool key now) t)
    (hstep : trading t i = some (t', out))
    (hne : t.1.state ≠ .buying) (hbuy : t'.1.state = .buying) :
    t.1.state = .fund ∧ IsTranche t'.1 t'.2 := by
  have htidy := tidy_reach hreach
  obtain ⟨hs, hnote⟩ := tracked_eq_some hstep
  obtain ⟨-, hout⟩ := step_cases hs
  rw [noteTranche_of_not_fund (fun h => by rw [hbuy] at h; cases h)] at hnote
  cases hout with
  | quiet _ hstate => exact absurd (hstate.symm.trans hbuy) hne
  | handled _ _ _ hh =>
      obtain ⟨hfund, hagents⟩ := enters_buying hh hne hbuy
      refine ⟨hfund, ?_⟩
      rw [hnote, IsTranche, hagents]
      exact htidy.funded hfund
  | started _ hinit _ _ hstate _ _ _ hh =>
      have hs₁ := hstate.trans (htidy.initial hinit)
      obtain ⟨hfund, -⟩ := enters_buying hh (fun h => by rw [hs₁] at h; cases h) hbuy
      rw [hs₁] at hfund
      cases hfund

-- ── A tranche with sellers in it ────────────────────────────────────────────

/-- A strategy with one buyer and one seller, whose agents keep no tokens. -/
def smallVolume : VolumeStrategy × Tranche :=
  opened ⟨⟨1, 1, 1, 1, 0⟩, 1, 100⟩ default ⟨⟨1⟩, 1⟩ 0

/-- Draws and keys of a tranche at time `n`: a thousand lamports each, and new keys. -/
def fineTranche (n : Nat) : TrancheInput where
  dirichletWithMin := fun _ count _ => List.replicate count 1000
  dirichlet := fun _ count => List.replicate count 1000
  newAgent := fun k => some ⟨⟨BitVec.ofNat 256 (100 * n + k)⟩, 0⟩
  created := fun count =>
    (List.range count.toNat).map fun k => ⟨⟨BitVec.ofNat 256 (100 * n + k)⟩, 0⟩
  tokenBalance := 1000
  createdAt := n
  walletInput := fun _ => input (.forAgent .collect) n ⟨BitVec.ofNat 128 n⟩

/-- Surroundings in which everything works.  The table of traders is empty, the main
    wallet (key 1) has no tokens, and an action queued at time `n` gets the uuid `n`. -/
def fineEnv (n : Nat) : Env where
  now := n
  tranche := fineTranche n
  traders := some []
  newFromPrivkey := fun _ => none
  solBalance := fun _ => some 1000000000
  tokenBalance := fun pk => if pk = ⟨1⟩ then some 0 else some 1000
  walletInput := input (.forAgent .collect) n ⟨BitVec.ofNat 128 n⟩
  agentInput := fun _ => input (.forAgent .collect) n ⟨BitVec.ofNat 128 n⟩

/-- A heartbeat at time `n`. -/
def beat (n : Nat) : Input := .event (.heartBeat tick n) (fineEnv n) (fineEnv n)

/-- The receipt of action `u`, at time `n`. -/
def receipt (u n : Nat) (err : Option TransactionError) : Input :=
  .event (.blockchainEvent (.executionReceipt ⟨⟨BitVec.ofNat 128 u⟩, default, err, n⟩))
    (fineEnv n) (fineEnv n)

/-- Task `k` delivers its event, at time `n`. -/
def delivery (k n : Nat) : Input := .task k (input (.forAgent .collect) n ⟨BitVec.ofNat 128 n⟩)

/-- A test for `NoSellersLeft`. -/
def noSellersLeft (t : VolumeStrategy × Tranche) (_ : Input) : Bool :=
  t.1.state ≠ .transferringTokenToSellers || t.1.agents.isEmpty

theorem noSellersLeft_sound {t : VolumeStrategy × Tranche} {i : Input}
    (h : noSellersLeft t i = true) : NoSellersLeft t i := by
  cases i with
  | task => trivial
  | event =>
      rintro ⟨hs, -⟩
      simpa [noSellersLeft, hs] using h

/-- The states around a step that follows a run, its agents and its tranche. -/
def viewStep (p : (VolumeStrategy × Tranche) × List Effect) (i : Input) :
    Option (State × State × List AgentRef × List AgentRef) :=
  (trading p.1 i).map fun q => (p.1.1.state, q.1.1.state, q.1.1.agents, q.1.2.created)

theorem viewStep_eq_some {p : (VolumeStrategy × Tranche) × List Effect} {i : Input}
    {s s' : State} {agents created : List AgentRef}
    (h : viewStep p i = some (s, s', agents, created)) :
    ∃ t' out, trading p.1 i = some (t', out) ∧ p.1.1.state = s ∧ t'.1.state = s' ∧
      t'.1.agents = agents ∧ t'.2.created = created := by
  obtain ⟨⟨t', out⟩, hstep, heq⟩ := Option.map_eq_some_iff.mp h
  simp only [Prod.mk.injEq] at heq
  obtain ⟨hs, hs', ha, hc⟩ := heq
  exact ⟨t', out, hstep, hs, hs', ha, hc⟩

/-- The first tranche: sweep, offload, and fund one agent. -/
def fundOne : List Input := [beat 1, beat 2, receipt 2 3 none, delivery 2 3]

/-- In the first tranche, the agent that buys is the one just funded. -/
theorem first_tranche_buys :
    ∃ t t' out, Reach trading NoSellersLeft smallVolume t ∧
      trading t (beat 4) = some (t', out) ∧ t'.1.state = .buying ∧ t'.1.agents = [0] ∧
      t.1.state = .fund ∧ IsTranche t'.1 t'.2 := by
  have hview : ((runIf trading noSellersLeft smallVolume fundOne).bind fun p =>
      viewStep p (beat 4)) = some (.fund, .buying, [0], [0]) := by decide +kernel
  obtain ⟨⟨t, out⟩, hrun, hstep⟩ := Option.bind_eq_some_iff.mp hview
  obtain ⟨t', out', hstep, hfund, hbuy, hagents, -⟩ := viewStep_eq_some hstep
  have hreach := reach_of_runIf (fun _ _ => noSellersLeft_sound) hrun
  exact ⟨t, t', out', hreach, hstep, hbuy, hagents,
    buying_has_its_tranche hreach hstep (fun h => by rw [hfund] at h; cases h) hbuy⟩

/-- Let that agent buy, collect its tokens and send them to a seller. -/
def buyAndSupply : List Input :=
  [beat 4, receipt 4 5 none, delivery 4 5, delivery 4 5, beat 6, receipt 6 7 none,
    delivery 6 7, delivery 6 7, beat 8]

/-- The supply fails four times, the strategy offloads, and funds an agent. -/
def failAndFund : List Input :=
  [receipt 8 9 (some ⟨1⟩), delivery 8 9, receipt 9 10 (some ⟨1⟩), delivery 9 10,
    receipt 10 11 (some ⟨1⟩), delivery 10 11, receipt 11 12 (some ⟨1⟩), delivery 11 12,
    beat 13, delivery 12 13, beat 14, receipt 14 15 none, delivery 14 15]

/-- **A SELLER OF THE LAST TRANCHE BUYS**: its supply failed, and it is still in the
    list when the next tranche is funded. -/
theorem stranded_seller_buys :
    ¬ ∀ (t t' : VolumeStrategy × Tranche) (i : Input) (out : List Effect),
      Reach trading Always smallVolume t → trading t i = some (t', out) →
      t.1.state ≠ .buying → t'.1.state = .buying →
      t.1.state = .fund ∧ IsTranche t'.1 t'.2 := by
  intro hclaim
  have hview : ((run trading smallVolume (fundOne ++ buyAndSupply ++ failAndFund)).bind fun p =>
      viewStep p (beat 16)) = some (.fund, .buying, [1, 2], [2]) := by decide +kernel
  obtain ⟨⟨t, out⟩, hrun, hstep⟩ := Option.bind_eq_some_iff.mp hview
  obtain ⟨t', out', hstep, hfund, hbuy, hagents, hcreated⟩ := viewStep_eq_some hstep
  have hreach := reach_of_run (C := Always) (fun _ _ => trivial) hrun
  obtain ⟨-, heq, -⟩ := hclaim t t' _ out' hreach hstep
    (fun h => by rw [hfund] at h; cases h) hbuy
  rw [hagents, hcreated] at heq
  exact absurd heq (by decide)

end FoxfireVolume
