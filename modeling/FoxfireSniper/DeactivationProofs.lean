import FoxfireSniper.AttemptBoundProofs
import FoxfireSniper.VolumeStrategyProofs

/-! # How long a deactivation takes

    An agent that gives up sweeps its funds, and tries this again until its retries are
    spent.  When the last attempt times out it is deactivated.  When the last attempt
    fails with an error receipt it goes to `error` instead, and the error state sends any
    agent that is no main wallet back to `deactivating`, with no retry used.

    * **`retiring`** is the agent with the sweeps beside it that it queued while
      deactivating.
    * **`deactivation_bounded`**: without such a receipt the sweeps are at most
      `RETRIES_IF_ERROR_OR_TIMEOUT + 2`; with one, the next event exceeds the bound.
    * **`deactivation_restarts`** is a run in which it happens. -/

namespace FoxfireAgent

open FoxfireTypes FoxfireAttempt MachineRun

/-- The sweeps noted after a step that leaves `m'`: none before the agent first enters
    `deactivating`, then all that it queues there. -/
def noteSweeps (sweeps : Option (List SolanaAction)) (m' : Agent) (out : List Effect) :
    Option (List SolanaAction) :=
  match m'.state with
  | .deactivating _ => some (sweeps.getD [] ++ queuedActions out)
  | _               => sweeps

/-- The agent together with the sweeps of its deactivation. -/
abbrev retiring : Step (Agent × Option (List SolanaAction)) Input Effect :=
  tracked handle fun sweeps _ _ m' out => noteSweeps sweeps m' out

/-- A new trader of a strategy, with a main wallet to sweep to. -/
def freshRetiring (pool : RaydiumPool) (key : Keypair) (sid : StrategyId) (mainWallet : Keypair)
    (now : Instant) : Agent × Option (List SolanaAction) :=
  (Agent.new pool key (some sid) (some mainWallet) now, none)

/-- The sweeps queued so far. -/
def sweeps (t : Agent × Option (List SolanaAction)) : List SolanaAction := t.2.getD []

def isForAgent : SolanaStrategyEvent → Bool
  | .forAgent _ => true
  | .original _ => false

/-- After the agent first entered `deactivating`, it gets no command. -/
def Uncommanded (t : Agent × Option (List SolanaAction)) (i : Input) : Prop :=
  t.2.isSome = true → isForAgent i.event = false

/-- In addition, no receipt says that the last retry has failed. -/
structure Finishes (t : Agent × Option (List SolanaAction)) (i : Input) : Prop where
  alone : Uncommanded t i
  last  : ¬ t.1.exhaustedBy i.event

/-- One sweep for each retry, and one more. -/
structure Retiring (t : Agent × Option (List SolanaAction)) : Prop where
  trader : t.1.storage.isMainWallet = false
  before : t.2 = none → ∀ r, t.1.state ≠ .deactivating r
  after  : t.2 ≠ none →
    (∃ r, t.1.state = .deactivating r ∧ (sweeps t).length = r + 1 ∧
      r ≤ retriesIfErrorOrTimeout + 1) ∨
    t.1.state = .deactivated ∧ (sweeps t).length ≤ retriesIfErrorOrTimeout + 2

-- ── One step ────────────────────────────────────────────────────────────────

theorem noteSweeps_deactivating {sweeps : Option (List SolanaAction)} {m' : Agent}
    {out : List Effect} {r : Nat} (hs : m'.state = .deactivating r) :
    noteSweeps sweeps m' out = some (sweeps.getD [] ++ queuedActions out) := by
  rw [noteSweeps, hs]

theorem noteSweeps_other {sweeps : Option (List SolanaAction)} {m' : Agent} {out : List Effect}
    (hs : ∀ r, m'.state ≠ .deactivating r) : noteSweeps sweeps m' out = sweeps := by
  rw [noteSweeps]
  split
  · next r h => exact absurd h (hs r)
  · rfl

/-- The sweeps that a step adds. -/
theorem sweeps_deactivating {t t' : Agent × Option (List SolanaAction)} {out : List Effect}
    {r : Nat} (hnote : t'.2 = noteSweeps t.2 t'.1 out) (hs : t'.1.state = .deactivating r) :
    (sweeps t').length = (sweeps t).length + (queuedActions out).length := by
  rw [noteSweeps_deactivating hs] at hnote
  rw [sweeps, sweeps, hnote, Option.getD_some, List.length_append]

theorem sweeps_other {t t' : Agent × Option (List SolanaAction)} {out : List Effect}
    (hnote : t'.2 = noteSweeps t.2 t'.1 out) (hs : ∀ r, t'.1.state ≠ .deactivating r) :
    (sweeps t').length = (sweeps t).length := by
  rw [noteSweeps_other hs] at hnote
  rw [sweeps, sweeps, hnote]

/-- An agent stays a trader. -/
theorem handle_trader {m m' : Agent} {i : Input} {out : List Effect}
    (h : handle m i = some (m', out)) :
    m'.storage.isMainWallet = m.storage.isMainWallet := by
  have hid := congrArg Prod.snd (FoxfireVolume.handle_identity h).1
  exact congrArg Option.isNone hid

/-- An agent that was not deactivating begins with no retry used. -/
theorem starts_deactivating {m m' : Agent} {i : Input} {out : List Effect} {r : Nat}
    (hs : ∀ n, m.state ≠ .deactivating n) (hs' : m'.state = .deactivating r)
    (h : handle m i = some (m', out)) :
    r = 0 ∧ ∃ action, queuedActions out = [action] := by
  rcases handle_waits (n := r) (by rw [hs']; rfl) h with ⟨hsame, -⟩ | ⟨hcounts, hout⟩
  · exact absurd (hsame.symm.trans hs') (hs r)
  · refine ⟨?_, hout⟩
    rcases hcounts with hzero | ⟨hretried, -⟩
    · exact hzero
    · -- only `deactivating` is retried into `deactivating`
      rw [hs'] at hretried
      cases hm : m.state with
      | deactivating n => exact absurd hm (hs n)
      | idle => rw [hm] at hretried; cases hretried
      | transferring b n => rw [hm] at hretried; cases hretried
      | collecting n => rw [hm] at hretried; cases hretried
      | buying a n => rw [hm] at hretried; cases hretried
      | selling a n => rw [hm] at hretried; cases hretried
      | success => rw [hm] at hretried; cases hretried
      | error msg => rw [hm] at hretried; cases hretried
      | deactivated => rw [hm] at hretried; cases hretried

/-- What a deactivating agent does. -/
theorem handle_deactivating_cases {m m' : Agent} {i : Input} {out : List Effect} {r : Nat}
    (hs : m.state = .deactivating r) (h : handle m i = some (m', out)) :
    (m'.state = .deactivating r ∧ out = []) ∨
    (m'.state = .deactivating (r + 1) ∧ r ≤ retriesIfErrorOrTimeout ∧
      ∃ action, queuedActions out = [action]) ∨
    m'.state = .deactivated ∨
    (∃ msg, m'.state = .error msg) ∧ m.exhaustedBy i.event := by
  cases hd : m.dispatch i with
  | mk a resp =>
      cases resp with
      | transition target =>
          obtain ⟨hs', -⟩ := handle_transition hd h
          have hd' : (m.storage.deactivating i r).2 = .transition target := by
            have heq := congrArg Prod.snd hd
            rw [Agent.dispatch, hs] at heq
            exact heq
          rcases deactivating_cases hs hd' with ⟨rfl, hle⟩ | rfl | ⟨msg, rfl, hx⟩
          · obtain ⟨action, -, hout, -, -⟩ := handle_enters hd rfl h
            exact Or.inr (Or.inl ⟨hs', hle, action, hout⟩)
          · exact Or.inr (Or.inr (Or.inl hs'))
          · exact Or.inr (Or.inr (Or.inr ⟨⟨msg, hs'⟩, hx⟩))
      | handled =>
          obtain ⟨rfl, rfl⟩ := handle_stay hd (Or.inr rfl) h
          exact Or.inl ⟨hs, rfl⟩
      | super =>
          obtain ⟨rfl, rfl⟩ := handle_stay hd (Or.inl rfl) h
          exact Or.inl ⟨hs, rfl⟩

/-- A deactivated agent stays so. -/
theorem handle_deactivated {m m' : Agent} {i : Input} {out : List Effect}
    (hs : m.state = .deactivated) (h : handle m i = some (m', out)) :
    m'.state = .deactivated := by
  have hd : m.dispatch i = (m.storage, .handled) := by
    rw [Agent.dispatch, hs]
  obtain ⟨rfl, -⟩ := handle_stay hd (Or.inr rfl) h
  exact hs

theorem retiring_step {t t' : Agent × Option (List SolanaAction)} {i : Input}
    {out : List Effect} (hI : Retiring t) (hC : Finishes t i)
    (h : retiring t i = some (t', out)) : Retiring t' := by
  obtain ⟨hstep, hnote⟩ := tracked_eq_some h
  have htrader := (handle_trader hstep).trans hI.trader
  cases hold : t.2 with
  | none =>
      rw [hold] at hnote
      have hs := hI.before hold
      by_cases hs' : ∃ r, t'.1.state = .deactivating r
      · obtain ⟨r, hs'⟩ := hs'
        rw [noteSweeps_deactivating hs'] at hnote
        obtain ⟨rfl, action, hout⟩ := starts_deactivating hs hs' hstep
        refine ⟨htrader, ?_, fun _ => Or.inl ⟨0, hs', ?_, Nat.zero_le _⟩⟩
        · intro hnone
          rw [hnote] at hnone
          cases hnone
        · rw [sweeps, hnote, hout]
          rfl
      · have hs'' : ∀ r, t'.1.state ≠ .deactivating r := fun r hr => hs' ⟨r, hr⟩
        rw [noteSweeps_other hs''] at hnote
        exact ⟨htrader, fun _ => hs'', fun hne => absurd hnote hne⟩
  | some l =>
      have hsome : t'.2 ≠ none := by
        rw [hnote, hold, noteSweeps]
        split
        · exact fun h => by cases h
        · exact fun h => by cases h
      refine ⟨htrader, fun hnone => absurd hnone hsome, fun _ => ?_⟩
      rcases hI.after (by rw [hold]; exact fun h => by cases h) with
        ⟨r, hs, hr, hle⟩ | ⟨hs, hle⟩
      · rcases handle_deactivating_cases hs hstep with
          ⟨hs', rfl⟩ | ⟨hs', hle', action, hout⟩ | hs' | ⟨-, hx⟩
        · refine Or.inl ⟨r, hs', ?_, hle⟩
          rw [sweeps_deactivating hnote hs', hr]
          rfl
        · refine Or.inl ⟨r + 1, hs', ?_, Nat.succ_le_succ hle'⟩
          rw [sweeps_deactivating hnote hs', hr, hout]
          rfl
        · refine Or.inr ⟨hs', ?_⟩
          rw [sweeps_other hnote (by rw [hs']; exact fun _ h => by cases h)]
          omega
        · exact absurd hx hC.last
      · have hs' := handle_deactivated hs hstep
        refine Or.inr ⟨hs', ?_⟩
        rw [sweeps_other hnote (by rw [hs']; exact fun _ h => by cases h)]
        exact hle

-- ── Runs ────────────────────────────────────────────────────────────────────

variable {pool : RaydiumPool} {key : Keypair} {sid : StrategyId} {mainWallet : Keypair}
  {now : Instant} {t : Agent × Option (List SolanaAction)}

theorem retiring_reach (h : Reach retiring Finishes (freshRetiring pool key sid mainWallet now) t) :
    Retiring t := by
  refine h.invariant ?_ (fun s i s' out hI hC hs => retiring_step hI hC hs)
  refine ⟨rfl, ?_, fun hne => absurd rfl hne⟩
  intro _ r hs
  cases hs

/-- The receipt that says so takes the agent to its error state. -/
theorem handle_exhausted {m m' : Agent} {i : Input} {out : List Effect}
    (hx : m.exhaustedBy i.event) (h : handle m i = some (m', out)) :
    ∃ msg, m'.state = .error msg := by
  obtain ⟨r, receipt, hs, hlt, hev, herr, hmem⟩ := hx
  obtain ⟨err, herr⟩ := Option.ne_none_iff_exists'.mp herr
  have hproc : m.storage.tracker.processExecutionReceipt receipt
      = ({ m.storage.tracker.drop receipt.actionUuid with
            timeoutTimer := m.storage.tracker.timeoutTimer.turnOff }, .error err) := by
    rw [ActionTracker.processExecutionReceipt, if_pos hmem, herr]
  have hd : m.dispatch i = ({ m.storage with tracker :=
        { m.storage.tracker.drop receipt.actionUuid with
            timeoutTimer := m.storage.tracker.timeoutTimer.turnOff } },
      .transition (.error (.errorProcessingExecutionReceipt err))) := by
    rw [Agent.dispatch, hs]
    show m.storage.deactivating i r = _
    rw [AgentState.deactivating, hev, receiptEvent]
    dsimp only
    rw [hproc]
    dsimp only
    rw [retryOrError, if_neg (Nat.not_le.mpr hlt)]
  exact ⟨_, (handle_transition hd h).1⟩

/-- From there, any event at all begins the deactivation again. -/
theorem handle_error {m m' : Agent} {i : Input} {out : List Effect} {msg : ErrorMsg}
    (hs : m.state = .error msg) (hm : m.storage.isMainWallet = false)
    (h : handle m i = some (m', out)) :
    m'.state = .deactivating 0 ∧ ∃ action, queuedActions out = [action] := by
  have hd : m.dispatch i = (m.storage, .transition (.deactivating 0)) := by
    rw [Agent.dispatch, hs]
    show (m.storage, if m.storage.isMainWallet = true then _ else _) = _
    rw [hm]
    rfl
  obtain ⟨action, hs', hout, -, -⟩ := handle_enters hd rfl h
  exact ⟨hs', action, hout⟩

/-- **ONE SWEEP TOO MANY**: after such a receipt and one more event. -/
theorem sweeps_after_error {t₁ t₂ : Agent × Option (List SolanaAction)} {i j : Input}
    {o₁ o₂ : List Effect} (hI : Retiring t) (hx : t.1.exhaustedBy i.event)
    (h₁ : retiring t i = some (t₁, o₁)) (h₂ : retiring t₁ j = some (t₂, o₂)) :
    retriesIfErrorOrTimeout + 2 < (sweeps t₂).length := by
  obtain ⟨hstep₁, hnote₁⟩ := tracked_eq_some h₁
  obtain ⟨hstep₂, hnote₂⟩ := tracked_eq_some h₂
  obtain ⟨msg, herr⟩ := handle_exhausted hx hstep₁
  obtain ⟨hs₂, action, hout⟩ := handle_error herr ((handle_trader hstep₁).trans hI.trader) hstep₂
  obtain ⟨r, receipt, hs, hlt, -, -, -⟩ := hx
  -- the agent has queued all the sweeps it may
  have hlen : (sweeps t).length = r + 1 := by
    rcases hI.after (fun hnone => hI.before hnone r hs) with ⟨n, hs', hn, -⟩ | ⟨hs', -⟩
    · rw [hs] at hs'
      cases hs'
      exact hn
    · rw [hs] at hs'
      cases hs'
  have hsame := sweeps_other hnote₁ (by rw [herr]; exact fun _ h => by cases h)
  have hmore := sweeps_deactivating hnote₂ hs₂
  rw [hout, List.length_singleton] at hmore
  omega

/-- **A DEACTIVATION IS BOUNDED UNLESS ITS LAST RETRY FAILS ON CHAIN.**  In every run
    without commands to the deactivating agent and without a receipt that says its last
    retry has failed, it queues at most `RETRIES_IF_ERROR_OR_TIMEOUT + 2` sweeps.  Such a
    receipt, and one event after it, always exceed the bound. -/
theorem deactivation_bounded
    (h : Reach retiring Finishes (freshRetiring pool key sid mainWallet now) t) :
    (sweeps t).length ≤ retriesIfErrorOrTimeout + 2 ∧
    ∀ i j t₁ t₂ o₁ o₂, t.1.exhaustedBy i.event → retiring t i = some (t₁, o₁) →
      retiring t₁ j = some (t₂, o₂) → retriesIfErrorOrTimeout + 2 < (sweeps t₂).length := by
  have hI := retiring_reach h
  refine ⟨?_, fun i j t₁ t₂ o₁ o₂ hx h₁ h₂ => sweeps_after_error hI hx h₁ h₂⟩
  by_cases hnone : t.2 = none
  · rw [sweeps, hnone]
    exact Nat.zero_le _
  · rcases hI.after hnone with ⟨r, -, hr, hle⟩ | ⟨-, hle⟩
    · omega
    · exact hle

/-- A trader of strategy 1. -/
def retiringTrader : Agent × Option (List SolanaAction) :=
  freshRetiring default ⟨⟨1⟩, 1⟩ 1 ⟨⟨2⟩, 2⟩ 0

/-- The receipt of an action that failed on chain; the next action gets the uuid after
    it. -/
def failedInput (n : Nat) : Input :=
  input (receiptEvent ⟨⟨n⟩, default, some ⟨6001⟩, 10⟩) 10 ⟨n + 1⟩

/-- The trader is told to deactivate while it buys, and its first sweeps fail. -/
def failingSweeps : List Input :=
  [buyInput 0 ⟨1⟩, input (.forAgent .deactivate) 5 ⟨2⟩, failedInput 2, failedInput 3,
    failedInput 4]

/-- No command once the sweeps have begun. -/
def uncommanded (t : Agent × Option (List SolanaAction)) (i : Input) : Bool :=
  !(t.2.isSome && isForAgent i.event)

/-- A retry is left. -/
def retriesLeft : State → Bool
  | .deactivating r => r ≤ retriesIfErrorOrTimeout
  | _               => true

theorem uncommanded_sound (t : Agent × Option (List SolanaAction)) (i : Input)
    (h : uncommanded t i = true) : Uncommanded t i := by
  intro hsome
  rw [uncommanded, hsome] at h
  simpa using h

theorem finishes_sound (t : Agent × Option (List SolanaAction)) (i : Input)
    (h : (uncommanded t i && retriesLeft t.1.state) = true) : Finishes t i := by
  rw [Bool.and_eq_true] at h
  refine ⟨uncommanded_sound t i h.1, ?_⟩
  rintro ⟨r, receipt, hs, hlt, -, -, -⟩
  rw [hs, retriesLeft, decide_eq_true_eq] at h
  exact absurd h.2 (Nat.not_le.mpr hlt)

/-- The bound at work: four sweeps, the last still under way. -/
theorem failing_sweeps_bounded :
    ∃ t, (sweeps t).length = 4 ∧ (sweeps t).length ≤ retriesIfErrorOrTimeout + 2 := by
  obtain ⟨t, out, hrun, hlen⟩ : ∃ t out,
      runIf retiring (fun t i => uncommanded t i && retriesLeft t.1.state) retiringTrader
        failingSweeps = some (t, out) ∧ (sweeps t).length = 4 :=
    ⟨_, _, rfl, rfl⟩
  exact ⟨t, hlen, (deactivation_bounded (reach_of_runIf finishes_sound hrun)).1⟩

/-- **A DEACTIVATION THAT RESTARTS**: the last receipt leads to `error`, and the
    heartbeat after it to a fifth sweep. -/
theorem deactivation_restarts :
    ¬ ∀ t, Reach retiring Uncommanded retiringTrader t →
      (sweeps t).length ≤ retriesIfErrorOrTimeout + 2 := by
  intro hall
  obtain ⟨t, out, hrun, hlen⟩ : ∃ t out,
      runIf retiring uncommanded retiringTrader
        (failingSweeps ++ [failedInput 5, input (.original (.heartBeat tick 0)) 20 ⟨7⟩]) = some (t, out) ∧
      (sweeps t).length = 5 :=
    ⟨_, _, rfl, rfl⟩
  have hle := hall t (reach_of_runIf uncommanded_sound hrun)
  rw [hlen] at hle
  exact absurd hle (show ¬ 5 ≤ retriesIfErrorOrTimeout + 2 by decide)

end FoxfireAgent
