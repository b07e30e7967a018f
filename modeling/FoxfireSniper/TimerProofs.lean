import FoxfireSniper.AttemptBoundProofs
import FoxfireSniper.VolumeStrategyProofs

/-! # The agent never waits without a timer

    `is_cooled_down_before_retry` and an error receipt turn the timeout timer off, and only
    an entry action starts it again.  So a handler that turned it off and stayed in its
    state would wait forever.  None does:

    * a handler that stays leaves the timer as it was (`dispatch_stays_timer`);
    * entering a waiting state starts it (`enter_queues`);
    * **`timer_armed`**: the timer runs in every waiting state of every run, and the
      heartbeat after the lap is over ends the attempt. -/

namespace FoxfireAgent

open FoxfireTypes FoxfireAttempt MachineRun

/-- The states whose entry action reads the main wallet. -/
def State.collects : State → Bool
  | .collecting _   => true
  | .deactivating _ => true
  | _               => false

/-- Where a waiting state goes when its last attempt times out. -/
def State.givenUp : State → State
  | .deactivating _ => .deactivated
  | _               => .error .transferActionTimeout

structure Armed (m : Agent) : Prop where
  timer : ∀ r, m.state.retry = some r → 0 < m.storage.tracker.timeoutTimer.lapTicks
  owner : m.state.collects = true → m.storage.mainWallet.isSome = true

/-- The attempt has ended: there is a new one with a timer started now, or none. -/
inductive AttemptEnds (m : Agent) (i : Input) (m' : Agent) (out : List Effect) : Prop where
  | retried {action : SolanaAction} (hstate : m'.state = m.state.retried)
      (hout : queuedActions out = [action])
      (htimer : m'.storage.tracker.timeoutTimer
        = Stopwatch.restart timeoutForActionExecutionHbs i.queuedAt)
  | failed {msg : ErrorMsg} (hstate : m'.state = .error msg)
  | deactivated (hstate : m'.state = .deactivated)

-- ── A handler that stays ────────────────────────────────────────────────────

theorem retryOrError_moves {S : Type} (retry : Nat) (retryAction : S) (error : ErrorMsg → S)
    (msg : ErrorMsg) : ∃ target, retryOrError retry retryAction error msg = .transition target := by
  rw [retryOrError]
  split
  · exact ⟨_, rfl⟩
  · exact ⟨_, rfl⟩

theorem attempt_stays_timer {S : Type} {now : Instant} {t : ActionTracker}
    {event : SolanaStrategyEvent} {retryAction success : S} {error : ErrorMsg → S} {retry : Nat}
    (h : ∀ target, (attemptTransition now t event retryAction success error retry).2
      ≠ .transition target) :
    (attemptTransition now t event retryAction success error retry).1.timeoutTimer
      = t.timeoutTimer := by
  have hmoves : ∀ msg, ¬ ∀ target,
      retryOrError retry retryAction error msg ≠ .transition target := by
    intro msg hall
    obtain ⟨target, htarget⟩ := retryOrError_moves retry retryAction error msg
    exact hall target htarget
  unfold attemptTransition at h ⊢
  split
  · -- the executor's report
    next uuid action res =>
      by_cases hmem : uuid ∈ t.actionsInProgress
      · simp only [if_pos hmem] at h ⊢
        cases res with
        | executionError e => exact absurd h (hmoves _)
        | sent => rfl
      · simp only [if_neg hmem]
  · -- a receipt: an error turns the timer off, and leaves the state
    next receipt =>
      rcases processExecutionReceipt_cases t receipt with
        ⟨-, heq⟩ | ⟨-, -, heq⟩ | ⟨err, -, -, heq⟩
      · rw [heq]
      · rw [heq]
        rfl
      · simp only [heq] at h
        exact absurd h (hmoves _)
  · -- a heartbeat: so does the timeout
    next tick at_ =>
      rw [ActionTracker.isCooledDownBeforeRetry]
      by_cases htime : t.timeoutTimer.isTimeElapsed tick now = true
      · simp only [ActionTracker.isCooledDownBeforeRetry, if_pos htime] at h
        exact absurd h (hmoves _)
      · rw [if_neg htime]
  · rfl

theorem deactivating_stays_timer {a : AgentState} {i : Input} {r : Nat}
    (h : ∀ target, (a.deactivating i r).2 ≠ .transition target) :
    (a.deactivating i r).1.tracker.timeoutTimer = a.tracker.timeoutTimer := by
  unfold AgentState.deactivating at h ⊢
  split
  · next receipt hev =>
      rcases processExecutionReceipt_cases a.tracker receipt with
        ⟨-, heq⟩ | ⟨-, -, heq⟩ | ⟨err, -, -, heq⟩
      · rw [heq]
      · simp only [hev, heq] at h
        exact absurd rfl (h _)
      · simp only [hev, heq] at h
        obtain ⟨target, htarget⟩ := retryOrError_moves r (State.deactivating (r + 1))
          State.error (.errorProcessingExecutionReceipt err)
        exact absurd htarget (h target)
  · next tick at_ hev =>
      rw [ActionTracker.isCooledDownBeforeRetry]
      by_cases htime : a.tracker.timeoutTimer.isTimeElapsed tick i.now = true
      · simp only [hev, ActionTracker.isCooledDownBeforeRetry, if_pos htime] at h
        split at h
        · exact absurd rfl (h _)
        · exact absurd rfl (h _)
      · rw [if_neg htime]
  · rfl

/-- **A HANDLER THAT STAYS LEAVES THE TIMER.** -/
theorem dispatch_stays_timer {m : Agent} {i : Input} {r : Nat} (hr : m.state.retry = some r)
    (h : ∀ target, (m.dispatch i).2 ≠ .transition target) :
    (m.dispatch i).1.tracker.timeoutTimer = m.storage.tracker.timeoutTimer := by
  cases hw : m.state.working with
  | true =>
      rw [dispatch_working hw hr, AgentState.transitionToSuccessOrError] at h ⊢
      split
      · rfl
      · next hev =>
          refine attempt_stays_timer fun target htarget => h target ?_
          rw [← htarget]
          split
          · next heq => exact absurd heq hev
          · rfl
  | false =>
      rcases not_working_cases hw with (hs | hs) | ⟨msg, hs⟩ | ⟨n, hs⟩ | hs
      · rw [hs] at hr; cases hr
      · rw [hs] at hr; cases hr
      · rw [hs] at hr; cases hr
      · have hd : m.dispatch i = m.storage.deactivating i n := by rw [Agent.dispatch, hs]
        rw [hd] at h ⊢
        exact deactivating_stays_timer h
      · rw [hs] at hr; cases hr

-- ── The invariant ───────────────────────────────────────────────────────────

/-- An event changes nothing of the storage but the bookkeeping of actions. -/
theorem handle_mainWallet {m m' : Agent} {i : Input} {out : List Effect}
    (h : handle m i = some (m', out)) : m'.storage.mainWallet = m.storage.mainWallet := by
  obtain ⟨t, ht⟩ := FoxfireVolume.dispatch_storage m i
  have hwallet : (m.dispatch i).1.mainWallet = m.storage.mainWallet := by rw [ht]
  cases hresp : (m.dispatch i).2 with
  | transition target =>
      obtain ⟨-, he⟩ := handle_transition (Prod.ext rfl hresp) h
      obtain ⟨⟨t', hst⟩, -⟩ := FoxfireVolume.enter_storage he
      rw [hst]
      exact hwallet
  | handled =>
      have hd : m.dispatch i = ((m.dispatch i).1, .handled) := Prod.ext rfl hresp
      obtain ⟨rfl, -⟩ := handle_stay hd (Or.inr rfl) h
      exact hwallet
  | super =>
      have hd : m.dispatch i = ((m.dispatch i).1, .super) := Prod.ext rfl hresp
      obtain ⟨rfl, -⟩ := handle_stay hd (Or.inl rfl) h
      exact hwallet

/-- Entering a state that collects, without a panic, read a main wallet. -/
theorem enter_collects {a a' : AgentState} {i : Input} {s : State} {out : List Effect}
    (hs : s.collects = true) (h : a.enter i s = some (a', out)) : a.mainWallet.isSome = true := by
  have hcollect : a.collect i = some (a', out) := by
    cases s with
    | collecting _ => exact h
    | deactivating _ => exact h
    | idle => cases hs
    | transferring _ _ => cases hs
    | buying _ _ => cases hs
    | selling _ _ => cases hs
    | success => cases hs
    | error _ => cases hs
    | deactivated => cases hs
  obtain ⟨w, hw, -⟩ := Option.map_eq_some_iff.mp hcollect
  rw [hw]
  rfl

/-- Every state but those enters without a panic. -/
theorem enter_total {a : AgentState} {i : Input} {s : State}
    (h : s.collects = true → a.mainWallet.isSome = true) :
    ∃ a' out, a.enter i s = some (a', out) := by
  have hcollect : a.mainWallet.isSome = true → ∃ a' out, a.collect i = some (a', out) := by
    intro hw
    obtain ⟨w, hw⟩ := Option.isSome_iff_exists.mp hw
    rw [AgentState.collect, hw]
    exact ⟨_, _, rfl⟩
  cases s with
  | collecting _ => exact hcollect (h rfl)
  | deactivating _ => exact hcollect (h rfl)
  | idle => exact ⟨_, _, rfl⟩
  | transferring _ _ => exact ⟨_, _, rfl⟩
  | buying _ _ => exact ⟨_, _, rfl⟩
  | selling _ _ => exact ⟨_, _, rfl⟩
  | success => exact ⟨_, _, rfl⟩
  | error _ => exact ⟨_, _, rfl⟩
  | deactivated => exact ⟨_, _, rfl⟩

/-- A handler that does not leave its state keeps the invariant. -/
theorem Armed.stays {m : Agent} {i : Input} {a : AgentState} {resp : Response State}
    (hI : Armed m) (hd : m.dispatch i = (a, resp)) (hresp : ∀ target, resp ≠ .transition target) :
    Armed ⟨m.state, a⟩ := by
  have ha : (m.dispatch i).1 = a := congrArg Prod.fst hd
  refine ⟨?_, ?_⟩
  · intro r hr
    have htimer : a.tracker.timeoutTimer = m.storage.tracker.timeoutTimer := by
      rw [← ha]
      refine dispatch_stays_timer hr ?_
      rw [hd]
      exact hresp
    show 0 < a.tracker.timeoutTimer.lapTicks
    rw [htimer]
    exact hI.timer r hr
  · intro hc
    obtain ⟨t, ht⟩ := FoxfireVolume.dispatch_storage m i
    rw [ha] at ht
    show a.mainWallet.isSome = true
    rw [ht]
    exact hI.owner hc

/-- **ONE STEP** keeps the timer running where the agent waits. -/
theorem Armed.step {m m' : Agent} {i : Input} {out : List Effect} (hI : Armed m)
    (h : handle m i = some (m', out)) : Armed m' := by
  cases hd : m.dispatch i with
  | mk a resp =>
      cases resp with
      | transition target =>
          obtain ⟨hs, he⟩ := handle_transition hd h
          refine ⟨?_, ?_⟩
          · intro r hr
            rw [hs] at hr
            obtain ⟨action, -, -, ht⟩ := enter_queues hr he
            rw [ht]
            exact Nat.succ_pos _
          · intro hc
            rw [hs] at hc
            have howner := enter_collects hc he
            obtain ⟨⟨t, hst⟩, -⟩ := FoxfireVolume.enter_storage he
            rw [hst]
            exact howner
      | handled =>
          obtain ⟨rfl, -⟩ := handle_stay hd (Or.inr rfl) h
          exact hI.stays hd (fun target heq => by cases heq)
      | super =>
          obtain ⟨rfl, -⟩ := handle_stay hd (Or.inl rfl) h
          exact hI.stays hd (fun target heq => by cases heq)

-- ── The heartbeat after the lap ─────────────────────────────────────────────

theorem retried_collects (s : State) : s.retried.collects = s.collects := by
  cases s <;> rfl

theorem lap_elapsed {w : Stopwatch} {tick : TickSizeMs} {now : Instant}
    (hw : 0 < w.lapTicks) (hlap : w.lapTicks ≤ w.ticksElapsed tick now) :
    w.isTimeElapsed tick now = true := by
  rw [Stopwatch.isTimeElapsed, Bool.and_eq_true, decide_eq_true_eq, decide_eq_true_eq]
  exact ⟨hw, hlap⟩

/-- What a waiting state does at a timeout. -/
theorem dispatch_timeout {m : Agent} {i : Input} {tick : TickSizeMs} {at_ : Instant} {r : Nat}
    (hr : m.state.retry = some r) (hev : i.event = .original (.heartBeat tick at_))
    (htime : m.storage.tracker.timeoutTimer.isTimeElapsed tick i.now = true) :
    ∃ t, m.dispatch i = ({ m.storage with tracker := t },
      .transition (if r ≤ retriesIfErrorOrTimeout then m.state.retried else m.state.givenUp)) := by
  refine ⟨{ m.storage.tracker with
    timeoutTimer := m.storage.tracker.timeoutTimer.turnOff }, ?_⟩
  cases hw : m.state.working with
  | true =>
      have hgiven : m.state.givenUp = .error .transferActionTimeout := by
        cases hs : m.state with
        | deactivating n => rw [hs] at hw; cases hw
        | idle => rfl
        | transferring b n => rfl
        | collecting n => rfl
        | buying a n => rfl
        | selling a n => rfl
        | success => rfl
        | error msg => rfl
        | deactivated => rfl
      rw [dispatch_working hw hr, AgentState.transitionToSuccessOrError, hev, hgiven]
      simp only [attemptTransition, ActionTracker.isCooledDownBeforeRetry, if_pos htime,
        retryOrError]
      split
      · rfl
      · rfl
  | false =>
      rcases not_working_cases hw with (hs | hs) | ⟨msg, hs⟩ | ⟨n, hs⟩ | hs
      · rw [hs] at hr; cases hr
      · rw [hs] at hr; cases hr
      · rw [hs] at hr; cases hr
      · rw [hs] at hr
        cases hr
        rw [Agent.dispatch, hs]
        simp only [AgentState.deactivating, hev, ActionTracker.isCooledDownBeforeRetry,
          if_pos htime]
        split
        · rfl
        · rfl
      · rw [hs] at hr; cases hr

/-- **THE TIMEOUT ENDS THE ATTEMPT.** -/
theorem handle_timeout {m : Agent} {i : Input} {tick : TickSizeMs} {at_ : Instant} {r : Nat}
    (hI : Armed m) (hr : m.state.retry = some r)
    (hev : i.event = .original (.heartBeat tick at_))
    (hlap : m.storage.tracker.timeoutTimer.lapTicks
      ≤ m.storage.tracker.timeoutTimer.ticksElapsed tick i.now) :
    ∃ m' out, handle m i = some (m', out) ∧ AttemptEnds m i m' out := by
  obtain ⟨t, hd⟩ := dispatch_timeout hr hev (lap_elapsed (hI.timer r hr) hlap)
  by_cases hle : r ≤ retriesIfErrorOrTimeout
  · rw [if_pos hle] at hd
    have howner : m.state.retried.collects = true →
        ({ m.storage with tracker := t } : AgentState).mainWallet.isSome = true := by
      rw [retried_collects]
      exact hI.owner
    obtain ⟨a', out, he⟩ := enter_total (i := i) howner
    obtain ⟨action, hout, -, ht⟩ := enter_queues (retried_retry hr) he
    refine ⟨⟨m.state.retried, a'⟩, out, ?_, .retried rfl hout ?_⟩
    · rw [handle, hd]
      show Option.map _ (AgentState.enter _ i m.state.retried) = _
      rw [he]
      rfl
    · show a'.tracker.timeoutTimer = _
      rw [ht]
      rfl
  · rw [if_neg hle] at hd
    have hquiet : m.state.givenUp.collects = false := by
      cases m.state <;> rfl
    obtain ⟨a', out, he⟩ := enter_total (a := { m.storage with tracker := t }) (i := i)
      (s := m.state.givenUp) (fun hc => by rw [hquiet] at hc; cases hc)
    refine ⟨⟨m.state.givenUp, a'⟩, out, ?_, ?_⟩
    · rw [handle, hd]
      show Option.map _ (AgentState.enter _ i m.state.givenUp) = _
      rw [he]
      rfl
    · have hcases : m.state.givenUp = .deactivated ∨
          m.state.givenUp = .error .transferActionTimeout := by
        cases m.state <;> first | exact Or.inl rfl | exact Or.inr rfl
      rcases hcases with hs | hs
      · exact .deactivated hs
      · exact .failed hs

-- ── Runs ────────────────────────────────────────────────────────────────────

theorem armed_reach {pool : RaydiumPool} {key : Keypair} {sid : Option StrategyId}
    {mainWallet : Option Keypair} {now : Instant} {m : Agent}
    (h : Reach handle Always (Agent.new pool key sid mainWallet now) m) : Armed m := by
  refine h.invariant ⟨?_, ?_⟩ (fun s i s' out hI _ hs => hI.step hs)
  · intro r hr
    cases hr
  · intro hc
    cases hc

/-- **A WAITING AGENT HAS A RUNNING TIMER.**  In every state of every run that waits for an
    action the timer is armed, and a heartbeat after the lap is handled without a panic and
    ends the attempt: a new one with a timer started then, `error`, or `deactivated`. -/
theorem timer_armed {pool : RaydiumPool} {key : Keypair} {sid : Option StrategyId}
    {mainWallet : Option Keypair} {now : Instant} {m : Agent} {r : Nat}
    (h : Reach handle Always (Agent.new pool key sid mainWallet now) m)
    (hr : m.state.retry = some r) :
    0 < m.storage.tracker.timeoutTimer.lapTicks ∧
    ∀ i tick at_, i.event = .original (.heartBeat tick at_) →
      m.storage.tracker.timeoutTimer.lapTicks
        ≤ m.storage.tracker.timeoutTimer.ticksElapsed tick i.now →
      ∃ m' out, handle m i = some (m', out) ∧ AttemptEnds m i m' out := by
  have hI := armed_reach h
  refine ⟨hI.timer r hr, ?_⟩
  intro i tick at_ hev hlap
  exact handle_timeout hI hr hev hlap

/-- A purchase of which nothing is heard ends after 200 ticks. -/
theorem silent_purchase_ends :
    ∃ m m' out, m.state = .buying .max 0 ∧
      handle m (input (.original (.heartBeat tick 0)) 200 ⟨2⟩) = some (m', out) ∧
      AttemptEnds m (input (.original (.heartBeat tick 0)) 200 ⟨2⟩) m' out := by
  obtain ⟨m, out, hrun, hs, hlap⟩ : ∃ m out,
      run handle (Agent.new default ⟨⟨1⟩, 1⟩ (some 1) none 0) [buyInput 0 ⟨1⟩] = some (m, out) ∧
      m.state = .buying .max 0 ∧ m.storage.tracker.timeoutTimer = ⟨200, 0⟩ :=
    ⟨_, _, rfl, rfl, rfl⟩
  have hr : m.state.retry = some 0 := by rw [hs]; rfl
  obtain ⟨-, hends⟩ := timer_armed (reach_of_run (fun _ _ => trivial) hrun) hr
  obtain ⟨m', out', hstep, hend⟩ :=
    hends (input (.original (.heartBeat tick 0)) 200 ⟨2⟩) tick 0 rfl (by
      rw [hlap]
      decide)
  exact ⟨m, m', out', hs, hstep, hend⟩

end FoxfireAgent
