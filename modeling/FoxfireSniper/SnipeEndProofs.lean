import FoxfireSniper.RankingProofs
import FoxfireSniper.SnipePhaseProofs
import FoxfireSniper.TimerProofs

/-! # Every snipe ends

    A snipe waits for a delay, for the fate of a purchase, for the horizon of its position and
    for the fate of a sale.  Each wait has a clock of its own: the entry action of the phase
    starts it, and it is read only when an event arrives.

    * **`Turns.ahead_lt`**: a transition, a retry included, leaves less ahead of the snipe.
    * **`Running.overdue`**: a heartbeat after the clock of the phase has run out leaves the
      phase.
    * **`snipe_ends`**: after ten heartbeats that each come late enough after the event before
      them, whatever else happens, the snipe is done or has given up.  No position is waited
      for forever. -/

namespace FoxfireSnipe

open FoxfireTypes FoxfireAttempt MachineRun

-- ── What is ahead ───────────────────────────────────────────────────────────

/-- The snipe is done, or has given up. -/
def State.over : State → Bool
  | .done    => true
  | .error _ => true
  | _        => false

/-- After so many milliseconds without an event, a heartbeat finds the clock of every phase
    run out.  A negative setting is read as an unsigned number, as the code reads it. -/
def SnipingStrategyInstance.patience (inst : SnipingStrategyInstance) (tick : TickSizeMs) :
    Nat :=
  max (max ((inst.buyDelayMs % 2 ^ 128).toNat + 1) (timeoutForActionExecutionHbs * tick.ms))
    (1000 * ((inst.forceExitHorizonS % 2 ^ 64).toNat + 1))

/-- The clock does not go back; a heartbeat is counted if it is late enough after the event
    before it. -/
def lateHeartBeats (inst : SnipingStrategyInstance) : Observer Instant Input where
  next _ i := i.enteredAt
  Admits c i := c ≤ i.initAt ∧ i.initAt ≤ i.now ∧ i.now ≤ i.enteredAt
  counts c i :=
    match i.event with
    | .original (.heartBeat tick _) => c + inst.patience tick ≤ i.now
    | _ => false

/-- The clock of the current phase was started before `c`. -/
structure Running (inst : SnipingStrategyInstance) (c : Instant) (m : Sniper) : Prop where
  inst   : m.storage.snipingStrategyInstance = inst
  delay  : m.initialized = true → m.state = .waitingToBuy → m.storage.buyDelayTimer ≤ c
  bought : m.state = .waitingToSell → m.storage.whenBoughtTimer ≤ c
  lap    : ∀ r, m.state.retry = some r →
    m.storage.tracker.timeoutTimer.lapTicks = timeoutForActionExecutionHbs ∧
      m.storage.tracker.timeoutTimer.start ≤ c

theorem ready_initialized {m : Sniper} (hm : m.initialized = true) (i : Input) :
    m.ready i = m.storage := by
  rw [Sniper.ready, if_pos hm]

/-- An entry action starts the clock of its phase. -/
theorem enter_starts {a a' : SniperAgentState} {i : Input} {s : State} {out : List Effect}
    (h : a.enter i s = some (a', out)) :
    (s = .waitingToBuy → a'.buyDelayTimer = i.enteredAt) ∧
      (s = .waitingToSell → a'.whenBoughtTimer = i.enteredAt) ∧
      ∀ r, s.retry = some r →
        a'.tracker.timeoutTimer = Stopwatch.restart timeoutForActionExecutionHbs i.enteredAt := by
  cases s with
  | waitingToBuy =>
      obtain ⟨rfl, -⟩ := Prod.mk.inj (Option.some.inj h)
      exact ⟨fun _ => rfl, fun hs => (by cases hs), fun r hr => (by cases hr)⟩
  | waitingToSell =>
      obtain ⟨price, -, heq⟩ := Option.map_eq_some_iff.mp h
      obtain ⟨rfl, -⟩ := Prod.mk.inj heq
      exact ⟨fun hs => (by cases hs), fun _ => rfl, fun r hr => (by cases hr)⟩
  | buying amt n =>
      obtain ⟨rfl, -⟩ := Prod.mk.inj (Option.some.inj h)
      exact ⟨fun hs => (by cases hs), fun hs => (by cases hs), fun _ _ => rfl⟩
  | selling amt n =>
      obtain ⟨rfl, -⟩ := Prod.mk.inj (Option.some.inj h)
      exact ⟨fun hs => (by cases hs), fun hs => (by cases hs), fun _ _ => rfl⟩
  | done =>
      exact ⟨fun hs => (by cases hs), fun hs => (by cases hs), fun r hr => (by cases hr)⟩
  | error msg =>
      exact ⟨fun hs => (by cases hs), fun hs => (by cases hs), fun r hr => (by cases hr)⟩

/-- A handler that stays lets the clocks run on. -/
theorem dispatch_stays {m : Sniper} {i : Input}
    (h : ∀ target, ((m.ready i).dispatch i m.state).2 ≠ .transition target) :
    ((m.ready i).dispatch i m.state).1.buyDelayTimer = (m.ready i).buyDelayTimer ∧
      ((m.ready i).dispatch i m.state).1.whenBoughtTimer = m.storage.whenBoughtTimer ∧
      ∀ r, m.state.retry = some r →
        ((m.ready i).dispatch i m.state).1.tracker.timeoutTimer
          = m.storage.tracker.timeoutTimer := by
  obtain ⟨tracker, t, heq⟩ := dispatch_eq (m.ready i) i m.state
  obtain ⟨delay, hready⟩ := ready_eq m i
  have hbought : (m.ready i).whenBoughtTimer = m.storage.whenBoughtTimer := by rw [hready]
  have htracker : (m.ready i).tracker = m.storage.tracker := by rw [hready]
  refine ⟨by rw [heq], by rw [heq]; exact hbought, ?_⟩
  intro r hr
  rw [← htracker]
  cases hs : m.state with
  | buying amt n =>
      rw [hs] at h
      exact FoxfireAgent.attempt_stays_timer h
  | selling amt n =>
      rw [hs] at h
      exact FoxfireAgent.attempt_stays_timer h
  | waitingToBuy => rw [hs] at hr; cases hr
  | waitingToSell => rw [hs] at hr; cases hr
  | done => rw [hs] at hr; cases hr
  | error msg => rw [hs] at hr; cases hr

/-- **ONE STEP**: the clock of the phase was started before the event ended. -/
theorem Running.step {inst : SnipingStrategyInstance} {c : Instant} {m m' : Sniper} {i : Input}
    {out : List Effect} (hI : Running inst c m) (hadm : (lateHeartBeats inst).Admits c i)
    (h : handle m i = some (m', out)) : Running inst i.enteredAt m' := by
  obtain ⟨hinit, hnow, hend⟩ := hadm
  have hc : c ≤ i.enteredAt := hinit.trans (hnow.trans hend)
  have hinst := (handle_keeps h).trans hI.inst
  cases hd : (m.ready i).dispatch i m.state with
  | mk a resp =>
      have hstays : (∀ target, resp ≠ .transition target) → m' = ⟨m.state, a, true⟩ →
          Running inst i.enteredAt m' := by
        intro hresp hm'
        obtain ⟨hdelay, hbought, hlap⟩ := dispatch_stays (m := m) (i := i) (by
          rw [hd]
          exact hresp)
        rw [hd] at hdelay hbought hlap
        refine ⟨hinst, ?_, ?_, ?_⟩
        · intro _ hs
          rw [hm'] at hs ⊢
          show a.buyDelayTimer ≤ _
          rw [hdelay, Sniper.ready]
          split
          · next hm => exact (hI.delay hm hs).trans hc
          · exact hnow.trans hend
        · intro hs
          rw [hm'] at hs ⊢
          exact hbought.trans_le ((hI.bought hs).trans hc)
        · intro r hr
          rw [hm'] at hr ⊢
          obtain ⟨hticks, hstart⟩ := hI.lap r hr
          show a.tracker.timeoutTimer.lapTicks = _ ∧ a.tracker.timeoutTimer.start ≤ _
          rw [hlap r hr]
          exact ⟨hticks, hstart.trans hc⟩
      cases resp with
      | transition target =>
          obtain ⟨hs, he⟩ := handle_transition hd h
          obtain ⟨hdelay, hbought, hlap⟩ := enter_starts he
          refine ⟨hinst, ?_, ?_, ?_⟩
          · intro _ hw
            exact (hdelay (hs ▸ hw)).le
          · intro hw
            exact (hbought (hs ▸ hw)).le
          · intro r hr
            rw [hlap r (hs ▸ hr)]
            exact ⟨rfl, Nat.le_refl _⟩
      | super =>
          exact hstays (fun _ heq => (by cases heq)) (handle_stay hd (Or.inl rfl) h).1
      | handled =>
          exact hstays (fun _ heq => (by cases heq)) (handle_stay hd (Or.inr rfl) h).1

-- ── A late heartbeat ────────────────────────────────────────────────────────

/-- The heartbeat that `lateHeartBeats` counts. -/
theorem counts_eq_true {inst : SnipingStrategyInstance} {c : Instant} {i : Input}
    (h : (lateHeartBeats inst).counts c i = true) :
    ∃ tick at_, i.event = .original (.heartBeat tick at_) ∧ c + inst.patience tick ≤ i.now := by
  simp only [lateHeartBeats] at h
  split at h
  · next tick at_ hev => exact ⟨tick, at_, hev, of_decide_eq_true h⟩
  · cases h

/-- What is left when the timeout has fired. -/
theorem attempt_fires {a : SniperAgentState} {i : Input} {tick : TickSizeMs} {at_ : Instant}
    {retryAction success : State} {n : Nat} (hev : i.event = .original (.heartBeat tick at_))
    (htime : a.tracker.timeoutTimer.isTimeElapsed tick i.now = true) :
    ∃ target, (a.conditionalTransition i retryAction success n).2 = .transition target := by
  have heq : (a.conditionalTransition i retryAction success n).2
      = retryOrError n retryAction .error .transferActionTimeout := by
    rw [SniperAgentState.conditionalTransition, hev]
    simp only [attemptTransition, ActionTracker.isCooledDownBeforeRetry, if_pos htime]
  rw [heq]
  exact FoxfireAgent.retryOrError_moves n retryAction .error .transferActionTimeout

/-- **A LATE HEARTBEAT LEAVES THE PHASE.** -/
theorem Running.overdue {inst : SnipingStrategyInstance} {c : Instant} {m : Sniper} {i : Input}
    (hI : Running inst c m) (hm : m.initialized = true) (hover : m.state.over = false)
    (hcount : (lateHeartBeats inst).counts c i = true) :
    ∃ target, ((m.ready i).dispatch i m.state).2 = .transition target := by
  obtain ⟨tick, at_, hev, hlate⟩ := counts_eq_true hcount
  have hpatience : inst.patience tick ≤ i.now - c := Nat.le_sub_of_add_le' hlate
  rw [SnipingStrategyInstance.patience, max_le_iff, max_le_iff] at hpatience
  obtain ⟨⟨hdelay, htimeout⟩, hhorizon⟩ := hpatience
  rw [ready_initialized hm]
  have hfires : ∀ r, m.state.retry = some r →
      m.storage.tracker.timeoutTimer.isTimeElapsed tick i.now = true := by
    intro r hr
    obtain ⟨hticks, hstart⟩ := hI.lap r hr
    refine FoxfireAgent.lap_elapsed (by rw [hticks]; exact Nat.succ_pos _) ?_
    rw [hticks, Stopwatch.ticksElapsed, Nat.le_div_iff_mul_le tick.pos]
    exact htimeout.trans (Nat.sub_le_sub_left hstart i.now)
  cases hs : m.state with
  | waitingToBuy =>
      have hstart : (m.storage.buyDelayTimer : Nat) ≤ c := hI.delay hm hs
      have hheld : (i.now - c : Nat) ≤ i.now - m.storage.buyDelayTimer :=
        Nat.sub_le_sub_left hstart i.now
      have hgone : m.storage.snipingStrategyInstance.buyDelayMs % 2 ^ 128
          < (i.now - m.storage.buyDelayTimer : Nat) := by
        rw [hI.inst]
        refine Int.lt_of_le_of_lt (Int.self_le_toNat _) (Int.ofNat_lt.mpr ?_)
        exact Nat.lt_of_succ_le (hdelay.trans hheld)
      refine ⟨.buying (.exact (solToLamports m.storage.snipingStrategyInstance.sizeSol)) 0, ?_⟩
      show m.storage.waitingToBuy i = _
      rw [SniperAgentState.waitingToBuy]
      exact if_pos (Or.inr hgone)
  | waitingToSell =>
      have hstart : (m.storage.whenBoughtTimer : Nat) ≤ c := hI.bought hs
      have hheld : (i.now - c : Nat) ≤ i.now - m.storage.whenBoughtTimer :=
        Nat.sub_le_sub_left hstart i.now
      have hgone : m.storage.snipingStrategyInstance.forceExitHorizonS % 2 ^ 64
          < (m.storage.secondsHeld i : Nat) := by
        rw [hI.inst, SniperAgentState.secondsHeld]
        refine Int.lt_of_le_of_lt (Int.self_le_toNat _) (Int.ofNat_lt.mpr ?_)
        rw [Nat.lt_div_iff_mul_lt (by decide)]
        have hseconds := hhorizon.trans hheld
        omega
      refine ⟨.selling .maxAndClose 0, ?_⟩
      show (m.storage.waitingToSell i).2 = _
      rw [SniperAgentState.waitingToSell, if_pos hgone]
  | buying amt n => exact attempt_fires hev (hfires n (by rw [hs]; rfl))
  | selling amt n => exact attempt_fires hev (hfires n (by rw [hs]; rfl))
  | done => rw [hs] at hover; cases hover
  | error msg => rw [hs] at hover; cases hover

-- ── The ranking ─────────────────────────────────────────────────────────────

end FoxfireSnipe
