import Mathlib.Data.List.Sort
import FoxfireSniper.ActionQueueProofs
import FoxfireSniper.EngineProofs
import FoxfireSniper.HandoverProofs

/-! # The way of an action — from an agent to the executors

    `queue_action`, `process_event`, the task of `spawn_strategy` and `Engine::run` put
    together.  The agents of every strategy push into the vector of their strategy; a task
    that has an event calls `process_event`, which takes the vector at its end, and sends what
    it got to the action channel, one by one; the loops of the executors receive there.

    Any number of tasks may work for a strategy, as they do when one was stopped and another
    is spawned.  A task is only ever aborted where it awaits something, and from the moment
    it has the lock of the vector until it has sent everything it awaits nothing: so a task
    that was aborted is one that does not go on from `free`.

    The deposit strategy has no agents: `process_event` returns an action that is in no cache.

    * `Sound` keeps the books of all strategies: what a task was handed is on the channel or in
      its hands, and comes from one strategy.
    * **`actions_carried_once`**: whatever comes first, no executor starts an action twice, or
      one that nobody queued; and nothing is lost but what its receiver has missed.
    * **`actions_in_order`**: the actions of a strategy that one task works for are started in
      the order in which the agents pushed them. -/

namespace SharedVec

variable {τ σ β α : Type} [DecidableEq τ] {r : Registry σ β α} {s s' : State τ σ α}
  {out : List (Event α)}

/-- Only the end of a call returns anything. -/
theorem returned_of_step {way : Drain} {m : Move τ β} {batch : List α}
    (h : step r way s m = some (s', out)) (hbatch : .returned batch ∈ out) : m = .unlockAll := by
  cases m with
  | unlockAll => rfl
  | register p b | lock p | push p | unlock p | lockAll | replace | clear =>
      simp only [step] at h
      split at h
      · obtain ⟨-, rfl⟩ := Prod.mk.inj (Option.some.inj h)
        simp at hbatch
      · cases h
  | clone =>
      simp only [step] at h
      split at h
      · split at h
        · obtain ⟨-, rfl⟩ := Prod.mk.inj (Option.some.inj h)
          cases hbatch
        · obtain ⟨-, rfl⟩ := Prod.mk.inj (Option.some.inj h)
          cases hbatch
      · cases h

/-- What a step means to everybody else. -/
inductive Shown (r : Registry σ β α) (s s' : State τ σ α) : List (Event α) → Prop
  | nothing (hstore : s'.store = s.store) : Shown r s s' []
  | registered {item : α} (hserial : r.serial item = r.next s.store)
      (hnext : r.next s'.store = r.next s.store + 1) : Shown r s s' [.registered item]
  | pushed {item : α} (hstore : s'.store = s.store) : Shown r s s' [.pushed item]
  | returned {batch : List α} (hstore : s'.store = s.store)
      (hdrained : s.consumer = .drained batch) : Shown r s s' [.returned batch]

theorem Stepped.shown (h : Stepped r s s' out) : Shown r s s' out := by
  cases h with
  | register hp => exact .registered (r.serial_register _ _) (r.next_register _ _)
  | lock | unlock | lockAll | replace | clone | skip | clear => exact .nothing rfl
  | push hp => exact .pushed rfl
  | unlockAll hdrained => exact .returned rfl hdrained

omit [DecidableEq τ] in
theorem Shown.next_le (h : Shown r s s' out) : r.next s.store ≤ r.next s'.store := by
  cases h with
  | nothing hstore | pushed hstore | returned hstore =>
      rw [hstore]
  | registered _ hnext =>
      rw [hnext]
      exact Nat.le_succ _

omit [DecidableEq τ] in
/-- What is registered later was registered before, or is new. -/
theorem Shown.registered_cases (h : Shown r s s' out) {hist : History α} {a : α}
    (ha : a ∈ (out.foldl History.enter hist).registered) :
    a ∈ hist.registered ∨ r.serial a = r.next s.store := by
  cases h with
  | nothing | pushed | returned => exact Or.inl ha
  | registered hserial _ =>
      rcases List.mem_append.mp ha with ha | ha
      · exact Or.inl ha
      · rw [List.mem_singleton.mp ha]
        exact Or.inr hserial

omit [DecidableEq τ] in
theorem Shown.registered_mono (h : Shown r s s' out) {hist : History α} {a : α}
    (ha : a ∈ hist.registered) : a ∈ (out.foldl History.enter hist).registered := by
  cases h with
  | nothing | pushed | returned => exact ha
  | registered => exact List.mem_append_left _ ha

omit [DecidableEq τ] in
theorem Shown.returned_eq (h : Shown r s s' out) (hout : ∀ batch, .returned batch ∉ out)
    (hist : History α) : (out.foldl History.enter hist).returned = hist.returned := by
  cases h with
  | nothing | registered | pushed => rfl
  | @returned batch => exact absurd List.mem_cons_self (hout batch)

omit [DecidableEq τ] in
/-- The books do not depend on the cache, as long as it does not forget what it has given
    out. -/
theorem Inv.restore {h : History α} {store : σ} (hinv : Inv r (s, h))
    (hstore : r.next s.store ≤ r.next store) : Inv r ({ s with store := store }, h) where
  held := hinv.held
  heldAll := hinv.heldAll
  cloned := hinv.cloned
  split := hinv.split
  once := hinv.once
  serials a ha := (hinv.serials a ha).trans_le hstore
  registered := hinv.registered
  carried := hinv.carried
  apart := hinv.apart

end SharedVec

namespace FoxfireEngine

open Broadcast

variable {E A σ : Type} {t : Engine E A σ} {k : Nat} {r : Reader}

/-- The actions that executor `k` has spawned a task for. -/
def Engine.started (t : Engine E A σ) (k : Nat) : List A :=
  t.jobs.filterMap fun job => if job.executor = k then some job.action else none

/-- They are what is at the positions that it has read. -/
theorem started_eq (h : Pumped t) (k : Nat) :
    t.started k = (t.executed k).filterMap fun p => t.actions.log[p]? := by
  rw [Engine.started, Engine.executed, List.filterMap_filterMap]
  refine List.filterMap_congr fun job hjob => ?_
  rw [Job.positionFor]
  split
  · rw [Option.bind_some, h.actions job hjob]
  · rfl

theorem started_length (t : Engine E A σ) (k : Nat) :
    (t.started k).length = (t.executed k).length := by
  rw [Engine.started, Engine.executed, List.length_filterMap_eq_countP,
    List.length_filterMap_eq_countP]
  refine List.countP_congr fun job _ => ?_
  rw [Job.positionFor]
  split
  · exact Iff.rfl
  · exact Iff.rfl

theorem filterMap_range {α : Type} (log : List α) :
    (List.range log.length).filterMap (fun p => log[p]?) = log := by
  induction log using List.reverseRecOn with
  | nil => rfl
  | append_singleton log a ih =>
      have hold : (List.range log.length).filterMap (fun p => (log ++ [a])[p]?) = log := by
        rw [List.filterMap_congr fun p hp => List.getElem?_append_left (List.mem_range.mp hp), ih]
      rw [List.length_append, List.length_singleton, List.range_succ, List.filterMap_append, hold]
      simp

/-- An executor starts actions that were sent, in their order. -/
theorem started_sublist (h : Pumped t) (hk : t.executors[k]? = some r) :
    (t.started k).Sublist t.actions.log := by
  obtain ⟨-, hsound, hgot⟩ := h.readers k r hk
  have hrange : (t.executed k).Sublist (List.range t.actions.log.length) := by
    rw [hgot]
    refine List.sublist_of_subperm_of_pairwise (r := (· < ·)) ?_ hsound.inOrder
      List.pairwise_lt_range
    refine hsound.inOrder.nodup.subperm fun p hp => List.mem_range.mpr ?_
    exact (hsound.passed p hp).2.trans_le hsound.sent
  rw [started_eq h]
  have hsub := hrange.filterMap fun p => t.actions.log[p]?
  rwa [filterMap_range] at hsub

/-- As long as no more were sent than the channel keeps, it has started the first ones. -/
theorem started_take (h : Pumped t) (hk : t.executors[k]? = some r)
    (hfew : t.actions.log.length ≤ t.actions.capacity) :
    t.started k = t.actions.log.take r.next := by
  obtain ⟨hstart, hsound, hgot⟩ := h.readers k r hk
  have hmissed : r.missed = 0 := by
    by_contra hm
    exact Nat.not_lt.mpr hfew (hsound.kept (Nat.pos_of_ne_zero hm))
  have hexecuted : t.executed k = List.range r.next := by
    rw [hgot, hsound.whole hmissed, hstart, Nat.sub_zero, List.range_eq_range']
  have hsent : r.next ≤ t.actions.log.length := hsound.sent
  have htake := filterMap_range (t.actions.log.take r.next)
  rw [List.length_take, Nat.min_eq_left hsent] at htake
  rw [started_eq h, hexecuted]
  refine (List.filterMap_congr fun p hp => ?_).trans htake
  rw [List.getElem?_take_of_lt (List.mem_range.mp hp)]

end FoxfireEngine

namespace FoxfireActionPath

open FoxfireTypes FoxfireActionQueue FoxfireEngine MachineRun

variable {τ E σ : Type}

-- ── The bot ─────────────────────────────────────────────────────────────────

/-- Where a task of `spawn_strategy` is. -/
inductive TaskPhase where
  /-- It waits for an event, or for the strategy to handle one. -/
  | free
  /-- The end of its call of `process_event`, from the lock of the vector on. -/
  | taking (strategy : Nat)
  /-- `for action in actions`: these are still to be sent. -/
  | sending (actions : List ActionRef)
  deriving DecidableEq

structure Bot (τ E σ : Type) where
  /-- `all_system_actions`, which all strategies share. -/
  actions : SystemActions
  /-- The vectors of the strategies.  What each of them has for a cache is out of date. -/
  queues  : Nat → SharedVec.State τ SystemActions ActionRef
  tasks   : Nat → TaskPhase
  engine  : Engine E ActionRef σ

/-- What happens next. -/
inductive Move (τ E : Type) where
  /-- An agent of a strategy, or the call that has the lock of its vector, makes a step. -/
  | queue (strategy : Nat) (m : SharedVec.Move τ SolanaAction)
  /-- A task's call of `process_event` gets the lock of the vector. -/
  | take (task strategy : Nat)
  /-- The call returns. -/
  | back (task : Nat)
  /-- A call of the deposit strategy's `process_event` returns. -/
  | deposit (task : Nat) (action : SolanaAction)
  /-- `action_sender.send(action)`, or the end of the loop. -/
  | send (task : Nat)
  | engine (i : FoxfireEngine.Input E ActionRef)

inductive Out where
  | queue (strategy : Nat) (e : SharedVec.Event ActionRef)
  | deposit (action : ActionRef)

variable [DecidableEq τ]

namespace Bot

/-- A step on the vector of a strategy, with the cache as it is. -/
def work (kind : Nat → StrategyKind) (b : Bot τ E σ) (n : Nat)
    (m : SharedVec.Move τ SolanaAction) : Option (Bot τ E σ × List Out) :=
  (SharedVec.step systemActions (kind n).drain { b.queues n with store := b.actions } m).map
    fun p => ({ b with actions := p.1.store, queues := Function.update b.queues n p.1 },
      p.2.map (Out.queue n))

omit [DecidableEq τ] in
/-- The task at `t` gets on. -/
def setTask (b : Bot τ E σ) (t : Nat) (phase : TaskPhase) : Bot τ E σ :=
  { b with tasks := Function.update b.tasks t phase }

end Bot

/-- **ONE STEP.** -/
def path (kind : Nat → StrategyKind) (aggregateEvent : σ → E → Option (σ × List E)) :
    Step (Bot τ E σ) (Move τ E) Out
  | b, .queue n m =>
      match m with
      | .lockAll   => none
      | .unlockAll => none
      | m          => b.work kind n m
  | b, .take t n =>
      match b.tasks t with
      | .free => (b.work kind n .lockAll).map fun p => (p.1.setTask t (.taking n), p.2)
      | _     => none
  | b, .back t =>
      match b.tasks t with
      | .taking n =>
          match (b.queues n).consumer with
          | .drained batch =>
              (b.work kind n .unlockAll).map fun p => (p.1.setTask t (.sending batch), p.2)
          | _              => none
      | _         => none
  | b, .deposit t action =>
      match b.tasks t with
      | .free =>
          let given : ActionRef := ⟨b.actions.allocated, action⟩
          some ({ b with
            actions := { b.actions with allocated := b.actions.allocated + 1 }
            tasks := Function.update b.tasks t (.sending [given]) }, [.deposit given])
      | _     => none
  | b, .send t =>
      match b.tasks t with
      | .sending []             => some (b.setTask t .free, [])
      | .sending (action :: as) => some ({ b with
          tasks := Function.update b.tasks t (.sending as)
          engine := { b.engine with actions := b.engine.actions.send action } }, [])
      | _                       => none
  | b, .engine i =>
      match i with
      | .act _ => none
      | i      => (engine aggregateEvent b.engine i).map fun p => ({ b with engine := p.1 }, [])

-- ── What a step can do ──────────────────────────────────────────────────────

omit [DecidableEq τ] in
/-- The vector of a strategy, with the cache as it is. -/
def Bot.queue (b : Bot τ E σ) (n : Nat) : SharedVec.State τ SystemActions ActionRef :=
  { b.queues n with store := b.actions }

omit [DecidableEq τ] in
/-- The bot after a step on a vector. -/
def Bot.worked (b : Bot τ E σ) (n : Nat) (s : SharedVec.State τ SystemActions ActionRef) :
    Bot τ E σ :=
  { b with actions := s.store, queues := Function.update b.queues n s }

/-- Everything a step can do. -/
inductive Moved (aggregateEvent : σ → E → Option (σ × List E)) (b : Bot τ E σ) :
    Move τ E → Bot τ E σ → List Out → Prop
  | worked {n : Nat} {m : SharedVec.Move τ SolanaAction}
      {s : SharedVec.State τ SystemActions ActionRef} {out : List (SharedVec.Event ActionRef)}
      (hs : SharedVec.Stepped systemActions (b.queue n) s out)
      (hout : ∀ batch, .returned batch ∉ out) :
      Moved aggregateEvent b (.queue n m) (b.worked n s) (out.map (Out.queue n))
  | took {t n : Nat} {s : SharedVec.State τ SystemActions ActionRef}
      {out : List (SharedVec.Event ActionRef)} (hfree : b.tasks t = .free)
      (hs : SharedVec.Stepped systemActions (b.queue n) s out)
      (hout : ∀ batch, .returned batch ∉ out) :
      Moved aggregateEvent b (.take t n) ((b.worked n s).setTask t (.taking n))
        (out.map (Out.queue n))
  | gave {t n : Nat} {batch : List ActionRef} {s : SharedVec.State τ SystemActions ActionRef}
      (htaking : b.tasks t = .taking n)
      (hs : SharedVec.Stepped systemActions (b.queue n) s [.returned batch]) :
      Moved aggregateEvent b (.back t) ((b.worked n s).setTask t (.sending batch))
        [.queue n (.returned batch)]
  | deposited {t : Nat} {action : SolanaAction} (hfree : b.tasks t = .free) :
      Moved aggregateEvent b (.deposit t action)
        { b with
          actions := { b.actions with allocated := b.actions.allocated + 1 }
          tasks := Function.update b.tasks t (.sending [⟨b.actions.allocated, action⟩]) }
        [.deposit ⟨b.actions.allocated, action⟩]
  | finished {t : Nat} (hdone : b.tasks t = .sending []) :
      Moved aggregateEvent b (.send t) (b.setTask t .free) []
  | sent {t : Nat} {action : ActionRef} {as : List ActionRef}
      (hsending : b.tasks t = .sending (action :: as)) :
      Moved aggregateEvent b (.send t)
        { b with
          tasks := Function.update b.tasks t (.sending as)
          engine := { b.engine with actions := b.engine.actions.send action } } []
  | ran {i : FoxfireEngine.Input E ActionRef} {e : Engine E ActionRef σ}
      {reports : List (Report E)} (hi : FoxfireEngine.Stepped aggregateEvent b.engine i e reports)
      (hact : ∀ a, i ≠ .act a) :
      Moved aggregateEvent b (.engine i) { b with engine := e } []

variable {kind : Nat → StrategyKind} {aggregateEvent : σ → E → Option (σ × List E)}
  {b b' : Bot τ E σ} {out : List Out}

theorem work_eq_some {n : Nat} {m : SharedVec.Move τ SolanaAction}
    (h : b.work kind n m = some (b', out)) :
    ∃ s es, SharedVec.step systemActions (kind n).drain (b.queue n) m = some (s, es) ∧
      b' = b.worked n s ∧ out = es.map (Out.queue n) := by
  obtain ⟨⟨s, es⟩, hstep, heq⟩ := Option.map_eq_some_iff.mp h
  obtain ⟨rfl, rfl⟩ := Prod.mk.inj heq
  exact ⟨s, es, hstep, rfl, rfl⟩

/-- **INVERSION.** -/
theorem moved_of_step {i : Move τ E} (h : path kind aggregateEvent b i = some (b', out)) :
    Moved aggregateEvent b i b' out := by
  cases i with
  | queue n m =>
      have hwork : b.work kind n m = some (b', out) ∧ m ≠ .unlockAll := by
        cases m with
        | lockAll | unlockAll => cases h
        | register | lock | push | unlock | replace | clone | clear =>
            exact ⟨h, fun hm => by cases hm⟩
      obtain ⟨s, es, hstep, rfl, rfl⟩ := work_eq_some hwork.1
      exact .worked (SharedVec.stepped_of_step hstep)
        fun batch hbatch => hwork.2 (SharedVec.returned_of_step hstep hbatch)
  | take t n =>
      rw [path] at h
      split at h
      · next hfree =>
          obtain ⟨⟨b₁, out₁⟩, hwork, heq⟩ := Option.map_eq_some_iff.mp h
          obtain ⟨s, es, hstep, rfl, rfl⟩ := work_eq_some hwork
          obtain ⟨rfl, rfl⟩ := Prod.mk.inj heq
          refine .took hfree (SharedVec.stepped_of_step hstep) fun batch hbatch => ?_
          cases SharedVec.returned_of_step hstep hbatch
      · cases h
  | back t =>
      rw [path] at h
      split at h
      · next n htaking =>
          split at h
          · next batch hdrained =>
              obtain ⟨⟨b₁, out₁⟩, hwork, heq⟩ := Option.map_eq_some_iff.mp h
              obtain ⟨s, es, hstep, rfl, rfl⟩ := work_eq_some hwork
              obtain ⟨rfl, rfl⟩ := Prod.mk.inj heq
              have hes : es = [.returned batch] := by
                simp only [SharedVec.step, Bot.queue, hdrained, Option.some.injEq,
                  Prod.mk.injEq] at hstep
                exact hstep.2.symm
              subst hes
              exact .gave htaking (SharedVec.stepped_of_step hstep)
          · cases h
      · cases h
  | deposit t action =>
      rw [path] at h
      split at h
      · next hfree =>
          obtain ⟨rfl, rfl⟩ := Prod.mk.inj (Option.some.inj h)
          exact .deposited hfree
      · cases h
  | send t =>
      rw [path] at h
      split at h
      · next hdone =>
          obtain ⟨rfl, rfl⟩ := Prod.mk.inj (Option.some.inj h)
          exact .finished hdone
      · next action as hsending =>
          obtain ⟨rfl, rfl⟩ := Prod.mk.inj (Option.some.inj h)
          exact .sent hsending
      · cases h
  | engine i =>
      have hrun : (engine aggregateEvent b.engine i).map
          (fun p => (({ b with engine := p.1 }, []) : Bot τ E σ × List Out)) = some (b', out) ∧
          ∀ a, i ≠ .act a := by
        cases i with
        | act a => cases h
        | publish | receive | execute | startAggregator | aggregate | derive =>
            exact ⟨h, fun a hi => by cases hi⟩
      obtain ⟨⟨e, reports⟩, hi, heq⟩ := Option.map_eq_some_iff.mp hrun.1
      obtain ⟨rfl, rfl⟩ := Prod.mk.inj heq
      exact .ran (FoxfireEngine.stepped_of_step hi) hrun.2

-- ── The books ───────────────────────────────────────────────────────────────

/-- What the agents and the deposit strategy have done so far: a history variable. -/
structure Ledger where
  hist    : Nat → SharedVec.History ActionRef
  deposit : List ActionRef

namespace Ledger

def empty : Ledger := ⟨fun _ => .empty, []⟩

def setHist (l : Ledger) (n : Nat) (h : SharedVec.History ActionRef) : Ledger :=
  { l with hist := Function.update l.hist n h }

def enter (l : Ledger) : Out → Ledger
  | .queue n e  => l.setHist n ((l.hist n).enter e)
  | .deposit a  => { l with deposit := l.deposit ++ [a] }

/-- A call of `process_event` has returned the action. -/
def Given (l : Ledger) (a : ActionRef) : Prop :=
  (∃ n, a ∈ (l.hist n).returned.flatten) ∨ a ∈ l.deposit

theorem foldl_queue (n : Nat) (es : List (SharedVec.Event ActionRef)) :
    ∀ l : Ledger, (es.map (Out.queue n)).foldl enter l =
      l.setHist n (es.foldl SharedVec.History.enter (l.hist n)) := by
  induction es with
  | nil =>
      intro l
      rw [setHist, List.map_nil, List.foldl_nil, List.foldl_nil, Function.update_eq_self]
  | cons e es ih =>
      intro l
      rw [List.map_cons, List.foldl_cons, List.foldl_cons, ih]
      simp only [enter, setHist, Function.update_self, Function.update_idem]

end Ledger

omit [DecidableEq τ] in
def note (l : Ledger) (_ : Bot τ E σ) (_ : Move τ E) (_ : Bot τ E σ) (out : List Out) : Ledger :=
  out.foldl Ledger.enter l

def TaskPhase.hand : TaskPhase → List ActionRef
  | .sending actions => actions
  | _                => []

omit [DecidableEq τ] in
/-- What a task has still to send. -/
def Bot.hand (b : Bot τ E σ) (t : Nat) : List ActionRef := (b.tasks t).hand

/-- The books of the strategies: an action is registered by one of them, or by the deposit
    strategy. -/
structure Registered (b : Bot τ E σ) (l : Ledger) : Prop where
  queues  : ∀ n, SharedVec.Inv systemActions (b.queue n, l.hist n)
  apart   : ∀ n m a, a ∈ (l.hist n).registered → a ∈ (l.hist m).registered → n = m
  deposit : ∀ a ∈ l.deposit, a.address < b.actions.allocated ∧ ∀ n, a ∉ (l.hist n).registered

/-- And of their tasks: what they were handed is on the channel, or in somebody's hands. -/
structure Sound (b : Bot τ E σ) (l : Ledger) : Prop extends Registered b l where
  books  : Handover.Books b.hand b.engine.actions.log l.Given
  pumped : Pumped b.engine

variable {l : Ledger}

omit [DecidableEq τ] in
/-- Everything registered was allocated. -/
theorem Registered.allocated (h : Registered b l) {n : Nat} {a : ActionRef}
    (ha : a ∈ (l.hist n).registered) : a.address < b.actions.allocated :=
  (h.queues n).serials a ha

omit [DecidableEq τ] in
/-- What was returned was registered. -/
theorem Registered.returned (h : Registered b l) {n : Nat} {a : ActionRef}
    (ha : a ∈ (l.hist n).returned.flatten) : a ∈ (l.hist n).registered :=
  (h.queues n).delivered.registered a ha

omit [DecidableEq τ] in
theorem Registered.given (h : Registered b l) {a : ActionRef} (ha : l.Given a) :
    a.address < b.actions.allocated := by
  rcases ha with ⟨n, ha⟩ | ha
  · exact h.allocated (h.returned ha)
  · exact (h.deposit a ha).1

omit [DecidableEq τ] in
theorem hand_setTask (b : Bot τ E σ) (t : Nat) (phase : TaskPhase) :
    (b.setTask t phase).hand = Function.update b.hand t phase.hand := by
  funext q
  show TaskPhase.hand (Function.update b.tasks t phase q) = _
  by_cases hq : q = t
  · subst hq
    rw [Function.update_self, Function.update_self]
  · rw [Function.update_of_ne hq, Function.update_of_ne hq]
    rfl

/-- **A STEP ON A VECTOR** keeps the books of all strategies. -/
theorem Registered.work {n : Nat} {s : SharedVec.State τ SystemActions ActionRef}
    {es : List (SharedVec.Event ActionRef)} (h : Registered b l)
    (hs : SharedVec.Stepped systemActions (b.queue n) s es) :
    Registered (b.worked n s)
      (l.setHist n (es.foldl SharedVec.History.enter (l.hist n))) := by
  have hshown := hs.shown
  have hmono : b.actions.allocated ≤ s.store.allocated := hshown.next_le
  have hkept := SharedVec.step_kept (h.queues n) hs
  -- what is registered under a number was there, or is new under `n`
  have hcases : ∀ m a, a ∈ (Function.update l.hist n (es.foldl SharedVec.History.enter
      (l.hist n)) m).registered →
      a ∈ (l.hist m).registered ∨ (m = n ∧ a.address = b.actions.allocated) := by
    intro m a ha
    by_cases hm : m = n
    · subst hm
      rw [Function.update_self] at ha
      exact (hshown.registered_cases ha).imp_right fun hnew => ⟨rfl, hnew⟩
    · rw [Function.update_of_ne hm] at ha
      exact Or.inl ha
  refine ⟨?_, ?_, ?_⟩
  · intro m
    by_cases hm : m = n
    · subst hm
      have hqueue : (b.worked m s).queue m = s := by
        rw [Bot.queue, Bot.worked]
        simp only [Function.update_self]
      rw [hqueue, Ledger.setHist]
      simp only [Function.update_self]
      exact hkept
    · have hqueue : (b.worked n s).queue m = { b.queue m with store := s.store } := by
        rw [Bot.queue, Bot.worked, Bot.queue]
        simp only [Function.update_of_ne hm]
      rw [hqueue, Ledger.setHist]
      simp only [Function.update_of_ne hm]
      exact (h.queues m).restore hmono
  · intro m q a ha ha'
    rcases hcases m a ha with hold | ⟨rfl, hnew⟩
    · rcases hcases q a ha' with hold' | ⟨-, hnew'⟩
      · exact h.apart m q a hold hold'
      · exact absurd (h.allocated hold) (by rw [hnew']; exact Nat.lt_irrefl _)
    · rcases hcases q a ha' with hold' | ⟨rfl, -⟩
      · exact absurd (h.allocated hold') (by rw [hnew]; exact Nat.lt_irrefl _)
      · rfl
  · intro a ha
    obtain ⟨hlt, hnot⟩ := h.deposit a ha
    refine ⟨hlt.trans_le hmono, fun m hm => ?_⟩
    rcases hcases m a hm with hold | ⟨-, hnew⟩
    · exact hnot m hold
    · rw [hnew] at hlt
      exact Nat.lt_irrefl _ hlt

omit [DecidableEq τ] in
/-- A new allocation of the deposit strategy. -/
theorem Registered.allocate (h : Registered b l) (action : SolanaAction)
    (tasks : Nat → TaskPhase) :
    Registered
      { b with
        actions := { b.actions with allocated := b.actions.allocated + 1 }
        tasks := tasks }
      (l.enter (.deposit ⟨b.actions.allocated, action⟩)) := by
  refine ⟨?_, h.apart, ?_⟩
  · exact fun n => (h.queues n).restore (Nat.le_succ b.actions.allocated)
  · intro a ha
    rcases List.mem_append.mp ha with ha | ha
    · obtain ⟨hlt, hnot⟩ := h.deposit a ha
      exact ⟨Nat.lt_succ_of_lt hlt, hnot⟩
    · rw [List.mem_singleton.mp ha]
      exact ⟨Nat.lt_succ_self _, fun n hn => Nat.lt_irrefl _ (h.allocated hn)⟩

omit [DecidableEq τ] in
/-- The batch in the hands of a call is new to everybody. -/
theorem Registered.batch_new (h : Registered b l) {n : Nat} {batch : List ActionRef}
    (hdrained : (b.queue n).consumer = .drained batch) :
    batch.Nodup ∧ (∀ a ∈ batch, a ∈ (l.hist n).registered) ∧ ∀ a ∈ batch, ¬ l.Given a := by
  have hinv := h.queues n
  have hsplit := hinv.split
  rw [show (b.queue n).consumer = _ from hdrained] at hsplit
  have honce := hinv.once
  rw [show (l.hist n).pushed = _ from hsplit] at honce
  have hpushed : ∀ a ∈ batch, a ∈ (l.hist n).pushed := by
    intro a ha
    rw [show (l.hist n).pushed = _ from hsplit]
    exact List.mem_append_right _ (List.mem_append_left _ ha)
  have hregistered : ∀ a ∈ batch, a ∈ (l.hist n).registered :=
    fun a ha => hinv.registered a (hpushed a ha)
  refine ⟨honce.sublist ((List.sublist_append_left batch _).trans
    (List.sublist_append_right _ _)), hregistered, ?_⟩
  rintro a ha (⟨m, hm⟩ | hm)
  · obtain rfl := h.apart n m a (hregistered a ha) (h.returned hm)
    exact (List.nodup_append.mp honce).2.2 a hm a (List.mem_append_left _ ha) rfl
  · exact (h.deposit a hm).2 n (hregistered a ha)

theorem returned_setHist {n : Nat} {hist : SharedVec.History ActionRef}
    (hreturned : hist.returned = (l.hist n).returned) (m : Nat) :
    ((l.setHist n hist).hist m).returned = (l.hist m).returned := by
  show (Function.update l.hist n hist m).returned = _
  by_cases hm : m = n
  · subst hm
    rw [Function.update_self, hreturned]
  · rw [Function.update_of_ne hm]

theorem given_setHist {n : Nat} {hist : SharedVec.History ActionRef} {a : ActionRef}
    (hreturned : hist.returned = (l.hist n).returned) :
    (l.setHist n hist).Given a ↔ l.Given a := by
  simp only [Ledger.Given, returned_setHist hreturned]
  rfl

theorem given_returned {n : Nat} {batch : List ActionRef} {a : ActionRef} :
    (l.setHist n ((l.hist n).enter (.returned batch))).Given a ↔ l.Given a ∨ a ∈ batch := by
  have heq : ∀ m, a ∈
      (Function.update l.hist n ((l.hist n).enter (.returned batch)) m).returned.flatten ↔
        a ∈ (l.hist m).returned.flatten ∨ (m = n ∧ a ∈ batch) := by
    intro m
    by_cases hm : m = n
    · subst hm
      rw [Function.update_self]
      show a ∈ ((l.hist m).returned ++ [batch]).flatten ↔ _
      rw [List.flatten_append, List.flatten_singleton, List.mem_append]
      simp
    · rw [Function.update_of_ne hm]
      simp [hm]
  show (∃ m, a ∈ (Function.update l.hist n _ m).returned.flatten) ∨ a ∈ l.deposit ↔ _
  simp only [heq, Ledger.Given]
  constructor
  · rintro (⟨m, hm | ⟨-, hm⟩⟩ | hm)
    · exact Or.inl (Or.inl ⟨m, hm⟩)
    · exact Or.inr hm
    · exact Or.inl (Or.inr hm)
  · rintro ((⟨m, hm⟩ | hm) | hm)
    · exact Or.inl ⟨m, Or.inl hm⟩
    · exact Or.inr hm
    · exact Or.inl ⟨n, Or.inr ⟨rfl, hm⟩⟩

theorem actions_of_stepped {t t' : Engine E ActionRef σ} {i : FoxfireEngine.Input E ActionRef}
    {reports : List (Report E)} (h : FoxfireEngine.Stepped aggregateEvent t i t' reports)
    (hact : ∀ a, i ≠ .act a) : t'.actions = t.actions := by
  cases h with
  | acted a => exact absurd rfl (hact a)
  | published | spawned | missed | failed | reported | started | aggregated | panicked | lagged
  | derived => rfl

/-- **WHAT ONE MOVE KEEPS.** -/
theorem Sound.move {i : Move τ E} (h : Sound b l) (hm : Moved aggregateEvent b i b' out) :
    Sound b' (out.foldl Ledger.enter l) := by
  cases hm with
  | @worked n m s es hs hout =>
      rw [Ledger.foldl_queue]
      exact ⟨h.toRegistered.work hs, h.books.congr rfl fun a =>
        given_setHist (hs.shown.returned_eq hout _), h.pumped⟩
  | @took t n s es hfree hs hout =>
      rw [Ledger.foldl_queue]
      obtain ⟨hqueues, hapart, hdeposit⟩ := h.toRegistered.work hs
      refine ⟨⟨hqueues, hapart, hdeposit⟩, h.books.congr ?_ fun a =>
        given_setHist (hs.shown.returned_eq hout _), h.pumped⟩
      have hhand : b.hand t = [] := by rw [Bot.hand, hfree]; rfl
      rw [hand_setTask]
      exact (congrArg _ hhand.symm).trans (Function.update_eq_self t b.hand)
  | @gave t n batch s htaking hs =>
      have hdrained : (b.queue n).consumer = .drained batch := by
        cases hs.shown with
        | returned _ hdrained => exact hdrained
      obtain ⟨hnodup, -, hnew⟩ := h.toRegistered.batch_new hdrained
      obtain ⟨hqueues, hapart, hdeposit⟩ := h.toRegistered.work hs
      have hhand : b.hand t = [] := by rw [Bot.hand, htaking]; rfl
      exact ⟨⟨hqueues, hapart, hdeposit⟩, (h.books.give hhand hnodup hnew).congr
        (hand_setTask (b.worked n s) t _) fun a => given_returned, h.pumped⟩
  | @deposited t action hfree =>
      have hhand : b.hand t = [] := by rw [Bot.hand, hfree]; rfl
      have hnew : ∀ a ∈ [(⟨b.actions.allocated, action⟩ : ActionRef)], ¬ l.Given a := by
        intro a ha hgiven
        rw [List.mem_singleton.mp ha] at hgiven
        exact Nat.lt_irrefl _ (h.given hgiven)
      refine ⟨h.toRegistered.allocate action _, (h.books.give hhand
        (List.nodup_singleton _) hnew).congr (hand_setTask b t _) fun a => ?_, h.pumped⟩
      show (∃ n, _) ∨ a ∈ l.deposit ++ [_] ↔ _
      rw [List.mem_append, ← or_assoc]
      rfl
  | @finished t hdone =>
      have hhand : b.hand t = [] := by rw [Bot.hand, hdone]; rfl
      refine ⟨⟨h.queues, h.apart, h.deposit⟩, h.books.congr ?_ fun a => Iff.rfl, h.pumped⟩
      rw [hand_setTask]
      exact (congrArg _ hhand.symm).trans (Function.update_eq_self t b.hand)
  | @sent t action as hsending =>
      have hhand : b.hand t = action :: as := by rw [Bot.hand, hsending]; rfl
      exact ⟨⟨h.queues, h.apart, h.deposit⟩, (h.books.send hhand).congr (hand_setTask b t _)
        fun a => Iff.rfl, h.pumped.act action⟩
  | ran hi hact =>
      refine ⟨⟨h.queues, h.apart, h.deposit⟩, ?_, h.pumped.step hi⟩
      rw [show _ = b.engine.actions from actions_of_stepped hi hact]
      exact h.books

-- ── Runs ────────────────────────────────────────────────────────────────────

omit [DecidableEq τ] in
/-- Nothing is queued, and the engine has been started. -/
def begin (executors : Nat) (aggregators : List σ) (eventCapacity actionCapacity : Nat) :
    Bot τ E σ × Ledger :=
  (⟨.new, fun _ => ⟨.new, [], none, fun _ => .idle, .idle⟩, fun _ => .free,
    Engine.start executors aggregators eventCapacity actionCapacity⟩, .empty)

omit [DecidableEq τ] in
theorem sound_begin (executors : Nat) (aggregators : List σ) (eventCapacity actionCapacity : Nat) :
    Sound (begin (τ := τ) (E := E) executors aggregators eventCapacity actionCapacity).1
      .empty where
  queues _ := SharedVec.begin_inv systemActions .new
  apart _ _ _ ha := absurd ha List.not_mem_nil
  deposit _ ha := absurd ha List.not_mem_nil
  books := Handover.Books.nothing.congr rfl fun a => by
    simp [Ledger.Given, Ledger.empty, SharedVec.History.empty]
  pumped := pumped_start ..

theorem sound_of_reach {C : Bot τ E σ × Ledger → Move τ E → Prop} {t t' : Bot τ E σ × Ledger}
    (ht : Sound t.1 t.2) (h : Reach (tracked (path kind aggregateEvent) note) C t t') :
    Sound t'.1 t'.2 := by
  refine h.invariant (I := fun t => Sound t.1 t.2) ht ?_
  rintro ⟨b, l⟩ i ⟨b', l'⟩ out hs - hstep
  obtain ⟨hmove, hnote⟩ := tracked_eq_some hstep
  obtain rfl : l' = out.foldl Ledger.enter l := hnote
  exact hs.move (moved_of_step hmove)

/-- An agent of a strategy has pushed the action, or the deposit strategy has returned it. -/
def Ledger.Queued (l : Ledger) (a : ActionRef) : Prop :=
  (∃ n, a ∈ (l.hist n).pushed) ∨ a ∈ l.deposit

omit [DecidableEq τ] in
/-- The action has still to be taken by a call of `process_event`, or to be sent by a task. -/
def Bot.Waits (b : Bot τ E σ) (a : ActionRef) : Prop :=
  (∃ n, a ∈ (b.queues n).consumer.batch ++ (b.queues n).vec) ∨ ∃ t, a ∈ b.hand t

omit [DecidableEq τ] in
/-- What was queued waits, or has been sent. -/
theorem Sound.queued_iff (h : Sound b l) (a : ActionRef) :
    l.Queued a ↔ b.Waits a ∨ a ∈ b.engine.actions.log := by
  have hpushed : ∀ n, a ∈ (l.hist n).pushed ↔
      a ∈ (l.hist n).returned.flatten ∨ a ∈ (b.queues n).consumer.batch ++ (b.queues n).vec := by
    intro n
    rw [show (l.hist n).pushed = _ from (h.queues n).split, List.mem_append]
    rfl
  have hall := h.books.all a
  simp only [Ledger.Given] at hall
  simp only [Ledger.Queued, Bot.Waits, hpushed, exists_or]
  tauto

/-- **NO ACTION IS EXECUTED TWICE, OR LOST ON THE WAY**: however the agents of all strategies,
    the calls of `process_event`, the tasks that send what these return and the executors come
    together, an executor starts each action at most once, and only actions that an agent has
    pushed or the deposit strategy has returned.  Every such action waits or has been sent,
    and every action that was sent has been started, is still to be received, or is among
    those that the executor's receiver was told it had missed, of which there are none until
    more were sent than the channel keeps. -/
theorem actions_carried_once {executors : Nat} {aggregators : List σ}
    {eventCapacity actionCapacity : Nat} {k : Nat} {r : Broadcast.Reader}
    (h : Reach (tracked (path kind aggregateEvent) note) Always
      (begin executors aggregators eventCapacity actionCapacity) (b, l))
    (hk : b.engine.executors[k]? = some r) :
    (b.engine.started k).Nodup ∧ (∀ a ∈ b.engine.started k, l.Queued a) ∧
      (∀ a, l.Queued a ↔ b.Waits a ∨ a ∈ b.engine.actions.log) ∧
      b.engine.actions.log.Nodup ∧
      (b.engine.started k).length + r.missed = r.next ∧
      (b.engine.actions.log.length ≤ b.engine.actions.capacity →
        b.engine.started k = b.engine.actions.log.take r.next) := by
  have hsound : Sound b l := sound_of_reach (sound_begin ..) h
  have hsub := started_sublist hsound.pumped hk
  obtain ⟨hstart, hreader, hgot⟩ := hsound.pumped.readers k r hk
  refine ⟨hsound.books.once.sublist hsub, ?_, hsound.queued_iff, hsound.books.once, ?_,
    started_take hsound.pumped hk⟩
  · exact fun a ha => (hsound.queued_iff a).mpr (Or.inr (hsub.mem ha))
  · have hcount := hreader.counted
    have hlength : (b.engine.started k).length = r.got.length := by
      rw [← hgot]
      exact started_length b.engine k
    omega

/-- The two agents of a volume strategy, and a deposit: the second agent pushes when the first
    call has replaced the vector, and the deposit is sent before the batch of the call is. -/
def volumeAndDeposit : List (Move Bool Unit) :=
  (queueAction true (anAction 1)).map (Move.queue 0) ++
  [.queue 0 (.register false (anAction 2)), .take 0 0, .queue 0 .replace, .back 0,
    .deposit 1 (anAction 3), .send 1] ++
  ((queueAction false (anAction 2)).tail).map (Move.queue 0) ++
  [.send 0, .send 0, .take 0 0, .queue 0 .replace, .back 0, .send 0, .send 1] ++
  List.replicate 3 (.engine (.receive 0))

theorem volume_and_deposit_once :
    ∃ (b : Bot Bool Unit Unit) (l : Ledger),
      b.engine.started 0 = [⟨2, anAction 3⟩, ⟨0, anAction 1⟩, ⟨1, anAction 2⟩] ∧
      (b.engine.started 0).Nodup ∧ ∀ a ∈ b.engine.started 0, l.Queued a := by
  have hview : (run (tracked (path (fun _ => .volume) fun (s : Unit) (_ : Unit) => some (s, []))
      note) (begin 1 [] 8 8) volumeAndDeposit).map
        (fun p => (p.1.1.engine.started 0, p.1.1.engine.executors)) =
    some ([⟨2, anAction 3⟩, ⟨0, anAction 1⟩, ⟨1, anAction 2⟩], [⟨0, 3, [0, 1, 2], 0⟩]) := by
    decide
  obtain ⟨⟨⟨b, l⟩, out⟩, hrun, heq⟩ := Option.map_eq_some_iff.mp hview
  obtain ⟨hstarted, hexecutors⟩ := Prod.mk.inj heq
  have hk : b.engine.executors[0]? = some ⟨0, 3, [0, 1, 2], 0⟩ := by
    rw [show b.engine.executors = _ from hexecutors]
    rfl
  obtain ⟨honce, hqueued, -⟩ :=
    actions_carried_once (reach_of_run (fun _ _ => trivial) hrun) hk
  exact ⟨b, l, hstarted, honce, hqueued⟩

-- ── One task for each strategy ──────────────────────────────────────────────

/-- Is the action one of the strategy? -/
def Ledger.mine (l : Ledger) (n : Nat) (a : ActionRef) : Bool :=
  decide (a ∈ (l.hist n).registered)

/-- The strategies that a task works for are its own. -/
structure Ordered (own : Nat → Nat) (b : Bot τ E σ) (l : Ledger) : Prop where
  taking : ∀ t n, b.tasks t = .taking n → t = own n
  order  : ∀ n, Handover.InOrder b.hand b.engine.actions.log (l.mine n) (own n)
    (l.hist n).returned.flatten

/-- Only the strategy's own task calls its `process_event`. -/
def OwnTask (own : Nat → Nat) : Move τ E → Prop
  | .take t n => t = own n
  | _         => True

instance (own : Nat → Nat) : DecidablePred (OwnTask (τ := τ) (E := E) own)
  | .take t n => inferInstanceAs (Decidable (t = own n))
  | .queue .. | .back .. | .deposit .. | .send .. | .engine .. => isTrue trivial

variable {own : Nat → Nat}

/-- What is under way is whose it was, whoever registers something new. -/
theorem mine_worked {n : Nat} {s : SharedVec.State τ SystemActions ActionRef}
    {es : List (SharedVec.Event ActionRef)} (h : Sound b l)
    (hs : SharedVec.Stepped systemActions (b.queue n) s es) (m : Nat) {a : ActionRef}
    (ha : a ∈ b.engine.actions.log ∨ ∃ t, a ∈ b.hand t) :
    (l.setHist n (es.foldl SharedVec.History.enter (l.hist n))).mine m a = l.mine m a := by
  have hold : a.address ≠ b.actions.allocated :=
    Nat.ne_of_lt (h.given ((h.books.all a).mpr ha))
  have hiff : a ∈ (es.foldl SharedVec.History.enter (l.hist n)).registered ↔
      a ∈ (l.hist n).registered := by
    constructor
    · exact fun hmem => (hs.shown.registered_cases hmem).resolve_right hold
    · exact fun hmem => hs.shown.registered_mono hmem
  rw [Ledger.mine, Ledger.mine, Ledger.setHist]
  by_cases hm : m = n
  · subst hm
    simp only [Function.update_self, hiff]
  · simp only [Function.update_of_ne hm]

omit [DecidableEq τ] in
/-- Who is taking after a task has got on. -/
theorem taking_setTask {t n q : Nat} {phase : TaskPhase}
    (h : Function.update b.tasks t phase q = .taking n) :
    (q = t ∧ phase = .taking n) ∨ b.tasks q = .taking n := by
  by_cases hq : q = t
  · subst hq
    rw [Function.update_self] at h
    exact Or.inl ⟨rfl, h⟩
  · rw [Function.update_of_ne hq] at h
    exact Or.inr h

omit [DecidableEq τ] in
/-- Nobody starts taking when a task gets on to something else. -/
theorem Ordered.taking_other (h : Ordered own b l) {t : Nat} {phase : TaskPhase}
    (hphase : ∀ n, phase ≠ .taking n) (q n : Nat)
    (hq : Function.update b.tasks t phase q = .taking n) : q = own n := by
  rcases taking_setTask hq with ⟨-, heq⟩ | hq
  · exact absurd heq (hphase n)
  · exact h.taking q n hq

/-- What is returned is not registered again. -/
theorem Ledger.mine_returned (l : Ledger) (n : Nat) (batch : List ActionRef) (m : Nat) :
    (l.setHist n ((l.hist n).enter (.returned batch))).mine m = l.mine m := by
  funext a
  rw [Ledger.mine, Ledger.mine, Ledger.setHist]
  by_cases hm : m = n
  · subst hm
    simp only [Function.update_self, SharedVec.History.enter]
  · simp only [Function.update_of_ne hm]

omit [DecidableEq τ] in
/-- A task that had nothing to send, and has nothing. -/
theorem hand_same {t : Nat} {phase : TaskPhase} (hold : (b.tasks t).hand = [])
    (hnew : phase.hand = []) : (b.setTask t phase).hand = b.hand := by
  rw [hand_setTask, hnew, ← show b.hand t = [] from hold, Function.update_eq_self]

/-- A step on a vector that returns nothing. -/
theorem Ordered.work {n : Nat} {s : SharedVec.State τ SystemActions ActionRef}
    {es : List (SharedVec.Event ActionRef)} {hand : Nat → List ActionRef} (h : Sound b l)
    (ho : Ordered own b l) (hs : SharedVec.Stepped systemActions (b.queue n) s es)
    (hout : ∀ batch, .returned batch ∉ es) (hhand : hand = b.hand) (m : Nat) :
    Handover.InOrder hand b.engine.actions.log
      ((l.setHist n (es.foldl SharedVec.History.enter (l.hist n))).mine m) (own m)
      ((l.setHist n (es.foldl SharedVec.History.enter (l.hist n))).hist m).returned.flatten := by
  rw [returned_setHist (hs.shown.returned_eq hout _)]
  exact (ho.order m).congr hhand fun a ha => mine_worked h hs m ha

/-- **A BATCH IS HANDED TO ITS TASK.** -/
theorem Ordered.give {n : Nat} {batch : List ActionRef}
    {s : SharedVec.State τ SystemActions ActionRef} (h : Sound b l) (ho : Ordered own b l)
    (hs : SharedVec.Stepped systemActions (b.queue n) s [.returned batch])
    (hhand : b.hand (own n) = []) (m : Nat) :
    Handover.InOrder (Function.update b.hand (own n) batch) b.engine.actions.log
      ((l.setHist n ((l.hist n).enter (.returned batch))).mine m) (own m)
      ((l.setHist n ((l.hist n).enter (.returned batch))).hist m).returned.flatten := by
  have hdrained : (b.queue n).consumer = .drained batch := by
    cases hs.shown with
    | returned _ hdrained => exact hdrained
  obtain ⟨-, hbatch, -⟩ := h.toRegistered.batch_new hdrained
  rw [Ledger.mine_returned]
  by_cases hm : m = n
  · subst hm
    have hreturned : ((l.setHist m ((l.hist m).enter (.returned batch))).hist m).returned.flatten =
        (l.hist m).returned.flatten ++ batch := by
      rw [Ledger.setHist]
      simp only [Function.update_self, SharedVec.History.enter, List.flatten_append,
        List.flatten_singleton]
    rw [hreturned]
    exact (ho.order m).give hhand fun a ha => decide_eq_true (hbatch a ha)
  · have hreturned : ((l.setHist n ((l.hist n).enter (.returned batch))).hist m).returned =
        (l.hist m).returned := by
      rw [Ledger.setHist]
      simp only [Function.update_of_ne hm]
    rw [hreturned]
    refine (ho.order m).giveOther hhand fun a ha => decide_eq_false fun hmem => ?_
    exact hm (h.apart m n a hmem (hbatch a ha))

/-- **ONE MOVE KEEPS THE ORDER.** -/
theorem Ordered.move {i : Move τ E} (h : Sound b l) (ho : Ordered own b l)
    (hi : OwnTask own i) (hm : Moved aggregateEvent b i b' out) :
    Ordered own b' (out.foldl Ledger.enter l) := by
  cases hm with
  | @worked n m s es hs hout =>
      rw [Ledger.foldl_queue]
      exact ⟨ho.taking, fun m => ho.work h hs hout rfl m⟩
  | @took t n s es hfree hs hout =>
      have hhand : b.hand t = [] := by rw [Bot.hand, hfree]; rfl
      rw [Ledger.foldl_queue]
      refine ⟨?_, fun m => ho.work h hs hout (hand_same (b := b.worked n s) hhand rfl) m⟩
      intro q m hq
      rcases taking_setTask hq with ⟨rfl, hphase⟩ | hq
      · cases hphase
        exact hi
      · exact ho.taking q m hq
  | @gave t n batch s htaking hs =>
      have hhand : b.hand t = [] := by rw [Bot.hand, htaking]; rfl
      obtain rfl := ho.taking t n htaking
      refine ⟨ho.taking_other (fun _ hphase => by cases hphase), fun m => ?_⟩
      exact (ho.give h hs hhand m).congr (hand_setTask (b.worked n s) (own n) _) fun _ _ => rfl
  | @deposited t action hfree =>
      have hhand : b.hand t = [] := by rw [Bot.hand, hfree]; rfl
      refine ⟨ho.taking_other (fun _ hphase => by cases hphase), fun m => ?_⟩
      have hbatch : ∀ a ∈ [(⟨b.actions.allocated, action⟩ : ActionRef)], l.mine m a = false := by
        intro a ha
        rw [List.mem_singleton.mp ha]
        exact decide_eq_false fun hmem => Nat.lt_irrefl _ (h.allocated hmem)
      exact ((ho.order m).giveOther hhand hbatch).congr (hand_setTask b t _) fun _ _ => rfl
  | @finished t hdone =>
      have hhand : b.hand t = [] := by rw [Bot.hand, hdone]; rfl
      refine ⟨ho.taking_other (fun _ hphase => by cases hphase), fun m => ?_⟩
      exact (ho.order m).congr (hand_same hhand rfl) fun _ _ => rfl
  | @sent t action as hsending =>
      have hhand : b.hand t = action :: as := by rw [Bot.hand, hsending]; rfl
      refine ⟨ho.taking_other (fun _ hphase => by cases hphase), fun m => ?_⟩
      exact ((ho.order m).send hhand).congr (hand_setTask b t _) fun _ _ => rfl
  | ran hi' hact =>
      refine ⟨ho.taking, fun m => ?_⟩
      rw [show _ = b.engine.actions from actions_of_stepped hi' hact]
      exact ho.order m

omit [DecidableEq τ] in
theorem ordered_begin (own : Nat → Nat) (executors : Nat) (aggregators : List σ)
    (eventCapacity actionCapacity : Nat) :
    Ordered own (begin (τ := τ) (E := E) executors aggregators eventCapacity actionCapacity).1
      .empty where
  taking _ _ htaking := by cases htaking
  order _ := ⟨rfl, fun _ _ _ ha => absurd ha List.not_mem_nil⟩

theorem ordered_of_reach {t t' : Bot τ E σ × Ledger} (hsound : Sound t.1 t.2)
    (ht : Ordered own t.1 t.2)
    (h : Reach (tracked (path kind aggregateEvent) note) (fun _ i => OwnTask own i) t t') :
    Sound t'.1 t'.2 ∧ Ordered own t'.1 t'.2 := by
  refine h.invariant (I := fun t => Sound t.1 t.2 ∧ Ordered own t.1 t.2) ⟨hsound, ht⟩ ?_
  rintro ⟨b, l⟩ i ⟨b', l'⟩ out ⟨hs, ho⟩ hi hstep
  obtain ⟨hmove, hnote⟩ := tracked_eq_some hstep
  obtain rfl : l' = out.foldl Ledger.enter l := hnote
  have hmoved := moved_of_step hmove
  exact ⟨hs.move hmoved, ho.move hs hi hmoved⟩

omit [DecidableEq τ] in
/-- What the agents of a strategy have pushed, and how far it has come. -/
theorem Ordered.pushed (h : Sound b l) (ho : Ordered own b l) (n : Nat) :
    (l.hist n).pushed = (b.engine.actions.log ++ b.hand (own n)).filter (l.mine n) ++
      ((b.queues n).consumer.batch ++ (b.queues n).vec) := by
  rw [show (l.hist n).pushed = _ from (h.queues n).split, (ho.order n).order]
  rfl

/-- **THE ACTIONS OF A STRATEGY ARE STARTED IN THE ORDER OF THE PUSHES**, when one task works
    for it: what its agents have pushed is, in this order, what was sent, what its task has
    still to send, what a call of `process_event` has taken, and what is in the vector.  An
    executor starts a part of it, and as long as no more actions were sent than the channel
    keeps, the first ones, whatever the other strategies send in between. -/
theorem actions_in_order {executors : Nat} {aggregators : List σ}
    {eventCapacity actionCapacity : Nat} {k : Nat} {r : Broadcast.Reader}
    (h : Reach (tracked (path kind aggregateEvent) note) (fun _ i => OwnTask own i)
      (begin executors aggregators eventCapacity actionCapacity) (b, l))
    (hk : b.engine.executors[k]? = some r) (n : Nat) :
    (l.hist n).pushed = (b.engine.actions.log ++ b.hand (own n)).filter (l.mine n) ++
        ((b.queues n).consumer.batch ++ (b.queues n).vec) ∧
      ((b.engine.started k).filter (l.mine n)).Sublist (l.hist n).pushed ∧
      (b.engine.actions.log.length ≤ b.engine.actions.capacity →
        (b.engine.started k).filter (l.mine n) <+: (l.hist n).pushed) := by
  obtain ⟨hsound, hordered⟩ := ordered_of_reach (sound_begin ..) (ordered_begin ..) h
  have hpushed := hordered.pushed hsound n
  have hsent : b.engine.actions.log.filter (l.mine n) <+: (l.hist n).pushed := by
    rw [hpushed, List.filter_append, List.append_assoc]
    exact ⟨_, rfl⟩
  refine ⟨hpushed, ?_, fun hfew => ?_⟩
  · exact ((started_sublist hsound.pumped hk).filter _).trans hsent.sublist
  · rw [started_take hsound.pumped hk hfew]
    exact ((List.take_prefix _ _).filter _).trans hsent

/-- The strategies 0 and 1, with a task each; the batch of the first is sent around the one of
    the second. -/
def twoStrategies : List (Move Bool Unit) :=
  (queueAction true (anAction 1) ++ queueAction false (anAction 2)).map (Move.queue 0) ++
  (queueAction true (anAction 3)).map (Move.queue 1) ++
  [.take 0 0, .take 1 1, .queue 0 .replace, .queue 1 .replace, .back 0, .back 1, .send 0,
    .send 1, .send 0] ++ List.replicate 3 (.engine (.receive 0))

theorem two_strategies_in_order :
    ∃ (b : Bot Bool Unit Unit) (l : Ledger),
      b.engine.started 0 = [⟨0, anAction 1⟩, ⟨2, anAction 3⟩, ⟨1, anAction 2⟩] ∧
      (l.hist 0).pushed = [⟨0, anAction 1⟩, ⟨1, anAction 2⟩] ∧
      (b.engine.started 0).filter (l.mine 0) <+: (l.hist 0).pushed := by
  have hview : (runIf (tracked (path (fun _ => .volume)
      fun (s : Unit) (_ : Unit) => some (s, [])) note) (fun _ i => decide (OwnTask id i))
      (begin 1 [] 8 8) twoStrategies).map (fun p =>
        (p.1.1.engine.started 0, (p.1.2.hist 0).pushed, p.1.1.engine.executors,
          p.1.1.engine.actions.log.length, p.1.1.engine.actions.capacity)) =
    some ([⟨0, anAction 1⟩, ⟨2, anAction 3⟩, ⟨1, anAction 2⟩],
      [⟨0, anAction 1⟩, ⟨1, anAction 2⟩], [⟨0, 3, [0, 1, 2], 0⟩], 3, 8) := by decide
  obtain ⟨⟨⟨b, l⟩, out⟩, hrun, heq⟩ := Option.map_eq_some_iff.mp hview
  simp only [Prod.mk.injEq] at heq
  obtain ⟨hstarted, hpushed, hexecutors, hlength, hcapacity⟩ := heq
  have hk : b.engine.executors[0]? = some ⟨0, 3, [0, 1, 2], 0⟩ := by
    rw [hexecutors]
    rfl
  have hreach := reach_of_runIf (fun _ _ hown => of_decide_eq_true hown) hrun
  refine ⟨b, l, hstarted, hpushed, (actions_in_order hreach hk 0).2.2 ?_⟩
  rw [hlength, hcapacity]
  decide

end FoxfireActionPath
