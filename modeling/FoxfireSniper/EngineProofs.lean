import FoxfireSniper.MachineRunProofs
import FoxfireSniper.ReaderProofs

/-! # The engine

    `Engine::run` of `src/engine.rs`.  Two broadcast channels connect everything: collectors,
    aggregators and executors send events, the strategies' tasks send actions.  The loops of
    the executors and of the aggregators receive for ever; a lag is an error that the former
    drop and the latter log.

    An executor's loop spawns a task for every action it receives, so that executions overlap
    and return in any order.  An aggregator reads the channel that it sends its derived events
    to, and so reads these as well.

    The engine is generic in its events and actions.  Here it is so too; the values that
    nobody listens to, which `send` refuses, are on the channel as well, before the position
    at which any receiver starts.

    * **`actions_executed_once`**: an executor starts an action at most once, in the order in
      which they were sent, and passes over none but those it was told it had missed; each
      execution reports at most once. -/

namespace FoxfireEngine

open Broadcast MachineRun

-- ── The tasks ───────────────────────────────────────────────────────────────

/-- The task in which an executor executes an action. -/
structure Job (A : Type) where
  executor : Nat
  /-- Where on the channel the action was. -/
  position : Nat
  action   : A
  returned : Bool
  deriving DecidableEq

/-- The task of an aggregator. -/
structure AggregatorTask (E σ : Type) where
  reader   : Reader
  state    : σ
  /-- The derived events that it has not sent yet. -/
  derived  : List E
  panicked : Bool

/-- `aggregator.aggregate_event(event)`; a panic ends the task. -/
def AggregatorTask.read {E σ : Type} (aggregateEvent : σ → E → Option (σ × List E))
    (a : AggregatorTask E σ) (reader : Reader) (e : E) : AggregatorTask E σ :=
  match aggregateEvent a.state e with
  | none   => { a with reader := reader, panicked := true }
  | some p => { a with reader := reader, state := p.1, derived := p.2 }

structure Engine (E A σ : Type) where
  events      : Channel E
  actions     : Channel A
  /-- The receivers of the executors' loops. -/
  executors   : List Reader
  jobs        : List (Job A)
  /-- The aggregators that are not started yet. -/
  waiting     : List σ
  aggregators : List (AggregatorTask E σ)

/-- What happens next. -/
inductive Input (E A : Type) where
  /-- A collector, or anything outside the engine, sends an event. -/
  | publish (e : E)
  /-- The task of a strategy sends an action. -/
  | act (a : A)
  /-- `receiver.recv().await` of an executor's loop returns. -/
  | receive (k : Nat)
  /-- `executor.execute(action).await` of a job returns, with an event if it is `Ok`. -/
  | execute (j : Nat) (result : Option E)
  | startAggregator
  /-- `event_receiver.recv().await` of an aggregator returns. -/
  | aggregate (k : Nat)
  /-- An aggregator sends the next derived event. -/
  | derive (k : Nat)

/-- The event in which a job reports. -/
structure Report (E : Type) where
  job   : Nat
  event : E

namespace Engine

variable {E A σ : Type}

/-- `Engine::run`, when the executors' loops have been spawned. -/
def start (executors : Nat) (aggregators : List σ) (eventChannelCapacity
    actionChannelCapacity : Nat) : Engine E A σ where
  events := ⟨eventChannelCapacity, []⟩
  actions := ⟨actionChannelCapacity, []⟩
  executors := List.replicate executors ⟨0, 0, [], 0⟩
  jobs := []
  waiting := aggregators
  aggregators := []

/-- `if let Ok(action) = receiver.recv().await`: spawn a task for the action. -/
def receive (t : Engine E A σ) (k : Nat) : Option (Engine E A σ) :=
  (t.executors[k]?).bind fun r =>
    match r.recv t.actions with
    | (.value a, r')  => some { t with
        executors := t.executors.set k r'
        jobs := t.jobs ++ [⟨k, r.next, a, false⟩] }
    | (.lagged _, r') => some { t with executors := t.executors.set k r' }
    | (.empty, _)     => none

/-- A job ends, and sends the event that `execute` returned. -/
def execute (t : Engine E A σ) (j : Nat) (result : Option E) :
    Option (Engine E A σ × List (Report E)) :=
  (t.jobs[j]?).bind fun job =>
    if job.returned then none
    else
      let jobs := t.jobs.set j { job with returned := true }
      match result with
      | none   => some ({ t with jobs := jobs }, [])
      | some e => some ({ t with jobs := jobs, events := t.events.send e }, [⟨j, e⟩])

/-- The next aggregator subscribes. -/
def startAggregator (t : Engine E A σ) : Option (Engine E A σ) :=
  match t.waiting with
  | []        => none
  | s :: rest => some { t with
      waiting := rest
      aggregators := t.aggregators ++ [⟨.subscribe t.events, s, [], false⟩] }

def aggregate (aggregateEvent : σ → E → Option (σ × List E)) (t : Engine E A σ) (k : Nat) :
    Option (Engine E A σ) :=
  (t.aggregators[k]?).bind fun a =>
    match a.panicked, a.derived with
    | false, [] =>
        match a.reader.recv t.events with
        | (.value e, r')  =>
            some { t with aggregators := t.aggregators.set k (a.read aggregateEvent r' e) }
        | (.lagged _, r') =>
            some { t with aggregators := t.aggregators.set k { a with reader := r' } }
        | (.empty, _)     => none
    | _, _ => none

/-- `event_sender.send(derived_event)`. -/
def derive (t : Engine E A σ) (k : Nat) : Option (Engine E A σ) :=
  (t.aggregators[k]?).bind fun a =>
    match a.derived with
    | []      => none
    | e :: es => some { t with
        events := t.events.send e
        aggregators := t.aggregators.set k { a with derived := es } }

end Engine

variable {E A σ : Type}

/-- **ONE STEP.** -/
def engine (aggregateEvent : σ → E → Option (σ × List E)) :
    Step (Engine E A σ) (Input E A) (Report E)
  | t, .publish e        => some ({ t with events := t.events.send e }, [])
  | t, .act a            => some ({ t with actions := t.actions.send a }, [])
  | t, .receive k        => (t.receive k).map fun t' => (t', [])
  | t, .execute j result => t.execute j result
  | t, .startAggregator  => t.startAggregator.map fun t' => (t', [])
  | t, .aggregate k      => (t.aggregate aggregateEvent k).map fun t' => (t', [])
  | t, .derive k         => (t.derive k).map fun t' => (t', [])

-- ── What a step can do ──────────────────────────────────────────────────────

/-- Everything a step can do. -/
inductive Stepped (aggregateEvent : σ → E → Option (σ × List E)) (t : Engine E A σ) :
    Input E A → Engine E A σ → List (Report E) → Prop where
  | published (e : E) :
      Stepped aggregateEvent t (.publish e) { t with events := t.events.send e } []
  | acted (a : A) : Stepped aggregateEvent t (.act a) { t with actions := t.actions.send a } []
  | spawned {k : Nat} {r r' : Reader} {a : A} (hk : t.executors[k]? = some r)
      (hr : r.recv t.actions = (.value a, r')) :
      Stepped aggregateEvent t (.receive k) { t with
        executors := t.executors.set k r'
        jobs := t.jobs ++ [⟨k, r.next, a, false⟩] } []
  | missed {k missed : Nat} {r r' : Reader} (hk : t.executors[k]? = some r)
      (hr : r.recv t.actions = (.lagged missed, r')) :
      Stepped aggregateEvent t (.receive k) { t with executors := t.executors.set k r' } []
  | failed {j : Nat} {job : Job A} (hj : t.jobs[j]? = some job) (hret : job.returned = false) :
      Stepped aggregateEvent t (.execute j none)
        { t with jobs := t.jobs.set j { job with returned := true } } []
  | reported {j : Nat} {job : Job A} {e : E} (hj : t.jobs[j]? = some job)
      (hret : job.returned = false) :
      Stepped aggregateEvent t (.execute j (some e)) { t with
        jobs := t.jobs.set j { job with returned := true }
        events := t.events.send e } [⟨j, e⟩]
  | started {s : σ} {rest : List σ} (hwaiting : t.waiting = s :: rest) :
      Stepped aggregateEvent t .startAggregator { t with
        waiting := rest
        aggregators := t.aggregators ++ [⟨.subscribe t.events, s, [], false⟩] } []
  | aggregated {k : Nat} {a : AggregatorTask E σ} {r' : Reader} {e : E} {s' : σ} {es : List E}
      (hk : t.aggregators[k]? = some a) (halive : a.panicked = false) (hidle : a.derived = [])
      (hr : a.reader.recv t.events = (.value e, r'))
      (he : aggregateEvent a.state e = some (s', es)) :
      Stepped aggregateEvent t (.aggregate k) { t with
        aggregators := t.aggregators.set k ⟨r', s', es, false⟩ } []
  | panicked {k : Nat} {a : AggregatorTask E σ} {r' : Reader} {e : E}
      (hk : t.aggregators[k]? = some a) (halive : a.panicked = false) (hidle : a.derived = [])
      (hr : a.reader.recv t.events = (.value e, r')) (he : aggregateEvent a.state e = none) :
      Stepped aggregateEvent t (.aggregate k) { t with
        aggregators := t.aggregators.set k ⟨r', a.state, [], true⟩ } []
  | lagged {k missed : Nat} {a : AggregatorTask E σ} {r' : Reader}
      (hk : t.aggregators[k]? = some a) (halive : a.panicked = false) (hidle : a.derived = [])
      (hr : a.reader.recv t.events = (.lagged missed, r')) :
      Stepped aggregateEvent t (.aggregate k) { t with
        aggregators := t.aggregators.set k ⟨r', a.state, [], false⟩ } []
  | derived {k : Nat} {a : AggregatorTask E σ} {e : E} {es : List E}
      (hk : t.aggregators[k]? = some a) (hderived : a.derived = e :: es) :
      Stepped aggregateEvent t (.derive k) { t with
        events := t.events.send e
        aggregators := t.aggregators.set k { a with derived := es } } []

variable {aggregateEvent : σ → E → Option (σ × List E)} {t t' : Engine E A σ}

theorem receive_stepped {k : Nat} (h : t.receive k = some t') :
    Stepped aggregateEvent t (.receive k) t' [] := by
  obtain ⟨r, hk, h⟩ := Option.bind_eq_some_iff.mp h
  cases hr : r.recv t.actions with
  | mk received r' =>
      rw [hr] at h
      cases received with
      | value a =>
          obtain rfl := Option.some.inj h
          exact .spawned hk hr
      | lagged missed =>
          obtain rfl := Option.some.inj h
          exact .missed hk hr
      | empty => cases h

theorem execute_stepped {j : Nat} {result : Option E} {out : List (Report E)}
    (h : t.execute j result = some (t', out)) :
    Stepped aggregateEvent t (.execute j result) t' out := by
  obtain ⟨job, hj, h⟩ := Option.bind_eq_some_iff.mp h
  cases hret : job.returned with
  | true =>
      rw [if_pos hret] at h
      cases h
  | false =>
      rw [if_neg (by rw [hret]; exact Bool.false_ne_true)] at h
      cases result with
      | none =>
          obtain ⟨rfl, rfl⟩ := Prod.mk.inj (Option.some.inj h)
          exact .failed hj hret
      | some e =>
          obtain ⟨rfl, rfl⟩ := Prod.mk.inj (Option.some.inj h)
          exact .reported hj hret

theorem aggregate_stepped {k : Nat} (h : t.aggregate aggregateEvent k = some t') :
    Stepped aggregateEvent t (.aggregate k) t' [] := by
  obtain ⟨a, hk, h⟩ := Option.bind_eq_some_iff.mp h
  cases halive : a.panicked with
  | true => simp only [halive] at h; cases h
  | false =>
      cases hidle : a.derived with
      | cons e es => simp only [halive, hidle] at h; cases h
      | nil =>
          simp only [halive, hidle] at h
          cases hr : a.reader.recv t.events with
          | mk received r' =>
              rw [hr] at h
              cases received with
              | value e =>
                  obtain rfl := Option.some.inj h
                  rw [AggregatorTask.read]
                  cases he : aggregateEvent a.state e with
                  | none =>
                      rw [hidle]
                      exact .panicked hk halive hidle hr he
                  | some p =>
                      rw [halive]
                      exact .aggregated hk halive hidle hr he
              | lagged missed =>
                  obtain rfl := Option.some.inj h
                  exact .lagged hk halive hidle hr
              | empty => cases h

/-- **INVERSION.** -/
theorem stepped_of_step {i : Input E A} {out : List (Report E)}
    (h : engine aggregateEvent t i = some (t', out)) : Stepped aggregateEvent t i t' out := by
  cases i with
  | publish e =>
      obtain ⟨rfl, rfl⟩ := Prod.mk.inj (Option.some.inj h)
      exact .published e
  | act a =>
      obtain ⟨rfl, rfl⟩ := Prod.mk.inj (Option.some.inj h)
      exact .acted a
  | receive k =>
      obtain ⟨t'', ht, heq⟩ := Option.map_eq_some_iff.mp h
      obtain ⟨rfl, rfl⟩ := Prod.mk.inj heq
      exact receive_stepped ht
  | execute j result => exact execute_stepped h
  | startAggregator =>
      obtain ⟨t'', ht, heq⟩ := Option.map_eq_some_iff.mp h
      obtain ⟨rfl, rfl⟩ := Prod.mk.inj heq
      rw [Engine.startAggregator] at ht
      split at ht
      · cases ht
      · next hwaiting =>
          obtain rfl := Option.some.inj ht
          exact .started hwaiting
  | aggregate k =>
      obtain ⟨t'', ht, heq⟩ := Option.map_eq_some_iff.mp h
      obtain ⟨rfl, rfl⟩ := Prod.mk.inj heq
      exact aggregate_stepped ht
  | derive k =>
      obtain ⟨t'', ht, heq⟩ := Option.map_eq_some_iff.mp h
      obtain ⟨rfl, rfl⟩ := Prod.mk.inj heq
      obtain ⟨a, hk, ht⟩ := Option.bind_eq_some_iff.mp ht
      cases hderived : a.derived with
      | nil => simp only [hderived] at ht; cases ht
      | cons e es =>
          simp only [hderived] at ht
          obtain rfl := Option.some.inj ht
          exact .derived hk hderived

-- ── The executors ───────────────────────────────────────────────────────────

/-- The position of the action, if the job is one of executor `k`. -/
def Job.positionFor (k : Nat) (job : Job A) : Option Nat :=
  if job.executor = k then some job.position else none

/-- The actions that executor `k` has started, as positions on the channel. -/
def Engine.executed (t : Engine E A σ) (k : Nat) : List Nat :=
  t.jobs.filterMap (Job.positionFor k)

theorem executed_set {jobs : List (Job A)} {j k : Nat} {job : Job A}
    (hj : jobs[j]? = some job) :
    (jobs.set j { job with returned := true }).filterMap (Job.positionFor k) =
      jobs.filterMap (Job.positionFor k) := by
  have hmap : ∀ l : List (Job A), l.filterMap (Job.positionFor k) =
      (l.map (Job.positionFor k)).filterMap id := by
    intro l
    rw [List.filterMap_map]
    rfl
  obtain ⟨hlt, rfl⟩ := List.getElem?_eq_some_iff.mp hj
  rw [hmap, hmap, List.map_set]
  congr 1
  refine List.ext_getElem? ?_
  intro n
  rw [List.getElem?_set]
  split
  · next heq =>
      subst heq
      rw [List.length_map, if_pos hlt, List.getElem?_map, hj]
      rfl
  · rfl

/-- The executors' loops, and what they have started. -/
structure Pumped (t : Engine E A σ) : Prop where
  readers : ∀ k r, t.executors[k]? = some r →
    r.start = 0 ∧ r.Sound t.actions ∧ t.executed k = r.got
  actions : ∀ job ∈ t.jobs, t.actions.log[job.position]? = some job.action

theorem pumped_start (executors : Nat) (aggregators : List σ) (events actions : Nat) :
    Pumped (Engine.start (E := E) (A := A) executors aggregators events actions) := by
  constructor
  · intro k r hk
    rw [List.eq_of_mem_replicate (List.mem_of_getElem? hk)]
    exact ⟨rfl, Reader.Sound.subscribe _, rfl⟩
  · intro job hjob
    cases hjob

/-- Actions that are sent later change nothing of what was started. -/
theorem Pumped.act (h : Pumped t) (a : A) :
    Pumped { t with actions := t.actions.send a } := by
  constructor
  · intro k r hk
    obtain ⟨hstart, hsound, hgot⟩ := h.readers k r hk
    exact ⟨hstart, hsound.send a, hgot⟩
  · intro job hjob
    have hlog := h.actions job hjob
    show (t.actions.log ++ [a])[job.position]? = _
    rw [List.getElem?_append_left (List.getElem?_eq_some_iff.mp hlog).1, hlog]

/-- What is at a position after another entry has been put somewhere. -/
theorem getElem?_set_cases {α : Type} {l : List α} {k q : Nat} {x y : α}
    (hq : (l.set k x)[q]? = some y) : (q = k ∧ y = x) ∨ (q ≠ k ∧ l[q]? = some y) := by
  rw [List.getElem?_set] at hq
  by_cases hkq : k = q
  · rw [if_pos hkq] at hq
    split at hq
    · exact Or.inl ⟨hkq.symm, (Option.some.inj hq).symm⟩
    · cases hq
  · rw [if_neg hkq] at hq
    exact Or.inr ⟨Ne.symm hkq, hq⟩

theorem Pumped.spawn {k : Nat} {r r' : Reader} {a : A} (h : Pumped t)
    (hk : t.executors[k]? = some r) (hr : r.recv t.actions = (.value a, r')) :
    Pumped { t with
      executors := t.executors.set k r'
      jobs := t.jobs ++ [⟨k, r.next, a, false⟩] } := by
  obtain ⟨hstart, hsound, hgot⟩ := h.readers k r hk
  have hsound' := hsound.value hr
  obtain ⟨-, hget, rfl⟩ := Reader.recv_value hr
  constructor
  · intro q r₁ hq
    have hjobs : ∀ q, (t.jobs ++ [(⟨k, r.next, a, false⟩ : Job A)]).filterMap (Job.positionFor q) =
        t.executed q ++ if k = q then [r.next] else [] := by
      intro q
      rw [List.filterMap_append]
      by_cases hkq : k = q
      · simp [Engine.executed, Job.positionFor, hkq]
      · simp [Engine.executed, Job.positionFor, hkq]
    rcases getElem?_set_cases hq with ⟨rfl, rfl⟩ | ⟨hqk, hq⟩
    · refine ⟨hstart, hsound', (hjobs q).trans ?_⟩
      rw [if_pos rfl, hgot]
    · obtain ⟨hstart₁, hsound₁, hgot₁⟩ := h.readers q r₁ hq
      refine ⟨hstart₁, hsound₁, (hjobs q).trans ?_⟩
      rw [if_neg (Ne.symm hqk), List.append_nil, hgot₁]
  · intro job hjob
    rcases List.mem_append.mp hjob with hjob | hjob
    · exact h.actions job hjob
    · rw [List.mem_singleton.mp hjob]
      exact hget

theorem Pumped.miss {k missed : Nat} {r r' : Reader} (h : Pumped t)
    (hk : t.executors[k]? = some r) (hr : r.recv t.actions = (.lagged missed, r')) :
    Pumped { t with executors := t.executors.set k r' } := by
  obtain ⟨hstart, hsound, hgot⟩ := h.readers k r hk
  have hsound' := hsound.lagged hr
  obtain ⟨-, -, rfl⟩ := Reader.recv_lagged hr
  refine ⟨?_, h.actions⟩
  intro q r₁ hq
  rcases getElem?_set_cases hq with ⟨rfl, rfl⟩ | ⟨-, hq⟩
  · exact ⟨hstart, hsound', hgot⟩
  · exact h.readers q r₁ hq

theorem Pumped.return {j : Nat} {job : Job A} (h : Pumped t) (hj : t.jobs[j]? = some job)
    (events : Channel E) :
    Pumped { t with jobs := t.jobs.set j { job with returned := true }, events := events } := by
  constructor
  · intro k r hk
    obtain ⟨hstart, hsound, hgot⟩ := h.readers k r hk
    exact ⟨hstart, hsound, (executed_set hj).trans hgot⟩
  · intro job' hjob'
    rcases List.mem_or_eq_of_mem_set hjob' with hmem | rfl
    · exact h.actions job' hmem
    · exact h.actions job (List.mem_of_getElem? hj)

/-- **ONE STEP OF THE EXECUTORS' LOOPS.** -/
theorem Pumped.step {i : Input E A} {out : List (Report E)} (h : Pumped t)
    (hs : Stepped aggregateEvent t i t' out) : Pumped t' := by
  cases hs with
  | published e => exact ⟨h.readers, h.actions⟩
  | acted a => exact h.act a
  | spawned hk hr => exact h.spawn hk hr
  | missed hk hr => exact h.miss hk hr
  | failed hj _ => exact h.return hj t.events
  | reported hj _ => exact h.return hj _
  | started _ => exact ⟨h.readers, h.actions⟩
  | aggregated _ _ _ _ _ => exact ⟨h.readers, h.actions⟩
  | panicked _ _ _ _ _ => exact ⟨h.readers, h.actions⟩
  | lagged _ _ _ _ => exact ⟨h.readers, h.actions⟩
  | derived _ _ => exact ⟨h.readers, h.actions⟩

/-- The reports so far are of different jobs, all of which have returned. -/
structure Reported (past : List (Report E)) (t : Engine E A σ) : Prop where
  once     : (past.map Report.job).Nodup
  returned : ∀ r ∈ past, ∃ job, t.jobs[r.job]? = some job ∧ job.returned = true
  sent     : (past.map Report.event).Sublist t.events.log

theorem Reported.of_jobs {past : List (Report E)} (h : Reported past t)
    (hjobs : ∀ (j : Nat) (job : Job A), t.jobs[j]? = some job → job.returned = true →
      t'.jobs[j]? = some job)
    (hlog : t.events.log <+: t'.events.log) : Reported past t' := by
  refine ⟨h.once, ?_, h.sent.trans hlog.sublist⟩
  intro r hr
  obtain ⟨job, hj, hret⟩ := h.returned r hr
  exact ⟨job, hjobs _ _ hj hret, hret⟩

theorem returned_set {jobs : List (Job A)} {j k : Nat} {job job' : Job A}
    (hj : jobs[j]? = some job) (hret : job.returned = false) (hk : jobs[k]? = some job')
    (hret' : job'.returned = true) :
    (jobs.set j { job with returned := true })[k]? = some job' := by
  have hne : j ≠ k := by
    rintro rfl
    rw [hj] at hk
    obtain rfl := Option.some.inj hk
    rw [hret] at hret'
    cases hret'
  rw [List.getElem?_set_ne hne, hk]

theorem Reported.step {past : List (Report E)} {i : Input E A} {out : List (Report E)}
    (h : Reported past t) (hs : Stepped aggregateEvent t i t' out) : Reported (past ++ out) t' := by
  have hquiet : ∀ {u : Engine E A σ}, (∀ (j : Nat) (job : Job A), t.jobs[j]? = some job →
      job.returned = true → u.jobs[j]? = some job) → t.events.log <+: u.events.log →
      Reported (past ++ []) u := by
    intro u hu hlog
    rw [List.append_nil]
    exact h.of_jobs hu hlog
  have hlog := List.prefix_refl t.events.log
  cases hs with
  | published e => exact hquiet (fun _ _ hj _ => hj) (List.prefix_append _ _)
  | acted a => exact hquiet (fun _ _ hj _ => hj) hlog
  | spawned hk hr =>
      refine hquiet (fun j job hj _ => ?_) hlog
      show (t.jobs ++ _)[j]? = _
      rw [List.getElem?_append_left (List.getElem?_eq_some_iff.mp hj).1, hj]
  | missed hk hr => exact hquiet (fun _ _ hj _ => hj) hlog
  | failed hj hret => exact hquiet (fun _ _ hj' hret' => returned_set hj hret hj' hret') hlog
  | @reported j job e hj hret =>
      have hold : Reported past { t with jobs := t.jobs.set j { job with returned := true } } :=
        h.of_jobs (fun _ _ hj' hret' => returned_set hj hret hj' hret') hlog
      constructor
      · rw [List.map_append]
        refine List.nodup_append.mpr ⟨h.once, List.pairwise_singleton _ _, ?_⟩
        rintro a ha b hb rfl
        -- a job that has reported before had returned before
        obtain ⟨r, hr, rfl⟩ := List.mem_map.mp ha
        obtain ⟨job', hj', hret'⟩ := h.returned r hr
        rw [List.mem_singleton.mp hb] at hj'
        have hj'' : t.jobs[j]? = some job' := hj'
        rw [hj] at hj''
        obtain rfl := Option.some.inj hj''
        rw [hret] at hret'
        cases hret'
      · intro r hr
        rcases List.mem_append.mp hr with hr | hr
        · exact hold.returned r hr
        · rw [List.mem_singleton.mp hr]
          refine ⟨{ job with returned := true }, ?_, rfl⟩
          show (t.jobs.set j _)[j]? = _
          rw [List.getElem?_set_self (List.getElem?_eq_some_iff.mp hj).1]
      · rw [List.map_append]
        exact h.sent.append (List.Sublist.refl _)
  | started _ => exact hquiet (fun _ _ hj _ => hj) hlog
  | aggregated _ _ _ _ _ => exact hquiet (fun _ _ hj _ => hj) hlog
  | panicked _ _ _ _ _ => exact hquiet (fun _ _ hj _ => hj) hlog
  | lagged _ _ _ _ => exact hquiet (fun _ _ hj _ => hj) hlog
  | derived _ _ => exact hquiet (fun _ _ hj _ => hj) (List.prefix_append _ _)

theorem stepped_capacity {i : Input E A} {out : List (Report E)}
    (hs : Stepped aggregateEvent t i t' out) : t'.actions.capacity = t.actions.capacity := by
  cases hs <;> rfl

/-- **EVERY ACTION IS EXECUTED AT MOST ONCE, AND IN ORDER**: in every run of the engine, each
    executor starts the actions it receives in the order in which they were sent, each once,
    and passes over none but those that its receiver reported as missed, of which there are
    none until more were sent than the channel keeps.  An execution sends at most one event,
    and it is on the channel. -/
theorem actions_executed_once (aggregateEvent : σ → E → Option (σ × List E)) (executors : Nat)
    (aggregators : List σ) (eventCapacity actionCapacity : Nat) (inputs : List (Input E A))
    (t : Engine E A σ) (reports : List (Report E))
    (h : run (engine aggregateEvent)
      (Engine.start executors aggregators eventCapacity actionCapacity) inputs =
        some (t, reports)) :
    (∀ k r, t.executors[k]? = some r →
      (t.executed k).Pairwise (· < ·) ∧
      (t.executed k).length + r.missed = r.next ∧ r.next ≤ t.actions.log.length ∧
      (t.actions.log.length ≤ actionCapacity → t.executed k = List.range r.next)) ∧
    (∀ job ∈ t.jobs, t.actions.log[job.position]? = some job.action) ∧
    (reports.map Report.job).Nodup ∧
    (∀ report ∈ reports, ∃ job, t.jobs[report.job]? = some job ∧ job.returned = true) ∧
    (reports.map Report.event).Sublist t.events.log := by
  have hinit : Pumped (Engine.start (E := E) (A := A) executors aggregators eventCapacity
      actionCapacity) ∧ (Engine.start (E := E) (A := A) executors aggregators eventCapacity
      actionCapacity).actions.capacity = actionCapacity ∧
      Reported [] (Engine.start (E := E) (A := A) executors aggregators eventCapacity
        actionCapacity) :=
    ⟨pumped_start .., rfl, .nil, (fun r hr => by cases hr), List.Sublist.refl _⟩
  obtain ⟨hpumped, hcap, hreported⟩ := run_invariant
    (J := fun past u => Pumped u ∧ u.actions.capacity = actionCapacity ∧ Reported past u)
    (fun past u i u' out hJ hs => by
      have hstep := stepped_of_step hs
      exact ⟨hJ.1.step hstep, (stepped_capacity hstep).trans hJ.2.1, hJ.2.2.step hstep⟩)
    hinit h
  refine ⟨?_, hpumped.actions, hreported.once, hreported.returned, hreported.sent⟩
  intro k r hk
  obtain ⟨hstart, hsound, hgot⟩ := hpumped.readers k r hk
  rw [hgot]
  refine ⟨hsound.inOrder, ?_, hsound.sent, ?_⟩
  · have hcount := hsound.counted
    omega
  · intro hfew
    have hmissed : r.missed = 0 := by
      by_contra hm
      have hkept := hsound.kept (Nat.pos_of_ne_zero hm)
      rw [hcap] at hkept
      exact Nat.not_lt.mpr hfew hkept
    rw [hsound.whole hmissed, hstart, Nat.sub_zero, List.range_eq_range']

/-- Two executors, three actions and a channel for two: the second executor misses the
    first action, and one of its executions has not returned. -/
def twoExecutors : List (Input Nat Nat) :=
  [.act 10, .receive 0, .act 11, .receive 0, .act 12, .receive 0, .receive 1, .receive 1,
    .receive 1, .execute 1 (some 5), .execute 3 none, .execute 0 (some 6), .execute 2 (some 7)]

theorem two_executors_once :
    ∃ t reports, run (engine fun (s : Unit) _ => some (s, ([] : List Nat)))
        (Engine.start 2 [()] 8 2) twoExecutors = some (t, reports) ∧
      (t.executed 0, t.executed 1) = ([0, 1, 2], [1, 2]) ∧
      (reports.map Report.job).Nodup := by
  refine ⟨_, _, rfl, rfl, ?_⟩
  exact (actions_executed_once (fun (s : Unit) _ => some (s, ([] : List Nat))) 2 [()] 8 2
    twoExecutors _ _ rfl).2.2.1

end FoxfireEngine
