import FoxfireSniper.EngineProofs
import FoxfireSniper.TickBarProofs

/-! # The indicators of the running engine

    An aggregator receives from the event channel and sends its derived events to the same
    channel, where it receives them again.  Between a reception and the derived events that
    it leads to, collectors and executors send others.

    * **`fed_back`**: an aggregator that ignores derived events computes, on a channel that
      carries its own, what it would compute on a channel that does not.
    * **`indicators_fed_back`**: so do the indicators and bars of the pools.  What
      `TickBarProofs` says of the aggregator alone holds in the running engine, until it
      misses an event. -/

namespace FoxfireEngine

open Broadcast MachineRun

-- ── The aggregators ─────────────────────────────────────────────────────────

/-- What a receiver has passed since it subscribed, without the derived events. -/
def heard {E : Type} (derived : E → Bool) (c : Channel E) (r : Reader) : List E :=
  ((c.log.take r.next).drop r.start).filter fun e => !derived e

/-- The aggregator has computed what it computes from what it heard, and has sent the
    derived events, or is about to. -/
structure FedBack {E σ : Type} (aggregateEvent : σ → E → Option (σ × List E))
    (derived : E → Bool) (s₀ : σ) (c : Channel E) (a : AggregatorTask E σ) : Prop where
  sound    : a.reader.Sound c
  own      : ∀ e ∈ a.derived, derived e = true
  computes : a.reader.missed = 0 → a.panicked = false →
    run aggregateEvent s₀ (heard derived c a.reader) =
      some (a.state, c.log.filter derived ++ a.derived)
  fails    : a.reader.missed = 0 → a.panicked = true →
    run aggregateEvent s₀ (heard derived c a.reader) = none

section

variable {E A σ : Type} {aggregateEvent : σ → E → Option (σ × List E)} {t t' : Engine E A σ}
  {derived : E → Bool} {s₀ : σ} {c : Channel E} {a : AggregatorTask E σ}

theorem heard_send {r : Reader} (h : r.Sound c) (e : E) :
    heard derived (c.send e) r = heard derived c r := by
  show ((((c.log ++ [e]).take r.next).drop r.start).filter fun e => !derived e) = _
  rw [List.take_append_of_le_length h.sent]
  rfl

theorem heard_value {r r' : Reader} {e : E} (h : r.Sound c) (hr : r.recv c = (.value e, r')) :
    heard derived c r' = heard derived c r ++ if derived e = true then [] else [e] := by
  obtain ⟨-, hget, rfl⟩ := Reader.recv_value hr
  have hcount := h.counted
  have hlen : (c.log.take r.next).length = r.next := by
    rw [List.length_take]
    exact Nat.min_eq_left h.sent
  show (((c.log.take (r.next + 1)).drop r.start).filter fun e => !derived e) = _
  rw [List.take_add_one, hget, List.drop_append_of_le_length (by omega), List.filter_append]
  congr 1
  cases hd : derived e with
  | true => simp [hd]
  | false => simp [hd]

/-- An event that somebody else sends. -/
theorem FedBack.send {e : E} (h : FedBack aggregateEvent derived s₀ c a)
    (he : derived e = false) : FedBack aggregateEvent derived s₀ (c.send e) a := by
  have hlog : (c.send e).log.filter derived = c.log.filter derived := by
    show (c.log ++ [e]).filter derived = _
    rw [List.filter_append, List.filter_cons_of_neg (by rw [he]; exact Bool.false_ne_true),
      List.filter_nil, List.append_nil]
  refine ⟨h.sound.send e, h.own, ?_, ?_⟩
  · rw [heard_send h.sound, hlog]
    exact h.computes
  · rw [heard_send h.sound]
    exact h.fails

/-- The aggregator sends a derived event. -/
theorem FedBack.derive {e : E} {es : List E} (h : FedBack aggregateEvent derived s₀ c a)
    (hd : a.derived = e :: es) :
    FedBack aggregateEvent derived s₀ (c.send e) { a with derived := es } := by
  have he : derived e = true := h.own e (by rw [hd]; exact List.mem_cons_self)
  have hlog : (c.send e).log.filter derived = c.log.filter derived ++ [e] := by
    show (c.log ++ [e]).filter derived = _
    rw [List.filter_append, List.filter_cons_of_pos he, List.filter_nil]
  refine ⟨h.sound.send e, ?_, ?_, ?_⟩
  · intro x hx
    exact h.own x (by rw [hd]; exact List.mem_cons_of_mem e hx)
  · intro hm hp
    show run aggregateEvent s₀ (heard derived (c.send e) a.reader) =
      some (a.state, (c.send e).log.filter derived ++ es)
    rw [heard_send h.sound, hlog, h.computes hm hp, hd, List.append_assoc]
    rfl
  · intro hm hp
    show run aggregateEvent s₀ (heard derived (c.send e) a.reader) = none
    rw [heard_send h.sound]
    exact h.fails hm hp

/-- The aggregator passes over events it has missed. -/
theorem FedBack.lag {missed : Nat} {r' : Reader} (h : FedBack aggregateEvent derived s₀ c a)
    (hr : a.reader.recv c = (.lagged missed, r')) :
    FedBack aggregateEvent derived s₀ c ⟨r', a.state, [], false⟩ := by
  have hsound := h.sound.lagged hr
  obtain ⟨hlt, rfl, rfl⟩ := Reader.recv_lagged hr
  refine ⟨hsound, (fun e he => by cases he), ?_, ?_⟩
  · intro hm
    have hzero : a.reader.missed + (c.oldest - a.reader.next) = 0 := hm
    omega
  · intro _ hp
    cases hp

/-- The aggregator has computed what an event gives. -/
theorem FedBack.aggregate {e : E} {r' : Reader} {s' : σ} {es : List E}
    (hskip : ∀ s e, derived e = true → aggregateEvent s e = some (s, []))
    (hown : ∀ s e s' es, aggregateEvent s e = some (s', es) → ∀ d ∈ es, derived d = true)
    (h : FedBack aggregateEvent derived s₀ c a) (halive : a.panicked = false)
    (hidle : a.derived = []) (hr : a.reader.recv c = (.value e, r'))
    (he : aggregateEvent a.state e = some (s', es)) :
    FedBack aggregateEvent derived s₀ c ⟨r', s', es, false⟩ := by
  refine ⟨h.sound.value hr, hown _ _ _ _ he, ?_, ?_⟩
  · intro hm _
    have hm' : a.reader.missed = 0 := by
      obtain ⟨-, -, rfl⟩ := Reader.recv_value hr
      exact hm
    have hrun := h.computes hm' halive
    rw [hidle, List.append_nil] at hrun
    show run aggregateEvent s₀ (heard derived c r') = some (s', c.log.filter derived ++ es)
    rw [heard_value h.sound hr]
    cases hd : derived e with
    | true =>
        rw [hskip _ _ hd] at he
        obtain ⟨rfl, rfl⟩ := Prod.mk.inj (Option.some.inj he)
        rw [if_pos rfl, List.append_nil, List.append_nil, hrun]
    | false =>
        rw [if_neg Bool.false_ne_true, run_concat, hrun, Option.bind_some, he]
        rfl
  · intro _ hp
    cases hp

/-- The aggregator panics where it would have panicked. -/
theorem FedBack.panic {e : E} {r' : Reader}
    (hskip : ∀ s e, derived e = true → aggregateEvent s e = some (s, []))
    (h : FedBack aggregateEvent derived s₀ c a) (halive : a.panicked = false)
    (hr : a.reader.recv c = (.value e, r')) (he : aggregateEvent a.state e = none) :
    FedBack aggregateEvent derived s₀ c ⟨r', a.state, [], true⟩ := by
  refine ⟨h.sound.value hr, (fun e he => by cases he), ?_, ?_⟩
  · intro _ hp
    cases hp
  · intro hm _
    have hm' : a.reader.missed = 0 := by
      obtain ⟨-, -, rfl⟩ := Reader.recv_value hr
      exact hm
    have hrun := h.computes hm' halive
    show run aggregateEvent s₀ (heard derived c r') = none
    rw [heard_value h.sound hr]
    cases hd : derived e with
    | true =>
        rw [hskip _ _ hd] at he
        cases he
    | false =>
        rw [if_neg Bool.false_ne_true, run_concat, hrun, Option.bind_some, he]
        rfl

/-- The engine's only aggregator, before and after it is started. -/
inductive Alone (aggregateEvent : σ → E → Option (σ × List E)) (derived : E → Bool) (s₀ : σ)
    (t : Engine E A σ) : Prop where
  | waits (hwaiting : t.waiting = [s₀]) (hnone : t.aggregators = [])
      (hlog : t.events.log.filter derived = [])
  | runs {a : AggregatorTask E σ} (hwaiting : t.waiting = []) (hone : t.aggregators = [a])
      (hfed : FedBack aggregateEvent derived s₀ t.events a)

/-- Nobody else sends derived events. -/
def Raw (derived : E → Bool) (_ : Engine E A σ) : Input E A → Prop
  | .publish e          => derived e = false
  | .execute _ (some e) => derived e = false
  | _                   => True

theorem Alone.task {k : Nat} {b : AggregatorTask E σ}
    (h : Alone aggregateEvent derived s₀ t) (hk : t.aggregators[k]? = some b) :
    k = 0 ∧ t.waiting = [] ∧ t.aggregators = [b] ∧
      FedBack aggregateEvent derived s₀ t.events b := by
  cases h with
  | waits _ hnone _ =>
      rw [hnone] at hk
      cases hk
  | runs hwaiting hone hfed =>
      rw [hone] at hk
      cases k with
      | zero =>
          obtain rfl := Option.some.inj hk
          exact ⟨rfl, hwaiting, hone, hfed⟩
      | succ k => cases hk

/-- An event that is not derived is sent. -/
theorem Alone.send {e : E} (h : Alone aggregateEvent derived s₀ t) (he : derived e = false)
    (hwaiting : t'.waiting = t.waiting) (haggregators : t'.aggregators = t.aggregators)
    (hevents : t'.events = t.events.send e) : Alone aggregateEvent derived s₀ t' := by
  cases h with
  | waits hw hnone hlog =>
      refine .waits (hwaiting.trans hw) (haggregators.trans hnone) ?_
      rw [hevents]
      show (t.events.log ++ [e]).filter derived = []
      rw [List.filter_append, hlog,
        List.filter_cons_of_neg (by rw [he]; exact Bool.false_ne_true)]
      rfl
  | runs hw hone hfed =>
      refine .runs (hwaiting.trans hw) (haggregators.trans hone) ?_
      rw [hevents]
      exact hfed.send he

theorem Alone.quiet (h : Alone aggregateEvent derived s₀ t) (hwaiting : t'.waiting = t.waiting)
    (haggregators : t'.aggregators = t.aggregators) (hevents : t'.events = t.events) :
    Alone aggregateEvent derived s₀ t' := by
  cases h with
  | waits hw hnone hlog =>
      exact .waits (hwaiting.trans hw) (haggregators.trans hnone) (by rw [hevents, hlog])
  | runs hw hone hfed =>
      exact .runs (hwaiting.trans hw) (haggregators.trans hone) (by rw [hevents]; exact hfed)

/-- **ONE STEP OF THE FEEDBACK LOOP.** -/
theorem Alone.step {i : Input E A} {out : List (Report E)}
    (hskip : ∀ s e, derived e = true → aggregateEvent s e = some (s, []))
    (hown : ∀ s e s' es, aggregateEvent s e = some (s', es) → ∀ d ∈ es, derived d = true)
    (h : Alone aggregateEvent derived s₀ t) (hraw : Raw derived t i)
    (hs : Stepped aggregateEvent t i t' out) : Alone aggregateEvent derived s₀ t' := by
  cases hs with
  | published e => exact h.send hraw rfl rfl rfl
  | acted a => exact h.quiet rfl rfl rfl
  | spawned _ _ => exact h.quiet rfl rfl rfl
  | missed _ _ => exact h.quiet rfl rfl rfl
  | failed _ _ => exact h.quiet rfl rfl rfl
  | reported _ _ => exact h.send hraw rfl rfl rfl
  | @started s rest hw =>
      cases h with
      | waits hwaiting hnone hlog =>
          rw [hwaiting] at hw
          obtain ⟨rfl, rfl⟩ := List.cons.inj hw
          refine .runs rfl (by rw [hnone]; rfl) ⟨.subscribe _, (fun e he => by cases he), ?_, ?_⟩
          · intro _ _
            have hheard : heard derived t.events (Reader.subscribe t.events) = [] := by
              show ((t.events.log.take t.events.log.length).drop t.events.log.length).filter _ = []
              rw [List.take_length, List.drop_length, List.filter_nil]
            rw [hheard, hlog]
            rfl
          · intro _ hp
            cases hp
      | runs hwaiting _ _ =>
          rw [hwaiting] at hw
          cases hw
  | aggregated hk halive hidle hr he =>
      obtain ⟨rfl, hw, hone, hfed⟩ := h.task hk
      exact .runs hw (by rw [hone]; rfl) (hfed.aggregate hskip hown halive hidle hr he)
  | panicked hk halive _ hr he =>
      obtain ⟨rfl, hw, hone, hfed⟩ := h.task hk
      exact .runs hw (by rw [hone]; rfl) (hfed.panic hskip halive hr he)
  | lagged hk _ _ hr =>
      obtain ⟨rfl, hw, hone, hfed⟩ := h.task hk
      exact .runs hw (by rw [hone]; rfl) (hfed.lag hr)
  | derived hk hd =>
      obtain ⟨rfl, hw, hone, hfed⟩ := h.task hk
      exact .runs hw (by rw [hone]; rfl) (hfed.derive hd)

/-- **AN AGGREGATOR THAT READS ITS OWN EVENTS** computes what it would compute without them,
    if it ignores them. -/
theorem fed_back {executors eventCapacity actionCapacity : Nat}
    (hskip : ∀ s e, derived e = true → aggregateEvent s e = some (s, []))
    (hown : ∀ s e s' es, aggregateEvent s e = some (s', es) → ∀ d ∈ es, derived d = true)
    (h : Reach (engine aggregateEvent) (Raw derived)
      (Engine.start executors [s₀] eventCapacity actionCapacity) t) :
    Alone aggregateEvent derived s₀ t :=
  h.invariant (I := Alone aggregateEvent derived s₀) (.waits rfl rfl rfl)
    fun _ _ _ _ hI hraw hs => hI.step hskip hown hraw (stepped_of_step hs)

end

-- ── The indicators ──────────────────────────────────────────────────────────

section

open FoxfireTypes FoxfireAggregator

variable {yata : Yata}

/-- `BotEvent`, its derived events with all they carry. -/
abbrev Event (yata : Yata) := BotEvent ⊕ DerivedEvent yata

/-- `TickIndicatorsAggregator::aggregate_event`: derived events fall under `_ => {}`. -/
def aggregateEvents (yata : Yata) :
    Step (TickIndicatorsAggregator yata) (Event yata) (Event yata)
  | a, .inl e => (aggregateEvent a e).map fun p => (p.1, p.2.map .inr)
  | a, .inr _ => some (a, [])

/-- Derived events make no difference to a run. -/
theorem run_aggregateEvents : ∀ (es : List (Event yata)) (a : TickIndicatorsAggregator yata),
    run (aggregateEvents yata) a es =
      (run (aggregator yata) a (es.filterMap Sum.getLeft?)).map
        fun p => (p.1, p.2.map .inr) := by
  intro es
  induction es with
  | nil => intro a; rfl
  | cons e es ih =>
      intro a
      rw [run_cons]
      cases e with
      | inl e =>
          show _ = (run (aggregator yata) a (e :: es.filterMap Sum.getLeft?)).map _
          rw [run_cons]
          show ((aggregateEvent a e).map _).bind _ = ((aggregateEvent a e).bind _).map _
          cases aggregateEvent a e with
          | none => rfl
          | some p =>
              simp only [Option.map_some, Option.bind_some, ih, Option.map_map]
              refine congrArg (fun f => Option.map f _) ?_
              funext q
              exact congrArg (Prod.mk _) List.map_append.symm
      | inr d =>
          show (some (a, ([] : List (Event yata)))).bind _ =
            (run (aggregator yata) a (es.filterMap Sum.getLeft?)).map _
          simp only [Option.bind_some, ih, Option.map_map]
          rfl

theorem getLeft_heard (c : Channel (Event yata)) (r : Reader) :
    (heard Sum.isRight c r).filterMap Sum.getLeft? =
      ((c.log.take r.next).drop r.start).filterMap Sum.getLeft? := by
  rw [heard, List.filterMap_filter]
  refine List.filterMap_congr ?_
  intro e _
  cases e <;> rfl

theorem getRight_filter (l : List (Event yata)) :
    (l.filter Sum.isRight).filterMap Sum.getRight? = l.filterMap Sum.getRight? := by
  rw [List.filterMap_filter]
  refine List.filterMap_congr ?_
  intro e _
  cases e <;> rfl

/-- The task is where the aggregator alone would be after the raw events that it has read, and
    the derived events, on the channel and about to be sent, are those it would emit. -/
def AsAlone (s₀ : TickIndicatorsAggregator yata) (c : Channel (Event yata))
    (task : AggregatorTask (Event yata) (TickIndicatorsAggregator yata)) : Prop :=
  match run (aggregator yata) s₀
      (((c.log.take task.reader.next).drop task.reader.start).filterMap Sum.getLeft?) with
  | none         => task.panicked = true
  | some (s, ds) => task.panicked = false ∧ task.state = s ∧
      (c.log ++ task.derived).filterMap Sum.getRight? = ds

/-- **THE INDICATORS OF THE RUNNING ENGINE**: in every state, as long as the aggregator has
    missed nothing, its indicators are those of the swaps among the events it has read, and
    the derived events on the channel, with those it is about to send, are what it computes
    from these alone, in order, although it reads them too, at any time and in between. -/
theorem indicators_fed_back (s₀ : TickIndicatorsAggregator yata)
    (executors eventCapacity actionCapacity : Nat)
    (t : Engine (Event yata) SolanaAction (TickIndicatorsAggregator yata))
    (task : AggregatorTask (Event yata) (TickIndicatorsAggregator yata))
    (h : Reach (engine (aggregateEvents yata)) (Raw Sum.isRight)
      (Engine.start executors [s₀] eventCapacity actionCapacity) t)
    (htask : t.aggregators = [task]) (hmissed : task.reader.missed = 0) :
    AsAlone s₀ t.events task := by
  rw [AsAlone]
  have halone : Alone (aggregateEvents yata) Sum.isRight s₀ t := fed_back ?_ ?_ h
  · cases halone with
    | waits _ hnone _ =>
        rw [hnone] at htask
        cases htask
    | @runs a _ hone hfed =>
        rw [hone] at htask
        obtain rfl := (List.cons.inj htask).1
        rw [← getLeft_heard]
        cases hp : a.panicked with
        | true =>
            have hfails := hfed.fails hmissed hp
            rw [run_aggregateEvents, Option.map_eq_none_iff] at hfails
            rw [hfails]
        | false =>
            have hcomputes := hfed.computes hmissed hp
            rw [run_aggregateEvents] at hcomputes
            obtain ⟨⟨s, ds⟩, hrun, heq⟩ := Option.map_eq_some_iff.mp hcomputes
            obtain ⟨hs, hds⟩ := Prod.mk.inj heq
            rw [hrun]
            refine ⟨rfl, hs.symm, ?_⟩
            have hown : a.derived.filter Sum.isRight = a.derived :=
              List.filter_eq_self.mpr hfed.own
            rw [← getRight_filter, List.filter_append, hown, ← hds, List.filterMap_map]
            exact List.filterMap_some
  · intro s e he
    cases e with
    | inl e => cases he
    | inr d => rfl
  · intro s e s' es he d hd
    cases e with
    | inl e =>
        obtain ⟨p, -, heq⟩ := Option.map_eq_some_iff.mp he
        obtain ⟨-, rfl⟩ := Prod.mk.inj heq
        obtain ⟨x, -, rfl⟩ := List.mem_map.mp hd
        rfl
    | inr x =>
        obtain ⟨-, rfl⟩ := Prod.mk.inj (Option.some.inj he)
        cases hd

/-- A test for `Raw`. -/
def rawTest (_ : Engine (Event yata) SolanaAction (TickIndicatorsAggregator yata)) :
    Input (Event yata) SolanaAction → Bool
  | .publish e          => e.isLeft
  | .execute _ (some e) => e.isLeft
  | _                   => true

theorem rawTest_sound {t : Engine (Event yata) SolanaAction (TickIndicatorsAggregator yata)}
    {i : Input (Event yata) SolanaAction} (h : rawTest t i = true) : Raw Sum.isRight t i := by
  have hleft : ∀ {e : Event yata}, e.isLeft = true → e.isRight = false := by
    intro e he
    cases e with
    | inl e => rfl
    | inr d => cases he
  cases i with
  | publish e => exact hleft h
  | execute j result =>
      cases result with
      | none => trivial
      | some e => exact hleft h
  | act a => trivial
  | receive k => trivial
  | startAggregator => trivial
  | aggregate k => trivial
  | derive k => trivial

/-- Four ticks, the last one before the first indicators are sent, and the indicators of the
    third tick read again. -/
def ticksAndIndicators : List (Input (Event steadyYata) SolanaAction) :=
  [.startAggregator, .publish (.inl unitTick), .publish (.inl unitTick),
    .publish (.inl unitTick), .aggregate 0, .aggregate 0, .aggregate 0,
    .publish (.inl unitTick), .derive 0, .aggregate 0, .derive 0, .aggregate 0]

/-- What is on the channel, and where the only aggregator is. -/
def viewAggregator (t : Engine (Event yata) SolanaAction (TickIndicatorsAggregator yata)) :
    List Bool × List (Nat × Nat × Bool × Nat) :=
  (t.events.log.map Sum.isRight, t.aggregators.map fun a =>
    (a.reader.next, a.reader.missed, a.panicked, a.derived.length))

theorem four_ticks_fed_back :
    ∃ t task, Reach (engine (aggregateEvents steadyYata)) (Raw Sum.isRight)
        (Engine.start 1 [threeTicks] 8 8) t ∧ t.aggregators = [task] ∧
      viewAggregator t = ([false, false, false, false, true, true], [(5, 0, false, 0)]) ∧
      AsAlone threeTicks t.events task := by
  have hview : (runIf (engine (aggregateEvents steadyYata)) rawTest
      (Engine.start 1 [threeTicks] 8 8) ticksAndIndicators).map (fun p => viewAggregator p.1) =
        some ([false, false, false, false, true, true], [(5, 0, false, 0)]) := rfl
  obtain ⟨⟨t, out⟩, hrun, hv⟩ := Option.map_eq_some_iff.mp hview
  have hreach := reach_of_runIf (fun _ _ h => rawTest_sound h) hrun
  have htasks := congrArg Prod.snd hv
  obtain ⟨task, htask, hat⟩ := List.map_eq_singleton_iff.mp htasks
  have hmissed : task.reader.missed = 0 := congrArg (fun x => x.2.1) hat
  exact ⟨t, task, hreach, htask, hv,
    indicators_fed_back threeTicks 1 8 8 t task hreach htask hmissed⟩

end

end FoxfireEngine
