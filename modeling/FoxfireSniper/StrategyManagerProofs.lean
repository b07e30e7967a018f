import Mathlib.Data.List.AList
import Mathlib.Data.List.Sort
import FoxfireSniper.Types
import FoxfireSniper.BroadcastProofs
import FoxfireSniper.MachineRunProofs

/-! # The strategy manager

    `src/strategies/solana_strategy_manager.rs`: the map of registered strategies, the
    loop that keeps one task per active strategy, and the tasks, which read events from
    the engine's broadcast channel and send the actions that the strategies return.

    Strategies are shared objects.  Every registration makes a new one, so the model
    keeps a heap of all objects ever registered; the map and the tasks hold positions
    in it.

    Steps are calls of the manager (`start_strategy`, `sync_state`, `drop_strategy`),
    turns of its loop, a publication on the event channel, and the steps of the tasks.
    A turn of the loop is one step, or two with others in between: it reads the active
    strategies, and later starts and stops tasks by what it read.  `none` means that a
    step cannot be taken, or that a call panicked.

    The strategies' own code is a parameter, `Behaviour`.

    * **`all_registered_iff`**: without drops, every strategy that was started is in the
      map exactly when no two different ones got the same id. -/

namespace FoxfireManager

open FoxfireTypes MachineRun Broadcast

def engineMessageChannelCapacity : Nat := 16384

/-- A position in the heap: an `Arc<Mutex<Box<dyn Strategy>>>`. -/
abbrev ObjRef := Nat

/-- What a strategy is, by the source of its id. -/
inductive Source where
  /-- A `VolumeStrategy`, by the serial id of its row. -/
  | volume (id : StrategyId)
  /-- A `SweeperStrategy`, by the id of the volume instance that it sweeps. -/
  | sweeper (instanceId : StrategyId)
  /-- A `SniperStrategy`, by the serial id of its row. -/
  | sniper (instanceId : StrategyId)
  /-- Any other strategy, by the random number drawn for it. -/
  | other (random : Int)
  /-- The deposit strategy that the loop itself spawns. -/
  | deposit
  deriving DecidableEq, Repr

structure Strategy (σ : Type) where
  source : Source
  state  : σ

inductive StrategyStatus where
  | running
  | stopped
  deriving DecidableEq, Repr

/-- `get_status`: every strategy says that it is running. -/
def getStatus {σ : Type} (_ : Strategy σ) : StrategyStatus := .running

/-- What the manager uses of the strategies and of the hash. -/
structure Behaviour (σ : Type) where
  /-- `process_event`, `none` if it panics. -/
  processEvent  : σ → BotEvent → Option (σ × List SolanaAction)
  /-- `instance.completed_at.is_some()` of a volume strategy. -/
  isCompleted   : σ → Bool
  /-- `hash_i32_to_i32` -/
  hashI32ToI32  : Int → Int

/-- The id under which `start_strategy` registers a strategy. -/
def Source.id {σ : Type} (b : Behaviour σ) : Source → StrategyId
  | .volume id          => id
  | .sweeper instanceId => b.hashI32ToI32 instanceId
  | .sniper instanceId  => instanceId
  | .other random       => b.hashI32ToI32 random
  | .deposit            => 2147483647

-- ── The tables ──────────────────────────────────────────────────────────────

/-- A row of `volumestrategyinstances`. -/
structure Row where
  id        : StrategyId
  completed : Bool
  deriving DecidableEq, Repr

/-- `volumestrategyinstances` with its serial: the next id is new. -/
structure VolumeTable where
  rows  : List Row
  next  : StrategyId
  fresh : ∀ row ∈ rows, row.id < next

theorem fresh_insert (t : VolumeTable) (completed : Bool) :
    ∀ row ∈ t.rows ++ [⟨t.next, completed⟩], row.id < t.next + 1 := by
  intro row hrow
  rcases List.mem_append.mp hrow with h | h
  · exact Int.lt_trans (t.fresh row h) (Int.lt_succ _)
  · rw [List.mem_singleton.mp h]
    exact Int.lt_succ _

theorem fresh_complete (t : VolumeTable) (id : StrategyId) :
    ∀ row ∈ t.rows.map (fun row => if row.id = id then { row with completed := true } else row),
      row.id < t.next := by
  intro row hrow
  obtain ⟨old, hold, rfl⟩ := List.mem_map.mp hrow
  have hlt := t.fresh old hold
  split
  · exact hlt
  · exact hlt

/-- `insert_into(volumestrategyinstances)`. -/
def VolumeTable.insert (t : VolumeTable) (completed : Bool) : VolumeTable :=
  ⟨t.rows ++ [⟨t.next, completed⟩], t.next + 1, fresh_insert t completed⟩

/-- `set(completed_at.eq(Some(now)))` for one id. -/
def VolumeTable.complete (t : VolumeTable) (id : StrategyId) : VolumeTable :=
  ⟨t.rows.map fun row => if row.id = id then { row with completed := true } else row, t.next,
    fresh_complete t id⟩

def VolumeTable.active (t : VolumeTable) : List Row := t.rows.filter fun row => !row.completed

-- ── The manager and its tasks ───────────────────────────────────────────────

/-- Where the task of a strategy is. -/
inductive Phase where
  /-- `sync_state`, which no strategy fails. -/
  | syncing
  /-- `event_receiver.recv().await` -/
  | waiting
  /-- It has an event and waits for the strategy. -/
  | processing (event : BotEvent)
  /-- These actions are still to be sent. -/
  | sending (actions : List SolanaAction)
  | ended
  deriving DecidableEq

/-- A task spawned by `spawn_strategy`. -/
structure Task where
  id      : StrategyId
  ref     : ObjRef
  /-- The position of its receiver. -/
  next    : Nat
  phase   : Phase
  /-- `abort` was called on its handle. -/
  aborted : Bool
  /-- Its handle is kept in `running_strategies`, not thrown away. -/
  managed : Bool
  deriving DecidableEq

structure Manager (σ : Type) where
  objects     : List (Strategy σ)
  strategies  : AList fun _ : StrategyId => ObjRef
  volumes     : VolumeTable
  /-- The serial of `snipingstrategyinstances`. -/
  nextSniping : StrategyId
  events      : Channel BotEvent
  tasks       : List Task
  /-- `running_strategies`: the handles, as positions in `tasks`. -/
  running     : AList fun _ : StrategyId => Nat
  /-- `cached_strategies_ids` -/
  cached      : List StrategyId
  /-- `current_strategies`, while a turn of the loop is in progress. -/
  turn        : Option (List (Sigma fun _ : StrategyId => ObjRef))

/-- An action goes out on the action channel, from a task of this strategy. -/
structure Sent where
  ref    : ObjRef
  action : SolanaAction
  deriving DecidableEq

namespace Manager

variable {σ : Type} (b : Behaviour σ)

/-- `SolanaStrategyManager::new`, with what the tables hold at that time. -/
def new (volumes : VolumeTable) (nextSniping : StrategyId) : Manager σ where
  objects := []
  strategies := ∅
  volumes := volumes
  nextSniping := nextSniping
  events := ⟨engineMessageChannelCapacity, []⟩
  tasks := []
  running := ∅
  cached := []
  turn := none

/-- `strategies.insert(id, Arc::new(Mutex::new(strategy)))`. -/
def register (m : Manager σ) (source : Source) (state : σ) : Manager σ :=
  { m with
    objects := m.objects ++ [⟨source, state⟩]
    strategies := m.strategies.insert (source.id b) m.objects.length }

/-- A strategy that could not be made is not registered. -/
def registerIf (m : Manager σ) (source : Source) (made : Option σ) : Manager σ :=
  match made with
  | none       => m
  | some state => m.register b source state

/-- The loop of `sync_state`; it returns at the first strategy that cannot be made. -/
def syncRows (made : StrategyId → Option σ) : Manager σ → List Row → Manager σ
  | m, []          => m
  | m, row :: rows =>
      match made row.id with
      | none       => m
      | some state => syncRows made (m.register b (.volume row.id) state) rows

/-- `sync_state`: the strategies of all rows that are not completed. -/
def syncState (m : Manager σ) (made : StrategyId → Option σ) : Manager σ :=
  syncRows b made m m.volumes.active

/-- `drop_strategy`.  What `process_event` returns is thrown away; the loop is not
    notified.  If the table cannot be updated, an error is returned, with the strategy
    already out of the map. -/
def dropStrategy (m : Manager σ) (id : StrategyId) (updated : Bool) : Option (Manager σ) :=
  match m.strategies.lookup id with
  | none => some m
  | some ref =>
      (m.objects[ref]?).bind fun s =>
        (b.processEvent s.state (.systemEvent (.destroyStrategy id))).map fun p =>
          { m with
            objects := m.objects.set ref { s with state := p.1 }
            strategies := m.strategies.erase id
            volumes := if updated then m.volumes.complete id else m.volumes }

def isActive (m : Manager σ) (ref : ObjRef) : Bool :=
  match m.objects[ref]? with
  | none   => false
  | some s =>
      match s.source with
      | .volume _ => !b.isCompleted s.state
      | _         => true

/-- `get_active_strategies`. -/
def getActiveStrategies (m : Manager σ) : List (Sigma fun _ : StrategyId => ObjRef) :=
  m.strategies.entries.filter fun p => m.isActive b p.2

/-- `spawn_strategy`, and its handle is kept. -/
def spawnStrategy (m : Manager σ) (id : StrategyId) (ref : ObjRef) : Manager σ :=
  { m with
    tasks := m.tasks ++ [⟨id, ref, m.events.tail, .syncing, false, true⟩]
    running := m.running.insert id m.tasks.length }

/-- `abort` a task and forget its handle. -/
def stop (m : Manager σ) (id : StrategyId) : Manager σ :=
  match m.running.lookup id with
  | none   => m
  | some k =>
      { m with
        tasks := m.tasks.modify k fun t => { t with aborted := true }
        running := m.running.erase id }

def startMissing (m : Manager σ) (current : List (Sigma fun _ : StrategyId => ObjRef)) :
    Manager σ :=
  current.foldl (fun m p => if p.1 ∈ m.running then m else m.spawnStrategy p.1 p.2) m

/-- The running strategies that are gone, or say that they have stopped. -/
def stale (m : Manager σ) (current : List (Sigma fun _ : StrategyId => ObjRef)) :
    List StrategyId :=
  let stopped := (current.filter fun p =>
    (m.objects[p.2]?).map getStatus = some .stopped).map Sigma.fst
  m.running.keys.filter fun id => id ∉ current.map Sigma.fst ∨ id ∈ stopped

/-- A turn of the loop of `run_strategy_manager`, once the active strategies are read. -/
def finishTurn (m : Manager σ) (current : List (Sigma fun _ : StrategyId => ObjRef)) :
    Manager σ :=
  let ids := (current.map Sigma.fst).insertionSort (· ≤ ·)
  if ids = m.cached then { m with turn := none }
  else
    let started := startMissing { m with cached := ids, turn := none } current
    (started.stale current).foldl stop started

/-- A turn that nothing interrupts, after a notification. -/
def notified (m : Manager σ) : Manager σ := m.finishTurn (m.getActiveStrategies b)

/-- The deposit strategy, spawned when the loop starts; its handle is dropped. -/
def spawnDeposit (m : Manager σ) (state : σ) : Manager σ :=
  { m with
    objects := m.objects ++ [⟨.deposit, state⟩]
    tasks := m.tasks ++
      [⟨Source.deposit.id b, m.objects.length, m.events.tail, .syncing, false, false⟩] }

/-- The task at position `k` becomes `t`. -/
def setTask (m : Manager σ) (k : Nat) (t : Task) : Manager σ :=
  { m with tasks := m.tasks.set k t }

/-- The next thing a task does.  The receive loop ends at the first error, and a lag is
    one; a panic of the strategy ends the task. -/
def taskStep (m : Manager σ) (k : Nat) : Option (Manager σ × List Sent) :=
  (m.tasks[k]?).bind fun t =>
    match t.phase with
    | .syncing => some (m.setTask k { t with phase := .waiting }, [])
    | .waiting =>
        match m.events.recv t.next with
        | (.value e, next)  => some (m.setTask k { t with phase := .processing e, next := next }, [])
        | (.lagged _, next) => some (m.setTask k { t with phase := .ended, next := next }, [])
        | (.empty, _)       => none
    | .processing e =>
        (m.objects[t.ref]?).map fun s =>
          match b.processEvent s.state e with
          | none   => (m.setTask k { t with phase := .ended }, [])
          | some p =>
              (setTask { m with objects := m.objects.set t.ref { s with state := p.1 } } k
                { t with phase := .sending p.2 }, [])
    | .sending [] => some (m.setTask k { t with phase := .waiting }, [])
    | .sending (action :: actions) =>
        some (m.setTask k { t with phase := .sending actions }, [⟨t.ref, action⟩])
    | .ended => none

/-- An aborted task ends where it awaits something; sending does not. -/
def cancel (m : Manager σ) (k : Nat) : Option (Manager σ) :=
  (m.tasks[k]?).bind fun t =>
    match t.aborted, t.phase with
    | true, .sending _ => none
    | true, _          => some (m.setTask k { t with phase := .ended })
    | false, _         => none

end Manager

inductive Input (σ : Type) where
  /-- The strategy handed over, and the one made anew from its instance. -/
  | startVolume (given : σ) (made : Option σ)
  | startSweeper (instanceId : StrategyId) (made : Option σ)
  /-- `save_new_sniping_strategy_to_db` -/
  | saveSniping
  | startSniper (instanceId : StrategyId) (made : Option σ)
  | startOther (random : Int) (given : σ)
  | syncState (made : StrategyId → Option σ)
  /-- `updated`: the table could be updated, and `Ok` was returned. -/
  | drop (id : StrategyId) (updated : Bool)
  | notify
  | beginTurn
  | finishTurn
  | spawnDeposit (state : σ)
  | publish (e : BotEvent)
  | task (k : Nat)
  | cancel (k : Nat)

/-- **ONE STEP.** -/
def manage {σ : Type} (b : Behaviour σ) : Step (Manager σ) (Input σ) Sent
  | m, .startVolume given made =>
      some (Manager.registerIf b { m with volumes := m.volumes.insert (b.isCompleted given) }
        (.volume m.volumes.next) made, [])
  | m, .startSweeper instanceId made => some (m.registerIf b (.sweeper instanceId) made, [])
  | m, .saveSniping => some ({ m with nextSniping := m.nextSniping + 1 }, [])
  | m, .startSniper instanceId made =>
      if instanceId < m.nextSniping then some (m.registerIf b (.sniper instanceId) made, [])
      else none
  | m, .startOther random given => some (m.register b (.other random) given, [])
  | m, .syncState made => some (m.syncState b made, [])
  | m, .drop id updated => (m.dropStrategy b id updated).map fun m' => (m', [])
  | m, .notify => if m.turn = none then some (m.notified b, []) else none
  | m, .beginTurn =>
      if m.turn = none then some ({ m with turn := some (m.getActiveStrategies b) }, [])
      else none
  | m, .finishTurn => m.turn.map fun current => (m.finishTurn current, [])
  | m, .spawnDeposit state => some (m.spawnDeposit b state, [])
  | m, .publish e => some ({ m with events := m.events.send e }, [])
  | m, .task k => m.taskStep b k
  | m, .cancel k => (m.cancel k).map fun m' => (m', [])

-- ── What a step can do ──────────────────────────────────────────────────────

section

variable {σ : Type} {b : Behaviour σ}

/-- What the objects on the heap are. -/
def Manager.sources (m : Manager σ) : List Source := m.objects.map Strategy.source

/-- Register one strategy after the other. -/
def registerAll (b : Behaviour σ) (m : Manager σ) (l : List (Source × σ)) : Manager σ :=
  l.foldl (fun m p => m.register b p.1 p.2) m

/-- What `sync_state` registers of some rows. -/
def synced (made : StrategyId → Option σ) : List Row → List (Source × σ)
  | []          => []
  | row :: rows =>
      match made row.id with
      | none       => []
      | some state => (.volume row.id, state) :: synced made rows

/-- What a call registers. -/
def registrations (m : Manager σ) : Input σ → List (Source × σ)
  | .startVolume _ (some state)           => [(.volume m.volumes.next, state)]
  | .startSweeper instanceId (some state) => [(.sweeper instanceId, state)]
  | .startSniper instanceId (some state)  => [(.sniper instanceId, state)]
  | .startOther random given              => [(.other random, given)]
  | .syncState made                       => synced made m.volumes.active
  | _                                     => []

/-- Everything a task can do next. -/
inductive TaskMove (b : Behaviour σ) (m : Manager σ) (t : Task) :
    List (Strategy σ) → Task → List Sent → Prop where
  | synced (h : t.phase = .syncing) : TaskMove b m t m.objects { t with phase := .waiting } []
  | received {e : BotEvent} (h : t.phase = .waiting) (hle : m.events.oldest ≤ t.next)
      (he : m.events.log[t.next]? = some e) :
      TaskMove b m t m.objects { t with phase := .processing e, next := t.next + 1 } []
  | lagged {next : Nat} (h : t.phase = .waiting) (hlt : t.next < m.events.oldest) :
      TaskMove b m t m.objects { t with phase := .ended, next := next } []
  | panicked {e : BotEvent} {s : Strategy σ} (h : t.phase = .processing e)
      (hs : m.objects[t.ref]? = some s) (hp : b.processEvent s.state e = none) :
      TaskMove b m t m.objects { t with phase := .ended } []
  | processed {e : BotEvent} {s : Strategy σ} {p : σ × List SolanaAction}
      (h : t.phase = .processing e) (hs : m.objects[t.ref]? = some s)
      (hp : b.processEvent s.state e = some p) :
      TaskMove b m t (m.objects.set t.ref { s with state := p.1 })
        { t with phase := .sending p.2 } []
  | sent {action : SolanaAction} {actions : List SolanaAction}
      (h : t.phase = .sending (action :: actions)) :
      TaskMove b m t m.objects { t with phase := .sending actions } [⟨t.ref, action⟩]
  | rested (h : t.phase = .sending []) :
      TaskMove b m t m.objects { t with phase := .waiting } []

/-- Everything a step can do. -/
inductive StepOutcome (b : Behaviour σ) (m : Manager σ) (i : Input σ) :
    Manager σ → List Sent → Prop where
  | registered {volumes : VolumeTable} {nextSniping : StrategyId}
      (hi : ∀ id updated, i ≠ .drop id updated) :
      StepOutcome b m i (registerAll b
        { m with volumes := volumes, nextSniping := nextSniping } (registrations m i)) []
  /-- `drop_strategy` found no strategy. -/
  | notFound {id : StrategyId} {updated : Bool} (hi : i = .drop id updated)
      (h : m.strategies.lookup id = none) : StepOutcome b m i m []
  | dropped {id : StrategyId} {ref : ObjRef} {s : Strategy σ} {state : σ}
      {updated : Bool} {volumes : VolumeTable} (hi : i = .drop id updated)
      (hlookup : m.strategies.lookup id = some ref) (hs : m.objects[ref]? = some s) :
      StepOutcome b m i { m with
        objects := m.objects.set ref { s with state := state }
        strategies := m.strategies.erase id
        volumes := volumes } []
  | began (hi : i = .beginTurn) (hturn : m.turn = none) :
      StepOutcome b m i { m with turn := some (m.getActiveStrategies b) } []
  /-- The loop took a whole turn, or finished one. -/
  | turned {current : List (Sigma fun _ : StrategyId => ObjRef)}
      (hi : i = .notify ∧ m.turn = none ∧ current = m.getActiveStrategies b ∨
        i = .finishTurn ∧ m.turn = some current) :
      StepOutcome b m i (m.finishTurn current) []
  | deposit {state : σ} (hi : i = .spawnDeposit state) :
      StepOutcome b m i (m.spawnDeposit b state) []
  | published {e : BotEvent} (hi : i = .publish e) :
      StepOutcome b m i { m with events := m.events.send e } []
  | moved {k : Nat} {t t' : Task} {objects : List (Strategy σ)} {out : List Sent}
      (hi : i = .task k) (ht : m.tasks[k]? = some t)
      (hmove : TaskMove b m t objects t' out) :
      StepOutcome b m i (Manager.setTask { m with objects := objects } k t') out
  | cancelled {k : Nat} {t : Task} (hi : i = .cancel k) (ht : m.tasks[k]? = some t)
      (haborted : t.aborted = true) :
      StepOutcome b m i (m.setTask k { t with phase := .ended }) []

theorem syncRows_eq (made : StrategyId → Option σ) :
    ∀ (rows : List Row) (m : Manager σ),
      Manager.syncRows b made m rows = registerAll b m (synced made rows) := by
  intro rows
  induction rows with
  | nil => intro m; rfl
  | cons row rows ih =>
      intro m
      rw [Manager.syncRows, synced]
      cases made row.id with
      | none => rfl
      | some state => exact ih _

theorem taskStep_move {m m' : Manager σ} {k : Nat} {out : List Sent}
    (h : m.taskStep b k = some (m', out)) :
    ∃ t t' objects, m.tasks[k]? = some t ∧ TaskMove b m t objects t' out ∧
      m' = Manager.setTask { m with objects := objects } k t' := by
  obtain ⟨t, ht, h⟩ := Option.bind_eq_some_iff.mp h
  refine ⟨t, ?_⟩
  cases hphase : t.phase with
  | syncing =>
      simp only [hphase] at h
      obtain ⟨rfl, rfl⟩ := Prod.mk.inj (Option.some.inj h)
      exact ⟨_, _, ht, .synced hphase, rfl⟩
  | waiting =>
      simp only [hphase] at h
      cases hr : m.events.recv t.next with
      | mk received next =>
          rw [hr] at h
          cases received with
          | value e =>
              obtain ⟨rfl, rfl⟩ := Prod.mk.inj (Option.some.inj h)
              obtain ⟨hle, he, rfl⟩ := Channel.value_of_recv hr
              exact ⟨_, _, ht, .received hphase hle he, rfl⟩
          | lagged missed =>
              obtain ⟨rfl, rfl⟩ := Prod.mk.inj (Option.some.inj h)
              exact ⟨_, _, ht, .lagged hphase (Channel.lagged_of_recv hr), rfl⟩
          | empty => cases h
  | processing e =>
      simp only [hphase] at h
      obtain ⟨s, hs, h⟩ := Option.map_eq_some_iff.mp h
      cases hp : b.processEvent s.state e with
      | none =>
          rw [hp] at h
          obtain ⟨rfl, rfl⟩ := Prod.mk.inj h
          exact ⟨_, _, ht, .panicked hphase hs hp, rfl⟩
      | some p =>
          rw [hp] at h
          obtain ⟨rfl, rfl⟩ := Prod.mk.inj h
          exact ⟨_, _, ht, .processed hphase hs hp, rfl⟩
  | sending actions =>
      cases actions with
      | nil =>
          simp only [hphase] at h
          obtain ⟨rfl, rfl⟩ := Prod.mk.inj (Option.some.inj h)
          exact ⟨_, _, ht, .rested hphase, rfl⟩
      | cons action actions =>
          simp only [hphase] at h
          obtain ⟨rfl, rfl⟩ := Prod.mk.inj (Option.some.inj h)
          exact ⟨_, _, ht, .sent hphase, rfl⟩
  | ended => simp only [hphase] at h; cases h

theorem cancel_ends {m m' : Manager σ} {k : Nat} (h : m.cancel k = some m') :
    ∃ t, m.tasks[k]? = some t ∧ t.aborted = true ∧
      m' = m.setTask k { t with phase := .ended } := by
  obtain ⟨t, ht, h⟩ := Option.bind_eq_some_iff.mp h
  refine ⟨t, ht, ?_⟩
  cases ha : t.aborted with
  | false => rw [ha] at h; cases h
  | true =>
      refine ⟨rfl, ?_⟩
      cases hp : t.phase with
      | sending actions => simp only [ha, hp] at h; cases h
      | syncing | waiting | processing | ended =>
          simp only [ha, hp] at h
          rw [← Option.some.inj h]

theorem dropStrategy_outcome {m m' : Manager σ} {id : StrategyId} {updated : Bool}
    (h : m.dropStrategy b id updated = some m') :
    StepOutcome b m (.drop id updated) m' [] := by
  rw [Manager.dropStrategy] at h
  cases hl : m.strategies.lookup id with
  | none =>
      rw [hl] at h
      obtain rfl := Option.some.inj h
      exact .notFound rfl hl
  | some ref =>
      rw [hl] at h
      obtain ⟨s, hs, h⟩ := Option.bind_eq_some_iff.mp h
      obtain ⟨p, -, rfl⟩ := Option.map_eq_some_iff.mp h
      exact .dropped rfl hl hs

/-- **INVERSION**: everything a step can do. -/
theorem step_cases {m m' : Manager σ} {i : Input σ} {out : List Sent}
    (h : manage b m i = some (m', out)) : StepOutcome b m i m' out := by
  cases i with
  | startVolume given made =>
      obtain ⟨rfl, rfl⟩ := Prod.mk.inj (Option.some.inj h)
      cases made with
      | none => exact .registered (fun _ _ h => by cases h)
      | some state => exact .registered (fun _ _ h => by cases h)
  | startSweeper instanceId made =>
      obtain ⟨rfl, rfl⟩ := Prod.mk.inj (Option.some.inj h)
      cases made with
      | none => exact .registered (fun _ _ h => by cases h)
      | some state => exact .registered (fun _ _ h => by cases h)
  | saveSniping =>
      obtain ⟨rfl, rfl⟩ := Prod.mk.inj (Option.some.inj h)
      exact .registered (fun _ _ h => by cases h)
  | startSniper instanceId made =>
      rw [manage] at h
      split at h
      · obtain ⟨rfl, rfl⟩ := Prod.mk.inj (Option.some.inj h)
        cases made with
        | none => exact .registered (fun _ _ h => by cases h)
        | some state => exact .registered (fun _ _ h => by cases h)
      · cases h
  | startOther random given =>
      obtain ⟨rfl, rfl⟩ := Prod.mk.inj (Option.some.inj h)
      exact .registered (fun _ _ h => by cases h)
  | syncState made =>
      obtain ⟨rfl, rfl⟩ := Prod.mk.inj (Option.some.inj h)
      rw [Manager.syncState, syncRows_eq]
      exact .registered (fun _ _ h => by cases h)
  | drop id updated =>
      obtain ⟨m₁, hd, heq⟩ := Option.map_eq_some_iff.mp h
      obtain ⟨rfl, rfl⟩ := Prod.mk.inj heq
      exact dropStrategy_outcome hd
  | notify =>
      rw [manage] at h
      split at h
      · next hturn =>
          obtain ⟨rfl, rfl⟩ := Prod.mk.inj (Option.some.inj h)
          exact .turned (Or.inl ⟨rfl, hturn, rfl⟩)
      · cases h
  | beginTurn =>
      rw [manage] at h
      split at h
      · next hturn =>
          obtain ⟨rfl, rfl⟩ := Prod.mk.inj (Option.some.inj h)
          exact .began rfl hturn
      · cases h
  | finishTurn =>
      obtain ⟨current, hturn, heq⟩ := Option.map_eq_some_iff.mp h
      obtain ⟨rfl, rfl⟩ := Prod.mk.inj heq
      exact .turned (Or.inr ⟨rfl, hturn⟩)
  | spawnDeposit state =>
      obtain ⟨rfl, rfl⟩ := Prod.mk.inj (Option.some.inj h)
      exact .deposit rfl
  | publish e =>
      obtain ⟨rfl, rfl⟩ := Prod.mk.inj (Option.some.inj h)
      exact .published rfl
  | task k =>
      obtain ⟨t, t', objects, ht, hmove, rfl⟩ := taskStep_move h
      exact .moved rfl ht hmove
  | cancel k =>
      obtain ⟨m₁, hc, heq⟩ := Option.map_eq_some_iff.mp h
      obtain ⟨rfl, rfl⟩ := Prod.mk.inj heq
      obtain ⟨t, ht, ha, rfl⟩ := cancel_ends hc
      exact .cancelled rfl ht ha

-- ── What the steps do to the heap and to the map ────────────────────────────

/-- A changed state of an object changes nothing of what the objects are. -/
theorem sources_set {objects : List (Strategy σ)} {ref : ObjRef} {s : Strategy σ} (state : σ)
    (hs : objects[ref]? = some s) :
    (objects.set ref { s with state := state }).map Strategy.source
      = objects.map Strategy.source := by
  refine List.ext_getElem? ?_
  intro k
  rw [List.getElem?_map, List.getElem?_map, List.getElem?_set]
  by_cases hk : ref = k
  · subst hk
    obtain ⟨hlt, -⟩ := List.getElem?_eq_some_iff.mp hs
    rw [if_pos rfl, if_pos hlt, hs, Option.map_some, Option.map_some]
  · rw [if_neg hk]

theorem TaskMove.sources {m : Manager σ} {t t' : Task} {objects : List (Strategy σ)}
    {out : List Sent} (h : TaskMove b m t objects t' out) :
    objects.map Strategy.source = m.sources := by
  cases h with
  | processed _ hs _ => exact sources_set _ hs
  | synced | received | lagged | panicked | sent | rested => rfl

/-- What starting and stopping tasks leaves alone. -/
structure SameRegistry (m m' : Manager σ) : Prop where
  objects    : m'.objects = m.objects
  strategies : m'.strategies = m.strategies
  events     : m'.events = m.events
  cached     : m'.cached = m.cached
  turn       : m'.turn = m.turn

theorem SameRegistry.refl (m : Manager σ) : SameRegistry m m := ⟨rfl, rfl, rfl, rfl, rfl⟩

theorem SameRegistry.trans {m m' m'' : Manager σ} (h : SameRegistry m m')
    (h' : SameRegistry m' m'') : SameRegistry m m'' :=
  ⟨h'.objects.trans h.objects, h'.strategies.trans h.strategies, h'.events.trans h.events,
    h'.cached.trans h.cached, h'.turn.trans h.turn⟩

theorem stop_registry (m : Manager σ) (id : StrategyId) : SameRegistry m (m.stop id) := by
  rw [Manager.stop]
  cases m.running.lookup id with
  | none => exact .refl m
  | some k => exact ⟨rfl, rfl, rfl, rfl, rfl⟩

/-- A fold of such operations leaves the registry alone. -/
theorem foldl_registry {β : Type} {f : Manager σ → β → Manager σ}
    (hf : ∀ m x, SameRegistry m (f m x)) :
    ∀ (l : List β) (m : Manager σ), SameRegistry m (l.foldl f m) := by
  intro l
  induction l with
  | nil => intro m; exact .refl m
  | cons x l ih => intro m; exact (hf m x).trans (ih _)

theorem startMissing_registry (m : Manager σ)
    (current : List (Sigma fun _ : StrategyId => ObjRef)) :
    SameRegistry m (m.startMissing current) := by
  refine foldl_registry ?_ current m
  intro m p
  split
  · exact .refl m
  · exact ⟨rfl, rfl, rfl, rfl, rfl⟩

/-- A turn keeps the ids that it read, and is over. -/
theorem finishTurn_registry (m : Manager σ)
    (current : List (Sigma fun _ : StrategyId => ObjRef)) :
    SameRegistry
      { m with cached := (current.map Sigma.fst).insertionSort (· ≤ ·), turn := none }
      (m.finishTurn current) := by
  simp only [Manager.finishTurn]
  split
  · next hsame =>
      rw [hsame]
      exact .refl _
  · exact (startMissing_registry _ _).trans (foldl_registry stop_registry _ _)

-- ── Ids ─────────────────────────────────────────────────────────────────────

/-- Something true of a manager that registrations keep. -/
theorem registerAll_induction {P : Manager σ → Prop}
    (hP : ∀ m source state, source ≠ .deposit → P m → P (m.register b source state)) :
    ∀ {l : List (Source × σ)} {m : Manager σ}, (∀ p ∈ l, p.1 ≠ .deposit) → P m →
      P (registerAll b m l) := by
  intro l
  induction l with
  | nil => intro m _ h; exact h
  | cons p l ih =>
      intro m hl h
      exact ih (fun q hq => hl q (List.mem_cons_of_mem p hq))
        (hP m p.1 p.2 (hl p List.mem_cons_self) h)

theorem synced_source {made : StrategyId → Option σ} :
    ∀ {rows : List Row}, ∀ p ∈ synced made rows, ∃ id, p.1 = .volume id := by
  intro rows
  induction rows with
  | nil => intro p hp; cases hp
  | cons row rows ih =>
      intro p hp
      rw [synced] at hp
      cases hm : made row.id with
      | none => rw [hm] at hp; cases hp
      | some state =>
          rw [hm] at hp
          rcases List.mem_cons.mp hp with rfl | hp
          · exact ⟨row.id, rfl⟩
          · exact ih p hp

/-- The calls never register a deposit strategy. -/
theorem registrations_source {m : Manager σ} {i : Input σ} :
    ∀ p ∈ registrations m i, p.1 ≠ .deposit := by
  intro p hp
  have hone : ∀ {source : Source} {state : σ}, p ∈ [(source, state)] → source ≠ .deposit →
      p.1 ≠ .deposit := by
    intro source state hmem hne
    rw [List.mem_singleton.mp hmem]
    exact hne
  unfold registrations at hp
  split at hp
  · exact hone hp (fun h => by cases h)
  · exact hone hp (fun h => by cases h)
  · exact hone hp (fun h => by cases h)
  · exact hone hp (fun h => by cases h)
  · obtain ⟨id, hid⟩ := synced_source p hp
    rw [hid]
    intro h
    cases h
  · cases hp

/-- A strategy that was started. -/
def Started (m : Manager σ) (r : ObjRef) (source : Source) : Prop :=
  m.sources[r]? = some source ∧ source ≠ .deposit

/-- Two objects are one strategy: of one instance, or, without one, the same object. -/
def SameStrategy (r r' : ObjRef) (source source' : Source) : Prop :=
  source = source' ∧ ∀ random, source = .other random → r = r'

/-- The map holds the strategy under its id. -/
def Contained (b : Behaviour σ) (m : Manager σ) (r : ObjRef) (source : Source) : Prop :=
  ∃ r' source', m.strategies.lookup (source.id b) = some r' ∧ Started m r' source' ∧
    SameStrategy r r' source source'

/-- Under the id of every strategy that was started there is one with this id. -/
def Latest (b : Behaviour σ) (m : Manager σ) : Prop :=
  ∀ r source, Started m r source → ∃ r' source',
    m.strategies.lookup (source.id b) = some r' ∧ Started m r' source' ∧
      source'.id b = source.id b

theorem sources_register (m : Manager σ) (source : Source) (state : σ) :
    (m.register b source state).sources = m.sources ++ [source] := by
  rw [Manager.sources, Manager.register, List.map_append]
  rfl

/-- An element of a longer list is old, or the last one. -/
theorem old_or_last {α : Type} {l : List α} {k : Nat} {x new : α}
    (h : (l ++ [new])[k]? = some x) : l[k]? = some x ∨ (k = l.length ∧ x = new) := by
  rcases Nat.lt_trichotomy k l.length with hlt | heq | hgt
  · rw [List.getElem?_append_left hlt] at h
    exact Or.inl h
  · subst heq
    rw [List.getElem?_append_right (Nat.le_refl _), Nat.sub_self] at h
    exact Or.inr ⟨rfl, (Option.some.inj h).symm⟩
  · rw [List.getElem?_eq_none (by rw [List.length_append, List.length_singleton]; omega)] at h
    cases h

theorem sources_spawnDeposit (m : Manager σ) (state : σ) :
    (m.spawnDeposit b state).sources = m.sources ++ [.deposit] := by
  rw [Manager.sources, Manager.spawnDeposit, List.map_append]
  rfl

/-- What was started stays on a heap that grows. -/
theorem Started.grow {m m' : Manager σ} {new : Source} {r : ObjRef} {source : Source}
    (h : Started m r source) (hsrc : m'.sources = m.sources ++ [new]) :
    Started m' r source := by
  obtain ⟨hlt, -⟩ := List.getElem?_eq_some_iff.mp h.1
  refine ⟨?_, h.2⟩
  rw [hsrc, List.getElem?_append_left hlt, h.1]

theorem latest_register {m : Manager σ} {source : Source} {state : σ}
    (hne : source ≠ .deposit) (h : Latest b m) : Latest b (m.register b source state) := by
  have hlen : m.sources.length = m.objects.length := List.length_map _
  have hnew : Started (m.register b source state) m.objects.length source := by
    refine ⟨?_, hne⟩
    rw [sources_register, ← hlen, List.getElem?_append_right (Nat.le_refl _), Nat.sub_self]
    rfl
  rintro r src ⟨hget, hsrc⟩
  by_cases hid : src.id b = source.id b
  · refine ⟨m.objects.length, source, ?_, hnew, hid.symm⟩
    rw [hid]
    exact AList.lookup_insert _
  · rw [sources_register] at hget
    rcases old_or_last hget with hget | ⟨-, rfl⟩
    · obtain ⟨r', src', hlookup, hst, heq⟩ := h r src ⟨hget, hsrc⟩
      refine ⟨r', src', ?_, hst.grow (sources_register m source state), heq⟩
      rw [← hlookup]
      exact AList.lookup_insert_ne hid
    · exact absurd rfl hid

/-- No strategy is dropped. -/
def NoDrop (_ : Manager σ) : Input σ → Prop
  | .drop _ _ => False
  | _         => True

theorem latest_step {m m' : Manager σ} {i : Input σ} {out : List Sent}
    (hI : Latest b m) (hC : NoDrop m i) (h : manage b m i = some (m', out)) : Latest b m' := by
  have hsame : ∀ {m' : Manager σ}, m'.sources = m.sources → m'.strategies = m.strategies →
      Latest b m' := by
    intro m' hsrc hmap r source hst
    rw [Started, hsrc] at hst
    obtain ⟨r', source', hlookup, hst', heq⟩ := hI r source hst
    refine ⟨r', source', ?_, ?_, heq⟩
    · rw [hmap, hlookup]
    · rw [Started, hsrc]
      exact hst'
  cases step_cases h with
  | registered =>
      exact registerAll_induction (fun m _ _ hne h => latest_register hne h)
        registrations_source (hsame rfl rfl)
  | notFound hi => rw [hi] at hC; exact hC.elim
  | dropped hi => rw [hi] at hC; exact hC.elim
  | began => exact hsame rfl rfl
  | turned =>
      exact hsame (congrArg (List.map Strategy.source) (finishTurn_registry m _).objects)
        (finishTurn_registry m _).strategies
  | deposit =>
      rintro r source ⟨hget, hne⟩
      rw [sources_spawnDeposit] at hget
      rcases old_or_last hget with hget | ⟨-, rfl⟩
      · obtain ⟨r', source', hlookup, hst, heq⟩ := hI r source ⟨hget, hne⟩
        exact ⟨r', source', hlookup, hst.grow (sources_spawnDeposit m _), heq⟩
      · exact absurd rfl hne
  | published => exact hsame rfl rfl
  | moved _ _ hmove => exact hsame hmove.sources rfl
  | cancelled => exact hsame rfl rfl

theorem latest_reach {volumes : VolumeTable} {nextSniping : StrategyId} {m : Manager σ}
    (h : Reach (manage b) NoDrop (Manager.new volumes nextSniping) m) : Latest b m := by
  refine h.invariant ?_ (fun s i s' out hI hC hs => latest_step hI hC hs)
  rintro r source ⟨hget, -⟩
  cases hget

theorem SameStrategy.symm {r r' : ObjRef} {source source' : Source}
    (h : SameStrategy r r' source source') : SameStrategy r' r source' source := by
  obtain ⟨rfl, hr⟩ := h
  exact ⟨rfl, fun random heq => (hr random heq).symm⟩

theorem SameStrategy.trans {r r' r'' : ObjRef} {source source' source'' : Source}
    (h : SameStrategy r r' source source') (h' : SameStrategy r' r'' source' source'') :
    SameStrategy r r'' source source'' := by
  obtain ⟨rfl, hr⟩ := h
  obtain ⟨rfl, hr'⟩ := h'
  exact ⟨rfl, fun random heq => (hr random heq).trans (hr' random heq)⟩

/-- **NOTHING IS LOST EXACTLY WHEN NO IDS COINCIDE.**  After any run without drops, the
    map contains every strategy that was started if and only if no two different ones
    have the same id: no serial of the one table met a serial of the other, and no hash
    a serial or another hash. -/
theorem all_registered_iff {volumes : VolumeTable} {nextSniping : StrategyId}
    {m : Manager σ} (hreach : Reach (manage b) NoDrop (Manager.new volumes nextSniping) m) :
    (∀ r source, Started m r source → Contained b m r source) ↔
      ∀ r r' source source', Started m r source → Started m r' source' →
        source.id b = source'.id b → SameStrategy r r' source source' := by
  constructor
  · intro hall r r' source source' hst hst' hid
    obtain ⟨r₁, source₁, hlookup, hst₁, hsame⟩ := hall r source hst
    obtain ⟨r₂, source₂, hlookup', hst₂, hsame'⟩ := hall r' source' hst'
    -- Both are the strategy that the map holds under their common id.
    rw [← hid, hlookup] at hlookup'
    obtain rfl := Option.some.inj hlookup'
    obtain rfl : source₁ = source₂ := Option.some.inj (hst₁.1.symm.trans hst₂.1)
    exact hsame.trans hsame'.symm
  · intro hid r source hst
    obtain ⟨r', source', hlookup, hst', heq⟩ := latest_reach hreach r source hst
    exact ⟨r', source', hlookup, hst', hid r r' source source' hst hst' heq.symm⟩

end

-- ── Two tables, one map ─────────────────────────────────────────────────────

theorem fresh_nil : ∀ row ∈ ([] : List Row), row.id < 1 := by
  intro row hrow
  cases hrow

/-- A new database: no rows, and the first id of each table will be 1. -/
def newTable : VolumeTable := ⟨[], 1, fresh_nil⟩

/-- A strategy that answers every heartbeat with the action it is, and does nothing
    else. -/
def echo : Behaviour SolanaAction where
  processEvent := fun action e =>
    match e with
    | .heartBeat _ _ => some (action, [action])
    | _              => some (action, [])
  isCompleted := fun _ => false
  hashI32ToI32 := fun n => 7 * n + 1000

def anAction : SolanaAction := SolanaAction.new ⟨1⟩ 0 ⟨⟨1⟩, 1⟩ []

/-- The manager of a new database. -/
def newManager : Manager SolanaAction := Manager.new newTable 1

def noDrop : Manager SolanaAction → Input SolanaAction → Bool
  | _, .drop _ _ => false
  | _, _         => true

theorem noDrop_sound {m : Manager SolanaAction} {i : Input SolanaAction}
    (h : noDrop m i = true) : NoDrop m i := by
  cases i with
  | drop => cases h
  | startVolume | startSweeper | saveSniping | startSniper | startOther | syncState | notify
  | beginTurn | finishTurn | spawnDeposit | publish | task | cancel => trivial

/-- The ids differ: the first volume strategy and the second sniper. -/
theorem volume_and_second_sniper_registered :
    ∃ m, Reach (manage echo) NoDrop newManager m ∧ m.sources = [.volume 1, .sniper 2] ∧
      ∀ r source, Started m r source → Contained echo m r source := by
  have hview : (runIf (manage echo) noDrop newManager [.startVolume anAction (some anAction),
      .saveSniping, .saveSniping, .startSniper 2 (some anAction)]).map (fun p => p.1.sources)
        = some [.volume 1, .sniper 2] := by decide +kernel
  obtain ⟨⟨m, out⟩, hrun, hsources⟩ := Option.map_eq_some_iff.mp hview
  have hreach := reach_of_runIf (fun _ _ => noDrop_sound) hrun
  refine ⟨m, hreach, hsources, (all_registered_iff hreach).mpr ?_⟩
  rintro r r' source source' ⟨hget, -⟩ ⟨hget', -⟩ hid
  have hlist : ∀ {r : ObjRef} {source : Source},
      ([.volume 1, .sniper 2] : List Source)[r]? = some source →
      (r = 0 ∧ source = .volume 1) ∨ (r = 1 ∧ source = .sniper 2) := by
    intro r source h
    rcases r with _ | _ | r
    · exact Or.inl ⟨rfl, (Option.some.inj h).symm⟩
    · exact Or.inr ⟨rfl, (Option.some.inj h).symm⟩
    · cases h
  rw [show m.sources = [.volume 1, .sniper 2] from hsources] at hget hget'
  rcases hlist hget with ⟨rfl, rfl⟩ | ⟨rfl, rfl⟩ <;>
    rcases hlist hget' with ⟨rfl, rfl⟩ | ⟨rfl, rfl⟩
  · exact ⟨rfl, fun _ _ => rfl⟩
  · exact absurd hid (by decide)
  · exact absurd hid (by decide)
  · exact ⟨rfl, fun _ _ => rfl⟩

/-- **THE FIRST SNIPER EVICTS THE FIRST VOLUME STRATEGY**: both tables count from 1. -/
theorem first_sniper_evicts_first_volume :
    ¬ ∀ m : Manager SolanaAction, Reach (manage echo) NoDrop newManager m →
      ∀ r source, Started m r source → Contained echo m r source := by
  intro hclaim
  have hview : (runIf (manage echo) noDrop newManager [.startVolume anAction (some anAction),
      .saveSniping, .startSniper 1 (some anAction)]).map
        (fun p => (p.1.sources, p.1.strategies.entries))
        = some ([.volume 1, .sniper 1], [⟨1, 1⟩]) := by decide +kernel
  obtain ⟨⟨m, out⟩, hrun, hmap⟩ := Option.map_eq_some_iff.mp hview
  obtain ⟨hsources, hentries⟩ := Prod.mk.inj hmap
  have hreach := reach_of_runIf (fun _ _ => noDrop_sound) hrun
  have hvolume : Started m 0 (.volume 1) := by
    refine ⟨?_, fun h => by cases h⟩
    rw [show m.sources = [.volume 1, .sniper 1] from hsources]
    rfl
  obtain ⟨r', source', hlookup, hst, hsame, -⟩ := hclaim m hreach 0 (.volume 1) hvolume
  have hentry := AList.mem_lookup_iff.mp hlookup
  rw [show m.strategies.entries = [⟨1, 1⟩] from hentries] at hentry
  cases List.mem_singleton.mp hentry
  have hget := hst.1
  rw [show m.sources = [.volume 1, .sniper 1] from hsources, ← hsame] at hget
  cases hget

end FoxfireManager
