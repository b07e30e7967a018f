import Mathlib.Data.List.AList
import FoxfireSniper.AdmissionProofs
import FoxfireSniper.SniperProofs
import FoxfireSniper.FundingProofs

/-! # The sniper strategy — how many snipes at once?

    `src/strategies/sniper_strategy/strategy_state_machine.rs`.  The handler of `running`
    looks at the map of snipes twice: first whether the pool is there, and, after some
    calls to the RPC pool, how many snipes there are.  If both are fine it spawns a task
    that will insert the new snipe.  Every event also spawns a task that passes it to the
    snipes, waits for them, and removes those that are done.

    The steps below are those between two awaits: the handler's two looks at the map, an
    insertion, and the phases of a dispatch task.  Only the search for finished snipes
    holds the lock of the map over several steps; while it does, nobody else gets at
    the map.  `none` means that a step cannot be taken now.

    * **`snipes_within_limit`**: if whoever passes the checks counts the insertions that
      are still to come, the limit is kept and nothing is overwritten. -/

namespace FoxfireSniperStrategy

open FoxfireTypes FoxfireAttempt FoxfireSnipe FoxfireFunding MachineRun Admission

/-- `SnipingStrategyInstance`, with the fields that the strategy reads. -/
structure SniperInstance extends SnipingStrategyInstance where
  maxSimultaneousSnipes : Int
  minPoolLiquiditySol   : ℚ
  skipPumpFun           : Bool
  skipMintable          : Bool

/-- A position in the heap: an `Arc<Mutex<StateMachine<SniperAgentState>>>`. -/
abbrev SnipeRef := Nat

/-- `HashMap<Pubkey, ...>`, in some order. -/
abbrev PoolSnipes := AList fun _ : Pubkey => SnipeRef

/-- Where the handler is. -/
inductive Handler where
  | idle
  /-- The pool was not in the map; the RPC pool is asked about it. -/
  | checking (pool : RaydiumPool) (price : RaydiumPoolPriceUpdate)
  /-- An answer was an error and `unwrap` panicked. -/
  | panicked

/-- A task that will insert a snipe. -/
structure Insertion where
  pool  : RaydiumPool
  price : RaydiumPoolPriceUpdate

/-- A task that `on_dispatch` spawned. -/
inductive DispatchTask where
  | started (event : SolanaStrategyEvent)
  /-- These snipes have not handled the event yet. -/
  | delivering (event : SolanaStrategyEvent) (refs : List SnipeRef)
  /-- These keys are still to be removed. -/
  | removing (finished : List Pubkey)

/-- The search for finished snipes: what is left to look at, and what was found. -/
structure Collecting where
  rest     : List (Sigma fun _ : Pubkey => SnipeRef)
  finished : List Pubkey

/-- `SniperStrategyStateMachine` and the tasks it spawned. -/
structure SniperStrategy where
  inst         : SniperInstance
  sniperWallet : Keypair
  heap         : List Sniper
  poolSnipes   : PoolSnipes
  handler      : Handler
  insertions   : List Insertion
  dispatches   : List DispatchTask
  /-- The holder of the map's lock, if it holds it over several steps. -/
  collecting   : Option Collecting

/-- What the RPC pool answers about the base mint, `none` for an error. -/
structure RpcAnswers where
  /-- `get_account_data` succeeded. -/
  accountData : Bool
  isFreezable : Option Bool
  isMintable  : Option Bool

inductive Input where
  /-- An event, and the text of the pool's id if it announces one. -/
  | event (e : BotEvent) (idText : String)
  | answer (answers : RpcAnswers)
  | insertSnipe (k : Nat) (now : Instant)
  /-- Dispatch task `k` reads which snipes there are. -/
  | fetch (k : Nat)
  /-- It passes the event to the `j`-th of those left. -/
  | deliver (k j : Nat) (i : FoxfireSnipe.Input)
  /-- It starts to look for finished snipes. -/
  | collect (k : Nat)
  | examine
  | release
  | removeSnipe (k j : Nat)

namespace SniperStrategy

/-- `SniperStrategyStateMachine::new(...).state_machine()`. -/
def new (inst : SniperInstance) (sniperWallet : Keypair) : SniperStrategy :=
  ⟨inst, sniperWallet, [], ∅, .idle, [], [], none⟩

/-- The events that `process_event` gives to the machine. -/
def isProcessed : BotEvent → Bool
  | .heartBeat _ _     => true
  | .blockchainEvent _ => true
  | _                  => false

/-- `on_dispatch`. -/
def spawnDispatch (s : SniperStrategy) (e : BotEvent) : SniperStrategy :=
  { s with dispatches := s.dispatches ++ [.started (.original e)] }

def isPump (idText : String) : Bool := "pump".toList <:+: idText.toList

/-- `running`, up to its first question to the RPC pool. -/
def running (s : SniperStrategy) (e : BotEvent) (idText : String) : SniperStrategy :=
  match e with
  | .blockchainEvent (.raydiumNewPoolEvent pool price) =>
      if pool.id ∈ s.poolSnipes then s
      else if s.inst.skipPumpFun && isPump idText then s
      else { s with handler := .checking pool price }
  | _ => s

/-- The rest of the checks; `none` is a panic. -/
def check (s : SniperStrategy) (price : RaydiumPoolPriceUpdate) (a : RpcAnswers) :
    Option Bool :=
  if a.accountData then
    a.isFreezable.bind fun freezable =>
      if freezable then some false
      else
        (if s.inst.skipMintable then a.isMintable else some false).map fun mintable =>
          if mintable then false
          else if price.quoteReserve < s.inst.minPoolLiquiditySol then false
          else if asUsize s.inst.maxSimultaneousSnipes ≤ s.poolSnipes.keys.length then false
          else true
  else none

/-- `running`, from the RPC pool's answers on. -/
def checked (s : SniperStrategy) (pool : RaydiumPool) (price : RaydiumPoolPriceUpdate)
    (a : RpcAnswers) : SniperStrategy :=
  match s.check price a with
  | none       => { s with handler := .panicked }
  | some false => { s with handler := .idle }
  | some true  =>
      { s with handler := .idle, insertions := s.insertions ++ [⟨pool, price⟩] }

/-- The task spawned for a new pool: the snipe goes into the map. -/
def inserted (s : SniperStrategy) (k : Nat) (task : Insertion) (now : Instant) :
    SniperStrategy :=
  { s with
    heap := s.heap ++ [Sniper.new task.pool s.sniperWallet s.inst.toSnipingStrategyInstance
      task.price now]
    poolSnipes := s.poolSnipes.insert task.pool.id s.heap.length
    insertions := s.insertions.eraseIdx k }

/-- A snipe handles the event.  A panic ends the task that called it. -/
def delivered (s : SniperStrategy) (r : SnipeRef) (event : SolanaStrategyEvent)
    (i : FoxfireSnipe.Input) : List Sniper × List Effect :=
  match (s.heap[r]?).bind fun sniper => FoxfireSnipe.handle sniper { i with event := event } with
  | none   => (s.heap, [])
  | some p => (s.heap.set r p.1, p.2)

def isFinished (s : SniperStrategy) (r : SnipeRef) : Bool :=
  match (s.heap[r]?).map Sniper.state with
  | some .done      => true
  | some (.error _) => true
  | _               => false

/-- **ONE STEP** of the handler or of a task. -/
def step : Step SniperStrategy Input Effect := fun s i =>
  match i, s.collecting with
  | .event e idText, none =>
      match s.handler with
      | .idle =>
          if isProcessed e then some ((s.spawnDispatch e).running e idText, [])
          else some (s, [])
      | _ => none
  | .answer a, none =>
      match s.handler with
      | .checking pool price => some (s.checked pool price a, [])
      | _                    => none
  | .insertSnipe k now, none =>
      (s.insertions[k]?).map fun task => (s.inserted k task now, [])
  | .fetch k, none =>
      match s.dispatches[k]? with
      | some (.started event) =>
          some ({ s with dispatches :=
            s.dispatches.set k (.delivering event (s.poolSnipes.entries.map Sigma.snd)) }, [])
      | _ => none
  | .deliver k j i, _ =>
      match s.dispatches[k]? with
      | some (.delivering event refs) =>
          (refs[j]?).map fun r =>
            ({ s with
                heap := (s.delivered r event i).1
                dispatches := s.dispatches.set k (.delivering event (refs.eraseIdx j)) },
              (s.delivered r event i).2)
      | _ => none
  | .collect k, none =>
      match s.dispatches[k]? with
      | some (.delivering _ []) =>
          some ({ s with dispatches := s.dispatches.eraseIdx k,
                         collecting := some ⟨s.poolSnipes.entries, []⟩ }, [])
      | _ => none
  | .examine, some c =>
      match c.rest with
      | ⟨key, r⟩ :: rest =>
          let finished := if s.isFinished r then c.finished ++ [key] else c.finished
          some ({ s with collecting := some ⟨rest, finished⟩ }, [])
      | [] => none
  | .release, some c =>
      match c.rest with
      | [] =>
          some ({ s with dispatches := s.dispatches ++ [.removing c.finished],
                         collecting := none }, [])
      | _ :: _ => none
  | .removeSnipe k j, none =>
      match s.dispatches[k]? with
      | some (.removing finished) =>
          (finished[j]?).map fun key =>
            ({ s with poolSnipes := s.poolSnipes.erase key,
                      dispatches := s.dispatches.set k (.removing (finished.eraseIdx j)) }, [])
      | _ => none
  | _, _ => none

end SniperStrategy

-- ── What a step can do ──────────────────────────────────────────────────────

/-- What a step can do to the map and to the insertions that are to come. -/
inductive StepOutcome (s : SniperStrategy) (i : Input) (s' : SniperStrategy) : Prop where
  | quiet (hinst : s'.inst = s.inst) (hmap : s'.poolSnipes = s.poolSnipes)
      (hins : s'.insertions = s.insertions)
  /-- A new pool passes the checks. -/
  | accepted {a : RpcAnswers} {pool : RaydiumPool} {price : RaydiumPoolPriceUpdate}
      (hi : i = .answer a) (hhandler : s.handler = .checking pool price)
      (hcheck : s.check price a = some true) (hinst : s'.inst = s.inst)
      (hmap : s'.poolSnipes = s.poolSnipes)
      (hins : s'.insertions = s.insertions ++ [⟨pool, price⟩])
  | inserted {k : Nat} {now : Instant} {task : Insertion} (hi : i = .insertSnipe k now)
      (htask : s.insertions[k]? = some task) (hs' : s' = s.inserted k task now)
  | removed {key : Pubkey} (hinst : s'.inst = s.inst)
      (hmap : s'.poolSnipes = s.poolSnipes.erase key) (hins : s'.insertions = s.insertions)

/-- A step, by the input that it takes and by what it finds. -/
inductive Stepped (s : SniperStrategy) : Input → SniperStrategy → List Effect → Prop where
  | handled {e : BotEvent} {idText : String} :
      Stepped s (.event e idText) ((s.spawnDispatch e).running e idText) []
  | ignored {e : BotEvent} {idText : String} : Stepped s (.event e idText) s []
  | checked {a : RpcAnswers} {pool : RaydiumPool} {price : RaydiumPoolPriceUpdate}
      (hhandler : s.handler = .checking pool price) :
      Stepped s (.answer a) (s.checked pool price a) []
  | inserted {k : Nat} {now : Instant} {task : Insertion}
      (htask : s.insertions[k]? = some task) :
      Stepped s (.insertSnipe k now) (s.inserted k task now) []
  | delivered {k j : Nat} {i : FoxfireSnipe.Input} {event : SolanaStrategyEvent}
      {refs : List SnipeRef} {r : SnipeRef}
      (hdispatch : s.dispatches[k]? = some (.delivering event refs)) (hr : refs[j]? = some r) :
      Stepped s (.deliver k j i)
        { s with
          heap := (s.delivered r event i).1
          dispatches := s.dispatches.set k (.delivering event (refs.eraseIdx j)) }
        (s.delivered r event i).2
  | removed {k j : Nat} {key : Pubkey} {finished : List Pubkey}
      (hdispatch : s.dispatches[k]? = some (.removing finished))
      (hkey : finished[j]? = some key) :
      Stepped s (.removeSnipe k j)
        { s with
          poolSnipes := s.poolSnipes.erase key
          dispatches := s.dispatches.set k (.removing (finished.eraseIdx j)) } []
  /-- A dispatch task reads the map, or moves on in its search for finished snipes. -/
  | searched {i : Input} {dispatches : List DispatchTask} {collecting : Option Collecting} :
      Stepped s i { s with dispatches := dispatches, collecting := collecting } []

/-- **INVERSION**: a step is one of these. -/
theorem step_cases {s s' : SniperStrategy} {i : Input} {out : List Effect}
    (h : SniperStrategy.step s i = some (s', out)) : Stepped s i s' out := by
  unfold SniperStrategy.step at h
  split at h
  · split at h
    · split at h
      · obtain ⟨rfl, rfl⟩ := Prod.mk.inj (Option.some.inj h)
        exact .handled
      · obtain ⟨rfl, rfl⟩ := Prod.mk.inj (Option.some.inj h)
        exact .ignored
    · cases h
  · split at h
    · next hhandler =>
        obtain ⟨rfl, rfl⟩ := Prod.mk.inj (Option.some.inj h)
        exact .checked hhandler
    · cases h
  · obtain ⟨task, htask, heq⟩ := Option.map_eq_some_iff.mp h
    obtain ⟨rfl, rfl⟩ := Prod.mk.inj heq
    exact .inserted htask
  · split at h
    · obtain ⟨rfl, rfl⟩ := Prod.mk.inj (Option.some.inj h)
      exact .searched
    · cases h
  · split at h
    · next hdispatch =>
        obtain ⟨r, hr, heq⟩ := Option.map_eq_some_iff.mp h
        obtain ⟨rfl, rfl⟩ := Prod.mk.inj heq
        exact .delivered hdispatch hr
    · cases h
  · split at h
    · obtain ⟨rfl, rfl⟩ := Prod.mk.inj (Option.some.inj h)
      exact .searched
    · cases h
  · split at h
    · obtain ⟨rfl, rfl⟩ := Prod.mk.inj (Option.some.inj h)
      exact .searched
    · cases h
  · split at h
    · obtain ⟨rfl, rfl⟩ := Prod.mk.inj (Option.some.inj h)
      exact .searched
    · cases h
  · split at h
    · next hdispatch =>
        obtain ⟨key, hkey, heq⟩ := Option.map_eq_some_iff.mp h
        obtain ⟨rfl, rfl⟩ := Prod.mk.inj heq
        exact .removed hdispatch hkey
    · cases h
  · cases h

/-- The handler of `running` only ever moves itself. -/
theorem running_eq (s : SniperStrategy) (e : BotEvent) (idText : String) :
    ∃ handler, s.running e idText = { s with handler := handler } := by
  unfold SniperStrategy.running
  split
  · split
    · exact ⟨_, rfl⟩
    · split
      · exact ⟨_, rfl⟩
      · exact ⟨_, rfl⟩
  · exact ⟨_, rfl⟩

theorem checked_outcome {s : SniperStrategy} {pool : RaydiumPool}
    {price : RaydiumPoolPriceUpdate} {a : RpcAnswers}
    (hhandler : s.handler = .checking pool price) :
    StepOutcome s (.answer a) (s.checked pool price a) := by
  rw [SniperStrategy.checked]
  cases hcheck : s.check price a with
  | none => exact .quiet rfl rfl rfl
  | some ok =>
      cases ok with
      | false => exact .quiet rfl rfl rfl
      | true => exact .accepted rfl hhandler hcheck rfl rfl rfl

/-- **THE MAP**: only four kinds of step matter to it. -/
theorem step_outcome {s s' : SniperStrategy} {i : Input} {out : List Effect}
    (h : SniperStrategy.step s i = some (s', out)) : StepOutcome s i s' := by
  cases step_cases h with
  | @handled e idText =>
      obtain ⟨handler, heq⟩ := running_eq (s.spawnDispatch e) e idText
      rw [heq]
      exact .quiet rfl rfl rfl
  | ignored | delivered | searched => exact .quiet rfl rfl rfl
  | checked hhandler => exact checked_outcome hhandler
  | inserted htask => exact .inserted rfl htask rfl
  | removed => exact .removed rfl rfl rfl

-- ── The limit ───────────────────────────────────────────────────────────────

/-- The pools of the snipes in the map, and of those that will be inserted. -/
def SniperStrategy.hall (s : SniperStrategy) : Hall Pubkey :=
  ⟨s.poolSnipes.keys, s.insertions.map fun task => task.pool.id⟩

def SniperStrategy.limit (s : SniperStrategy) : Nat := asUsize s.inst.maxSimultaneousSnipes

/-- A pool that passes the checks is new, also among the insertions to come, and with
    these there is room for it. -/
def Reserved (s : SniperStrategy) : Input → Prop
  | .answer a => ∀ pool price, s.handler = .checking pool price →
      s.check price a = some true →
      s.poolSnipes.keys.length + s.insertions.length < s.limit ∧
        pool.id ∉ s.poolSnipes ∧ ∀ task ∈ s.insertions, task.pool.id ≠ pool.id
  | _ => True

theorem fits_step {s s' : SniperStrategy} {i : Input} {out : List Effect}
    (hI : Fits s.limit s.hall) (hC : Reserved s i)
    (h : SniperStrategy.step s i = some (s', out)) : Fits s'.limit s'.hall := by
  cases step_outcome h with
  | quiet hinst hmap hins =>
      rw [SniperStrategy.limit, SniperStrategy.hall, hinst, hmap, hins]
      exact hI
  | accepted hi hhandler hcheck hinst hmap hins =>
      rw [hi] at hC
      obtain ⟨hroom, hmem, hpend⟩ := hC _ _ hhandler hcheck
      rw [SniperStrategy.limit, SniperStrategy.hall, hinst, hmap, hins, List.map_append]
      refine hI.admit ?_ hmem ?_
      · rw [List.length_map]
        exact hroom
      · intro hk
        obtain ⟨task, htask, heq⟩ := List.mem_map.mp hk
        exact hpend task htask heq
  | @inserted k now task hi htask hs' =>
      subst hs'
      have hk : (s.insertions.map fun task => task.pool.id)[k]? = some task.pool.id := by
        rw [List.getElem?_map, htask]
        rfl
      have hnew : task.pool.id ∉ s.poolSnipes.keys := hI.not_seated hk
      have hkeys : (s.poolSnipes.insert task.pool.id s.heap.length).keys
          = task.pool.id :: s.poolSnipes.keys := by
        rw [AList.keys_insert, List.erase_of_not_mem hnew]
      have hseat := hI.seat hk
      rw [List.eraseIdx_map] at hseat
      show Fits s.limit ⟨(s.poolSnipes.insert task.pool.id s.heap.length).keys, _⟩
      rw [hkeys]
      exact hseat
  | removed hinst hmap hins =>
      rw [SniperStrategy.limit, SniperStrategy.hall, hinst, hmap, hins]
      refine hI.leave ?_
      rw [AList.keys_erase]
      exact List.erase_sublist

/-- No step changes the instance. -/
theorem inst_reach {C : SniperStrategy → Input → Prop} {inst : SniperInstance}
    {wallet : Keypair} {s : SniperStrategy}
    (h : Reach SniperStrategy.step C (SniperStrategy.new inst wallet) s) : s.inst = inst := by
  induction h with
  | init => rfl
  | next _ _ hs ih =>
      cases step_outcome hs with
      | quiet hinst => exact hinst.trans ih
      | accepted _ _ _ hinst => exact hinst.trans ih
      | inserted _ _ hs' => subst hs'; exact ih
      | removed hinst => exact hinst.trans ih

theorem fits_reach {inst : SniperInstance} {wallet : Keypair} {s : SniperStrategy}
    (h : Reach SniperStrategy.step Reserved (SniperStrategy.new inst wallet) s) :
    Fits s.limit s.hall := by
  induction h with
  | init => exact fits_empty _
  | next _ hC hs ih => exact fits_step ih hC hs

/-- The step is an insertion of a pool that the map already has. -/
def Overwrites (s : SniperStrategy) : Input → Prop
  | .insertSnipe k _ => ∃ task, s.insertions[k]? = some task ∧
      task.pool.id ∈ s.poolSnipes
  | _ => False

/-- The limit of a non-negative setting. -/
theorem asUsize_le {n : Int} (h : 0 ≤ n) : (asUsize n : Int) ≤ n := by
  have hpos : 0 ≤ n % 2 ^ 64 := Int.emod_nonneg n (by decide)
  rw [asUsize, Int.toNat_of_nonneg hpos]
  omega

/-- **THE LIMIT HOLDS AT EVERY MOMENT**, and no snipe is overwritten, in every run in
    which the checks find room for the insertions to come as well. -/
theorem snipes_within_limit {inst : SniperInstance} {wallet : Keypair} {s : SniperStrategy}
    (hmax : 0 ≤ inst.maxSimultaneousSnipes)
    (hreach : Reach SniperStrategy.step Reserved (SniperStrategy.new inst wallet) s) :
    (s.poolSnipes.keys.length : Int) ≤ inst.maxSimultaneousSnipes ∧ ∀ i, ¬ Overwrites s i := by
  have hfits := fits_reach hreach
  refine ⟨?_, ?_⟩
  · have hroom : s.poolSnipes.keys.length + (s.hall.underway).length ≤ s.limit := hfits.room
    have hlimit : s.limit = asUsize inst.maxSimultaneousSnipes := by
      rw [SniperStrategy.limit, inst_reach hreach]
    have hle := asUsize_le hmax
    omega
  · intro i hover
    cases i with
    | insertSnipe k now =>
        obtain ⟨task, htask, hmem⟩ := hover
        have hk : (s.insertions.map fun task => task.pool.id)[k]? = some task.pool.id := by
          rw [List.getElem?_map, htask]
          rfl
        exact hfits.not_seated hk hmem
    | event | answer | fetch | deliver | collect | examine | release | removeSnipe =>
        exact hover

/-- A strategy that snipes one pool at a time, and takes any pool. -/
def oneAtATime : SniperStrategy :=
  SniperStrategy.new ⟨⟨1, 1, 2, 60, 0, 50⟩, 1, 0, false, false⟩ ⟨⟨1⟩, 1⟩

/-- A pool with the `n`-th key is announced. -/
def announced (n : Nat) : Input :=
  .event (.blockchainEvent
    (.raydiumNewPoolEvent { id := ⟨BitVec.ofNat 256 n⟩ } default)) "a pool"

/-- The pool's token is neither freezable nor mintable. -/
def fine : Input := .answer ⟨true, some false, some false⟩

/-- A test for `Reserved`. -/
def reserved (s : SniperStrategy) : Input → Bool
  | .answer _ =>
      match s.handler with
      | .checking pool _ =>
          s.poolSnipes.keys.length + s.insertions.length < s.limit &&
            pool.id ∉ s.poolSnipes &&
            s.insertions.all fun task => task.pool.id ≠ pool.id
      | _ => true
  | _ => true

theorem reserved_sound {s : SniperStrategy} {i : Input} (h : reserved s i = true) :
    Reserved s i := by
  cases i with
  | answer a =>
      intro pool price hhandler _
      simp only [reserved, hhandler, Bool.and_eq_true, decide_eq_true_eq,
        List.all_eq_true] at h
      exact ⟨h.1.1, h.1.2, h.2⟩
  | event | insertSnipe | fetch | deliver | collect | examine | release | removeSnipe =>
      trivial

/-- A pool is announced and inserted; then another one is turned away. -/
theorem second_pool_waits :
    ∃ s, Reach SniperStrategy.step Reserved oneAtATime s ∧ s.poolSnipes.keys = [⟨7⟩] ∧
      (s.poolSnipes.keys.length : Int) ≤ 1 ∧ ∀ i, ¬ Overwrites s i := by
  have hview : (runIf SniperStrategy.step reserved oneAtATime
      [announced 7, fine, .insertSnipe 0 0, announced 8]).map (fun p => p.1.poolSnipes.keys)
        = some [⟨7⟩] := by decide +kernel
  obtain ⟨⟨s, out⟩, hrun, hmap⟩ := Option.map_eq_some_iff.mp hview
  have hreach := reach_of_runIf (fun _ _ => reserved_sound) hrun
  exact ⟨s, hreach, hmap, snipes_within_limit (by decide) hreach⟩

/-- **TWO SNIPES WITH A LIMIT OF ONE, AND TWO OF ONE POOL**: both events are checked
    before the first insertion is made. -/
theorem announcements_race_insertions :
    (¬ ∀ s, Reach SniperStrategy.step Always oneAtATime s → s.poolSnipes.keys.length ≤ 1) ∧
    (¬ ∀ s i, Reach SniperStrategy.step Always oneAtATime s → ¬ Overwrites s i) := by
  refine ⟨?_, ?_⟩
  · intro hclaim
    have hview : (run SniperStrategy.step oneAtATime [announced 7, fine, announced 8, fine,
        .insertSnipe 0 0, .insertSnipe 0 0]).map (fun p => p.1.poolSnipes.keys)
          = some [⟨8⟩, ⟨7⟩] := by decide +kernel
    obtain ⟨⟨s, out⟩, hrun, hmap⟩ := Option.map_eq_some_iff.mp hview
    have hle := hclaim s (reach_of_run (fun _ _ => trivial) hrun)
    rw [hmap] at hle
    exact absurd hle (by decide)
  · intro hclaim
    have hview : (run SniperStrategy.step oneAtATime [announced 7, fine, announced 7, fine,
        .insertSnipe 0 0]).map
          (fun p => (p.1.poolSnipes.keys, p.1.insertions.map fun t => t.pool.id))
          = some ([⟨7⟩], [⟨7⟩]) := by decide +kernel
    obtain ⟨⟨s, out⟩, hrun, hmap⟩ := Option.map_eq_some_iff.mp hview
    obtain ⟨hsnipes, htasks⟩ := Prod.mk.inj hmap
    refine hclaim s (.insertSnipe 0 0) (reach_of_run (fun _ _ => trivial) hrun) ?_
    obtain ⟨task, rest, htask, hid, -⟩ := List.map_eq_cons_iff.mp htasks
    refine ⟨task, ?_, ?_⟩
    · rw [htask]
      rfl
    · rw [AList.mem_keys, hsnipes, hid]
      exact List.mem_singleton.mpr rfl

end FoxfireSniperStrategy
