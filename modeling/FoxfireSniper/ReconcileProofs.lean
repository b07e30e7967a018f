import FoxfireSniper.StrategyTaskProofs

/-! # Tasks and registered strategies — do they match?

    A turn of the manager's loop starts a task for every active strategy whose id has no
    handle, and stops the tasks whose ids are gone.  It compares ids only, and it does
    nothing at all if the sorted ids are those of the last turn.  So a strategy that is
    registered under an id that still has a handle is never started: the old task stays,
    with the old object.  A task that ended by itself is not started again either.

    **`tasks_match_after_notification`**: if no registration meets a handle of its id, no
    task ends by itself, and what a turn read still holds when it ends, then after every
    turn the live tasks are exactly the active strategies, with their objects. -/

namespace FoxfireManager

open FoxfireTypes MachineRun Broadcast

variable {σ : Type} {b : Behaviour σ}

/-- A task of the loop that runs and was not told to stop. -/
structure Live (t : Task) : Prop where
  managed : t.managed = true
  going   : t.aborted = false
  running : t.phase ≠ .ended

/-- The live tasks are exactly the active strategies: one for each, with the object that
    the map holds. -/
structure Matches (b : Behaviour σ) (m : Manager σ) : Prop where
  iff    : ∀ id ref, ⟨id, ref⟩ ∈ m.getActiveStrategies b ↔
    ∃ (k : Nat) (t : Task), m.tasks[k]? = some t ∧ Live t ∧ t.id = id ∧ t.ref = ref
  unique : ∀ (k k' : Nat) (t t' : Task), m.tasks[k]? = some t → m.tasks[k']? = some t' →
    Live t → Live t' → t.id = t'.id → k = k'

/-- No strategy is registered under an id that has a handle, no live task ends by itself,
    and a turn ends with what it read still true. -/
structure Clean (b : Behaviour σ) (m : Manager σ) (i : Input σ) : Prop where
  new     : ∀ p ∈ registrations m i, p.1.id b ∉ m.running
  inTime  : ∀ k t, i = .task k → m.tasks[k]? = some t → Live t → InTime b m i
  current : i = .finishTurn → m.turn = some (m.getActiveStrategies b)

-- ── Handles ─────────────────────────────────────────────────────────────────

/-- The handles are those of the live tasks, under their ids, and a task has the object
    that the map holds under its id, if any. -/
structure Handled (m : Manager σ) : Prop where
  handle : ∀ id k, m.running.lookup id = some k →
    ∃ t, m.tasks[k]? = some t ∧ t.id = id ∧ Live t
  kept   : ∀ (k : Nat) (t : Task), m.tasks[k]? = some t → Live t → m.running.lookup t.id = some k
  driven : ∀ (k : Nat) (t : Task) (ref : ObjRef), m.tasks[k]? = some t → Live t →
    m.strategies.lookup t.id = some ref → t.ref = ref

/-- Once a task was spawned, a live task is an old one, with another id, or the new one. -/
theorem live_of_spawn {m : Manager σ} {id : StrategyId} {ref : ObjRef} {k : Nat} {t : Task}
    (h : Handled m) (hnot : id ∉ m.running)
    (ht : (m.spawnStrategy id ref).tasks[k]? = some t) (hlive : Live t) :
    (m.tasks[k]? = some t ∧ t.id ≠ id) ∨ (k = m.tasks.length ∧ t = freshTask m ⟨id, ref⟩) := by
  rcases old_or_last ht with ht | hlast
  · refine Or.inl ⟨ht, ?_⟩
    intro hid
    have hkept := h.kept k t ht hlive
    rw [hid, AList.lookup_eq_none.mpr hnot] at hkept
    cases hkept
  · exact Or.inr hlast

/-- A new task for a strategy that has no handle. -/
theorem handled_spawn {m : Manager σ} {id : StrategyId} {ref : ObjRef} (h : Handled m)
    (hnot : id ∉ m.running) (hlookup : m.strategies.lookup id = some ref) :
    Handled (m.spawnStrategy id ref) := by
  refine ⟨?_, ?_, ?_⟩
  · intro id' k hl
    by_cases hid : id' = id
    · subst hid
      obtain rfl := Option.some.inj ((AList.lookup_insert _).symm.trans hl)
      exact ⟨freshTask m ⟨id', ref⟩, List.getElem?_concat_length, rfl, rfl, rfl, fun h => by cases h⟩
    · obtain ⟨t, ht, htid, hlive⟩ := h.handle id' k ((AList.lookup_insert_ne hid).symm.trans hl)
      refine ⟨t, ?_, htid, hlive⟩
      exact (List.getElem?_append_left (List.getElem?_eq_some_iff.mp ht).1).trans ht
  · intro k t ht hlive
    rcases live_of_spawn h hnot ht hlive with ⟨ht, hid⟩ | ⟨rfl, rfl⟩
    · exact (AList.lookup_insert_ne hid).trans (h.kept k t ht hlive)
    · exact AList.lookup_insert _
  · intro k t ref' ht hlive hl
    rcases live_of_spawn h hnot ht hlive with ⟨ht, -⟩ | ⟨-, rfl⟩
    · exact h.driven k t ref' ht hlive hl
    · exact Option.some.inj (hlookup.symm.trans hl)

theorem stop_of_lookup {m : Manager σ} {id : StrategyId} {k : Nat}
    (h : m.running.lookup id = some k) :
    m.stop id = { m with
      tasks := m.tasks.modify k fun t => { t with aborted := true }
      running := m.running.erase id } := by
  rw [Manager.stop, h]

/-- Once a task was aborted, a live task is another one, with another id. -/
theorem live_of_stop {m : Manager σ} {id : StrategyId} {k k' : Nat} {t : Task} (h : Handled m)
    (hk : m.running.lookup id = some k)
    (ht : (m.tasks.modify k fun t => { t with aborted := true })[k']? = some t)
    (hlive : Live t) : m.tasks[k']? = some t ∧ t.id ≠ id := by
  by_cases hkk : k = k'
  · subst hkk
    rw [List.getElem?_modify_eq] at ht
    obtain ⟨t', -, rfl⟩ := Option.map_eq_some_iff.mp ht
    cases hlive.going
  · rw [List.getElem?_modify_ne _ _ hkk] at ht
    refine ⟨ht, ?_⟩
    intro hid
    have hkept := h.kept k' t ht hlive
    rw [hid, hk] at hkept
    exact hkk (Option.some.inj hkept)

/-- The task of an id is stopped, and its handle is forgotten. -/
theorem handled_stop {m : Manager σ} (id : StrategyId) (h : Handled m) :
    Handled (m.stop id) := by
  cases hk : m.running.lookup id with
  | none =>
      rw [Manager.stop, hk]
      exact h
  | some k =>
      rw [stop_of_lookup hk]
      obtain ⟨t₀, ht₀, hid₀, -⟩ := h.handle id k hk
      refine ⟨?_, ?_, ?_⟩
      · intro id' k' hl
        have hid : id' ≠ id := by
          rintro rfl
          rw [AList.lookup_erase] at hl
          cases hl
        rw [AList.lookup_erase_ne hid] at hl
        obtain ⟨t, ht, htid, hlive⟩ := h.handle id' k' hl
        refine ⟨t, ?_, htid, hlive⟩
        -- Another id, hence another task: it was not touched.
        have hkk : k ≠ k' := by
          rintro rfl
          rw [ht₀] at ht
          obtain rfl := Option.some.inj ht
          exact hid (htid.symm.trans hid₀)
        rw [List.getElem?_modify_ne _ _ hkk]
        exact ht
      · intro k' t ht hlive
        obtain ⟨ht, hid⟩ := live_of_stop h hk ht hlive
        rw [AList.lookup_erase_ne hid]
        exact h.kept k' t ht hlive
      · intro k' t ref ht hlive hl
        obtain ⟨ht, -⟩ := live_of_stop h hk ht hlive
        exact h.driven k' t ref ht hlive hl

theorem mem_running_stop {m : Manager σ} {id id' : StrategyId} :
    id' ∈ (m.stop id).running ↔ id' ≠ id ∧ id' ∈ m.running := by
  cases hk : m.running.lookup id with
  | none =>
      rw [Manager.stop, hk]
      refine ⟨?_, And.right⟩
      intro hmem
      refine ⟨?_, hmem⟩
      rintro rfl
      exact AList.lookup_eq_none.mp hk hmem
  | some k =>
      rw [stop_of_lookup hk]
      exact AList.mem_erase

/-- **STARTING THE MISSING ONES** gives every strategy that was read a handle, and takes
    none away. -/
theorem handled_startMissing {current : List (Sigma fun _ : StrategyId => ObjRef)} :
    ∀ {m : Manager σ}, Handled m → (∀ p ∈ current, m.strategies.lookup p.1 = some p.2) →
      Handled (m.startMissing current) ∧ ∀ id,
        id ∈ (m.startMissing current).running ↔ id ∈ m.running ∨ id ∈ current.map Sigma.fst := by
  induction current with
  | nil =>
      intro m h _
      refine ⟨h, fun id => ?_⟩
      rw [List.map_nil]
      exact (or_iff_left (List.not_mem_nil)).symm
  | cons p current ih =>
      intro m h hread
      have hrest : ∀ q ∈ current, m.strategies.lookup q.1 = some q.2 :=
        fun q hq => hread q (List.mem_cons_of_mem p hq)
      rw [Manager.startMissing, List.foldl_cons]
      by_cases hp : p.1 ∈ m.running
      · rw [if_pos hp]
        obtain ⟨hhandled, hmem⟩ := ih h hrest
        refine ⟨hhandled, fun id => (hmem id).trans ?_⟩
        rw [List.map_cons, List.mem_cons, or_left_comm]
        refine (or_iff_right_of_imp ?_).symm
        rintro rfl
        exact Or.inl hp
      · rw [if_neg hp]
        obtain ⟨hhandled, hmem⟩ := ih
          (handled_spawn h hp (hread p List.mem_cons_self)) hrest
        refine ⟨hhandled, fun id => (hmem id).trans ?_⟩
        rw [List.map_cons, List.mem_cons, or_left_comm, ← or_assoc]
        exact or_congr_left (AList.mem_insert m.running)

/-- Stopping some ids takes exactly their handles away. -/
theorem handled_stopAll (ids : List StrategyId) :
    ∀ {m : Manager σ}, Handled m → Handled (ids.foldl Manager.stop m) ∧ ∀ id,
      id ∈ (ids.foldl Manager.stop m).running ↔ id ∈ m.running ∧ id ∉ ids := by
  induction ids with
  | nil =>
      intro m h
      exact ⟨h, fun id => (and_iff_left (List.not_mem_nil)).symm⟩
  | cons id₀ ids ih =>
      intro m h
      obtain ⟨hhandled, hmem⟩ := ih (handled_stop id₀ h)
      refine ⟨hhandled, fun id => (hmem id).trans ?_⟩
      rw [mem_running_stop, List.mem_cons, not_or]
      exact ⟨fun ⟨⟨hne, hr⟩, hn⟩ => ⟨hr, hne, hn⟩, fun ⟨hr, hne, hn⟩ => ⟨⟨hne, hr⟩, hn⟩⟩

/-- No strategy says that it has stopped: the stale ones are those that are gone. -/
theorem mem_stale {m : Manager σ} {current : List (Sigma fun _ : StrategyId => ObjRef)}
    {id : StrategyId} :
    id ∈ m.stale current ↔ id ∈ m.running ∧ id ∉ current.map Sigma.fst := by
  have hstopped : (current.filter fun p =>
      (m.objects[p.2]?).map getStatus = some .stopped) = [] := by
    refine List.filter_eq_nil_iff.mpr ?_
    intro p _ hp
    obtain ⟨s, -, hs⟩ := Option.map_eq_some_iff.mp (of_decide_eq_true hp)
    cases hs
  rw [Manager.stale, hstopped, List.map_nil, List.mem_filter, decide_eq_true_iff,
    or_iff_left List.not_mem_nil, AList.mem_keys]

-- ── A turn of the loop ──────────────────────────────────────────────────────

/-- The handles are in order, and the ids of the last turn are those of the handles. -/
structure Reconciled (m : Manager σ) : Prop extends Handled m where
  cached : ∀ id, id ∈ m.cached ↔ id ∈ m.running

/-- Starting what is missing and stopping what is gone leaves exactly the handles of what
    was read. -/
theorem handled_turn {m : Manager σ} {current : List (Sigma fun _ : StrategyId => ObjRef)}
    (h : Handled m) (hread : ∀ p ∈ current, m.strategies.lookup p.1 = some p.2) :
    Handled (((m.startMissing current).stale current).foldl Manager.stop
      (m.startMissing current)) ∧ ∀ id,
        id ∈ (((m.startMissing current).stale current).foldl Manager.stop
          (m.startMissing current)).running ↔ id ∈ current.map Sigma.fst := by
  obtain ⟨hstarted, hmem⟩ := handled_startMissing h hread
  obtain ⟨hstopped, hmem'⟩ := handled_stopAll ((m.startMissing current).stale current) hstarted
  refine ⟨hstopped, fun id => (hmem' id).trans ?_⟩
  rw [mem_stale, hmem id, not_and_not_right]
  constructor
  · rintro ⟨hor, himp⟩
    exact himp hor
  · intro hcurrent
    exact ⟨Or.inr hcurrent, fun _ => hcurrent⟩

/-- **A TURN** that reads what the map holds leaves exactly the handles of what it read,
    also if it skips: the ids are then those of the handles already. -/
theorem reconciled_finishTurn {m : Manager σ}
    {current : List (Sigma fun _ : StrategyId => ObjRef)} (h : Reconciled m)
    (hread : ∀ p ∈ current, m.strategies.lookup p.1 = some p.2) :
    Reconciled (m.finishTurn current) ∧ ∀ id,
      id ∈ (m.finishTurn current).running ↔ id ∈ current.map Sigma.fst := by
  have hhandled : Handled (m.finishTurn current) ∧ ∀ id,
      id ∈ (m.finishTurn current).running ↔ id ∈ current.map Sigma.fst := by
    simp only [Manager.finishTurn]
    split
    · next hsame =>
        refine ⟨⟨h.handle, h.kept, h.driven⟩, fun id => ?_⟩
        rw [← List.mem_insertionSort (· ≤ ·), hsame]
        exact (h.cached id).symm
    · exact handled_turn ⟨h.handle, h.kept, h.driven⟩ hread
  refine ⟨⟨hhandled.1, fun id => ?_⟩, hhandled.2⟩
  rw [(finishTurn_registry m current).cached, List.mem_insertionSort]
  exact (hhandled.2 id).symm

-- ── The other steps ─────────────────────────────────────────────────────────

/-- Registrations under ids without handles concern no live task. -/
theorem reconciled_registerAll {l : List (Source × σ)} :
    ∀ {m : Manager σ}, (∀ p ∈ l, p.1.id b ∉ m.running) → Reconciled m →
      Reconciled (registerAll b m l) := by
  induction l with
  | nil => intro m _ h; exact h
  | cons p l ih =>
      intro m hnew h
      refine ih (m := m.register b p.1 p.2)
        (fun q hq => hnew q (List.mem_cons_of_mem p hq)) ⟨⟨h.handle, h.kept, ?_⟩, h.cached⟩
      intro k t ref ht hlive hl
      have hid : t.id ≠ p.1.id b := by
        intro hid
        have hkept := h.kept k t ht hlive
        rw [hid, AList.lookup_eq_none.mpr (hnew p List.mem_cons_self)] at hkept
        cases hkept
      exact h.driven k t ref ht hlive ((AList.lookup_insert_ne hid).symm.trans hl)

/-- A task changes, but neither its id and its object nor whether it is live. -/
theorem reconciled_setTask {m : Manager σ} {objects : List (Strategy σ)} {k : Nat} {t t' : Task}
    (h : Reconciled m) (ht : m.tasks[k]? = some t) (hid : t'.id = t.id) (href : t'.ref = t.ref)
    (hlive : Live t' ↔ Live t) :
    Reconciled (Manager.setTask { m with objects := objects } k t') := by
  have hcases : ∀ (k₁ : Nat) (t₁ : Task), (m.tasks.set k t')[k₁]? = some t₁ →
      ∃ t₀, m.tasks[k₁]? = some t₀ ∧ t₁.id = t₀.id ∧ t₁.ref = t₀.ref ∧ (Live t₁ ↔ Live t₀) := by
    intro k₁ t₁ ht₁
    by_cases hk : k = k₁
    · subst hk
      rw [List.getElem?_set_self (List.getElem?_eq_some_iff.mp ht).1] at ht₁
      obtain rfl := Option.some.inj ht₁
      exact ⟨t, ht, hid, href, hlive⟩
    · rw [List.getElem?_set_ne hk] at ht₁
      exact ⟨t₁, ht₁, rfl, rfl, Iff.rfl⟩
  refine ⟨⟨?_, ?_, ?_⟩, h.cached⟩
  · intro id k₁ hl
    obtain ⟨t₀, ht₀, hid₀, hlive₀⟩ := h.handle id k₁ hl
    by_cases hk : k = k₁
    · subst hk
      obtain rfl := Option.some.inj (ht.symm.trans ht₀)
      exact ⟨t', List.getElem?_set_self (List.getElem?_eq_some_iff.mp ht).1, hid.trans hid₀,
        hlive.mpr hlive₀⟩
    · exact ⟨t₀, (List.getElem?_set_ne hk).trans ht₀, hid₀, hlive₀⟩
  · intro k₁ t₁ ht₁ hlive₁
    obtain ⟨t₀, ht₀, hid₀, -, hiff⟩ := hcases k₁ t₁ ht₁
    rw [hid₀]
    exact h.kept k₁ t₀ ht₀ (hiff.mp hlive₁)
  · intro k₁ t₁ ref ht₁ hlive₁ hl
    obtain ⟨t₀, ht₀, hid₀, href₀, hiff⟩ := hcases k₁ t₁ ht₁
    rw [href₀]
    rw [hid₀] at hl
    exact h.driven k₁ t₀ ref ht₀ (hiff.mp hlive₁) hl

/-- A move that does not end a live task changes nothing of it but what it is doing. -/
theorem TaskMove.same_task {m : Manager σ} {t t' : Task} {objects : List (Strategy σ)}
    {out : List Sent} (h : TaskMove b m t objects t' out)
    (hgoes : Live t → t'.phase ≠ .ended) : t'.id = t.id ∧ (Live t' ↔ Live t) := by
  have hsame : t'.id = t.id ∧ t'.managed = t.managed ∧ t'.aborted = t.aborted ∧
      t.phase ≠ .ended := by
    cases h with
    | synced hp | received hp | lagged hp | panicked hp | processed hp | sent hp | rested hp =>
        refine ⟨rfl, rfl, rfl, ?_⟩
        rw [hp]
        intro h
        cases h
  obtain ⟨hid, hmanaged, haborted, hphase⟩ := hsame
  refine ⟨hid, ?_, ?_⟩
  · intro hlive
    exact ⟨hmanaged ▸ hlive.managed, haborted ▸ hlive.going, hphase⟩
  · intro hlive
    exact ⟨hmanaged.trans hlive.managed, haborted.trans hlive.going, hgoes hlive⟩

/-- What a clean turn acts on is what the map holds. -/
theorem current_of_clean {m : Manager σ} {i : Input σ}
    {current : List (Sigma fun _ : StrategyId => ObjRef)} (hC : Clean b m i)
    (hi : i = .notify ∧ m.turn = none ∧ current = m.getActiveStrategies b ∨
      i = .finishTurn ∧ m.turn = some current) : current = m.getActiveStrategies b := by
  rcases hi with ⟨-, -, hcurrent⟩ | ⟨hi, hturn⟩
  · exact hcurrent
  · rw [hC.current hi] at hturn
    exact (Option.some.inj hturn).symm

/-- **A CLEAN STEP KEEPS THE HANDLES IN ORDER.** -/
theorem reconciled_step {m m' : Manager σ} {i : Input σ} {out : List Sent} (hI : Reconciled m)
    (hC : Clean b m i) (h : manage b m i = some (m', out)) : Reconciled m' := by
  cases step_cases h with
  | registered =>
      exact reconciled_registerAll hC.new ⟨⟨hI.handle, hI.kept, hI.driven⟩, hI.cached⟩
  | notFound => exact hI
  | dropped =>
      refine ⟨⟨hI.handle, hI.kept, ?_⟩, hI.cached⟩
      intro k t ref ht hlive hl
      exact hI.driven k t ref ht hlive (lookup_of_erase hl)
  | began => exact ⟨⟨hI.handle, hI.kept, hI.driven⟩, hI.cached⟩
  | turned hi =>
      obtain rfl := current_of_clean hC hi
      exact (reconciled_finishTurn hI (fun p hp => lookup_of_mem_active hp)).1
  | @deposit state =>
      -- Its task is not one of the loop's.
      have hold : ∀ (k : Nat) (t : Task), (m.spawnDeposit b state).tasks[k]? = some t → Live t →
          m.tasks[k]? = some t := by
        intro k t ht hlive
        rcases old_or_last ht with ht | ⟨-, rfl⟩
        · exact ht
        · cases hlive.managed
      refine ⟨⟨?_, ?_, ?_⟩, hI.cached⟩
      · intro id k hl
        obtain ⟨t, ht, hid, hlive⟩ := hI.handle id k hl
        refine ⟨t, ?_, hid, hlive⟩
        exact (List.getElem?_append_left (List.getElem?_eq_some_iff.mp ht).1).trans ht
      · intro k t ht hlive
        exact hI.kept k t (hold k t ht hlive) hlive
      · intro k t ref ht hlive hl
        exact hI.driven k t ref (hold k t ht hlive) hlive hl
  | published => exact ⟨⟨hI.handle, hI.kept, hI.driven⟩, hI.cached⟩
  | moved hi ht hmove =>
      subst hi
      obtain ⟨hid, hlive⟩ := hmove.same_task fun hlive =>
        hmove.goes_on ht (hC.inTime _ _ rfl ht hlive)
      exact reconciled_setTask hI ht hid hmove.ref_eq hlive
  | cancelled _ ht haborted =>
      refine reconciled_setTask hI ht rfl rfl ⟨?_, ?_⟩
      · intro hlive
        exact absurd rfl hlive.running
      · intro hlive
        rw [hlive.going] at haborted
        cases haborted

theorem reconciled_reach {volumes : VolumeTable} {nextSniping : StrategyId} {m : Manager σ}
    (h : Reach (manage b) (Clean b) (Manager.new volumes nextSniping) m) : Reconciled m := by
  refine h.invariant ⟨⟨?_, ?_, ?_⟩, ?_⟩ (fun s i s' out hI hC hs => reconciled_step hI hC hs)
  · intro id k hl
    cases hl
  · intro k t ht
    cases ht
  · intro k t ref ht
    cases ht
  · intro id
    exact Iff.rfl

/-- Handles of exactly the active strategies mean that the tasks match. -/
theorem matches_of_handled {m : Manager σ} (h : Handled m)
    (hrunning : ∀ id, id ∈ m.running ↔ id ∈ (m.getActiveStrategies b).map Sigma.fst) :
    Matches b m := by
  refine ⟨?_, ?_⟩
  · intro id ref
    constructor
    · intro hactive
      have hmem := (hrunning id).mpr (List.mem_map.mpr ⟨_, hactive, rfl⟩)
      obtain ⟨k, hk⟩ := Option.isSome_iff_exists.mp (AList.lookup_isSome.mpr hmem)
      obtain ⟨t, ht, rfl, hlive⟩ := h.handle id k hk
      exact ⟨k, t, ht, hlive, rfl, h.driven k t ref ht hlive (lookup_of_mem_active hactive)⟩
    · rintro ⟨k, t, ht, hlive, rfl, rfl⟩
      have hmem := AList.lookup_isSome.mp (by rw [h.kept k t ht hlive]; rfl)
      obtain ⟨p, hp, hid⟩ := List.mem_map.mp ((hrunning t.id).mp hmem)
      have hlookup := lookup_of_mem_active hp
      rw [hid] at hlookup
      rw [h.driven k t p.2 ht hlive hlookup, ← hid]
      exact hp
  · intro k k' t t' ht ht' hlive hlive' hid
    have hkept := h.kept k t ht hlive
    rw [hid, h.kept k' t' ht' hlive'] at hkept
    exact (Option.some.inj hkept).symm

theorem active_of_registry {m m' : Manager σ} (h : SameRegistry m m') :
    m'.getActiveStrategies b = m.getActiveStrategies b := by
  simp only [Manager.getActiveStrategies, Manager.isActive, h.objects, h.strategies]

theorem turn_of_step {m m' : Manager σ} {i : Input σ} {out : List Sent}
    (hi : i = .notify ∨ i = .finishTurn) (h : manage b m i = some (m', out)) :
    ∃ current, (i = .notify ∧ m.turn = none ∧ current = m.getActiveStrategies b ∨
      i = .finishTurn ∧ m.turn = some current) ∧ m' = m.finishTurn current := by
  rcases hi with rfl | rfl
  · rw [manage] at h
    split at h
    · next hturn =>
        obtain ⟨rfl, -⟩ := Prod.mk.inj (Option.some.inj h)
        exact ⟨_, Or.inl ⟨rfl, hturn, rfl⟩, rfl⟩
    · cases h
  · obtain ⟨current, hturn, heq⟩ := Option.map_eq_some_iff.mp h
    obtain ⟨rfl, -⟩ := Prod.mk.inj heq
    exact ⟨current, Or.inr ⟨rfl, hturn⟩, rfl⟩

/-- **TASKS MATCH AFTER A NOTIFICATION.**  In every run in which no strategy is
    registered under an id that has a handle, no live task ends by itself, and turns end
    with what they read still true, the live tasks are exactly the active strategies
    after every turn of the loop, each with the object that is registered. -/
theorem tasks_match_after_notification {volumes : VolumeTable} {nextSniping : StrategyId}
    {m m' : Manager σ} {i : Input σ} {out : List Sent}
    (hreach : Reach (manage b) (Clean b) (Manager.new volumes nextSniping) m)
    (hC : Clean b m i) (hi : i = .notify ∨ i = .finishTurn)
    (hstep : manage b m i = some (m', out)) : Matches b m' := by
  obtain ⟨current, hturned, rfl⟩ := turn_of_step hi hstep
  obtain rfl := current_of_clean hC hturned
  obtain ⟨h, hrunning⟩ :=
    reconciled_finishTurn (reconciled_reach hreach) (fun p hp => lookup_of_mem_active hp)
  refine matches_of_handled h.toHandled ?_
  rw [active_of_registry (finishTurn_registry m (m.getActiveStrategies b))]
  exact hrunning

/-- A test for `Clean`, for runs in which no task takes a step. -/
def clean (m : Manager SolanaAction) : Input SolanaAction → Bool
  | .task _     => false
  | .finishTurn => false
  | i           => (registrations m i).all fun p => p.1.id echo ∉ m.running

theorem clean_sound {m : Manager SolanaAction} {i : Input SolanaAction}
    (h : clean m i = true) : Clean echo m i := by
  have hnew : (registrations m i).all (fun p => decide (p.1.id echo ∉ m.running)) = true := by
    cases i with
    | task | finishTurn => cases h
    | startVolume | startSweeper | saveSniping | startSniper | startOther | syncState | drop
    | notify | beginTurn | spawnDeposit | publish | cancel => exact h
  refine ⟨fun p hp => of_decide_eq_true (List.all_eq_true.mp hnew p hp), ?_, ?_⟩
  · rintro k t rfl
    cases h
  · rintro rfl
    cases h

/-- A sniper is dropped and started again, with a turn of the loop in between. -/
theorem restarted_sniper_matches :
    ∃ m m', Reach (manage echo) (Clean echo) newManager m ∧
      manage echo m .notify = some (m', []) ∧ m'.getActiveStrategies echo = [⟨1, 1⟩] ∧
      Matches echo m' := by
  have hview : (runIf (manage echo) clean newManager [.saveSniping,
      .startSniper 1 (some anAction), .notify, .drop 1 true, .notify,
      .startSniper 1 (some anAction)]).bind (fun p => (manage echo p.1 .notify).map fun q =>
        (clean p.1 .notify, q.1.getActiveStrategies echo, q.2))
        = some (true, [⟨1, 1⟩], []) := by decide +kernel
  obtain ⟨⟨m, out⟩, hrun, hlast⟩ := Option.bind_eq_some_iff.mp hview
  obtain ⟨⟨m', sent⟩, hstep, heq⟩ := Option.map_eq_some_iff.mp hlast
  obtain ⟨hclean, heq⟩ := Prod.mk.inj heq
  obtain ⟨hactive, rfl⟩ := Prod.mk.inj heq
  have hreach := reach_of_runIf (fun _ _ => clean_sound) hrun
  exact ⟨m, m', hreach, hstep, hactive,
    tasks_match_after_notification hreach (clean_sound hclean) (Or.inl rfl) hstep⟩

/-- **RESTARTED BETWEEN TWO TURNS**: the ids are the same as before, so the loop does
    nothing, and the task goes on with the strategy that was dropped. -/
theorem restarted_sniper_has_no_task :
    ¬ ∀ m m' out, Reach (manage echo) Always newManager m →
      manage echo m .notify = some (m', out) → Matches echo m' := by
  intro hclaim
  have hview : (run (manage echo) newManager [.saveSniping, .startSniper 1 (some anAction),
      .notify, .drop 1 true, .startSniper 1 (some anAction)]).bind (fun p =>
        (manage echo p.1 .notify).map fun q => (q.1.getActiveStrategies echo, q.1.tasks))
        = some ([⟨1, 1⟩], [⟨1, 0, 0, .syncing, false, true⟩]) := by decide +kernel
  obtain ⟨⟨m, out⟩, hrun, hlast⟩ := Option.bind_eq_some_iff.mp hview
  obtain ⟨⟨m', sent⟩, hstep, heq⟩ := Option.map_eq_some_iff.mp hlast
  obtain ⟨hactive, htasks⟩ := Prod.mk.inj heq
  have hreach := reach_of_run (C := Always) (fun _ _ => trivial) hrun
  have hmem : (⟨1, 1⟩ : Sigma fun _ : StrategyId => ObjRef) ∈ m'.getActiveStrategies echo := by
    rw [show m'.getActiveStrategies echo = [⟨1, 1⟩] from hactive]
    exact List.mem_cons_self
  obtain ⟨k, t, ht, -, -, href⟩ := ((hclaim m m' _ hreach hstep).iff 1 1).mp hmem
  have hone := List.mem_of_getElem? ht
  rw [show m'.tasks = [⟨1, 0, 0, .syncing, false, true⟩] from htasks] at hone
  rw [List.mem_singleton.mp hone] at href
  cases href

end FoxfireManager
