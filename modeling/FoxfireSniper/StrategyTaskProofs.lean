import FoxfireSniper.AgentRunProofs
import FoxfireSniper.StrategyManagerProofs

/-! # The tasks of strategies — when do they stop?

    A task reads events until a reception fails.  Two things are wrong with that.

    * `drop_strategy` does not stop the task: it sends the strategy an event that every
      strategy ignores, and takes it out of the map.  The loop aborts the task at some
      later notification.  **`dropped_strategy_is_silent`** says when nothing is sent in
      between: the task had nothing in hand when the strategy was dropped, and it ended
      before it received another event.
    * A receiver that fell behind gets an error once and could go on, but the task ends
      there, and its handle still counts as running.  **`task_keeps_handling`**: as long
      as every reception comes in time, no task ends unless it is aborted. -/

namespace FoxfireManager

open FoxfireTypes MachineRun Broadcast

variable {σ : Type} {b : Behaviour σ}

-- ── The tasks after a notification ──────────────────────────────────────────

/-- A new task for a strategy. -/
def freshTask (m : Manager σ) (p : Sigma fun _ : StrategyId => ObjRef) : Task :=
  ⟨p.1, p.2, m.events.tail, .syncing, false, true⟩

theorem mem_startMissing {current : List (Sigma fun _ : StrategyId => ObjRef)} :
    ∀ {m : Manager σ}, ∀ t ∈ (m.startMissing current).tasks,
      t ∈ m.tasks ∨ ∃ p ∈ current, t = freshTask m p := by
  induction current with
  | nil => intro m t ht; exact Or.inl ht
  | cons p current ih =>
      intro m t ht
      rw [Manager.startMissing, List.foldl_cons] at ht
      by_cases hp : p.1 ∈ m.running
      · rw [if_pos hp] at ht
        rcases ih t ht with h | ⟨q, hq, h⟩
        · exact Or.inl h
        · exact Or.inr ⟨q, List.mem_cons_of_mem p hq, h⟩
      · rw [if_neg hp] at ht
        rcases ih t ht with h | ⟨q, hq, h⟩
        · rcases List.mem_append.mp h with h | h
          · exact Or.inl h
          · exact Or.inr ⟨p, List.mem_cons_self, List.mem_singleton.mp h⟩
        · exact Or.inr ⟨q, List.mem_cons_of_mem p hq, h⟩

/-- The task, or the task aborted. -/
def MaybeAborted (t t' : Task) : Prop := t' = t ∨ t' = { t with aborted := true }

theorem MaybeAborted.trans {t t' t'' : Task} (h : MaybeAborted t t')
    (h' : MaybeAborted t' t'') : MaybeAborted t t'' := by
  rcases h with rfl | rfl
  · exact h'
  · rcases h' with rfl | rfl
    · exact Or.inr rfl
    · exact Or.inr rfl

theorem mem_stop {m : Manager σ} {id : StrategyId} :
    ∀ t' ∈ (m.stop id).tasks, ∃ t ∈ m.tasks, MaybeAborted t t' := by
  intro t' ht'
  rw [Manager.stop] at ht'
  cases hl : m.running.lookup id with
  | none =>
      rw [hl] at ht'
      exact ⟨t', ht', Or.inl rfl⟩
  | some k =>
      rw [hl] at ht'
      obtain ⟨j, hj⟩ := List.mem_iff_getElem?.mp ht'
      rw [List.getElem?_modify] at hj
      obtain ⟨t, ht, heq⟩ := Option.map_eq_some_iff.mp hj
      refine ⟨t, List.mem_of_getElem? ht, ?_⟩
      rw [← heq]
      split
      · exact Or.inr rfl
      · exact Or.inl rfl

theorem mem_stopAll {ids : List StrategyId} :
    ∀ {m : Manager σ}, ∀ t' ∈ (ids.foldl Manager.stop m).tasks,
      ∃ t ∈ m.tasks, MaybeAborted t t' := by
  induction ids with
  | nil => intro m t' ht'; exact ⟨t', ht', Or.inl rfl⟩
  | cons id ids ih =>
      intro m t' ht'
      obtain ⟨t₁, ht₁, h₁⟩ := ih t' ht'
      obtain ⟨t, ht, h⟩ := mem_stop t₁ ht₁
      exact ⟨t, ht, h.trans h₁⟩

/-- **THE TASKS AFTER A TURN** are those before and new ones of the strategies that it
    read, possibly aborted. -/
theorem mem_finishTurn {m : Manager σ} {current : List (Sigma fun _ : StrategyId => ObjRef)} :
    ∀ t' ∈ (m.finishTurn current).tasks, ∃ t, MaybeAborted t t' ∧
      (t ∈ m.tasks ∨ ∃ p ∈ current, t = freshTask m p) := by
  intro t' ht'
  simp only [Manager.finishTurn] at ht'
  split at ht'
  · exact ⟨t', Or.inl rfl, Or.inl ht'⟩
  · obtain ⟨t, ht, hab⟩ := mem_stopAll t' ht'
    have hstarted := mem_startMissing t ht
    exact ⟨t, hab, hstarted⟩

theorem MaybeAborted.ref_eq {t t' : Task} (h : MaybeAborted t t') : t'.ref = t.ref := by
  rcases h with rfl | rfl
  · rfl
  · rfl

theorem MaybeAborted.phase_eq {t t' : Task} (h : MaybeAborted t t') : t'.phase = t.phase := by
  rcases h with rfl | rfl
  · rfl
  · rfl

-- ── Dropped strategies ──────────────────────────────────────────────────────

/-- The objects taken out of the map by a `drop_strategy` that returned `Ok`. -/
def noteDropped (dropped : List ObjRef) (m : Manager σ) : Input σ → List ObjRef
  | .drop id true => (m.strategies.lookup id).toList ++ dropped
  | _             => dropped

/-- The manager together with the strategies that were dropped. -/
abbrev dropping (b : Behaviour σ) : Step (Manager σ × List ObjRef) (Input σ) Sent :=
  tracked (manage b) fun dropped m i _ _ => noteDropped dropped m i

/-- The task has neither an event nor actions in hand. -/
def Idle (t : Task) : Prop := t.phase = .syncing ∨ t.phase = .waiting ∨ t.phase = .ended

/-- The next step of the task receives an event. -/
def Receives (m : Manager σ) (t : Task) : Prop :=
  t.phase = .waiting ∧ m.events.oldest ≤ t.next ∧ t.next < m.events.tail

/-- A strategy is dropped while its task is idle, and the task ends before it receives
    another event. -/
def QuietDrops (s : Manager σ × List ObjRef) : Input σ → Prop
  | .drop id true => ∀ t ∈ s.1.tasks, s.1.strategies.lookup id = some t.ref → Idle t
  | .task k       => ∀ t, s.1.tasks[k]? = some t → Receives s.1 t → t.ref ∉ s.2
  | _             => True

/-- The tasks of dropped objects are idle. -/
def Silent (m : Manager σ) (dropped : List ObjRef) : Prop :=
  ∀ t ∈ m.tasks, t.ref ∈ dropped → Idle t

/-- Whatever a turn of the loop read, a task that it starts is idle at first. -/
theorem silent_finishTurn {m : Manager σ} {dropped : List ObjRef}
    {current : List (Sigma fun _ : StrategyId => ObjRef)} (h : Silent m dropped) :
    Silent (m.finishTurn current) dropped := by
  intro t' ht' hmem
  obtain ⟨t, hab, hsrc⟩ := mem_finishTurn t' ht'
  rw [hab.ref_eq] at hmem
  rw [Idle, hab.phase_eq]
  rcases hsrc with ht | ⟨p, -, rfl⟩
  · exact h t ht hmem
  · exact Or.inl rfl

theorem silent_drop {m : Manager σ} {dropped : List ObjRef} {id : StrategyId} {updated : Bool}
    (h : Silent m dropped) (hC : QuietDrops (m, dropped) (.drop id updated)) :
    Silent m (noteDropped dropped m (.drop id updated)) := by
  cases updated with
  | false => exact h
  | true =>
      intro t ht hmem
      rcases List.mem_append.mp hmem with hmem | hmem
      · exact hC t ht (Option.mem_toList.mp hmem)
      · exact h t ht hmem

theorem silent_setTask {m : Manager σ} {dropped : List ObjRef} {objects : List (Strategy σ)}
    {k : Nat} {t' : Task} (h : Silent m dropped) (ht' : t'.ref ∈ dropped → Idle t') :
    Silent (Manager.setTask { m with objects := objects } k t') dropped := by
  intro t ht hmem
  rcases List.mem_or_eq_of_mem_set ht with ht | rfl
  · exact h t ht hmem
  · exact ht' hmem

/-- An idle task that does not receive stays idle and sends nothing. -/
theorem Idle.move {m : Manager σ} {t t' : Task} {objects : List (Strategy σ)}
    {out : List Sent} (h : Idle t) (hnot : ¬ Receives m t)
    (hmove : TaskMove b m t objects t' out) : Idle t' ∧ out = [] := by
  cases hmove with
  | synced => exact ⟨Or.inr (Or.inl rfl), rfl⟩
  | received hp hle he => exact absurd ⟨hp, hle, (List.getElem?_eq_some_iff.mp he).1⟩ hnot
  | lagged | panicked => exact ⟨Or.inr (Or.inr rfl), rfl⟩
  | processed hp | sent hp | rested hp =>
      rw [Idle, hp] at h
      rcases h with h | h | h <;> cases h

/-- A task moves on; it stays the task of its strategy. -/
theorem TaskMove.ref_eq {m : Manager σ} {t t' : Task} {objects : List (Strategy σ)}
    {out : List Sent} (h : TaskMove b m t objects t' out) : t'.ref = t.ref := by
  cases h with
  | synced | received | lagged | panicked | processed | sent | rested => rfl

/-- What it sends is its strategy's. -/
theorem TaskMove.sent_ref {m : Manager σ} {t t' : Task} {objects : List (Strategy σ)}
    {out : List Sent} (h : TaskMove b m t objects t' out) : ∀ sent ∈ out, sent.ref = t.ref := by
  intro sent hsent
  cases h with
  | sent => rw [List.mem_singleton.mp hsent]
  | synced | received | lagged | panicked | processed | rested => cases hsent

theorem noteDropped_of_ne {dropped : List ObjRef} {m : Manager σ} {i : Input σ}
    (h : ∀ id updated, i ≠ .drop id updated) : noteDropped dropped m i = dropped := by
  cases i with
  | drop id updated => exact absurd rfl (h id updated)
  | startVolume | startSweeper | saveSniping | startSniper | startOther | syncState | notify
  | beginTurn | finishTurn | spawnDeposit | publish | task | cancel => rfl

/-- **A STEP KEEPS DROPPED STRATEGIES SILENT.** -/
theorem silent_step {m m' : Manager σ} {dropped : List ObjRef} {i : Input σ}
    {out : List Sent} (hI : Silent m dropped) (hC : QuietDrops (m, dropped) i)
    (h : manage b m i = some (m', out)) :
    Silent m' (noteDropped dropped m i) ∧ ∀ sent ∈ out, sent.ref ∉ dropped := by
  have hnothing : ∀ sent ∈ ([] : List Sent), sent.ref ∉ dropped := by
    intro sent hsent
    cases hsent
  cases step_cases h with
  | registered hi =>
      rw [noteDropped_of_ne hi]
      refine ⟨?_, hnothing⟩
      exact registerAll_induction (P := fun m => Silent m dropped) (fun m _ _ _ hm => hm)
        registrations_source hI
  | notFound hi =>
      subst hi
      exact ⟨silent_drop hI hC, hnothing⟩
  | dropped hi =>
      subst hi
      exact ⟨silent_drop hI hC, hnothing⟩
  | began hi =>
      subst hi
      exact ⟨hI, hnothing⟩
  | turned hi =>
      rcases hi with ⟨rfl, -⟩ | ⟨rfl, -⟩
      · exact ⟨silent_finishTurn hI, hnothing⟩
      · exact ⟨silent_finishTurn hI, hnothing⟩
  | deposit hi =>
      subst hi
      refine ⟨?_, hnothing⟩
      intro t ht hmem
      rcases List.mem_append.mp ht with ht | ht
      · exact hI t ht hmem
      · rw [List.mem_singleton.mp ht]
        exact Or.inl rfl
  | published hi =>
      subst hi
      exact ⟨hI, hnothing⟩
  | @moved k t t' objects out hi ht hmove =>
      subst hi
      have hquiet : t.ref ∈ dropped → Idle t' ∧ out = [] := by
        intro hmem
        refine (hI t (List.mem_of_getElem? ht) hmem).move ?_ hmove
        intro hreceives
        exact hC t ht hreceives hmem
      refine ⟨silent_setTask hI ?_, ?_⟩
      · intro hmem
        rw [hmove.ref_eq] at hmem
        exact (hquiet hmem).1
      · intro sent hsent hmem
        rw [hmove.sent_ref sent hsent] at hmem
        rw [(hquiet hmem).2] at hsent
        cases hsent
  | cancelled hi =>
      subst hi
      exact ⟨silent_setTask hI (fun _ => Or.inr (Or.inr rfl)), hnothing⟩

theorem silent_reach {volumes : VolumeTable} {nextSniping : StrategyId}
    {s : Manager σ × List ObjRef}
    (h : Reach (dropping b) QuietDrops (Manager.new volumes nextSniping, []) s) :
    Silent s.1 s.2 := by
  refine h.invariant (I := fun s => Silent s.1 s.2) ?_ ?_
  · intro t ht
    cases ht
  · intro s i s' out hI hC hs
    obtain ⟨hstep, hnote⟩ := tracked_eq_some hs
    rw [hnote]
    exact (silent_step hI hC hstep).1

/-- **A DROPPED STRATEGY SENDS NOTHING.**  In every run in which strategies are dropped
    while their tasks are idle, and these end before they receive another event, no
    action is sent for a strategy that was dropped. -/
theorem dropped_strategy_is_silent {volumes : VolumeTable} {nextSniping : StrategyId}
    {s s' : Manager σ × List ObjRef} {i : Input σ} {out : List Sent}
    (hreach : Reach (dropping b) QuietDrops (Manager.new volumes nextSniping, []) s)
    (hC : QuietDrops s i) (hstep : dropping b s i = some (s', out)) :
    ∀ sent ∈ out, sent.ref ∉ s.2 := by
  have hsilent := silent_reach hreach
  obtain ⟨hs, -⟩ := tracked_eq_some hstep
  exact (silent_step hsilent hC hs).2

def aBeat : BotEvent := .heartBeat FoxfireAgent.tick 0

/-- A test for `QuietDrops`. -/
def quietDrops (s : Manager SolanaAction × List ObjRef) : Input SolanaAction → Bool
  | .drop id true => s.1.tasks.all fun t =>
      s.1.strategies.lookup id ≠ some t.ref || t.phase = .waiting
  | .task k       => (s.1.tasks[k]?).all fun t => t.ref ∉ s.2
  | _             => true

theorem quietDrops_sound {s : Manager SolanaAction × List ObjRef} {i : Input SolanaAction}
    (h : quietDrops s i = true) : QuietDrops s i := by
  cases i with
  | drop id updated =>
      cases updated with
      | false => trivial
      | true =>
          intro t ht hlookup
          have hidle := List.all_eq_true.mp h t ht
          simp only [hlookup, ne_eq, not_true_eq_false, decide_false, Bool.false_or,
            decide_eq_true_eq] at hidle
          exact Or.inr (Or.inl hidle)
  | task k =>
      intro t ht _
      have hnot : (s.1.tasks[k]?).all (fun t => decide (t.ref ∉ s.2)) = true := h
      rw [ht] at hnot
      exact of_decide_eq_true hnot
  | startVolume | startSweeper | saveSniping | startSniper | startOther | syncState | notify
  | beginTurn | finishTurn | spawnDeposit | publish | cancel => trivial

/-- Of two echoes the first is dropped, and only the other answers. -/
theorem other_echo_answers :
    ∃ s s', Reach (dropping echo) QuietDrops (newManager, []) s ∧ s.2 = [0] ∧
      dropping echo s (.task 0) = some (s', [⟨1, anAction⟩]) ∧
      ∀ sent ∈ [(⟨1, anAction⟩ : Sent)], sent.ref ∉ s.2 := by
  have hview : (runIf (dropping echo) quietDrops (newManager, []) [.startOther 1 anAction,
      .startOther 2 anAction, .notify, .task 0, .task 1, .drop 1007 true, .notify, .cancel 1,
      .publish aBeat, .task 0, .task 0]).bind (fun p =>
        (dropping echo p.1 (.task 0)).map fun q => (p.1.2, quietDrops p.1 (.task 0), q.2))
        = some ([0], true, [⟨1, anAction⟩]) := by decide +kernel
  obtain ⟨⟨s, out⟩, hrun, hlast⟩ := Option.bind_eq_some_iff.mp hview
  obtain ⟨⟨s', sent⟩, hstep, heq⟩ := Option.map_eq_some_iff.mp hlast
  obtain ⟨hdropped, heq⟩ := Prod.mk.inj heq
  obtain ⟨hquiet, rfl⟩ := Prod.mk.inj heq
  have hreach := reach_of_runIf (fun _ _ => quietDrops_sound) hrun
  exact ⟨s, s', hreach, hdropped, hstep,
    dropped_strategy_is_silent hreach (quietDrops_sound hquiet) hstep⟩

/-- **A DROPPED ECHO ANSWERS**: a heartbeat comes before the next turn of the loop. -/
theorem dropped_echo_answers :
    ¬ ∀ s s' i out, Reach (dropping echo) Always (newManager, []) s →
      dropping echo s i = some (s', out) → ∀ sent ∈ out, sent.ref ∉ s.2 := by
  intro hclaim
  have hview : (run (dropping echo) (newManager, []) [.startOther 1 anAction, .notify, .task 0,
      .drop 1007 true, .publish aBeat, .task 0, .task 0]).bind (fun p =>
        (dropping echo p.1 (.task 0)).map fun q => (p.1.2, q.2))
        = some ([0], [⟨0, anAction⟩]) := by decide +kernel
  obtain ⟨⟨s, out⟩, hrun, hlast⟩ := Option.bind_eq_some_iff.mp hview
  obtain ⟨⟨s', sent⟩, hstep, heq⟩ := Option.map_eq_some_iff.mp hlast
  obtain ⟨hdropped, rfl⟩ := Prod.mk.inj heq
  have hreach := reach_of_run (C := Always) (fun _ _ => trivial) hrun
  refine hclaim s s' _ _ hreach hstep _ List.mem_cons_self ?_
  rw [show s.2 = [0] from hdropped]
  exact List.mem_cons_self

-- ── Receivers that fall behind ──────────────────────────────────────────────

/-- Receptions come in time, and `process_event` does not panic. -/
def InTime (b : Behaviour σ) (m : Manager σ) : Input σ → Prop
  | .task k => ∀ t, m.tasks[k]? = some t →
      (t.phase = .waiting → m.events.oldest ≤ t.next) ∧
      ∀ e s, t.phase = .processing e → m.objects[t.ref]? = some s →
        (b.processEvent s.state e).isSome
  | _       => True

/-- Every reference is one to an object, and no task has ended unless it was aborted. -/
structure Alive (m : Manager σ) : Prop where
  placed : ∀ id ref, m.strategies.lookup id = some ref → ref < m.objects.length
  read   : ∀ current, m.turn = some current → ∀ p ∈ current, p.2 < m.objects.length
  owned  : ∀ t ∈ m.tasks, t.ref < m.objects.length
  alive  : ∀ t ∈ m.tasks, t.aborted = false → t.phase ≠ .ended

/-- One object more: what refers to objects is old, or refers to the new one. -/
theorem Alive.grow {m m' : Manager σ} (h : Alive m)
    (hlen : m'.objects.length = m.objects.length + 1) (hturn : m'.turn = m.turn)
    (hmap : ∀ id ref, m'.strategies.lookup id = some ref →
      m.strategies.lookup id = some ref ∨ ref = m.objects.length)
    (htasks : ∀ t ∈ m'.tasks, t ∈ m.tasks ∨ t.ref = m.objects.length ∧ t.phase ≠ .ended) :
    Alive m' := by
  have hnew : m.objects.length < m'.objects.length := hlen ▸ Nat.lt_succ_self _
  refine ⟨?_, ?_, ?_, ?_⟩
  · intro id ref hlookup
    rcases hmap id ref hlookup with hold | rfl
    · exact Nat.lt_trans (h.placed id ref hold) hnew
    · exact hnew
  · intro current hcurrent p hp
    rw [hturn] at hcurrent
    exact Nat.lt_trans (h.read current hcurrent p hp) hnew
  · intro t ht
    rcases htasks t ht with hold | ⟨href, -⟩
    · exact Nat.lt_trans (h.owned t hold) hnew
    · rw [href]
      exact hnew
  · intro t ht hnot
    rcases htasks t ht with hold | ⟨-, hphase⟩
    · exact h.alive t hold hnot
    · exact hphase

theorem alive_register {m : Manager σ} {source : Source} {state : σ} (h : Alive m) :
    Alive (m.register b source state) := by
  refine h.grow List.length_append rfl ?_ (fun t ht => Or.inl ht)
  intro id ref hlookup
  by_cases hid : id = source.id b
  · subst hid
    exact Or.inr (Option.some.inj ((AList.lookup_insert m.strategies).symm.trans hlookup)).symm
  · exact Or.inl ((AList.lookup_insert_ne hid).symm.trans hlookup)

theorem lookup_of_mem_active {m : Manager σ} {p : Sigma fun _ : StrategyId => ObjRef}
    (h : p ∈ m.getActiveStrategies b) : m.strategies.lookup p.1 = some p.2 :=
  AList.mem_lookup_iff.mpr (List.mem_filter.mp h).1

theorem lookup_of_erase {strategies : AList fun _ : StrategyId => ObjRef}
    {id id' : StrategyId} {ref : ObjRef} (h : (strategies.erase id).lookup id' = some ref) :
    strategies.lookup id' = some ref := by
  by_cases hid : id' = id
  · rw [hid, AList.lookup_erase] at h
    cases h
  · rwa [AList.lookup_erase_ne hid] at h

theorem alive_finishTurn {m : Manager σ} {current : List (Sigma fun _ : StrategyId => ObjRef)}
    (h : Alive m) (hread : ∀ p ∈ current, p.2 < m.objects.length) :
    Alive (m.finishTurn current) := by
  have hreg := finishTurn_registry m current
  refine ⟨?_, ?_, ?_, ?_⟩
  · rw [hreg.objects, hreg.strategies]
    exact h.placed
  · intro current' hturn
    rw [hreg.turn] at hturn
    cases hturn
  · intro t' ht'
    obtain ⟨t, hab, hsrc⟩ := mem_finishTurn t' ht'
    rw [hab.ref_eq, hreg.objects]
    rcases hsrc with ht | ⟨p, hp, rfl⟩
    · exact h.owned t ht
    · exact hread p hp
  · intro t' ht' hnot
    obtain ⟨t, hab, hsrc⟩ := mem_finishTurn t' ht'
    rcases hab with rfl | rfl
    · rcases hsrc with ht | ⟨p, -, rfl⟩
      · exact h.alive t' ht hnot
      · intro hended
        cases hended
    · cases hnot

/-- A task that is in time goes on. -/
theorem TaskMove.goes_on {m : Manager σ} {k : Nat} {t t' : Task} {objects : List (Strategy σ)}
    {out : List Sent} (hmove : TaskMove b m t objects t' out) (ht : m.tasks[k]? = some t)
    (hC : InTime b m (.task k)) : t'.phase ≠ .ended := by
  intro hended
  cases hmove with
  | lagged hp hlt => exact absurd ((hC t ht).1 hp) (Nat.not_le.mpr hlt)
  | panicked hp hs hnone =>
      have hsome := (hC t ht).2 _ _ hp hs
      rw [hnone] at hsome
      cases hsome
  | synced | received | processed | sent | rested => cases hended

theorem alive_setTask {m : Manager σ} {objects : List (Strategy σ)} {k : Nat} {t t' : Task}
    (h : Alive m) (hobjects : objects.map Strategy.source = m.sources)
    (ht : m.tasks[k]? = some t) (href : t'.ref = t.ref)
    (halive : t'.aborted = false → t'.phase ≠ .ended) :
    Alive (Manager.setTask { m with objects := objects } k t') := by
  have hlen : objects.length = m.objects.length := by
    have hmap := congrArg List.length hobjects
    rwa [List.length_map, Manager.sources, List.length_map] at hmap
  refine ⟨?_, ?_, ?_, ?_⟩
  · intro id ref hlookup
    rw [Manager.setTask, hlen]
    exact h.placed id ref hlookup
  · intro current hturn p hp
    rw [Manager.setTask, hlen]
    exact h.read current hturn p hp
  · intro t₁ ht₁
    rw [Manager.setTask, hlen]
    rcases List.mem_or_eq_of_mem_set ht₁ with ht₁ | rfl
    · exact h.owned t₁ ht₁
    · rw [href]
      exact h.owned t (List.mem_of_getElem? ht)
  · intro t₁ ht₁
    rcases List.mem_or_eq_of_mem_set ht₁ with ht₁ | rfl
    · exact h.alive t₁ ht₁
    · exact halive

/-- **A STEP IN TIME KEEPS TASKS ALIVE.** -/
theorem alive_step {m m' : Manager σ} {i : Input σ} {out : List Sent} (hI : Alive m)
    (hC : InTime b m i) (h : manage b m i = some (m', out)) : Alive m' := by
  cases step_cases h with
  | registered =>
      exact registerAll_induction (fun m _ _ _ hm => alive_register hm) registrations_source
        ⟨hI.placed, hI.read, hI.owned, hI.alive⟩
  | notFound => exact hI
  | dropped =>
      refine ⟨?_, ?_, ?_, hI.alive⟩
      · intro id' ref' hl
        rw [List.length_set]
        exact hI.placed id' ref' (lookup_of_erase hl)
      · intro current hturn p hp
        rw [List.length_set]
        exact hI.read current hturn p hp
      · intro t ht
        rw [List.length_set]
        exact hI.owned t ht
  | began =>
      refine ⟨hI.placed, ?_, hI.owned, hI.alive⟩
      intro current hcurrent p hp
      obtain rfl := Option.some.inj hcurrent
      exact hI.placed p.1 p.2 (lookup_of_mem_active hp)
  | turned hi =>
      rcases hi with ⟨-, -, rfl⟩ | ⟨-, hturn⟩
      · exact alive_finishTurn hI (fun p hp => hI.placed p.1 p.2 (lookup_of_mem_active hp))
      · exact alive_finishTurn hI (hI.read _ hturn)
  | deposit =>
      refine hI.grow List.length_append rfl (fun id ref hlookup => Or.inl hlookup) ?_
      intro t ht
      rcases List.mem_append.mp ht with ht | ht
      · exact Or.inl ht
      · rw [List.mem_singleton.mp ht]
        refine Or.inr ⟨rfl, ?_⟩
        intro hended
        cases hended
  | published => exact ⟨hI.placed, hI.read, hI.owned, hI.alive⟩
  | moved hi ht hmove =>
      subst hi
      exact alive_setTask hI hmove.sources ht hmove.ref_eq (fun _ => hmove.goes_on ht hC)
  | cancelled _ ht haborted =>
      refine alive_setTask hI rfl ht rfl ?_
      intro hnot
      rw [haborted] at hnot
      cases hnot

theorem alive_reach {volumes : VolumeTable} {nextSniping : StrategyId} {m : Manager σ}
    (h : Reach (manage b) (InTime b) (Manager.new volumes nextSniping) m) : Alive m := by
  refine h.invariant ⟨?_, ?_, ?_, ?_⟩ (fun s i s' out hI hC hs => alive_step hI hC hs)
  · intro id ref hlookup
    cases hlookup
  · intro current hturn
    cases hturn
  · intro t ht
    cases ht
  · intro t ht
    cases ht

theorem setTask_get {m : Manager σ} {k : Nat} {t : Task} (t' : Task) (ht : m.tasks[k]? = some t) :
    (m.setTask k t').tasks[k]? = some t' := by
  show (m.tasks.set k t')[k]? = some t'
  rw [List.getElem?_set_self (List.getElem?_eq_some_iff.mp ht).1]

theorem setTask_setTask (m : Manager σ) (k : Nat) (t t' : Task) :
    (m.setTask k t).setTask k t' = m.setTask k t' := by
  rw [Manager.setTask, Manager.setTask, Manager.setTask, List.set_set]

/-- A task with actions in hand sends them, one after the other, and waits again. -/
theorem run_sending {k : Nat} {actions : List SolanaAction} :
    ∀ {m : Manager σ} {t : Task}, m.tasks[k]? = some t → t.phase = .sending actions →
      run (manage b) m (List.replicate (actions.length + 1) (.task k))
        = some (m.setTask k { t with phase := .waiting },
            actions.map fun action => ⟨t.ref, action⟩) := by
  induction actions with
  | nil =>
      intro m t ht hp
      have hstep : manage b m (.task k) = some (m.setTask k { t with phase := .waiting }, []) := by
        simp only [manage, Manager.taskStep, ht, hp, Option.bind_some]
      show run (manage b) m [.task k] = _
      rw [run_cons, hstep]
      rfl
  | cons action actions ih =>
      intro m t ht hp
      have hstep : manage b m (.task k)
          = some (m.setTask k { t with phase := .sending actions }, [⟨t.ref, action⟩]) := by
        simp only [manage, Manager.taskStep, ht, hp, Option.bind_some]
      rw [List.length_cons, List.replicate_succ, run_cons, hstep, Option.bind_some,
        ih (setTask_get _ ht) rfl, setTask_setTask]
      rfl

/-- A task with an event in hand has the strategy process it, and sends the actions. -/
theorem run_processing {m : Manager σ} {k : Nat} {t : Task} {e : BotEvent} {s : Strategy σ}
    {p : σ × List SolanaAction} (ht : m.tasks[k]? = some t) (hp : t.phase = .processing e)
    (hs : m.objects[t.ref]? = some s) (hsome : b.processEvent s.state e = some p) :
    ∃ m', run (manage b) m (List.replicate (p.2.length + 2) (.task k))
        = some (m', p.2.map fun action => ⟨t.ref, action⟩) ∧
      m'.tasks[k]? = some { t with phase := .waiting } := by
  have hstep : manage b m (.task k) = some (Manager.setTask
      { m with objects := m.objects.set t.ref { s with state := p.1 } } k
      { t with phase := .sending p.2 }, []) := by
    simp only [manage, Manager.taskStep, ht, hp, hs, hsome, Option.bind_some, Option.map_some]
  have ht₁ : (Manager.setTask { m with objects := m.objects.set t.ref { s with state := p.1 } } k
      { t with phase := .sending p.2 }).tasks[k]? = some { t with phase := .sending p.2 } :=
    setTask_get _ ht
  refine ⟨_, ?_, setTask_get _ ht₁⟩
  rw [List.replicate_succ, run_cons, hstep, Option.bind_some, run_sending ht₁ rfl]
  rfl

/-- The task handles the oldest event that it has not missed: it receives the event, has
    the strategy process it, sends all actions, and waits for the next event. -/
def Handles (b : Behaviour σ) (m : Manager σ) (k : Nat) (t : Task) : Prop :=
  ∃ e s p m', m.events.log[max t.next m.events.oldest]? = some e ∧
    m.objects[t.ref]? = some s ∧ b.processEvent s.state e = some p ∧
    run (manage b) m (List.replicate (p.2.length + 3) (.task k))
      = some (m', p.2.map fun action => ⟨t.ref, action⟩) ∧
    m'.tasks[k]? = some { t with next := max t.next m.events.oldest + 1 }

theorem handles_in_time {m : Manager σ} {k : Nat} {t : Task} {e : BotEvent} {s : Strategy σ}
    {p : σ × List SolanaAction} (ht : m.tasks[k]? = some t) (hp : t.phase = .waiting)
    (hle : m.events.oldest ≤ t.next) (he : m.events.log[t.next]? = some e)
    (hs : m.objects[t.ref]? = some s) (hsome : b.processEvent s.state e = some p) :
    Handles b m k t := by
  have hrecv : manage b m (.task k)
      = some (m.setTask k { t with phase := .processing e, next := t.next + 1 }, []) := by
    simp only [manage, Manager.taskStep, ht, hp, Option.bind_some,
      Channel.recv_in_time hle he]
  have ht₁ := setTask_get { t with phase := .processing e, next := t.next + 1 } ht
  obtain ⟨m', hrun, ht'⟩ := run_processing ht₁ rfl hs hsome
  refine ⟨e, s, p, m', ?_, hs, hsome, ?_, ?_⟩
  · rw [Nat.max_eq_left hle]
    exact he
  · rw [List.replicate_succ, run_cons, hrecv, Option.bind_some, hrun]
    rfl
  · rw [Nat.max_eq_left hle, ht', hp]

/-- A task that fell behind handles nothing any more: it ends at the reception. -/
theorem not_handles_of_lagged {m : Manager σ} {k : Nat} {t : Task} (ht : m.tasks[k]? = some t)
    (hp : t.phase = .waiting) (hlt : t.next < m.events.oldest) : ¬ Handles b m k t := by
  rintro ⟨e, s, p, m', -, -, -, hrun, -⟩
  have hrecv : manage b m (.task k)
      = some (m.setTask k { t with phase := .ended, next := m.events.oldest }, []) := by
    simp only [manage, Manager.taskStep, ht, hp, Option.bind_some, Channel.recv_of_lagged hlt]
  have hended : manage b (m.setTask k { t with phase := .ended, next := m.events.oldest })
      (.task k) = none := by
    simp only [manage, Manager.taskStep, setTask_get _ ht, Option.bind_some]
  rw [List.replicate_succ, List.replicate_succ, run_cons, hrecv, Option.bind_some, run_cons,
    hended] at hrun
  cases hrun

/-- **TASKS IN TIME KEEP HANDLING EVENTS.**  In every run whose receptions come in time
    and in which `process_event` does not panic, a task that is not aborted has not
    ended.  With an event to read, it goes on to handle it exactly when it has not
    fallen behind and the strategy does not panic. -/
theorem task_keeps_handling {volumes : VolumeTable} {nextSniping : StrategyId} {m : Manager σ}
    {k : Nat} {t : Task}
    (hreach : Reach (manage b) (InTime b) (Manager.new volumes nextSniping) m)
    (ht : m.tasks[k]? = some t) (hab : t.aborted = false) :
    t.phase ≠ .ended ∧ (t.phase = .waiting → t.next < m.events.tail →
      (Handles b m k t ↔ m.events.oldest ≤ t.next ∧
        ∀ e s, m.events.log[t.next]? = some e → m.objects[t.ref]? = some s →
          (b.processEvent s.state e).isSome)) := by
  have halive := alive_reach hreach
  have hmem := List.mem_of_getElem? ht
  refine ⟨halive.alive t hmem hab, ?_⟩
  intro hp hlt
  constructor
  · intro hhandles
    have hle : m.events.oldest ≤ t.next := by
      by_contra hnot
      exact not_handles_of_lagged ht hp (Nat.not_le.mp hnot) hhandles
    refine ⟨hle, ?_⟩
    intro e s he hs
    obtain ⟨e', s', p, -, he', hs', hsome, -⟩ := hhandles
    rw [Nat.max_eq_left hle, he] at he'
    obtain rfl := Option.some.inj he'
    rw [hs] at hs'
    obtain rfl := Option.some.inj hs'
    rw [hsome]
    rfl
  · rintro ⟨hle, hanswers⟩
    have he : m.events.log[t.next]? = some (m.events.log.get ⟨t.next, hlt⟩) :=
      List.getElem?_eq_getElem hlt
    have hs : m.objects[t.ref]? = some (m.objects.get ⟨t.ref, halive.owned t hmem⟩) :=
      List.getElem?_eq_getElem (halive.owned t hmem)
    obtain ⟨p, hsome⟩ := Option.isSome_iff_exists.mp (hanswers _ _ he hs)
    exact handles_in_time ht hp hle he hs hsome

/-- A test for `InTime`, for the echo, which never panics. -/
def inTime (m : Manager SolanaAction) : Input SolanaAction → Bool
  | .task k => (m.tasks[k]?).all fun t => t.phase ≠ .waiting || m.events.oldest ≤ t.next
  | _       => true

theorem echo_answers (action : SolanaAction) (e : BotEvent) :
    (echo.processEvent action e).isSome := by
  cases e <;> rfl

theorem inTime_sound {m : Manager SolanaAction} {i : Input SolanaAction}
    (h : inTime m i = true) : InTime echo m i := by
  cases i with
  | task k =>
      intro t ht
      have htest : (m.tasks[k]?).all (fun t =>
        decide (t.phase ≠ .waiting) || decide (m.events.oldest ≤ t.next)) = true := h
      refine ⟨?_, fun e s _ _ => echo_answers s.state e⟩
      intro hp
      simpa [ht, hp] using htest
  | startVolume | startSweeper | saveSniping | startSniper | startOther | syncState | drop | notify
  | beginTurn | finishTurn | spawnDeposit | publish | cancel => trivial

/-- An echo is started, and its task begins to wait. -/
def startEcho : List (Input SolanaAction) := [.startOther 1 anAction, .notify, .task 0]

/-- The task of the echo. -/
def echoTask : Task := ⟨1007, 0, 0, .waiting, false, true⟩

/-- A heartbeat that comes in time is handled. -/
theorem beat_in_time_is_handled :
    ∃ m, Reach (manage echo) (InTime echo) newManager m ∧ m.tasks[0]? = some echoTask ∧
      m.events.log = [aBeat] ∧ Handles echo m 0 echoTask := by
  have hview : (runIf (manage echo) inTime newManager (startEcho ++ [.publish aBeat])).map
      (fun p => (p.1.tasks[0]?, p.1.events.log, p.1.events.oldest))
        = some (some echoTask, [aBeat], 0) := by decide +kernel
  obtain ⟨⟨m, out⟩, hrun, hlast⟩ := Option.map_eq_some_iff.mp hview
  obtain ⟨htask, hlast⟩ := Prod.mk.inj hlast
  obtain ⟨hlog, holdest⟩ := Prod.mk.inj hlast
  have hreach := reach_of_runIf (fun _ _ => inTime_sound) hrun
  have hunread : echoTask.next < m.events.tail := by
    rw [Channel.tail, hlog]
    decide
  refine ⟨m, hreach, htask, hlog, ?_⟩
  refine ((task_keeps_handling hreach htask rfl).2 rfl hunread).mpr ⟨?_, ?_⟩
  · exact Nat.le_of_eq holdest
  · intro e s _ _
    exact echo_answers s.state e

/-- Publications only make the log longer. -/
theorem run_publish (b : Behaviour σ) (e : BotEvent) :
    ∀ (n : Nat) (m : Manager σ), run (manage b) m (List.replicate n (.publish e))
      = some ({ m with events :=
          { m.events with log := m.events.log ++ List.replicate n e } }, []) := by
  intro n
  induction n with
  | zero =>
      intro m
      rw [List.replicate_zero, List.replicate_zero, List.append_nil]
      rfl
  | succ n ih =>
      intro m
      rw [List.replicate_succ, run_cons]
      show (run (manage b) { m with events := m.events.send e } _).map _ = _
      rw [ih]
      simp only [Channel.send, Option.map_some, List.append_assoc, List.singleton_append,
        List.replicate_succ, List.nil_append]

/-- **ONE EVENT MORE THAN THE CHANNEL HOLDS** is published before the task reads: its
    next reception ends it, with all the events that are kept unread. -/
theorem burst_ends_echo :
    ¬ ∀ m k t, Reach (manage echo) Always newManager m → m.tasks[k]? = some t →
      t.aborted = false →
      t.phase ≠ .ended ∧ (t.phase = .waiting → t.next < m.events.tail → Handles echo m k t) := by
  intro hclaim
  have hview : (run (manage echo) newManager startEcho).map
      (fun p => (p.1.tasks[0]?, p.1.events.capacity, p.1.events.log))
        = some (some echoTask, engineMessageChannelCapacity, []) := by decide +kernel
  obtain ⟨⟨m, out⟩, hrun, hlast⟩ := Option.map_eq_some_iff.mp hview
  obtain ⟨htask, hlast⟩ := Prod.mk.inj hlast
  obtain ⟨hcapacity, hlog⟩ := Prod.mk.inj hlast
  have hburst := run_publish echo aBeat (engineMessageChannelCapacity + 1) m
  have hreach := (reach_of_run (C := Always) (fun _ _ => trivial) hrun).trans
    (reach_of_run (C := Always) (fun _ _ => trivial) hburst)
  have htail : ∀ n, (m.events.log ++ List.replicate n aBeat).length = n := by
    intro n
    rw [List.length_append, List.length_replicate, show m.events.log = [] from hlog,
      List.length_nil, Nat.zero_add]
  refine absurd ((hclaim _ 0 echoTask hreach htask rfl).2 rfl ?_)
    (not_handles_of_lagged htask rfl ?_)
  · show 0 < (m.events.log ++ List.replicate _ aBeat).length
    rw [htail]
    decide
  · show 0 < (m.events.log ++ List.replicate _ aBeat).length - m.events.capacity
    rw [htail, show m.events.capacity = engineMessageChannelCapacity from hcapacity]
    decide

end FoxfireManager
