import FoxfireSniper.StrategyManagerProofs

/-! # A start or a drop that fails — what is left of it

    `start_strategy` and `drop_strategy` of `src/strategies/solana_strategy_manager.rs`,
    call by call.  Both change the table and the map, one after the other, with calls in
    between that can fail: a start stores the row before it makes the strategy, a drop
    takes the strategy out of the map before it asks for a connection.  What is left then
    shows when the bot is started again: `sync_state` makes the map anew from the table.

    **`untouched_iff`**: a failed call leaves both stores alone exactly when it failed
    before it changed the first of them. -/

namespace FoxfireManager

open FoxfireTypes MachineRun

variable {σ : Type}

-- ── The calls ───────────────────────────────────────────────────────────────

/-- What becomes of a statement that is sent to the database. -/
inductive DbReply where
  | done
  | failed
  /-- It was executed, and the answer was lost. -/
  | lost
  deriving DecidableEq, Repr

def DbReply.applied : DbReply → Bool
  | .failed => false
  | _       => true

inductive Returned (α : Type) where
  | ok (result : α)
  | err
  | panicked

/-- The strategy that is handed to `start_strategy`, by its kind. -/
inductive Given (σ : Type) where
  | volume (strategy : σ)
  | sweeper (instanceId : StrategyId)
  | sniper (instanceId : StrategyId)
  | other (random : Int) (strategy : σ)

/-- How the calls of `start_strategy` end. -/
structure StartCalls (σ : Type) where
  /-- `db_pool.get()` -/
  connects : Bool
  inserted : DbReply
  /-- `VolumeStrategy::new`, `SweeperStrategy::new` or `SniperStrategy::new`. -/
  made     : Option σ

/-- How the calls of `drop_strategy` end. -/
structure DropCalls where
  connects : Bool
  updated  : DbReply

namespace Manager

variable (b : Behaviour σ)

/-- `strategies.insert(..)` for a strategy that could be made. -/
def registerMade (m : Manager σ) (source : Source) (made : Option σ) :
    Returned StrategyId × Manager σ :=
  match made with
  | none       => (.err, m)
  | some state => (.ok (source.id b), m.register b source state)

/-- `insert_into(volumestrategyinstances)`, as far as it is executed. -/
def storeRow (m : Manager σ) (reply : DbReply) (completed : Bool) : Manager σ :=
  if reply.applied then { m with volumes := m.volumes.insert completed } else m

/-- **`start_strategy`**.  Without a connection an `unwrap` panics. -/
def startStrategy (m : Manager σ) (calls : StartCalls σ) :
    Given σ → Returned StrategyId × Manager σ
  | .volume strategy =>
      if calls.connects then
        let stored := m.storeRow calls.inserted (b.isCompleted strategy)
        if calls.inserted = .done then
          stored.registerMade b (.volume m.volumes.next) calls.made
        else (.err, stored)
      else (.panicked, m)
  | .sweeper instanceId    => m.registerMade b (.sweeper instanceId) calls.made
  | .sniper instanceId     => m.registerMade b (.sniper instanceId) calls.made
  | .other random strategy => m.registerMade b (.other random) (some strategy)

/-- The update of `completed_at`, as far as it is executed. -/
def completeRow (m : Manager σ) (reply : DbReply) (id : StrategyId) : Manager σ :=
  if reply.applied then { m with volumes := m.volumes.complete id } else m

/-- The strategy once it has handled `DestroyStrategy`; `none` if it panics. -/
def destroyed (m : Manager σ) (id : StrategyId) (ref : ObjRef) : Option (Strategy σ) :=
  (m.objects[ref]?).bind fun s =>
    (b.processEvent s.state (.systemEvent (.destroyStrategy id))).map fun p =>
      { s with state := p.1 }

/-- **`drop_strategy`**, which returns at the first call that fails. -/
def drop (m : Manager σ) (calls : DropCalls) (id : StrategyId) : Returned Unit × Manager σ :=
  match m.strategies.lookup id with
  | none     => (.err, m)
  | some ref =>
      match m.destroyed b id ref with
      | none   => (.panicked, m)
      | some s =>
          let removed := { m with
            objects := m.objects.set ref s
            strategies := m.strategies.erase id }
          if calls.connects then
            (if calls.updated = .done then .ok () else .err,
              removed.completeRow calls.updated id)
          else (.err, removed)

/-- The bot is started again: a new manager, and `sync_state`. -/
def restarted (m : Manager σ) (made : StrategyId → Option σ) : Manager σ :=
  (new m.volumes m.nextSniping).syncState b made

end Manager

variable {b : Behaviour σ}

/-- A start whose statement was executed is the step of the manager. -/
theorem startStrategy_eq_manage (m : Manager σ) (strategy : σ) (made : Option σ) :
    manage b m (.startVolume strategy made) =
      some ((m.startStrategy b ⟨true, .done, made⟩ (.volume strategy)).2, []) := by
  cases made with
  | none => rfl
  | some state => rfl

/-- So is a drop that does not panic. -/
theorem drop_eq_dropStrategy {m : Manager σ} {id : StrategyId} (calls : DropCalls)
    (h : (m.drop b calls id).1 ≠ .panicked) :
    m.dropStrategy b id (calls.connects && calls.updated.applied) =
      some (m.drop b calls id).2 := by
  rw [Manager.drop] at h ⊢
  rw [Manager.dropStrategy]
  cases hl : m.strategies.lookup id with
  | none => rfl
  | some ref =>
      rw [hl] at h
      dsimp only at h ⊢
      have hdestroyed : m.destroyed b id ref = (m.objects[ref]?).bind fun s =>
          (b.processEvent s.state (.systemEvent (.destroyStrategy id))).map fun p =>
            { s with state := p.1 } := rfl
      cases hd : m.destroyed b id ref with
      | none =>
          rw [hd] at h
          exact absurd rfl h
      | some s =>
          rw [hd] at hdestroyed
          obtain ⟨s₀, hs, hp⟩ := Option.bind_eq_some_iff.mp hdestroyed.symm
          obtain ⟨p, hevent, rfl⟩ := Option.map_eq_some_iff.mp hp
          rw [hs, Option.bind_some, hevent, Option.map_some]
          cases hc : calls.connects with
          | false => rfl
          | true =>
              dsimp only
              rw [if_pos rfl, Bool.true_and, Manager.completeRow]
              split <;> rfl

-- ── Failures ────────────────────────────────────────────────────────────────

/-- Neither the active rows nor the map have changed; so the bot, started again, has the
    same strategies. -/
structure Untouched (b : Behaviour σ) (m m' : Manager σ) : Prop where
  active     : m'.volumes.active = m.volumes.active
  registered : m'.strategies = m.strategies
  restarted  : ∀ made, (m'.restarted b made).strategies = (m.restarted b made).strategies

/-- A strategy is registered as it was, and its row is as active as it was. -/
structure StillThere (id : StrategyId) (m m' : Manager σ) : Prop where
  registered : m'.strategies.lookup id = m.strategies.lookup id
  active     : ∀ row ∈ m.volumes.active, row.id = id → row ∈ m'.volumes.active

/-- A start that fails changes nothing. -/
def StartClean (b : Behaviour σ) (m : Manager σ) (calls : StartCalls σ) (given : Given σ) :
    Prop :=
  (m.startStrategy b calls given).1 = .err → Untouched b m (m.startStrategy b calls given).2

/-- A drop that fails leaves the strategy where it is. -/
def DropClean (b : Behaviour σ) (m : Manager σ) (calls : DropCalls) (id : StrategyId) : Prop :=
  (m.drop b calls id).1 = .err → StillThere id m (m.drop b calls id).2

/-- Once the row of a volume strategy is stored, nothing fails; or the row is not an
    active one. -/
def StartFailsEarly (b : Behaviour σ) (calls : StartCalls σ) : Given σ → Prop
  | .volume strategy => calls.connects = true → calls.inserted.applied = true →
      b.isCompleted strategy = true ∨ (calls.inserted = .done ∧ calls.made.isSome = true)
  | _ => True

/-- Once the strategy has been destroyed, nothing fails. -/
def DropFailsEarly (b : Behaviour σ) (m : Manager σ) (calls : DropCalls) (id : StrategyId) :
    Prop :=
  ∀ ref, m.strategies.lookup id = some ref → (m.destroyed b id ref).isSome = true →
    calls.connects = true ∧ calls.updated = .done

-- ── What a restart depends on ───────────────────────────────────────────────

/-- `sync_state` reads the rows, and what is registered before it. -/
theorem syncRows_strategies (made : StrategyId → Option σ) :
    ∀ (rows : List Row) {m m' : Manager σ}, m'.objects = m.objects →
      m'.strategies = m.strategies →
      (m'.syncRows b made rows).strategies = (m.syncRows b made rows).strategies := by
  intro rows
  induction rows with
  | nil => intro m m' _ hs; exact hs
  | cons row rows ih =>
      intro m m' ho hs
      rw [Manager.syncRows, Manager.syncRows]
      cases made row.id with
      | none => exact hs
      | some state =>
          refine ih ?_ ?_
          · show m'.objects ++ _ = m.objects ++ _
            rw [ho]
          · show m'.strategies.insert _ m'.objects.length = m.strategies.insert _ m.objects.length
            rw [ho, hs]

/-- The map after a restart is determined by the active rows. -/
theorem untouched_of_active {m m' : Manager σ} (h : m'.volumes.active = m.volumes.active)
    (hs : m'.strategies = m.strategies) : Untouched b m m' where
  active := h
  registered := hs
  restarted made := by
    show (Manager.syncRows b made _ m'.volumes.active).strategies =
      (Manager.syncRows b made _ m.volumes.active).strategies
    rw [h]
    exact syncRows_strategies made _ rfl rfl

theorem Untouched.refl (m : Manager σ) : Untouched b m m := untouched_of_active rfl rfl

-- ── Starts ──────────────────────────────────────────────────────────────────

/-- A strategy that cannot be made is not registered, and nothing else has happened. -/
theorem registerMade_err {m : Manager σ} {source : Source} {made : Option σ}
    (h : (m.registerMade b source made).1 = .err) :
    made = none ∧ (m.registerMade b source made).2 = m := by
  cases made with
  | none => exact ⟨rfl, rfl⟩
  | some state => cases h

theorem active_insert (t : VolumeTable) (completed : Bool) :
    (t.insert completed).active = if completed then t.active else t.active ++ [⟨t.next, false⟩] := by
  rw [VolumeTable.active, VolumeTable.insert, List.filter_append]
  cases completed with
  | false => rfl
  | true => exact List.append_nil _

/-- A stored row shows among the active ones unless it is completed. -/
theorem storeRow_active_iff (m : Manager σ) (reply : DbReply) (completed : Bool) :
    (m.storeRow reply completed).volumes.active = m.volumes.active ↔
      (reply.applied = true → completed = true) := by
  cases ha : reply.applied with
  | false => simp [Manager.storeRow, ha]
  | true =>
      rw [Manager.storeRow, if_pos ha]
      show (m.volumes.insert completed).active = _ ↔ _
      rw [active_insert]
      cases completed with
      | true => simp
      | false => simp

theorem storeRow_strategies (m : Manager σ) (reply : DbReply) (completed : Bool) :
    (m.storeRow reply completed).strategies = m.strategies := by
  rw [Manager.storeRow]
  split <;> rfl

theorem startClean_iff (m : Manager σ) (calls : StartCalls σ) (given : Given σ) :
    StartClean b m calls given ↔ StartFailsEarly b calls given := by
  cases given with
  | volume strategy =>
      have hstored : Untouched b m (m.storeRow calls.inserted (b.isCompleted strategy)) ↔
          (calls.inserted.applied = true → b.isCompleted strategy = true) := by
        rw [← storeRow_active_iff]
        exact ⟨fun h => h.active, fun h => untouched_of_active h (storeRow_strategies ..)⟩
      rw [StartClean, StartFailsEarly, Manager.startStrategy]
      cases hc : calls.connects with
      | false => simp
      | true =>
          simp only [if_true, true_imp_iff]
          by_cases hdone : calls.inserted = .done
          · rw [if_pos hdone]
            cases hm : calls.made with
            | none =>
                show (_ → Untouched b m (m.storeRow _ _)) ↔ _
                rw [hstored]
                simp [hdone, Manager.registerMade]
            | some state => simp [hdone, Manager.registerMade]
          · rw [if_neg hdone]
            simp [hstored, hdone]
  | sweeper instanceId =>
      refine iff_of_true (fun h => ?_) trivial
      rw [Manager.startStrategy, (registerMade_err h).2]
      exact Untouched.refl m
  | sniper instanceId =>
      refine iff_of_true (fun h => ?_) trivial
      rw [Manager.startStrategy, (registerMade_err h).2]
      exact Untouched.refl m
  | other random strategy =>
      refine iff_of_true (fun h => ?_) trivial
      cases h

-- ── Drops ───────────────────────────────────────────────────────────────────

theorem dropClean_iff (m : Manager σ) (calls : DropCalls) (id : StrategyId) :
    DropClean b m calls id ↔ DropFailsEarly b m calls id := by
  rw [DropClean, DropFailsEarly, Manager.drop]
  cases hl : m.strategies.lookup id with
  | none =>
      refine iff_of_true (fun _ => ⟨rfl, fun row hrow _ => hrow⟩) ?_
      intro ref href
      cases href
  | some ref =>
      have hcond : (∀ ref', some ref = some ref' → (m.destroyed b id ref').isSome = true →
          calls.connects = true ∧ calls.updated = .done) ↔
          ((m.destroyed b id ref).isSome = true →
            calls.connects = true ∧ calls.updated = .done) := by
        constructor
        · intro h
          exact h ref rfl
        · rintro h ref' ⟨⟩
          exact h
      rw [hcond]
      dsimp only
      cases m.destroyed b id ref with
      | none => exact iff_of_true (fun h => (by cases h)) (fun h => (by cases h))
      | some s =>
          -- The strategy is out of the map, whatever follows.
          have hgone : ∀ m' : Manager σ, m'.strategies = m.strategies.erase id →
              ¬ StillThere id m m' := by
            intro m' hm' hstill
            have hlookup := hstill.registered
            rw [hm', AList.lookup_erase, hl] at hlookup
            cases hlookup
          dsimp only
          refine Iff.trans ?_ (⟨fun h _ => h, fun h => h rfl⟩ :
            (calls.connects = true ∧ calls.updated = .done) ↔ _)
          cases hc : calls.connects with
          | false =>
              refine iff_of_false (fun h => hgone _ rfl (h rfl)) ?_
              rintro ⟨⟨⟩, -⟩
          | true =>
              rw [if_pos rfl]
              by_cases hu : calls.updated = .done
              · rw [if_pos hu]
                exact iff_of_true (fun h => (by cases h)) ⟨rfl, hu⟩
              · rw [if_neg hu]
                refine iff_of_false (fun h => hgone _ ?_ (h rfl)) (fun h => hu h.2)
                rw [Manager.completeRow]
                split <;> rfl

/-- **FAILED CALLS LEAVE BOTH STORES ALONE EXACTLY WHEN THEY FAIL EARLY**: a start before
    the row of an active strategy is stored, a drop before the strategy is destroyed. -/
theorem untouched_iff (b : Behaviour σ) (m : Manager σ) (starting : StartCalls σ)
    (given : Given σ) (dropping : DropCalls) (id : StrategyId) :
    (StartClean b m starting given ↔ StartFailsEarly b starting given) ∧
      (DropClean b m dropping id ↔ DropFailsEarly b m dropping id) :=
  ⟨startClean_iff m starting given, dropClean_iff m dropping id⟩

/-- **A FAILED START COMES BACK**: the row is stored, the strategy cannot be made, and the
    next `sync_state` registers it. -/
theorem failed_start_is_resurrected :
    ¬ ∀ (m : Manager SolanaAction) (starting : StartCalls SolanaAction)
      (given : Given SolanaAction) (dropping : DropCalls) (id : StrategyId),
      StartClean echo m starting given ∧ DropClean echo m dropping id := by
  intro hclaim
  have hclean := (hclaim newManager ⟨true, .done, none⟩ (.volume anAction) ⟨true, .done⟩ 1).1
  have hrestarted := (hclean rfl).restarted fun _ => some anAction
  have hkeys := congrArg (fun l => l.keys) hrestarted
  exact absurd hkeys (by decide)

end FoxfireManager
