import FoxfireSniper.PlainBufferProofs
import FoxfireSniper.SharedVecProofs
import FoxfireSniper.Types

/-! # The actions of a strategy — from its agents to the executors

    `queue_action` of the agents and `process_event` of the strategies.  An agent registers an
    action in the operational cache, which wraps it in an `Arc`, and pushes the `Arc` into a
    vector that all agents of the strategy share.  `process_event`, after it has handled its
    event, takes the vector.  The volume strategy and the sweeper replace it by a new one; the
    sniper clones and clears it, and returns a new one where there is nothing.

    A strategy is behind a lock of its own, so two calls of `process_event` never overlap.
    `queue_action` also notes the uuid and starts the timer of its own agent.

    * `store_eq`: the cache is what the registrations made of it.
    * **`actions_returned_once`**: every action is returned by exactly one call, in the order of
      the pushes, and was registered before. -/

namespace FoxfireActionQueue

open FoxfireTypes FoxfireBuffer SharedVec MachineRun

-- ── The cache of all actions ────────────────────────────────────────────────

/-- `Arc<Mutex<SolanaAction>>`: which allocation, and what was put there. -/
structure ActionRef where
  address : Nat
  action  : SolanaAction
  deriving DecidableEq, Repr

/-- `all_system_actions` of the operational cache, and the allocations so far. -/
structure SystemActions where
  buffer    : CircularBuffer Uuid ActionRef
  allocated : Nat

namespace SystemActions

def new : SystemActions := ⟨.new cachedTxSignaturesBufferCapacity, 0⟩

def registerAction (c : SystemActions) (action : SolanaAction) : SystemActions × ActionRef :=
  let actionAm : ActionRef := ⟨c.allocated, action⟩
  (⟨c.buffer.insert action.uuid actionAm, c.allocated + 1⟩, actionAm)

def getActionByUuid (c : SystemActions) (uuid : Uuid) : Option ActionRef :=
  c.buffer.getByKey uuid

/-- A registered action is found by its uuid. -/
theorem getActionByUuid_registerAction (c : SystemActions) (action : SolanaAction) :
    (c.registerAction action).1.getActionByUuid action.uuid =
      some (c.registerAction action).2 :=
  Function.update_self ..

end SystemActions

/-- Every `Arc` is a new allocation. -/
def systemActions : Registry SystemActions SolanaAction ActionRef where
  register := SystemActions.registerAction
  serial := ActionRef.address
  next := SystemActions.allocated
  serial_register := fun _ _ => rfl
  next_register := fun _ _ => rfl

-- ── The strategies ──────────────────────────────────────────────────────────

inductive StrategyKind where
  | volume
  | sniper
  | sweeper
  deriving DecidableEq, Repr

/-- The end of `process_event`. -/
def StrategyKind.drain : StrategyKind → Drain
  | .volume  => .replace
  | .sniper  => .cloneAndClear
  | .sweeper => .replace

/-- `queue_action`, from `register_action` on: another agent may come in between. -/
def queueAction {τ : Type} (agent : τ) (action : SolanaAction) : List (Move τ SolanaAction) :=
  [.register agent action, .lock agent, .push agent, .unlock agent]

/-- The tasks of the agents, and `process_event` of the strategy. -/
abbrev Queue (τ : Type) := State τ SystemActions ActionRef × History ActionRef

variable {τ : Type} [DecidableEq τ]

/-- Any agents push while `process_event` is called again and again. -/
abbrev Steps (kind : StrategyKind) (t t' : Queue τ) : Prop :=
  Reach (tracked (step systemActions kind.drain) note) Always t t'

/-- The cache is what the registrations made of it, in their order. -/
theorem store_eq {kind : StrategyKind} {t : Queue τ} (h : Steps kind (begin .new) t) :
    t.1.store.buffer = CircularBuffer.execute cachedTxSignaturesBufferCapacity
      (t.2.registered.map fun item => .insert item.action.uuid item) := by
  refine h.invariant (I := fun t => t.1.store.buffer = CircularBuffer.execute _ (t.2.registered.map
    fun item => .insert item.action.uuid item)) rfl ?_
  rintro ⟨s, h⟩ m ⟨s', h'⟩ out hs - hstep
  obtain ⟨hmove, hnote⟩ := tracked_eq_some hstep
  obtain rfl : h' = out.foldl History.enter h := hnote
  have hs : s.store.buffer = CircularBuffer.execute _ (h.registered.map
    fun item => .insert item.action.uuid item) := hs
  cases stepped_of_step hmove with
  | @register p action hp =>
      show s.store.buffer.insert action.uuid ⟨s.store.allocated, action⟩ =
        CircularBuffer.execute _ ((h.registered ++ [ActionRef.mk s.store.allocated action]).map _)
      rw [List.map_append, CircularBuffer.execute, List.foldl_append, hs]
      rfl
  | lock hp hfree => exact hs
  | push hp => exact hs
  | unlock hp => exact hs
  | lockAll hidle hfree => exact hs
  | replace hlocked => exact hs
  | clone hlocked => exact hs
  | skip hlocked hempty => exact hs
  | clear hcloned => exact hs
  | unlockAll hdrained => exact hs

/-- Every action that was pushed so far is returned by exactly one call, as soon as a call
    that starts from here has returned. -/
def ReturnedOnce (kind : StrategyKind) (t : Queue τ) : Prop :=
  ∀ t', Steps kind t t' → t.1.consumer = .idle →
    t.2.returned.length < t'.2.returned.length →
    t.2.pushed <+: t'.2.returned.flatten ∧
      ∀ item ∈ t.2.pushed, ∃! i : Nat, ∃ batch, t'.2.returned[i]? = some batch ∧ item ∈ batch

/-- **EVERY ACTION IS RETURNED BY EXACTLY ONE CALL**, in the order of the pushes, and was in
    the cache before, whichever of the three strategies it is and however its agents and its
    calls come together. -/
theorem actions_returned_once {kind : StrategyKind} {t : Queue τ}
    (h : Steps kind (begin .new) t) :
    Delivered t ∧ ReturnedOnce kind t ∧
      t.1.store.buffer = CircularBuffer.execute cachedTxSignaturesBufferCapacity
        (t.2.registered.map fun item => .insert item.action.uuid item) := by
  refine ⟨delivered h, ?_, store_eq h⟩
  intro t' hreach hidle hcall
  exact ⟨pushed_returned (inv_of_reach (begin_inv systemActions .new) h) hidle hreach hcall,
    fun item hitem => returned_once h hidle hreach hcall hitem⟩

def anAction (n : Nat) : SolanaAction := .new ⟨BitVec.ofNat 128 n⟩ 0 ⟨⟨n⟩, 0⟩ []

/-- Two agents and two calls of a sniper: the second agent is at the lock when the first call
    has cloned the vector. -/
def twoAgents : List (Move Bool SolanaAction) :=
  queueAction true (anAction 1) ++
  [.lockAll, .clone, .register false (anAction 2), .clear, .unlockAll] ++
  (queueAction false (anAction 2)).tail ++ [.lockAll, .clone, .clear, .unlockAll]

theorem two_agents_two_calls :
    ∃ t : Queue Bool, Delivered t ∧
      t.2.returned = [[⟨0, anAction 1⟩], [⟨1, anAction 2⟩]] := by
  have hview : (run (tracked (step systemActions StrategyKind.sniper.drain) note)
      (begin .new) twoAgents).map (fun p => p.1.2.returned) =
    some [[⟨0, anAction 1⟩], [⟨1, anAction 2⟩]] := by decide
  obtain ⟨⟨t, out⟩, hrun, hreturned⟩ := Option.map_eq_some_iff.mp hview
  have hsteps : Steps .sniper (begin .new) t := reach_of_run (fun _ _ => trivial) hrun
  exact ⟨t, (actions_returned_once hsteps).1, hreturned⟩

end FoxfireActionQueue
