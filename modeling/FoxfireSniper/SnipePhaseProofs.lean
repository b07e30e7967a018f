import FoxfireSniper.SnipeRunProofs

/-! # The phases of a snipe

    A snipe goes from `waiting_to_buy` through `buying` and `waiting_to_sell` to `selling`
    and ends; the only transitions that do not move it forward are the retries of
    `buying` and `selling`.

    * **`handle_turns`** says which transitions there are, and what causes each.
    * **`living`** is the sniper with its past beside it: the transitions taken, the
      purchases queued, the receipts that confirmed one, and the last reading of the
      clock.
    * **`phases_in_order`**: a sale is queued only after a receipt has confirmed a
      purchase, the two waiting phases are left at most once and never re-entered, and
      with a monotonic clock the time noted last is never ahead of the time elapsed. -/

namespace FoxfireSnipe

open FoxfireTypes FoxfireAttempt MachineRun

-- ── Which state comes next ──────────────────────────────────────────────────

/-- The count that a waiting state passes to `conditional_transition`: `selling` passes
    one more than its own. -/
def State.charged : State → Nat
  | .buying _ r  => r
  | .selling _ r => r + 1
  | _            => 0

/-- The transitions of a snipe. -/
inductive Turns (m : Sniper) (i : Input) : State → Prop where
  | buys {amt : Amount} (hs : m.state = .waitingToBuy) : Turns m i (.buying amt 0)
  | skips (hs : m.state = .waitingToBuy) : Turns m i .done
  | retries {r : Nat} (hr : m.state.retry = some r)
      (hle : m.state.charged ≤ retriesIfErrorOrTimeout) : Turns m i m.state.retried
  /-- The error-free receipt of an action in progress ends the purchase. -/
  | bought {amt : Amount} {r : Nat} {receipt : ExecutionReceipt}
      (hs : m.state = .buying amt r) (hev : i.event = receiptEvent receipt)
      (herr : receipt.err = none) (hmem : receipt.actionUuid ∈ m.inProgress) :
      Turns m i .waitingToSell
  | sells {amt : Amount} (hs : m.state = .waitingToSell) : Turns m i (.selling amt 0)
  /-- Such a receipt also ends the sale. -/
  | sold {amt : Amount} {r : Nat} {receipt : ExecutionReceipt}
      (hs : m.state = .selling amt r) (hev : i.event = receiptEvent receipt)
      (herr : receipt.err = none) (hmem : receipt.actionUuid ∈ m.inProgress) :
      Turns m i .done
  | fails {r : Nat} {msg : ErrorMsg} (hr : m.state.retry = some r) : Turns m i (.error msg)

/-- What `buying` and `selling` do with an event. -/
theorem conditional_turns {m : Sniper} {i : Input} {r : Nat} {success target : State}
    (hr : m.state.retry = some r)
    (hsucc : ∀ receipt : ExecutionReceipt, i.event = receiptEvent receipt →
      receipt.err = none → receipt.actionUuid ∈ m.inProgress → Turns m i success)
    (h : ((m.ready i).conditionalTransition i m.state.retried success m.state.charged).2
      = .transition target) : Turns m i target := by
  obtain ⟨htr, -, -⟩ := ready_keeps m i
  have hcases := attemptTransition_cases i.now (m.ready i).tracker i.event m.state.retried
    success .error m.state.charged
  rw [SniperAgentState.conditionalTransition] at h
  dsimp only at h
  generalize (attemptTransition i.now (m.ready i).tracker i.event m.state.retried success
    .error m.state.charged).1 = t at hcases
  generalize (attemptTransition i.now (m.ready i).tracker i.event m.state.retried success
    .error m.state.charged).2 = resp at h hcases
  rw [htr] at hcases
  have hretry : ∀ msg, retryOrError m.state.charged m.state.retried .error msg
      = .transition target → Turns m i target := by
    intro msg h
    rw [retryOrError] at h
    split at h
    · next hle =>
        cases h
        exact .retries hr hle
    · cases h
      exact .fails hr
  cases hcases with
  | ignored _ => cases h
  | succeeded hev herr hmem =>
      cases h
      exact hsucc _ hev herr hmem
  | failed _ _ _ => exact hretry _ h
  | timedOut _ _ _ => exact hretry _ h

theorem dispatch_turns {m : Sniper} {i : Input} {target : State}
    (h : ((m.ready i).dispatch i m.state).2 = .transition target) : Turns m i target := by
  cases hs : m.state with
  | waitingToBuy =>
      rw [hs] at h
      have h' : (m.ready i).waitingToBuy i = .transition target := h
      rcases waitingToBuy_cases (m.ready i) i with heq | heq | heq
      · rw [heq] at h'
        cases h'
        exact .buys hs
      · rw [heq] at h'
        cases h'
        exact .skips hs
      · rw [heq] at h'
        cases h'
  | buying amt r =>
      have hd : ((m.ready i).conditionalTransition i m.state.retried .waitingToSell
          m.state.charged).2 = .transition target := by
        rw [hs] at h ⊢
        exact h
      exact conditional_turns (r := r) (by rw [hs]; rfl)
        (fun _ hev herr hmem => .bought hs hev herr hmem) hd
  | waitingToSell =>
      rw [hs] at h
      have h' : ((m.ready i).waitingToSell i).2 = .transition target := h
      rcases waitingToSell_cases (m.ready i) i with ⟨amt, heq⟩ | heq
      · rw [heq] at h'
        cases h'
        exact .sells hs
      · rw [heq] at h'
        cases h'
  | selling amt r =>
      have hd : ((m.ready i).conditionalTransition i m.state.retried .done
          m.state.charged).2 = .transition target := by
        rw [hs] at h ⊢
        exact h
      exact conditional_turns (r := r) (by rw [hs]; rfl)
        (fun _ hev herr hmem => .sold hs hev herr hmem) hd
  | done =>
      rw [hs] at h
      cases h
  | error msg =>
      rw [hs] at h
      cases h

/-- **INVERSION, FOR THE STATE ALONE**: a transition is taken, or the snipe stays where it
    is and outputs nothing. -/
theorem handle_turns {m m' : Sniper} {i : Input} {out : List Effect}
    (h : handle m i = some (m', out)) :
    (∃ target, ((m.ready i).dispatch i m.state).2 = .transition target ∧
      m'.state = target ∧ Turns m i target) ∨
    ((∀ target, ((m.ready i).dispatch i m.state).2 ≠ .transition target) ∧
      m'.state = m.state ∧ out = []) := by
  cases hd : (m.ready i).dispatch i m.state with
  | mk a resp =>
      cases resp with
      | transition target =>
          obtain ⟨hs, -⟩ := handle_transition hd h
          exact Or.inl ⟨target, rfl, hs, dispatch_turns (by rw [hd])⟩
      | super =>
          obtain ⟨rfl, rfl⟩ := handle_stay hd (Or.inl rfl) h
          exact Or.inr ⟨fun _ h => (by cases h), rfl, rfl⟩
      | handled =>
          obtain ⟨rfl, rfl⟩ := handle_stay hd (Or.inr rfl) h
          exact Or.inr ⟨fun _ h => (by cases h), rfl, rfl⟩

-- ── The past of a snipe ─────────────────────────────────────────────────────

def isBuying : State → Bool
  | .buying _ _ => true
  | _           => false

/-- The purchase that an event confirms: the one of an error-free receipt. -/
def confirms (buys : List SolanaAction) : SolanaStrategyEvent → List Uuid
  | .original (.blockchainEvent (.executionReceipt r)) =>
      if r.err.isNone && buys.any (fun a => a.uuid = r.actionUuid) then [r.actionUuid] else []
  | _ => []

/-- What has happened in a snipe so far. -/
structure Past where
  /-- The transitions taken, each with its source and its target. -/
  transitions : List (State × State)
  /-- The actions queued in `buying`. -/
  buys        : List SolanaAction
  /-- Those of them that an error-free receipt has confirmed. -/
  confirmed   : List Uuid
  /-- The last reading of the clock. -/
  clock       : Instant

def Past.note (p : Past) (m : Sniper) (i : Input) (m' : Sniper) (out : List Effect) : Past where
  transitions :=
    match ((m.ready i).dispatch i m.state).2 with
    | .transition target => p.transitions ++ [(m.state, target)]
    | _                  => p.transitions
  buys := if isBuying m'.state then p.buys ++ queuedActions out else p.buys
  confirmed := p.confirmed ++ confirms p.buys i.event
  clock := i.enteredAt

/-- The sniper together with its past. -/
abbrev living : Step (Sniper × Past) Input Effect :=
  tracked handle fun p m i m' out => p.note m i m' out

/-- A new snipe, with no past. -/
def freshLife (pool : RaydiumPool) (key : Keypair) (inst : SnipingStrategyInstance)
    (deployPrice : RaydiumPoolPriceUpdate) (now : Instant) : Sniper × Past :=
  (Sniper.new pool key inst deployPrice now, ⟨[], [], [], now⟩)

/-- How often a snipe has left a state, and entered it. -/
def Past.left (p : Past) (s : State) : Nat := p.transitions.countP fun e => e.1 = s

def Past.entered (p : Past) (s : State) : Nat := p.transitions.countP fun e => e.2 = s

/-- The waiting phases are gone through at most once, and the first is never entered
    again. -/
structure InOrder (p : Past) : Prop where
  leftBuying     : p.left .waitingToBuy ≤ 1
  enteredBuying  : p.entered .waitingToBuy = 0
  leftSelling    : p.left .waitingToSell ≤ 1
  enteredSelling : p.entered .waitingToSell ≤ 1

/-- The clock does not go back, and its seconds fit in the 64 bits of a `Duration`. -/
structure Clocked (t : Sniper × Past) (i : Input) : Prop where
  first : t.2.clock ≤ i.initAt
  then_ : i.initAt ≤ i.now
  last  : i.now ≤ i.enteredAt
  fits  : i.enteredAt / 1000 < 2 ^ 64

-- ── The phases go forward ───────────────────────────────────────────────────

/-- The phases in their order. -/
def State.rank : State → Nat
  | .waitingToBuy  => 0
  | .buying _ _    => 1
  | .waitingToSell => 2
  | .selling _ _   => 3
  | .done          => 4
  | .error _       => 4

theorem retried_rank (s : State) : s.retried.rank = s.rank := by
  cases s <;> rfl

theorem rank_of_retry {s : State} {r : Nat} (hr : s.retry = some r) : s.rank < 4 := by
  cases s with
  | buying amt r => exact (show 1 < 4 by omega)
  | selling amt r => exact (show 3 < 4 by omega)
  | waitingToBuy => cases hr
  | waitingToSell => cases hr
  | done => cases hr
  | error msg => cases hr

/-- **A TRANSITION LEADS TO A LATER PHASE**, or it is a retry. -/
theorem Turns.forward {m : Sniper} {i : Input} {target : State} (h : Turns m i target) :
    m.state.rank < target.rank ∨ (target = m.state.retried ∧ m.state.retry ≠ none) := by
  cases h with
  | buys hs => rw [hs]; exact Or.inl (show 0 < 1 by omega)
  | skips hs => rw [hs]; exact Or.inl (show 0 < 4 by omega)
  | retries hr _ => exact Or.inr ⟨rfl, by rw [hr]; exact fun h => (by cases h)⟩
  | bought hs _ _ _ => rw [hs]; exact Or.inl (show 1 < 2 by omega)
  | sells hs => rw [hs]; exact Or.inl (show 2 < 3 by omega)
  | sold hs _ _ _ => rw [hs]; exact Or.inl (show 3 < 4 by omega)
  | fails hr => exact Or.inl (rank_of_retry hr)

theorem Turns.rank_le {m : Sniper} {i : Input} {target : State} (h : Turns m i target) :
    m.state.rank ≤ target.rank := by
  rcases h.forward with hlt | ⟨rfl, -⟩
  · exact hlt.le
  · exact (retried_rank _).ge

/-- A state without a retry count is left for a later phase. -/
theorem Turns.leaves {m : Sniper} {i : Input} {target : State} (h : Turns m i target)
    (hs : m.state.retry = none) : m.state.rank < target.rank := by
  rcases h.forward with hlt | ⟨-, hr⟩
  · exact hlt
  · exact absurd hs hr

/-- It is entered from an earlier one. -/
theorem Turns.enters {m : Sniper} {i : Input} {target : State} (h : Turns m i target)
    (ht : target.retry = none) : m.state.rank < target.rank := by
  rcases h.forward with hlt | ⟨rfl, hr⟩
  · exact hlt
  · obtain ⟨r, hr⟩ := Option.ne_none_iff_exists'.mp hr
    rw [retried_retry hr] at ht
    cases ht

/-- How often a snipe in state `now` can have left and entered the phase `s`. -/
structure Once (s now : State) (p : Past) : Prop where
  left    : p.left s ≤ if s.rank < now.rank then 1 else 0
  entered : p.entered s ≤ if s.rank ≤ now.rank then 1 else 0

theorem once_transition {s target : State} {m : Sniper} {i : Input} {p q : Past}
    (hs : s.retry = none) (hI : Once s m.state p) (hturn : Turns m i target)
    (hq : q.transitions = p.transitions ++ [(m.state, target)]) : Once s target q := by
  have hle := hturn.rank_le
  have hleft : q.left s = p.left s + if m.state = s then 1 else 0 := by
    rw [Past.left, hq, List.countP_append, List.countP_singleton]
    simp only [Past.left, decide_eq_true_eq]
  have hentered : q.entered s = p.entered s + if target = s then 1 else 0 := by
    rw [Past.entered, hq, List.countP_append, List.countP_singleton]
    simp only [Past.entered, decide_eq_true_eq]
  have hold := hI.left
  have hin := hI.entered
  constructor
  · rw [hleft]
    by_cases hm : m.state = s
    · -- it is left for the first time, for good
      have hlt := hturn.leaves (by rw [hm]; exact hs)
      rw [hm] at hlt hold
      rw [if_neg (Nat.lt_irrefl _)] at hold
      rw [if_pos hm, if_pos hlt]
      omega
    · rw [if_neg hm]
      split at hold <;> split <;> omega
  · rw [hentered]
    by_cases ht : target = s
    · have hlt := hturn.enters (by rw [ht]; exact hs)
      rw [ht] at hlt
      rw [if_neg (Nat.not_le.mpr hlt)] at hin
      rw [if_pos ht, ht, if_pos (Nat.le_refl _)]
      omega
    · rw [if_neg ht]
      split at hin <;> split <;> omega

-- ── The invariant ───────────────────────────────────────────────────────────

/-- Where a snipe is and what it has done. -/
structure Lived (t : Sniper × Past) : Prop where
  buying    : Once .waitingToBuy t.1.state t.2
  selling   : Once .waitingToSell t.1.state t.2
  never     : t.2.entered .waitingToBuy = 0
  fresh     : t.1.state = .waitingToBuy → t.1.inProgress = []
  listens   : isBuying t.1.state = true → ∀ u ∈ t.1.inProgress, ∃ a ∈ t.2.buys, a.uuid = u
  confirmed : t.1.state = .waitingToSell ∨ isSelling t.1.state = true → t.2.confirmed ≠ []

theorem Lived.inOrder {t : Sniper × Past} (h : Lived t) : InOrder t.2 := by
  refine ⟨h.buying.left.trans ?_, h.never, h.selling.left.trans ?_,
    h.selling.entered.trans ?_⟩
  all_goals split <;> omega

theorem isBuying_retried (s : State) : isBuying s.retried = isBuying s := by
  cases s <;> rfl

theorem retry_of_isBuying {s : State} (h : isBuying s = true) : ∃ r, s.retry = some r := by
  cases s with
  | buying amt r => exact ⟨r, rfl⟩
  | waitingToBuy => cases h
  | waitingToSell => cases h
  | selling amt r => cases h
  | done => cases h
  | error msg => cases h

/-- An action queued on entering `buying` is no sale. -/
theorem Queues.not_sale {i : Input} {m' : Sniper} {out : List Effect} {op : List Uuid}
    {action : SolanaAction} (hq : Queues i m' out op action) (hbuy : isBuying m'.state = true) :
    ¬ IsSale action := by
  rintro ⟨keys, amt, hsale⟩
  have hpay := hq.payload
  rw [hsale] at hpay
  cases hs : m'.state with
  | buying amt' r => rw [hs] at hpay; cases hpay
  | waitingToBuy => rw [hs] at hbuy; cases hbuy
  | waitingToSell => rw [hs] at hbuy; cases hbuy
  | selling _ _ => rw [hs] at hbuy; cases hbuy
  | done => rw [hs] at hbuy; cases hbuy
  | error _ => rw [hs] at hbuy; cases hbuy

/-- The error-free receipt of a purchase confirms it. -/
theorem confirms_of_mem {buys : List SolanaAction} {event : SolanaStrategyEvent}
    {r : ExecutionReceipt} (hev : event = receiptEvent r) (herr : r.err = none)
    (hmem : ∃ a ∈ buys, a.uuid = r.actionUuid) : confirms buys event ≠ [] := by
  obtain ⟨a, ha, huuid⟩ := hmem
  have hany : buys.any (fun a => a.uuid = r.actionUuid) = true :=
    List.any_eq_true.mpr ⟨a, ha, decide_eq_true huuid⟩
  rw [hev, confirms, herr, hany]
  exact List.cons_ne_nil _ _

/-- The past after a transition, and after none. -/
theorem note_transition {p : Past} {m m' : Sniper} {i : Input} {out : List Effect}
    {target : State} (hd : ((m.ready i).dispatch i m.state).2 = .transition target) :
    (p.note m i m' out).transitions = p.transitions ++ [(m.state, target)] := by
  rw [Past.note, hd]

theorem note_stay {p : Past} {m m' : Sniper} {i : Input} {out : List Effect}
    (hd : ∀ target, ((m.ready i).dispatch i m.state).2 ≠ .transition target) :
    (p.note m i m' out).transitions = p.transitions := by
  rw [Past.note]
  dsimp only
  split
  · next target h => exact absurd h (hd target)
  · rfl

/-- The transitions of a step. -/
theorem phases_step {t : Sniper × Past} {i : Input} {m' : Sniper} {out : List Effect}
    (hI : Lived t) (h : handle t.1 i = some (m', out)) :
    Once .waitingToBuy m'.state (t.2.note t.1 i m' out) ∧
    Once .waitingToSell m'.state (t.2.note t.1 i m' out) ∧
    (t.2.note t.1 i m' out).entered .waitingToBuy = 0 := by
  rcases handle_turns h with ⟨target, hd, rfl, hturn⟩ | ⟨hd, hs, -⟩
  · have hq : (t.2.note t.1 i m' out).transitions =
        t.2.transitions ++ [(t.1.state, m'.state)] := note_transition hd
    refine ⟨once_transition rfl hI.buying hturn hq, once_transition rfl hI.selling hturn hq, ?_⟩
    rw [Past.entered, hq, List.countP_append, List.countP_singleton]
    have hne : m'.state ≠ .waitingToBuy := by
      intro ht
      have hlt := hturn.enters (by rw [ht]; rfl)
      rw [ht] at hlt
      exact Nat.not_lt_zero _ hlt
    have hnever := hI.never
    rw [Past.entered] at hnever
    rw [hnever, if_neg (by simpa using hne)]
  · have hq : (t.2.note t.1 i m' out).transitions = t.2.transitions := note_stay hd
    simp only [Past.entered, hs, hq]
    refine ⟨⟨?_, ?_⟩, ⟨?_, ?_⟩, hI.never⟩
    · rw [Past.left, hq]; exact hI.buying.left
    · rw [Past.entered, hq]; exact hI.buying.entered
    · rw [Past.left, hq]; exact hI.selling.left
    · rw [Past.entered, hq]; exact hI.selling.entered

/-- A step that queues an action on top of `op`, whose purchases are known. -/
theorem purchases_queued {t : Sniper × Past} {i : Input} {m' : Sniper} {out : List Effect}
    {op : List Uuid} {action : SolanaAction} (hq : Queues i m' out op action)
    (hr : m'.state.retry ≠ none)
    (hop : isBuying m'.state = true → ∀ u ∈ op, ∃ a ∈ t.2.buys, a.uuid = u) :
    (m'.state = .waitingToBuy → m'.inProgress = []) ∧
    (isBuying m'.state = true →
      ∀ u ∈ m'.inProgress, ∃ a ∈ (t.2.note t.1 i m' out).buys, a.uuid = u) := by
  refine ⟨fun hs => absurd (by rw [hs]; rfl) hr, ?_⟩
  intro hbuy u hu
  rw [Past.note]
  simp only [if_pos hbuy, hq.out]
  rw [hq.inProgress] at hu
  rcases List.mem_append.mp hu with hold | hnew
  · obtain ⟨a, ha, huuid⟩ := hop hbuy u hold
    exact ⟨a, List.mem_append_left _ ha, huuid⟩
  · rw [List.mem_singleton.mp hnew]
    exact ⟨action, List.mem_append_right _ (List.mem_singleton_self _), hq.uuid⟩

/-- What a step queues and listens to. -/
theorem purchases_step {t : Sniper × Past} {i : Input} {m' : Sniper} {out : List Effect}
    (hI : Lived t) (h : handle t.1 i = some (m', out)) :
    (m'.state = .waitingToBuy → m'.inProgress = []) ∧
    (isBuying m'.state = true →
      ∀ u ∈ m'.inProgress, ∃ a ∈ (t.2.note t.1 i m' out).buys, a.uuid = u) := by
  have hretried : ∀ {r}, t.1.state.retry = some r → m'.state = t.1.state.retried →
      m'.state.retry ≠ none := by
    intro r hr hs
    rw [hs, retried_retry hr]
    exact fun h => by cases h
  cases handle_cases h with
  | quiet hstate hsub hout =>
      rcases hstate with hs | ⟨hr, hne⟩
      · refine ⟨?_, ?_⟩
        · intro hwait
          refine List.eq_nil_iff_forall_not_mem.mpr ?_
          intro u hu
          have hold := hsub u hu
          rw [hI.fresh (hs.symm.trans hwait)] at hold
          cases hold
        · intro hbuy u hu
          rw [Past.note]
          simp only [if_pos hbuy, hout, List.append_nil]
          exact hI.listens (by rw [← hs]; exact hbuy) u (hsub u hu)
      · refine ⟨fun hwait => absurd hwait hne, ?_⟩
        intro hbuy
        obtain ⟨r, hr'⟩ := retry_of_isBuying hbuy
        rw [hr] at hr'
        cases hr'
  | bought hfrom hstate hq =>
      refine purchases_queued hq (by rw [hstate]; exact fun h => (by cases h)) ?_
      intro _ u hu
      rw [hI.fresh hfrom] at hu
      cases hu
  | sold hfrom hstate hq =>
      refine purchases_queued hq (by rw [hstate]; exact fun h => (by cases h)) ?_
      intro hbuy
      rw [hstate] at hbuy
      cases hbuy
  | retriedFailed hr hstate _ _ hq =>
      refine purchases_queued hq (hretried hr hstate) ?_
      intro hbuy u hu
      rw [hstate, isBuying_retried] at hbuy
      exact hI.listens hbuy u (List.mem_filter.mp hu).1
  | retriedTimeout hr hstate _ hq =>
      refine purchases_queued hq (hretried hr hstate) ?_
      intro hbuy u hu
      rw [hstate, isBuying_retried] at hbuy
      exact hI.listens hbuy u hu

/-- After the purchase a receipt has confirmed it. -/
theorem confirmed_step {t : Sniper × Past} {i : Input} {m' : Sniper} {out : List Effect}
    (hI : Lived t) (h : handle t.1 i = some (m', out))
    (hs : m'.state = .waitingToSell ∨ isSelling m'.state = true) :
    (t.2.note t.1 i m' out).confirmed ≠ [] := by
  have hold : t.2.confirmed ≠ [] → (t.2.note t.1 i m' out).confirmed ≠ [] :=
    fun hne => List.append_ne_nil_of_left_ne_nil hne _
  rcases handle_turns h with ⟨target, -, rfl, hturn⟩ | ⟨-, hstate, -⟩
  · generalize m'.state = target at hs hturn
    cases hturn with
    | bought hfrom hev herr hmem =>
        refine List.append_ne_nil_of_right_ne_nil _ (confirms_of_mem hev herr ?_)
        exact hI.listens (by rw [hfrom]; rfl) _ hmem
    | sells hfrom => exact hold (hI.confirmed (Or.inl hfrom))
    | retries hr _ =>
        rcases hs with hs | hs
        · have hr' := retried_retry hr
          rw [hs] at hr'
          cases hr'
        · rw [isSelling_retried] at hs
          exact hold (hI.confirmed (Or.inr hs))
    | buys _ => rcases hs with hs | hs <;> cases hs
    | skips _ => rcases hs with hs | hs <;> cases hs
    | sold _ _ _ _ => rcases hs with hs | hs <;> cases hs
    | fails _ => rcases hs with hs | hs <;> cases hs
  · rw [hstate] at hs
    exact hold (hI.confirmed hs)

theorem lived_step {t t' : Sniper × Past} {i : Input} {out : List Effect} (hI : Lived t)
    (h : living t i = some (t', out)) : Lived t' := by
  obtain ⟨hstep, hnote⟩ := tracked_eq_some h
  have ht' : t' = (t'.1, t.2.note t.1 i t'.1 out) := Prod.ext rfl hnote
  rw [ht']
  obtain ⟨hbuying, hselling, hnever⟩ := phases_step hI hstep
  obtain ⟨hfresh, hlistens⟩ := purchases_step hI hstep
  exact ⟨hbuying, hselling, hnever, hfresh, hlistens, confirmed_step hI hstep⟩

variable {pool : RaydiumPool} {key : Keypair} {inst : SnipingStrategyInstance}
  {deployPrice : RaydiumPoolPriceUpdate} {now : Instant} {t : Sniper × Past}

theorem lived_reach (h : Reach living Always (freshLife pool key inst deployPrice now) t) :
    Lived t := by
  refine h.invariant ?_ (fun s i s' out hI _ hs => lived_step hI hs)
  refine ⟨⟨?_, ?_⟩, ⟨?_, ?_⟩, rfl, fun _ => rfl, ?_, ?_⟩
  · exact Nat.zero_le _
  · exact Nat.zero_le _
  · exact Nat.zero_le _
  · exact Nat.zero_le _
  · intro hbuy
    cases hbuy
  · rintro (hs | hs) <;> cases hs

/-- **NO SALE BEFORE A CONFIRMED PURCHASE.** -/
theorem sale_after_purchase {i : Input} {m' : Sniper} {out : List Effect} (hI : Lived t)
    (h : handle t.1 i = some (m', out)) {action : SolanaAction}
    (ha : action ∈ queuedActions out) (hsale : IsSale action) : t.2.confirmed ≠ [] := by
  have hone : ∀ {op a}, Queues i m' out op a → action = a := by
    intro op a hq
    rw [hq.out] at ha
    exact List.mem_singleton.mp ha
  -- a retry sells only if the state before it did
  have hretry : ∀ {op a r}, t.1.state.retry = some r → m'.state = t.1.state.retried →
      Queues i m' out op a → t.2.confirmed ≠ [] := by
    intro op a r hr hs hq
    obtain rfl := hone hq
    by_cases hbuy : isBuying m'.state = true
    · exact absurd hsale (hq.not_sale hbuy)
    · refine hI.confirmed (Or.inr ?_)
      rw [hs, isBuying_retried] at hbuy
      cases hstate : t.1.state with
      | selling amt n => rfl
      | buying amt n => rw [hstate] at hbuy; exact absurd rfl hbuy
      | waitingToBuy => rw [hstate] at hr; cases hr
      | waitingToSell => rw [hstate] at hr; cases hr
      | done => rw [hstate] at hr; cases hr
      | error msg => rw [hstate] at hr; cases hr
  cases handle_cases h with
  | quiet _ _ hout =>
      rw [hout] at ha
      cases ha
  | bought _ hstate hq =>
      obtain rfl := hone hq
      exact absurd hsale (hq.not_sale (by rw [hstate]; rfl))
  | sold hfrom _ _ => exact hI.confirmed (Or.inl hfrom)
  | retriedFailed hr hs _ _ hq => exact hretry hr hs hq
  | retriedTimeout hr hs _ hq => exact hretry hr hs hq

-- ── The time noted last ─────────────────────────────────────────────────────

/-- `last_time` is set in `waiting_to_sell` only, and not ahead of the clock. -/
structure Timed (t : Sniper × Past) : Prop where
  unset : t.1.state.rank < 2 → t.1.storage.lastTime = 0
  noted : t.1.state = .waitingToSell →
    t.1.storage.lastTime.toNat ≤ (t.2.clock - t.1.storage.whenBoughtTimer) / 1000

/-- Before `waiting_to_sell`, no handler touches the two timers. -/
theorem dispatch_lastTime {a : SniperAgentState} {i : Input} {s : State}
    (hs : s ≠ .waitingToSell) : (a.dispatch i s).1.lastTime = a.lastTime := by
  cases s with
  | waitingToSell => exact absurd rfl hs
  | waitingToBuy => rfl
  | buying amt r => rfl
  | selling amt r => rfl
  | done => rfl
  | error msg => rfl

theorem enter_lastTime {a a' : SniperAgentState} {i : Input} {s : State} {out : List Effect}
    (h : a.enter i s = some (a', out)) : a'.lastTime = a.lastTime := by
  obtain ⟨tracker, delay, bought, price, rfl⟩ := enter_frame h
  rfl

theorem ready_lastTime (m : Sniper) (i : Input) :
    (m.ready i).lastTime = m.storage.lastTime ∧
      (m.ready i).whenBoughtTimer = m.storage.whenBoughtTimer := by
  obtain ⟨t, ht⟩ := ready_eq m i
  rw [ht]
  exact ⟨rfl, rfl⟩

/-- A step that ends before `waiting_to_sell`, or enters it, leaves `last_time` alone. -/
theorem handle_lastTime {m m' : Sniper} {i : Input} {out : List Effect}
    (hs : m.state ≠ .waitingToSell) (h : handle m i = some (m', out)) :
    m'.storage.lastTime = m.storage.lastTime := by
  have hkeep := (dispatch_lastTime (a := m.ready i) (i := i) hs).trans (ready_lastTime m i).1
  cases hd : (m.ready i).dispatch i m.state with
  | mk a resp =>
      rw [hd] at hkeep
      cases resp with
      | transition target =>
          obtain ⟨-, he⟩ := handle_transition hd h
          exact (enter_lastTime he).trans hkeep
      | super =>
          obtain ⟨rfl, -⟩ := handle_stay hd (Or.inl rfl) h
          exact hkeep
      | handled =>
          obtain ⟨rfl, -⟩ := handle_stay hd (Or.inr rfl) h
          exact hkeep

/-- A snipe that goes on waiting to sell has only noted the time. -/
theorem handle_waitingToSell {m m' : Sniper} {i : Input} {out : List Effect}
    (hs : m.state = .waitingToSell) (hs' : m'.state = .waitingToSell)
    (h : handle m i = some (m', out)) : m'.storage = (m.ready i).noteTime i := by
  have hd := dispatch_waitingToSell i hs
  rcases waitingToSell_cases (m.ready i) i with ⟨amt, heq⟩ | heq
  · rw [heq] at hd
    obtain ⟨hstate, -⟩ := handle_transition hd h
    rw [hs'] at hstate
    cases hstate
  · rw [heq] at hd
    obtain ⟨rfl, -⟩ := handle_stay hd (Or.inl rfl) h
    rfl

theorem noteTime_whenBought (a : SniperAgentState) (i : Input) :
    (a.noteTime i).whenBoughtTimer = a.whenBoughtTimer := by
  obtain ⟨t, ht⟩ := noteTime_eq a i
  rw [ht]

theorem noteTime_le {a : SniperAgentState} {i : Input} {clock : Instant}
    (hI : a.lastTime.toNat ≤ (clock - a.whenBoughtTimer) / 1000) (hle : clock ≤ i.now) :
    (a.noteTime i).lastTime.toNat ≤ a.secondsHeld i := by
  simp only [SniperAgentState.noteTime]
  split
  · show (UInt64.ofNat (a.secondsHeld i)).toNat ≤ a.secondsHeld i
    rw [UInt64.toNat_ofNat']
    exact Nat.mod_le _ _
  · refine hI.trans (Nat.div_le_div_right ?_)
    exact Nat.sub_le_sub_right hle _

theorem timed_step {t t' : Sniper × Past} {i : Input} {out : List Effect} (hI : Timed t)
    (hC : Clocked t i) (h : living t i = some (t', out)) : Timed t' := by
  obtain ⟨hstep, hnote⟩ := tracked_eq_some h
  have hclock : t'.2.clock = i.enteredAt := by
    rw [hnote]
    rfl
  have hrank : t.1.state.rank ≤ t'.1.state.rank := by
    rcases handle_turns hstep with ⟨target, -, hs, hturn⟩ | ⟨-, hs, -⟩
    · rw [hs]
      exact hturn.rank_le
    · rw [hs]
  constructor
  · intro hlt
    have hlt₀ : t.1.state.rank < 2 := Nat.lt_of_le_of_lt hrank hlt
    have hne : t.1.state ≠ .waitingToSell := by
      intro hs
      rw [hs] at hlt₀
      exact Nat.lt_irrefl _ hlt₀
    rw [handle_lastTime hne hstep]
    exact hI.unset hlt₀
  · intro hs'
    by_cases hs : t.1.state = .waitingToSell
    · obtain ⟨hlast, hbought⟩ := ready_lastTime t.1 i
      have hold := hI.noted hs
      rw [← hlast, ← hbought] at hold
      have hnoted := noteTime_le hold (hC.first.trans hC.then_)
      rw [handle_waitingToSell hs hs' hstep, noteTime_whenBought, hclock]
      refine hnoted.trans (Nat.div_le_div_right ?_)
      exact Nat.sub_le_sub_right hC.last _
    · -- the phase was just entered: nothing has been noted
      have hlt : t.1.state.rank < 2 := by
        rcases handle_turns hstep with ⟨target, -, hst, hturn⟩ | ⟨-, hst, -⟩
        · rw [hst] at hs'
          rw [hs'] at hturn
          exact hturn.enters rfl
        · rw [hst] at hs'
          exact absurd hs' hs
      rw [handle_lastTime hs hstep, hI.unset hlt]
      exact Nat.zero_le _

theorem timed_reach (h : Reach living Clocked (freshLife pool key inst deployPrice now) t) :
    Timed t := by
  refine h.invariant ?_ (fun s i s' out hI hC hs => timed_step hI hC hs)
  refine ⟨fun _ => rfl, ?_⟩
  intro hs
  cases hs

/-- **THE PHASES OF A SNIPE.**  Whatever the events and the answers are: a sale is queued
    only after a receipt has confirmed a purchase, and the waiting phases are gone through
    once.  If the clock never goes back, `elapsed - last_time` does not underflow. -/
theorem phases_in_order (pool : RaydiumPool) (key : Keypair) (inst : SnipingStrategyInstance)
    (deployPrice : RaydiumPoolPriceUpdate) (now : Instant) :
    (∀ t, Reach living Always (freshLife pool key inst deployPrice now) t →
      InOrder t.2 ∧ ∀ i t' out, living t i = some (t', out) →
        ∀ action ∈ queuedActions out, IsSale action → t.2.confirmed ≠ []) ∧
    (∀ t i, Reach living Clocked (freshLife pool key inst deployPrice now) t → Clocked t i →
      t.1.state = .waitingToSell →
        (t.1.ready i).lastTime ≤ UInt64.ofNat ((t.1.ready i).secondsHeld i)) := by
  refine ⟨?_, ?_⟩
  · intro t hreach
    have hI := lived_reach hreach
    refine ⟨hI.inOrder, ?_⟩
    intro i t' out hs action ha hsale
    obtain ⟨hstep, -⟩ := tracked_eq_some hs
    exact sale_after_purchase hI hstep ha hsale
  · intro t i hreach hC hs
    obtain ⟨hlast, hbought⟩ := ready_lastTime t.1 i
    have hnoted := (timed_reach hreach).noted hs
    have hnow : t.2.clock ≤ i.now := hC.first.trans hC.then_
    have hheld : (t.1.ready i).secondsHeld i < 2 ^ 64 := by
      refine Nat.lt_of_le_of_lt (Nat.div_le_div_right ?_) hC.fits
      exact (Nat.sub_le _ _).trans hC.last
    rw [UInt64.le_iff_toNat_le, UInt64.toNat_ofNat', Nat.mod_eq_of_lt hheld, hlast]
    refine hnoted.trans (Nat.div_le_div_right ?_)
    rw [hbought]
    exact Nat.sub_le_sub_right hnow _

/-- A snipe of one SOL that buys at once and sells after a minute, with its past. -/
def minuteLife : Sniper × Past :=
  freshLife default ⟨⟨1⟩, 1⟩ ⟨1, 1, 2, 60, 0, 50⟩ default 0

/-- Bought after ten milliseconds, the time noted after five seconds, sold after seventy. -/
theorem minuteLife_in_order :
    ∃ t t' out, Reach living Clocked minuteLife t ∧
      living t (beatAt 70000 ⟨2⟩) = some (t', out) ∧ t'.1.state = .selling .maxAndClose 0 ∧
      InOrder t.2 ∧ t.2.confirmed ≠ [] ∧ t.1.storage.lastTime = 4 ∧
      (t.1.ready (beatAt 70000 ⟨2⟩)).lastTime
        ≤ UInt64.ofNat ((t.1.ready (beatAt 70000 ⟨2⟩)).secondsHeld (beatAt 70000 ⟨2⟩)) := by
  obtain ⟨horder, htime⟩ := phases_in_order default ⟨⟨1⟩, 1⟩ ⟨1, 1, 2, 60, 0, 50⟩ default 0
  have hbuy : Reach living Clocked minuteLife _ :=
    .next .init ⟨by decide, by decide, by decide, by decide⟩ (i := beatAt 0 ⟨1⟩) rfl
  have hbought : Reach living Clocked minuteLife _ :=
    .next hbuy ⟨by decide, by decide, by decide, by decide⟩ (i := receiptAt 10 ⟨1⟩) rfl
  have hnoted : Reach living Clocked minuteLife _ :=
    .next hbought ⟨by decide, by decide, by decide, by decide⟩ (i := beatAt 5000 ⟨2⟩) rfl
  obtain ⟨hI, hsale⟩ := horder _ (hnoted.mono fun _ _ _ => trivial)
  exact ⟨_, _, _, hnoted, rfl, rfl, hI, hsale (beatAt 70000 ⟨2⟩) _ _ rfl _
    (List.mem_singleton_self _) ⟨_, _, rfl⟩, rfl,
    htime _ _ hnoted ⟨by decide, by decide, by decide, by decide⟩ rfl⟩

end FoxfireSnipe
