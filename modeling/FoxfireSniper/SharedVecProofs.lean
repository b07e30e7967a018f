import Mathlib.Data.List.Nodup
import Mathlib.Logic.Function.Basic
import FoxfireSniper.MachineRunProofs

/-! # A vector that many fill and one empties

    Any number of producers push items into a vector behind a lock, and one consumer takes
    all that is there.  A producer registers its item first, in a registry that gives every
    item another serial number.  Each step of either side is a step of its own, so a producer
    can be anywhere while the consumer works.

    The consumer puts an empty vector in the place of the full one, or it clones the vector
    and clears it.  In between, only the lock keeps a producer from pushing an item that would
    be cleared without having been cloned.

    * `stepped_of_step`: what each step needs and does.
    * `step_kept`: ONE STEP KEEPS THE BOOKS.
    * **`delivered`**: what was pushed has been returned in order, is in the consumer's hands,
      or waits; nothing is returned twice, or before it was registered.
    * **`returned_once`**: a call that starts after an item was pushed returns it, if no earlier
      call has. -/

namespace SharedVec

open MachineRun

variable {τ σ β α : Type}

-- ── Producers and the consumer ──────────────────────────────────────────────

/-- Where items come from: each is given the next serial number. -/
structure Registry (σ β α : Type) where
  register        : σ → β → σ × α
  serial          : α → Nat
  next            : σ → Nat
  serial_register : ∀ s b, serial (register s b).2 = next s
  next_register   : ∀ s b, next (register s b).1 = next s + 1

/-- Where a producer is. -/
inductive Producer (α : Type) where
  | idle
  | registered (item : α)
  | locked (item : α)
  /-- It still has the lock. -/
  | pushed
  deriving DecidableEq

/-- Where the consumer is; it has the lock except when it is idle. -/
inductive Consumer (α : Type) where
  | idle
  | locked
  | cloned (batch : List α)
  | drained (batch : List α)
  deriving DecidableEq

inductive Owner (τ : Type) where
  | producer (p : τ)
  | consumer
  deriving DecidableEq

/-- How the consumer empties the vector. -/
inductive Drain where
  | replace
  | cloneAndClear
  deriving DecidableEq

structure State (τ σ α : Type) where
  store    : σ
  vec      : List α
  owner    : Option (Owner τ)
  producer : τ → Producer α
  consumer : Consumer α

inductive Move (τ β : Type) where
  | register (p : τ) (b : β)
  | lock (p : τ)
  | push (p : τ)
  | unlock (p : τ)
  /-- A call takes the lock. -/
  | lockAll
  | replace
  | clone
  | clear
  /-- The call returns. -/
  | unlockAll

inductive Event (α : Type) where
  | registered (item : α)
  | pushed (item : α)
  | returned (batch : List α)

variable [DecidableEq τ]

def step (r : Registry σ β α) (way : Drain) : Step (State τ σ α) (Move τ β) (Event α)
  | s, .register p b =>
      match s.producer p with
      | .idle =>
          let (store, item) := r.register s.store b
          some ({ s with
            store := store
            producer := Function.update s.producer p (.registered item) }, [.registered item])
      | _     => none
  | s, .lock p =>
      match s.producer p, s.owner with
      | .registered item, none => some ({ s with
          owner := some (.producer p)
          producer := Function.update s.producer p (.locked item) }, [])
      | _, _                   => none
  | s, .push p =>
      match s.producer p with
      | .locked item => some ({ s with
          vec := s.vec ++ [item]
          producer := Function.update s.producer p .pushed }, [.pushed item])
      | _            => none
  | s, .unlock p =>
      match s.producer p with
      | .pushed => some ({ s with
          owner := none
          producer := Function.update s.producer p .idle }, [])
      | _       => none
  | s, .lockAll =>
      match s.consumer, s.owner with
      | .idle, none => some ({ s with owner := some .consumer, consumer := .locked }, [])
      | _, _        => none
  | s, .replace =>
      match way, s.consumer with
      | .replace, .locked => some ({ s with vec := [], consumer := .drained s.vec }, [])
      | _, _              => none
  | s, .clone =>
      match way, s.consumer with
      | .cloneAndClear, .locked =>
          if 0 < s.vec.length then some ({ s with consumer := .cloned s.vec }, [])
          else some ({ s with consumer := .drained [] }, [])
      | _, _                    => none
  | s, .clear =>
      match s.consumer with
      | .cloned batch => some ({ s with vec := [], consumer := .drained batch }, [])
      | _             => none
  | s, .unlockAll =>
      match s.consumer with
      | .drained batch => some ({ s with owner := none, consumer := .idle }, [.returned batch])
      | _              => none

/-- What each step needs and does. -/
inductive Stepped (r : Registry σ β α) (s : State τ σ α) : State τ σ α → List (Event α) → Prop
  | register {p : τ} {b : β} (hp : s.producer p = .idle) :
      Stepped r s { s with
          store := (r.register s.store b).1
          producer := Function.update s.producer p (.registered (r.register s.store b).2) }
        [.registered (r.register s.store b).2]
  | lock {p : τ} {item : α} (hp : s.producer p = .registered item) (hfree : s.owner = none) :
      Stepped r s { s with
        owner := some (.producer p)
        producer := Function.update s.producer p (.locked item) } []
  | push {p : τ} {item : α} (hp : s.producer p = .locked item) :
      Stepped r s { s with
        vec := s.vec ++ [item]
        producer := Function.update s.producer p .pushed } [.pushed item]
  | unlock {p : τ} (hp : s.producer p = .pushed) :
      Stepped r s { s with
        owner := none
        producer := Function.update s.producer p .idle } []
  | lockAll (hidle : s.consumer = .idle) (hfree : s.owner = none) :
      Stepped r s { s with owner := some .consumer, consumer := .locked } []
  | replace (hlocked : s.consumer = .locked) :
      Stepped r s { s with vec := [], consumer := .drained s.vec } []
  | clone (hlocked : s.consumer = .locked) :
      Stepped r s { s with consumer := .cloned s.vec } []
  | skip (hlocked : s.consumer = .locked) (hempty : s.vec = []) :
      Stepped r s { s with consumer := .drained [] } []
  | clear {batch : List α} (hcloned : s.consumer = .cloned batch) :
      Stepped r s { s with vec := [], consumer := .drained batch } []
  | unlockAll {batch : List α} (hdrained : s.consumer = .drained batch) :
      Stepped r s { s with owner := none, consumer := .idle } [.returned batch]

theorem stepped_of_step {r : Registry σ β α} {way : Drain} {s s' : State τ σ α}
    {m : Move τ β} {out : List (Event α)} (h : step r way s m = some (s', out)) :
    Stepped r s s' out := by
  cases m with
  | register p b =>
      cases hp : s.producer p with
      | idle =>
          simp only [step, hp, Option.some.injEq, Prod.mk.injEq] at h
          obtain ⟨rfl, rfl⟩ := h
          exact .register hp
      | registered _ => simp [step, hp] at h
      | locked _ => simp [step, hp] at h
      | pushed => simp [step, hp] at h
  | lock p =>
      cases hp : s.producer p with
      | idle => simp [step, hp] at h
      | registered item =>
          cases hfree : s.owner with
          | none =>
              simp only [step, hp, hfree, Option.some.injEq, Prod.mk.injEq] at h
              obtain ⟨rfl, rfl⟩ := h
              exact .lock hp hfree
          | some _ => simp [step, hp, hfree] at h
      | locked _ => simp [step, hp] at h
      | pushed => simp [step, hp] at h
  | push p =>
      cases hp : s.producer p with
      | idle => simp [step, hp] at h
      | registered _ => simp [step, hp] at h
      | locked item =>
          simp only [step, hp, Option.some.injEq, Prod.mk.injEq] at h
          obtain ⟨rfl, rfl⟩ := h
          exact .push hp
      | pushed => simp [step, hp] at h
  | unlock p =>
      cases hp : s.producer p with
      | idle => simp [step, hp] at h
      | registered _ => simp [step, hp] at h
      | locked _ => simp [step, hp] at h
      | pushed =>
          simp only [step, hp, Option.some.injEq, Prod.mk.injEq] at h
          obtain ⟨rfl, rfl⟩ := h
          exact .unlock hp
  | lockAll =>
      cases hidle : s.consumer with
      | idle =>
          cases hfree : s.owner with
          | none =>
              simp only [step, hidle, hfree, Option.some.injEq, Prod.mk.injEq] at h
              obtain ⟨rfl, rfl⟩ := h
              exact .lockAll hidle hfree
          | some _ => simp [step, hidle, hfree] at h
      | locked => simp [step, hidle] at h
      | cloned _ => simp [step, hidle] at h
      | drained _ => simp [step, hidle] at h
  | replace =>
      cases way with
      | replace =>
          cases hlocked : s.consumer with
          | locked =>
              simp only [step, hlocked, Option.some.injEq, Prod.mk.injEq] at h
              obtain ⟨rfl, rfl⟩ := h
              exact .replace hlocked
          | idle => simp [step, hlocked] at h
          | cloned _ => simp [step, hlocked] at h
          | drained _ => simp [step, hlocked] at h
      | cloneAndClear => simp [step] at h
  | clone =>
      cases way with
      | replace => simp [step] at h
      | cloneAndClear =>
          cases hlocked : s.consumer with
          | locked =>
              by_cases hlen : 0 < s.vec.length
              · simp only [step, hlocked, if_pos hlen, Option.some.injEq, Prod.mk.injEq] at h
                obtain ⟨rfl, rfl⟩ := h
                exact .clone hlocked
              · simp only [step, hlocked, if_neg hlen, Option.some.injEq, Prod.mk.injEq] at h
                obtain ⟨rfl, rfl⟩ := h
                exact .skip hlocked (List.length_eq_zero_iff.mp (Nat.eq_zero_of_not_pos hlen))
          | idle => simp [step, hlocked] at h
          | cloned _ => simp [step, hlocked] at h
          | drained _ => simp [step, hlocked] at h
  | clear =>
      cases hcloned : s.consumer with
      | cloned batch =>
          simp only [step, hcloned, Option.some.injEq, Prod.mk.injEq] at h
          obtain ⟨rfl, rfl⟩ := h
          exact .clear hcloned
      | idle => simp [step, hcloned] at h
      | locked => simp [step, hcloned] at h
      | drained _ => simp [step, hcloned] at h
  | unlockAll =>
      cases hdrained : s.consumer with
      | drained batch =>
          simp only [step, hdrained, Option.some.injEq, Prod.mk.injEq] at h
          obtain ⟨rfl, rfl⟩ := h
          exact .unlockAll hdrained
      | idle => simp [step, hdrained] at h
      | locked => simp [step, hdrained] at h
      | cloned _ => simp [step, hdrained] at h

-- ── The books ───────────────────────────────────────────────────────────────

/-- What was registered, pushed and returned so far: a history variable. -/
structure History (α : Type) where
  registered : List α
  pushed     : List α
  returned   : List (List α)

def History.empty : History α := ⟨[], [], []⟩

def History.enter (h : History α) : Event α → History α
  | .registered item => { h with registered := h.registered ++ [item] }
  | .pushed item     => { h with pushed := h.pushed ++ [item] }
  | .returned batch  => { h with returned := h.returned ++ [batch] }

omit [DecidableEq τ] in
def note (h : History α) (_ : State τ σ α) (_ : Move τ β) (_ : State τ σ α)
    (out : List (Event α)) : History α := out.foldl History.enter h

/-- The item that a producer has registered and not pushed. -/
def Producer.item : Producer α → Option α
  | .registered item => some item
  | .locked item     => some item
  | _                => none

def Producer.Holds : Producer α → Prop
  | .locked _ => True
  | .pushed   => True
  | _         => False

/-- What the consumer has taken out of the vector. -/
def Consumer.batch : Consumer α → List α
  | .drained batch => batch
  | _              => []

structure Inv (r : Registry σ β α) (t : State τ σ α × History α) : Prop where
  held       : ∀ p, (t.1.producer p).Holds → t.1.owner = some (.producer p)
  heldAll    : t.1.consumer ≠ .idle → t.1.owner = some .consumer
  /-- Nothing is pushed between `clone` and `clear`. -/
  cloned     : ∀ batch, t.1.consumer = .cloned batch → t.1.vec = batch
  split      : t.2.pushed = t.2.returned.flatten ++ (t.1.consumer.batch ++ t.1.vec)
  once       : t.2.pushed.Nodup
  serials    : ∀ a ∈ t.2.registered, r.serial a < r.next t.1.store
  registered : ∀ a ∈ t.2.pushed, a ∈ t.2.registered
  carried    : ∀ p a, (t.1.producer p).item = some a → a ∈ t.2.registered ∧ a ∉ t.2.pushed
  apart      : ∀ p q a, (t.1.producer p).item = some a → (t.1.producer q).item = some a → p = q

variable {r : Registry σ β α} {s s' : State τ σ α} {h : History α}

omit [DecidableEq τ] in
/-- Who has the lock is alone. -/
theorem Inv.alone (hinv : Inv r (s, h)) {p : τ} (hp : (s.producer p).Holds) :
    s.consumer = .idle ∧ ∀ q, (s.producer q).Holds → q = p := by
  have howner := hinv.held p hp
  constructor
  · by_contra hbusy
    have hall := hinv.heldAll hbusy
    rw [show s.owner = _ from howner] at hall
    cases hall
  · intro q hq
    have hother := hinv.held q hq
    rw [show s.owner = _ from howner] at hother
    cases hother
    rfl

omit [DecidableEq τ] in
/-- While the lock is free nobody is inside. -/
theorem Inv.free (hinv : Inv r (s, h)) (hfree : s.owner = none) :
    s.consumer = .idle ∧ ∀ q, ¬ (s.producer q).Holds := by
  constructor
  · by_contra hbusy
    have hall := hinv.heldAll hbusy
    rw [show s.owner = _ from hfree] at hall
    cases hall
  · intro q hq
    have hother := hinv.held q hq
    rw [show s.owner = _ from hfree] at hother
    cases hother

/-- A producer that gets no item, or keeps its own. -/
theorem item_update {p : τ} {stage : Producer α}
    (hitem : ∀ a, stage.item = some a → (s.producer p).item = some a) {q : τ} {a : α}
    (hq : (Function.update s.producer p stage q).item = some a) :
    (s.producer q).item = some a := by
  by_cases hqp : q = p
  · subst hqp
    rw [Function.update_self] at hq
    exact hitem a hq
  · rwa [Function.update_of_ne hqp] at hq

/-- A producer moves, without any item getting in or out. -/
theorem Inv.move (hinv : Inv r (s, h)) {p : τ} {stage : Producer α} {owner : Option (Owner τ)}
    (hitem : ∀ a, stage.item = some a → (s.producer p).item = some a)
    (hself : stage.Holds → owner = some (.producer p))
    (hothers : ∀ q, q ≠ p → ¬ (s.producer q).Holds) (hidle : s.consumer = .idle) :
    Inv r ({ s with owner := owner, producer := Function.update s.producer p stage }, h) := by
  refine ⟨?_, ?_, hinv.cloned, hinv.split, hinv.once, hinv.serials, hinv.registered, ?_, ?_⟩
  · intro q hq
    have hq : (Function.update s.producer p stage q).Holds := hq
    by_cases hqp : q = p
    · subst hqp
      rw [Function.update_self] at hq
      exact hself hq
    · rw [Function.update_of_ne hqp] at hq
      exact absurd hq (hothers q hqp)
  · exact fun hbusy => absurd hidle hbusy
  · exact fun q a hq => hinv.carried q a (item_update hitem hq)
  · exact fun q q' a hq hq' =>
      hinv.apart q q' a (item_update hitem hq) (item_update hitem hq')

/-- A new item is registered. -/
theorem Inv.register (hinv : Inv r (s, h)) {p : τ} (hp : s.producer p = .idle) (b : β) :
    Inv r ({ s with
        store := (r.register s.store b).1
        producer := Function.update s.producer p (.registered (r.register s.store b).2) },
      { h with registered := h.registered ++ [(r.register s.store b).2] }) := by
  have hserial := r.serial_register s.store b
  have hnext := r.next_register s.store b
  revert hserial hnext
  generalize r.register s.store b = given
  obtain ⟨store, item⟩ := given
  intro hserial hnext
  have hnew : item ∉ h.registered := by
    intro hmem
    exact absurd (hinv.serials item hmem) (by rw [hserial]; exact Nat.lt_irrefl _)
  refine ⟨?_, hinv.heldAll, hinv.cloned, hinv.split, hinv.once, ?_, ?_, ?_, ?_⟩
  · intro q hq
    have hq : (Function.update s.producer p (.registered item) q).Holds := hq
    by_cases hqp : q = p
    · subst hqp
      rw [Function.update_self] at hq
      exact absurd hq id
    · rw [Function.update_of_ne hqp] at hq
      exact hinv.held q hq
  · intro a ha
    show r.serial a < r.next store
    rw [show r.next store = _ from hnext]
    rcases List.mem_append.mp ha with ha | ha
    · exact Nat.lt_succ_of_lt (hinv.serials a ha)
    · rw [List.mem_singleton.mp ha, show r.serial item = _ from hserial]
      exact Nat.lt_succ_self _
  · exact fun a ha => List.mem_append_left _ (hinv.registered a ha)
  · intro q a hq
    have hq : (Function.update s.producer p (.registered item) q).item = some a := hq
    by_cases hqp : q = p
    · subst hqp
      rw [Function.update_self] at hq
      obtain rfl : item = a := Option.some.inj hq
      exact ⟨List.mem_append_right _ List.mem_cons_self,
        fun hmem => hnew (hinv.registered item hmem)⟩
    · rw [Function.update_of_ne hqp] at hq
      obtain ⟨hmem, hnot⟩ := hinv.carried q a hq
      exact ⟨List.mem_append_left _ hmem, hnot⟩
  · have hown : ∀ q a, (Function.update s.producer p (.registered item) q).item = some a →
        (q = p ∧ a = item) ∨ (q ≠ p ∧ (s.producer q).item = some a) := by
      intro q a hq
      by_cases hqp : q = p
      · subst hqp
        rw [Function.update_self] at hq
        exact .inl ⟨rfl, (Option.some.inj hq).symm⟩
      · rw [Function.update_of_ne hqp] at hq
        exact .inr ⟨hqp, hq⟩
    intro q q' a hq hq'
    rcases hown q a hq with ⟨rfl, rfl⟩ | ⟨-, hold⟩
    · rcases hown q' a hq' with ⟨rfl, -⟩ | ⟨-, hold'⟩
      · rfl
      · exact absurd (hinv.carried q' a hold').1 hnew
    · rcases hown q' a hq' with ⟨rfl, rfl⟩ | ⟨-, hold'⟩
      · exact absurd (hinv.carried q a hold).1 hnew
      · exact hinv.apart q q' a hold hold'

/-- The item of a producer gets to the end of the vector. -/
theorem Inv.push (hinv : Inv r (s, h)) {p : τ} {item : α} (hp : s.producer p = .locked item) :
    Inv r ({ s with
        vec := s.vec ++ [item]
        producer := Function.update s.producer p .pushed },
      { h with pushed := h.pushed ++ [item] }) := by
  have hholds : (s.producer p).Holds := by
    rw [hp]
    trivial
  have hitem : (s.producer p).item = some item := by
    rw [hp]
    rfl
  obtain ⟨hidle, hothers⟩ := hinv.alone hholds
  obtain ⟨hregistered, hnew⟩ := hinv.carried p item hitem
  have hnone : ∀ a, (Producer.pushed : Producer α).item = some a →
      (s.producer p).item = some a := fun a ha => (by cases ha)
  refine ⟨?_, ?_, ?_, ?_, ?_, hinv.serials, ?_, ?_, ?_⟩
  · intro q hq
    have hq : (Function.update s.producer p .pushed q).Holds := hq
    by_cases hqp : q = p
    · subst hqp
      exact hinv.held q hholds
    · rw [Function.update_of_ne hqp] at hq
      exact absurd (hothers q hq) hqp
  · exact fun hbusy => absurd hidle hbusy
  · intro batch hcloned
    rw [show s.consumer = _ from hcloned] at hidle
    cases hidle
  · have hsplit : h.pushed = h.returned.flatten ++ (s.consumer.batch ++ s.vec) := hinv.split
    show h.pushed ++ [item] = h.returned.flatten ++ (s.consumer.batch ++ (s.vec ++ [item]))
    rw [hsplit, List.append_assoc, List.append_assoc]
  · show (h.pushed ++ [item]).Nodup
    rw [← List.concat_eq_append]
    exact hinv.once.concat hnew
  · intro a ha
    rcases List.mem_append.mp ha with ha | ha
    · exact hinv.registered a ha
    · rw [List.mem_singleton.mp ha]
      exact hregistered
  · intro q a hq
    have hq' := item_update hnone hq
    refine ⟨(hinv.carried q a hq').1, ?_⟩
    intro hmem
    rcases List.mem_append.mp hmem with hmem | hmem
    · exact (hinv.carried q a hq').2 hmem
    · -- nobody else carried this item
      obtain rfl := List.mem_singleton.mp hmem
      obtain rfl := hinv.apart q p a hq' hitem
      have hq : (Function.update s.producer q .pushed q).item = some a := hq
      rw [Function.update_self] at hq
      cases hq
  · exact fun q q' a hq hq' => hinv.apart q q' a (item_update hnone hq) (item_update hnone hq')

omit [DecidableEq τ] in
/-- The consumer works on the vector. -/
theorem Inv.work (hinv : Inv r (s, h)) {vec : List α} {consumer : Consumer α}
    (hbusy : s.consumer ≠ .idle)
    (hcloned : ∀ batch, consumer = .cloned batch → vec = batch)
    (hsplit : s.consumer.batch ++ s.vec = consumer.batch ++ vec) :
    Inv r ({ s with vec := vec, consumer := consumer }, h) where
  held := hinv.held
  heldAll := fun _ => hinv.heldAll hbusy
  cloned := hcloned
  split := by
    have hbefore := hinv.split
    rw [hsplit] at hbefore
    exact hbefore
  once := hinv.once
  serials := hinv.serials
  registered := hinv.registered
  carried := hinv.carried
  apart := hinv.apart

/-- **ONE STEP KEEPS THE BOOKS.** -/
theorem step_kept {out : List (Event α)} (hinv : Inv r (s, h)) (hstep : Stepped r s s' out) :
    Inv r (s', out.foldl History.enter h) := by
  cases hstep with
  | register hp => exact hinv.register hp _
  | @lock p item hp hfree =>
      obtain ⟨hidle, hnobody⟩ := hinv.free hfree
      refine hinv.move (fun a ha => ?_) (fun _ => rfl) (fun q _ => hnobody q) hidle
      rw [hp]
      exact ha
  | push hp => exact hinv.push hp
  | @unlock p hp =>
      have hholds : (s.producer p).Holds := by
        rw [hp]
        trivial
      obtain ⟨hidle, hothers⟩ := hinv.alone hholds
      exact hinv.move (fun a ha => by cases ha) (fun hnot => absurd hnot id)
        (fun q hqp hq => hqp (hothers q hq)) hidle
  | lockAll hidle hfree =>
      obtain ⟨-, hnobody⟩ := hinv.free hfree
      refine ⟨fun q hq => absurd hq (hnobody q), fun _ => rfl, ?_, ?_, hinv.once, hinv.serials,
        hinv.registered, hinv.carried, hinv.apart⟩
      · intro batch hcloned
        cases hcloned
      · have hsplit := hinv.split
        rw [show s.consumer = _ from hidle] at hsplit
        exact hsplit
  | replace hlocked =>
      refine hinv.work ?_ ?_ ?_
      · rw [hlocked]
        exact fun hidle => by cases hidle
      · exact fun batch hcloned => by cases hcloned
      · rw [hlocked]
        exact (List.append_nil _).symm
  | clone hlocked =>
      refine hinv.work ?_ ?_ ?_
      · rw [hlocked]
        exact fun hidle => by cases hidle
      · rintro batch ⟨⟩
        rfl
      · rw [hlocked]
        rfl
  | skip hlocked hempty =>
      refine hinv.work ?_ ?_ ?_
      · rw [hlocked]
        exact fun hidle => by cases hidle
      · exact fun batch hcloned => by cases hcloned
      · rw [hlocked]
        rfl
  | @clear batch hcloned =>
      have hvec := hinv.cloned batch hcloned
      refine hinv.work ?_ ?_ ?_
      · rw [hcloned]
        exact fun hidle => by cases hidle
      · exact fun batch hcloned => by cases hcloned
      · rw [hcloned, show s.vec = batch from hvec]
        exact (List.append_nil _).symm
  | @unlockAll batch hdrained =>
      have howner : s.owner = some .consumer := by
        refine hinv.heldAll ?_
        rw [show s.consumer = _ from hdrained]
        exact fun hidle => by cases hidle
      refine ⟨?_, fun hbusy => absurd rfl hbusy, ?_, ?_, hinv.once, hinv.serials,
        hinv.registered, hinv.carried, hinv.apart⟩
      · intro q hq
        have hother := hinv.held q hq
        rw [show s.owner = _ from howner] at hother
        cases hother
      · exact fun batch hcloned => by cases hcloned
      · have hsplit := hinv.split
        rw [show s.consumer = _ from hdrained] at hsplit
        show h.pushed = (h.returned ++ [batch]).flatten ++ ([] ++ s.vec)
        rw [List.flatten_append, List.flatten_singleton, List.append_assoc]
        exact hsplit

-- ── Runs ────────────────────────────────────────────────────────────────────

omit [DecidableEq τ] in
/-- Nobody has started, and the vector is empty. -/
def begin (store : σ) : State τ σ α × History α :=
  (⟨store, [], none, fun _ => .idle, .idle⟩, History.empty)

omit [DecidableEq τ] in
theorem begin_inv (r : Registry σ β α) (store : σ) : Inv r (begin (τ := τ) store) where
  held := fun _ hp => absurd hp id
  heldAll := fun hbusy => absurd rfl hbusy
  cloned := fun _ hcloned => by cases hcloned
  split := rfl
  once := List.nodup_nil
  serials := fun _ ha => absurd ha List.not_mem_nil
  registered := fun _ ha => absurd ha List.not_mem_nil
  carried := fun _ _ hp => by cases hp
  apart := fun _ _ _ hp => by cases hp

variable {way : Drain} {t t' : State τ σ α × History α}

theorem inv_of_reach {C : State τ σ α × History α → Move τ β → Prop} (hinv : Inv r t)
    (hreach : Reach (tracked (step r way) note) C t t') : Inv r t' := by
  refine hreach.invariant hinv ?_
  rintro ⟨s, h⟩ m ⟨s', h'⟩ out hs - hstep
  obtain ⟨hmove, hnote⟩ := tracked_eq_some hstep
  obtain rfl : h' = out.foldl History.enter h := hnote
  exact step_kept hs (stepped_of_step hmove)

/-- Nothing is lost, returned twice or in another order, or returned unregistered. -/
structure Delivered (t : State τ σ α × History α) : Prop where
  noLoss     : t.2.pushed = t.2.returned.flatten ++ (t.1.consumer.batch ++ t.1.vec)
  inOrder    : t.2.returned.flatten <+: t.2.pushed
  once       : t.2.returned.flatten.Nodup
  registered : ∀ a ∈ t.2.returned.flatten, a ∈ t.2.registered

omit [DecidableEq τ] in
theorem Inv.delivered (hinv : Inv r t) : Delivered t := by
  have hgiven : t.2.returned.flatten <+: t.2.pushed := by
    rw [hinv.split]
    exact List.prefix_append ..
  exact ⟨hinv.split, hgiven, hinv.once.sublist hgiven.sublist,
    fun a ha => hinv.registered a (hgiven.mem ha)⟩

/-- **WHAT WAS PUSHED IS DELIVERED**, whoever comes first. -/
theorem delivered {store : σ}
    (hreach : Reach (tracked (step r way) note) Always (begin (τ := τ) store) t) :
    Delivered t :=
  (inv_of_reach (begin_inv r store) hreach).delivered

-- ── Calls that start after a push ───────────────────────────────────────────

/-- When `pushed` was pushed and the consumer idle, `calls` calls had returned: the next one
    has `pushed` in its hands, at the latest, when it has emptied the vector. -/
structure Since (pushed : List α) (calls : Nat) (t : State τ σ α × History α) : Prop where
  pushed_prefix : pushed <+: t.2.pushed
  calls_le      : calls ≤ t.2.returned.length
  inHand        : ∀ batch, t.1.consumer = .drained batch →
    pushed <+: t.2.returned.flatten ++ batch
  later         : calls < t.2.returned.length → pushed <+: t.2.returned.flatten

omit [DecidableEq τ] in
/-- The vector has been emptied. -/
theorem Since.emptied {pushed : List α} {calls : Nat} (hsince : Since pushed calls (s, h))
    (hinv : Inv r (s', h)) (hvec : s'.vec = []) : Since pushed calls (s', h) := by
  refine ⟨hsince.pushed_prefix, hsince.calls_le, ?_, hsince.later⟩
  intro batch hdrained
  have hsplit := hinv.split
  rw [show s'.consumer = _ from hdrained, show s'.vec = _ from hvec] at hsplit
  have hprefix := hsince.pushed_prefix
  rw [show h.pushed = h.returned.flatten ++ (batch ++ []) from hsplit, List.append_nil] at hprefix
  exact hprefix

/-- **ONE STEP OF THE WAIT.** -/
theorem Since.step {pushed : List α} {calls : Nat} {out : List (Event α)}
    (hsince : Since pushed calls (s, h)) (hinv : Inv r (s, h)) (hstep : Stepped r s s' out) :
    Since pushed calls (s', out.foldl History.enter h) := by
  have hinv' := step_kept hinv hstep
  cases hstep with
  | register hp => exact ⟨hsince.pushed_prefix, hsince.calls_le, hsince.inHand, hsince.later⟩
  | lock hp hfree => exact ⟨hsince.pushed_prefix, hsince.calls_le, hsince.inHand, hsince.later⟩
  | push hp =>
      exact ⟨hsince.pushed_prefix.trans (List.prefix_append ..), hsince.calls_le, hsince.inHand,
        hsince.later⟩
  | unlock hp => exact ⟨hsince.pushed_prefix, hsince.calls_le, hsince.inHand, hsince.later⟩
  | lockAll hidle hfree =>
      exact ⟨hsince.pushed_prefix, hsince.calls_le, fun _ hdrained => (by cases hdrained),
        hsince.later⟩
  | replace hlocked => exact hsince.emptied hinv' rfl
  | clone hlocked =>
      exact ⟨hsince.pushed_prefix, hsince.calls_le, fun _ hdrained => (by cases hdrained),
        hsince.later⟩
  | skip hlocked hempty => exact hsince.emptied hinv' hempty
  | clear hcloned => exact hsince.emptied hinv' rfl
  | @unlockAll batch hdrained =>
      have hlonger : (h.returned ++ [batch]).length = h.returned.length + 1 :=
        List.length_append
      refine ⟨hsince.pushed_prefix, ?_, fun _ hnot => (by cases hnot), ?_⟩
      · show calls ≤ (h.returned ++ [batch]).length
        rw [hlonger]
        exact Nat.le_succ_of_le hsince.calls_le
      · intro _
        show pushed <+: (h.returned ++ [batch]).flatten
        rw [List.flatten_append, List.flatten_singleton]
        exact hsince.inHand batch hdrained

/-- Once a later call has returned, all that was pushed before has been returned. -/
theorem pushed_returned {C : State τ σ α × History α → Move τ β → Prop} (hinv : Inv r t)
    (hidle : t.1.consumer = .idle) (hreach : Reach (tracked (step r way) note) C t t')
    (hcall : t.2.returned.length < t'.2.returned.length) :
    t.2.pushed <+: t'.2.returned.flatten := by
  have hfirst : Since t.2.pushed t.2.returned.length t := by
    refine ⟨List.prefix_refl _, Nat.le_refl _, ?_, fun hlt => absurd hlt (Nat.lt_irrefl _)⟩
    intro batch hdrained
    rw [hidle] at hdrained
    cases hdrained
  have hboth : Inv r t' ∧ Since t.2.pushed t.2.returned.length t' := by
    refine hreach.invariant (I := fun u => Inv r u ∧ Since t.2.pushed t.2.returned.length u)
      ⟨hinv, hfirst⟩ ?_
    rintro ⟨s, h⟩ m ⟨s', h'⟩ out ⟨hs, hsince⟩ - hstep
    obtain ⟨hmove, hnote⟩ := tracked_eq_some hstep
    obtain rfl : h' = out.foldl History.enter h := hnote
    exact ⟨step_kept hs (stepped_of_step hmove), hsince.step hs (stepped_of_step hmove)⟩
  exact hboth.2.later hcall

/-- In a list of lists without a repetition every element is in one list. -/
theorem existsUnique_batch {batches : List (List α)} (hnodup : batches.flatten.Nodup) {a : α}
    (ha : a ∈ batches.flatten) : ∃! i : Nat, ∃ batch, batches[i]? = some batch ∧ a ∈ batch := by
  obtain ⟨batch, hbatch, hmem⟩ := List.mem_flatten.mp ha
  obtain ⟨i, hi⟩ := List.mem_iff_getElem?.mp hbatch
  refine ⟨i, ⟨batch, hi, hmem⟩, ?_⟩
  rintro j ⟨other, hj, hmem'⟩
  have hdisjoint := List.pairwise_iff_getElem.mp (List.nodup_flatten.mp hnodup).2
  obtain ⟨hilt, rfl⟩ := List.getElem?_eq_some_iff.mp hi
  obtain ⟨hjlt, rfl⟩ := List.getElem?_eq_some_iff.mp hj
  rcases Nat.lt_trichotomy i j with hlt | heq | hlt
  · exact absurd hmem' (hdisjoint i j hilt hjlt hlt hmem)
  · exact heq.symm
  · exact absurd hmem (hdisjoint j i hjlt hilt hlt hmem')

/-- **EXACTLY ONE CALL RETURNS AN ITEM**: when a call that started after the push has
    returned, the item is in one batch, and in no other. -/
theorem returned_once {store : σ}
    (hpast : Reach (tracked (step r way) note) Always (begin (τ := τ) store) t)
    (hidle : t.1.consumer = .idle) (hreach : Reach (tracked (step r way) note) Always t t')
    (hcall : t.2.returned.length < t'.2.returned.length) {a : α} (ha : a ∈ t.2.pushed) :
    ∃! i : Nat, ∃ batch, t'.2.returned[i]? = some batch ∧ a ∈ batch :=
  existsUnique_batch (delivered (hpast.trans hreach)).once
    ((pushed_returned (inv_of_reach (begin_inv r store) hpast) hidle hreach hcall).mem ha)

end SharedVec
