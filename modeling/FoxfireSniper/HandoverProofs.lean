import Mathlib.Data.List.Nodup
import Mathlib.Logic.Function.Basic

/-! # Batches that are handed over and sent on

    Any number of carriers are given batches of new items, and send them one by one to a log
    that all of them share.

    * **`Books`**: what was given is on the log or in one carrier's hands, once.  `Books.give`
      and `Books.send` are the two steps that keep it.
    * **`InOrder`**: what one source has given, always to the same carrier, is on the log in
      the order in which it was given, whatever others send in between. -/

namespace Handover

variable {τ α : Type} [DecidableEq τ] {hand : τ → List α} {log batch : List α}

-- ── Once ────────────────────────────────────────────────────────────────────

/-- What was given, and where it is. -/
structure Books (hand : τ → List α) (log : List α) (given : α → Prop) : Prop where
  once   : log.Nodup
  hands  : ∀ t, (hand t).Nodup
  unsent : ∀ t, ∀ a ∈ hand t, a ∉ log
  apart  : ∀ t q a, a ∈ hand t → a ∈ hand q → t = q
  all    : ∀ a, given a ↔ a ∈ log ∨ ∃ t, a ∈ hand t

variable {given : α → Prop} {t : τ}

omit [DecidableEq τ] in
theorem Books.nothing : Books (fun _ : τ => ([] : List α)) [] (fun _ => False) where
  once := List.nodup_nil
  hands _ := List.nodup_nil
  unsent _ _ ha := absurd ha List.not_mem_nil
  apart _ _ _ ha := absurd ha List.not_mem_nil
  all a := by simp

omit [DecidableEq τ] in
theorem Books.congr {hand' : τ → List α} {given' : α → Prop} (h : Books hand log given)
    (hhand : hand' = hand) (hgiven : ∀ a, given' a ↔ given a) : Books hand' log given' := by
  subst hhand
  exact ⟨h.once, h.hands, h.unsent, h.apart, fun a => (hgiven a).trans (h.all a)⟩

/-- Whose hands an item is in after one carrier's have changed. -/
theorem mem_update {q : τ} {a : α} (ha : a ∈ Function.update hand t batch q) :
    (q = t ∧ a ∈ batch) ∨ (q ≠ t ∧ a ∈ hand q) := by
  by_cases hqt : q = t
  · subst hqt
    rw [Function.update_self] at ha
    exact Or.inl ⟨rfl, ha⟩
  · rw [Function.update_of_ne hqt] at ha
    exact Or.inr ⟨hqt, ha⟩

/-- **A BATCH IS GIVEN** to a carrier with empty hands. -/
theorem Books.give (h : Books hand log given) (hempty : hand t = []) (hbatch : batch.Nodup)
    (hnew : ∀ a ∈ batch, ¬ given a) :
    Books (Function.update hand t batch) log (fun a => given a ∨ a ∈ batch) := by
  have hunknown : ∀ a ∈ batch, a ∉ log ∧ ∀ q, a ∉ hand q := by
    intro a ha
    have hnot := hnew a ha
    rw [h.all] at hnot
    exact ⟨fun hlog => hnot (Or.inl hlog), fun q hq => hnot (Or.inr ⟨q, hq⟩)⟩
  refine ⟨h.once, ?_, ?_, ?_, ?_⟩
  · intro q
    by_cases hqt : q = t
    · subst hqt
      rw [Function.update_self]
      exact hbatch
    · rw [Function.update_of_ne hqt]
      exact h.hands q
  · intro q a ha
    rcases mem_update ha with ⟨-, ha⟩ | ⟨-, ha⟩
    · exact (hunknown a ha).1
    · exact h.unsent q a ha
  · intro q q' a ha ha'
    rcases mem_update ha with ⟨hq, hnew⟩ | ⟨-, hold⟩
    · rcases mem_update ha' with ⟨hq', -⟩ | ⟨-, hold'⟩
      · exact hq.trans hq'.symm
      · exact absurd hold' ((hunknown a hnew).2 q')
    · rcases mem_update ha' with ⟨-, hnew'⟩ | ⟨-, hold'⟩
      · exact absurd hold ((hunknown a hnew').2 q)
      · exact h.apart q q' a hold hold'
  · intro a
    rw [h.all]
    constructor
    · rintro ((hlog | ⟨q, hq⟩) | ha)
      · exact Or.inl hlog
      · have hqt : q ≠ t := by
          rintro rfl
          rw [hempty] at hq
          cases hq
        refine Or.inr ⟨q, ?_⟩
        rw [Function.update_of_ne hqt]
        exact hq
      · refine Or.inr ⟨t, ?_⟩
        rw [Function.update_self]
        exact ha
    · rintro (hlog | ⟨q, hq⟩)
      · exact Or.inl (Or.inl hlog)
      · rcases mem_update hq with ⟨-, ha⟩ | ⟨-, ha⟩
        · exact Or.inr ha
        · exact Or.inl (Or.inr ⟨q, ha⟩)

/-- **AN ITEM IS SENT.** -/
theorem Books.send {a : α} {rest : List α} (h : Books hand log given)
    (hhand : hand t = a :: rest) :
    Books (Function.update hand t rest) (log ++ [a]) given := by
  have hmem : a ∈ hand t := by
    rw [hhand]
    exact List.mem_cons_self
  have hnodup := h.hands t
  rw [hhand, List.nodup_cons] at hnodup
  -- the hands hold what they held, but for the item
  have hheld : ∀ {q b}, b ∈ Function.update hand t rest q → b ∈ hand q ∧ b ≠ a := by
    intro q b hb
    rcases mem_update hb with ⟨rfl, hrest⟩ | ⟨hq, hold⟩
    · refine ⟨?_, ?_⟩
      · rw [hhand]
        exact List.mem_cons_of_mem a hrest
      · rintro rfl
        exact hnodup.1 hrest
    · refine ⟨hold, ?_⟩
      rintro rfl
      exact hq (h.apart q t b hold hmem)
  refine ⟨?_, ?_, ?_, ?_, ?_⟩
  · rw [← List.concat_eq_append]
    exact h.once.concat (h.unsent t a hmem)
  · intro q
    by_cases hqt : q = t
    · subst hqt
      rw [Function.update_self]
      exact hnodup.2
    · rw [Function.update_of_ne hqt]
      exact h.hands q
  · intro q b hb hlog
    obtain ⟨hb, hne⟩ := hheld hb
    rcases List.mem_append.mp hlog with hlog | hlog
    · exact h.unsent q b hb hlog
    · exact hne (List.mem_singleton.mp hlog)
  · exact fun q q' b hb hb' => h.apart q q' b (hheld hb).1 (hheld hb').1
  · intro b
    rw [h.all]
    constructor
    · rintro (hlog | ⟨q, hq⟩)
      · exact Or.inl (List.mem_append_left _ hlog)
      · by_cases hba : b = a
        · exact Or.inl (List.mem_append_right _ (List.mem_singleton.mpr hba))
        · refine Or.inr ⟨q, ?_⟩
          by_cases hqt : q = t
          · subst hqt
            rw [Function.update_self]
            rw [hhand] at hq
            exact (List.mem_cons.mp hq).resolve_left hba
          · rw [Function.update_of_ne hqt]
            exact hq
    · rintro (hlog | ⟨q, hq⟩)
      · rcases List.mem_append.mp hlog with hlog | hlog
        · exact Or.inl hlog
        · rw [List.mem_singleton.mp hlog]
          exact Or.inr ⟨t, hmem⟩
      · exact Or.inr ⟨q, (hheld hq).1⟩

-- ── In order ────────────────────────────────────────────────────────────────

/-- What one source has given: all of it to `own`. -/
structure InOrder (hand : τ → List α) (log : List α) (mine : α → Bool) (own : τ)
    (given : List α) : Prop where
  order  : given = (log ++ hand own).filter mine
  others : ∀ t, t ≠ own → ∀ a ∈ hand t, mine a = false

variable {mine : α → Bool} {own : τ} {ours : List α}

omit [DecidableEq τ] in
theorem InOrder.congr {hand' : τ → List α} {mine' : α → Bool}
    (h : InOrder hand log mine own ours) (hhand : hand' = hand)
    (hmine : ∀ a, (a ∈ log ∨ ∃ t, a ∈ hand t) → mine' a = mine a) :
    InOrder hand' log mine' own ours := by
  subst hhand
  refine ⟨h.order.trans (List.filter_congr ?_), ?_⟩
  · intro a ha
    rcases List.mem_append.mp ha with ha | ha
    · exact (hmine a (Or.inl ha)).symm
    · exact (hmine a (Or.inr ⟨own, ha⟩)).symm
  · intro t ht a ha
    rw [hmine a (Or.inr ⟨t, ha⟩)]
    exact h.others t ht a ha

/-- A batch of the source. -/
theorem InOrder.give (h : InOrder hand log mine own ours) (hempty : hand own = [])
    (hbatch : ∀ a ∈ batch, mine a = true) :
    InOrder (Function.update hand own batch) log mine own (ours ++ batch) := by
  constructor
  · rw [Function.update_self, List.filter_append, List.filter_eq_self.mpr hbatch, h.order,
      hempty, List.append_nil]
  · intro t ht a ha
    rw [Function.update_of_ne ht] at ha
    exact h.others t ht a ha

/-- A batch of another source, to anybody. -/
theorem InOrder.giveOther (h : InOrder hand log mine own ours) (hempty : hand t = [])
    (hbatch : ∀ a ∈ batch, mine a = false) :
    InOrder (Function.update hand t batch) log mine own ours := by
  constructor
  · by_cases hown : own = t
    · subst hown
      rw [Function.update_self, List.filter_append, h.order, hempty, List.append_nil,
        (List.filter_eq_nil_iff (l := batch)).mpr fun a ha => by simp [hbatch a ha],
        List.append_nil]
    · rw [Function.update_of_ne hown]
      exact h.order
  · intro q hq a ha
    rcases mem_update ha with ⟨-, ha⟩ | ⟨-, ha⟩
    · exact hbatch a ha
    · exact h.others q hq a ha

/-- **WHAT OTHERS SEND CHANGES NOTHING**, and what the source's carrier sends is in order. -/
theorem InOrder.send {a : α} {rest : List α} (h : InOrder hand log mine own ours)
    (hhand : hand t = a :: rest) :
    InOrder (Function.update hand t rest) (log ++ [a]) mine own ours := by
  constructor
  · by_cases hown : own = t
    · subst hown
      rw [Function.update_self, List.append_assoc, List.singleton_append, ← hhand]
      exact h.order
    · have hother : mine a = false := by
        refine h.others t (Ne.symm hown) a ?_
        rw [hhand]
        exact List.mem_cons_self
      rw [Function.update_of_ne hown, h.order]
      simp [List.filter_append, hother]
  · intro q hq b hb
    rcases mem_update hb with ⟨rfl, hrest⟩ | ⟨-, hold⟩
    · refine h.others q hq b ?_
      rw [hhand]
      exact List.mem_cons_of_mem a hrest
    · exact h.others q hq b hold

end Handover
