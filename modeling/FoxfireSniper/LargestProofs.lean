import Mathlib.Data.Finset.Card
import Mathlib.Data.Finset.Max

/-! # The largest elements of a finite set

    `top k s` are the `k` largest elements of `s`: those with fewer than `k` elements above
    them.  A structure that makes room by giving up its least element keeps the largest ones,
    however long ago they came.

    * `above_top`: an element with fewer than `k` of the largest ones above it has no others
      above it.
    * **`top_insert`**: the largest elements of a larger set need only the largest ones so far.
    * `erase_least`, `top_eq_self`: what is left when one element too many gives way, and that
      nothing does before. -/

namespace Largest

variable {α : Type} [LinearOrder α]

/-- The elements above `x`. -/
def above (s : Finset α) (x : α) : Finset α := s.filter (x < ·)

/-- The `k` largest elements. -/
def top (k : Nat) (s : Finset α) : Finset α := s.filter fun x => (above s x).card < k

theorem mem_above {s : Finset α} {x y : α} : y ∈ above s x ↔ y ∈ s ∧ x < y := Finset.mem_filter

theorem mem_top {k : Nat} {s : Finset α} {x : α} :
    x ∈ top k s ↔ x ∈ s ∧ (above s x).card < k := Finset.mem_filter

theorem top_subset (k : Nat) (s : Finset α) : top k s ⊆ s := Finset.filter_subset ..

theorem above_subset_above {s t : Finset α} {x y : α} (hst : s ⊆ t) (hyx : y ≤ x) :
    above s x ⊆ above t y := by
  intro z hz
  obtain ⟨hzs, hxz⟩ := mem_above.mp hz
  exact mem_above.mpr ⟨hst hzs, hyx.trans_lt hxz⟩

/-- **THE LARGEST ARE ABOVE THE REST**: if fewer than `k` of the `k` largest elements are above
    `x`, then nothing else is. -/
theorem above_top {k : Nat} {s : Finset α} {x : α} (h : (above (top k s) x).card < k) :
    above (top k s) x = above s x := by
  refine Finset.Subset.antisymm (above_subset_above (top_subset k s) le_rfl) ?_
  intro y hy
  obtain ⟨hys, hxy⟩ := mem_above.mp hy
  refine mem_above.mpr ⟨?_, hxy⟩
  by_contra hout
  -- the largest element that is left out has `k` of the others above it
  have hne : (s \ top k s).Nonempty := ⟨y, Finset.mem_sdiff.mpr ⟨hys, hout⟩⟩
  obtain ⟨m, hm, hmax⟩ := Finset.exists_max_image (s \ top k s) id hne
  obtain ⟨hms, hmout⟩ := Finset.mem_sdiff.mp hm
  have hk : k ≤ (above s m).card := by
    by_contra hlt
    exact hmout (mem_top.mpr ⟨hms, Nat.lt_of_not_le hlt⟩)
  have hxm : x < m := hxy.trans_le (hmax y (Finset.mem_sdiff.mpr ⟨hys, hout⟩))
  have hsub : above s m ⊆ above (top k s) x := by
    intro z hz
    obtain ⟨hzs, hmz⟩ := mem_above.mp hz
    refine mem_above.mpr ⟨?_, hxm.trans hmz⟩
    by_contra hzout
    exact absurd (hmax z (Finset.mem_sdiff.mpr ⟨hzs, hzout⟩)) (not_le_of_gt hmz)
  exact absurd (hk.trans (Finset.card_le_card hsub)) (Nat.not_le_of_lt h)

theorem above_insert (s : Finset α) (w x : α) :
    above (insert w s) x = if x < w then insert w (above s x) else above s x :=
  Finset.filter_insert ..

/-- **OLD ELEMENTS ARE NOT NEEDED AGAIN.** -/
theorem top_insert (k : Nat) (w : α) (s : Finset α) :
    top k (insert w (top k s)) = top k (insert w s) := by
  have hsub : insert w (top k s) ⊆ insert w s := Finset.insert_subset_insert w (top_subset k s)
  ext x
  constructor
  · intro hx
    obtain ⟨hmem, hcard⟩ := mem_top.mp hx
    refine mem_top.mpr ⟨hsub hmem, ?_⟩
    have hfew : (above (top k s) x).card < k :=
      (Finset.card_le_card (above_subset_above (Finset.subset_insert w _) le_rfl)).trans_lt hcard
    rw [above_insert, above_top hfew, ← above_insert] at hcard
    exact hcard
  · intro hx
    obtain ⟨hmem, hcard⟩ := mem_top.mp hx
    refine mem_top.mpr ⟨?_, (Finset.card_le_card (above_subset_above hsub le_rfl)).trans_lt hcard⟩
    rcases Finset.mem_insert.mp hmem with rfl | hs
    · exact Finset.mem_insert_self ..
    · refine Finset.mem_insert_of_mem (mem_top.mpr ⟨hs, ?_⟩)
      exact (Finset.card_le_card (above_subset_above (Finset.subset_insert w s) le_rfl)).trans_lt
        hcard

/-- A small set keeps all its elements. -/
theorem top_eq_self {k : Nat} {s : Finset α} (h : s.card ≤ k) : top k s = s := by
  refine Finset.Subset.antisymm (top_subset k s) ?_
  intro x hx
  refine mem_top.mpr ⟨hx, lt_of_lt_of_le (Finset.card_lt_card ?_) h⟩
  refine ⟨Finset.filter_subset .., ?_⟩
  intro hsub
  exact absurd (mem_above.mp (hsub hx)).2 (lt_irrefl x)

/-- With one element too many, the least one gives way. -/
theorem erase_least {k : Nat} {s : Finset α} {m : α} (hm : m ∈ s) (hleast : ∀ y ∈ s, m ≤ y)
    (h : s.card = k + 1) : s.erase m = top k s := by
  have habove : above s m = s.erase m := by
    ext y
    rw [mem_above, Finset.mem_erase]
    constructor
    · rintro ⟨hy, hlt⟩
      exact ⟨hlt.ne', hy⟩
    · rintro ⟨hne, hy⟩
      exact ⟨hy, lt_of_le_of_ne (hleast y hy) hne.symm⟩
  have hcard : (s.erase m).card = k := by
    rw [Finset.card_erase_of_mem hm, h]
    rfl
  ext x
  rw [mem_top, Finset.mem_erase]
  constructor
  · rintro ⟨hne, hx⟩
    refine ⟨hx, ?_⟩
    rw [← hcard]
    refine Finset.card_lt_card ⟨?_, ?_⟩
    · intro y hy
      obtain ⟨hys, hxy⟩ := mem_above.mp hy
      exact Finset.mem_erase.mpr ⟨((hleast x hx).trans_lt hxy).ne', hys⟩
    · intro hsub
      exact absurd (mem_above.mp (hsub (Finset.mem_erase.mpr ⟨hne, hx⟩))).2 (lt_irrefl x)
  · rintro ⟨hx, hlt⟩
    refine ⟨?_, hx⟩
    rintro rfl
    rw [habove, hcard] at hlt
    exact Nat.lt_irrefl k hlt

end Largest
