import Mathlib.Data.List.Basic
import Mathlib.Data.List.Nodup
import Mathlib.Data.List.Perm.Basic

/-! # Admission in two steps

    Guests are admitted by a check and seated later, one by one: between the two they
    are on their way.  A check that counts the seated only can admit too many, and the
    same guest twice.

    `Fits cap h` is the invariant that a check has to keep: those seated and those on
    their way are at most `cap`, and all different.  `Fits.admit` says what the check
    must find for that; `Fits.seat` and `Fits.leave` need nothing. -/

namespace Admission

variable {κ : Type}

/-- The guests that are seated, and those on their way. -/
structure Hall (κ : Type) where
  seated   : List κ
  underway : List κ

structure Fits (cap : Nat) (h : Hall κ) : Prop where
  room     : h.seated.length + h.underway.length ≤ cap
  distinct : (h.seated ++ h.underway).Nodup

variable {cap : Nat} {seated underway : List κ} {k : κ}

theorem fits_empty (cap : Nat) : Fits cap (⟨[], []⟩ : Hall κ) :=
  ⟨Nat.zero_le _, List.nodup_nil⟩

/-- A guest is admitted. -/
theorem Fits.admit (h : Fits cap ⟨seated, underway⟩)
    (hroom : seated.length + underway.length < cap)
    (hseated : k ∉ seated) (hunderway : k ∉ underway) :
    Fits cap ⟨seated, underway ++ [k]⟩ := by
  refine ⟨?_, ?_⟩
  · show seated.length + (underway ++ [k]).length ≤ cap
    rw [List.length_append, List.length_singleton]
    exact hroom
  · show (seated ++ (underway ++ [k])).Nodup
    rw [← List.append_assoc, ← List.concat_eq_append]
    refine h.distinct.concat ?_
    rw [List.mem_append]
    rintro (hk | hk)
    · exact hseated hk
    · exact hunderway hk

/-- A guest who arrives is not seated yet. -/
theorem Fits.not_seated {i : Nat} (h : Fits cap ⟨seated, underway⟩)
    (hk : underway[i]? = some k) : k ∉ seated := by
  intro hmem
  exact (List.nodup_append.mp h.distinct).2.2 k hmem k (List.mem_of_getElem? hk) rfl

/-- A guest arrives and is seated. -/
theorem Fits.seat {i : Nat} (h : Fits cap ⟨seated, underway⟩)
    (hk : underway[i]? = some k) : Fits cap ⟨k :: seated, underway.eraseIdx i⟩ := by
  obtain ⟨hi, hget⟩ := List.getElem?_eq_some_iff.mp hk
  have hperm : (k :: underway.eraseIdx i).Perm underway := by
    rw [← hget]
    exact List.getElem_cons_eraseIdx_perm hi
  refine ⟨?_, ?_⟩
  · have hroom : seated.length + underway.length ≤ cap := h.room
    show (k :: seated).length + (underway.eraseIdx i).length ≤ cap
    rw [List.length_cons, List.length_eraseIdx_of_lt hi]
    omega
  · show (k :: (seated ++ underway.eraseIdx i)).Nodup
    refine (List.Perm.nodup_iff ?_).mpr h.distinct
    exact List.perm_middle.symm.trans (hperm.append_left seated)

/-- Guests leave. -/
theorem Fits.leave {seated' : List κ} (h : Fits cap ⟨seated, underway⟩)
    (hsub : seated'.Sublist seated) : Fits cap ⟨seated', underway⟩ := by
  refine ⟨?_, h.distinct.sublist (hsub.append_right underway)⟩
  have hroom : seated.length + underway.length ≤ cap := h.room
  have hle := hsub.length_le
  show seated'.length + underway.length ≤ cap
  omega

end Admission
