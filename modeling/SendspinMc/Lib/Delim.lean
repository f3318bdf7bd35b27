import Mathlib.Data.List.Infix
import Mathlib.Tactic.Common

/-!
Words joined to a tail by a separator that both may contain.

The join can be taken apart if no word in use is another one with the separator and more
behind it; words free of the separator are the common case.
-/

namespace SendspinMc.Lib.Delim

variable {α : Type*} {sep : α} {x y u v : List α}

/-- Neither word is the other with the separator and more behind it. -/
def Apart (sep : α) (x y : List α) : Prop := ¬ x ++ [sep] <+: y ∧ ¬ y ++ [sep] <+: x

instance [DecidableEq α] : Decidable (Apart sep x y) := inferInstanceAs (Decidable (_ ∧ _))

lemma Apart.symm (h : Apart sep x y) : Apart sep y x := ⟨h.2, h.1⟩

lemma apart_self (sep : α) (x : List α) : Apart sep x x := by
  have h : ¬ x ++ [sep] <+: x := fun hp => absurd hp.length_le (by simp)
  exact ⟨h, h⟩

lemma not_prefix_of_notMem (h : sep ∉ y) : ¬ x ++ [sep] <+: y :=
  fun hp => h (hp.subset (by simp))

lemma apart_of_notMem (hx : sep ∉ x) (hy : sep ∉ y) : Apart sep x y :=
  ⟨not_prefix_of_notMem hy, not_prefix_of_notMem hx⟩

lemma Apart.append_left (h : Apart sep x y) (w : List α) : Apart sep (w ++ x) (w ++ y) := by
  simpa [Apart, List.append_assoc, List.prefix_append_right_inj] using h

lemma apart_of_head_ne {a b : α} (h : a ≠ b) : Apart sep (a :: x) (b :: y) :=
  ⟨fun hp => h (List.cons_prefix_cons.mp hp).1, fun hp => h (List.cons_prefix_cons.mp hp).1.symm⟩

/-- **Joins come apart**: a word and its tail can be read back from their join. -/
theorem join_inj (h : Apart sep x y) : x ++ sep :: u = y ++ sep :: v ↔ x = y ∧ u = v := by
  refine ⟨fun he => ?_, by rintro ⟨rfl, rfl⟩; rfl⟩
  rcases List.append_eq_append_iff.mp he with ⟨w, hy, hu⟩ | ⟨w, hx, hv⟩
  · cases w with
    | nil => exact ⟨by simpa using hy.symm, by simpa using hu⟩
    | cons a w =>
      obtain ⟨rfl, -⟩ := List.cons.inj hu
      exact absurd ⟨w, by simp [hy]⟩ h.1
  · cases w with
    | nil => exact ⟨by simpa using hx, by simpa using hv.symm⟩
    | cons a w =>
      obtain ⟨rfl, -⟩ := List.cons.inj hv
      exact absurd ⟨w, by simp [hx]⟩ h.2

end SendspinMc.Lib.Delim
