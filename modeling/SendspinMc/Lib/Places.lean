import Mathlib.Data.List.Basic
import Mathlib.Tactic.Common

/-!
What is at a place of a list, between what is before it and after it.

Where a list is read by what an owner sees of it, that is each entry's own part, or those entries
that are its own, the same holds of the part at a place.
-/

namespace SendspinMc.Lib.Places

variable {α β : Type*} {l : List α} {i j : ℕ} {a b : α}

lemma eq_take_append (hi : l[i]? = some a) : l = l.take i ++ a :: l.drop (i + 1) := by
  obtain ⟨hlt, rfl⟩ := List.getElem?_eq_some_iff.mp hi
  rw [← List.drop_eq_getElem_cons hlt, List.take_append_drop]

lemma flatMap_split (hi : l[i]? = some a) (f : α → List β) :
    l.flatMap f = (l.take i).flatMap f ++ (f a ++ (l.drop (i + 1)).flatMap f) := by
  conv_lhs => rw [eq_take_append hi]
  rw [List.flatMap_append, List.flatMap_cons]

/-! ### An entry that is seen -/

lemma length_filterMap_of_lt {g : α → Option β} (hij : i < j) (hi : l[i]? = some a)
    (hj : l[j]? = some b) (ha : (g a).isSome) (hb : (g b).isSome) : 1 < (l.filterMap g).length := by
  obtain ⟨x, hx⟩ := Option.isSome_iff_exists.mp ha
  obtain ⟨y, hy⟩ := Option.isSome_iff_exists.mp hb
  have hrest : b ∈ l.drop (i + 1) := by
    refine List.mem_of_getElem? (i := j - (i + 1)) ?_
    rw [List.getElem?_drop, ← hj]
    congr 1
    omega
  have hpos := List.length_pos_of_mem (List.mem_filterMap.mpr ⟨b, hrest, hy⟩)
  rw [eq_take_append hi, List.filterMap_append, List.filterMap_cons_some hx, List.length_append,
    List.length_cons]
  omega

lemma place_unique {g : α → Option β} (hl : (l.filterMap g).length ≤ 1) (hi : l[i]? = some a)
    (hj : l[j]? = some b) (ha : (g a).isSome) (hb : (g b).isSome) : i = j := by
  rcases Nat.lt_trichotomy i j with hij | hij | hij
  · have := length_filterMap_of_lt hij hi hj ha hb
    omega
  · exact hij
  · have := length_filterMap_of_lt hij hj hi hb ha
    omega

/-! ### A shared queue -/

section Queue

variable {own : α → Bool}

lemma filter_eraseIdx_other (hi : l[i]? = some a) (hown : own a = false) :
    (l.eraseIdx i).filter own = l.filter own := by
  have hsplit : l.filter own = (l.take i ++ a :: l.drop (i + 1)).filter own :=
    congrArg _ (eq_take_append hi)
  rw [hsplit, List.eraseIdx_eq_take_drop_succ, List.filter_append, List.filter_append,
    List.filter_cons_of_neg (by simp [hown])]

lemma filter_eraseIdx_own (hi : l[i]? = some a) (hown : own a = true) :
    ∃ k, (l.filter own)[k]? = some a ∧ (l.eraseIdx i).filter own = (l.filter own).eraseIdx k := by
  have hsplit : l.filter own = (l.take i).filter own ++ a :: (l.drop (i + 1)).filter own := by
    conv_lhs => rw [eq_take_append hi]
    rw [List.filter_append, List.filter_cons_of_pos hown]
  refine ⟨((l.take i).filter own).length, ?_, ?_⟩
  · rw [hsplit, List.getElem?_append_right (Nat.le_refl _), Nat.sub_self]
    rfl
  · rw [hsplit, List.eraseIdx_append_of_length_le (Nat.le_refl _), Nat.sub_self,
      List.eraseIdx_eq_take_drop_succ, List.filter_append]
    rfl

end Queue

end SendspinMc.Lib.Places
