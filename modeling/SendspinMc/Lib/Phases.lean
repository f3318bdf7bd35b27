import Mathlib.Data.List.Nodup
import Mathlib.Data.List.Pairwise
import Mathlib.Order.Lattice
import Mathlib.Tactic.Common

/-!
A run over elements in the order of their priority: what has the higher priority comes first,
whatever the order among equals.
-/

namespace SendspinMc.Lib.Phases

variable {α σ : Type*} {l : List α} {first : α → Bool}

/-- Elements of the first phase stand before the others. -/
def Phased (first : α → Bool) (l : List α) : Prop :=
  l.Pairwise fun a b => first b = true → first a = true

/-- **A phased list is its phases**, one after the other. -/
theorem Phased.eq_append (h : Phased first l) :
    l = l.filter first ++ l.filter (!first ·) := by
  induction l with
  | nil => rfl
  | cons x l ih =>
    obtain ⟨hx, hl⟩ := List.pairwise_cons.mp h
    cases hf : first x with
    | true => rw [List.filter_cons_of_pos hf, List.filter_cons_of_neg (by simp [hf]),
        List.cons_append, ← ih hl]
    | false =>
      -- nothing after it is of the first phase
      have hnone : l.filter first = [] :=
        List.filter_eq_nil_iff.mpr fun y hy hfy => by
          have := hx y hy hfy
          rw [hf] at this
          cases this
      have hall : l.filter (!first ·) = l := List.filter_eq_self.mpr fun y hy => by
        have hy' := List.filter_eq_nil_iff.mp hnone y hy
        simpa using hy'
      rw [List.filter_cons_of_neg (by simp [hf]), List.filter_cons_of_pos (by simp [hf]), hnone,
        hall]
      rfl

lemma Phased.foldl (h : Phased first l) (f : σ → α → σ) (s : σ) :
    l.foldl f s = (l.filter (!first ·)).foldl f ((l.filter first).foldl f s) := by
  rw [← List.foldl_append, ← h.eq_append]

lemma phased_of_sorted {π : Type*} [LinearOrder π] {priority : α → π} {p : π}
    (h : l.Pairwise fun a b => priority b ≤ priority a) :
    Phased (fun a => decide (p ≤ priority a)) l :=
  h.imp fun hab hb => by
    rw [decide_eq_true_eq] at hb ⊢
    exact le_trans hb hab

end SendspinMc.Lib.Phases
