import Mathlib.Data.List.Infix
import Mathlib.Tactic.Common

/-!
Histories, newest entry first, each of whose entries has to be allowed by the ones before it.
-/

namespace SendspinMc.Lib.History

variable {α : Type*} {A : α → List α → Prop}

/-- Every entry was allowed by the entries before it. -/
def Justified (A : α → List α → Prop) (log : List α) : Prop :=
  ∀ o t, o :: t <:+ log → A o t

lemma justified_nil : Justified A [] := by
  intro o t h
  simp at h

lemma justified_cons {o : α} {log : List α} :
    Justified A (o :: log) ↔ A o log ∧ Justified A log := by
  constructor
  · intro h
    exact ⟨h o log (List.suffix_refl _), fun x t ht => h x t (List.suffix_cons_iff.mpr (.inr ht))⟩
  · rintro ⟨ho, h⟩ x t ht
    rcases List.suffix_cons_iff.mp ht with he | ht
    · cases he
      exact ho
    · exact h x t ht

lemma Justified.suffix {log log' : List α} (h : Justified A log) (hs : log' <:+ log) :
    Justified A log' := fun o t ht => h o t (ht.trans hs)

lemma Justified.cons {o : α} {log : List α} (h : Justified A log) (ho : A o log) :
    Justified A (o :: log) := justified_cons.mpr ⟨ho, h⟩

instance Justified.decidable [∀ o t, Decidable (A o t)] :
    ∀ log, Decidable (Justified A log)
  | [] => .isTrue justified_nil
  | o :: t =>
    have : Decidable (Justified A t) := Justified.decidable t
    decidable_of_iff (A o t ∧ Justified A t) justified_cons.symm

end SendspinMc.Lib.History
