import Mathlib.Data.List.Basic
import Mathlib.Data.Set.Function
import Mathlib.Logic.Function.Basic

/-!
One store shared by many keys, each kept at an address of its own.

Where no two keys in use share an address, the store behaves as one independent cell for each
key, which holds what was last written under that key.
-/

namespace SendspinMc.Lib.Addressed

variable {κ α β : Type*} [BEq κ] [LawfulBEq κ] [DecidableEq α] {at_ : κ → α} {own : Set κ}
  {store : α → Option β} {log : List (κ × β)}

/-- Each key in use finds at its address what the log of writes, newest first, last wrote
under it. -/
def Holds (at_ : κ → α) (own : Set κ) (store : α → Option β) (log : List (κ × β)) : Prop :=
  ∀ k ∈ own, store (at_ k) = log.lookup k

omit [LawfulBEq κ] [DecidableEq α] in
lemma holds_empty (h : ∀ k ∈ own, store (at_ k) = none) : Holds at_ own store [] :=
  fun k hk => h k hk

/-- **A write reaches one key**: the others keep what they hold. -/
theorem Holds.write (h : Holds at_ own store log) (hinj : Set.InjOn at_ own) {k : κ}
    (hk : k ∈ own) (v : β) :
    Holds at_ own (Function.update store (at_ k) (some v)) ((k, v) :: log) := by
  intro j hj
  by_cases hjk : j = k
  · subst hjk
    simp
  · have ha : at_ j ≠ at_ k := fun he => hjk (hinj hj hk he)
    rw [Function.update_of_ne ha, h j hj, List.lookup_cons, beq_false_of_ne hjk]

end SendspinMc.Lib.Addressed
