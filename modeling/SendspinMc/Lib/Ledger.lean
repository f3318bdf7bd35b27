import SendspinMc.Lib.History
import Mathlib.Data.List.Count
import Mathlib.Tactic.Common

/-!
A ledger of deliveries and their acknowledgements, by key, newest entry first.

A delivery of a key that is still owed supersedes the one before it, so a key owes at most
one acknowledgement.
-/

namespace SendspinMc.Lib.Ledger

open SendspinMc.Lib.History

inductive Note (κ : Type*)
  | delivered (k : κ)
  | acked (k : κ)
  deriving DecidableEq

variable {κ : Type*} [DecidableEq κ]

/-- The last note of the key is a delivery. -/
def owed : List (Note κ) → κ → Bool
  | [], _ => false
  | .delivered m :: t, k => if m = k then true else owed t k
  | .acked m :: t, k => if m = k then false else owed t k

/-- An acknowledgement has to be owed when it is made. -/
def Due : Note κ → List (Note κ) → Prop
  | .delivered _, _ => True
  | .acked k, t => owed t k = true

/-- Every acknowledgement was owed when it was made. -/
abbrev Valid : List (Note κ) → Prop := Justified Due

@[simp] lemma owed_nil (k : κ) : owed [] k = false := rfl
@[simp] lemma owed_delivered_self (log : List (Note κ)) (k : κ) :
    owed (.delivered k :: log) k = true := by simp [owed]
@[simp] lemma owed_acked_self (log : List (Note κ)) (k : κ) :
    owed (.acked k :: log) k = false := by simp [owed]
lemma owed_delivered_ne (log : List (Note κ)) {m k : κ} (h : m ≠ k) :
    owed (.delivered m :: log) k = owed log k := by simp [owed, h]
lemma owed_acked_ne (log : List (Note κ)) {m k : κ} (h : m ≠ k) :
    owed (.acked m :: log) k = owed log k := by simp [owed, h]

lemma valid_delivered {log : List (Note κ)} {m : κ} :
    Valid (.delivered m :: log) ↔ Valid log := by
  simp [justified_cons, Due]

lemma valid_acked {log : List (Note κ)} {m : κ} :
    Valid (.acked m :: log) ↔ owed log m = true ∧ Valid log := justified_cons

theorem count_acked_le {log : List (Note κ)} (h : Valid log) (k : κ) :
    log.count (.acked k) + (owed log k).toNat ≤ log.count (.delivered k) := by
  induction log with
  | nil => simp
  | cons x t ih =>
    cases x with
    | delivered m =>
      have ih := ih (valid_delivered.mp h)
      by_cases hm : m = k
      · subst hm
        simp only [List.count_cons_self, owed_delivered_self, Bool.toNat_true]
        rw [List.count_cons_of_ne (by simp)]
        omega
      · rw [List.count_cons_of_ne (by simp), List.count_cons_of_ne (by simpa using hm),
          owed_delivered_ne t hm]
        exact ih
    | acked m =>
      obtain ⟨ho, ht⟩ := valid_acked.mp h
      have ih := ih ht
      by_cases hm : m = k
      · subst hm
        rw [ho] at ih
        simp only [List.count_cons_self, owed_acked_self, Bool.toNat_false]
        rw [List.count_cons_of_ne (by simp)]
        simpa using ih
      · rw [List.count_cons_of_ne (by simpa using hm), List.count_cons_of_ne (by simp),
          owed_acked_ne t hm]
        exact ih

end SendspinMc.Lib.Ledger
