import Mathlib.Data.List.Basic
import Mathlib.Tactic.Common

/-!
What keys with late writes can hold, told from the history of all of them.

A commit writes whatever is queued, for every key. A commit that fails may have written, kept or
dropped what was queued for a key, and a crash drops it; what was committed before stays. A
history is a list of these, newest first.
-/

namespace SendspinMc.Lib.Journal

inductive Entry (κ β : Type*)
  | saved (k : κ) (v : β)
  | committed
  /-- A commit that failed, or a crash. -/
  | unsettled
  deriving DecidableEq

variable {κ β : Type*} [DecidableEq κ]

/-- The last save of a key, unless something unsettled came after it. -/
def settled (k : κ) : List (Entry κ β) → Option β
  | [] => none
  | .saved j v :: t => if j = k then some v else settled k t
  | .committed :: t => settled k t
  | .unsettled :: _ => none

/-- The values a key may have: the one it started with and every save, until a commit leaves one
of them. -/
def candidates (init : Option β) (k : κ) : List (Entry κ β) → List (Option β)
  | [] => [init]
  | .saved j v :: t => if j = k then some v :: candidates init k t else candidates init k t
  | .committed :: t =>
    match settled k t with
    | some v => [some v]
    | none => candidates init k t
  | .unsettled :: t => candidates init k t

lemma candidates_committed {init : Option β} {k : κ} {t' t : List (Entry κ β)} {v : β}
    (ht' : ∀ w, .saved k w ∉ t') (ht : settled k t = some v) :
    candidates init k (t' ++ .committed :: t) = [some v] ∧
      ∀ w, settled k (t' ++ .committed :: t) = some w → w = v := by
  induction t' with
  | nil =>
    refine ⟨by simp [candidates, ht], fun w hw => ?_⟩
    rw [List.nil_append, settled, ht] at hw
    exact (Option.some.inj hw).symm
  | cons e t' ih =>
    obtain ⟨hc, hs⟩ := ih fun w hw => ht' w (List.mem_cons_of_mem e hw)
    cases e with
    | saved j w =>
      have hj : j ≠ k := fun hj => ht' w (hj ▸ List.mem_cons_self)
      simpa [candidates, settled, hj] using ⟨hc, hs⟩
    | committed =>
      refine ⟨?_, hs⟩
      rw [List.cons_append, candidates]
      split
      · rename_i w hw
        rw [hs w hw]
      · exact hc
    | unsettled => exact ⟨hc, fun w hw => by cases hw⟩

/-- What is left of a key after a crash, and what is read of it now, follow the history. -/
structure Follows (init : Option β) (k : κ) (log : List (Entry κ β)) (kept cur : Option β) :
    Prop where
  durable : kept ∈ candidates init k log
  read : cur ∈ candidates init k log
  settled : ∀ v, Journal.settled k log = some v → cur = some v

variable {init : Option β} {k : κ} {log : List (Entry κ β)} {kept cur kept' cur' : Option β}

lemma follows_nil (init : Option β) (k : κ) : Follows init k [] init init :=
  ⟨by simp [candidates], by simp [candidates], fun v hv => by cases hv⟩

lemma Follows.save (h : Follows init k log kept cur) (v : β) :
    Follows init k (.saved k v :: log) kept (some v) := by
  refine ⟨?_, by simp [candidates], fun w hw => ?_⟩
  · simpa [candidates] using .inr h.durable
  · rw [Journal.settled, if_pos rfl] at hw
    exact hw

lemma Follows.other (h : Follows init k log kept cur) {j : κ} (hj : j ≠ k) (v : β) :
    Follows init k (.saved j v :: log) kept cur :=
  ⟨by simpa [candidates, hj] using h.durable, by simpa [candidates, hj] using h.read,
    fun w hw => h.settled w (by simpa [Journal.settled, hj] using hw)⟩

lemma Follows.commit (h : Follows init k log kept cur) :
    Follows init k (.committed :: log) cur cur := by
  have hread : cur ∈ candidates init k (.committed :: log) := by
    rw [candidates]
    split
    · rename_i v hv
      simp [h.settled v hv]
    · exact h.read
  exact ⟨hread, hread, h.settled⟩

/-- What a commit that fails, or a crash, can make of a key: what was queued is still queued,
written or dropped. -/
def Settles (kept cur kept' cur' : Option β) : Prop :=
  kept' = kept ∧ cur' = cur ∨ kept' = cur ∧ cur' = cur ∨ kept' = kept ∧ cur' = kept

lemma Follows.unsettle (h : Follows init k log kept cur) (hs : Settles kept cur kept' cur') :
    Follows init k (.unsettled :: log) kept' cur' := by
  obtain ⟨hd, hr⟩ : kept' ∈ candidates init k log ∧ cur' ∈ candidates init k log := by
    rcases hs with ⟨rfl, rfl⟩ | ⟨rfl, rfl⟩ | ⟨rfl, rfl⟩
    · exact ⟨h.durable, h.read⟩
    · exact ⟨h.read, h.read⟩
    · exact ⟨h.durable, h.durable⟩
  exact ⟨hd, hr, fun v hv => by cases hv⟩

end SendspinMc.Lib.Journal
