import Mathlib.Tactic.Common

/-!
A field that some steps of a run write: what it ends with is the last of these writes. A field
that they append to ends with all of them, in order.
-/

namespace SendspinMc.Lib.Writes

variable {σ α β : Type*} {step : σ → α → σ} {field : σ → β} {write : α → Option β}

/-- The steps that write a field, and what they write. -/
def Sets (step : σ → α → σ) (field : σ → β) (write : α → Option β) : Prop :=
  ∀ s x, field (step s x) = (write x).getD (field s)

/-- **The last write stands.** -/
theorem Sets.foldl (h : Sets step field write) (s : σ) (l : List α) :
    field (l.foldl step s) = (l.filterMap write).getLast?.getD (field s) := by
  induction l generalizing s with
  | nil => rfl
  | cons x l ih =>
    rw [List.foldl_cons, ih, h]
    cases hx : write x with
    | none => rw [List.filterMap_cons_none hx]; rfl
    | some v =>
      rw [List.filterMap_cons_some hx, List.getLast?_cons]
      rfl

lemma Sets.satisfies (h : Sets step field write) {s : σ} {l : List α} {v : β} {P : β → Prop}
    (hm : ∃ x ∈ l, write x = some v) (ha : ∀ x ∈ l, ∀ w, write x = some w → P w) :
    P (field (l.foldl step s)) := by
  obtain ⟨x, hx, hv⟩ := hm
  rw [h.foldl]
  cases hl : (l.filterMap write).getLast? with
  | none =>
    have hnil := List.getLast?_eq_none_iff.mp hl
    have hin := List.mem_filterMap.mpr ⟨x, hx, hv⟩
    rw [hnil] at hin
    cases hin
  | some w =>
    obtain ⟨y, hy, hw⟩ := List.mem_filterMap.mp (List.mem_of_getLast? hl)
    exact ha y hy w hw

lemma Sets.agree (h : Sets step field write) {s : σ} {l : List α} {v : β}
    (hm : ∃ x ∈ l, write x = some v) (ha : ∀ x ∈ l, ∀ w, write x = some w → w = v) :
    field (l.foldl step s) = v := h.satisfies hm ha

lemma Sets.unset (h : Sets step field write) {s : σ} {l : List α}
    (hn : ∀ x ∈ l, write x = none) : field (l.foldl step s) = field s := by
  rw [h.foldl, List.filterMap_eq_nil_iff.mpr hn]
  rfl

/-- What the steps append to a field. -/
def Collects {γ : Type*} (step : σ → α → σ) (field : σ → List γ) (write : α → List γ) : Prop :=
  ∀ s x, field (step s x) = field s ++ write x

/-- **Nothing that was appended is lost.** -/
theorem Collects.foldl {γ : Type*} {field : σ → List γ} {write : α → List γ}
    (h : Collects step field write) (s : σ) (l : List α) :
    field (l.foldl step s) = field s ++ l.flatMap write := by
  induction l generalizing s with
  | nil => simp
  | cons x l ih => rw [List.foldl_cons, ih, h, List.flatMap_cons, List.append_assoc]

end SendspinMc.Lib.Writes
