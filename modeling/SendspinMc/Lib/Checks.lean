import Mathlib.Data.List.Nodup
import Mathlib.Tactic.Common

/-!
Checks that are made one after the other over a state, and stop at the first that fails.
-/

namespace SendspinMc.Lib.Checks

universe v

variable {σ ε α : Type*} {f : σ → α → Except ε σ}

lemma foldlM_nil_ok {s t : σ} : [].foldlM f s = .ok t ↔ s = t := by
  rw [List.foldlM_nil]
  exact ⟨Except.ok.inj, congrArg _⟩

lemma foldlM_cons_ok {s t : σ} {x : α} {xs : List α} :
    (x :: xs).foldlM f s = .ok t ↔ ∃ u, f s x = .ok u ∧ xs.foldlM f u = .ok t := by
  rw [List.foldlM_cons]
  cases f s x with
  | error e => simp [bind, Except.bind]
  | ok u => simp [bind, Except.bind]

lemma bind_ok {β γ : Type v} {x : Except ε β} {g : β → Except ε γ} {c : γ} :
    (x >>= g) = .ok c ↔ ∃ b, x = .ok b ∧ g b = .ok c := by
  cases x with
  | error e => simp [bind, Except.bind]
  | ok b => simp [bind, Except.bind]

lemma map_ok {β γ : Type*} {x : Except ε β} {g : β → γ} {c : γ} :
    x.map g = .ok c ↔ ∃ b, x = .ok b ∧ g b = c := by
  cases x with
  | error e => simp [Except.map]
  | ok b => simp [Except.map]

lemma mapError_ok {β ε' : Type*} {x : Except ε β} {g : ε → ε'} {b : β} :
    x.mapError g = .ok b ↔ x = .ok b := by
  cases x with
  | error e => simp [Except.mapError]
  | ok b => simp [Except.mapError]

lemma isError_iff {β : Type*} {x : Except ε β} : (∃ e, x = .error e) ↔ ¬ ∃ b, x = .ok b := by
  cases x <;> simp

lemma foldlM_keeps {P : σ → Prop} {xs : List α} {s t : σ}
    (hP : ∀ s x t, x ∈ xs → P s → f s x = .ok t → P t) (hs : P s)
    (h : xs.foldlM f s = .ok t) : P t := by
  induction xs generalizing s with
  | nil =>
    obtain rfl := foldlM_nil_ok.mp h
    exact hs
  | cons x xs ih =>
    obtain ⟨u, hu, ht⟩ := foldlM_cons_ok.mp h
    exact ih (fun s y t hy => hP s y t (List.mem_cons_of_mem x hy))
      (hP s x u List.mem_cons_self hs hu) ht

lemma foldlM_passed {P : σ → Prop} {xs : List α} {s t : σ} {x : α}
    (hP : ∀ s x t, x ∈ xs → P s → f s x = .ok t → P t) (hs : P s)
    (h : xs.foldlM f s = .ok t) (hx : x ∈ xs) : ∃ u v, P u ∧ f u x = .ok v := by
  induction xs generalizing s with
  | nil => cases hx
  | cons y xs ih =>
    obtain ⟨u, hu, ht⟩ := foldlM_cons_ok.mp h
    rcases List.mem_cons.mp hx with rfl | hx
    · exact ⟨s, u, hs, hu⟩
    · exact ih (fun s z t hz => hP s z t (List.mem_cons_of_mem y hz))
        (hP s y u List.mem_cons_self hs hu) ht hx

/-- **Passing all checks**: if whether a check passes does not depend on the others, they all
pass exactly when each does. -/
theorem foldlM_isOk_iff {P : σ → Prop} {A : α → Prop} {xs : List α} {s : σ}
    (hP : ∀ s x t, x ∈ xs → P s → f s x = .ok t → P t)
    (hA : ∀ s x, x ∈ xs → P s → ((∃ t, f s x = .ok t) ↔ A x)) (hs : P s) :
    (∃ t, xs.foldlM f s = .ok t) ↔ ∀ x ∈ xs, A x := by
  induction xs generalizing s with
  | nil => exact iff_of_true ⟨s, rfl⟩ (by simp)
  | cons x xs ih =>
    rw [List.forall_mem_cons, ← hA s x List.mem_cons_self hs]
    have hrest : ∀ u, f s x = .ok u → ((∃ t, xs.foldlM f u = .ok t) ↔ ∀ y ∈ xs, A y) :=
      fun u hu => ih (fun s y t hy => hP s y t (List.mem_cons_of_mem x hy))
        (fun s y hy => hA s y (List.mem_cons_of_mem x hy)) (hP s x u List.mem_cons_self hs hu)
    constructor
    · rintro ⟨t, ht⟩
      obtain ⟨u, hu, ht⟩ := foldlM_cons_ok.mp ht
      exact ⟨⟨u, hu⟩, (hrest u hu).mp ⟨t, ht⟩⟩
    · rintro ⟨⟨u, hu⟩, hall⟩
      obtain ⟨t, ht⟩ := (hrest u hu).mpr hall
      exact ⟨t, foldlM_cons_ok.mpr ⟨u, hu, ht⟩⟩

/-! ### Checks that take keys -/

/-- A check takes keys, and passes if they are distinct and free. -/
structure Claims {κ : Type*} (f : σ → α → Except ε σ) (keys : α → List κ)
    (held : σ → κ → Prop) : Prop where
  passes : ∀ s x, (∃ t, f s x = .ok t) ↔ (keys x).Nodup ∧ ∀ k ∈ keys x, ¬ held s k
  holds : ∀ s x t, f s x = .ok t → ∀ k, held t k ↔ held s k ∨ k ∈ keys x

variable {κ : Type*} {keys : α → List κ} {held : σ → κ → Prop}

/-- **Checks that take keys, together**: they take all of them, and pass if these are distinct
and free. -/
theorem Claims.foldlM (h : Claims f keys held) :
    Claims (fun s (xs : List α) => xs.foldlM f s) (fun xs => xs.flatMap keys) held := by
  constructor
  · intro s xs
    induction xs generalizing s with
    | nil => exact iff_of_true ⟨s, rfl⟩ (by simp)
    | cons x xs ih =>
      have hstep : (∃ t, (x :: xs).foldlM f s = .ok t) ↔
          ∃ u, f s x = .ok u ∧ ∃ t, xs.foldlM f u = .ok t := by
        simp only [foldlM_cons_ok]
        exact ⟨fun ⟨t, u, hu, ht⟩ => ⟨u, hu, t, ht⟩, fun ⟨u, hu, t, ht⟩ => ⟨t, u, hu, ht⟩⟩
      rw [hstep, List.flatMap_cons, List.nodup_append', List.forall_mem_append]
      constructor
      · rintro ⟨u, hu, hrest⟩
        obtain ⟨hn, hfree⟩ := (h.passes s x).mp ⟨u, hu⟩
        obtain ⟨hn', hfree'⟩ := (ih u).mp hrest
        refine ⟨⟨hn, hn', fun k hk hk' => ?_⟩, hfree, fun k hk hh => ?_⟩
        · exact hfree' k hk' ((h.holds s x u hu k).mpr (.inr hk))
        · exact hfree' k hk ((h.holds s x u hu k).mpr (.inl hh))
      · rintro ⟨⟨hn, hn', hdisj⟩, hfree, hfree'⟩
        obtain ⟨u, hu⟩ := (h.passes s x).mpr ⟨hn, hfree⟩
        refine ⟨u, hu, (ih u).mpr ⟨hn', fun k hk hh => ?_⟩⟩
        rcases (h.holds s x u hu k).mp hh with hh | hk'
        · exact hfree' k hk hh
        · exact hdisj hk' hk
  · intro s xs t ht k
    induction xs generalizing s with
    | nil =>
      obtain rfl := foldlM_nil_ok.mp ht
      simp
    | cons x xs ih =>
      obtain ⟨u, hu, ht⟩ := foldlM_cons_ok.mp ht
      rw [ih u ht, h.holds s x u hu, List.flatMap_cons, List.mem_append, or_assoc]

end SendspinMc.Lib.Checks
