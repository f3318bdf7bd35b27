import Mathlib.Data.List.Nodup
import Mathlib.Logic.Function.Basic
import Mathlib.Tactic.Common

/-!
Events that are handed to several receivers, each with a state of its own.

A receiver is called once for an event and changes no state but its own. So it goes through its
own events alone, whatever the others are told in between.
-/

namespace SendspinMc.Lib.Fanout

variable {ι σ ε : Type*} [DecidableEq ι]

/-- An event is handed to its receivers, one after the other. -/
def deliver (handle : ι → σ → ε → σ) (receivers : ε → List ι) (s : ι → σ) (e : ε) : ι → σ :=
  (receivers e).foldl (fun s i => Function.update s i (handle i (s i) e)) s

variable {handle : ι → σ → ε → σ} {receivers : ε → List ι}

lemma foldl_update {l : List ι} (hn : l.Nodup) (s : ι → σ) (e : ε) (i : ι) :
    l.foldl (fun s j => Function.update s j (handle j (s j) e)) s i =
      if i ∈ l then handle i (s i) e else s i := by
  induction l generalizing s with
  | nil => simp
  | cons j l ih =>
    obtain ⟨hj, hl⟩ := List.nodup_cons.mp hn
    rw [List.foldl_cons, ih hl]
    by_cases hij : i = j
    · subst hij
      simp [hj]
    · simp [hij]

lemma deliver_apply {e : ε} (hn : (receivers e).Nodup) (s : ι → σ) (i : ι) :
    deliver handle receivers s e i = if i ∈ receivers e then handle i (s i) e else s i :=
  foldl_update hn s e i

/-- **A receiver goes through its own events alone**: if on states of the form `c t` its handler
takes a step on what it reads of an event, and it reads nothing of the events of others, then a
run is one of these steps. -/
theorem foldl_deliver {τ δ : Type*} {c : τ → σ} {g : τ → δ → τ} {r : ε → Option δ}
    {i : ι} (hn : ∀ e, (receivers e).Nodup)
    (hown : ∀ e, i ∈ receivers e → ∀ t, handle i (c t) e = c ((r e).elim t (g t)))
    (hother : ∀ e, i ∉ receivers e → r e = none) {s : ι → σ} {t : τ} (hs : s i = c t)
    (es : List ε) :
    es.foldl (deliver handle receivers) s i = c ((es.filterMap r).foldl g t) := by
  induction es generalizing s t with
  | nil => exact hs
  | cons e es ih =>
    have hstep : deliver handle receivers s e i = c ((r e).elim t (g t)) := by
      rw [deliver_apply (hn e), hs]
      split
      · rename_i hi
        exact hown e hi t
      · rename_i hi
        rw [hother e hi]
        rfl
    rw [List.foldl_cons, ih hstep]
    cases hr : r e with
    | none => rw [List.filterMap_cons_none hr]; rfl
    | some d => rw [List.filterMap_cons_some hr]; rfl

end SendspinMc.Lib.Fanout
