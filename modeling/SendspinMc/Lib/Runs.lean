import Mathlib.Data.Option.Basic
import Mathlib.Tactic.Common

/-!
Runs of a partial step function, and the rules by which a property of one step becomes a
property of every run.

A step answers `none` when its event is not enabled, so a run is a list of events that were
all enabled one after the other.
-/

namespace SendspinMc.Lib.Runs

variable {σ ε : Type*} (step : σ → ε → Option σ)

/-- The state after a list of events, `none` as soon as one of them is not enabled. -/
def run (s : σ) : List ε → Option σ
  | [] => some s
  | e :: es => (step s e).bind fun t => run t es

@[simp] lemma run_nil (s : σ) : run step s [] = some s := rfl
@[simp] lemma run_cons (s : σ) (e : ε) (es : List ε) :
    run step s (e :: es) = (step s e).bind fun t => run step t es := rfl

lemma run_append (s : σ) (u v : List ε) :
    run step s (u ++ v) = (run step s u).bind fun t => run step t v := by
  induction u generalizing s with
  | nil => simp
  | cons e u ih =>
    rw [List.cons_append, run_cons, run_cons]
    cases h : step s e with
    | none => simp
    | some t => simpa using ih t

/-- The states some run reaches from a state the predicate `init` allows. -/
def Reach (init : σ → Prop) (s : σ) : Prop := ∃ s₀, init s₀ ∧ ∃ es, run step s₀ es = some s

/-! ### Invariants -/

/-- One step keeps `I`. -/
def Keeps (I : σ → Prop) : Prop := ∀ s e t, I s → step s e = some t → I t

/-- One step by an event of the kind `E` keeps `I`. -/
def KeepsOn (E : ε → Prop) (I : σ → Prop) : Prop := ∀ s e t, I s → E e → step s e = some t → I t

variable {step}

lemma KeepsOn.run {E : ε → Prop} {I : σ → Prop} (hI : KeepsOn step E I) {s t : σ} {es : List ε}
    (hs : I s) (hE : ∀ e ∈ es, E e) (h : run step s es = some t) : I t := by
  induction es generalizing s with
  | nil => obtain rfl : s = t := by simpa using h
           exact hs
  | cons e es ih =>
    obtain ⟨u, hu, ht⟩ := Option.bind_eq_some_iff.mp h
    exact ih (hI s e u hs (hE e (by simp)) hu) (fun x hx => hE x (List.mem_cons_of_mem e hx)) ht

lemma Keeps.run {I : σ → Prop} (hI : Keeps step I) {s t : σ} {es : List ε} (hs : I s)
    (h : run step s es = some t) : I t :=
  have hOn : KeepsOn step (fun _ => True) I := fun s e t hi _ ht => hI s e t hi ht
  hOn.run hs (fun _ _ => trivial) h

/-- **The invariant rule**: what the initial states satisfy and every step keeps holds in
every reachable state. -/
theorem Keeps.reach {I init : σ → Prop} (hI : Keeps step I) (h₀ : ∀ s, init s → I s) {s : σ}
    (h : Reach step init s) : I s := by
  obtain ⟨s₀, hi, es, hs⟩ := h
  exact hI.run (h₀ s₀ hi) hs

/-! ### A run seen from a part -/

/-- **The simulation rule**: if at each step of the whole a part of it takes the step it reads of
the event, or stays when it reads nothing, then a run of the whole is a run of the part on what it
reads. -/
theorem run_simulates {τ δ : Type*} {part : τ → δ → Option τ} {R : σ → τ → Prop}
    {r : ε → Option δ}
    (h : ∀ s e s' t, R s t → step s e = some s' →
      ∃ t', R s' t' ∧ (r e).elim (some t) (part t) = some t')
    {s s' : σ} {t : τ} {es : List ε} (hR : R s t) (hr : run step s es = some s') :
    ∃ t', R s' t' ∧ run part t (es.filterMap r) = some t' := by
  induction es generalizing s t with
  | nil =>
    obtain rfl := Option.some.inj hr
    exact ⟨t, hR, rfl⟩
  | cons e es ih =>
    obtain ⟨u, hu, hr⟩ := Option.bind_eq_some_iff.mp hr
    obtain ⟨t₁, hR₁, ht₁⟩ := h s e u t hR hu
    obtain ⟨t', hR', ht'⟩ := ih hR₁ hr
    refine ⟨t', hR', ?_⟩
    cases hre : r e with
    | none =>
      rw [hre] at ht₁
      obtain rfl := Option.some.inj ht₁
      rw [List.filterMap_cons_none hre, ht']
    | some d =>
      rw [hre, Option.elim_some] at ht₁
      rw [List.filterMap_cons_some hre, run_cons, ht₁, Option.bind_some, ht']

/-- What a part can reach, where its step may depend on more than the event: it is enough that it
takes some step of its own or stays. -/
theorem Reach.simulates {τ δ : Type*} {part : τ → δ → Option τ} {R : σ → τ → Prop}
    {init : σ → Prop} {start : τ → Prop} (h₀ : ∀ s, init s → ∃ t, start t ∧ R s t)
    (h : ∀ s e s' t, R s t → step s e = some s' →
      ∃ t', R s' t' ∧ (t' = t ∨ ∃ d, part t d = some t')) {s : σ} (hs : Reach step init s) :
    ∃ t, Reach part start t ∧ R s t := by
  have hkeeps : Keeps step fun s => ∃ t, Reach part start t ∧ R s t := by
    rintro s e s' ⟨t, ⟨t₀, ht₀, ds, hds⟩, hR⟩ hst
    obtain ⟨t', hR', rfl | ⟨d, hd⟩⟩ := h s e s' t hR hst
    · exact ⟨t', ⟨t₀, ht₀, ds, hds⟩, hR'⟩
    · refine ⟨t', ⟨t₀, ht₀, ds ++ [d], ?_⟩, hR'⟩
      rw [run_append, hds, Option.bind_some, run_cons, hd]
      rfl
  refine hkeeps.reach (fun s hs => ?_) hs
  obtain ⟨t, ht, hR⟩ := h₀ s hs
  exact ⟨t, ⟨t, ht, [], rfl⟩, hR⟩

/-! ### Properties of the steps of a run -/

variable (step) in
/-- Every step of the run from `s` satisfies `P`. -/
def Along (P : σ → ε → σ → Prop) (s : σ) : List ε → Prop
  | [] => True
  | e :: es => ∀ t, step s e = some t → P s e t ∧ Along P t es

@[simp] lemma along_nil (P : σ → ε → σ → Prop) (s : σ) : Along step P s [] := trivial

lemma along_cons {P : σ → ε → σ → Prop} {s : σ} {e : ε} {es : List ε} :
    Along step P s (e :: es) ↔ ∀ t, step s e = some t → P s e t ∧ Along step P t es := Iff.rfl

lemma along_cons_some {P : σ → ε → σ → Prop} {s t : σ} {e : ε} {es : List ε}
    (h : step s e = some t) : Along step P s (e :: es) ↔ P s e t ∧ Along step P t es := by
  rw [along_cons]
  exact ⟨fun H => H t h, fun H u hu => by rwa [Option.some.inj (hu.symm.trans h)]⟩

lemma along_of_forall {P : σ → ε → σ → Prop} {s : σ} {es : List ε} (h : ∀ s e t, P s e t) :
    Along step P s es := by
  induction es generalizing s with
  | nil => simp
  | cons e es ih => exact fun t _ => ⟨h s e t, ih⟩

instance Along.decidable {P : σ → ε → σ → Prop} [∀ s e t, Decidable (P s e t)] :
    ∀ s es, Decidable (Along step P s es)
  | _, [] => .isTrue trivial
  | s, e :: es =>
    match h : step s e with
    | none => .isTrue fun t ht => by rw [h] at ht; cases ht
    | some t =>
      have : Decidable (Along step P t es) := Along.decidable t es
      decidable_of_iff (P s e t ∧ Along step P t es) (along_cons_some h).symm

/-- One step keeps `I` as long as the step satisfies `C`. -/
def KeepsIf (step : σ → ε → Option σ) (C : σ → ε → σ → Prop) (I : σ → Prop) : Prop :=
  ∀ s e t, I s → C s e t → step s e = some t → I t

/-- **Step properties that agree**: in a run whose steps satisfy `C`, two step properties that
agree under an invariant which the first of them keeps hold throughout the run together. -/
theorem KeepsIf.along_congr {C P Q : σ → ε → σ → Prop} {I : σ → Prop}
    (hI : KeepsIf step (fun s e t => C s e t ∧ P s e t) I)
    (hPQ : ∀ s e t, I s → C s e t → step s e = some t → (P s e t ↔ Q s e t)) {s : σ}
    {es : List ε} (hs : I s) (hC : Along step C s es) :
    Along step P s es ↔ Along step Q s es := by
  induction es generalizing s with
  | nil => simp
  | cons e es ih =>
    rw [along_cons, along_cons]
    refine forall_congr' fun t => forall_congr' fun ht => ?_
    obtain ⟨hc, hCt⟩ := hC t ht
    rw [← hPQ s e t hs hc ht]
    exact and_congr_right fun hp => ih (hI s e t hs ⟨hc, hp⟩ ht) hCt

/-- In a run whose steps satisfy `C`, two step properties that agree under a conditional
invariant hold throughout the run together. -/
theorem KeepsIf.along_iff {C P Q : σ → ε → σ → Prop} {I : σ → Prop} (hI : KeepsIf step C I)
    (hPQ : ∀ s e t, I s → C s e t → step s e = some t → (P s e t ↔ Q s e t)) {s : σ}
    {es : List ε} (hs : I s) (hC : Along step C s es) :
    Along step P s es ↔ Along step Q s es := by
  have hI' : KeepsIf step (fun s e t => C s e t ∧ P s e t) I :=
    fun s e t hi hcp ht => hI s e t hi hcp.1 ht
  exact hI'.along_congr hPQ hs hC

lemma KeepsIf.along {C P : σ → ε → σ → Prop} {I : σ → Prop} (hI : KeepsIf step C I)
    (hP : ∀ s e t, I s → C s e t → step s e = some t → P s e t) {s : σ} {es : List ε}
    (hs : I s) (hC : Along step C s es) : Along step P s es := by
  induction es generalizing s with
  | nil => simp
  | cons e es ih =>
    intro t ht
    obtain ⟨hc, hCt⟩ := hC t ht
    exact ⟨hP s e t hs hc ht, ih (hI s e t hs hc ht) hCt⟩

/-! ### Properties of the states of a run -/

variable (step) in
/-- Every state the run from `s` passes through satisfies `P`. -/
def Throughout (P : σ → Prop) (s : σ) (es : List ε) : Prop :=
  ∀ u, u <+: es → ∀ t, run step s u = some t → P t

lemma throughout_cons {P : σ → Prop} {s : σ} {e : ε} {es : List ε} :
    Throughout step P s (e :: es) ↔ P s ∧ ∀ t, step s e = some t → Throughout step P t es := by
  constructor
  · intro h
    refine ⟨h [] (List.nil_prefix) s rfl, fun t ht u hu v hv => ?_⟩
    exact h (e :: u) (List.cons_prefix_cons.mpr ⟨rfl, hu⟩) v (by simpa [ht] using hv)
  · rintro ⟨hs, h⟩ u hu v hv
    rcases List.prefix_cons_iff.mp hu with rfl | ⟨u', rfl, hu'⟩
    · obtain rfl := Option.some.inj hv
      exact hs
    · obtain ⟨t, ht, hv⟩ := Option.bind_eq_some_iff.mp hv
      exact h t ht u' hu' v hv

lemma throughout_iff {P : σ → Prop} {s : σ} {es : List ε} :
    Throughout step P s es ↔ P s ∧ Along step (fun _ _ t => P t) s es := by
  induction es generalizing s with
  | nil =>
    constructor
    · intro h
      exact ⟨h [] List.prefix_rfl s rfl, trivial⟩
    · rintro ⟨hs, -⟩ u hu t ht
      obtain rfl := List.prefix_nil.mp hu
      obtain rfl := Option.some.inj ht
      exact hs
  | cons e es ih =>
    rw [throughout_cons, along_cons]
    exact and_congr_right fun _ => forall_congr' fun t => forall_congr' fun _ => ih

/-- What steps from states that satisfy `P` keep is kept by a run that passes through no others. -/
lemma Throughout.keeps {P I : σ → Prop} (hI : ∀ s e t, P s → I s → step s e = some t → I t)
    {s t : σ} {es : List ε} (hP : Throughout step P s es) (hs : I s) (hr : run step s es = some t) :
    I t := by
  induction es generalizing s with
  | nil =>
    obtain rfl := Option.some.inj hr
    exact hs
  | cons e es ih =>
    obtain ⟨u, hu, hr⟩ := Option.bind_eq_some_iff.mp hr
    obtain ⟨hPs, htail⟩ := throughout_cons.mp hP
    exact ih (htail u hu) (hI s e u hPs hs hu) hr

/-! ### What a state can reach -/

variable (step) in
/-- Some run of events of the kind `E` leads from `s` to `t`. -/
def Leads (E : ε → Prop) (s t : σ) : Prop := ∃ es, (∀ e ∈ es, E e) ∧ run step s es = some t

lemma Leads.refl {E : ε → Prop} (s : σ) : Leads step E s s := ⟨[], by simp, rfl⟩

lemma Leads.trans {E : ε → Prop} {s t u : σ} (h : Leads step E s t) (h' : Leads step E t u) :
    Leads step E s u := by
  obtain ⟨es, hes, hr⟩ := h
  obtain ⟨es', hes', hr'⟩ := h'
  refine ⟨es ++ es', fun e he => ?_, by rw [run_append, hr]; exact hr'⟩
  rcases List.mem_append.mp he with he | he
  · exact hes e he
  · exact hes' e he

lemma Leads.single {E : ε → Prop} {s t : σ} {e : ε} (he : E e) (h : step s e = some t) :
    Leads step E s t := ⟨[e], by simpa using he, by simp [h]⟩

lemma Leads.mono {E F : ε → Prop} {s t : σ} (h : Leads step E s t) (hEF : ∀ e, E e → F e) :
    Leads step F s t := by
  obtain ⟨es, hes, hr⟩ := h
  exact ⟨es, fun e he => hEF e (hes e he), hr⟩

lemma Leads.reach {E : ε → Prop} {init : σ → Prop} {s t : σ} (h : Leads step E s t)
    (hs : Reach step init s) : Reach step init t := by
  obtain ⟨s₀, hi, es₀, hr₀⟩ := hs
  obtain ⟨es, -, hr⟩ := h
  exact ⟨s₀, hi, es₀ ++ es, by rw [run_append, hr₀]; exact hr⟩

/-- **The variant rule**: a handler whose steps are always enabled while a variant is positive,
and lower it, runs until the variant is zero. -/
theorem leads_of_variant {E : ε → Prop} {V : σ → ℕ}
    (hV : ∀ s, V s ≠ 0 → ∃ e t, E e ∧ step s e = some t ∧ V t < V s) (s : σ) :
    ∃ t, Leads step E s t ∧ V t = 0 := by
  generalize hn : V s = n
  induction n using Nat.strongRecOn generalizing s with
  | ind n ih =>
    by_cases h0 : V s = 0
    · exact ⟨s, .refl s, h0⟩
    · obtain ⟨e, t, he, hst, hlt⟩ := hV s h0
      obtain ⟨u, hu, h0⟩ := ih (V t) (hn ▸ hlt) t rfl
      exact ⟨u, (Leads.single he hst).trans hu, h0⟩

end SendspinMc.Lib.Runs
