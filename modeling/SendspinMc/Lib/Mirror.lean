import Mathlib.Data.List.Chain
import Mathlib.Tactic.Common

/-!
A value that is published when it changes.

Every event makes a new value of the one that is held. What is published is the history of the
value without the repeats.
-/

namespace SendspinMc.Lib.Mirror

/-- The value, and those that were published, newest first. -/
structure Entity (α : Type*) where
  raw : α
  published : List α

variable {α ε : Type*}

def Entity.new (init : α) : Entity α := ⟨init, []⟩

def Entity.publish (m : Entity α) (v : α) : Entity α := ⟨v, v :: m.published⟩

variable [DecidableEq α]

/-- Publishes a value that is new. -/
def Entity.set (m : Entity α) (v : α) : Entity α := if v = m.raw then m else m.publish v

@[simp] lemma set_raw (m : Entity α) (v : α) : (m.set v).raw = v := by
  unfold Entity.set
  split
  · rename_i h; exact h.symm
  · rfl

lemma set_published (m : Entity α) (v : α) :
    (m.set v).published = if v = m.raw then m.published else v :: m.published := by
  unfold Entity.set
  split <;> rfl

lemma set_of_iff {m : Entity α} {v : α} {c : Prop} [Decidable c] (h : c ↔ v = m.raw) :
    (if c then m else m.publish v) = m.set v := if_congr h rfl rfl

lemma set_of_not_iff {m : Entity α} {v : α} {c : Prop} [Decidable c] (h : c ↔ v ≠ m.raw) :
    (if c then m.publish v else m) = m.set v := by
  rw [← set_of_iff (c := ¬ c) (by rw [h, not_not]), ite_not]

/-- On events of the kind `E`, a step sets the value to the next one. -/
def Follows (E : ε → Prop) (step : Entity α → ε → Entity α) (next : α → ε → α) : Prop :=
  ∀ m e, E e → step m e = m.set (next m.raw e)

variable {E : ε → Prop} {step : Entity α → ε → Entity α} {next : α → ε → α}

lemma Follows.raw (h : Follows E step next) {es : List ε} (hE : ∀ e ∈ es, E e) (m : Entity α) :
    (es.foldl step m).raw = es.foldl next m.raw := by
  induction es generalizing m with
  | nil => rfl
  | cons e es ih =>
    obtain ⟨he, hes⟩ := List.forall_mem_cons.mp hE
    rw [List.foldl_cons, List.foldl_cons, ih hes, h m e he, set_raw]

lemma Follows.published (h : Follows E step next) {e : ε} (he : E e) (es : List ε)
    (m : Entity α) :
    ((es ++ [e]).foldl step m).published =
      if next (es.foldl step m).raw e = (es.foldl step m).raw then (es.foldl step m).published
      else next (es.foldl step m).raw e :: (es.foldl step m).published := by
  rw [List.foldl_append, List.foldl_cons, List.foldl_nil, h _ e he, set_published]

/-- The published values and the first one behind them: no two neighbours are equal, and the
newest is the one that is held. -/
def Entity.Fresh (init : α) (m : Entity α) : Prop :=
  (m.published ++ [init]).IsChain (· ≠ ·) ∧ (m.published ++ [init]).head? = some m.raw

omit [DecidableEq α] in
lemma fresh_new (init : α) : (Entity.new init).Fresh init := ⟨List.isChain_singleton init, rfl⟩

lemma Entity.Fresh.set {init : α} {m : Entity α} (h : m.Fresh init) (v : α) :
    (m.set v).Fresh init := by
  unfold Entity.set
  split
  · exact h
  · rename_i hne
    refine ⟨?_, rfl⟩
    obtain ⟨hchain, hhead⟩ := h
    refine List.IsChain.cons hchain fun y hy => ?_
    obtain rfl : m.raw = y := by
      have := hhead.symm.trans hy
      exact Option.some.inj this
    exact hne

/-- **Only changes are published**: of the published values, no two in a row are equal. -/
theorem Follows.fresh (h : Follows E step next) {es : List ε} (hE : ∀ e ∈ es, E e) {init : α}
    {m : Entity α} (hm : m.Fresh init) : (es.foldl step m).Fresh init := by
  induction es generalizing m with
  | nil => exact hm
  | cons e es ih =>
    obtain ⟨he, hes⟩ := List.forall_mem_cons.mp hE
    rw [List.foldl_cons, h m e he]
    exact ih hes (hm.set _)

omit [DecidableEq α] in
lemma Entity.Fresh.distinct {init : α} {m : Entity α} (h : m.Fresh init) :
    m.published.IsChain (· ≠ ·) := h.1.left_of_append

lemma Follows.silent (h : Follows E step next) {es : List ε} (hE : ∀ e ∈ es, E e)
    {m : Entity α} (hn : ∀ e ∈ es, next m.raw e = m.raw) : es.foldl step m = m := by
  induction es with
  | nil => rfl
  | cons e es ih =>
    obtain ⟨he, hes⟩ := List.forall_mem_cons.mp hE
    obtain ⟨hne, hnes⟩ := List.forall_mem_cons.mp hn
    rw [List.foldl_cons, h m e he, hne, Entity.set, if_pos rfl]
    exact ih hes hnes

/-! ### Values of the events alone -/

/-- A mirror of what the events say, starting from nothing: it holds what the latest event says,
publishes an event exactly if it says something else than is held, publishes no value twice in a
row, and nothing before an event says something. -/
structure Mirrors (E : ε → Prop) (step : Entity α → ε → Entity α) (project : ε → α) (init : α) :
    Prop where
  latest : ∀ (es : List ε) (e : ε), (∀ x ∈ es ++ [e], E x) →
    ((es ++ [e]).foldl step (.new init)).raw = project e
  changes : ∀ (es : List ε) (e : ε), (∀ x ∈ es ++ [e], E x) →
    ((es ++ [e]).foldl step (.new init)).published =
      if project e = (es.foldl step (.new init)).raw then (es.foldl step (.new init)).published
      else project e :: (es.foldl step (.new init)).published
  distinct : ∀ es : List ε, (∀ x ∈ es, E x) → (es.foldl step (.new init)).published.IsChain (· ≠ ·)
  silent : ∀ es : List ε, (∀ x ∈ es, E x) → (∀ e ∈ es, project e = init) →
    (es.foldl step (.new init)).published = []

theorem Follows.mirrors {project : ε → α} (h : Follows E step fun _ => project) (init : α) :
    Mirrors E step project init where
  latest es e hE := by rw [h.raw hE, List.foldl_append]; rfl
  changes es e hE := h.published (hE e (by simp)) es _
  distinct es hE := (h.fresh hE (fresh_new init)).distinct
  silent es hE hn := by rw [h.silent hE hn]; rfl

end SendspinMc.Lib.Mirror
