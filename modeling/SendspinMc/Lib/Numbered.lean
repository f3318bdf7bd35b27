import SendspinMc.Lib.Checks

/-!
Registrations that number the elements of each key by themselves, up to a limit.

What is registered between two elements of a key does not show in their numbers, and the number
of an element is its place among those of its key.
-/

namespace SendspinMc.Lib.Numbered

open SendspinMc.Lib.Checks

universe u v

variable {σ α : Type u} {ε : Type v} {κ : Type*} [DecidableEq κ] {key : α → κ}

/-- The elements with a key. -/
def group (key : α → κ) (k : κ) (xs : List α) : List α := xs.filter (key · = k)

/-- The number of earlier elements with the same key, for each. -/
def ranks (key : α → κ) (done : List α) : List α → List ℕ
  | [] => []
  | x :: xs => (group key (key x) done).length :: ranks key (done ++ [x]) xs

lemma group_append (k : κ) (xs ys : List α) :
    group key k (xs ++ ys) = group key k xs ++ group key k ys := List.filter_append xs ys

lemma group_cons_self (x : α) (xs : List α) :
    group key (key x) (x :: xs) = x :: group key (key x) xs :=
  List.filter_cons_of_pos (by simp)

lemma group_cons_of_ne {k : κ} {x : α} (h : key x ≠ k) (xs : List α) :
    group key k (x :: xs) = group key k xs := List.filter_cons_of_neg (by simpa using h)

lemma length_group_snoc (k : κ) (done : List α) (x : α) :
    (group key k (done ++ [x])).length =
      (group key k done).length + if key x = k then 1 else 0 := by
  rw [group_append, List.length_append]
  congr 1
  split
  · rename_i hk
    rw [← hk, group_cons_self]
    rfl
  · rename_i hk
    rw [group_cons_of_ne hk]
    rfl

lemma ranks_get {done xs : List α} {i : ℕ} {x : α} (h : xs[i]? = some x) :
    (ranks key done xs)[i]? = some (group key (key x) (done ++ xs.take i)).length := by
  induction xs generalizing done i with
  | nil => cases h
  | cons y xs ih =>
    cases i with
    | zero =>
      obtain rfl := Option.some.inj h
      simp [ranks]
    | succ i =>
      rw [ranks, List.getElem?_cons_succ, ih h, List.take_succ_cons, List.append_assoc,
        List.singleton_append]

lemma group_get {xs : List α} {i : ℕ} {x : α} (h : xs[i]? = some x) :
    (group key (key x) xs)[(group key (key x) (xs.take i)).length]? = some x := by
  induction xs generalizing i with
  | nil => cases h
  | cons y xs ih =>
    cases i with
    | zero =>
      obtain rfl := Option.some.inj h
      rw [group_cons_self]
      rfl
    | succ i =>
      rw [List.take_succ_cons]
      by_cases hy : key y = key x
      · rw [← hy, group_cons_self, group_cons_self, List.length_cons, List.getElem?_cons_succ, hy]
        exact ih h
      · rw [group_cons_of_ne hy, group_cons_of_ne hy]
        exact ih h

/-- The numbers of a key go up by one, whatever is between them. -/
theorem ranks_group (k : κ) (done xs : List α) :
    ((xs.zip (ranks key done xs)).filter (key ·.1 = k)).map (·.2) =
      List.range' (group key k done).length (group key k xs).length := by
  induction xs generalizing done with
  | nil => rfl
  | cons x xs ih =>
    rw [ranks, List.zip_cons_cons]
    by_cases hx : key x = k
    · subst hx
      rw [List.filter_cons_of_pos (by simp), List.map_cons, ih, length_group_snoc, if_pos rfl,
        group_cons_self, List.length_cons, List.range'_succ]
    · rw [List.filter_cons_of_neg (by simpa using hx), ih, length_group_snoc, if_neg hx,
        group_cons_of_ne hx, Nat.add_zero]

/-! ### Registering one after the other -/

def registerAll (f : σ → α → Except ε (ℕ × σ)) : σ → List α → Except ε (List ℕ × σ)
  | s, [] => .ok ([], s)
  | s, x :: xs =>
    match f s x with
    | .error e => .error e
    | .ok (n, s) => (registerAll f s xs).map fun (ns, s) => (n :: ns, s)

variable {f : σ → α → Except ε (ℕ × σ)}

lemma registerAll_cons {s t : σ} {x : α} {xs : List α} {ns : List ℕ} :
    registerAll f s (x :: xs) = .ok (ns, t) ↔
      ∃ n u ms, f s x = .ok (n, u) ∧ registerAll f u xs = .ok (ms, t) ∧ ns = n :: ms := by
  rw [registerAll]
  cases f s x with
  | error e => simp
  | ok r =>
    obtain ⟨n, u⟩ := r
    simp only [map_ok, Prod.mk.injEq, Except.ok.injEq]
    constructor
    · rintro ⟨⟨ms, t'⟩, h, rfl, rfl⟩
      exact ⟨n, u, ms, ⟨rfl, rfl⟩, h, rfl⟩
    · rintro ⟨_, _, ms, ⟨rfl, rfl⟩, h, rfl⟩
      exact ⟨(ms, t), h, rfl, rfl⟩

/-- A registration that gives each good element the next number of its key, below a limit;
`holds` says what a state has registered. -/
structure Numbers (f : σ → α → Except ε (ℕ × σ)) (key : α → κ) (good : α → Prop) (limit : ℕ)
    (holds : List α → σ → Prop) : Prop where
  passes : ∀ done s x, holds done s →
    ((∃ r, f s x = .ok r) ↔ good x ∧ (group key (key x) done).length < limit)
  gives : ∀ done s x n t, holds done s → f s x = .ok (n, t) →
    n = (group key (key x) done).length ∧ holds (done ++ [x]) t

variable {good : α → Prop} {limit : ℕ} {holds : List α → σ → Prop}

/-- **The numbers given** are the ranks. -/
theorem Numbers.ranks (h : Numbers f key good limit holds) {done xs : List α} {s t : σ}
    {ns : List ℕ} (hs : holds done s) (hr : registerAll f s xs = .ok (ns, t)) :
    ns = Numbered.ranks key done xs ∧ holds (done ++ xs) t := by
  induction xs generalizing done s ns with
  | nil =>
    obtain ⟨rfl, rfl⟩ := Prod.mk.inj (Except.ok.inj hr)
    exact ⟨rfl, by rwa [List.append_nil]⟩
  | cons x xs ih =>
    obtain ⟨n, u, ms, hx, hxs, rfl⟩ := registerAll_cons.mp hr
    obtain ⟨rfl, hu⟩ := h.gives done s x n u hs hx
    obtain ⟨rfl, ht⟩ := ih hu hxs
    exact ⟨rfl, by rwa [List.append_assoc] at ht⟩

/-- **What is registered**: good elements, up to the limit for each key. -/
theorem Numbers.registers_iff (h : Numbers f key good limit holds) {done xs : List α} {s : σ}
    (hs : holds done s) (hd : ∀ k, (group key k done).length ≤ limit) :
    (∃ r, registerAll f s xs = .ok r) ↔
      (∀ x ∈ xs, good x) ∧ ∀ k, (group key k (done ++ xs)).length ≤ limit := by
  induction xs generalizing done s with
  | nil => exact iff_of_true ⟨([], s), rfl⟩ ⟨by simp, by simpa using hd⟩
  | cons x xs ih =>
    have hcons : done ++ x :: xs = done ++ [x] ++ xs := by simp
    rw [hcons, List.forall_mem_cons]
    constructor
    · rintro ⟨⟨ns, t⟩, hr⟩
      obtain ⟨n, u, ms, hx, hxs, rfl⟩ := registerAll_cons.mp hr
      obtain ⟨hgood, hlt⟩ := (h.passes done s x hs).mp ⟨_, hx⟩
      have hd' : ∀ k, (group key k (done ++ [x])).length ≤ limit := fun k => by
        rw [length_group_snoc]
        split
        · rename_i hk
          rw [← hk]
          exact hlt
        · exact hd k
      obtain ⟨hall, hfit⟩ := (ih (h.gives done s x n u hs hx).2 hd').mp ⟨_, hxs⟩
      exact ⟨⟨hgood, hall⟩, hfit⟩
    · rintro ⟨⟨hgood, hall⟩, hfit⟩
      have hd' : ∀ k, (group key k (done ++ [x])).length ≤ limit := fun k => by
        have hk := hfit k
        rw [group_append, List.length_append] at hk
        omega
      have hlt : (group key (key x) done).length < limit := by
        have hk := hd' (key x)
        rw [length_group_snoc, if_pos rfl] at hk
        omega
      obtain ⟨⟨n, u⟩, hx⟩ := (h.passes done s x hs).mpr ⟨hgood, hlt⟩
      obtain ⟨⟨ms, t⟩, hxs⟩ := (ih (h.gives done s x n u hs hx).2 hd').mpr ⟨hall, hfit⟩
      exact ⟨_, registerAll_cons.mpr ⟨n, u, ms, hx, hxs, rfl⟩⟩

end SendspinMc.Lib.Numbered
