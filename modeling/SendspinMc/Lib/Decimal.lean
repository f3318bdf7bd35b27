import Mathlib.Tactic.Common

/-!
Decimal digits as a number is written.

A word of digits has one value; a value has one word of digits in which no zero stands in front
of other digits.
-/

namespace SendspinMc.Lib.Decimal

def Digits (ds : List Char) : Prop := ∀ c ∈ ds, c.isDigit = true

/-- The number a word of digits stands for. -/
abbrev value (ds : List Char) : ℕ := Nat.ofDigitChars 10 ds 0

/-- Digits, and no zero in front of others. -/
structure Canonical (ds : List Char) : Prop where
  digits : Digits ds
  ne_nil : ds ≠ []
  lead : ∀ t, ds = '0' :: t → t = []

lemma toNat_digit {c : Char} (h : c.isDigit = true) : 48 ≤ c.toNat ∧ c.toNat ≤ 57 := by
  simp only [Char.isDigit, Bool.and_eq_true, decide_eq_true_eq] at h
  exact h

lemma digit_lt {c : Char} (h : c.isDigit = true) : c.toNat - '0'.toNat < 10 := by
  have hzero : '0'.toNat = 48 := rfl
  have := toNat_digit h
  omega

lemma digitChar_toNat_sub {c : Char} (h : c.isDigit = true) :
    (c.toNat - '0'.toNat).digitChar = c := by
  have hnat : ∀ k < 10, k.digitChar.toNat = k + 48 := by decide
  have hzero : '0'.toNat = 48 := rfl
  obtain ⟨hlo, hhi⟩ := toNat_digit h
  refine Char.toNat_inj.mp ?_
  rw [hnat _ (by omega)]
  omega

lemma canonical_toDigits (n : ℕ) : Canonical (Nat.toDigits 10 n) := by
  refine ⟨fun _ hc => Nat.isDigit_of_mem_toDigits (by decide) (by decide) hc,
    Nat.toDigits_ne_nil, ?_⟩
  induction n using Nat.strongRecOn with
  | ind n ih =>
    intro t ht
    by_cases hn : n < 10
    · rw [Nat.toDigits_of_lt_base hn] at ht
      exact (List.cons.inj ht).2.symm
    · -- the digits in front are those of a smaller number, which is not zero
      rw [Nat.toDigits_of_base_le (by decide) (Nat.not_lt.mp hn)] at ht
      obtain ⟨c, cs, hcs⟩ := List.exists_cons_of_ne_nil (Nat.toDigits_ne_nil (n := n / 10) (b := 10))
      rw [hcs, List.cons_append] at ht
      obtain ⟨rfl, -⟩ := List.cons.inj ht
      have hnil : cs = [] := ih (n / 10) (Nat.div_lt_self (by omega) (by decide)) cs hcs
      have hval : value (Nat.toDigits 10 (n / 10)) = n / 10 := Nat.ofDigitChars_ten_toDigits
      rw [hcs, hnil] at hval
      have hpos : 0 < n / 10 := Nat.div_pos (Nat.not_lt.mp hn) (by decide)
      have hzero : value ['0'] = 0 := rfl
      omega

lemma toDigits_append {acc : ℕ} (hacc : 0 < acc) {ds : List Char} (hd : Digits ds) :
    Nat.toDigits 10 acc ++ ds = Nat.toDigits 10 (Nat.ofDigitChars 10 ds acc) := by
  induction ds generalizing acc with
  | nil => rw [List.append_nil, Nat.ofDigitChars_nil]
  | cons c cs ih =>
    have hc : c.isDigit = true := hd c (by simp)
    have hlt := digit_lt hc
    have hone : Nat.toDigits 10 (c.toNat - '0'.toNat) = [c] := by
      rw [Nat.toDigits_of_lt_base hlt, digitChar_toNat_sub hc]
    calc Nat.toDigits 10 acc ++ c :: cs
        = Nat.toDigits 10 acc ++ Nat.toDigits 10 (c.toNat - '0'.toNat) ++ cs := by rw [hone]; simp
      _ = Nat.toDigits 10 (10 * acc + (c.toNat - '0'.toNat)) ++ cs := by
        rw [Nat.toDigits_append_toDigits (by decide) hacc hlt]
      _ = Nat.toDigits 10 (Nat.ofDigitChars 10 (c :: cs) acc) := by
        rw [ih (by omega) fun x hx => hd x (List.mem_cons_of_mem c hx), Nat.ofDigitChars_cons]

/-- **One word for a value**: canonical digits are those of their value. -/
theorem toDigits_value {ds : List Char} (h : Canonical ds) : Nat.toDigits 10 (value ds) = ds := by
  obtain ⟨hd, hne, hlead⟩ := h
  obtain ⟨c, cs, rfl⟩ := List.exists_cons_of_ne_nil hne
  have hc : c.isDigit = true := hd c (by simp)
  have hcs : Digits cs := fun x hx => hd x (List.mem_cons_of_mem c hx)
  have hone : Nat.toDigits 10 (c.toNat - '0'.toNat) = [c] := by
    rw [Nat.toDigits_of_lt_base (digit_lt hc), digitChar_toNat_sub hc]
  rw [value, Nat.ofDigitChars_cons, Nat.mul_zero, Nat.zero_add]
  by_cases h0 : c = '0'
  · subst h0
    obtain rfl := hlead cs rfl
    rfl
  · have hpos : 0 < c.toNat - '0'.toNat := by
      have hzero : '0'.toNat = 48 := rfl
      have hne' : c.toNat ≠ '0'.toNat := fun h => h0 (Char.toNat_inj.mp h)
      have := toNat_digit hc
      omega
    rw [← toDigits_append hpos hcs, hone]
    rfl

lemma canonical_or_lead {ds : List Char} (hd : Digits ds) (hne : ds ≠ []) :
    Canonical ds ∨ ∃ t, t ≠ [] ∧ ds = '0' :: t := by
  by_cases h : ∃ t, t ≠ [] ∧ ds = '0' :: t
  · exact .inr h
  · refine .inl ⟨hd, hne, fun t ht => ?_⟩
    by_contra hn
    exact h ⟨t, hn, ht⟩

end SendspinMc.Lib.Decimal
