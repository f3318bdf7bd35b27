import SendspinMc.Lib.Rounding

/-!
The accuracy of `Float32`: sums, differences, products and quotients of finite numbers are within
half a unit in the last place of the exact result, and comparisons are exact.
-/

namespace SendspinMc.Lib.Binary32

open Float.Model Float.Model.UnpackedFloat SendspinMc.Lib.Rounding

/-! ### Sums, differences and products -/

lemma err_nonneg (x : ℚ) : 0 ≤ err x := le_max_of_le_right (two_zpow_pos _).le

lemma sgn_cases (s : Sign) : sgn s = 1 ∨ sgn s = -1 := by
  cases s <;> simp [sgn]

lemma abs_sgn_mul (s : Sign) (x : ℚ) : |sgn s * x| = |x| := by
  rcases sgn_cases s with h | h <;> simp [h]

lemma err_sgn_mul (s : Sign) (x : ℚ) : err (sgn s * x) = err x := by
  rw [err, err, abs_sgn_mul]

lemma accurate_sgn {q x : ℚ} (s : Sign) (h : |q - x| ≤ err x) :
    |sgn s * q - sgn s * x| ≤ err (sgn s * x) := by
  rwa [← mul_sub, abs_sgn_mul, err_sgn_mul]

/-- Some finite float is within the error of `x`. -/
def Accurate (u : UnpackedFloat) (x : ℚ) : Prop := Tidy u ∧ ∃ c, value u = some c ∧ |c - x| ≤ err x

lemma accurate_exact {u : UnpackedFloat} {x : ℚ} (h : Tidy u) (hv : value u = some x) :
    Accurate u x := ⟨h, x, hv, by simpa using err_nonneg x⟩

lemma log2_shiftLeft {m : ℕ} (hm : 0 < m) (k : ℕ) : (m <<< k).log2 = m.log2 + k := by
  have h := Nat.log2_self_le hm.ne'
  have h' : m < 2 ^ (m.log2 + 1) := Nat.lt_log2_self
  refine (Nat.log2_eq_iff (by rw [Nat.shiftLeft_eq]; positivity)).mpr ⟨?_, ?_⟩
  · rw [Nat.shiftLeft_eq, pow_add]
    exact Nat.mul_le_mul_right _ h
  · rw [Nat.shiftLeft_eq, show m.log2 + k + 1 = (m.log2 + 1) + k by ring, pow_add]
    exact Nat.mul_lt_mul_of_pos_right h' (by positivity)

lemma shiftLeft_value (m : ℕ) (e : ℤ) (k : ℕ) :
    ((m <<< k : ℕ) : ℚ) * 2 ^ (e - k) = m * 2 ^ e := by
  rw [Nat.shiftLeft_eq, zpow_sub₀ two_ne_zero]
  push_cast
  rw [zpow_natCast]
  field_simp

lemma accurate_round {m : ℕ} {e : ℤ} (s : Sign) (hm : 0 < m)
    (hx : (m : ℚ) * 2 ^ e < 2 ^ (127 : ℤ)) :
    Accurate (round Format.binary32 s m e) (sgn s * (m * 2 ^ e)) := by
  obtain ⟨k, hk⟩ : ∃ k, k = (e - place m e).toNat := ⟨_, rfl⟩
  have heq : round Format.binary32 s m e =
      roundWithAccuracy Format.binary32 s (m <<< k) (e - k) .exact := by
    rw [hk]
    rfl
  have hpl : place (m <<< k) (e - k) = place m e := by
    rw [place_eq, place_eq, log2_shiftLeft hm]
    push_cast
    ring_nf
  have hv := shiftLeft_value m e k
  have hst : Stands (.ofMantissaAndAccuracy (m <<< k) .exact) ((m <<< k : ℕ) : ℚ) := rfl
  obtain ⟨ht, q, hq, herr⟩ := round_accurate (e := e - k) s
    (by rw [Nat.shiftLeft_eq]; positivity) hst (by rw [hpl]; omega) (by rwa [hv])
  rw [hv] at herr
  rw [heq]
  exact ⟨ht, _, hq, accurate_sgn s herr⟩

lemma accurate_normalize {n : ℤ} {e : ℤ} {z : Sign} (hx : |(n : ℚ) * 2 ^ e| < 2 ^ (127 : ℤ)) :
    Accurate (UnpackedFloat.normalize Format.binary32 n e z) (n * 2 ^ e) := by
  have hp := two_zpow_pos e
  rw [UnpackedFloat.normalize]
  rw [abs_mul, abs_of_pos hp] at hx
  split
  · rename_i h
    have hn : n < 0 := by simpa [compare_lt_iff_lt] using h
    have hcast : (((-n).toNat : ℕ) : ℚ) = -n := by
      rw [← Int.cast_natCast, Int.toNat_of_nonneg (by omega)]
      push_cast
      ring
    have hacc := accurate_round (m := (-n).toNat) (e := e) .negative (by omega)
      (by rwa [hcast, ← abs_of_neg (by exact_mod_cast hn : (n : ℚ) < 0)])
    rw [hcast] at hacc
    simpa [sgn] using hacc
  · rename_i h
    obtain rfl : n = 0 := by simpa using h
    exact accurate_exact (.zero z) (by simp [value])
  · rename_i h
    have hn : 0 < n := by simpa [compare_gt_iff_gt] using h
    have hcast : ((n.toNat : ℕ) : ℚ) = n := by
      rw [← Int.cast_natCast, Int.toNat_of_nonneg (by omega)]
    have hacc := accurate_round (m := n.toNat) (e := e) .positive (by omega)
      (by rwa [hcast, ← abs_of_pos (by exact_mod_cast hn : (0 : ℚ) < n)])
    rw [hcast] at hacc
    simpa [sgn] using hacc

lemma sgn_neg (s : Sign) : sgn (-s) = -sgn s := by
  cases s
  · exact (neg_neg (1 : ℚ)).symm
  · rfl

lemma sgn_mul (s t : Sign) : sgn (s * t) = sgn s * sgn t := by
  cases s <;> cases t
  · exact (by norm_num : (1 : ℚ) = -1 * -1)
  · exact (mul_one (-1 : ℚ)).symm
  · exact (one_mul (-1 : ℚ)).symm
  · exact (one_mul (1 : ℚ)).symm

lemma place_mul {m n : ℕ} {e f : ℤ} (hm : 0 < m) (hn : 0 < n) (h : Stored m e) (h' : Stored n f) :
    e + f ≤ place (m * n) (e + f) := by
  rw [place_eq]
  have hlow := h.low
  have hlow' := h'.low
  rcases h.normal with he | hge
  · rcases h'.normal with hf | hge'
    · omega
    · have hlog : 23 ≤ (m * n).log2 :=
        (Nat.le_log2 (by positivity)).mpr (hge'.trans (Nat.le_mul_of_pos_left n hm))
      omega
  · have hlog : 23 ≤ (m * n).log2 :=
      (Nat.le_log2 (by positivity)).mpr (hge.trans (Nat.le_mul_of_pos_right m hn))
    omega

lemma accurate_mul {u v : UnpackedFloat} {a b : ℚ} (hu : Tidy u) (hv : Tidy v)
    (ha : value u = some a) (hb : value v = some b) (hx : |a * b| < 2 ^ (127 : ℤ)) :
    Accurate (mul Format.binary32 u v) (a * b) := by
  cases hu with
  | zero s =>
    obtain rfl : 0 = a := by simpa [value] using ha
    cases hv with
    | zero t | finite t n f hn hs hf =>
      rw [zero_mul]
      exact accurate_exact (.zero _) rfl
  | finite s m e hm hs hh =>
    cases hv with
    | zero t =>
      obtain rfl : 0 = b := by simpa [value] using hb
      rw [mul_zero]
      exact accurate_exact (.zero _) rfl
    | finite t n f hn hs' hh' =>
      obtain rfl := Option.some.inj ha
      obtain rfl := Option.some.inj hb
      have hsplit : sgn s * (m * 2 ^ e) * (sgn t * (n * 2 ^ f)) =
          sgn (s * t) * (((m * n : ℕ) : ℚ) * 2 ^ (e + f)) := by
        rw [sgn_mul, zpow_add₀ two_ne_zero]
        push_cast
        ring
      rw [hsplit] at hx ⊢
      rw [abs_sgn_mul, abs_of_nonneg (mul_nonneg (Nat.cast_nonneg _) (two_zpow_pos _).le)] at hx
      have hst : Stands (.ofMantissaAndAccuracy (m * n) .exact) ((m * n : ℕ) : ℚ) := rfl
      obtain ⟨ht, q, hq, herr⟩ := round_accurate (s * t) (Nat.mul_pos hm hn) hst
        (place_mul hm hn hs hs') hx
      exact ⟨ht, _, hq, accurate_sgn _ herr⟩

lemma aligned (s : Sign) (m : ℕ) (e f : ℤ) :
    (s.apply ((decreaseExponent m e (min e f)).1 : ℕ) : ℚ) * 2 ^ min e f =
      sgn s * (m * 2 ^ e) := by
  have hmin : min e f = e - ((e - min e f).toNat : ℕ) := by omega
  rw [apply_eq, mul_assoc]
  congr 1
  show ((m <<< (e - min e f).toNat : ℕ) : ℤ) * (2 : ℚ) ^ min e f = _
  nth_rewrite 2 [hmin]
  rw [Int.cast_natCast]
  exact shiftLeft_value m e _

lemma accurate_add {u v : UnpackedFloat} {a b : ℚ} (hu : Tidy u) (hv : Tidy v)
    (ha : value u = some a) (hb : value v = some b) (hx : |a + b| < 2 ^ (127 : ℤ)) :
    Accurate (add Format.binary32 u v) (a + b) := by
  cases hu with
  | zero s =>
    obtain rfl : 0 = a := by simpa [value] using ha
    cases hv with
    | zero t =>
      obtain rfl : 0 = b := by simpa [value] using hb
      have hz : ∃ z, add Format.binary32 (.zero s) (.zero t) = .zero z := by
        cases s <;> cases t <;> exact ⟨_, rfl⟩
      obtain ⟨z, hz⟩ := hz
      rw [hz]
      exact accurate_exact (.zero z) (by simp [value])
    | finite t n f hn hs hf =>
      exact accurate_exact (.finite t n f hn hs hf) (by rw [zero_add]; exact hb)
  | finite s m e hm hs hh =>
    cases hv with
    | zero t =>
      obtain rfl : 0 = b := by simpa [value] using hb
      exact accurate_exact (.finite s m e hm hs hh) (by rw [add_zero]; exact ha)
    | finite t n f hn hs' hh' =>
      obtain rfl := Option.some.inj ha
      obtain rfl := Option.some.inj hb
      have hsum := congrArg₂ (· + ·) (aligned s m e f) (min_comm e f ▸ aligned t n f e)
      rw [← add_mul, ← Int.cast_add] at hsum
      rw [← hsum] at hx ⊢
      exact accurate_normalize hx

lemma accurate_sub {u v : UnpackedFloat} {a b : ℚ} (hu : Tidy u) (hv : Tidy v)
    (ha : value u = some a) (hb : value v = some b) (hx : |a - b| < 2 ^ (127 : ℤ)) :
    Accurate (sub Format.binary32 u v) (a - b) := by
  cases hu with
  | zero s =>
    obtain rfl : 0 = a := by simpa [value] using ha
    cases hv with
    | zero t =>
      obtain rfl : 0 = b := by simpa [value] using hb
      have hz : ∃ z, sub Format.binary32 (.zero s) (.zero t) = .zero z := by
        cases s <;> cases t <;> exact ⟨_, rfl⟩
      obtain ⟨z, hz⟩ := hz
      rw [hz]
      exact accurate_exact (.zero z) (by simp [value])
    | finite t n f hn hs hf =>
      obtain rfl := Option.some.inj hb
      refine accurate_exact (.finite (-t) n f hn hs hf) ?_
      show some (sgn (-t) * _) = some (0 - sgn t * _)
      rw [sgn_neg, neg_mul, zero_sub]
  | finite s m e hm hs hh =>
    cases hv with
    | zero t =>
      obtain rfl : 0 = b := by simpa [value] using hb
      exact accurate_exact (.finite s m e hm hs hh) (by rw [sub_zero]; exact ha)
    | finite t n f hn hs' hh' =>
      obtain rfl := Option.some.inj ha
      obtain rfl := Option.some.inj hb
      have hdiff := congrArg₂ (· - ·) (aligned s m e f) (min_comm e f ▸ aligned t n f e)
      rw [← sub_mul, ← Int.cast_sub] at hdiff
      rw [← hdiff] at hx ⊢
      exact accurate_normalize hx

/-! ### Quotients -/

lemma stands_div (m : ℕ) {n : ℕ} (hn : 0 < n) :
    Stands (.ofMantissaAndAccuracy (m / n) (accuracyOfFraction (m % n) n)) ((m : ℚ) / n) := by
  have hn' : (0 : ℚ) < n := by exact_mod_cast hn
  have hm : (m : ℚ) / n = (m / n : ℕ) + (m % n : ℕ) / n := by
    rw [eq_comm, ← eq_sub_iff_add_eq, ← mul_right_inj' hn'.ne']
    have hdiv : (m : ℚ) = n * (m / n : ℕ) + (m % n : ℕ) := by
      exact_mod_cast (Nat.div_add_mod m n).symm
    field_simp
    linarith
  have hlt : ((m % n : ℕ) : ℚ) < n := by exact_mod_cast Nat.mod_lt m hn
  rw [hm]
  unfold accuracyOfFraction
  by_cases h0 : m % n = 0
  · simp [h0, ExtendedMantissa.ofMantissaAndAccuracy, Stands]
  rw [if_neg h0]
  have hpos : (0 : ℚ) < (m % n : ℕ) / n := by
    have : 0 < m % n := Nat.pos_of_ne_zero h0
    positivity
  have hone : ((m % n : ℕ) : ℚ) / n < 1 := (div_lt_one hn').mpr hlt
  rcases lt_trichotomy (2 * (m % n)) n with hc | hc | hc
  · rw [compare_lt_iff_lt.mpr hc]
    have hhalf : ((m % n : ℕ) : ℚ) / n < 1 / 2 := by
      rw [div_lt_div_iff₀ hn' two_pos]
      have : (2 * (m % n : ℕ) : ℚ) < n := by exact_mod_cast hc
      linarith
    constructor <;> linarith
  · rw [compare_eq_iff_eq.mpr hc]
    have hhalf : ((m % n : ℕ) : ℚ) / n = 1 / 2 := by
      rw [div_eq_div_iff hn'.ne' two_ne_zero]
      have : (2 * (m % n : ℕ) : ℚ) = n := by exact_mod_cast hc
      linarith
    show _ = _
    rw [hhalf]
  · rw [compare_gt_iff_gt.mpr hc]
    have hhalf : 1 / 2 < ((m % n : ℕ) : ℚ) / n := by
      rw [div_lt_div_iff₀ two_pos hn']
      have : (n : ℚ) < 2 * (m % n : ℕ) := by exact_mod_cast hc
      linarith
    constructor <;> linarith

lemma log2_div {m n k : ℕ} (hm : 0 < m) (hn : 0 < n) (hk : n.log2 + 1 ≤ m.log2 + k) :
    0 < (m <<< k) / n ∧ m.log2 + k ≤ ((m <<< k) / n).log2 + n.log2 + 1 := by
  have hge : 2 ^ (m.log2 + k) ≤ m <<< k := by
    rw [Nat.shiftLeft_eq, pow_add]
    exact Nat.mul_le_mul_right _ (Nat.log2_self_le hm.ne')
  have hlt : n < 2 ^ (n.log2 + 1) := Nat.lt_log2_self
  obtain ⟨d, hd⟩ := Nat.exists_eq_add_of_le hk
  have hle : 2 ^ d ≤ (m <<< k) / n := by
    rw [Nat.le_div_iff_mul_le hn]
    refine le_trans ?_ hge
    rw [hd, add_comm, pow_add]
    exact Nat.mul_le_mul_left _ hlt.le
  have hpos : 0 < (m <<< k) / n := lt_of_lt_of_le (by positivity) hle
  have := (Nat.le_log2 hpos.ne').mpr hle
  exact ⟨hpos, by omega⟩

lemma sgn_div (s t : Sign) : sgn (s / t) = sgn s / sgn t := by
  cases s <;> cases t
  · exact (by norm_num : (1 : ℚ) = -1 / -1)
  · exact (by norm_num : (-1 : ℚ) = -1 / 1)
  · exact (by norm_num : (-1 : ℚ) = 1 / -1)
  · exact (by norm_num : (1 : ℚ) = 1 / 1)

lemma accurate_div {u v : UnpackedFloat} {a b : ℚ} (hu : Tidy u) (hv : Tidy v)
    (ha : value u = some a) (hb : value v = some b) (hb0 : b ≠ 0)
    (hlow : a ≠ 0 → 2 ^ (-126 : ℤ) ≤ |a / b|) (hx : |a / b| < 2 ^ (127 : ℤ)) :
    Accurate (div Format.binary32 u v) (a / b) := by
  cases hv with
  | zero t =>
    obtain rfl : 0 = b := by simpa [value] using hb
    exact absurd rfl hb0
  | finite t n f hn hs' hh' =>
    cases hu with
    | zero s =>
      obtain rfl : 0 = a := by simpa [value] using ha
      rw [zero_div]
      exact accurate_exact (.zero _) rfl
    | finite s m e hm hs hh =>
      obtain rfl := Option.some.inj ha
      obtain rfl := Option.some.inj hb
      have hpm := finite_pos hm e
      have hpn := finite_pos hn f
      have hsplit : sgn s * (m * 2 ^ e) / (sgn t * (n * 2 ^ f)) =
          sgn (s / t) * (m * 2 ^ e / (n * 2 ^ f)) := by
        rw [sgn_div, mul_div_mul_comm]
      have ha0 : sgn s * (m * 2 ^ e) ≠ 0 :=
        mul_ne_zero (by rcases sgn_cases s with h | h <;> simp [h]) hpm.ne'
      have hlow := hlow ha0
      rw [hsplit] at hlow hx ⊢
      rw [abs_sgn_mul, abs_of_pos (div_pos hpm hpn)] at hlow hx
      -- the exponent of the quotient, from those of its sides
      obtain ⟨d, hd⟩ : ∃ d, d = totalExponent m e - totalExponent n f := ⟨_, rfl⟩
      have hdl : -148 ≤ d := by
        have hmlt : (m : ℚ) < 2 ^ ((m.log2 : ℤ) + 1) := by
          exact_mod_cast (Nat.lt_log2_self : m < 2 ^ (m.log2 + 1))
        have hnle : (2 : ℚ) ^ (n.log2 : ℤ) ≤ n := by exact_mod_cast Nat.log2_self_le hn.ne'
        have hlt : (2 : ℚ) ^ (-126 : ℤ) < 2 ^ (d + 1) := by
          refine hlow.trans_lt ?_
          rw [div_lt_iff₀ hpn]
          calc (m : ℚ) * 2 ^ e < 2 ^ ((m.log2 : ℤ) + 1) * 2 ^ e :=
                mul_lt_mul_of_pos_right hmlt (two_zpow_pos e)
            _ = 2 ^ (d + 1) * (2 ^ (n.log2 : ℤ) * 2 ^ f) := by
                rw [← zpow_add₀ two_ne_zero, ← zpow_add₀ two_ne_zero, ← zpow_add₀ two_ne_zero, hd,
                  totalExponent, totalExponent]
                congr 1
                ring
            _ ≤ 2 ^ (d + 1) * (n * 2 ^ f) := by
                have := two_zpow_pos (d + 1)
                have := two_zpow_pos f
                gcongr
        have := (zpow_lt_zpow_iff_right₀ (one_lt_two (α := ℚ))).mp hlt
        omega
      obtain ⟨g, hg⟩ : ∃ g, g = min (e - f) (Format.binary32.targetExponent d) := ⟨_, rfl⟩
      obtain ⟨k, hk⟩ : ∃ k, k = (e - f - g).toNat := ⟨_, rfl⟩
      have heq : div Format.binary32 (.finite s m e hm) (.finite t n f hn) =
          roundWithAccuracy Format.binary32 (s / t) ((m <<< k) / n) g
            (accuracyOfFraction ((m <<< k) % n) n) := by
        rw [hk, hg, hd]
        rfl
      rw [targetExponent_eq] at hg
      rw [totalExponent, totalExponent] at hd
      obtain ⟨hpos, hlog⟩ := log2_div (k := k) hm hn (by omega)
      have hval : ((m <<< k : ℕ) : ℚ) / n * 2 ^ g = m * 2 ^ e / (n * 2 ^ f) := by
        have hge : g = e - f - (k : ℕ) := by omega
        have hn' : (n : ℚ) ≠ 0 := by exact_mod_cast hn.ne'
        rw [hge, div_mul_eq_mul_div, shiftLeft_value, zpow_sub₀ two_ne_zero, ← mul_div_assoc,
          div_div, mul_comm ((2 : ℚ) ^ f)]
      obtain ⟨ht, q, hq, herr⟩ := round_accurate (e := g) (s / t) hpos (stands_div (m <<< k) hn)
        (by rw [place_eq]; omega) (by rwa [hval])
      rw [hval] at herr
      rw [heq]
      exact ⟨ht, _, hq, accurate_sgn _ herr⟩

/-! ### Comparisons -/

lemma lt_of_exponent {m n : ℕ} {e f : ℤ} (h : Stored m e) (h' : Stored n f) (hef : e < f) :
    (m : ℚ) * 2 ^ e < n * 2 ^ f := by
  have hn : 2 ^ 23 ≤ n := h'.normal.resolve_left (by have := h.low; omega)
  have hm : (m : ℚ) < 2 ^ (24 : ℤ) := by exact_mod_cast h.lt
  calc (m : ℚ) * 2 ^ e < 2 ^ (24 : ℤ) * 2 ^ e := mul_lt_mul_of_pos_right hm (two_zpow_pos e)
    _ = 2 ^ (23 : ℤ) * 2 ^ (e + 1) := by
        rw [← zpow_add₀ two_ne_zero, ← zpow_add₀ two_ne_zero]
        congr 1
        ring
    _ ≤ 2 ^ (23 : ℤ) * 2 ^ f := by
        have := two_zpow_pos 23
        gcongr
        · norm_num
        · omega
    _ ≤ n * 2 ^ f := by
        have := two_zpow_pos f
        gcongr
        exact_mod_cast hn

lemma compare_stored {m n : ℕ} {e f : ℤ} (h : Stored m e) (h' : Stored n f) :
    (compare e f).then (compare m n) = compare ((m : ℚ) * 2 ^ e) (n * 2 ^ f) := by
  rcases lt_trichotomy e f with hef | rfl | hef
  · rw [compare_lt_iff_lt.mpr hef, compare_lt_iff_lt.mpr (lt_of_exponent h h' hef)]
    rfl
  · rw [compare_eq_iff_eq.mpr rfl, Ordering.eq_then]
    have hp := two_zpow_pos e
    rcases lt_trichotomy m n with hmn | rfl | hmn
    · rw [compare_lt_iff_lt.mpr hmn, compare_lt_iff_lt.mpr]
      exact mul_lt_mul_of_pos_right (by exact_mod_cast hmn) hp
    · rw [compare_eq_iff_eq.mpr rfl, compare_eq_iff_eq.mpr rfl]
    · rw [compare_gt_iff_gt.mpr hmn, compare_gt_iff_gt.mpr]
      exact mul_lt_mul_of_pos_right (by exact_mod_cast hmn) hp
  · rw [compare_gt_iff_gt.mpr hef, compare_gt_iff_gt.mpr (lt_of_exponent h' h hef)]
    rfl

lemma compare_value {u v : UnpackedFloat} (hu : Tidy u) (hv : Tidy v) (ha : value u = some a)
    (hb : value v = some b) : u.compare v = some (compare a b) := by
  cases hu with
  | zero s =>
    obtain rfl : 0 = a := by simpa [value] using ha
    cases hv with
    | zero t =>
      obtain rfl : 0 = b := by simpa [value] using hb
      rfl
    | finite t n f hn hs hf =>
      obtain rfl := Option.some.inj hb
      have hp := finite_pos hn f
      cases t with
      | negative =>
        rw [compare_gt_iff_gt.mpr (by simpa [sgn] using hp)]
        rfl
      | positive =>
        rw [compare_lt_iff_lt.mpr (by simpa [sgn] using hp)]
        rfl
  | finite s m e hm hs hh =>
    obtain rfl := Option.some.inj ha
    have hp := finite_pos hm e
    cases hv with
    | zero t =>
      obtain rfl : 0 = b := by simpa [value] using hb
      cases s with
      | negative =>
        rw [compare_lt_iff_lt.mpr (by simpa [sgn] using hp)]
        rfl
      | positive =>
        rw [compare_gt_iff_gt.mpr (by simpa [sgn] using hp)]
        rfl
    | finite t n f hn hs' hh' =>
      obtain rfl := Option.some.inj hb
      have hp' := finite_pos hn f
      cases s <;> cases t
      · show some ((compare e f).then (compare m n)).swap = _
        rw [compare_stored hs hs']
        rcases lt_trichotomy ((m : ℚ) * 2 ^ e) (n * 2 ^ f) with hlt | heq | hlt
        · rw [compare_lt_iff_lt.mpr hlt, compare_gt_iff_gt.mpr (by simpa [sgn] using hlt)]
          rfl
        · rw [heq, compare_eq_iff_eq.mpr rfl, compare_eq_iff_eq.mpr rfl]
          rfl
        · rw [compare_gt_iff_gt.mpr hlt, compare_lt_iff_lt.mpr (by simpa [sgn] using hlt)]
          rfl
      · rw [compare_lt_iff_lt.mpr]
        · rfl
        · simp only [sgn]
          linarith
      · rw [compare_gt_iff_gt.mpr]
        · rfl
        · simp only [sgn]
          linarith
      · show some ((compare e f).then (compare m n)) = _
        rw [compare_stored hs hs', sgn, one_mul, one_mul]

/-! ### On floats -/

variable {x y : Float32} {a b : ℚ}

lemma val_of_accurate {u : UnpackedFloat} {q : ℚ} (h : Accurate u q) :
    ∃ c, val (.ofModel (Float32.Model.pack u)) = some c ∧ |c - q| ≤ err q := by
  obtain ⟨ht, c, hc, herr⟩ := h
  exact ⟨c, (val_pack ht).trans hc, herr⟩

theorem val_add (ha : val x = some a) (hb : val y = some b) (h : |a + b| < 2 ^ (127 : ℤ)) :
    ∃ c, val (x + y) = some c ∧ |c - (a + b)| ≤ err (a + b) :=
  val_of_accurate (accurate_add (tidy_unpack ha) (tidy_unpack hb) ha hb h)

theorem val_sub (ha : val x = some a) (hb : val y = some b) (h : |a - b| < 2 ^ (127 : ℤ)) :
    ∃ c, val (x - y) = some c ∧ |c - (a - b)| ≤ err (a - b) :=
  val_of_accurate (accurate_sub (tidy_unpack ha) (tidy_unpack hb) ha hb h)

theorem val_mul (ha : val x = some a) (hb : val y = some b) (h : |a * b| < 2 ^ (127 : ℤ)) :
    ∃ c, val (x * y) = some c ∧ |c - a * b| ≤ err (a * b) :=
  val_of_accurate (accurate_mul (tidy_unpack ha) (tidy_unpack hb) ha hb h)

theorem val_div (ha : val x = some a) (hb : val y = some b) (hb0 : b ≠ 0)
    (hlow : a ≠ 0 → 2 ^ (-126 : ℤ) ≤ |a / b|) (h : |a / b| < 2 ^ (127 : ℤ)) :
    ∃ c, val (x / y) = some c ∧ |c - a / b| ≤ err (a / b) :=
  val_of_accurate (accurate_div (tidy_unpack ha) (tidy_unpack hb) ha hb hb0 hlow h)

theorem lt_iff (ha : val x = some a) (hb : val y = some b) : x < y ↔ a < b := by
  have hc := compare_value (tidy_unpack ha) (tidy_unpack hb) ha hb
  have hlt : x < y ↔ (x.toModel.unpack.compare y.toModel.unpack == some .lt) = true := by
    show Float32.lt x y = true ↔ _
    unfold Float32.lt
    rw [decide_eq_true_iff]
    rfl
  rw [hlt, show x.toModel.unpack.compare y.toModel.unpack = _ from hc]
  simp [compare_lt_iff_lt]

/-! ### The functions of the standard library -/

/-- `std::min`. -/
def minf (x y : Float32) : Float32 := if y < x then y else x

/-- `std::max`. -/
def maxf (x y : Float32) : Float32 := if x < y then y else x

lemma val_minf (ha : val x = some a) (hb : val y = some b) : val (minf x y) = some (min a b) := by
  unfold minf
  split
  · rename_i h
    rw [hb, min_eq_right ((lt_iff hb ha).mp h).le]
  · rename_i h
    rw [ha, min_eq_left (le_of_not_gt fun hlt => h ((lt_iff hb ha).mpr hlt))]

lemma val_maxf (ha : val x = some a) (hb : val y = some b) : val (maxf x y) = some (max a b) := by
  unfold maxf
  split
  · rename_i h
    rw [hb, max_eq_right ((lt_iff ha hb).mp h).le]
  · rename_i h
    rw [ha, max_eq_left (le_of_not_gt fun hlt => h ((lt_iff ha hb).mpr hlt))]

/-- `std::roundf`, as an integer: halves go away from zero. -/
def roundf (q : ℚ) : ℤ := if 0 ≤ q then ⌊q + 1 / 2⌋ else ⌈q - 1 / 2⌉

lemma abs_roundf_sub_le (q : ℚ) : |(roundf q : ℚ) - q| ≤ 1 / 2 := by
  rw [abs_le]
  unfold roundf
  split
  · have hle := Int.floor_le (q + 1 / 2)
    have hlt := Int.lt_floor_add_one (q + 1 / 2)
    constructor <;> linarith
  · have hle := Int.le_ceil (q - 1 / 2)
    have hlt := Int.ceil_lt_add_one (q - 1 / 2)
    constructor <;> linarith

end SendspinMc.Lib.Binary32
