import Mathlib

/-!
The rounding of `Float32`, and what its packing keeps.

A finite float is read as a rational. The rounding of the language keeps a mantissa with two more
bits, which say where the exact value lies between the mantissa and the next; what it gives is
within half a unit in the last place of the exact value.
-/

namespace SendspinMc.Lib.Rounding

open Float.Model Float.Model.UnpackedFloat

/-! ### Where a value lies -/

/-- The mantissa with its two bits stands for `y`. -/
def Stands (em : ExtendedMantissa) (y : ℚ) : Prop :=
  match em with
  | ⟨m, false, false⟩ => y = m
  | ⟨m, false, true⟩ => (m : ℚ) < y ∧ y < m + 1 / 2
  | ⟨m, true, false⟩ => y = m + 1 / 2
  | ⟨m, true, true⟩ => (m : ℚ) + 1 / 2 < y ∧ y < m + 1

lemma Stands.le {em : ExtendedMantissa} {y : ℚ} (h : Stands em y) :
    (em.mantissa : ℚ) ≤ y ∧ y < em.mantissa + 1 := by
  obtain ⟨m, r, s⟩ := em
  cases r <;> cases s <;> simp only [Stands] at h <;> constructor <;> linarith

lemma mantissa_halves (m : ℕ) : (m : ℚ) = 2 * (m / 2 : ℕ) + (m % 2 : ℕ) := by
  exact_mod_cast (Nat.div_add_mod m 2).symm

lemma Stands.half {em : ExtendedMantissa} {y : ℚ} (h : Stands em y) :
    Stands em.shiftRightOne (y / 2) := by
  obtain ⟨m, r, s⟩ := em
  have hm := mantissa_halves m
  rcases Nat.mod_two_eq_zero_or_one m with hbit | hbit <;> rw [hbit] at hm <;>
    cases r <;> cases s <;>
    simp [Stands, ExtendedMantissa.shiftRightOne, hbit] at h hm ⊢ <;>
    first
      | linarith
      | (constructor <;> linarith)

lemma Stands.shift {em : ExtendedMantissa} {y : ℚ} (h : Stands em y) (k : ℕ) :
    Stands (em >>> k) (y / 2 ^ k) := by
  induction k with
  | zero =>
    rw [pow_zero, div_one]
    exact h
  | succ k ih =>
    have hs : em >>> (k + 1) = (em >>> k).shiftRightOne := rfl
    rw [hs, pow_succ, ← div_div]
    exact ih.half

lemma Stands.rounded {em : ExtendedMantissa} {y : ℚ} (h : Stands em y) :
    |(em.roundedMantissa : ℚ) - y| ≤ 1 / 2 := by
  obtain ⟨m, r, s⟩ := em
  rw [abs_le]
  cases r <;> cases s <;>
    simp only [Stands, ExtendedMantissa.roundedMantissa, ExtendedMantissa.accuracy,
      Accuracy.roundToNearestEven] at h ⊢
  · constructor <;> linarith
  · constructor <;> linarith
  · rcases Nat.mod_two_eq_zero_or_one m with hbit | hbit <;> rw [hbit] <;> push_cast <;>
      constructor <;> linarith
  · push_cast
    constructor <;> linarith

lemma rounded_le (em : ExtendedMantissa) : em.roundedMantissa ≤ em.mantissa + 1 := by
  obtain ⟨m, r, s⟩ := em
  cases r <;> cases s <;>
    simp only [ExtendedMantissa.roundedMantissa, ExtendedMantissa.accuracy,
      Accuracy.roundToNearestEven] <;> omega

/-! ### The exponents -/

lemma targetExponent_eq (t : ℤ) : Format.binary32.targetExponent t = max (t - 24) (-149) := rfl

/-- A mantissa and its exponent, as the format stores them. -/
structure Stored (m : ℕ) (e : ℤ) : Prop where
  lt : m < 2 ^ 24
  low : -149 ≤ e
  normal : e = -149 ∨ 2 ^ 23 ≤ m

lemma log2_lt_of_lt {m : ℕ} (h : m < 2 ^ 24) : m.log2 < 24 := by
  rcases Nat.eq_zero_or_pos m with rfl | hpos
  · decide
  · exact (Nat.log2_lt hpos.ne').mpr h

lemma shift_fits {m : ℕ} {e : ℤ} (hm : m < 2 ^ 24) (he : -149 ≤ e) :
    shiftToTargetExponent Format.binary32 m e .exact = (⟨m, false, false⟩, e) := by
  have hlog := log2_lt_of_lt hm
  have hk : (Format.binary32.targetExponent (totalExponent m e) - e).toNat = 0 := by
    rw [targetExponent_eq, totalExponent]
    omega
  unfold shiftToTargetExponent shiftToExponent
  dsimp only
  rw [hk, Nat.cast_zero, add_zero]
  rfl

/-- A mantissa that was rounded up to the next power of two loses its last bit, which is zero. -/
lemma shift_overflows {e : ℤ} (he : -149 ≤ e) :
    shiftToTargetExponent Format.binary32 (2 ^ 24) e .exact = (⟨2 ^ 23, false, false⟩, e + 1) := by
  have hk : (Format.binary32.targetExponent (totalExponent (2 ^ 24) e) - e).toNat = 1 := by
    rw [targetExponent_eq, totalExponent, Nat.log2_two_pow]
    omega
  unfold shiftToTargetExponent shiftToExponent
  dsimp only
  rw [hk]
  rfl

/-- The exponent the value of a mantissa is stored with. -/
def place (m : ℕ) (e : ℤ) : ℤ := Format.binary32.targetExponent (totalExponent m e)

lemma place_eq (m : ℕ) (e : ℤ) : place m e = max (m.log2 + 1 + e - 24) (-149) := rfl

lemma mantissa_ofMantissaAndAccuracy (m : ℕ) (a : Accuracy) :
    (ExtendedMantissa.ofMantissaAndAccuracy m a).mantissa = m := by
  unfold ExtendedMantissa.ofMantissaAndAccuracy
  split <;> rfl

lemma lt_of_place {m k : ℕ} {e : ℤ} (h : e + k = place m e) : m < 2 ^ (24 + k) := by
  refine Nat.lt_of_lt_of_le Nat.lt_log2_self (Nat.pow_le_pow_right two_pos ?_)
  have := place_eq m e
  omega

lemma le_of_place {m k : ℕ} {e : ℤ} (hm : 0 < m) (h : e + k = place m e) (hlow : place m e ≠ -149) :
    2 ^ 23 * 2 ^ k ≤ m := by
  have hlog : 23 + k = m.log2 := by
    have := place_eq m e
    omega
  rw [← pow_add, hlog]
  exact Nat.log2_self_le hm.ne'

lemma shift_lt {em : ExtendedMantissa} {y : ℚ} {k : ℕ} (h : Stands em y)
    (hm : em.mantissa < 2 ^ (24 + k)) : (em >>> k).mantissa < 2 ^ 24 := by
  have hp : (0 : ℚ) < 2 ^ k := by positivity
  have hm1 : (em.mantissa : ℚ) + 1 ≤ 2 ^ 24 * 2 ^ k := by
    rw [← pow_add]
    exact_mod_cast hm
  have hlt : y / 2 ^ k < 2 ^ 24 := (div_lt_iff₀ hp).mpr (h.le.2.trans_le hm1)
  exact_mod_cast (h.shift k).le.1.trans_lt hlt

lemma le_shift {em : ExtendedMantissa} {y : ℚ} {k : ℕ} (h : Stands em y)
    (hm : 2 ^ 23 * 2 ^ k ≤ em.mantissa) : 2 ^ 23 ≤ (em >>> k).roundedMantissa := by
  have hp : (0 : ℚ) < 2 ^ k := by positivity
  have hge : (2 ^ 23 : ℚ) ≤ y / 2 ^ k := by
    rw [le_div_iff₀ hp]
    refine le_trans ?_ h.le.1
    exact_mod_cast hm
  have hround := (abs_le.mp (h.shift k).rounded).1
  have hlt : ((2 ^ 23 : ℕ) : ℚ) < (em >>> k).roundedMantissa + 1 := by
    push_cast
    linarith
  exact Nat.lt_succ_iff.mp (by exact_mod_cast hlt)

/-- What the rounding of a mantissa and its accuracy gives: the nearest multiple of the unit at
its place, brought back to 24 bits if it was rounded up to a power of two. -/
lemma round_eq {m : ℕ} {e : ℤ} {a : Accuracy} {y : ℚ} (s : Sign) (hm : 0 < m)
    (hy : Stands (.ofMantissaAndAccuracy m a) y) (he : e ≤ place m e) :
    ∃ r : ℕ, |(r : ℚ) - y / 2 ^ (place m e - e).toNat| ≤ 1 / 2 ∧ r ≤ 2 ^ 24 ∧
      (place m e = -149 ∨ 2 ^ 23 ≤ r) ∧
      roundWithAccuracy Format.binary32 s m e a =
        if h : r = 0 then .zero s
        else if r < 2 ^ 24 then .finite s r (place m e) (Nat.pos_of_ne_zero h)
        else .finite s (2 ^ 23) (place m e + 1) (by decide) := by
  obtain ⟨k, hk⟩ : ∃ k, k = (place m e - e).toNat := ⟨_, rfl⟩
  have hek : e + k = place m e := by omega
  have hmant := mantissa_ofMantissaAndAccuracy m a
  have hlow : -149 ≤ place m e := le_max_right _ _
  have hlt := shift_lt (k := k) hy (by rw [hmant]; exact lt_of_place hek)
  have hnormal : place m e = -149 ∨
      2 ^ 23 ≤ (ExtendedMantissa.ofMantissaAndAccuracy m a >>> k).roundedMantissa := by
    by_cases hpl : place m e = -149
    · exact .inl hpl
    · exact .inr (le_shift hy (by rw [hmant]; exact le_of_place hm hek hpl))
  have hround := (hy.shift k).rounded
  have hle := rounded_le (ExtendedMantissa.ofMantissaAndAccuracy m a >>> k)
  refine ⟨_, hk ▸ hround, by omega, hnormal, ?_⟩
  generalize hr : (ExtendedMantissa.ofMantissaAndAccuracy m a >>> k).roundedMantissa = r at *
  have hfirst : shiftToTargetExponent Format.binary32 m e a =
      (ExtendedMantissa.ofMantissaAndAccuracy m a >>> k, place m e) := by
    rw [hk] at hek ⊢
    exact Prod.ext rfl hek
  unfold roundWithAccuracy
  rw [hfirst]
  dsimp only
  rw [hr]
  rcases Nat.lt_or_ge r (2 ^ 24) with hr24 | hr24
  · rw [shift_fits hr24 hlow]
    simp only [hr24, if_true]
  · obtain rfl : r = 2 ^ 24 := by omega
    rw [shift_overflows hlow]
    simp

/-! ### The numbers -/

/-- The sign as a factor. -/
def sgn : Sign → ℚ
  | .negative => -1
  | .positive => 1

lemma apply_eq (s : Sign) (n : ℤ) : (s.apply n : ℚ) = sgn s * n := by
  cases s <;> simp [Sign.apply, sgn]

/-- The number an unpacked float stands for, if it is finite. -/
def value : UnpackedFloat → Option ℚ
  | .finite s m e _ => some (sgn s * (m * 2 ^ e))
  | .zero _ => some 0
  | .infinity _ | .notANumber => none

/-- The number a float stands for, if it is finite. -/
def val (x : Float32) : Option ℚ := value x.toModel.unpack

/-- A finite float as it is unpacked. -/
inductive Tidy : UnpackedFloat → Prop
  | zero (s : Sign) : Tidy (.zero s)
  | finite (s : Sign) (m : ℕ) (e : ℤ) (h : 0 < m) (stored : Stored m e) (high : e ≤ 104) :
      Tidy (.finite s m e h)

/-- The error of a rounding: half a unit in the last place, or of the least number. -/
def err (x : ℚ) : ℚ := max (|x| * 2 ^ (-24 : ℤ)) (2 ^ (-150 : ℤ))

lemma two_zpow_pos (e : ℤ) : (0 : ℚ) < 2 ^ e := zpow_pos two_pos e

lemma finite_pos {m : ℕ} (h : 0 < m) (e : ℤ) : (0 : ℚ) < m * 2 ^ e :=
  mul_pos (by exact_mod_cast h) (two_zpow_pos e)

lemma unit_le_err {m : ℕ} {e : ℤ} {x : ℚ} (hm : 0 < m) (hx : (m : ℚ) * 2 ^ e ≤ x) :
    1 / 2 * (2 : ℚ) ^ place m e ≤ err x := by
  have hhalf : ∀ p : ℤ, 1 / 2 * (2 : ℚ) ^ p = 2 ^ (p - 1) := fun p => by
    rw [zpow_sub_one₀ two_ne_zero]
    ring
  rw [hhalf]
  rcases (place_eq m e ▸ max_choice _ _ :
    place m e = m.log2 + 1 + e - 24 ∨ place m e = -149) with hpl | hpl
  · refine le_trans ?_ (le_max_left _ _)
    have hlog : (2 : ℚ) ^ (m.log2 : ℤ) ≤ m := by
      exact_mod_cast Nat.log2_self_le hm.ne'
    calc (2 : ℚ) ^ (place m e - 1) = 2 ^ (m.log2 : ℤ) * 2 ^ e * 2 ^ (-24 : ℤ) := by
          rw [← zpow_add₀ two_ne_zero, ← zpow_add₀ two_ne_zero, hpl]
          congr 1
          ring
      _ ≤ m * 2 ^ e * 2 ^ (-24 : ℤ) := by
          have := two_zpow_pos e
          have := two_zpow_pos (-24)
          gcongr
      _ ≤ |x| * 2 ^ (-24 : ℤ) := by
          have := two_zpow_pos (-24)
          gcongr
          exact hx.trans (le_abs_self x)
  · rw [hpl]
    exact le_max_right _ _

lemma place_le {m : ℕ} {e : ℤ} (hm : 0 < m) (hx : (m : ℚ) * 2 ^ e < 2 ^ (127 : ℤ)) :
    place m e ≤ 103 := by
  have hlog : (2 : ℚ) ^ (m.log2 : ℤ) ≤ m := by
    exact_mod_cast Nat.log2_self_le hm.ne'
  have hlt : (2 : ℚ) ^ ((m.log2 : ℤ) + e) < 2 ^ (127 : ℤ) := by
    rw [zpow_add₀ two_ne_zero]
    refine lt_of_le_of_lt ?_ hx
    have := two_zpow_pos e
    gcongr
  have hexp := (zpow_lt_zpow_iff_right₀ (one_lt_two (α := ℚ))).mp hlt
  rw [place_eq]
  omega

/-- **Rounding is accurate**: what stands for `y` units is rounded to a finite number within the
error of it. -/
theorem round_accurate {m : ℕ} {e : ℤ} {a : Accuracy} {y : ℚ} (s : Sign) (hm : 0 < m)
    (hy : Stands (.ofMantissaAndAccuracy m a) y) (he : e ≤ place m e)
    (hx : y * 2 ^ e < 2 ^ (127 : ℤ)) :
    Tidy (roundWithAccuracy Format.binary32 s m e a) ∧
      ∃ q, value (roundWithAccuracy Format.binary32 s m e a) = some (sgn s * q) ∧
        |q - y * 2 ^ e| ≤ err (y * 2 ^ e) := by
  obtain ⟨r, hr, hr24, hnormal, heq⟩ := round_eq s hm hy he
  have hmy : (m : ℚ) ≤ y := by
    have hle := hy.le.1
    rwa [show (ExtendedMantissa.ofMantissaAndAccuracy m a).mantissa = m by
      unfold ExtendedMantissa.ofMantissaAndAccuracy; split <;> rfl] at hle
  have hme : (m : ℚ) * 2 ^ e ≤ y * 2 ^ e := mul_le_mul_of_nonneg_right hmy (two_zpow_pos e).le
  have hhigh := place_le hm (hme.trans_lt hx)
  have hlow : -149 ≤ place m e := le_max_right _ _
  -- the rounded mantissa at its place
  have herr : |(r : ℚ) * 2 ^ place m e - y * 2 ^ e| ≤ err (y * 2 ^ e) := by
    have hp := two_zpow_pos (place m e)
    have hsplit : y * 2 ^ e =
        y / 2 ^ (place m e - e).toNat * (2 : ℚ) ^ place m e := by
      rw [div_mul_eq_mul_div, eq_div_iff (by positivity), mul_assoc, ← zpow_natCast,
        ← zpow_add₀ two_ne_zero]
      congr 2
      omega
    calc |(r : ℚ) * 2 ^ place m e - y * 2 ^ e|
        = |(r : ℚ) - y / 2 ^ (place m e - e).toNat| * 2 ^ place m e := by
          rw [hsplit, ← sub_mul, abs_mul, abs_of_pos hp]
      _ ≤ 1 / 2 * 2 ^ place m e := mul_le_mul_of_nonneg_right hr hp.le
      _ ≤ err (y * 2 ^ e) := unit_le_err hm hme
  rw [heq]
  split
  · rename_i h0
    refine ⟨.zero s, 0, by simp [value], ?_⟩
    simpa [h0] using herr
  · split
    · exact ⟨.finite s r _ _ ⟨‹_›, hlow, hnormal⟩ (by omega), _, rfl, herr⟩
    · obtain rfl : r = 2 ^ 24 := by omega
      refine ⟨.finite s _ _ _ ⟨by norm_num, by omega, .inr le_rfl⟩ (by omega), _, rfl, ?_⟩
      rw [zpow_add_one₀ two_ne_zero]
      convert herr using 3
      push_cast
      ring

/-! ### Packing -/

lemma unpackSign_packComponents {spec : Format} (s : Sign) (e : BitVec spec.exponentBits)
    (m : BitVec spec.mantissaBitsWithoutImplicit) :
    unpackSign (packComponents spec s e m) = s.toBitVec := by
  ext i hi
  obtain rfl : i = 0 := by omega
  simp [unpackSign, packComponents, BitVec.getLsbD_eq_getElem, BitVec.getLsbD_append,
    BitVec.getElem_append]

lemma ofBitVec_toBitVec (s : Sign) : Sign.ofBitVec s.toBitVec = s := by
  cases s <;> rfl

lemma implicit_append {m : ℕ} (hlow : 2 ^ 23 ≤ m) (hlt : m < 2 ^ 24) :
    (1#1 ++ BitVec.ofNat 23 m).toNat = m := by
  rw [BitVec.toNat_append, ← Nat.shiftLeft_add_eq_or_of_lt (BitVec.isLt _)]
  simp only [BitVec.toNat_ofNat, Nat.shiftLeft_eq]
  omega

lemma pack_finite {m : ℕ} {e : ℤ} (s : Sign) (h : 0 < m) (hlow : -149 ≤ e) (hhigh : e ≤ 104) :
    pack Format.binary32 (.finite s m e h) =
      packComponents Format.binary32 s
        (if m.log2 = 23 then BitVec.ofNat 8 (e + 150).toNat else 0#8) (BitVec.ofNat 23 m) := by
  have hb : (e + Format.binary32.exponentBias + (23 : ℕ)).toNat = (e + 150).toNat := by
    have : Format.binary32.exponentBias = 127 := rfl
    omega
  have hno : ¬ 2 ^ 8 ≤ (e + 150).toNat + 1 := by omega
  have hbits : m.log2 + 1 = Format.binary32.mantissaBits ↔ m.log2 = 23 := by
    show m.log2 + 1 = 24 ↔ _
    omega
  unfold UnpackedFloat.pack
  dsimp only
  rw [hb, if_neg hno]
  by_cases h23 : m.log2 = 23
  · rw [if_pos (hbits.mpr h23), if_pos h23]
  · rw [if_neg (mt hbits.mp h23), if_neg h23]

lemma unpack_pack {u : UnpackedFloat} (h : Tidy u) :
    unpack Format.binary32 (pack Format.binary32 u) = u := by
  cases h with
  | zero s => cases s <;> rfl
  | finite s m e hm hst hhigh =>
    obtain ⟨hlt, hlow, hnormal⟩ := hst
    rw [pack_finite s hm hlow hhigh]
    by_cases h23 : m.log2 = 23
    · have hge : 2 ^ 23 ≤ m := h23 ▸ Nat.log2_self_le hm.ne'
      have hne : BitVec.ofNat 8 (e + 150).toNat ≠ -1#8 := by
        intro he
        have := congrArg BitVec.toNat he
        simp at this
        omega
      have hne0 : BitVec.ofNat 8 (e + 150).toNat ≠ 0#8 := by
        intro he
        have := congrArg BitVec.toNat he
        simp at this
        omega
      unfold UnpackedFloat.unpack
      simp only [if_pos h23, unpackMantissa_packComponents, unpackExponent_packComponents,
        unpackSign_packComponents, ofBitVec_toBitVec]
      rw [if_neg hne, if_neg hne0, UnpackedFloat.finite.injEq]
      refine ⟨rfl, implicit_append hge hlt, ?_⟩
      rw [BitVec.toNat_ofNat, Nat.mod_eq_of_lt (by omega)]
      have : Format.binary32.exponentBias = 127 := rfl
      omega
    · -- a short mantissa is stored with the least exponent
      have hlt23 : m < 2 ^ 23 := by
        by_contra hge
        exact h23 ((Nat.log2_eq_iff hm.ne').mpr ⟨Nat.le_of_not_lt hge, hlt⟩)
      obtain rfl : e = -149 := hnormal.resolve_right (Nat.not_le.mpr hlt23)
      have hm0 : BitVec.ofNat 23 m ≠ 0#23 := by
        intro he
        have := congrArg BitVec.toNat he
        simp at this
        omega
      unfold UnpackedFloat.unpack
      simp only [if_neg h23, unpackMantissa_packComponents, unpackExponent_packComponents,
        unpackSign_packComponents, ofBitVec_toBitVec]
      rw [if_neg (by decide), if_pos trivial, dif_neg hm0, UnpackedFloat.finite.injEq]
      refine ⟨rfl, ?_, rfl⟩
      rw [BitVec.toNat_ofNat, Nat.mod_eq_of_lt hlt23]

lemma tidy_unpack {b : BitVec 32} {q : ℚ}
    (h : value (unpack Format.binary32 b) = some q) : Tidy (unpack Format.binary32 b) := by
  revert h
  have hbias : Format.binary32.exponentBias = 127 := rfl
  have hm := (@unpackMantissa Format.binary32 b).isLt
  have he := (@unpackExponent Format.binary32 b).isLt
  generalize hmant : @unpackMantissa Format.binary32 b = m at hm
  generalize hexp : @unpackExponent Format.binary32 b = e at he
  replace hm : m.toNat < 2 ^ 23 := hm
  replace he : e.toNat < 2 ^ 8 := he
  unfold UnpackedFloat.unpack
  simp only [hmant, hexp]
  split
  · split <;> intro h <;> cases h
  · rename_i hinf
    have hinf : e.toNat ≠ 255 := fun h => hinf (BitVec.eq_of_toNat_eq h)
    split
    · split
      · exact fun _ => .zero _
      · rename_i h0 hm0
        refine fun _ => .finite _ _ _ _ ⟨by omega, ?_, .inl ?_⟩ ?_ <;> rw [h0, hbias] <;> simp
    · rename_i h0
      have h0 : e.toNat ≠ 0 := fun h => h0 (BitVec.eq_of_toNat_eq h)
      have happ : (1#1 ++ m).toNat = 2 ^ 23 + m.toNat := by
        rw [BitVec.toNat_append, ← Nat.shiftLeft_add_eq_or_of_lt (BitVec.isLt _)]
        rfl
      refine fun _ => .finite _ _ _ _ ⟨?_, ?_, .inr ?_⟩ ?_ <;> omega

lemma val_pack {u : UnpackedFloat} (h : Tidy u) :
    val (.ofModel (Float32.Model.pack u)) = value u := by
  show value (unpack Format.binary32 _) = value u
  exact congrArg value (unpack_pack h)

end SendspinMc.Lib.Rounding
