import SendspinMc.Lib.Binary32

/-!
Volumes: a percentage of the protocol in one byte, and the float the framework keeps.

Every computation here is a few operations on numbers of at most 256, so what it rounds away is
far less than the half percent that a conversion back to a byte forgives.
-/

namespace SendspinMc.Volume

open SendspinMc.Lib.Binary32 SendspinMc.Lib.Rounding

/-- `volume / 100.0f`. -/
def ofPercent (volume : UInt8) : Float32 := volume.toFloat32 / 100.0

/-- `static_cast<uint8_t>`, which is undefined off the range of the type. -/
def toUInt8 (n : ℤ) : Option UInt8 :=
  if 0 ≤ n ∧ n ≤ 255 then some (UInt8.ofNat n.toNat) else none

/-- `static_cast<uint8_t>(std::roundf(volume * 100.0f))`. -/
def toPercent (volume : Float32) : Option UInt8 :=
  (val (volume * 100.0)).bind fun q => toUInt8 (roundf q)

/-- The volume after `VOLUME_UP`. -/
def stepUp (volume increment : Float32) : Float32 := minf 1.0 (volume + increment)

/-- The volume after `VOLUME_DOWN`. -/
def stepDown (volume increment : Float32) : Float32 := maxf 0.0 (volume - increment)

/-! ### What is rounded away -/

lemma val_zero : val 0.0 = some 0 := by decide +kernel
lemma val_one : val 1.0 = some 1 := by decide +kernel
lemma val_hundred : val 100.0 = some 100 := by decide +kernel

lemma val_toFloat32 (volume : UInt8) : val volume.toFloat32 = some (volume.toNat : ℚ) := by
  have h : ∀ i : Fin 256, val (UInt8.ofNat i).toFloat32 = some (i : ℚ) := by decide +kernel
  simpa using h ⟨volume.toNat, volume.toNat_lt⟩

lemma err_le {x : ℚ} {k : ℕ} (h : |x| ≤ 2 ^ k) : err x ≤ 2 ^ k * 2 ^ (-24 : ℤ) := by
  have hp := two_zpow_pos (-24)
  refine max_le (mul_le_mul_of_nonneg_right h hp.le) ?_
  have hk : (1 : ℚ) ≤ 2 ^ k := one_le_pow₀ one_le_two
  calc (2 : ℚ) ^ (-150 : ℤ) ≤ 1 * 2 ^ (-24 : ℤ) := by norm_num
    _ ≤ 2 ^ k * 2 ^ (-24 : ℤ) := mul_le_mul_of_nonneg_right hk hp.le

/-- A float that stands for `q` but for `d` millionths. -/
def Near (x : Float32) (q : ℚ) (d : ℕ) : Prop := ∃ c, val x = some c ∧ |c - q| ≤ d / 1000000

lemma near_of_val {x : Float32} {q : ℚ} (h : val x = some q) : Near x q 0 := ⟨q, h, by simp⟩

/-- What was off by `d` millionths is off by `r` more once an operation has rounded it. -/
lemma near_round {z : Float32} {m q : ℚ} {d k r : ℕ}
    (hz : |m| < 2 ^ (127 : ℤ) → ∃ c, val z = some c ∧ |c - m| ≤ err m)
    (hm : |m - q| ≤ d / 1000000) (hq : |q| + d / 1000000 ≤ 2 ^ k) (hk : k ≤ 8)
    (hr : (2 : ℚ) ^ k * 2 ^ (-24 : ℤ) ≤ r / 1000000) : Near z q (d + r) := by
  have hmk : |m| ≤ 2 ^ k := by
    have := abs_sub_abs_le_abs_sub m q
    linarith
  have hk8 : (2 : ℚ) ^ k ≤ 2 ^ 8 := pow_le_pow_right₀ one_le_two hk
  obtain ⟨c, hc, herr⟩ := hz (lt_of_le_of_lt (hmk.trans hk8) (by norm_num))
  refine ⟨c, hc, ?_⟩
  calc |c - q| ≤ |c - m| + |m - q| := abs_sub_le c m q
    _ ≤ r / 1000000 + d / 1000000 := add_le_add ((herr.trans (err_le hmk)).trans hr) hm
    _ = ((d + r : ℕ) : ℚ) / 1000000 := by
        push_cast
        ring

lemma Near.add {x y : Float32} {p q : ℚ} {d e : ℕ} (hx : Near x p d) (hy : Near y q e)
    (h : |p + q| + ((d + e : ℕ) : ℚ) / 1000000 ≤ 4) : Near (x + y) (p + q) (d + e + 1) := by
  obtain ⟨a, ha, hap⟩ := hx
  obtain ⟨b, hb, hbq⟩ := hy
  refine near_round (k := 2) (val_add ha hb) ?_ (by norm_num at h ⊢; exact h) (by norm_num)
    (by norm_num)
  rw [add_sub_add_comm, Nat.cast_add, add_div]
  exact (abs_add_le _ _).trans (add_le_add hap hbq)

lemma Near.sub {x y : Float32} {p q : ℚ} {d e : ℕ} (hx : Near x p d) (hy : Near y q e)
    (h : |p - q| + ((d + e : ℕ) : ℚ) / 1000000 ≤ 4) : Near (x - y) (p - q) (d + e + 1) := by
  obtain ⟨a, ha, hap⟩ := hx
  obtain ⟨b, hb, hbq⟩ := hy
  refine near_round (k := 2) (val_sub ha hb) ?_ (by norm_num at h ⊢; exact h) (by norm_num)
    (by norm_num)
  rw [sub_sub_sub_comm, Nat.cast_add, add_div]
  exact (abs_sub _ _).trans (add_le_add hap hbq)

lemma Near.mul_hundred {x : Float32} {p : ℚ} {d : ℕ} (hx : Near x p d)
    (h : |p * 100| + ((100 * d : ℕ) : ℚ) / 1000000 ≤ 256) :
    Near (x * 100.0) (p * 100) (100 * d + 16) := by
  obtain ⟨a, ha, hap⟩ := hx
  refine near_round (k := 8) (val_mul ha val_hundred) ?_ (by norm_num at h ⊢; exact h)
    (by norm_num) (by norm_num)
  rw [← sub_mul, abs_mul]
  push_cast
  norm_num
  linarith

lemma near_ofPercent (volume : UInt8) : Near (ofPercent volume) (volume.toNat / 100) 1 := by
  have hv : (volume.toNat : ℚ) ≤ 255 := by
    exact_mod_cast Nat.le_of_lt_succ volume.toNat_lt
  have hpos : (0 : ℚ) ≤ volume.toNat := Nat.cast_nonneg _
  have habs : |(volume.toNat : ℚ) / 100| = volume.toNat / 100 := abs_of_nonneg (by positivity)
  have h := near_round (k := 2) (d := 0) (r := 1) (q := volume.toNat / 100)
    (val_div (val_toFloat32 volume) val_hundred (by norm_num) fun h0 => ?_) (by simp) ?_
    (by norm_num) (by norm_num)
  · simpa [ofPercent] using h
  · have hone : (1 : ℚ) ≤ volume.toNat := by
      exact_mod_cast Nat.one_le_iff_ne_zero.mpr (by exact_mod_cast h0)
    rw [habs, le_div_iff₀ (by norm_num)]
    refine le_trans ?_ hone
    norm_num
  · rw [habs]
    norm_num
    linarith

lemma Near.minf {x y : Float32} {p q : ℚ} {d e : ℕ} (hx : Near x p d) (hy : Near y q e) :
    Near (minf x y) (min p q) (max d e) := by
  obtain ⟨a, ha, hap⟩ := hx
  obtain ⟨b, hb, hbq⟩ := hy
  refine ⟨_, val_minf ha hb, (abs_min_sub_min_le_max _ _ _ _).trans ?_⟩
  rw [Nat.cast_max, ← max_div_div_right (by norm_num)]
  exact max_le_max hap hbq

lemma Near.maxf {x y : Float32} {p q : ℚ} {d e : ℕ} (hx : Near x p d) (hy : Near y q e) :
    Near (maxf x y) (max p q) (max d e) := by
  obtain ⟨a, ha, hap⟩ := hx
  obtain ⟨b, hb, hbq⟩ := hy
  refine ⟨_, val_maxf ha hb, (abs_max_sub_max_le_max _ _ _ _).trans ?_⟩
  rw [Nat.cast_max, ← max_div_div_right (by norm_num)]
  exact max_le_max hap hbq

/-! ### Back to a percentage -/

lemma toPercent_near {x : Float32} {q : ℚ} {d : ℕ} (hx : Near x q d) (hq : 0 ≤ q)
    (hq' : q * 100 ≤ 255) (hd : d ≤ 100) :
    ∃ v : UInt8, toPercent x = some v ∧
      |(v.toNat : ℚ) - q * 100| ≤ 1 / 2 + ((100 * d + 16 : ℕ) : ℚ) / 1000000 := by
  have hd' : ((100 * d : ℕ) : ℚ) ≤ 10000 := by exact_mod_cast Nat.mul_le_mul_left 100 hd
  have hmul := hx.mul_hundred (by rw [abs_of_nonneg (by positivity)]; linarith)
  obtain ⟨c, hc, hcq⟩ := hmul
  have hround := abs_roundf_sub_le c
  have hsmall : ((100 * d + 16 : ℕ) : ℚ) / 1000000 ≤ 11 / 1000 := by
    push_cast at hd' ⊢
    linarith
  have htot : |(roundf c : ℚ) - q * 100| ≤ 1 / 2 + ((100 * d + 16 : ℕ) : ℚ) / 1000000 :=
    (abs_sub_le _ c _).trans (add_le_add hround hcq)
  obtain ⟨hlo, hhi⟩ := abs_le.mp htot
  have h0 : 0 ≤ roundf c := by
    have : ((-1 : ℤ) : ℚ) < roundf c := by
      push_cast
      nlinarith
    have : -1 < roundf c := by exact_mod_cast this
    omega
  have h255 : roundf c ≤ 255 := by
    have : (roundf c : ℚ) < (256 : ℤ) := by
      push_cast
      linarith
    have : roundf c < 256 := by exact_mod_cast this
    omega
  refine ⟨UInt8.ofNat (roundf c).toNat, ?_, ?_⟩
  · rw [toPercent, hc, Option.bind_some, toUInt8, if_pos ⟨h0, h255⟩]
  · have hcast : (((UInt8.ofNat (roundf c).toNat).toNat : ℕ) : ℚ) = roundf c := by
      rw [UInt8.toNat_ofNat', Nat.mod_eq_of_lt (by omega), ← Int.cast_natCast,
        Int.toNat_of_nonneg h0]
    rwa [hcast]

/-- **A percentage survives its float**: `roundf` takes back what was divided by a hundred. -/
theorem toPercent_ofPercent (volume : UInt8) : toPercent (ofPercent volume) = some volume := by
  have hv : (volume.toNat : ℚ) ≤ 255 := by
    exact_mod_cast Nat.le_of_lt_succ volume.toNat_lt
  obtain ⟨v, hto, herr⟩ := toPercent_near (near_ofPercent volume) (by positivity) (by linarith)
    (by norm_num)
  rw [div_mul_cancel₀ _ (by norm_num)] at herr
  have hlt : |((v.toNat : ℤ) : ℚ) - ((volume.toNat : ℤ) : ℚ)| < 1 := by
    push_cast
    norm_num at herr
    linarith
  have heq : (v.toNat : ℤ) - volume.toNat = 0 := Int.abs_lt_one_iff.mp (by exact_mod_cast hlt)
  rw [hto, UInt8.toNat_inj.mp (by omega : v.toNat = volume.toNat)]

lemma cast_volume_le (volume : UInt8) : (volume.toNat : ℚ) / 100 ≤ 255 / 100 := by
  have hv : (volume.toNat : ℚ) ≤ 255 := by
    exact_mod_cast Nat.le_of_lt_succ volume.toNat_lt
  linarith

/-! ### A step up or down -/

lemma Near.weaken {x : Float32} {q : ℚ} {d e : ℕ} (hx : Near x q d) (h : d ≤ e) : Near x q e := by
  obtain ⟨c, hc, hcq⟩ := hx
  have hde : (d : ℚ) ≤ e := by exact_mod_cast h
  exact ⟨c, hc, hcq.trans (by linarith)⟩

/-- A volume of the framework that is one, but for what a percentage's float is off. -/
def Sane (volume : Float32) : Prop := ∃ q : ℚ, 0 ≤ q ∧ q ≤ 1 ∧ Near volume q 1

lemma sane_of_val {volume : Float32} {q : ℚ} (h : val volume = some q) (h0 : 0 ≤ q)
    (h1 : q ≤ 1) : Sane volume := ⟨q, h0, h1, (near_of_val h).weaken zero_le_one⟩

lemma sane_ofPercent {volume : UInt8} (h : volume.toNat ≤ 100) : Sane (ofPercent volume) := by
  have hv : (volume.toNat : ℚ) ≤ 100 := by exact_mod_cast h
  exact ⟨_, by positivity, by linarith, near_ofPercent volume⟩

lemma le_hundred_of_near {v : UInt8} {m : ℚ} (h : |(v.toNat : ℚ) - m| ≤ 501 / 1000)
    (hm : m ≤ 100) : v.toNat ≤ 100 := by
  have hlt : (v.toNat : ℚ) < 101 := by linarith [(abs_le.mp h).2]
  exact Nat.le_of_lt_succ (by exact_mod_cast hlt)

/-- A volume that is sent as a percentage. -/
def Sendable (volume : Float32) : Prop := ∃ v : UInt8, toPercent volume = some v ∧ v.toNat ≤ 100

lemma Sane.sendable {volume : Float32} (h : Sane volume) : Sendable volume := by
  obtain ⟨q, h0, h1, hq⟩ := h
  obtain ⟨v, hv, herr⟩ := toPercent_near hq h0 (by linarith) (by norm_num)
  exact ⟨v, hv, le_hundred_of_near (herr.trans (by norm_num)) (by linarith)⟩

section steps

variable {increment : Float32} {i : ℚ} (hi : val increment = some i) (h0 : 0 ≤ i) (h1 : i ≤ 1)
  {volume : Float32} {q : ℚ} (hq : Near volume q 1) (hq0 : 0 ≤ q) (hq1 : q ≤ 255 / 100)

include hi h0 h1 hq hq0 hq1

lemma stepUp_near : Near (stepUp volume increment) (min 1 (q + i)) 2 := by
  have hsum := hq.add (near_of_val hi) (by rw [abs_of_nonneg (by linarith)]; norm_num; linarith)
  exact (near_of_val val_one).minf hsum

lemma stepDown_near : Near (stepDown volume increment) (max 0 (q - i)) 2 := by
  have habs : |q - i| ≤ 355 / 100 := by
    rw [abs_le]
    constructor <;> linarith
  have hdiff := hq.sub (near_of_val hi) (by norm_num; linarith)
  exact (near_of_val val_zero).maxf hdiff

/-- `VOLUME_UP` asks for the volume plus the increment, to the nearest percent, and for no more
than everything. -/
lemma toPercent_stepUp : ∃ v : UInt8, toPercent (stepUp volume increment) = some v ∧
    |(v.toNat : ℚ) - min 100 (q * 100 + i * 100)| ≤ 501 / 1000 := by
  have hle : min 1 (q + i) ≤ 1 := min_le_left _ _
  obtain ⟨v, hto, herr⟩ := toPercent_near (stepUp_near hi h0 h1 hq hq0 hq1)
    (le_min zero_le_one (by linarith)) (by linarith) (by norm_num)
  refine ⟨v, hto, ?_⟩
  rw [min_mul_of_nonneg _ _ (by norm_num), add_mul, one_mul] at herr
  norm_num at herr
  linarith

/-- `VOLUME_DOWN` asks for the volume less the increment, to the nearest percent, and for no less
than nothing. -/
lemma toPercent_stepDown : ∃ v : UInt8, toPercent (stepDown volume increment) = some v ∧
    |(v.toNat : ℚ) - max 0 (q * 100 - i * 100)| ≤ 501 / 1000 := by
  have hle : max 0 (q - i) ≤ 255 / 100 := max_le (by norm_num) (by linarith)
  obtain ⟨v, hto, herr⟩ := toPercent_near (stepDown_near hi h0 h1 hq hq0 hq1) (le_max_left _ _)
    (by linarith) (by norm_num)
  refine ⟨v, hto, ?_⟩
  rw [max_mul_of_nonneg _ _ (by norm_num), sub_mul, zero_mul] at herr
  norm_num at herr
  linarith

end steps

section sane

variable {increment : Float32} {i : ℚ} (hi : val increment = some i) (h0 : 0 ≤ i) (h1 : i ≤ 1)
  {volume : Float32} (h : Sane volume)

include hi h0 h1 h

lemma sendable_stepUp : Sendable (stepUp volume increment) := by
  obtain ⟨q, hq0, hq1, hq⟩ := h
  obtain ⟨v, hv, herr⟩ := toPercent_stepUp hi h0 h1 hq hq0 (by linarith)
  exact ⟨v, hv, le_hundred_of_near herr (min_le_left _ _)⟩

lemma sendable_stepDown : Sendable (stepDown volume increment) := by
  obtain ⟨q, hq0, hq1, hq⟩ := h
  obtain ⟨v, hv, herr⟩ := toPercent_stepDown hi h0 h1 hq hq0 (by linarith)
  exact ⟨v, hv, le_hundred_of_near herr (max_le (by norm_num) (by linarith))⟩

end sane

lemma ofNat_of_near {v : UInt8} {n : ℕ} {m : ℚ} (h : |(v.toNat : ℚ) - m| ≤ 501 / 1000)
    (hm : |m - n| ≤ 49 / 100) : v = UInt8.ofNat n := by
  have hlt : |((v.toNat : ℤ) : ℚ) - ((n : ℤ) : ℚ)| < 1 := by
    push_cast
    linarith [abs_sub_le (v.toNat : ℚ) m n]
  have heq : (v.toNat : ℤ) - n = 0 := Int.abs_lt_one_iff.mp (by exact_mod_cast hlt)
  obtain rfl : v.toNat = n := by omega
  exact UInt8.ofNat_toNat.symm

/-- An increment within 0.49 of `k` percent. Nearer to half way between two percentages the rounding
of a step would decide. -/
def Increment (increment : Float32) (k : ℕ) : Prop :=
  ∃ i : ℚ, val increment = some i ∧ 0 ≤ i ∧ i ≤ 1 ∧ |i * 100 - k| ≤ 49 / 100

section percent

variable {increment : Float32} {k : ℕ} (h : Increment increment k) (volume : UInt8)

include h

lemma toPercent_up : toPercent (stepUp (ofPercent volume) increment) =
    some (UInt8.ofNat (min 100 (volume.toNat + k))) := by
  obtain ⟨i, hi, h0, h1, hk⟩ := h
  obtain ⟨v, hto, herr⟩ := toPercent_stepUp hi h0 h1 (near_ofPercent volume) (by positivity)
    (cast_volume_le volume)
  rw [div_mul_cancel₀ _ (by norm_num)] at herr
  rw [hto, ofNat_of_near herr]
  push_cast
  refine (abs_min_sub_min_le_max _ _ _ _).trans (max_le (by norm_num) ?_)
  rwa [add_sub_add_left_eq_sub]

lemma toPercent_down : toPercent (stepDown (ofPercent volume) increment) =
    some (UInt8.ofNat (volume.toNat - k)) := by
  obtain ⟨i, hi, h0, h1, hk⟩ := h
  obtain ⟨v, hto, herr⟩ := toPercent_stepDown hi h0 h1 (near_ofPercent volume) (by positivity)
    (cast_volume_le volume)
  rw [div_mul_cancel₀ _ (by norm_num)] at herr
  rw [hto, ofNat_of_near herr]
  have hcast : ((volume.toNat - k : ℕ) : ℚ) = max 0 ((volume.toNat : ℚ) - k) := by
    rcases le_total k volume.toNat with hle | hle
    · rw [Nat.cast_sub hle, max_eq_right (sub_nonneg.mpr (by exact_mod_cast hle))]
    · rw [Nat.sub_eq_zero_of_le hle, max_eq_left (sub_nonpos.mpr (by exact_mod_cast hle)),
        Nat.cast_zero]
  rw [hcast]
  refine (abs_max_sub_max_le_max _ _ _ _).trans (max_le (by norm_num) ?_)
  rw [sub_sub_sub_cancel_left, abs_sub_comm]
  exact hk

end percent

end SendspinMc.Volume
