import SearchDialect.Proofs.Number.Rounding

/-!
# Numbers that are doubles

A whole number of fifty-three bits, with a factor of two or without, is a double and stands for
itself after rounding (`standsFor_nearest`). The product and the quotient of doubles that stand for
whole numbers are rounded once, as if these numbers had been given to `nearest`
(`StandsFor.mul_eq`, `StandsFor.div_eq`).
-/

namespace SearchDialect.Number.Double

/-- A positive double, or zero, whose exact value is a whole number. -/
structure StandsFor (d : Double) (n : Nat) : Prop where
  negative : d.negative = false
  ratio : d.ratio.1 = n * d.ratio.2

/-! ## Sign and fields -/

theorem nearestMagnitude_le (num den : Nat) : nearestMagnitude num den ≤ infiniteMagnitude := by
  unfold nearestMagnitude
  split
  · exact Nat.zero_le _
  · exact Nat.min_le_left _ _

theorem negative_ofMagnitude {negative : Bool} {magnitude : Nat} (h : magnitude < signBit) :
    (ofMagnitude negative magnitude).negative = negative := by
  unfold signBit at h
  unfold ofMagnitude Double.negative signBit
  rw [UInt64.toNat_ofNat']
  cases negative with
  | true => simp; omega
  | false => simp; omega

theorem infiniteMagnitude_lt : infiniteMagnitude < signBit := by decide

/-- The other sign can be given before rounding. -/
theorem neg_nearest (num den : Nat) : (nearest false num den).neg = nearest true num den := by
  have hlt := Nat.lt_of_le_of_lt (nearestMagnitude_le num den) infiniteMagnitude_lt
  rw [neg, nearest, negative_ofMagnitude hlt, magnitude_ofMagnitude hlt]
  rfl

/-- The significand and the scale that a magnitude is made of are found again in it. -/
theorem fields_ofMagnitude (negative : Bool) {e : Int} {m : Nat} (he : -1074 ≤ e) (he' : e ≤ 971)
    (hm : m < 2 * hiddenBit) (hlow : e = -1074 ∨ hiddenBit ≤ m) :
    (ofMagnitude negative ((e + 1074).toNat * hiddenBit + m)).significand = m ∧
      (ofMagnitude negative ((e + 1074).toNat * hiddenBit + m)).scale = e := by
  obtain ⟨k, hk⟩ := Int.eq_ofNat_of_zero_le (show 0 ≤ e + 1074 by omega)
  rw [hk, Int.toNat_natCast]
  have hlt : k * hiddenBit + m < signBit := by
    have hmul : k * hiddenBit ≤ 2045 * hiddenBit := Nat.mul_le_mul_right _ (by omega)
    unfold hiddenBit signBit at *
    omega
  unfold significand scale
  rw [magnitude_ofMagnitude hlt]
  by_cases hsmall : k * hiddenBit + m < hiddenBit
  · -- The double is subnormal, and its scale is the least one.
    have hzero : k = 0 := by
      rcases hlow with hlow | hlow
      · omega
      · omega
    rw [if_pos hsmall, if_pos hsmall, hzero, Nat.zero_mul, Nat.zero_add]
    omega
  · rw [if_neg hsmall, if_neg hsmall]
    by_cases hbit : hiddenBit ≤ m
    · have hdiv : (k * hiddenBit + m) / hiddenBit = k + 1 := by
        rw [Nat.div_eq_iff (by decide)]
        constructor
        · rw [Nat.add_mul]
          omega
        · rw [Nat.add_mul]
          omega
      have hmod : (k * hiddenBit + m) % hiddenBit = m - hiddenBit := by
        have := Nat.div_add_mod' (k * hiddenBit + m) hiddenBit
        rw [hdiv, Nat.add_mul] at this
        omega
      rw [hdiv, hmod]
      omega
    · have hzero : k = 0 := by omega
      rw [hzero, Nat.zero_mul, Nat.zero_add] at hsmall
      exact absurd (Nat.lt_of_not_le hbit) hsmall

/-! ## Whole numbers -/

/-- The scale of a number of fifty-three bits times a power of two takes no digit away from it. -/
theorem IsScale.le_of_eq {q : ℚ} {e : Int} {a b : Nat} (he : IsScale q e) (ha : a < 2 ^ 53)
    (h : q = a * 2 ^ (b : Int)) : e ≤ b := by
  obtain ⟨-, -, rfl | hlo⟩ := he
  · omega
  · by_contra hnot
    have hstep : (2 : ℚ) ^ ((b : Int) + 1) ≤ 2 ^ e := zpow_le_zpow_right₀ (by norm_num) (by omega)
    have haq : (a : ℚ) < 2 ^ 53 := by exact_mod_cast ha
    have hpow : (0 : ℚ) < 2 ^ (b : Int) := by positivity
    rw [zpow_add_one₀ (by norm_num)] at hstep
    nlinarith

/-- At its scale such a number is whole. -/
theorem IsScale.exists_whole {q : ℚ} {e : Int} {a b : Nat} (he : IsScale q e) (ha : a < 2 ^ 53)
    (h : q = a * 2 ^ (b : Int)) : ∃ m : Nat, q = m * 2 ^ e := by
  obtain ⟨k, hk⟩ := Int.eq_ofNat_of_zero_le (Int.sub_nonneg_of_le (he.le_of_eq ha h))
  refine ⟨a * 2 ^ k, ?_⟩
  rw [h, show (b : Int) = k + e by omega, zpow_add₀ (by norm_num), zpow_natCast]
  push_cast
  ring

theorem standsFor_of_value {d : Double} {n : Nat} (hnegative : d.negative = false)
    (h : (d.significand : ℚ) * 2 ^ d.scale = n) : d.StandsFor n := by
  have hratio := ratio_value d
  have hne : (d.ratio.2 : ℚ) ≠ 0 := by exact_mod_cast (ratio_den_pos d).ne'
  rw [h, div_eq_iff hne] at hratio
  exact ⟨hnegative, by exact_mod_cast hratio⟩

/-- What is whole at its scale is the double that the two are packed in. -/
theorem standsFor_ofMagnitude {n m : Nat} {e : Int} (he : IsScale n e) (he' : e ≤ 900)
    (h : (n : ℚ) = m * 2 ^ e) :
    (e + 1074).toNat * hiddenBit + m ≤ infiniteMagnitude ∧
      (ofMagnitude false ((e + 1074).toNat * hiddenBit + m)).StandsFor n := by
  obtain ⟨hleast, hhi, hlo⟩ := he
  have hpow : (0 : ℚ) < 2 ^ e := by positivity
  have hm : m < 2 * hiddenBit := by
    rw [h, mul_lt_mul_iff_left₀ hpow] at hhi
    exact_mod_cast hhi
  have hlow : e = -1074 ∨ hiddenBit ≤ m := by
    refine hlo.imp_right fun hlo => ?_
    rw [h, mul_le_mul_iff_left₀ hpow] at hlo
    exact_mod_cast hlo
  have hfinite : (e + 1074).toNat * hiddenBit + m ≤ infiniteMagnitude := by
    have hmul : (e + 1074).toNat * hiddenBit ≤ 1974 * hiddenBit := Nat.mul_le_mul_right _ (by omega)
    calc (e + 1074).toNat * hiddenBit + m ≤ 1974 * hiddenBit + 2 * hiddenBit :=
          Nat.add_le_add hmul hm.le
      _ ≤ infiniteMagnitude := by decide
  have hlt := Nat.lt_of_le_of_lt hfinite infiniteMagnitude_lt
  obtain ⟨hsignificand, hscale⟩ :=
    fields_ofMagnitude false hleast (show e ≤ 971 by omega) hm hlow
  refine ⟨hfinite, standsFor_of_value (negative_ofMagnitude hlt) ?_⟩
  rw [hsignificand, hscale, h]

/-- A whole number that is a number of fifty-three bits times a power of two stands for itself. -/
theorem standsFor_nearest {n a b : Nat} (h : n = a * 2 ^ b) (ha : a < 2 ^ 53) (hb : b ≤ 900) :
    (nearest false n 1).StandsFor n := by
  by_cases hn : n = 0
  · rw [hn]
    refine ⟨by decide, ?_⟩
    rw [ratio_of_isZero (by decide), Nat.zero_mul]
  have hpos : 0 < n := Nat.pos_of_ne_zero hn
  have hvalue : (n : ℚ) = a * 2 ^ (b : Int) := by
    rw [h, zpow_natCast]
    push_cast
    rfl
  have hone : (n : ℚ) / (1 : Nat) = n := by rw [Nat.cast_one, div_one]
  have hscale := isScale_scaleOf hpos Nat.one_pos
  generalize scaleOf n 1 = e at hscale
  rw [hone] at hscale
  have hle : e ≤ b := hscale.le_of_eq ha hvalue
  obtain ⟨m, hwhole⟩ := hscale.exists_whole ha hvalue
  obtain ⟨hfinite, hstands⟩ := standsFor_ofMagnitude hscale (by omega) hwhole
  rw [nearest, nearestMagnitude_of_whole hpos Nat.one_pos (by rwa [hone]) (by rwa [hone]),
    Nat.min_eq_right hfinite]
  exact hstands

variable {a b : Double} {m n : Nat}

/-- The product of whole numbers is rounded once. -/
theorem StandsFor.mul_eq (ha : a.StandsFor m) (hb : b.StandsFor n) :
    a.mul b = nearest false (m * n) 1 := by
  have hratio : a.ratio.1 * b.ratio.1 * 1 = m * n * (a.ratio.2 * b.ratio.2) := by
    rw [ha.ratio, hb.ratio]
    ring
  rw [mul, ha.negative, hb.negative, nearest, nearest,
    nearestMagnitude_congr (Nat.mul_pos (ratio_den_pos a) (ratio_den_pos b)) Nat.one_pos hratio]
  rfl

/-- The quotient of whole numbers is rounded once. -/
theorem StandsFor.div_eq (ha : a.StandsFor m) (hb : b.StandsFor n) (hn : 0 < n) :
    a.div b = nearest false m n := by
  have hratio : a.ratio.1 * b.ratio.2 * n = m * (a.ratio.2 * b.ratio.1) := by
    rw [ha.ratio, hb.ratio]
    ring
  have hpos : 0 < b.ratio.1 := by
    rw [hb.ratio]
    exact Nat.mul_pos hn (ratio_den_pos b)
  rw [div, ha.negative, hb.negative, nearest, nearest,
    nearestMagnitude_congr (Nat.mul_pos (ratio_den_pos a) hpos) hn hratio]
  rfl

end SearchDialect.Number.Double
