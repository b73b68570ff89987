import Mathlib.Algebra.Order.Field.Power
import Mathlib.Algebra.Order.Field.Rat
import Mathlib.Tactic.FieldSimp
import Mathlib.Tactic.Linarith
import Mathlib.Tactic.Positivity
import Mathlib.Tactic.Ring
import SearchDialect.Number.Double

/-!
# Rounding to a double

`nearest` is given a quotient of whole numbers, and what it gives depends on the number alone that
the quotient stands for (`nearestMagnitude_congr`): the scale of a number is characterised without
looking at numerator and denominator (`IsScale`), and a common factor of both does not change how
the scaled quotient is rounded. A number that is a double is rounded to itself
(`nearest_ratio`), and no number below two to the power of 128 is rounded to an infinity
(`isFinite_nearest`).
-/

namespace SearchDialect.Number.Double

/-! ## Quotients -/

theorem shifted_den_pos (num : Nat) {den : Nat} (h : 0 < den) (s : Int) :
    0 < (shifted num den s).2 := by
  unfold shifted
  split
  · exact h
  · exact Nat.mul_pos h (Nat.pow_pos (by decide))

/-- A shifted quotient stands for the number times a power of two. -/
theorem shifted_value (num den : Nat) (s : Int) :
    ((shifted num den s).1 : ℚ) / (shifted num den s).2 = num / den * 2 ^ s := by
  unfold shifted
  split
  · next hs =>
    obtain ⟨n, rfl⟩ := Int.eq_ofNat_of_zero_le hs
    rw [Int.toNat_natCast, zpow_natCast, Nat.pow_eq]
    push_cast
    ring
  · next hs =>
    obtain ⟨n, hn⟩ := Int.eq_ofNat_of_zero_le (show 0 ≤ -s by omega)
    have hsn : s = -(n : Int) := by omega
    rw [hn, Int.toNat_natCast, hsn, zpow_neg, zpow_natCast, Nat.pow_eq]
    push_cast
    rw [div_mul_eq_div_div, div_eq_mul_inv (_ / _)]

/-- A common factor stays a common factor. -/
theorem shifted_mul (k num den : Nat) (s : Int) :
    shifted (k * num) (k * den) s = (k * (shifted num den s).1, k * (shifted num den s).2) := by
  unfold shifted
  split
  · rw [Nat.mul_assoc]
  · rw [Nat.mul_assoc]

theorem roundDiv_mul {k : Nat} (hk : 0 < k) (num den : Nat) :
    roundDiv (k * num) (k * den) = roundDiv num den := by
  have hlt : ∀ a b : Nat, k * a < k * b ↔ a < b := fun a b => Nat.mul_lt_mul_left hk
  simp only [roundDiv, Nat.mul_div_mul_left _ _ hk, Nat.mul_mod_mul_left, Nat.mul_left_comm 2 k,
    hlt]

/-- A whole number is not rounded. -/
theorem roundDiv_mul_self {den : Nat} (h : 0 < den) (n : Nat) : roundDiv (n * den) den = n := by
  unfold roundDiv
  rw [Nat.mul_div_cancel _ h, Nat.mul_mod_left, if_pos h]

/-- A quotient that is at most a whole number is not rounded beyond it. -/
theorem roundDiv_le {num den k : Nat} (h : num ≤ k * den) : roundDiv num den ≤ k := by
  rcases Nat.eq_zero_or_pos den with rfl | hden
  · rw [Nat.mul_zero, Nat.le_zero] at h
    simp [roundDiv, h]
  have hdiv := Nat.div_add_mod num den
  have hmod := Nat.mod_lt num hden
  have hle : num / den ≤ k := Nat.div_le_of_le_mul (by rwa [Nat.mul_comm] at h)
  -- Rounding up from `k` itself would need a remainder, and there is no room for one.
  have hup : 0 < num % den → num / den + 1 ≤ k := by
    intro hpos
    by_contra hnot
    have heq : num / den = k := by omega
    rw [heq, Nat.mul_comm] at hdiv
    omega
  unfold roundDiv
  simp only
  split
  · exact hle
  split
  · exact hup (by omega)
  split
  · exact hle
  · exact hup (by omega)

/-! ## Scales -/

/-- The exponent at which a number has a significand of fifty-three bits, or the least one if the
number is too small for that. -/
def IsScale (q : ℚ) (e : Int) : Prop :=
  -1074 ≤ e ∧ q < 2 ^ 53 * 2 ^ e ∧ (e = -1074 ∨ 2 ^ 52 * 2 ^ e ≤ q)

theorem IsScale.le {q : ℚ} {e f : Int} (he : IsScale q e) (hf : IsScale q f) : e ≤ f := by
  obtain ⟨-, -, he⟩ := he
  obtain ⟨hf₀, hf, -⟩ := hf
  rcases he with rfl | he
  · exact hf₀
  · by_contra hlt
    -- With `f` below `e` the upper bound at `f` would be under the lower bound at `e`.
    have hstep : (2 : ℚ) ^ (f + 1) ≤ 2 ^ e := zpow_le_zpow_right₀ (by norm_num) (by omega)
    rw [zpow_add_one₀ (by norm_num)] at hstep
    linarith

theorem IsScale.unique {q : ℚ} {e f : Int} (he : IsScale q e) (hf : IsScale q f) : e = f :=
  Int.le_antisymm (he.le hf) (hf.le he)

theorem isScale_max {q : ℚ} {e : Int} (hlo : 2 ^ 52 * 2 ^ e ≤ q) (hhi : q < 2 ^ 53 * 2 ^ e) :
    IsScale q (max (-1074) e) := by
  by_cases h : e ≤ -1074
  · rw [max_eq_left h]
    have hpow : (2 : ℚ) ^ e ≤ 2 ^ (-1074 : Int) := zpow_le_zpow_right₀ (by norm_num) h
    refine ⟨le_refl _, ?_, .inl rfl⟩
    linarith
  · rw [max_eq_right (by omega)]
    exact ⟨by omega, hhi, .inr hlo⟩

/-- The logarithms of numerator and denominator tell the scale up to one. -/
theorem value_bounds {num den : Nat} (hn : 0 < num) (hd : 0 < den) :
    (2 : ℚ) ^ 52 * 2 ^ ((Nat.log2 num : Int) - Nat.log2 den - 53) ≤ num / den ∧
      (num : ℚ) / den < 2 ^ 54 * 2 ^ ((Nat.log2 num : Int) - Nat.log2 den - 53) := by
  have hn₁ : ((2 : ℚ) ^ Nat.log2 num) ≤ num := by
    exact_mod_cast Nat.log2_self_le hn.ne'
  have hn₂ : (num : ℚ) < 2 ^ (Nat.log2 num + 1) := by
    exact_mod_cast Nat.lt_log2_self
  have hd₁ : ((2 : ℚ) ^ Nat.log2 den) ≤ den := by
    exact_mod_cast Nat.log2_self_le hd.ne'
  have hd₂ : (den : ℚ) < 2 ^ (Nat.log2 den + 1) := by
    exact_mod_cast Nat.lt_log2_self
  have hdpos : (0 : ℚ) < den := by exact_mod_cast hd
  have hpow : ∀ k : Nat, (2 : ℚ) ^ k * 2 ^ ((Nat.log2 num : Int) - Nat.log2 den - 53) =
      2 ^ k * (2 ^ Nat.log2 num / (2 ^ Nat.log2 den * 2 ^ 53)) := by
    intro k
    rw [zpow_sub₀ (by norm_num), zpow_sub₀ (by norm_num), zpow_natCast, zpow_natCast, div_div]
    rfl
  have hpos : (0 : ℚ) < 2 ^ Nat.log2 den := by positivity
  have hpos' : (0 : ℚ) < 2 ^ Nat.log2 num := by positivity
  constructor
  · rw [hpow, le_div_iff₀ hdpos]
    calc (2 : ℚ) ^ 52 * (2 ^ Nat.log2 num / (2 ^ Nat.log2 den * 2 ^ 53)) * den
        ≤ 2 ^ 52 * (2 ^ Nat.log2 num / (2 ^ Nat.log2 den * 2 ^ 53)) * 2 ^ (Nat.log2 den + 1) := by
          gcongr
      _ = 2 ^ Nat.log2 num := by
          field_simp
          ring
      _ ≤ num := hn₁
  · rw [hpow, div_lt_iff₀ hdpos]
    calc (num : ℚ) < 2 ^ (Nat.log2 num + 1) := hn₂
      _ = 2 ^ 54 * (2 ^ Nat.log2 num / (2 ^ Nat.log2 den * 2 ^ 53)) * 2 ^ Nat.log2 den := by
          field_simp
          ring
      _ ≤ 2 ^ 54 * (2 ^ Nat.log2 num / (2 ^ Nat.log2 den * 2 ^ 53)) * den := by gcongr

/-- The scale that is computed is the one of the number. -/
theorem isScale_scaleOf {num den : Nat} (hn : 0 < num) (hd : 0 < den) :
    IsScale (num / den) (scaleOf num den) := by
  obtain ⟨hlo, hhi⟩ := value_bounds hn hd
  unfold scaleOf
  generalize (Nat.log2 num : Int) - Nat.log2 den - 53 = guess at *
  have hpos : 0 < (shifted num den (-guess)).2 := shifted_den_pos num hd _
  have hposq : (0 : ℚ) < ((shifted num den (-guess)).2 : ℚ) := by exact_mod_cast hpos
  have hval := shifted_value num den (-guess)
  rw [zpow_neg] at hval
  have hguess : (0 : ℚ) < 2 ^ guess := by positivity
  -- comparing the floor with the bound is comparing the number
  have hiff : (shifted num den (-guess)).1 / (shifted num den (-guess)).2 < 2 * hiddenBit ↔
      (num : ℚ) / den < 2 ^ 53 * 2 ^ guess := by
    rw [Nat.div_lt_iff_lt_mul hpos, ← Nat.cast_lt (α := ℚ), Nat.cast_mul, ← div_lt_iff₀ hposq, hval,
      ← div_eq_mul_inv, div_lt_iff₀ hguess]
    norm_num [hiddenBit]
  simp only
  split
  · next h => exact isScale_max hlo (hiff.1 h)
  -- The guess was one too small, and the next one is the scale.
  · next h =>
    rw [hiff, not_lt] at h
    apply isScale_max
    · rw [zpow_add_one₀ (by norm_num)]
      linarith
    · rw [zpow_add_one₀ (by norm_num)]
      linarith

theorem scaleOf_congr {num den num' den' : Nat} (hn : 0 < num) (hd : 0 < den) (hn' : 0 < num')
    (hd' : 0 < den') (h : (num : ℚ) / den = num' / den') : scaleOf num den = scaleOf num' den' := by
  have h₁ := isScale_scaleOf hn hd
  have h₂ := isScale_scaleOf hn' hd'
  rw [← h] at h₂
  exact h₁.unique h₂

/-! ## Magnitudes -/

theorem nearestMagnitude_mul {k den : Nat} (hk : 0 < k) (hd : 0 < den) (num : Nat) :
    nearestMagnitude (k * num) (k * den) = nearestMagnitude num den := by
  by_cases hn : num = 0
  · simp only [hn, Nat.mul_zero, nearestMagnitude, if_true]
  · have hpos : 0 < num := Nat.pos_of_ne_zero hn
    have hkq : (k : ℚ) ≠ 0 := by exact_mod_cast hk.ne'
    have hscale : scaleOf (k * num) (k * den) = scaleOf num den := by
      apply scaleOf_congr (Nat.mul_pos hk hpos) (Nat.mul_pos hk hd) hpos hd
      push_cast
      exact mul_div_mul_left _ _ hkq
    unfold nearestMagnitude
    rw [if_neg hn, if_neg (Nat.mul_pos hk hpos).ne']
    simp only [hscale, shifted_mul, roundDiv_mul hk]

/-- Rounding depends on the number that a quotient stands for. -/
theorem nearestMagnitude_congr {num den num' den' : Nat} (hd : 0 < den) (hd' : 0 < den')
    (h : num * den' = num' * den) : nearestMagnitude num den = nearestMagnitude num' den' := by
  rw [← nearestMagnitude_mul hd' hd num, ← nearestMagnitude_mul hd hd' num', Nat.mul_comm den' num,
    Nat.mul_comm den num', h, Nat.mul_comm den' den]

/-- A number that is whole at its scale is not rounded. -/
theorem nearestMagnitude_of_whole {num den m : Nat} {e : Int} (hn : 0 < num) (hd : 0 < den)
    (he : IsScale (num / den) e) (h : (num : ℚ) / den = m * 2 ^ e) :
    nearestMagnitude num den = min infiniteMagnitude ((e + 1074).toNat * hiddenBit + m) := by
  -- A number has one scale, so the computed one is this.
  have hscale : scaleOf num den = e := (isScale_scaleOf hn hd).unique he
  have hpos := shifted_den_pos num hd (-e)
  have hwhole : (shifted num den (-e)).1 = m * (shifted num den (-e)).2 := by
    have hval := shifted_value num den (-e)
    have htwo : (2 : ℚ) ^ e ≠ 0 := by positivity
    have hne : ((shifted num den (-e)).2 : ℚ) ≠ 0 := by exact_mod_cast hpos.ne'
    rw [h, zpow_neg, mul_assoc, mul_inv_cancel₀ htwo, mul_one, div_eq_iff hne] at hval
    exact_mod_cast hval
  simp only [nearestMagnitude, if_neg hn.ne', hscale]
  rw [hwhole, roundDiv_mul_self hpos]

/-! ## Doubles -/

theorem bits_lt (d : Double) : d.bits.toNat < 2 * signBit := d.bits.toNat_lt

@[simp] theorem ofMagnitude_magnitude (d : Double) : ofMagnitude d.negative d.magnitude = d := by
  have hbits := bits_lt d
  have hsum : (if d.negative then signBit else 0) + d.magnitude = d.bits.toNat := by
    unfold negative magnitude
    split
    · next h =>
      rw [decide_eq_true_eq] at h
      rw [Nat.mod_eq_sub_mod h, Nat.mod_eq_of_lt (by omega)]
      omega
    · next h =>
      rw [decide_eq_true_eq, Nat.not_le] at h
      rw [Nat.mod_eq_of_lt h, Nat.zero_add]
  unfold ofMagnitude
  rw [hsum, UInt64.ofNat_toNat]

theorem magnitude_ofMagnitude {negative : Bool} {magnitude : Nat} (h : magnitude < signBit) :
    (ofMagnitude negative magnitude).magnitude = magnitude := by
  unfold signBit at h
  unfold ofMagnitude Double.magnitude signBit
  rw [UInt64.toNat_ofNat']
  cases negative <;> simp <;> omega

theorem ratio_den_pos (d : Double) : 0 < d.ratio.2 := shifted_den_pos _ Nat.one_pos _

theorem ratio_value (d : Double) : (d.ratio.1 : ℚ) / d.ratio.2 = d.significand * 2 ^ d.scale := by
  rw [ratio, shifted_value, Nat.cast_one, div_one]

theorem significand_pos {d : Double} (h : d.isZero = false) : 0 < d.significand := by
  simp only [isZero, beq_eq_false_iff_ne] at h
  unfold significand
  split
  · exact Nat.pos_of_ne_zero h
  · exact Nat.add_pos_left (by decide) _

theorem ratio_of_isZero {d : Double} (h : d.isZero = true) : d.ratio.1 = 0 := by
  have hzero : d.magnitude = 0 := eq_of_beq h
  have hsig : d.significand = 0 := by
    rw [significand, hzero, if_pos (by decide)]
  unfold ratio shifted
  split
  · rw [hsig, Nat.zero_mul]
  · exact hsig

theorem isScale_scale {d : Double} : IsScale (d.significand * 2 ^ d.scale) d.scale := by
  have hpos : (0 : ℚ) < 2 ^ d.scale := by positivity
  have hhi : (d.significand : ℚ) < 2 ^ 53 := by
    -- Fifty-two written bits, and the hidden one if the double is normal.
    have : d.significand < 2 * hiddenBit := by
      unfold significand
      split
      · omega
      · have : d.magnitude % hiddenBit < hiddenBit := Nat.mod_lt _ (by decide)
        omega
    exact_mod_cast this
  refine ⟨?_, by gcongr, ?_⟩
  · unfold scale
    split
    · exact le_refl _
    · have : 1 ≤ d.magnitude / hiddenBit := by
        rw [Nat.le_div_iff_mul_le (by decide)]
        omega
      omega
  · by_cases h : d.magnitude < hiddenBit
    · left
      rw [scale, if_pos h]
    · right
      have : hiddenBit ≤ d.significand := by
        rw [significand, if_neg h]
        exact Nat.le_add_right _ _
      have hlo : (2 : ℚ) ^ 52 ≤ d.significand := by exact_mod_cast this
      gcongr

/-- The significand and the scale of a double as one number are its magnitude. -/
theorem scale_add_significand (d : Double) :
    (d.scale + 1074).toNat * hiddenBit + d.significand = d.magnitude := by
  unfold scale significand
  split
  · rw [show (-1074 + 1074 : Int).toNat = 0 from rfl, Nat.zero_mul, Nat.zero_add]
  · next h =>
    have hdiv : 1 ≤ d.magnitude / hiddenBit := by
      rw [Nat.le_div_iff_mul_le (by decide)]
      omega
    have hscale : ((d.magnitude / hiddenBit : Nat) - 1075 + 1074 : Int).toNat =
        d.magnitude / hiddenBit - 1 := by omega
    have hmod := Nat.div_add_mod' d.magnitude hiddenBit
    -- The exponent counts from one, and what is missing is the hidden bit of the significand.
    have hsub := Nat.sub_one_mul (d.magnitude / hiddenBit) hiddenBit
    have hle : hiddenBit ≤ d.magnitude / hiddenBit * hiddenBit := Nat.le_mul_of_pos_left _ hdiv
    rw [hscale, hsub]
    omega

/-- A finite double is its own rounding. -/
theorem nearest_ratio {d : Double} (h : d.isFinite = true) :
    nearest d.negative d.ratio.1 d.ratio.2 = d := by
  have hfin : d.magnitude < infiniteMagnitude := of_decide_eq_true h
  have hmag : nearestMagnitude d.ratio.1 d.ratio.2 = d.magnitude := by
    cases hz : d.isZero with
    | true =>
      have hzero : d.magnitude = 0 := eq_of_beq hz
      rw [nearestMagnitude, if_pos (ratio_of_isZero hz), hzero]
    | false =>
      have hsig := significand_pos hz
      have hnum : 0 < d.ratio.1 := by
        unfold ratio shifted
        split
        · exact Nat.mul_pos hsig (Nat.pow_pos (by decide))
        · exact hsig
      have hscale := isScale_scale (d := d)
      rw [← ratio_value] at hscale
      rw [nearestMagnitude_of_whole hnum (ratio_den_pos d) hscale (ratio_value d),
        scale_add_significand, Nat.min_eq_right hfin.le]
  rw [nearest, hmag, ofMagnitude_magnitude]

/-- A number of 128 bits is scaled by at most 75 of them. -/
theorem IsScale.le_of_lt {q : ℚ} {e : Int} (he : IsScale q e) (h : q < 2 ^ 128) : e ≤ 75 := by
  obtain ⟨-, -, rfl | hlo⟩ := he
  · decide
  · by_contra hnot
    have hstep : (2 : ℚ) ^ (76 : Int) ≤ 2 ^ e := zpow_le_zpow_right₀ (by norm_num) (by omega)
    have hle : (2 : ℚ) ^ 128 ≤ q := by
      calc (2 : ℚ) ^ 128 = 2 ^ 52 * 2 ^ (76 : Int) := by
            rw [show (76 : Int) = (76 : Nat) from rfl, zpow_natCast, ← pow_add]
        _ ≤ 2 ^ 52 * 2 ^ e := by gcongr
        _ ≤ q := hlo
    exact absurd hle h.not_ge

/-- What lies below two to the power of 128 is not rounded to an infinity. -/
theorem nearestMagnitude_lt {num den : Nat} (hden : 0 < den) (h : num < 2 ^ 128 * den) :
    nearestMagnitude num den < infiniteMagnitude := by
  unfold nearestMagnitude
  split
  · decide
  next hne =>
  have hpos : 0 < num := Nat.pos_of_ne_zero hne
  have hscale := isScale_scaleOf hpos hden
  have hshifted := shifted_den_pos num hden (-scaleOf num den)
  have hval := shifted_value num den (-scaleOf num den)
  simp only
  generalize scaleOf num den = e at *
  generalize shifted num den (-e) = nd at *
  have hlt : (num : ℚ) / den < 2 ^ 128 := by
    have hdenq : (0 : ℚ) < den := by exact_mod_cast hden
    rw [div_lt_iff₀ hdenq]
    exact_mod_cast h
  have hle := hscale.le_of_lt hlt
  obtain ⟨-, hhi, -⟩ := hscale
  have hround : roundDiv nd.1 nd.2 ≤ 2 ^ 53 := by
    apply roundDiv_le
    have hpow : (0 : ℚ) < 2 ^ e := by positivity
    have hdenq : (0 : ℚ) < nd.2 := by exact_mod_cast hshifted
    have hbound : (nd.1 : ℚ) ≤ 2 ^ 53 * nd.2 := by
      rw [← div_le_iff₀ hdenq, hval, zpow_neg, ← div_eq_mul_inv, div_le_iff₀ hpow]
      exact hhi.le
    exact_mod_cast hbound
  have hexponent : (e + 1074).toNat ≤ 1149 := by omega
  have hmul : (e + 1074).toNat * hiddenBit ≤ 1149 * hiddenBit := Nat.mul_le_mul_right _ hexponent
  unfold infiniteMagnitude hiddenBit at *
  omega

theorem isFinite_nearest {num den : Nat} (negative : Bool) (hden : 0 < den)
    (h : num < 2 ^ 128 * den) : (nearest negative num den).isFinite = true := by
  have hlt := nearestMagnitude_lt hden h
  unfold isFinite nearest
  rw [magnitude_ofMagnitude (Nat.lt_trans hlt (by decide))]
  exact decide_eq_true hlt

/-- An integer of 64 bits, signed or unsigned, is far from the infinities. -/
theorem isFinite_ofInt {i : Int} (h : i.natAbs < 2 ^ 64) : (ofInt i).isFinite = true := by
  apply isFinite_nearest _ Nat.one_pos
  rw [Nat.mul_one]
  exact Nat.lt_trans h (Nat.pow_lt_pow_right (by decide) (by decide))

end SearchDialect.Number.Double
