import SearchDialect.Proofs.Number.Digits
import SearchDialect.Proofs.Number.Rounding
import SearchDialect.Number.Numeral

/-!
# Round trip of doubles

The shortest decimal of a finite double is read back as the double (`readsBack_shortest`), and so is
the numeral it is written as:

    (Numeral.ofFinite d).toDouble = d.

A decimal that the search finds was tried before it was taken; where the search finds none, all
digits of the double are taken, which stand for its exact value. What is left is that moving zeros
between the digits and the exponent does not change what is read (`ofDecimal_pow_mul`).
-/

namespace SearchDialect.Number

namespace Double

/-! ## Moving zeros -/

/-- The quotient that is rounded for a decimal. -/
def decimalRatio (digits : Nat) (exponent : Int) : Nat × Nat :=
  if 0 ≤ exponent then (digits * Nat.pow 10 exponent.toNat, 1)
  else (digits, Nat.pow 10 (-exponent).toNat)

theorem decimalRatio_den_pos (n : Nat) (e : Int) : 0 < (decimalRatio n e).2 := by
  unfold decimalRatio
  split
  · exact Nat.one_pos
  · exact Nat.pow_pos (by decide)

/-- Reading a decimal: far out it is infinite or zero, in between it is rounded. -/
theorem ofDecimal_eq {n : Nat} (hn : n ≠ 0) (neg : Bool) (e : Int) : ofDecimal neg n e =
    if 310 < ((toDigits n).length : Int) + e then ofMagnitude neg infiniteMagnitude
    else if ((toDigits n).length : Int) + e < -330 then ofMagnitude neg 0
    else nearest neg (decimalRatio n e).1 (decimalRatio n e).2 := by
  unfold ofDecimal decimalRatio toDigits
  rw [if_neg hn]
  split
  · rfl
  split
  · rfl
  split <;> rfl

theorem ofDecimal_zero (neg : Bool) (e : Int) : ofDecimal neg 0 e = ofMagnitude neg 0 := by
  rw [ofDecimal, if_pos rfl]

/-- A zero at the end of the digits is a step of the exponent. -/
theorem ofDecimal_mul_ten (neg : Bool) (n : Nat) (e : Int) :
    ofDecimal neg (10 * n) e = ofDecimal neg n (e + 1) := by
  by_cases hn : n = 0
  · rw [hn, Nat.mul_zero, ofDecimal_zero, ofDecimal_zero]
  · have hwidth : ((toDigits (10 * n)).length : Int) + e = (toDigits n).length + (e + 1) := by
      rw [width_mul_ten hn]
      push_cast
      omega
    rw [ofDecimal_eq (by omega), ofDecimal_eq hn, hwidth]
    have hratio : nearestMagnitude (decimalRatio (10 * n) e).1 (decimalRatio (10 * n) e).2 =
        nearestMagnitude (decimalRatio n (e + 1)).1 (decimalRatio n (e + 1)).2 := by
      apply nearestMagnitude_congr (decimalRatio_den_pos _ _) (decimalRatio_den_pos _ _)
      -- One case on each side of the decimal point, and one across it.
      unfold decimalRatio
      by_cases he : 0 ≤ e
      · obtain ⟨k, rfl⟩ := Int.eq_ofNat_of_zero_le he
        rw [if_pos he, if_pos (by omega)]
        show 10 * n * 10 ^ k * 1 = n * 10 ^ (k + 1) * 1
        ring
      by_cases he' : e = -1
      · subst he'
        show 10 * n * 1 = n * 10 ^ 0 * 10 ^ 1
        ring
      · obtain ⟨k, hk⟩ := Int.eq_ofNat_of_zero_le (show 0 ≤ -(e + 1) by omega)
        rw [if_neg he, if_neg (by omega), hk, show -e = ((k + 1 : Nat) : Int) by omega]
        show 10 * n * 10 ^ k = n * 10 ^ (k + 1)
        ring
    simp only [nearest, hratio]

/-- Zeros at the end of the digits are steps of the exponent. -/
theorem ofDecimal_pow_mul (neg : Bool) (k n : Nat) (e : Int) :
    ofDecimal neg (10 ^ k * n) e = ofDecimal neg n (e + k) := by
  induction k generalizing e with
  | zero => rw [Nat.pow_zero, Nat.one_mul, Nat.cast_zero, Int.add_zero]
  | succ k ih =>
    rw [Nat.pow_succ', Nat.mul_assoc, ofDecimal_mul_ten, ih]
    push_cast
    ring_nf

end Double

namespace Decimal

open Double

/-! ## All digits -/

theorem scale_le {d : Double} (h : d.isFinite = true) : -1074 ≤ d.scale ∧ d.scale ≤ 971 := by
  have hfin : d.magnitude < infiniteMagnitude := of_decide_eq_true h
  have hdiv : d.magnitude / hiddenBit < 2047 := by
    rw [Nat.div_lt_iff_lt_mul (by decide)]
    exact hfin
  have hlo := (isScale_scale (d := d)).1
  unfold scale at *
  split at * <;> omega

theorem significand_lt (d : Double) : d.significand < 2 ^ 53 := by
  have hmod : d.magnitude % hiddenBit < hiddenBit := Nat.mod_lt _ (by decide)
  have hpow : 2 * hiddenBit = 2 ^ 53 := by decide
  unfold significand
  split <;> omega

/-- Sixteen factors of two weigh less than seven factors of five. -/
theorem two_pow_le_five_pow (w : Nat) : 2 ^ w ≤ 5 ^ (7 * ((w + 15) / 16)) := by
  calc 2 ^ w ≤ 2 ^ (16 * ((w + 15) / 16)) := Nat.pow_le_pow_right (by decide) (by omega)
    _ = (2 ^ 16) ^ ((w + 15) / 16) := Nat.pow_mul _ _ _
    _ ≤ (5 ^ 7) ^ ((w + 15) / 16) := Nat.pow_le_pow_left (by norm_num) _
    _ = 5 ^ (7 * ((w + 15) / 16)) := (Nat.pow_mul _ _ _).symm

theorem ten_pow_le_five_pow {w k : Nat} (hk : k ≤ 1074) (h : w + 331 ≤ k) : 10 ^ w ≤ 5 ^ k := by
  calc 10 ^ w = 2 ^ w * 5 ^ w := by rw [← Nat.mul_pow]
    _ ≤ 5 ^ (7 * ((w + 15) / 16)) * 5 ^ w := Nat.mul_le_mul_right _ (two_pow_le_five_pow w)
    _ = 5 ^ (7 * ((w + 15) / 16) + w) := (Nat.pow_add _ _ _).symm
    _ ≤ 5 ^ k := Nat.pow_le_pow_right (by decide) (by omega)

/-- The exact decimal of a double lies where decimals are rounded. -/
theorem exact_width {d : Double} (h : d.isFinite = true) (hz : d.isZero = false) :
    ((toDigits (exact d).digits).length : Int) + (exact d).exponent ≤ 310 ∧
      -330 ≤ ((toDigits (exact d).digits).length : Int) + (exact d).exponent := by
  obtain ⟨hlo, hhi⟩ := scale_le h
  have hsig := significand_pos hz
  have hlt := significand_lt d
  unfold exact
  split
  · next hs =>
    obtain ⟨k, hk⟩ := Int.eq_ofNat_of_zero_le hs
    have hk971 : k ≤ 971 := by omega
    rw [hk, Int.toNat_natCast]
    have hbound : d.significand * Nat.pow 2 k < 10 ^ 310 := by
      calc d.significand * 2 ^ k ≤ 2 ^ 53 * 2 ^ 971 :=
            Nat.mul_le_mul hlt.le (Nat.pow_le_pow_right (by decide) hk971)
        _ < 10 ^ 310 := by decide +kernel
    have hwidth := (Nat.length_toDigits_le_iff (by decide) (by decide)).2 hbound
    simp only [toDigits]
    omega
  · next hs =>
    obtain ⟨k, hk⟩ := Int.eq_ofNat_of_zero_le (show 0 ≤ -d.scale by omega)
    have hk1074 : k ≤ 1074 := by omega
    rw [hk, Int.toNat_natCast]
    have hbound : d.significand * Nat.pow 5 k < 10 ^ (16 + k) := by
      calc d.significand * 5 ^ k ≤ 2 ^ 53 * 5 ^ k := Nat.mul_le_mul_right _ hlt.le
        _ < 10 ^ 16 * 5 ^ k := Nat.mul_lt_mul_of_pos_right (by norm_num) (by positivity)
        _ ≤ 10 ^ 16 * 10 ^ k := Nat.mul_le_mul_left _ (Nat.pow_le_pow_left (by decide) k)
        _ = 10 ^ (16 + k) := (Nat.pow_add _ _ _).symm
    have hwidth := (Nat.length_toDigits_le_iff (by decide) (by omega)).2 hbound
    -- With fewer digits the power of five alone would be too large.
    have hwide : k ≤ (toDigits (d.significand * Nat.pow 5 k)).length + 330 := by
      by_contra hcon
      have hsmall : d.significand * 5 ^ k < _ := lt_pow_width (d.significand * Nat.pow 5 k)
      have hfive := ten_pow_le_five_pow hk1074 (Nat.lt_of_not_le hcon)
      have hone : 5 ^ k ≤ d.significand * 5 ^ k := Nat.le_mul_of_pos_left _ hsig
      omega
    simp only [toDigits] at *
    omega

/-- All digits of a double stand for its value. -/
theorem readsBack_exact {d : Double} (h : d.isFinite = true) (hz : d.isZero = false) :
    readsBack d (exact d) = true := by
  obtain ⟨hhi, hlo⟩ := exact_width h hz
  have hsig := significand_pos hz
  have hdigits : (exact d).digits ≠ 0 := by
    unfold exact
    split
    · exact (Nat.mul_pos hsig (Nat.pow_pos (by decide))).ne'
    · exact (Nat.mul_pos hsig (Nat.pow_pos (by decide))).ne'
  have hratio : nearestMagnitude (decimalRatio (exact d).digits (exact d).exponent).1
      (decimalRatio (exact d).digits (exact d).exponent).2 =
      nearestMagnitude d.ratio.1 d.ratio.2 := by
    apply nearestMagnitude_congr (decimalRatio_den_pos _ _) (ratio_den_pos d)
    unfold exact ratio shifted
    split
    · simp [decimalRatio]
    · next hs =>
      simp only [decimalRatio, if_neg hs]
      show d.significand * 5 ^ (-d.scale).toNat * (1 * 2 ^ (-d.scale).toNat) =
        d.significand * 10 ^ (-d.scale).toNat
      rw [Nat.one_mul, Nat.mul_assoc, ← Nat.mul_pow]
  unfold readsBack
  rw [ofDecimal_eq hdigits, if_neg (by omega), if_neg (by omega), nearest, hratio, beq_iff_eq]
  exact nearest_ratio h

/-! ## The shortest digits -/

theorem readsBack_strip {d : Double} {c : Decimal} (fuel : Nat) (h : readsBack d c = true) :
    readsBack d (strip fuel c) = true := by
  induction fuel generalizing c with
  | zero => exact h
  | succ fuel ih =>
    unfold strip
    split
    · next hten =>
      simp only [Bool.and_eq_true, beq_iff_eq, bne_iff_ne] at hten
      apply ih
      have hdigits : c.digits = 10 * (c.digits / 10) := by omega
      unfold readsBack at h ⊢
      rwa [hdigits, ofDecimal_mul_ten] at h
    · exact h

/-- The shortest decimal of a finite double is read back as the double. -/
theorem readsBack_shortest (tie : Tie) {d : Double} (h : d.isFinite = true) :
    readsBack d (shortest tie d) = true := by
  unfold shortest
  cases hz : d.isZero with
  | true =>
    rw [if_pos rfl]
    unfold readsBack
    have hmag : d.magnitude = 0 := eq_of_beq hz
    rw [ofDecimal_zero, beq_iff_eq, ← hmag, ofMagnitude_magnitude]
  | false =>
    rw [if_neg (by decide)]
    refine readsBack_strip 17 ?_
    -- What the search finds was tried, and if it finds nothing all digits are taken.
    cases hfound : (List.range' 1 17).findSome? (neighbour? tie d) with
    | none => exact readsBack_exact h hz
    | some c =>
      obtain ⟨p, -, hp⟩ := List.exists_of_findSome?_eq_some hfound
      exact readsBack_of_neighbour? hp

/-- Only zero has the digits of zero. -/
theorem shortest_digits {tie : Tie} {d : Double} (h : d.isFinite = true) :
    (shortest tie d).digits ≠ 0 ∨ (shortest tie d) = ⟨0, 0⟩ := by
  cases hz : d.isZero with
  | true =>
    right
    rw [shortest, hz, if_pos rfl]
  | false =>
    left
    intro hdigits
    have hback := readsBack_shortest tie h
    unfold readsBack at hback
    rw [hdigits, ofDecimal_zero, beq_iff_eq] at hback
    have hzero : d.magnitude = 0 := by
      rw [← hback]
      cases d.negative <;> rfl
    simp [isZero, hzero] at hz

end Decimal

end SearchDialect.Number
