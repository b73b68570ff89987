import SearchDialect.Json.Decimal
import SearchDialect.Proofs.Number.Exact
import SearchDialect.Proofs.Number.Numeral

/-!
# Decimals that are read exactly

A reader of JSON rounds a decimal more than once, and a double need not survive that its own numeral
is read (`Survives`). A numeral of fifty-three bits with a small power of ten is read as the double
nearest to it (`IsModerate.decimal?_eq`): its significand and the power of ten are doubles, so that
nothing is rounded before the last step. So the doubles whose numerals are of this kind survive
(`survives_of_isModerate`).
-/

namespace SearchDialect.Json

open Number Double

/-- The double that the numeral of a double is read as. -/
def reparsedDouble? (d : Double) : Option Double := decimal? (Numeral.ofFinite d)

/-- A double that is read back from its own numeral. -/
def Survives (d : Double) : Prop := reparsedDouble? d = some d

instance (d : Double) : Decidable (Survives d) := inferInstanceAs (Decidable (_ = _))

/-! ## Digits -/

/-- All digits are gathered if the number has sixty-four bits. -/
theorem gather_ofDigits {as bs : List Char} (h : ofDigits (as ++ bs) < 0x10000000000000000) :
    gather (ofDigits as) bs = (ofDigits (as ++ bs), []) := by
  induction bs generalizing as with
  | nil => rw [List.append_nil, gather]
  | cons c cs ih =>
    have hnext : 10 * ofDigits as + digitValue c = ofDigits (as ++ [c]) := by
      rw [ofDigits, ofDigits, List.foldl_append]
      rfl
    have hsplit : as ++ c :: cs = as ++ [c] ++ cs := by rw [List.append_assoc, List.singleton_append]
    rw [hsplit] at h ⊢
    have hle : ofDigits (as ++ [c]) ≤ ofDigits (as ++ [c] ++ cs) := by
      rw [ofDigits_append (as ++ [c])]
      exact Nat.le_trans (Nat.le_mul_of_pos_left _ (by positivity)) (Nat.le_add_right _ _)
    rw [gather]
    simp only [hnext, Nat.lt_of_le_of_lt hle h, if_true]
    exact ih h

/-! ## One rounding -/

theorem standsFor_ofInt {n : Nat} (h : n < 2 ^ 53) : (Double.ofInt n).StandsFor n := by
  have hsign : decide ((n : Int) < 0) = false := decide_eq_false (by omega)
  rw [Double.ofInt, hsign, Int.natAbs_natCast]
  exact standsFor_nearest (b := 0) (by rw [Nat.pow_zero, Nat.mul_one]) h (by decide)

/-- Twenty-two factors of five have fifty-three bits. -/
theorem standsFor_powerOfTen {k : Nat} (h : k ≤ 22) : (powerOfTen k).StandsFor (10 ^ k) := by
  have hten : 10 ^ k = 5 ^ k * 2 ^ k := by rw [← Nat.mul_pow]
  have hfive : 5 ^ k < 2 ^ 53 :=
    Nat.lt_of_le_of_lt (Nat.pow_le_pow_right (by decide) h) (by decide)
  exact standsFor_nearest hten hfive (by omega)

/-- A significand of fifty-three bits and a small power of ten are rounded once. -/
theorem scaled?_ofInt {n : Nat} {e : Int} (hn : n < 2 ^ 53) (he : e.natAbs ≤ 22) :
    scaled? (Double.ofInt n) e = some (nearest false (decimalRatio n e).1 (decimalRatio n e).2) := by
  unfold scaled? decimalRatio
  split
  · next hup =>
    have hk : e.toNat ≤ 22 := by omega
    have hfinite : (nearest false (n * 10 ^ e.toNat) 1).isFinite = true := by
      apply isFinite_nearest _ Nat.one_pos
      calc n * 10 ^ e.toNat < 2 ^ 53 * 10 ^ 22 :=
            Nat.mul_lt_mul_of_lt_of_le hn (Nat.pow_le_pow_right (by decide) hk) (by decide)
        _ < 2 ^ 128 * 1 := by decide
    rw [scaledUp?, if_pos (by unfold maxPower; omega)]
    simp only [(standsFor_ofInt hn).mul_eq (standsFor_powerOfTen hk)]
    exact if_pos hfinite
  · next hdown =>
    have hk : (-e).toNat ≤ 22 := by omega
    rw [scaledDown, if_pos (by unfold maxPower; omega),
      (standsFor_ofInt hn).div_eq (standsFor_powerOfTen hk) (by positivity)]
    rfl

/-- Between the bounds of what is infinite or zero a decimal is rounded. -/
theorem ofDecimal_eq_nearest {n : Nat} {e : Int} (negative : Bool) (hn : n < 2 ^ 53)
    (he : e.natAbs ≤ 22) : ofDecimal negative n e =
      nearest negative (decimalRatio n e).1 (decimalRatio n e).2 := by
  by_cases hzero : n = 0
  · have hratio : (decimalRatio 0 e).1 = 0 := by
      unfold decimalRatio
      split
      · exact Nat.zero_mul _
      · rfl
    rw [hzero, ofDecimal_zero, nearest, hratio, nearestMagnitude, if_pos rfl]
  · have hwidth : (toDigits n).length ≤ 16 :=
      (Nat.length_toDigits_le_iff (by decide) (by decide)).2 (Nat.lt_trans hn (by decide))
    rw [ofDecimal_eq hzero, if_neg (by omega), if_neg (by omega)]

/-! ## Numerals -/

/-- A numeral whose digits make a number of fifty-three bits and whose power of ten is small. -/
structure IsModerate (n : Numeral) : Prop where
  significand : ofDigits (n.whole ++ n.fraction) < 2 ^ 53
  power : (n.exponent.getD 0 - n.fraction.length).natAbs ≤ 22
  exponent : (n.exponent.getD 0).natAbs ≤ maxExponent

/-- A moderate numeral is read as the double nearest to it. -/
theorem IsModerate.decimal?_eq {n : Numeral} (h : IsModerate n) : decimal? n = some n.toDouble := by
  have hwhole : gather 0 n.whole = (ofDigits n.whole, []) := by
    have hle : ofDigits n.whole ≤ ofDigits (n.whole ++ n.fraction) := by
      rw [ofDigits_append]
      exact Nat.le_trans (Nat.le_mul_of_pos_left _ (by positivity)) (Nat.le_add_right _ _)
    have hlt := Nat.lt_trans h.significand (show 2 ^ 53 < 0x10000000000000000 by decide)
    exact @gather_ofDigits [] n.whole (Nat.lt_of_le_of_lt hle hlt)
  have hfraction : gather (ofDigits n.whole) n.fraction = (ofDigits (n.whole ++ n.fraction), []) :=
    gather_ofDigits (Nat.lt_trans h.significand (by decide))
  have hexponent : ((([] : List Char).length : Int) + ([] : List Char).length - n.fraction.length) +
      n.exponent.getD 0 = n.exponent.getD 0 - n.fraction.length := by
    rw [List.length_nil]
    omega
  unfold decimal? magnitude?
  simp only [hwhole, hfraction, hexponent, if_neg (Nat.not_lt.2 h.exponent),
    scaled?_ofInt h.significand h.power, Option.map_some]
  rw [Numeral.toDouble, ofDecimal_eq_nearest _ h.significand h.power]
  cases n.negative with
  | false => rfl
  | true => exact congrArg some (neg_nearest _ _)

/-- A double with a moderate numeral is read back from it. -/
theorem survives_of_isModerate {d : Double} (hd : d.isFinite = true)
    (h : IsModerate (Numeral.ofFinite d)) : Survives d := by
  rw [Survives, reparsedDouble?, h.decimal?_eq, Numeral.toDouble_ofFinite hd]

/-- A double with a numeral of seventeen digits, which are more than fifty-three bits. -/
def uneven : Double := ofDecimal false 51248178375505404 (-15)

/-- The roundings of the significand and of the quotient add up, so that the numeral is read as another
double. -/
theorem reparsedDouble?_uneven :
    reparsedDouble? uneven = some (ofDecimal false 5124817837550541 (-14)) ∧
      uneven ≠ ofDecimal false 5124817837550541 (-14) := by
  decide +kernel

end SearchDialect.Json
