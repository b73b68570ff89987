import Mathlib.Algebra.Order.Ring.Abs
import Mathlib.Algebra.Ring.Int.Parity
import SearchDialect.Proofs.Number.Rounding

/-!
# The integer nearest to a double

A finite double stands for a rational number, its `value`, and `roundTiesEven` gives the integer
nearest to that number:

    d.RoundsTo n ↔ d.isFinite ∧ d.roundTiesEven = n.

Of two integers that are equally near it is the even one, so that there is always exactly one
(`IsNearest.unique`). From two to the power of fifty-three on the doubles are integers themselves,
and rounding changes nothing (`eq_ofInt_of_roundsTo`).
-/

namespace SearchDialect.Number

/-! ## Nearest integers -/

/-- An integer to which no other is preferred: none is nearer to the number, and if another one is
equally near, this one is even. -/
structure IsNearest (q : ℚ) (n : ℤ) : Prop where
  nearest : ∀ k : ℤ, |q - n| ≤ |q - k|
  even : ∀ k : ℤ, k ≠ n → |q - k| = |q - n| → Even n

variable {q : ℚ} {n : ℤ}

/-- What is near to one integer is far from the others. -/
theorem one_sub_abs_le {k : ℤ} (h : k ≠ n) : 1 - |q - n| ≤ |q - k| := by
  have hint : (1 : ℤ) ≤ |k - n| := Int.one_le_abs (sub_ne_zero.mpr h)
  have hone : (1 : ℚ) ≤ |(k : ℚ) - n| := by exact_mod_cast hint
  have htriangle := abs_sub_le (k : ℚ) q n
  rw [abs_sub_comm (k : ℚ) q] at htriangle
  linarith

theorem isNearest_of_abs_le (h : |q - n| ≤ 1 / 2) (heven : |q - n| = 1 / 2 → Even n) :
    IsNearest q n where
  nearest := by
    intro k
    by_cases hk : k = n
    · rw [hk]
    · have hfar := one_sub_abs_le (q := q) hk
      linarith
  even := by
    intro k hk heq
    have hfar := one_sub_abs_le (q := q) hk
    apply heven
    linarith

namespace IsNearest

theorem abs_le (h : IsNearest q n) : |q - n| ≤ 1 / 2 := by
  have hup := h.nearest (n + 1)
  have hdown := h.nearest (n - 1)
  push_cast at hup hdown
  -- The neighbour on the side of the number would be nearer.
  rcases abs_cases (q - n) with ⟨habs, _⟩ | ⟨habs, _⟩
  · rcases abs_cases (q - (n + 1)) with ⟨hnext, _⟩ | ⟨hnext, _⟩ <;> linarith
  · rcases abs_cases (q - (n - 1)) with ⟨hnext, _⟩ | ⟨hnext, _⟩ <;> linarith

/-- A number has one nearest integer. -/
theorem unique {m : ℤ} (hm : IsNearest q m) (hn : IsNearest q n) : m = n := by
  by_contra hne
  have heq : |q - m| = |q - n| := le_antisymm (hm.nearest n) (hn.nearest m)
  obtain ⟨a, rfl⟩ := hm.even n (Ne.symm hne) heq.symm
  obtain ⟨b, rfl⟩ := hn.even _ hne heq
  -- Different even integers are two apart, and each is at most a half from the number.
  have htwo : (2 : ℤ) ≤ |(a + a) - (b + b)| := by
    rcases abs_cases ((a + a) - (b + b)) with ⟨habs, _⟩ | ⟨habs, _⟩ <;> omega
  have htwoq : (2 : ℚ) ≤ |((a + a : ℤ) : ℚ) - ((b + b : ℤ) : ℚ)| := by exact_mod_cast htwo
  have htriangle := abs_sub_le ((a + a : ℤ) : ℚ) q ((b + b : ℤ) : ℚ)
  rw [abs_sub_comm ((a + a : ℤ) : ℚ) q] at htriangle
  have hlo := hm.abs_le
  have hhi := hn.abs_le
  linarith

theorem neg (h : IsNearest q n) : IsNearest (-q) (-n) := by
  have hflip (k : ℤ) : |-q - k| = |q - (-k : ℤ)| := by
    rw [← abs_neg]
    push_cast
    ring_nf
  refine ⟨?_, ?_⟩
  · intro k
    rw [hflip, hflip, neg_neg]
    exact h.nearest (-k)
  · intro k hk heq
    rw [hflip, hflip, neg_neg] at heq
    have hk' : -k ≠ n := fun hkn => hk (by rw [← hkn, neg_neg])
    exact (h.even (-k) hk' heq).neg

end IsNearest

theorem isNearest_intCast (n : ℤ) : IsNearest n n := by
  apply isNearest_of_abs_le
  · rw [sub_self, abs_zero]
    norm_num
  · intro h
    rw [sub_self, abs_zero] at h
    norm_num at h

/-! ## Between two integers -/

theorem isNearest_add_of_lt {f : ℚ} (hlo : 0 ≤ f) (hhi : f < 1 / 2) : IsNearest (n + f) n := by
  have habs : |n + f - n| = f := by rw [add_sub_cancel_left, abs_of_nonneg hlo]
  apply isNearest_of_abs_le
  · rw [habs]
    exact hhi.le
  · intro heq
    rw [habs] at heq
    exact absurd heq hhi.ne

theorem isNearest_add_of_gt {f : ℚ} (hlo : 1 / 2 < f) (hhi : f < 1) :
    IsNearest (n + f) (n + 1 : ℤ) := by
  have habs : |n + f - (n + 1 : ℤ)| = 1 - f := by
    push_cast
    rw [add_sub_add_left_eq_sub, abs_of_neg (sub_neg.2 hhi), neg_sub]
  apply isNearest_of_abs_le
  · rw [habs]
    linarith
  · intro heq
    rw [habs] at heq
    linarith

/-- Half-way between two integers the even one is nearest. -/
theorem isNearest_add_half {m : ℤ} (hm : m = n ∨ m = n + 1) (heven : Even m) :
    IsNearest (n + 1 / 2) m := by
  have habs : |(n : ℚ) + 1 / 2 - m| = 1 / 2 := by
    rcases hm with rfl | rfl
    · rw [add_sub_cancel_left, abs_of_pos (by norm_num)]
    · push_cast
      rw [add_sub_add_left_eq_sub, abs_of_neg (by norm_num)]
      norm_num
  exact isNearest_of_abs_le habs.le fun _ => heven

namespace Double

/-- A quotient is rounded to the nearest integer. -/
theorem isNearest_roundDiv {den : ℕ} (hden : 0 < den) (num : ℕ) :
    IsNearest ((num : ℚ) / den) (roundDiv num den : ℕ) := by
  have hdenq : (0 : ℚ) < den := by exact_mod_cast hden
  have hmod : num % den < den := Nat.mod_lt _ hden
  have hdiv : (den : ℚ) * (num / den : ℕ) + (num % den : ℕ) = num := by
    exact_mod_cast Nat.div_add_mod num den
  unfold roundDiv
  generalize num / den = quotient at hdiv
  generalize num % den = rest at hdiv hmod
  have hvalue : (num : ℚ) / den = (quotient : ℤ) + rest / den := by
    rw [← hdiv]
    push_cast
    field_simp
  have hlo : (0 : ℚ) ≤ rest / den := by positivity
  have hhi : (rest : ℚ) / den < 1 := by
    rw [div_lt_one hdenq]
    exact_mod_cast hmod
  have hbelow : (rest : ℚ) / den < 1 / 2 ↔ 2 * rest < den := by
    rw [div_lt_div_iff₀ hdenq two_pos, one_mul, mul_comm]
    exact_mod_cast Iff.rfl
  have habove : 1 / 2 < (rest : ℚ) / den ↔ den < 2 * rest := by
    rw [div_lt_div_iff₀ two_pos hdenq, one_mul, mul_comm]
    exact_mod_cast Iff.rfl
  rw [hvalue]
  simp only
  split
  · next hlt => exact isNearest_add_of_lt hlo (hbelow.2 hlt)
  split
  · next hgt => exact isNearest_add_of_gt (habove.2 hgt) hhi
  · next hlt hgt =>
    have htie : (rest : ℚ) / den = 1 / 2 :=
      le_antisymm (not_lt.1 (mt habove.1 hgt)) (not_lt.1 (mt hbelow.1 hlt))
    rw [htie]
    split
    · next heven =>
      rw [beq_iff_eq] at heven
      apply isNearest_add_half (.inl rfl)
      exact_mod_cast Nat.even_iff.2 heven
    · next hodd =>
      rw [beq_iff_eq] at hodd
      have heven : (quotient + 1) % 2 = 0 := by omega
      apply isNearest_add_half (.inr rfl)
      exact_mod_cast Nat.even_iff.2 heven

/-! ## Values of doubles -/

/-- The number that a finite double stands for. -/
def value (d : Double) : ℚ :=
  if d.negative then -(d.significand * 2 ^ d.scale) else d.significand * 2 ^ d.scale

theorem isNearest_roundTiesEven (d : Double) : IsNearest d.value d.roundTiesEven := by
  have hnearest := isNearest_roundDiv (ratio_den_pos d) d.ratio.1
  rw [ratio_value] at hnearest
  unfold value roundTiesEven applySign
  simp only
  split
  · exact hnearest.neg
  · exact hnearest

/-- A double is rounded to an integer: it is finite, and the integer is nearest to its value. -/
def RoundsTo (d : Double) (n : ℤ) : Prop := d.isFinite = true ∧ IsNearest d.value n

theorem roundsTo_iff {d : Double} {n : ℤ} :
    d.RoundsTo n ↔ d.isFinite = true ∧ d.roundTiesEven = n := by
  refine and_congr_right fun _ => ⟨?_, ?_⟩
  · intro h
    exact d.isNearest_roundTiesEven.unique h
  · rintro rfl
    exact d.isNearest_roundTiesEven

instance (d : Double) (n : ℤ) : Decidable (d.RoundsTo n) := decidable_of_iff' _ roundsTo_iff

/-! ## Large doubles -/

theorem abs_value (d : Double) : |d.value| = d.significand * 2 ^ d.scale := by
  have hnonneg : (0 : ℚ) ≤ d.significand * 2 ^ d.scale := by positivity
  unfold value
  split
  · rw [abs_neg, abs_of_nonneg hnonneg]
  · rw [abs_of_nonneg hnonneg]

/-- The sign of a number that is not zero is the one of its double. -/
theorem negative_eq {d : Double} (h : d.value ≠ 0) : d.negative = decide (d.value < 0) := by
  have hnonneg : (0 : ℚ) ≤ d.significand * 2 ^ d.scale := by positivity
  unfold value at h ⊢
  split
  · next hneg =>
    rw [if_pos hneg, neg_ne_zero] at h
    rw [hneg, eq_comm, decide_eq_true_eq, neg_lt_zero]
    exact lt_of_le_of_ne hnonneg h.symm
  · next hneg =>
    rw [Bool.eq_false_iff.2 hneg, eq_comm, decide_eq_false_iff_not, not_lt]
    exact hnonneg

/-- A double that stands for an integer other than zero is the double of that integer. -/
theorem eq_ofInt_of_value_eq {d : Double} {n : ℤ} (hfinite : d.isFinite = true) (hn : n ≠ 0)
    (h : d.value = n) : d = ofInt n := by
  have hnegative : d.negative = decide (n < 0) := by
    have hne : d.value ≠ 0 := by
      rw [h]
      exact_mod_cast hn
    rw [negative_eq hne, h]
    simp
  have hratio : d.ratio.1 * 1 = n.natAbs * d.ratio.2 := by
    have hden : (0 : ℚ) < d.ratio.2 := by exact_mod_cast ratio_den_pos d
    have hvalue : (d.ratio.1 : ℚ) / d.ratio.2 = n.natAbs := by
      rw [ratio_value, ← abs_value, h, Nat.cast_natAbs, Int.cast_abs]
    rw [div_eq_iff hden.ne'] at hvalue
    rw [Nat.mul_one]
    exact_mod_cast hvalue
  calc d = nearest d.negative d.ratio.1 d.ratio.2 := (nearest_ratio hfinite).symm
    _ = nearest (decide (n < 0)) n.natAbs 1 := by
      rw [nearest, nearest, hnegative, nearestMagnitude_congr (ratio_den_pos d) Nat.one_pos hratio]

/-- A double is an integer, or it has a digit behind the point and is small. -/
theorem value_eq_or_abs_lt (d : Double) : (∃ n : ℤ, d.value = n) ∨ |d.value| < 2 ^ 52 := by
  by_cases hscale : 0 ≤ d.scale
  · left
    obtain ⟨k, hk⟩ := Int.eq_ofNat_of_zero_le hscale
    refine ⟨applySign d.negative (d.significand * 2 ^ k), ?_⟩
    unfold value applySign
    rw [hk, zpow_natCast]
    split
    all_goals push_cast; rfl
  · right
    have hpow : (2 : ℚ) ^ d.scale ≤ 2 ^ (-1 : ℤ) := zpow_le_zpow_right₀ (by norm_num) (by omega)
    rw [abs_value]
    calc (d.significand : ℚ) * 2 ^ d.scale < 2 ^ 53 * 2 ^ d.scale := isScale_scale.2.1
      _ ≤ 2 ^ 53 * 2 ^ (-1 : ℤ) := by gcongr
      _ = 2 ^ 52 := by norm_num

/-- A double that is rounded to a large integer is the double of that integer. -/
theorem eq_ofInt_of_roundsTo {d : Double} {n : ℤ} (h : d.RoundsTo n) (hn : 2 ^ 53 ≤ |n|) :
    d = ofInt n := by
  obtain ⟨hfinite, hnearest⟩ := h
  have hne : n ≠ 0 := by
    rintro rfl
    norm_num at hn
  rcases d.value_eq_or_abs_lt with ⟨m, hm⟩ | hsmall
  · rw [hm] at hnearest
    obtain rfl := (isNearest_intCast m).unique hnearest
    exact eq_ofInt_of_value_eq hfinite hne hm
  · have hnq : (2 : ℚ) ^ 53 ≤ |(n : ℚ)| := by exact_mod_cast hn
    have htriangle := abs_sub_abs_le_abs_sub (n : ℚ) d.value
    have hhalf := hnearest.abs_le
    rw [abs_sub_comm] at hhalf
    norm_num at hnq hsmall hhalf
    linarith

end Double

end SearchDialect.Number
