import SearchDialect.Proofs.Number.Shortest

/-!
# Numerals of doubles and integers

The numeral a finite double is written as is well formed, is told from an integer by its point or
exponent, and stands for the double:

    (Numeral.ofFinite d).toDouble = d.
-/

namespace SearchDialect.Number.Numeral

open Double

/-- The digits before the point are at least one, without a superfluous zero in front. -/
structure WellFormed (n : Numeral) : Prop where
  whole_ne_nil : n.whole ≠ []
  whole : AllDigits n.whole
  fraction : AllDigits n.fraction
  leading : n.whole = ['0'] ∨ ∀ ds, n.whole ≠ '0' :: ds

/-! ## Values -/

/-- A decimal without an exponent has the value of the decimal. -/
theorem toDouble_positional (neg : Bool) (d : Decimal) :
    (positional neg d).toDouble = ofDecimal neg d.digits d.exponent := by
  unfold positional
  simp only
  split
  · next he =>
    obtain ⟨k, hk⟩ := Int.eq_ofNat_of_zero_le he
    rw [toDouble, hk, Int.toNat_natCast]
    show ofDecimal neg (ofDigits (toDigits d.digits ++ List.replicate k '0' ++ [])) 0 = _
    rw [List.append_nil, ofDigits_trailing, ofDigits_toDigits, ofDecimal_pow_mul, Int.zero_add]
  split
  · next he hp =>
    rw [toDouble]
    simp only [List.take_append_drop, ofDigits_toDigits, Option.getD_none, List.length_drop]
    congr 1
    omega
  · next he hp =>
    rw [toDouble]
    show ofDecimal neg (ofDigits (List.replicate 1 '0' ++ (List.replicate _ '0' ++ _))) _ = _
    rw [ofDigits_leading, ofDigits_leading, ofDigits_toDigits]
    simp only [Option.getD_none, List.length_append, List.length_replicate]
    congr 1
    omega

/-- A point and a zero at the end change nothing. -/
theorem toDouble_pointed (n : Numeral) : n.pointed.toDouble = n.toDouble := by
  unfold pointed
  split
  · next h =>
    simp only [Bool.and_eq_true, List.isEmpty_iff, Option.isNone_iff_eq_none] at h
    simp only [toDouble, h.1, h.2, List.append_nil]
    show ofDecimal _ (ofDigits (n.whole ++ List.replicate 1 '0')) (0 - 1) = ofDecimal _ _ (0 - 0)
    rw [ofDigits_trailing, ofDecimal_pow_mul]
    rfl
  · rfl

/-- A decimal with an exponent has the value of the decimal. -/
theorem toDouble_scientific (neg : Bool) (d : Decimal) :
    (scientific neg d).toDouble = ofDecimal neg d.digits d.exponent := by
  have hpos := width_pos d.digits
  rw [scientific, toDouble]
  simp only [List.take_append_drop, ofDigits_toDigits, Option.getD_some, List.length_drop]
  congr 1
  omega

/-- The numeral of a finite double stands for the double. -/
theorem toDouble_ofFinite {d : Double} (h : d.isFinite = true) : (ofFinite d).toDouble = d := by
  have hback : ofDecimal d.negative (Decimal.shortest .even d).digits
      (Decimal.shortest .even d).exponent = d :=
    eq_of_beq (Decimal.readsBack_shortest .even h)
  unfold ofFinite
  simp only
  split
  · rw [toDouble_pointed, toDouble_positional, hback]
  · rw [toDouble_scientific, hback]

/-! ## Forms -/

/-- The digits of a number and their beginnings have no superfluous zero in front. -/
theorem leading_take {n k : Nat} (hk : 0 < k) (hn : n ≠ 0 ∨ (toDigits n).take k = ['0']) :
    (toDigits n).take k = ['0'] ∨ ∀ ds, (toDigits n).take k ≠ '0' :: ds := by
  rcases hn with hn | hn
  · right
    intro ds hds
    cases hd : toDigits n with
    | nil => exact toDigits_ne_nil n hd
    | cons c cs =>
      obtain ⟨j, rfl⟩ := Nat.exists_eq_add_of_lt hk
      rw [hd, show 0 + j + 1 = j + 1 by omega, List.take_succ_cons] at hds
      rw [(List.cons.inj hds).1] at hd
      exact head_toDigits hn _ hd
  · exact .inl hn

theorem wellFormed_ofInt (i : Int) : (ofInt i).WellFormed where
  whole_ne_nil := toDigits_ne_nil _
  whole := allDigits_toDigits _
  fraction := fun _ hc => absurd hc List.not_mem_nil
  leading := by
    by_cases hi : i.natAbs = 0
    · left
      rw [ofInt, hi]
      rfl
    · exact .inr (head_toDigits hi)

theorem wellFormed_scientific (neg : Bool) (d : Decimal) : (scientific neg d).WellFormed where
  whole_ne_nil := by
    simp [scientific, toDigits_ne_nil]
  whole := (allDigits_toDigits _).take 1
  fraction := (allDigits_toDigits _).drop 1
  leading := by
    apply leading_take Nat.one_pos
    by_cases hn : d.digits = 0
    · right
      rw [hn]
      rfl
    · exact .inl hn

theorem wellFormed_positional (neg : Bool) {d : Decimal} (hd : d.digits ≠ 0 ∨ d = ⟨0, 0⟩) :
    (positional neg d).WellFormed := by
  rcases hd with hn | rfl
  · unfold positional
    simp only
    split
    · refine ⟨?_, (allDigits_toDigits _).append (allDigits_replicate _),
        fun _ hc => absurd hc List.not_mem_nil, .inr ?_⟩
      · simp [toDigits_ne_nil]
      · intro ds hds
        cases hd : toDigits d.digits with
        | nil => exact toDigits_ne_nil _ hd
        | cons c cs =>
          rw [hd, List.cons_append] at hds
          rw [(List.cons.inj hds).1] at hd
          exact head_toDigits hn _ hd
    split
    · next hp =>
      refine ⟨?_, (allDigits_toDigits _).take _, (allDigits_toDigits _).drop _,
        leading_take (by omega) (.inl hn)⟩
      rw [ne_eq, List.take_eq_nil_iff]
      rintro (h | h)
      · omega
      · exact toDigits_ne_nil _ h
    · exact ⟨List.cons_ne_nil _ _, allDigits_replicate 1,
        (allDigits_replicate _).append (allDigits_toDigits _), .inl rfl⟩
  · exact ⟨List.cons_ne_nil _ _, allDigits_replicate 1, fun _ hc => absurd hc List.not_mem_nil,
      .inl rfl⟩

theorem WellFormed.pointed {n : Numeral} (h : n.WellFormed) : n.pointed.WellFormed := by
  unfold Numeral.pointed
  split
  · exact ⟨h.whole_ne_nil, h.whole, allDigits_replicate 1, h.leading⟩
  · exact h

/-- A numeral with a point or an exponent. -/
def IsPointed (n : Numeral) : Prop := (n.fraction.isEmpty && n.exponent.isNone) = false

theorem isPointed_pointed (n : Numeral) : n.pointed.IsPointed := by
  unfold Numeral.pointed
  split
  · rfl
  · next h => exact Bool.eq_false_iff.2 h

theorem wellFormed_ofFinite {d : Double} (h : d.isFinite = true) : (ofFinite d).WellFormed := by
  unfold ofFinite
  simp only
  split
  · exact (wellFormed_positional _ (Decimal.shortest_digits h)).pointed
  · exact wellFormed_scientific _ _

theorem isPointed_ofFinite (d : Double) : (ofFinite d).IsPointed := by
  unfold ofFinite
  simp only
  split
  · exact isPointed_pointed _
  · exact Bool.and_false _

/-- An integer is written as its numeral. -/
theorem intDigits_eq (i : Int) : intDigits i = (ofInt i).text := by
  unfold intDigits text ofInt
  by_cases h : i < 0
  · simp [h]
  · simp [h]

/-! ## Characters -/

/-- A character of a written number. -/
def isNumeralChar (c : Char) : Bool := c.isDigit || c == '-' || c == '+' || c == '.' || c == 'e'

theorem isNumeralChar_of_allDigits {ds : List Char} (h : AllDigits ds) :
    ∀ c ∈ ds, isNumeralChar c = true := by
  intro c hc
  simp [isNumeralChar, h c hc]

theorem WellFormed.isNumeralChar_of_mem {n : Numeral} (h : n.WellFormed) :
    ∀ c ∈ n.text, isNumeralChar c = true := by
  have hsign : ∀ c ∈ (if n.negative then ['-'] else []), isNumeralChar c = true := by
    split <;> simp [isNumeralChar]
  have hfraction : ∀ c ∈ (if n.fraction.isEmpty then [] else '.' :: n.fraction),
      isNumeralChar c = true := by
    split
    · exact List.forall_mem_nil _
    · rw [List.forall_mem_cons]
      exact ⟨by decide, isNumeralChar_of_allDigits h.fraction⟩
  have hexponent (e : Int) : ∀ c ∈ 'e' :: exponentText e, isNumeralChar c = true := by
    rw [exponentText, List.forall_mem_cons, List.forall_mem_cons]
    refine ⟨by decide, ?_, isNumeralChar_of_allDigits (allDigits_toDigits _)⟩
    split <;> decide
  rw [text]
  simp only [List.forall_mem_append]
  refine ⟨⟨⟨hsign, isNumeralChar_of_allDigits h.whole⟩, hfraction⟩, ?_⟩
  cases n.exponent with
  | none => exact List.forall_mem_nil _
  | some e => exact hexponent e

end SearchDialect.Number.Numeral
