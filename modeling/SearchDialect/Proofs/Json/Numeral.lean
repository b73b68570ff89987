import SearchDialect.Json.Written
import SearchDialect.Proofs.Json.Decimal

/-!
# Numbers in JSON

A well-formed numeral is read as a whole up to a character that cannot continue a number
(`scanNumber?_text`). The numeral of an integer of 64 bits means this integer, and the numeral of a
finite double a double, which need not be the same (`numberToJson?_ofInt`,
`numberToJson?_ofFinite`).
-/

namespace SearchDialect.Json

open Number

/-- Nothing that continues a number stands at the front. -/
def EndsNumber (cs : List Char) : Prop :=
  ∀ c ∈ cs.head?, c.isDigit = false ∧ c ≠ '.' ∧ c ≠ 'e' ∧ c ≠ 'E'

theorem endsNumber_cons {c : Char} (h : c.isDigit = false ∧ c ≠ '.' ∧ c ≠ 'e' ∧ c ≠ 'E')
    (cs : List Char) : EndsNumber (c :: cs) := by
  intro d hd
  rwa [← Option.some.inj hd]

/-! ## Grammar -/

/-- The digits before the point are read up to anything else. -/
theorem scanWhole?_append {ds r : List Char} (hne : ds ≠ []) (hds : AllDigits ds)
    (hlead : ds = ['0'] ∨ ∀ es, ds ≠ '0' :: es) (hr : ∀ c ∈ r.head?, c.isDigit = false) :
    scanWhole? (ds ++ r) = some (ds, r) := by
  rcases hlead with rfl | hlead
  · rfl
  · cases ds with
    | nil => exact absurd rfl hne
    | cons c ds =>
      have hc : c ≠ '0' := fun h => hlead ds (by rw [h])
      rw [List.cons_append, scanWhole?, if_neg hc, if_pos (hds c List.mem_cons_self),
        spanDigits_append (fun d hd => hds d (List.mem_cons_of_mem _ hd)) hr]

/-- The point and the digits after it, or nothing. -/
def fractionPart (ds : List Char) : List Char := if ds.isEmpty then [] else '.' :: ds

theorem scanFraction?_append {ds r : List Char} (hds : AllDigits ds)
    (hr : ∀ c ∈ r.head?, c.isDigit = false ∧ c ≠ '.') :
    scanFraction? (fractionPart ds ++ r) = some (ds, r) := by
  unfold fractionPart
  cases ds with
  | nil =>
    show scanFraction? r = _
    unfold scanFraction?
    split
    · next cs => exact absurd rfl (hr '.' rfl).2
    · rfl
  | cons d ds =>
    show scanFraction? ('.' :: (d :: ds ++ r)) = _
    rw [scanFraction?, spanDigits_append hds fun c hc => (hr c hc).1]
    rfl

/-- The exponent with its letter, or nothing. -/
def exponentPart : Option Int → List Char
  | none => []
  | some e => 'e' :: Numeral.exponentText e

theorem scanExponentDigits?_append (neg : Bool) (n : Nat) {r : List Char}
    (hr : ∀ c ∈ r.head?, c.isDigit = false) :
    scanExponentDigits? neg (toDigits n ++ r) = some (Double.applySign neg n, r) := by
  have hempty : (toDigits n).isEmpty = false := List.isEmpty_eq_false_iff.2 (toDigits_ne_nil n)
  simp only [scanExponentDigits?, spanDigits_append (allDigits_toDigits n) hr, hempty,
    Bool.false_eq_true, if_false, ofDigits_toDigits]

theorem scanExponent?_append (e : Option Int) {r : List Char} (hr : EndsNumber r) :
    scanExponent? (exponentPart e ++ r) = some (e, r) := by
  have hdigit : ∀ c ∈ r.head?, c.isDigit = false := fun c hc => (hr c hc).1
  cases e with
  | none =>
    cases r with
    | nil => rfl
    | cons c r =>
      obtain ⟨-, -, he, hE⟩ := hr c rfl
      have hletter : ¬(c = 'e' ∨ c = 'E') := by
        rintro (h | h)
        · exact he h
        · exact hE h
      show scanExponent? (c :: r) = _
      simp only [scanExponent?, if_neg hletter]
  | some e =>
    by_cases hneg : e < 0
    · have htext : exponentPart (some e) ++ r = 'e' :: '-' :: (toDigits e.natAbs ++ r) := by
        rw [exponentPart, Numeral.exponentText, if_pos hneg]
        rfl
      have hval : Double.applySign true e.natAbs = e := by
        unfold Double.applySign
        rw [if_pos rfl]
        omega
      rw [htext, scanExponent?, if_pos (.inl rfl)]
      simp only [scanExponentDigits?_append true e.natAbs hdigit, Option.map_some, hval]
    · have htext : exponentPart (some e) ++ r = 'e' :: '+' :: (toDigits e.natAbs ++ r) := by
        rw [exponentPart, Numeral.exponentText, if_neg hneg]
        rfl
      have hval : Double.applySign false e.natAbs = e := by
        unfold Double.applySign
        rw [if_neg (by decide)]
        omega
      rw [htext, scanExponent?, if_pos (.inl rfl)]
      simp only [scanExponentDigits?_append false e.natAbs hdigit, Option.map_some, hval]

theorem text_eq (n : Numeral) : n.text = (if n.negative then ['-'] else []) ++
    (n.whole ++ (fractionPart n.fraction ++ exponentPart n.exponent)) := by
  rw [Numeral.text, List.append_assoc, List.append_assoc]
  cases n.exponent <;> rfl

theorem head?_exponentPart {e : Option Int} {r : List Char} (hr : EndsNumber r) {c : Char}
    (hc : c ∈ (exponentPart e ++ r).head?) : c.isDigit = false ∧ c ≠ '.' := by
  cases e with
  | none => exact ⟨(hr c hc).1, (hr c hc).2.1⟩
  | some e =>
    rw [← Option.some.inj hc]
    decide

theorem head?_fractionPart {ds : List Char} {e : Option Int} {r : List Char} (hr : EndsNumber r)
    {c : Char} (hc : c ∈ (fractionPart ds ++ (exponentPart e ++ r)).head?) : c.isDigit = false := by
  cases ds with
  | nil => exact (head?_exponentPart hr hc).1
  | cons d ds =>
    rw [← Option.some.inj hc]
    decide

/-- A well-formed numeral is read as it stands. -/
theorem scanNumber?_text {n : Numeral} (hn : n.WellFormed) {r : List Char} (hr : EndsNumber r) :
    scanNumber? (n.text ++ r) = some (n, r) := by
  have hunsigned : scanUnsigned? n.negative
      (n.whole ++ (fractionPart n.fraction ++ (exponentPart n.exponent ++ r))) = some (n, r) := by
    rw [scanUnsigned?, scanWhole?_append hn.whole_ne_nil hn.whole hn.leading
      fun c hc => head?_fractionPart hr hc]
    simp only [Option.bind_eq_bind, Option.bind_some]
    rw [scanFraction?_append hn.fraction fun c hc => head?_exponentPart hr hc]
    simp only [Option.bind_some, scanExponent?_append n.exponent hr]
    rfl
  have htext : n.text ++ r = (if n.negative then ['-'] else []) ++
      (n.whole ++ (fractionPart n.fraction ++ (exponentPart n.exponent ++ r))) := by
    rw [text_eq, List.append_assoc, List.append_assoc, List.append_assoc]
  rw [htext]
  cases hneg : n.negative with
  | true =>
    rw [hneg] at hunsigned
    exact hunsigned
  | false =>
    rw [hneg] at hunsigned
    show scanNumber? (n.whole ++ _) = _
    unfold scanNumber?
    split
    · next cs hcs =>
      -- a digit is no minus
      cases hw : n.whole with
      | nil => exact absurd hw hn.whole_ne_nil
      | cons c ds =>
        rw [hw, List.cons_append] at hcs
        have hc := hn.whole c (by rw [hw]; exact List.mem_cons_self)
        rw [(List.cons.inj hcs).1] at hc
        exact absurd hc (by decide)
    · exact hunsigned

/-- The number in front of a text is no other token. -/
theorem head_text {n : Numeral} (hn : n.WellFormed) :
    ∃ c cs, n.text = c :: cs ∧ (c = '-' ∨ c.isDigit = true) := by
  rw [text_eq]
  cases n.negative with
  | true => exact ⟨'-', _, rfl, .inl rfl⟩
  | false =>
    cases hw : n.whole with
    | nil => exact absurd hw hn.whole_ne_nil
    | cons c ds => exact ⟨c, _, rfl, .inr (hn.whole c (by rw [hw]; exact List.mem_cons_self))⟩

/-! ## Meaning -/

namespace Written

/-- The integers that numbers of 64 bits can hold, signed or not. -/
def IsWide (i : Int) : Prop := -0x8000000000000000 ≤ i ∧ i < 0x10000000000000000

theorem numberToJson?_ofInt {i : Int} (h : IsWide i) :
    numberToJson? (Numeral.ofInt i) = some (.int i) := by
  have hval : Double.applySign (decide (i < 0)) i.natAbs = i := by
    unfold Double.applySign
    split
    · next h => rw [decide_eq_true_eq] at h; omega
    · next h => rw [decide_eq_true_eq] at h; omega
  have hzero : ¬(decide (i < 0) && i == 0) = true := by
    rw [Bool.and_eq_true, decide_eq_true_eq, beq_iff_eq]
    omega
  unfold numberToJson? Numeral.ofInt
  simp only [List.isEmpty_nil, Option.isNone_none, Bool.and_self, if_true, ofDigits_toDigits, hval]
  rw [if_neg hzero]
  exact if_pos h

theorem numberToJson?_ofFinite (d : Double) :
    numberToJson? (Numeral.ofFinite d) = (reparsedDouble? d).map .double := by
  have hpoint : ((Numeral.ofFinite d).fraction.isEmpty && (Numeral.ofFinite d).exponent.isNone) =
      false := Numeral.isPointed_ofFinite d
  unfold numberToJson?
  simp only [hpoint, Bool.false_eq_true, if_false]
  rfl

end Written

end SearchDialect.Json
