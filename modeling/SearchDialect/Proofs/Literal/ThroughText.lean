import SearchDialect.Proofs.Literal.Conversion
import SearchDialect.Proofs.Literal.Written
import SearchDialect.Proofs.Text.Utf8
import SearchDialect.Proofs.Time.Reader

/-!
# Conversions to text and back

A literal that is converted to a text and from there to its own kind comes back: an integer with its
sign, a truth value, a character whatever it is, a text as it stands, and a point in time of the
years 0 to 9999. So does a character that is converted to an integer (`convert_throughText`). What is
trimmed on the way back are blanks around a text, and the texts of numbers, truth values and times
hold none.
-/

namespace SearchDialect.Literal

open Number Time Text

/-- A literal that its text tells: a date-time only of the years 0 to 9999, and no double. -/
def IsTold : Literal → Prop
  | null | double _ => False
  | time t => 0 ≤ t.date.year ∧ t.date.year ≤ 9999
  | bool _ | int _ | text _ | char _ => True

/-! ## Texts that are not trimmed -/

theorem trim_intText (i : Int) : trim (intText i).toList = intDigits i := by
  rw [intText, String.toList_ofList]
  apply trim_of_forall
  intro c hc
  rw [Numeral.intDigits_eq] at hc
  have hchar := (Numeral.wellFormed_ofInt i).isNumeralChar_of_mem c hc
  exact isBlank_of_not_isMark (OData.isMark_of_isNumeralChar hchar)

theorem trim_timeText (t : Timestamp) : trim t.text.toList = t.chars := by
  rw [Timestamp.text, String.toList_ofList]
  apply trim_of_forall
  intro c hc
  exact isBlank_of_not_isMark (OData.isMark_of_isTimeChar (t.isTimeChar_of_mem_chars c hc))

theorem readBool?_display (b : Bool) : readBool? (trim (bool b).display.toList) = some b := by
  cases b <;> decide

/-! ## Back from the text -/

theorem convertTo?_display {kind : Kind} {v : Literal} (h : v.IsOf kind) (htold : v.IsTold) :
    (text v.display).convertTo? kind = some v := by
  cases v with
  | null | double _ => exact htold.elim
  | bool b =>
    obtain rfl : kind = .bool := h
    rw [convertTo?, truth?, readBool?_display, Option.map_some]
  | int i =>
    have hread : integer? (text (int i).display) = some i := by
      rw [integer?, display, trim_intText, readInt64?_intDigits]
    cases kind with
    | int => simp [convertTo?, hread, Kind.spans_int_iff.1 h]
    | long => rw [convertTo?, hread, Option.map_some]
    | double | bool | string | datetime | char => exact h.elim
  | text s =>
    obtain rfl : kind = .string := h
    rfl
  | time t =>
    obtain rfl : kind = .datetime := h
    rw [convertTo?, time?, display, trim_timeText, readTimestamp?, readTimestamp_chars htold]
    rfl
  | char c =>
    obtain rfl : kind = .char := h
    rw [convertTo?, char?, display, String.toList_singleton]
    rfl

/-! ## Characters as integers -/

theorem toInt_codePoint (c : Char) : (Int64.ofInt c.toNat).toInt = c.toNat := by
  have hlt := toNat_lt c
  exact Int64.toInt_ofInt_of_le (by omega) (by omega)

theorem charOfInt?_codePoint (c : Char) : charOfInt? (Int64.ofInt c.toNat) = some c := by
  have hnat : (Int64.ofInt c.toNat).toInt.toNat = c.toNat := by
    rw [toInt_codePoint, Int.toNat_natCast]
  have hnonneg : 0 ≤ (Int64.ofInt c.toNat).toInt := by
    rw [toInt_codePoint]
    exact Int.natCast_nonneg _
  have hvalid : (Int64.ofInt c.toNat).toInt.toNat.isValidChar := by
    rw [hnat]
    exact c.valid
  have hchar : Char.ofNatAux _ hvalid = Char.ofNat (Int64.ofInt c.toNat).toInt.toNat :=
    (dif_pos hvalid).symm
  rw [charOfInt?, dif_pos ⟨hnonneg, hvalid⟩, hchar, hnat, Char.ofNat_toNat]

theorem convertTo?_char {kind : Kind} (hkind : kind = .int ∨ kind = .long) (c : Char) :
    (char c).convertTo? kind = some (int (Int64.ofInt c.toNat)) := by
  have hlt := toNat_lt c
  have hfits : fitsInt32 (Int64.ofInt c.toNat).toInt = true := by
    rw [toInt_codePoint, fitsInt32, Bool.and_eq_true, decide_eq_true_eq, decide_eq_true_eq]
    omega
  rcases hkind with rfl | rfl
  · simp only [convertTo?, integer?, Option.filter_some, hfits, if_true, Option.map_some]
  · rfl

/-- A literal comes back from its text, which is what is displayed for it, and a character from its
code point, whether or not the targets are optional. -/
theorem convert_throughText :
    (∀ (kind : Kind) (v : Literal), v.IsOf kind → v.IsTold → ∀ nullable nullable',
      v.convert ⟨.string, nullable⟩ = .ok (text v.display) ∧
      (text v.display).convert ⟨kind, nullable'⟩ = .ok v) ∧
    ∀ (kind : Kind) (c : Char), kind = .int ∨ kind = .long → ∀ nullable nullable',
      ∃ i, (char c).convert ⟨kind, nullable⟩ = .ok (int i) ∧ i.toInt = c.toNat ∧
        (int i).convert ⟨.char, nullable'⟩ = .ok (char c) := by
  refine ⟨?_, ?_⟩
  · intro kind v hv htold nullable nullable'
    have htext : text v.display ≠ null := nofun
    exact ⟨(convert_of_ne_null (ne_null_of_isOf hv)).2 rfl,
      (convert_of_ne_null htext).2 (convertTo?_display hv htold)⟩
  · intro kind c hkind nullable nullable'
    have hchar : char c ≠ null := nofun
    have hint : int (Int64.ofInt c.toNat) ≠ null := nofun
    refine ⟨Int64.ofInt c.toNat, (convert_of_ne_null hchar).2 (convertTo?_char hkind c),
      toInt_codePoint c, (convert_of_ne_null hint).2 ?_⟩
    rw [convertTo?, char?, charOfInt?_codePoint, Option.map_some]

/-- A blank comes back though blanks are trimmed, and so does the least integer. -/
theorem convert_throughText_blankAndLeast :
    IsOf .char (char '\u00a0') ∧ IsOf .long (int (-0x8000000000000000)) ∧
    (char '\u00a0').convert ⟨.string, false⟩ = .ok (text "\u00a0") ∧
    (text "\u00a0").convert ⟨.char, false⟩ = .ok (char '\u00a0') ∧
    (int (-0x8000000000000000)).convert ⟨.string, false⟩ = .ok (text "-9223372036854775808") ∧
    (text "-9223372036854775808").convert ⟨.long, true⟩ = .ok (int (-0x8000000000000000)) ∧
    ∃ i, (char '\u00a0').convert ⟨.int, false⟩ = .ok (int i) ∧ i.toInt = 0xA0 ∧
      (int i).convert ⟨.char, false⟩ = .ok (char '\u00a0') := by
  have hchar : IsOf .char (char '\u00a0') := rfl
  have hint : IsOf .long (int (-0x8000000000000000)) := Kind.spans_long _
  have hdisplay : (int (-0x8000000000000000)).display = "-9223372036854775808" := by decide
  obtain ⟨htext, hcode⟩ := convert_throughText
  obtain ⟨hblank, hblank'⟩ := htext .char _ hchar trivial false false
  obtain ⟨hleast, hleast'⟩ := htext .long _ hint trivial false true
  rw [hdisplay] at hleast hleast'
  exact ⟨hchar, hint, hblank, hblank', hleast, hleast', hcode .int '\u00a0' (.inl rfl) false false⟩

end SearchDialect.Literal
