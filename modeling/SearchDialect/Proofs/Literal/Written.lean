import SearchDialect.Proofs.Literal.Lexeme
import SearchDialect.Proofs.Number.Numeral
import SearchDialect.Proofs.Predicate.Meaning
import SearchDialect.Proofs.Time.Printer

/-!
# What is written for a literal

Where a text or a character is due, both languages write the display of a value between quotes, and
it is read back to the last character (`scan_textLiteral`). Where another kind is due a value is
written as it is displayed. Numbers, truth values and points in time are displayed as one word; a
text or a character need not be, and then it is more than one literal, or none
(`isLiteral_literal_iff`).
-/

namespace SearchDialect

open Text Number Time

/-! ## Texts between quotes -/

namespace OData

theorem literal_of_isTextual {kind : Kind} (hk : kind.isTextual = true) {v : Literal}
    (hv : v.isNull = false) : literal kind v = String.ofList (quoteDoubled v.display.toList) := by
  cases kind with
  | string | char => simp [literal, hv]
  | int | long | double | bool | datetime => cases hk

theorem toList_literal_of_isTextual {kind : Kind} (hk : kind.isTextual = true) {v : Literal}
    (hv : v.isNull = false) : (literal kind v).toList = quoteDoubled v.display.toList := by
  rw [literal_of_isTextual hk hv, String.toList_ofList]

theorem scanDoubled?_literal {kind : Kind} (hk : kind.isTextual = true) {v : Literal}
    (hv : v.isNull = false) {rest : List Char} (hrest : rest.head? ≠ some '\'') :
    scanDoubled? ((literal kind v).toList ++ rest) = some (v.display.toList, rest) := by
  rw [toList_literal_of_isTextual hk hv]
  exact scanDoubled?_quoteDoubled _ hrest

theorem literal_null (kind : Kind) : literal kind .null = "null" := rfl

end OData

namespace Lucene

theorem toList_literal_of_isTextual {kind : Kind} (hk : kind.isTextual = true) (v : Literal) :
    (literal kind v).toList = quoteEscaped v.display.toList := by
  rw [literal, if_pos hk, phrase]
  exact String.toList_ofList

theorem scanEscaped?_literal {kind : Kind} (hk : kind.isTextual = true) (v : Literal)
    (rest : List Char) :
    scanEscaped? ((literal kind v).toList ++ rest) = some (v.display.toList, rest) := by
  rw [toList_literal_of_isTextual hk]
  exact scanEscaped?_quoteEscaped _ _

end Lucene

/-- What is read back is only written for what is displayed alike. -/
theorem display_eq_of_scan {scan : List Char → Option (List Char × List Char)} {s t : String}
    {v w : Literal} (hv : scan (s.toList ++ []) = some (v.display.toList, []))
    (hw : scan (t.toList ++ []) = some (w.display.toList, [])) (h : s = t) :
    v.display = w.display := by
  subst h
  rw [hv, Option.some.injEq, Prod.mk.injEq] at hw
  exact String.toList_inj.1 hw.1

/-- Where a text or a character is due, a value is read back from what is written, and the reader
stops where the writer did: in OData before anything but a quote, in Lucene before anything. So what
is written alike is displayed alike, and nothing is written like a missing value. -/
theorem scan_textLiteral {kind : Kind} (hk : kind.isTextual = true) {v : Literal}
    (hv : v.isNull = false) :
    (∀ rest : List Char, rest.head? ≠ some '\'' →
      scanDoubled? ((OData.literal kind v).toList ++ rest) = some (v.display.toList, rest)) ∧
    (∀ rest : List Char,
      scanEscaped? ((Lucene.literal kind v).toList ++ rest) = some (v.display.toList, rest)) ∧
    (∀ kind' w, kind'.isTextual = true → w.isNull = false →
      (OData.literal kind v = OData.literal kind' w ↔ v.display = w.display) ∧
      (Lucene.literal kind v = Lucene.literal kind' w ↔ v.display = w.display)) ∧
    (∀ kind', OData.literal kind v ≠ OData.literal kind' .null) ∧
    Lucene.literal kind v ≠ Literal.null.display := by
  have hnil : ([] : List Char).head? ≠ some '\'' := by decide
  refine ⟨fun _ => OData.scanDoubled?_literal hk hv, Lucene.scanEscaped?_literal hk v, ?_, ?_, ?_⟩
  · intro kind' w hk' hw
    refine ⟨⟨?_, ?_⟩, ⟨?_, ?_⟩⟩
    · exact display_eq_of_scan (OData.scanDoubled?_literal hk hv hnil)
        (OData.scanDoubled?_literal hk' hw hnil)
    · intro h
      rw [OData.literal_of_isTextual hk hv, OData.literal_of_isTextual hk' hw, h]
    · exact display_eq_of_scan (Lucene.scanEscaped?_literal hk v [])
        (Lucene.scanEscaped?_literal hk' w [])
    · intro h
      rw [Lucene.literal, Lucene.literal, if_pos hk, if_pos hk', h]
  · intro kind' h
    have hquote := OData.toList_literal_of_isTextual hk hv
    rw [h, OData.literal_null] at hquote
    exact absurd (List.cons.inj hquote).1 (by decide)
  · intro h
    have hquote := Lucene.toList_literal_of_isTextual hk v
    rw [h] at hquote
    exact absurd (List.cons.inj hquote).1 (by decide)

/-- Quotes and backslashes up to the last character. -/
theorem scan_textLiteral_marksLast :
    Kind.isTextual .string = true ∧ (Literal.text "it''s '\"\\").isNull = false ∧
    OData.literal .string (.text "it''s '\"\\") = "'it''''s ''\"\\'" ∧
    scanDoubled? "'it''''s ''\"\\' and Id ne 'b'".toList =
      some ("it''s '\"\\".toList, " and Id ne 'b'".toList) ∧
    Lucene.literal .string (.text "it''s '\"\\") = "\"it''s '\\\"\\\\\"" ∧
    scanEscaped? "\"it''s '\\\"\\\\\"\"b\"".toList = some ("it''s '\"\\".toList, "\"b\"".toList) := by
  have hk : Kind.isTextual .string = true := rfl
  have hv : (Literal.text "it''s '\"\\").isNull = false := rfl
  obtain ⟨hodata, hlucene, -⟩ := scan_textLiteral hk hv
  refine ⟨hk, hv, by decide, hodata " and Id ne 'b'".toList (by decide), by decide,
    hlucene "\"b\"".toList⟩

/-! ## Words -/

namespace OData

theorem isMark_of_isNumeralChar {c : Char} (h : Numeral.isNumeralChar c = true) :
    isMark c = false := by
  simp only [Numeral.isNumeralChar, Bool.or_eq_true, beq_iff_eq] at h
  rcases h with (((h | rfl) | rfl) | rfl) | rfl
  · exact isMark_of_isDigit h
  all_goals decide

theorem isMark_of_isTimeChar {c : Char} (h : isTimeChar c = true) : isMark c = false := by
  simp only [isTimeChar, Bool.or_eq_true, beq_iff_eq] at h
  rcases h with (((((h | rfl) | rfl) | rfl) | rfl) | rfl) | rfl
  · exact isMark_of_isDigit h
  all_goals decide

theorem isWord_numeral {n : Numeral} (h : n.WellFormed) : IsWord n.text where
  ne_nil := by
    simp [Numeral.text, h.whole_ne_nil]
  unmarked := fun c hc => isMark_of_isNumeralChar (h.isNumeralChar_of_mem c hc)

theorem isWord_double (d : Double) : IsWord d.display.toList := by
  unfold Double.display
  split
  · decide
  split
  · split
    all_goals decide
  · next hfinite =>
    rw [String.toList_ofList]
    apply isWord_numeral
    exact Numeral.wellFormed_positional _ (Decimal.shortest_digits (by simpa using hfinite))

theorem isWord_time (t : Timestamp) : IsWord t.chars where
  ne_nil := by
    simp [Timestamp.chars]
  unmarked := fun c hc => isMark_of_isTimeChar (t.isTimeChar_of_mem_chars c hc)

theorem isWord_milliseconds (t : Timestamp) : IsWord t.milliseconds.toList where
  ne_nil := by
    simp [Timestamp.milliseconds]
  unmarked := fun c hc => isMark_of_isTimeChar (t.isTimeChar_of_mem_milliseconds c hc)

theorem isLiteral_singleton_iff (c : Char) : IsLiteral [c] ↔ isMark c = false := by
  rw [isLiteral_iff_closes]
  constructor
  · rintro (h | ⟨ds, hds, text, rfl⟩)
    · exact h.unmarked c List.mem_cons_self
    · simp at hds
  · intro h
    exact .inl ⟨List.cons_ne_nil _ _, by simpa using h⟩

/-! ## Literals of all kinds -/

/-- A value is displayed as one literal. Only texts and characters need not be. -/
def IsPlain : Literal → Prop
  | .text s => IsLiteral s.toList
  | .char c => isMark c = false
  | _ => True

/-- A value of which one literal is written where a value of a kind is due: texts and characters go
between quotes, and of a text that is a date-time the point in time is written. -/
def FitsKind (kind : Kind) (v : Literal) : Prop :=
  kind.isTextual = true ∨ IsPlain v ∨
    kind = .datetime ∧ ∃ s t, v = .text s ∧ readTimestamp? s.toList = some t

theorem isLiteral_display_iff (v : Literal) : IsLiteral v.display.toList ↔ IsPlain v := by
  have hword {s : String} (h : IsWord s.toList) : IsLiteral s.toList ↔ True :=
    iff_true_intro (.word h)
  cases v with
  | null => exact hword (by decide)
  | bool b => cases b <;> exact hword (by decide)
  | int i =>
    apply hword
    rw [Literal.display, intText, String.toList_ofList, Numeral.intDigits_eq]
    exact isWord_numeral (Numeral.wellFormed_ofInt _)
  | double d => exact hword (isWord_double d)
  | text s => rfl
  | time t =>
    apply hword
    rw [Literal.display, Timestamp.text, String.toList_ofList]
    exact isWord_time t
  | char c =>
    rw [Literal.display, String.toList_singleton]
    exact isLiteral_singleton_iff c

theorem isLiteral_timeLiteral_iff (v : Literal) :
    IsLiteral (timeLiteral v).toList ↔
      IsPlain v ∨ ∃ s t, v = .text s ∧ readTimestamp? s.toList = some t := by
  have hdisplay (h : timeLiteral v = v.display)
      (hnone : ∀ s t, v = .text s → readTimestamp? s.toList ≠ some t) :
      IsLiteral (timeLiteral v).toList ↔
        IsPlain v ∨ ∃ s t, v = .text s ∧ readTimestamp? s.toList = some t := by
    rw [h, isLiteral_display_iff, or_iff_left]
    rintro ⟨s, t, hs, ht⟩
    exact hnone s t hs ht
  cases v with
  | time t => exact iff_of_true (.word (isWord_milliseconds t)) (.inl trivial)
  | text s =>
    cases hs : readTimestamp? s.toList with
    | some t =>
      refine iff_of_true (.word ?_) (.inr ⟨s, t, rfl, hs⟩)
      rw [timeLiteral, hs]
      exact isWord_milliseconds t
    | none =>
      apply hdisplay
      · rw [timeLiteral, hs]
        rfl
      · intro s' t heq ht
        cases heq
        rw [hs] at ht
        cases ht
  | null | bool _ | int _ | double _ | char _ =>
    apply hdisplay rfl
    intro _ _ heq
    cases heq

theorem isLiteral_iff_fitsKind (kind : Kind) {v : Literal} (hv : v.isNull = false) :
    IsLiteral (literal kind v).toList ↔ FitsKind kind v := by
  have htextual (hk : kind.isTextual = true) :
      IsLiteral (literal kind v).toList ↔ FitsKind kind v := by
    refine iff_of_true ?_ (.inl hk)
    rw [toList_literal_of_isTextual hk hv]
    exact .quoted _
  have hplain (hk : kind.isTextual = false) (hkind : kind ≠ .datetime) :
      FitsKind kind v ↔ IsLiteral v.display.toList := by
    simp [FitsKind, hk, hkind, isLiteral_display_iff]
  have hnull : ¬v.isNull = true := by simp [hv]
  cases kind with
  | string | char => exact htextual rfl
  | bool =>
    rw [hplain rfl (by decide), literal, if_neg hnull, lowercase, String.toList_ofList]
    exact isLiteral_lowerAfter_iff _ _
  | datetime =>
    rw [literal, if_neg hnull]
    simpa [FitsKind, Kind.isTextual] using isLiteral_timeLiteral_iff v
  | int | long | double => rw [hplain rfl (by decide), literal, if_neg hnull]

variable {ι : Type} {family : Family ι} {m : Model ι}

/-- In the condition of a property a value is written after the comparison. It is one literal if and
only if it fits the kind of the property, and then a reader takes the whole of it and nothing else,
whatever mark other than a quote comes next. -/
theorem isLiteral_literal_iff {p : String} {kind : Kind} (hkind : m.kindAt family p = .ok kind)
    (c : Comparison) {v : Literal} (hv : v.isNull = false) :
    condition family m (.condition p c v) =
      .ok (path p ++ " " ++ c.word ++ " " ++ literal kind v) ∧
    (IsLiteral (literal kind v).toList ↔ FitsKind kind v) ∧
    (FitsKind kind v → ∀ rest : List Char, (∀ c ∈ rest.head?, isMark c = true ∧ c ≠ '\'') →
      scanLiteral? ((literal kind v).toList ++ rest) = some ((literal kind v).toList, rest)) := by
  refine ⟨?_, isLiteral_iff_fitsKind kind hv, ?_⟩
  · have htokens := Expr.tokens_condition dialect hkind c v
    rw [condition, Dialect.condition_of_tokens dialect htokens]
    simp [Dialect.text, Dialect.tokenText, dialect]
  · intro h rest hrest
    exact scanLiteral?_append ((isLiteral_iff_fitsKind kind hv).2 h) hrest

/-- A text that looks like the end of a literal and a second condition stays one literal. -/
theorem isLiteral_literal_quoteAndOr :
    (Storefront.family .product).kindAt Storefront.family "Id" = .ok .string ∧
    (Literal.text "x' or Id ne '").isNull = false ∧
    condition Storefront.family (Storefront.family .product)
      (.condition "Id" .eq (.text "x' or Id ne '")) = .ok "Id eq 'x'' or Id ne '''" ∧
    IsLiteral "'x'' or Id ne '''".toList ∧
    scanLiteral? "'x'' or Id ne ''' and Stock gt 7".toList =
      some ("'x'' or Id ne '''".toList, " and Stock gt 7".toList) := by
  have hkind : (Storefront.family .product).kindAt Storefront.family "Id" = .ok .string := by
    decide
  have hv : (Literal.text "x' or Id ne '").isNull = false := rfl
  have hfits : FitsKind .string (.text "x' or Id ne '") := .inl rfl
  obtain ⟨hcondition, hliteral, hscan⟩ := isLiteral_literal_iff hkind .eq hv
  have hblank : ∀ c ∈ " and Stock gt 7".toList.head?, isMark c = true ∧ c ≠ '\'' := by
    rintro c ⟨⟩
    decide
  exact ⟨hkind, hv, hcondition, hliteral.2 hfits, hscan hfits _ hblank⟩

/-- Where a date-time is due, a text that is none is written as it stands. It can hold a connective
and a second condition, and then nothing in the text tells one filter from two. -/
theorem not_isLiteral_literal_dateAndOr :
    (Storefront.family .product).kindAt Storefront.family "Created" = .ok .datetime ∧
    ¬IsLiteral (literal .datetime (.text "2020-01-02T03:04:05.000Z or IsActive eq true")).toList ∧
    condition Storefront.family (Storefront.family .product)
        (.condition "Created" .ge (.text "2020-01-02T03:04:05.000Z or IsActive eq true")) =
      .ok "Created ge 2020-01-02T03:04:05.000Z or IsActive eq true" ∧
    condition Storefront.family (Storefront.family .product)
        ((Filter.condition "Created" .ge (.text "2020-01-02T03:04:05Z")).link .or
          (.condition "IsActive" .eq (.bool true))) =
      .ok "Created ge 2020-01-02T03:04:05.000Z or IsActive eq true" := by
  decide

end OData

end SearchDialect
