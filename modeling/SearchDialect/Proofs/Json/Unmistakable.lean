import SearchDialect.Proofs.Json.Printer
import SearchDialect.Proofs.Text.Unmistakable

/-!
# Unmistakable JSON texts

The text of a value is unmistakable exactly if its strings and names are
(`unmistakableIff_chars`). Underscores only come from these: an escape neither brings one nor a
character that makes one look like the middle of a token, and every string stands between quotes.
-/

namespace SearchDialect.Json

open Number Text

/-! ## Strings -/

/-- The characters before an underscore that may make it look like the middle of a token. -/
def starts : List Char := ['-', '\x7d', ']', 'v', 'x']

theorem mem_starts_of_lookalikes : ∀ ends ∈ lookalikes, ∀ a ∈ ends.1, a ∈ starts := by
  simp [lookalikes, starts]

theorem ne_of_lookalikes : ∀ ends ∈ lookalikes, ∀ b ∈ ends.2, b ≠ '"' ∧ b ≠ '\\' := by
  simp [lookalikes]

/-- What makes an underscore look like the middle of a token is written as it is. -/
theorem escape_of_lookalikes : ∀ ends ∈ lookalikes, ∀ a ∈ ends.1, ∀ b ∈ ends.2,
    escape [a, '_', b] = [a, '_', b] := by
  simp only [lookalikes, List.forall_mem_cons, List.not_mem_nil, IsEmpty.forall_iff, implies_true,
    and_true]
  decide

theorem not_mem_starts_of_shortEscape? {e : Char} (h : shortEscape? e ≠ none) : e ∉ starts := by
  intro he
  simp only [starts, List.mem_cons, List.not_mem_nil, or_false] at he
  rcases he with rfl | rfl | rfl | rfl | rfl <;> exact h rfl

theorem not_mem_starts_of_hexValue? {d : Char} (h : hexValue? d ≠ none) : d ∉ starts := by
  intro hd
  simp only [starts, List.mem_cons, List.not_mem_nil, or_false] at hd
  rcases hd with rfl | rfl | rfl | rfl | rfl <;> exact h rfl

/-- The digits of a unit have values. -/
theorem hexValue?_of_hexUnit? {a b : Char} {n : Nat} (h : hexUnit? '0' '0' a b = some n) :
    hexValue? a ≠ none ∧ hexValue? b ≠ none := by
  constructor
  · intro ha
    rw [hexUnit?, ha] at h
    cases h
  · intro hb
    rw [hexUnit?, hb] at h
    cases ha : hexValue? a <;> rw [ha] at h <;> cases h

/-- A character is written as itself, or by a backslash and characters after which no underscore
looks like the middle of a token. -/
theorem escaped_cases {c : Char} {w : List Char} (h : Escaped c w) :
    w = [c] ∨ w.head? = some '\\' ∧ ∀ x ∈ w, x ∉ starts := by
  have hbackslash : '\\' ∉ starts := by decide
  cases h with
  | @short e he hu =>
    refine .inr ⟨rfl, ?_⟩
    simp only [List.forall_mem_cons, List.not_mem_nil, false_implies, implies_true, and_true]
    exact ⟨hbackslash, not_mem_starts_of_shortEscape? (by rw [he]; exact nofun)⟩
  | @unit a b hx hc =>
    obtain ⟨ha, hb⟩ := hexValue?_of_hexUnit? hx
    refine .inr ⟨rfl, ?_⟩
    simp only [List.forall_mem_cons, List.not_mem_nil, false_implies, implies_true, and_true]
    exact ⟨hbackslash, by decide, by decide, by decide, not_mem_starts_of_hexValue? ha,
      not_mem_starts_of_hexValue? hb⟩
  | plain hq hb hc => exact .inl rfl

/-- The rest of a string as it is written, with its closing quote. -/
def stringRest (cs : List Char) : List Char := escape cs ++ ['"']

theorem stringRest_cons (c : Char) (cs : List Char) :
    stringRest (c :: cs) = escapeChar c ++ stringRest cs := by
  rw [stringRest, stringRest, ← List.append_assoc]
  rfl

/-- What starts with neither a quote nor a backslash starts with a character of the string. -/
theorem eq_cons_of_stringRest {cs r : List Char} {x : Char} (hx : x ≠ '"' ∧ x ≠ '\\')
    (h : stringRest cs = x :: r) : ∃ cs', cs = x :: cs' ∧ r = stringRest cs' := by
  cases cs with
  | nil =>
    cases h
    exact absurd rfl hx.1
  | cons c cs =>
    rw [stringRest_cons] at h
    rcases escaped_cases (escaped_escapeChar c) with hc | ⟨hc, -⟩
    · rw [hc, List.singleton_append, List.cons.injEq] at h
      exact ⟨cs, by rw [h.1], h.2.symm⟩
    · obtain ⟨w, hw⟩ := List.head?_eq_some_iff.1 hc
      rw [hw, List.cons_append, List.cons.injEq] at h
      exact absurd h.1.symm hx.2

/-- Characters that do not start it may be left out in front of what is looked for. -/
theorem infix_of_infix_append_of_not_mem {as bs w : List Char} {a : Char} (ha : ∀ x ∈ as, x ≠ a)
    (h : a :: w <:+: as ++ bs) : a :: w <:+: bs := by
  induction as with
  | nil => exact h
  | cons x as ih =>
    rw [List.forall_mem_cons] at ha
    rcases List.infix_cons_iff.1 h with hfront | hin
    · exact absurd (List.cons_prefix_cons.1 hfront).1.symm ha.1
    · exact ih ha.2 hin

/-- What makes an underscore of a written string look like the middle of a token stands in the
string itself. -/
theorem infix_of_infix_stringRest {a b : Char} (ha : a ∈ starts) (hb : b ≠ '"' ∧ b ≠ '\\') :
    ∀ cs, [a, '_', b] <:+: stringRest cs → [a, '_', b] <:+: cs := by
  intro cs
  induction cs with
  | nil =>
    intro h
    have := h.length_le
    simp [stringRest, escape] at this
  | cons c cs ih =>
    intro h
    rw [stringRest_cons] at h
    rcases escaped_cases (escaped_escapeChar c) with hc | ⟨-, hc⟩
    · rw [hc, List.singleton_append] at h
      rcases List.infix_cons_iff.1 h with hfront | hin
      · obtain ⟨rfl, t, ht⟩ := List.cons_prefix_cons.1 hfront
        obtain ⟨cs', rfl, hcs'⟩ := eq_cons_of_stringRest (by decide) ht.symm
        obtain ⟨cs'', rfl, -⟩ := eq_cons_of_stringRest hb hcs'.symm
        exact ⟨[], cs'', rfl⟩
      · exact (ih hin).trans (List.suffix_cons c cs).isInfix
    · refine (ih (infix_of_infix_append_of_not_mem ?_ h)).trans (List.suffix_cons c cs).isInfix
      rintro x hx rfl
      exact hc x hx ha

theorem unmistakable_quotedChars_iff {cs : List Char} :
    Unmistakable (quotedChars cs) ↔ Unmistakable cs := by
  constructor
  · intro h ends hends a ha b hb hin
    refine h ends hends a ha b hb ?_
    have hescape : [a, '_', b] <:+: escape cs := by
      rw [← escape_of_lookalikes ends hends a ha b hb]
      exact hin.flatMap escapeChar
    exact hescape.trans ⟨['"'], ['"'], rfl⟩
  · intro h ends hends a ha b hb hin
    have hstart := mem_starts_of_lookalikes ends hends a ha
    have hend := ne_of_lookalikes ends hends b hb
    refine h ends hends a ha b hb (infix_of_infix_stringRest hstart hend cs ?_)
    have hquote : ∀ x ∈ ['"'], x ≠ a := by
      rintro x hx rfl
      rw [List.mem_singleton] at hx
      subst hx
      exact absurd hstart (by decide)
    exact infix_of_infix_append_of_not_mem hquote hin

/-! ## Values -/

mutual

/-- All strings and names of a value are unmistakable. -/
def UnmistakableTexts : Json → Prop
  | .str s => Unmistakable s.toList
  | .arr items => UnmistakableItems items
  | .obj members => UnmistakableMembers members
  | _ => True

/-- All strings and names of some items are unmistakable. -/
def UnmistakableItems : List Json → Prop
  | [] => True
  | j :: js => UnmistakableTexts j ∧ UnmistakableItems js

/-- All strings and names of some members are unmistakable. -/
def UnmistakableMembers : List (String × Json) → Prop
  | [] => True
  | (n, j) :: ms => Unmistakable n.toList ∧ UnmistakableTexts j ∧ UnmistakableMembers ms

end

/-- A framed text that is unmistakable exactly if something holds. -/
structure UnmistakableIff (cs : List Char) (p : Prop) : Prop where
  framed : Framed cs
  iff : Unmistakable cs ↔ p

theorem UnmistakableIff.append {as bs : List Char} {p q : Prop} (ha : UnmistakableIff as p)
    (hb : UnmistakableIff bs q) : UnmistakableIff (as ++ bs) (p ∧ q) where
  framed := ha.framed.append hb.framed
  iff := by rw [unmistakable_append_iff ha.framed hb.framed, ha.iff, hb.iff]

theorem unmistakableIff_of_not_mem {cs : List Char} (h : '_' ∉ cs) : UnmistakableIff cs True where
  framed := framed_of_not_mem h
  iff := iff_true_intro (unmistakable_of_not_mem h)

/-- A sign of punctuation in front changes nothing. -/
theorem UnmistakableIff.cons {cs : List Char} {p : Prop} (h : UnmistakableIff cs p) {c : Char}
    (hc : '_' ≠ c) : UnmistakableIff (c :: cs) p := by
  have hsign : UnmistakableIff [c] True := unmistakableIff_of_not_mem (by simpa using hc)
  have happend := hsign.append h
  rwa [true_and] at happend

theorem unmistakableIff_quotedChars (cs : List Char) :
    UnmistakableIff (quotedChars cs) (Unmistakable cs) where
  framed := by
    constructor
    · intro h
      cases h
    · rw [quotedChars, ← List.cons_append, List.getLast?_concat]
      intro h
      cases h
  iff := unmistakable_quotedChars_iff

/-- No number is written with an underscore. -/
theorem unmistakableIff_text {n : Numeral} (hn : n.WellFormed) : UnmistakableIff n.text True := by
  apply unmistakableIff_of_not_mem
  intro hmem
  exact absurd (hn.isNumeralChar_of_mem _ hmem) (by decide)

mutual

/-- The text of a value is unmistakable exactly if its strings and names are. -/
theorem unmistakableIff_chars (j : Json) : UnmistakableIff (chars j) (UnmistakableTexts j) := by
  match j with
  | .null => exact unmistakableIff_of_not_mem (by decide)
  | .bool true => exact unmistakableIff_of_not_mem (by decide)
  | .bool false => exact unmistakableIff_of_not_mem (by decide)
  | .int i =>
    rw [chars, Numeral.intDigits_eq]
    exact unmistakableIff_text (Numeral.wellFormed_ofInt i)
  | .double d =>
    rw [chars]
    rcases doubleChars_cases d with ⟨n, -, hn, htext⟩ | ⟨-, htext⟩
    · rw [htext]
      exact unmistakableIff_text hn
    · rw [htext]
      exact unmistakableIff_of_not_mem (by decide)
  | .str s => exact unmistakableIff_quotedChars s.toList
  | .arr [] => exact unmistakableIff_of_not_mem (by decide)
  | .arr (v :: vs) =>
    exact ((unmistakableIff_chars v).append (unmistakableIff_itemsChars vs)).cons (by decide)
  | .obj [] => exact unmistakableIff_of_not_mem (by decide)
  | .obj ((n, v) :: ms) =>
    have hmembers := (unmistakableIff_chars v).append (unmistakableIff_membersChars ms)
    exact ((unmistakableIff_quotedChars n.toList).append (hmembers.cons (by decide))).cons
      (by decide)

theorem unmistakableIff_itemsChars (vs : List Json) :
    UnmistakableIff (itemsChars vs) (UnmistakableItems vs) := by
  match vs with
  | [] => exact unmistakableIff_of_not_mem (by decide)
  | v :: vs =>
    exact ((unmistakableIff_chars v).append (unmistakableIff_itemsChars vs)).cons (by decide)

theorem unmistakableIff_membersChars (ms : List (String × Json)) :
    UnmistakableIff (membersChars ms) (UnmistakableMembers ms) := by
  match ms with
  | [] => exact unmistakableIff_of_not_mem (by decide)
  | (n, v) :: ms =>
    have hmembers := (unmistakableIff_chars v).append (unmistakableIff_membersChars ms)
    exact ((unmistakableIff_quotedChars n.toList).append (hmembers.cons (by decide))).cons
      (by decide)

end

end SearchDialect.Json
