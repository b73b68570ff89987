import SearchDialect.Text.Quoted

/-!
# Quoted texts are read back

A text between single quotes ends at the first quote that is not doubled
(`scanDoubledBody?_eq_some_iff`), so that what is written is read back wherever no quote follows it.
A text between double quotes ends at the first quote that is not escaped, and is read back whatever
follows it (`scanEscaped?_quoteEscaped`).
-/

namespace SearchDialect.Text

/-! ## Doubled quotes -/

/-- A character that is no quote is read as it is. -/
theorem scanDoubledBody?_cons {c : Char} (hc : c ≠ '\'') (cs : List Char) :
    scanDoubledBody? (c :: cs) = (scanDoubledBody? cs).map fun r => (c :: r.1, r.2) := by
  rw [scanDoubledBody?]
  · intro ds h
    exact absurd h hc
  · exact hc

theorem scanDoubledBody?_append {w : List Char} (h : ∀ c ∈ w, c ≠ '\'') (cs : List Char) :
    scanDoubledBody? (w ++ cs) = (scanDoubledBody? cs).map fun r => (w ++ r.1, r.2) := by
  induction w with
  | nil =>
    rw [List.nil_append]
    cases scanDoubledBody? cs <;> rfl
  | cons c w ih =>
    rw [List.forall_mem_cons] at h
    rw [List.cons_append, scanDoubledBody?_cons h.1, ih h.2, Option.map_map]
    rfl

/-- What is read up to a quote that is not doubled is what is written with doubled quotes. -/
theorem scanDoubledBody?_eq_some_iff {cs text rest : List Char} :
    scanDoubledBody? cs = some (text, rest) ↔
      cs = doubleQuotes text ++ '\'' :: rest ∧ rest.head? ≠ some '\'' := by
  constructor
  · intro h
    fun_induction scanDoubledBody? cs generalizing text with
    | case1 => cases h
    | case2 cs ih =>
      obtain ⟨⟨text, rest⟩, hr, heq⟩ := Option.map_eq_some_iff.1 h
      cases heq
      obtain ⟨rfl, hrest⟩ := ih hr
      exact ⟨rfl, hrest⟩
    | case3 cs hcs =>
      cases h
      refine ⟨rfl, ?_⟩
      intro hhead
      obtain ⟨ds, rfl⟩ := List.head?_eq_some_iff.1 hhead
      exact hcs ds rfl
    | case4 c cs _ hc ih =>
      obtain ⟨⟨text, rest⟩, hr, heq⟩ := Option.map_eq_some_iff.1 h
      cases heq
      obtain ⟨rfl, hrest⟩ := ih hr
      refine ⟨?_, hrest⟩
      rw [doubleQuotes, if_neg hc]
      rfl
  · rintro ⟨rfl, hrest⟩
    induction text with
    | nil =>
      cases rest with
      | nil => rfl
      | cons c rest =>
        have hc : c ≠ '\'' := fun hc => hrest (by rw [hc]; rfl)
        simp [doubleQuotes, scanDoubledBody?, hc]
    | cons c text ih =>
      by_cases hc : c = '\''
      · subst hc
        simp [doubleQuotes, scanDoubledBody?, ih]
      · rw [doubleQuotes, if_neg hc, List.cons_append, scanDoubledBody?_cons hc, ih]
        rfl

/-- A text between single quotes is read back, and it ends where it was written to end. -/
theorem scanDoubled?_quoteDoubled (cs : List Char) {rest : List Char}
    (h : rest.head? ≠ some '\'') : scanDoubled? (quoteDoubled cs ++ rest) = some (cs, rest) := by
  have htext : quoteDoubled cs ++ rest = '\'' :: (doubleQuotes cs ++ '\'' :: rest) := by
    simp [quoteDoubled]
  rw [htext, scanDoubled?]
  exact scanDoubledBody?_eq_some_iff.2 ⟨rfl, h⟩

/-! ## Escaped quotes -/

theorem scanEscapedBody?_escapeQuotes (cs rest : List Char) :
    scanEscapedBody? (escapeQuotes cs ++ '"' :: rest) = some (cs, rest) := by
  induction cs with
  | nil => rfl
  | cons c cs ih =>
    by_cases hc : c = '"' ∨ c = '\\'
    · simp [escapeQuotes, hc, scanEscapedBody?, ih]
    · rw [not_or] at hc
      simp [escapeQuotes, hc, scanEscapedBody?, ih]

/-- A text between double quotes is read back, whatever follows it. -/
theorem scanEscaped?_quoteEscaped (cs rest : List Char) :
    scanEscaped? (quoteEscaped cs ++ rest) = some (cs, rest) := by
  have htext : quoteEscaped cs ++ rest = '"' :: (escapeQuotes cs ++ '"' :: rest) := by
    simp [quoteEscaped]
  rw [htext, scanEscaped?]
  exact scanEscapedBody?_escapeQuotes cs rest

end SearchDialect.Text
