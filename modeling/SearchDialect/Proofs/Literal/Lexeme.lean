import SearchDialect.Proofs.Text.Lowercase
import SearchDialect.Proofs.Text.Quoted

/-!
# Literals in the text of an OData condition

A literal is a text between single quotes in which every quote is doubled, or a word: some
characters without blanks, parentheses and quotes. A reader who meets it takes the whole of it and
nothing else (`scanLiteral?_append`), and texts that are no literal are not taken as a whole
(`isLiteral_iff`). Lower case turns literals into literals and nothing else into one
(`isLiteral_lowerAfter_iff`).
-/

namespace SearchDialect.OData

open Text

/-- A word: some characters that are no marks. -/
structure IsWord (cs : List Char) : Prop where
  ne_nil : cs ≠ []
  unmarked : ∀ c ∈ cs, isMark c = false

theorem isWord_iff {cs : List Char} :
    IsWord cs ↔ cs ≠ [] ∧ cs.all (fun c => !isMark c) = true := by
  rw [List.all_eq_true]
  constructor
  · rintro ⟨hne, h⟩
    exact ⟨hne, by simpa using h⟩
  · rintro ⟨hne, h⟩
    exact ⟨hne, by simpa using h⟩

instance (cs : List Char) : Decidable (IsWord cs) := decidable_of_iff' _ isWord_iff

/-- A text that is one literal. -/
inductive IsLiteral : List Char → Prop
  | quoted (text : List Char) : IsLiteral (quoteDoubled text)
  | word {cs : List Char} : IsWord cs → IsLiteral cs

/-- Reads a literal at the front of a text: the literal as it stands there, and what follows it. -/
def scanLiteral? (cs : List Char) : Option (List Char × List Char) :=
  match scanDoubled? cs with
  | some (text, rest) => some (quoteDoubled text, rest)
  | none =>
    let word := cs.takeWhile fun c => !isMark c
    if word.isEmpty then none else some (word, cs.dropWhile fun c => !isMark c)

/-! ## Reading literals -/

theorem scanDoubled?_eq_some_iff {cs text rest : List Char} :
    scanDoubled? cs = some (text, rest) ↔
      cs = quoteDoubled text ++ rest ∧ rest.head? ≠ some '\'' := by
  constructor
  · intro h
    unfold scanDoubled? at h
    split at h
    · obtain ⟨rfl, hrest⟩ := scanDoubledBody?_eq_some_iff.1 h
      refine ⟨?_, hrest⟩
      simp [quoteDoubled]
    · cases h
  · rintro ⟨rfl, hrest⟩
    exact scanDoubled?_quoteDoubled text hrest

theorem IsWord.scanDoubled? {cs : List Char} (h : IsWord cs) (rest : List Char) :
    Text.scanDoubled? (cs ++ rest) = none := by
  cases cs with
  | nil => exact absurd rfl h.ne_nil
  | cons c cs =>
    have hc : c ≠ '\'' := ne_of_isMark (h.unmarked c List.mem_cons_self) (by decide)
    rw [List.cons_append, Text.scanDoubled?]
    intro ds heq
    exact hc (List.cons.inj heq).1

/-- Where a mark other than a quote follows, or nothing, a literal is read as a whole. -/
theorem scanLiteral?_append {cs : List Char} (h : IsLiteral cs) {rest : List Char}
    (hrest : ∀ c ∈ rest.head?, isMark c = true ∧ c ≠ '\'') :
    scanLiteral? (cs ++ rest) = some (cs, rest) := by
  cases h with
  | quoted text =>
    have hquote : rest.head? ≠ some '\'' := fun heq => (hrest _ heq).2 rfl
    rw [scanLiteral?, scanDoubled?_quoteDoubled text hquote]
  | word h =>
    have hend : ∀ c ∈ rest.head?, (!isMark c) = false := by
      intro c hc
      rw [(hrest c hc).1]
      rfl
    have hword : ∀ c ∈ cs, (!isMark c) = true := by
      intro c hc
      rw [h.unmarked c hc]
      rfl
    obtain ⟨htake, hdrop⟩ := takeWhile_run hword hend
    rw [scanLiteral?, h.scanDoubled?]
    simp only [htake, hdrop, List.isEmpty_eq_false_iff.2 h.ne_nil, Bool.false_eq_true, if_false]

/-- What is read is a literal, and nothing of the text is lost. -/
theorem isLiteral_of_scanLiteral? {cs literal rest : List Char}
    (h : scanLiteral? cs = some (literal, rest)) : IsLiteral literal ∧ cs = literal ++ rest := by
  rw [scanLiteral?] at h
  split at h
  · next text rest' hs =>
    cases h
    obtain ⟨rfl, -⟩ := scanDoubled?_eq_some_iff.1 hs
    exact ⟨.quoted text, rfl⟩
  · dsimp only at h
    split at h
    · cases h
    · next hne =>
      cases h
      refine ⟨.word ⟨by simpa using hne, ?_⟩, List.takeWhile_append_dropWhile.symm⟩
      intro c hc
      simpa using takeWhile_mem _ _ c hc

/-- A text is a literal if it is read as one, without a rest. -/
theorem isLiteral_iff {cs : List Char} : IsLiteral cs ↔ scanLiteral? cs = some (cs, []) := by
  constructor
  · intro h
    have hscan : scanLiteral? (cs ++ []) = some (cs, []) := scanLiteral?_append h (by simp)
    rwa [List.append_nil] at hscan
  · intro h
    exact (isLiteral_of_scanLiteral? h).1

instance (cs : List Char) : Decidable (IsLiteral cs) := decidable_of_iff' _ isLiteral_iff

/-! ## Lower case -/

/-- A text that ends at its first quote that is not doubled. -/
def Closes (cs : List Char) : Prop := ∃ text, cs = doubleQuotes text ++ ['\'']

theorem closes_iff {cs : List Char} : Closes cs ↔ ∃ text, scanDoubledBody? cs = some (text, []) := by
  simp [Closes, scanDoubledBody?_eq_some_iff]

/-- Before the first quote any characters may stand. -/
theorem closes_append_iff {w : List Char} (h : ∀ c ∈ w, c ≠ '\'') (cs : List Char) :
    Closes (w ++ cs) ↔ Closes cs := by
  rw [closes_iff, closes_iff, scanDoubledBody?_append h]
  constructor
  · rintro ⟨text, htext⟩
    obtain ⟨⟨text, rest⟩, hscan, heq⟩ := Option.map_eq_some_iff.1 htext
    cases heq
    exact ⟨text, hscan⟩
  · rintro ⟨text, htext⟩
    exact ⟨w ++ text, by rw [htext]; rfl⟩

/-- A quote is the end, or it is the first of two. -/
theorem closes_quote_iff (cs : List Char) :
    Closes ('\'' :: cs) ↔ cs = [] ∨ ∃ ds, cs = '\'' :: ds ∧ Closes ds := by
  constructor
  · rintro ⟨text, htext⟩
    cases text with
    | nil => exact .inl (List.cons.inj htext).2
    | cons c text =>
      by_cases hc : c = '\''
      · rw [doubleQuotes, if_pos hc] at htext
        exact .inr ⟨_, (List.cons.inj htext).2, text, rfl⟩
      · rw [doubleQuotes, if_neg hc] at htext
        exact absurd (List.cons.inj htext).1.symm hc
  · rintro (rfl | ⟨ds, rfl, text, rfl⟩)
    · exact ⟨[], rfl⟩
    · exact ⟨'\'' :: text, by rw [doubleQuotes, if_pos rfl]; rfl⟩

theorem isLiteral_iff_closes {cs : List Char} :
    IsLiteral cs ↔ IsWord cs ∨ ∃ ds, cs = '\'' :: ds ∧ Closes ds := by
  constructor
  · rintro (text | h)
    · exact .inr ⟨_, rfl, text, rfl⟩
    · exact .inl h
  · rintro (h | ⟨_, rfl, text, rfl⟩)
    · exact .word h
    · exact .quoted text

theorem closes_lowerAfter_iff (before cs : List Char) :
    Closes (lowerAfter before cs) ↔ Closes cs := by
  induction hn : cs.length using Nat.strongRecOn generalizing before cs with
  | ind n ih =>
    subst hn
    cases cs with
    | nil => rfl
    | cons c cs =>
      by_cases hc : c = '\''
      · subst hc
        have hquote : lowerAfter before ('\'' :: cs) = '\'' :: lowerAfter ('\'' :: before) cs :=
          (lowerAfter_eq_quote_iff _ _ _).2 ⟨cs, rfl, rfl⟩
        rw [hquote, closes_quote_iff, closes_quote_iff, lowerAfter_eq_nil_iff]
        apply or_congr_right
        -- The induction goes on behind the second of two quotes.
        have hlt (ds : List Char) : ds.length < ('\'' :: '\'' :: ds).length := by
          simp only [List.length_cons]
          omega
        constructor
        · rintro ⟨ds, hds, hcloses⟩
          obtain ⟨es, rfl, rfl⟩ := (lowerAfter_eq_quote_iff _ _ _).1 hds
          exact ⟨es, rfl, (ih _ (hlt es) _ _ rfl).1 hcloses⟩
        · rintro ⟨es, rfl, hcloses⟩
          refine ⟨_, (lowerAfter_eq_quote_iff _ _ _).2 ⟨es, rfl, rfl⟩, ?_⟩
          exact (ih _ (hlt es) _ _ rfl).2 hcloses
      · obtain ⟨w, hw, hmark, hplain⟩ := lowerAfter_cons before c cs
        have hquotes : ∀ d ∈ w, d ≠ '\'' := by
          intro d hd
          cases h : isMark c with
          | true =>
            rw [hmark h, List.mem_singleton] at hd
            rwa [hd]
          | false => exact ne_of_isMark ((hplain h).2 d hd) (by decide)
        rw [hw, closes_append_iff hquotes, ih _ (by simp) _ _ rfl]
        exact (closes_append_iff (w := [c]) (by simpa using hc) cs).symm

theorem isWord_lowerAfter_iff (before cs : List Char) :
    IsWord (lowerAfter before cs) ↔ IsWord cs := by
  have hunmarked : (∀ d ∈ lowerAfter before cs, isMark d = false) ↔
      ∀ c ∈ cs, isMark c = false := by
    induction cs generalizing before with
    | nil => simp [lowerAfter]
    | cons c cs ih =>
      obtain ⟨w, hw, hmark, hplain⟩ := lowerAfter_cons before c cs
      rw [hw, List.forall_mem_append, ih, List.forall_mem_cons]
      apply and_congr_left'
      cases hc : isMark c with
      | true => simp [hmark hc, hc]
      | false => simpa using (hplain hc).2
  constructor
  · rintro ⟨hne, h⟩
    exact ⟨fun hnil => hne ((lowerAfter_eq_nil_iff _ _).2 hnil), hunmarked.1 h⟩
  · rintro ⟨hne, h⟩
    exact ⟨fun hnil => hne ((lowerAfter_eq_nil_iff _ _).1 hnil), hunmarked.2 h⟩

/-- A text is a literal exactly if it is one in lower case. -/
theorem isLiteral_lowerAfter_iff (before cs : List Char) :
    IsLiteral (lowerAfter before cs) ↔ IsLiteral cs := by
  rw [isLiteral_iff_closes, isLiteral_iff_closes, isWord_lowerAfter_iff]
  apply or_congr_right
  constructor
  · rintro ⟨ds, hds, hcloses⟩
    obtain ⟨es, rfl, rfl⟩ := (lowerAfter_eq_quote_iff _ _ _).1 hds
    exact ⟨es, rfl, (closes_lowerAfter_iff _ _).1 hcloses⟩
  · rintro ⟨es, rfl, hcloses⟩
    exact ⟨_, (lowerAfter_eq_quote_iff _ _ _).2 ⟨es, rfl, rfl⟩,
      (closes_lowerAfter_iff _ _).2 hcloses⟩

end SearchDialect.OData
