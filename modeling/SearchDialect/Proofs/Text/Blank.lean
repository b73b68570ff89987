import SearchDialect.Proofs.Text.Split
import SearchDialect.Text.Blank
import SearchDialect.Text.Letter

/-!
# Blanks and letters

Runs of blanks in front of a text, and the fact that keeps them apart from words: no blank is a
letter or a number (`isLetterOrNumber_of_isBlank`), which is read off the ranges of both.
-/

namespace SearchDialect.Text

/-- A run of blanks. -/
def Blanks (cs : List Char) : Prop := ∀ c ∈ cs, isBlank c = true

theorem blanks_nil : Blanks [] := fun _ h => absurd h List.not_mem_nil

/-- Blanks in front of anything else are passed over. -/
theorem skipBlanks_append {ws cs : List Char} (hws : Blanks ws)
    (hcs : ∀ c ∈ cs.head?, isBlank c = false) : skipBlanks (ws ++ cs) = cs :=
  (takeWhile_run hws hcs).2

theorem skipBlanks_cons {ws cs : List Char} {c : Char} (hws : Blanks ws) (hc : isBlank c = false) :
    skipBlanks (ws ++ c :: cs) = c :: cs :=
  skipBlanks_append hws fun d hd => by
    cases hd
    exact hc

theorem skipBlanks_of_blanks {ws : List Char} (h : Blanks ws) : skipBlanks ws = [] := by
  have hnil : skipBlanks (ws ++ []) = [] := skipBlanks_append h fun _ hc => by cases hc
  rwa [List.append_nil] at hnil

/-- What is passed over are blanks. -/
theorem exists_blanks (cs : List Char) : ∃ ws, Blanks ws ∧ cs = ws ++ skipBlanks cs :=
  ⟨cs.takeWhile isBlank, takeWhile_mem _ _, List.takeWhile_append_dropWhile.symm⟩

/-- Behind the blanks there are no more of them. -/
theorem skipBlanks_skipBlanks (cs : List Char) : skipBlanks (skipBlanks cs) = skipBlanks cs := by
  refine skipBlanks_append blanks_nil fun c hc => ?_
  obtain ⟨r, hr⟩ := List.head?_eq_some_iff.1 hc
  exact isBlank_head_skipBlanks hr

/-- Only blanks are passed over as a whole. -/
theorem skipBlanks_eq_nil_iff {cs : List Char} : skipBlanks cs = [] ↔ Blanks cs := by
  refine ⟨?_, skipBlanks_of_blanks⟩
  intro h
  obtain ⟨ws, hws, hcs⟩ := exists_blanks cs
  rw [h, List.append_nil] at hcs
  rwa [hcs]

/-- A text without blanks is not trimmed. -/
theorem trim_of_forall {cs : List Char} (h : ∀ c ∈ cs, isBlank c = false) : trim cs = cs := by
  have hskip : ∀ ds : List Char, (∀ c ∈ ds, isBlank c = false) → skipBlanks ds = ds := by
    intro ds hds
    exact skipBlanks_append blanks_nil fun c hc => hds c (List.mem_of_mem_head? hc)
  have hreverse : ∀ c ∈ cs.reverse, isBlank c = false := fun c hc => h c (List.mem_reverse.1 hc)
  rw [trim, dropTrailingBlanks, hskip cs h, hskip _ hreverse, List.reverse_reverse]

/-! ## Letters -/

/-- The code points of blanks. -/
def blankRanges : List (Nat × Nat) := [(9, 13), (0x20, 0x20), (0x85, 0x85), (0xA0, 0xA0),
  (0x1680, 0x1680), (0x2000, 0x200A), (0x2028, 0x2029), (0x202F, 0x202F), (0x205F, 0x205F),
  (0x3000, 0x3000)]

theorem inRanges_of_isBlank {c : Char} (h : isBlank c = true) :
    inRanges blankRanges c.toNat = true := by
  simp only [isBlank, Bool.or_eq_true, Bool.and_eq_true, decide_eq_true_eq, beq_iff_eq] at h
  simp only [inRanges, blankRanges, List.any_cons, List.any_nil, Bool.or_false, Bool.or_eq_true,
    Bool.and_eq_true, decide_eq_true_eq]
  omega

/-- Sets of characters whose ranges do not meet have no character in common. -/
theorem not_inRanges {as bs : List (Nat × Nat)} {n : Nat}
    (h : ∀ a ∈ as, ∀ b ∈ bs, a.2 < b.1 ∨ b.2 < a.1) (hn : inRanges as n = true) :
    inRanges bs n = false := by
  obtain ⟨a, ha, han⟩ := List.any_eq_true.1 hn
  rw [inRanges, List.any_eq_false]
  intro b hb hbn
  simp only [Bool.and_eq_true, decide_eq_true_eq] at han hbn
  have := h a ha b hb
  omega

theorem blankRanges_alphabeticRanges :
    ∀ a ∈ blankRanges, ∀ b ∈ alphabeticRanges, a.2 < b.1 ∨ b.2 < a.1 := by
  decide +kernel

theorem blankRanges_numericRanges :
    ∀ a ∈ blankRanges, ∀ b ∈ numericRanges, a.2 < b.1 ∨ b.2 < a.1 := by
  decide +kernel

theorem isBlank_ascii : ∀ n < 0x80, isBlank (Char.ofNat n) = true →
    (Char.ofNat n).isAlpha = false ∧ (Char.ofNat n).isDigit = false := by
  decide

/-- No blank is a letter or a number. -/
theorem isLetterOrNumber_of_isBlank {c : Char} (h : isBlank c = true) :
    isLetterOrNumber c = false := by
  have hranges := inRanges_of_isBlank h
  have hascii := isBlank_ascii c.toNat
  rw [Char.ofNat_toNat] at hascii
  have hletter : isLetter c = false := by
    unfold isLetter
    split
    · next hc => exact (hascii hc h).1
    · exact not_inRanges blankRanges_alphabeticRanges hranges
  have hnumber : isNumeric c = false := by
    unfold isNumeric
    split
    · next hc => exact (hascii hc h).2
    · exact not_inRanges blankRanges_numericRanges hranges
  rw [isLetterOrNumber, hletter, hnumber]
  rfl

end SearchDialect.Text
