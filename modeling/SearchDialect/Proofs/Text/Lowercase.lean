import SearchDialect.Proofs.Text.Blank
import SearchDialect.Text.Lowercase

/-!
# Lower case and marks

Blanks, parentheses and quotes mark where the words of a text begin and end. Lower case leaves every
mark as it is and makes none: a character that is no mark becomes one or more that are none
(`lowerAfter_cons`). The table of capital letters is only looked at through the ranges of its
capitals and of their small letters.
-/

namespace SearchDialect.Text

/-- A character that no word holds: a blank, a parenthesis or a quote. -/
def isMark (c : Char) : Bool := isBlank c || c == '(' || c == ')' || c == '\'' || c == '"'

theorem ne_of_isMark {c d : Char} (hc : isMark c = false) (hd : isMark d = true) : c ≠ d := by
  rintro rfl
  rw [hc] at hd
  cases hd

theorem isBlank_of_not_isMark {c : Char} (h : isMark c = false) : isBlank c = false := by
  simp only [isMark, Bool.or_eq_false_iff] at h
  exact h.1.1.1.1

/-! ## The table of capital letters -/

/-- The code points of marks. -/
def markRanges : List (Nat × Nat) := (0x22, 0x22) :: (0x27, 0x29) :: blankRanges

theorem inRanges_of_isMark {c : Char} (h : isMark c = true) :
    inRanges markRanges c.toNat = true := by
  simp only [isMark, Bool.or_eq_true, beq_iff_eq] at h
  rcases h with (((h | rfl) | rfl) | rfl) | rfl
  · have hblank := inRanges_of_isBlank h
    simp only [inRanges, markRanges, List.any_cons] at hblank ⊢
    rw [hblank, Bool.or_true, Bool.or_true]
  all_goals decide

theorem isMark_of_isDigit {c : Char} (h : c.isDigit = true) : isMark c = false := by
  simp only [Char.isDigit, Bool.and_eq_true, decide_eq_true_eq] at h
  have hdigit : inRanges [(48, 57)] c.toNat = true := by
    simpa [inRanges] using ⟨h.1, h.2⟩
  have hmark : inRanges markRanges c.toNat = false := not_inRanges (by decide) hdigit
  cases hc : isMark c with
  | false => rfl
  | true =>
    rw [inRanges_of_isMark hc] at hmark
    cases hmark

/-- The code points of capital letters beyond ASCII. -/
def capitalRanges : List (Nat × Nat) := caseRuns.map fun r => (r.first, r.last)

/-- The code points of their small letters. -/
def smallRanges : List (Nat × Nat) := caseRuns.map fun r => (r.lower, r.lower + (r.last - r.first))

theorem markRanges_capitalRanges :
    ∀ a ∈ markRanges, ∀ b ∈ capitalRanges, a.2 < b.1 ∨ b.2 < a.1 := by
  decide +kernel

theorem smallRanges_markRanges :
    ∀ a ∈ smallRanges, ∀ b ∈ markRanges, a.2 < b.1 ∨ b.2 < a.1 := by
  decide +kernel

theorem mem_of_lower? {r : CaseRun} {n k : Nat} (h : r.lower? n = some k) :
    (r.first ≤ n ∧ n ≤ r.last) ∧ r.lower ≤ k ∧ k ≤ r.lower + (r.last - r.first) := by
  simp only [CaseRun.lower?, Option.ite_none_right_eq_some, Bool.and_eq_true, decide_eq_true_eq,
    Option.some.injEq] at h
  obtain ⟨⟨hn, -⟩, rfl⟩ := h
  exact ⟨hn, by omega, by omega⟩

/-- No mark is a capital letter. -/
theorem findSome?_lower?_of_isMark {c : Char} (h : isMark c = true) :
    caseRuns.findSome? (·.lower? c.toNat) = none := by
  rw [List.findSome?_eq_none_iff]
  intro r hr
  cases hk : r.lower? c.toNat with
  | none => rfl
  | some k =>
    have hcapital := not_inRanges markRanges_capitalRanges (inRanges_of_isMark h)
    rw [inRanges, List.any_eq_false] at hcapital
    have hmem : (r.first, r.last) ∈ capitalRanges := List.mem_map_of_mem hr
    exact absurd (by simpa using (mem_of_lower? hk).1) (hcapital _ hmem)

/-- What is no code point becomes the character zero. -/
theorem toNat_ofNat_or (n : Nat) : (Char.ofNat n).toNat = n ∨ (Char.ofNat n).toNat = 0 := by
  by_cases h : n.isValidChar
  · rw [Char.ofNat, dif_pos h]
    exact .inl UInt32.toNat_ofNatLT
  · rw [Char.ofNat, dif_neg h]
    exact .inr rfl

/-- No small letter is a mark. -/
theorem isMark_of_findSome?_lower? {n k : Nat} (h : caseRuns.findSome? (·.lower? n) = some k) :
    isMark (Char.ofNat k) = false := by
  obtain ⟨r, hr, hk⟩ := List.exists_of_findSome?_eq_some h
  have hsmall : inRanges smallRanges k = true := by
    refine List.any_eq_true.2 ⟨_, List.mem_map_of_mem hr, ?_⟩
    simpa using (mem_of_lower? hk).2
  have hmark := not_inRanges smallRanges_markRanges hsmall
  cases hc : isMark (Char.ofNat k) with
  | false => rfl
  | true =>
    have hrange := inRanges_of_isMark hc
    rcases toNat_ofNat_or k with hk | hk
    · rw [hk, hmark] at hrange
      cases hrange
    · rw [hk] at hrange
      revert hrange
      decide

/-! ## Characters -/

theorem isMark_ascii : ∀ n < 0x80, (Char.ofNat n).toLower = Char.ofNat n ∨
    isMark (Char.ofNat n) = false ∧ isMark (Char.ofNat n).toLower = false := by
  decide

/-- A mark is its own lower case. -/
theorem lowerChar_of_isMark {c : Char} (h : isMark c = true) : lowerChar c = [c] := by
  have hascii := isMark_ascii c.toNat
  rw [Char.ofNat_toNat] at hascii
  have hcapital : c.toNat ≠ 0x130 := by
    intro hc
    have hrange := inRanges_of_isMark h
    rw [hc] at hrange
    revert hrange
    decide
  rw [lowerChar, findSome?_lower?_of_isMark h, if_neg hcapital]
  split
  · next hlt =>
    rcases hascii hlt with heq | ⟨hmark, -⟩
    · rw [heq]
    · rw [h] at hmark
      cases hmark
  · rfl

/-- The lower case of anything else is not empty and holds no mark. -/
theorem lowerChar_of_not_isMark {c : Char} (h : isMark c = false) :
    lowerChar c ≠ [] ∧ ∀ d ∈ lowerChar c, isMark d = false := by
  have hascii := isMark_ascii c.toNat
  rw [Char.ofNat_toNat] at hascii
  rw [lowerChar]
  split
  · next hlt =>
    refine ⟨List.cons_ne_nil _ _, ?_⟩
    rw [List.forall_mem_singleton]
    rcases hascii hlt with heq | ⟨-, hmark⟩
    · rwa [heq]
    · exact hmark
  split
  · refine ⟨List.cons_ne_nil _ _, ?_⟩
    rw [List.forall_mem_cons, List.forall_mem_singleton]
    decide
  · refine ⟨List.cons_ne_nil _ _, ?_⟩
    rw [List.forall_mem_singleton]
    cases hk : caseRuns.findSome? (·.lower? c.toNat) with
    | none => exact h
    | some k => exact isMark_of_findSome?_lower? hk

/-! ## Texts -/

/-- A text in lower case is put together from the lower cases of its characters: a mark stays as it
is, and every other character becomes some that are no marks. -/
theorem lowerAfter_cons (before : List Char) (c : Char) (cs : List Char) :
    ∃ w, lowerAfter before (c :: cs) = w ++ lowerAfter (c :: before) cs ∧
      (isMark c = true → w = [c]) ∧
      (isMark c = false → w ≠ [] ∧ ∀ d ∈ w, isMark d = false) := by
  refine ⟨_, rfl, ?_, ?_⟩
  · intro h
    have hsigma : c ≠ '\u03a3' := (ne_of_isMark (by decide) h).symm
    rw [if_neg hsigma, lowerChar_of_isMark h]
  · intro h
    split
    · split
      all_goals exact ⟨List.cons_ne_nil _ _, List.forall_mem_singleton.2 (by decide)⟩
    · exact lowerChar_of_not_isMark h

/-- A text in lower case starts with a quote if the text does. -/
theorem lowerAfter_eq_quote_iff (before cs ds : List Char) :
    lowerAfter before cs = '\'' :: ds ↔
      ∃ es, cs = '\'' :: es ∧ ds = lowerAfter ('\'' :: before) es := by
  cases cs with
  | nil => simp [lowerAfter]
  | cons c cs =>
    obtain ⟨w, hw, hmark, hplain⟩ := lowerAfter_cons before c cs
    rw [hw]
    cases hc : isMark c with
    | true =>
      rw [hmark hc, List.singleton_append]
      constructor
      · intro h
        obtain ⟨rfl, rfl⟩ := List.cons.inj h
        exact ⟨cs, rfl, rfl⟩
      · rintro ⟨es, h, rfl⟩
        obtain ⟨rfl, rfl⟩ := List.cons.inj h
        rfl
    | false =>
      obtain ⟨hne, hw⟩ := hplain hc
      constructor
      · intro h
        cases w with
        | nil => exact absurd rfl hne
        | cons d w =>
          have hd : d = '\'' := (List.cons.inj h).1
          exact absurd hd (ne_of_isMark (hw d List.mem_cons_self) (by decide))
      · rintro ⟨es, h, -⟩
        exact absurd (List.cons.inj h).1 (ne_of_isMark hc (by decide))

theorem lowerAfter_eq_nil_iff (before cs : List Char) : lowerAfter before cs = [] ↔ cs = [] := by
  cases cs with
  | nil => simp [lowerAfter]
  | cons c cs =>
    obtain ⟨w, hw, hmark, hplain⟩ := lowerAfter_cons before c cs
    have hne : w ≠ [] := by
      cases hc : isMark c with
      | true =>
        rw [hmark hc]
        exact List.cons_ne_nil _ _
      | false => exact (hplain hc).1
    simp [hw, hne]

end SearchDialect.Text
