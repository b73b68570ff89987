import SearchDialect.Proofs.Predicate.Steps

/-!
# Soundness of the reader of expressions

What the reader takes off a text as a disjunction is the text of one (`isDisjunction_of_readOr`).
The reader calls itself on shorter texts only, behind a parenthesis, so the induction is on a bound
of the length: `SoundBelow.succ` is its step.
-/

namespace SearchDialect.Predicate

open Text Number

variable {head? : Option (List Char)} {cs : List Char} {e : Expr}

/-- What is read as an operand without a group is one token. -/
theorem readOperand_sound {r : List Char} (h : Gives (readOperand head? cs) e r) :
    (∃ ws s s', Blanks ws ∧ cs = ws ++ '(' :: s ∧ Gives (readOr head? s) e s' ∧
      token? [')'] s' = some r) ∨
    ∃ ws word, Blanks ws ∧ cs = ws ++ (word ++ r) ∧ IsAtom head? word e := by
  obtain ⟨ws, hws, hcs⟩ := exists_blanks cs
  cases hskip : skipBlanks cs with
  | nil => exact absurd h (readOperand_nil hskip)
  | cons c s =>
    rw [hskip] at hcs
    rw [readOperand_gives_iff hskip] at h
    split at h
    · next hc =>
      obtain ⟨s', hread, hs'⟩ := h
      exact .inl ⟨ws, s, s', hws, by rw [← hc]; exact hcs, hread, hs'⟩
    right
    split at h
    · next hq =>
      obtain ⟨text, hread, rfl⟩ := h
      obtain ⟨body, hbody, rfl⟩ := (readQuoted_gives_iff (ne_of_quote hq).1).1 hread
      refine ⟨ws, c :: (body ++ [c]), hws, ?_,
        .constant (.text (isQuoted_iff.2 ⟨c, body, hq, hbody, rfl⟩))⟩
      rw [hcs, List.cons_append, List.append_assoc, List.singleton_append]
    split at h
    · next hc =>
      obtain ⟨word, hword, hatom⟩ := readNumber_sound hc h
      exact ⟨ws, word, hws, by rw [← hword]; exact hcs, hatom⟩
    · obtain ⟨word, hword, hatom⟩ := readWord_sound h.1 h.2
      exact ⟨ws, word, hws, by rw [← hword]; exact hcs, hatom⟩

/-- What the reader takes off each text shorter than a bound is the text of a disjunction. -/
def SoundBelow (head? : Option (List Char)) (n : Nat) : Prop :=
  ∀ ⦃cs r : List Char⦄ ⦃e : Expr⦄, cs.length < n → Gives (readOr head? cs) e r →
    ∃ used, cs = used ++ r ∧ IsDisjunction false head? used e

variable {n : Nat} {r : List Char}

theorem isOperand_of_readOperand (hn : SoundBelow head? n) (hcs : cs.length ≤ n)
    (h : Gives (readOperand head? cs) e r) :
    ∃ used, cs = used ++ r ∧ IsOperand false head? used e := by
  rcases readOperand_sound h with ⟨ws, s, s', hws, rfl, hread, hs'⟩ | ⟨ws, word, hws, rfl, hatom⟩
  · -- Behind the parenthesis the text is shorter.
    have hs : s.length < n := by
      simp only [List.length_append, List.length_cons] at hcs
      omega
    obtain ⟨inner, rfl, hinner⟩ := hn hs hread
    obtain ⟨ws', hws', rfl⟩ := (token?_eq_some_iff rfl).1 hs'
    exact ⟨ws ++ '(' :: (inner ++ (ws' ++ [')'])), by simp, .group hws hinner hws'⟩
  · refine ⟨ws ++ word, (List.append_assoc _ _ _).symm, ?_⟩
    cases hatom with
    | constant hv => exact .constant hws hv
    | path hnames => exact .path hws hnames

theorem isComparison_of_readComparison (hn : SoundBelow head? n) (hcs : cs.length ≤ n)
    (h : Gives (readComparison head? cs) e r) :
    ∃ used, cs = used ++ r ∧ IsComparison false head? used e := by
  obtain ⟨l, s, hl, hs⟩ := readComparison_gives_iff.1 h
  obtain ⟨left, rfl, hleft⟩ := isOperand_of_readOperand hn hcs hl
  split at hs
  · obtain ⟨rfl, rfl⟩ := hs
    exact ⟨left, rfl, .operand hleft⟩
  · next c s' hc =>
    obtain ⟨right, hread, rfl⟩ := hs
    obtain ⟨ws, hws, hsplit⟩ := comparison?_sound hc
    rw [List.length_append] at hcs
    obtain ⟨rs, hrs, hright⟩ := isOperand_of_readOperand hn (by omega) hread
    refine ⟨left ++ (ws ++ (c.symbol.toList ++ rs)), ?_, .compare hleft hws hright⟩
    rw [hsplit, hrs]
    simp

/-- What is read as further parts of a conjunction prolongs the text of the first ones. -/
theorem isConjunction_of_readAnds (hn : SoundBelow head? n) {ls cs : List Char} {l : Expr}
    (hcs : cs.length ≤ n) (hl : IsConjunction false head? ls l)
    (h : Gives (readAnds head? l cs) e r) :
    ∃ used, cs = used ++ r ∧ IsConjunction false head? (ls ++ used) e := by
  rw [readAnds_gives_iff] at h
  split at h
  · obtain ⟨rfl, rfl⟩ := h
    exact ⟨[], rfl, by rwa [List.append_nil]⟩
  · next s hs =>
    have hlt := length_token? hs
    obtain ⟨right, s', hright, hrest⟩ := h
    obtain ⟨ws, hws, rfl⟩ := (token?_eq_some_iff rfl).1 hs
    obtain ⟨rs, rfl, hrs⟩ := isComparison_of_readComparison hn (by omega) hright
    rw [List.length_append] at hlt
    obtain ⟨used, rfl, hused⟩ :=
      isConjunction_of_readAnds hn (by omega) (.and hl hws hrs) hrest
    exact ⟨ws ++ ('&' :: '&' :: (rs ++ used)), by simp, by simpa using hused⟩
termination_by cs.length

theorem isConjunction_of_readAnd (hn : SoundBelow head? n) (hcs : cs.length ≤ n)
    (h : Gives (readAnd head? cs) e r) :
    ∃ used, cs = used ++ r ∧ IsConjunction false head? used e := by
  obtain ⟨l, s, hl, hs⟩ := readAnd_gives_iff.1 h
  obtain ⟨first, rfl, hfirst⟩ := isComparison_of_readComparison hn hcs hl
  rw [List.length_append] at hcs
  obtain ⟨used, rfl, hused⟩ := isConjunction_of_readAnds hn (by omega) (.comparison hfirst) hs
  exact ⟨first ++ used, (List.append_assoc _ _ _).symm, hused⟩

/-- What is read as further parts of a disjunction prolongs the text of the first ones. -/
theorem isDisjunction_of_readOrs (hn : SoundBelow head? n) {ls cs : List Char} {l : Expr}
    (hcs : cs.length ≤ n) (hl : IsDisjunction false head? ls l)
    (h : Gives (readOrs head? l cs) e r) :
    ∃ used, cs = used ++ r ∧ IsDisjunction false head? (ls ++ used) e := by
  rw [readOrs_gives_iff] at h
  split at h
  · obtain ⟨rfl, rfl⟩ := h
    exact ⟨[], rfl, by rwa [List.append_nil]⟩
  · next s hs =>
    have hlt := length_token? hs
    obtain ⟨right, s', hright, hrest⟩ := h
    obtain ⟨ws, hws, rfl⟩ := (token?_eq_some_iff rfl).1 hs
    obtain ⟨rs, rfl, hrs⟩ := isConjunction_of_readAnd hn (by omega) hright
    rw [List.length_append] at hlt
    obtain ⟨used, rfl, hused⟩ :=
      isDisjunction_of_readOrs hn (by omega) (.or hl hws hrs) hrest
    exact ⟨ws ++ ('|' :: '|' :: (rs ++ used)), by simp, by simpa using hused⟩
termination_by cs.length

/-- One step of the bound: a disjunction reads shorter ones only in its groups. -/
theorem SoundBelow.succ (hn : SoundBelow head? n) : SoundBelow head? (n + 1) := by
  intro cs r e hcs h
  obtain ⟨l, s, hl, hs⟩ := readOr_gives_iff.1 h
  obtain ⟨first, rfl, hfirst⟩ := isConjunction_of_readAnd hn (by omega) hl
  rw [List.length_append] at hcs
  obtain ⟨used, rfl, hused⟩ := isDisjunction_of_readOrs hn (by omega) (.conjunction hfirst) hs
  exact ⟨first ++ used, (List.append_assoc _ _ _).symm, hused⟩

theorem soundBelow (n : Nat) : SoundBelow head? n := by
  induction n with
  | zero =>
    intro _ _ _ h
    exact absurd h (Nat.not_lt_zero _)
  | succ n ih => exact ih.succ

/-- What is read as a disjunction is the text of one. -/
theorem isDisjunction_of_readOr (h : Gives (readOr head? cs) e r) :
    ∃ used, cs = used ++ r ∧ IsDisjunction false head? used e :=
  soundBelow (cs.length + 1) (Nat.lt_succ_self _) h

end SearchDialect.Predicate
