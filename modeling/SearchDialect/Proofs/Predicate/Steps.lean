import SearchDialect.Proofs.Predicate.Atoms

/-!
# Reading expressions
-/

namespace SearchDialect.Predicate
open Text Number

variable {head? : Option (List Char)} {cs r : List Char} {e left : Expr}

/-- A disjunction is a conjunction and further ones. -/
theorem readOr_gives_iff : Gives (readOr head? cs) e r ↔
    ∃ l s, Gives (readAnd head? cs) l s ∧ Gives (readOrs head? l s) e r := by
  rw [readOr]
  cases readAnd head? cs with
  | error stop => simp
  | ok x =>
    obtain ⟨l, s, hs⟩ := x
    rw [exists_gives_ok_iff]
    dsimp only
    cases readOrs head? l s with
    | error stop => simp only [gives_error_iff]
    | ok x =>
      obtain ⟨e', s', hs'⟩ := x
      simp only [gives_ok_iff]

/-- The further parts of a disjunction go on as long as its symbol comes next. -/
theorem readOrs_gives_iff : Gives (readOrs head? left cs) e r ↔
    match token? ['|', '|'] cs with
    | none => left = e ∧ cs = r
    | some s => ∃ right s', Gives (readAnd head? s) right s' ∧
        Gives (readOrs head? (.logical .or left right) s') e r := by
  rw [readOrs]
  split
  · next h => rw [h, gives_ok_iff]
  · next s h =>
    simp only [h]
    cases readAnd head? s with
    | error stop => simp
    | ok x =>
      obtain ⟨l, s, hs⟩ := x
      rw [exists_gives_ok_iff]
      dsimp only
      cases readOrs head? (.logical .or left l) s with
      | error stop => simp only [gives_error_iff]
      | ok x =>
        obtain ⟨e', s', hs'⟩ := x
        simp only [gives_ok_iff]

/-- A conjunction is a comparison and further ones. -/
theorem readAnd_gives_iff : Gives (readAnd head? cs) e r ↔
    ∃ l s, Gives (readComparison head? cs) l s ∧ Gives (readAnds head? l s) e r := by
  rw [readAnd]
  cases readComparison head? cs with
  | error stop => simp
  | ok x =>
    obtain ⟨l, s, hs⟩ := x
    rw [exists_gives_ok_iff]
    dsimp only
    cases readAnds head? l s with
    | error stop => simp only [gives_error_iff]
    | ok x =>
      obtain ⟨e', s', hs'⟩ := x
      simp only [gives_ok_iff]

/-- The further parts of a conjunction go on as long as its symbol comes next. -/
theorem readAnds_gives_iff : Gives (readAnds head? left cs) e r ↔
    match token? ['&', '&'] cs with
    | none => left = e ∧ cs = r
    | some s => ∃ right s', Gives (readComparison head? s) right s' ∧
        Gives (readAnds head? (.logical .and left right) s') e r := by
  rw [readAnds]
  split
  · next h => rw [h, gives_ok_iff]
  · next s h =>
    simp only [h]
    cases readComparison head? s with
    | error stop => simp
    | ok x =>
      obtain ⟨l, s, hs⟩ := x
      rw [exists_gives_ok_iff]
      dsimp only
      cases readAnds head? (.logical .and left l) s with
      | error stop => simp only [gives_error_iff]
      | ok x =>
        obtain ⟨e', s', hs'⟩ := x
        simp only [gives_ok_iff]

theorem readComparison_gives_iff : Gives (readComparison head? cs) e r ↔
    ∃ l s, Gives (readOperand head? cs) l s ∧
      match comparison? s with
      | none => l = e ∧ s = r
      | some (c, s') =>
        ∃ right, Gives (readOperand head? s'.1) right r ∧ e = .compare c l right := by
  rw [readComparison]
  cases readOperand head? cs with
  | error stop => simp
  | ok x =>
    obtain ⟨l, s, hs⟩ := x
    rw [exists_gives_ok_iff]
    dsimp only
    cases comparison? s with
    | none => simp only [gives_ok_iff]
    | some x =>
      obtain ⟨c, s', hs'⟩ := x
      dsimp only
      cases readOperand head? s' with
      | error stop => simp
      | ok x =>
        obtain ⟨right, s'', hs''⟩ := x
        simp only [gives_ok_iff, and_assoc, exists_eq_left']
        exact and_comm.trans (and_congr_right fun _ => eq_comm)

theorem readOperand_nil (h : skipBlanks cs = []) : ¬ Gives (readOperand head? cs) e r := by
  rw [readOperand]
  split
  · exact gives_error_iff.1
  · next h' => rw [h] at h'; cases h'

theorem readOperand_gives_iff {c : Char} {s : List Char} (h : skipBlanks cs = c :: s) :
    Gives (readOperand head? cs) e r ↔
      if c = '(' then ∃ s', Gives (readOr head? s) e s' ∧ token? [')'] s' = some r
      else if c = '\'' ∨ c = '"' then
        ∃ text, Gives (readQuoted (c :: s) c s) text r ∧ e = .constant (.text (String.ofList text))
      else if c = '-' ∨ c.isDigit = true then Gives (readNumber c s) e r
      else isNameStart c = true ∧ Gives (readWord head? c s) e r := by
  rw [readOperand]
  split
  · next h' => rw [h] at h'; cases h'
  · next h' =>
    rw [h] at h'
    cases h'
    dsimp only
    by_cases hgroup : c = '('
    · rw [if_pos hgroup, if_pos hgroup]
      cases readOr head? s with
      | error stop => simp
      | ok x =>
        obtain ⟨e', s', hs'⟩ := x
        dsimp only
        split
        · next hnone => simp [hnone]
        · next hsome =>
          simp only [gives_ok_iff, and_assoc, exists_and_left, exists_eq_left', hsome,
            Option.some.injEq]
    by_cases hquote : c = '\'' ∨ c = '"'
    · rw [if_neg hgroup, if_neg hgroup, if_pos hquote, if_pos hquote]
      cases readQuoted (c :: s) c s with
      | error stop => simp
      | ok x =>
        obtain ⟨text, s', hs'⟩ := x
        simp only [gives_ok_iff, and_assoc, exists_eq_left']
        exact and_comm.trans (and_congr_right fun _ => eq_comm)
    rw [if_neg hgroup, if_neg hgroup, if_neg hquote, if_neg hquote]
    by_cases hnumber : c = '-' ∨ c.isDigit = true
    · rw [if_pos hnumber, if_pos hnumber]
      cases readNumber c s with
      | error stop => simp
      | ok x =>
        obtain ⟨text, s', hs'⟩ := x
        simp only [gives_ok_iff]
    rw [if_neg hnumber, if_neg hnumber]
    by_cases hword : isNameStart c = true
    · rw [if_pos hword]
      cases readWord head? c s with
      | error stop => simp
      | ok x =>
        obtain ⟨text, s', hs'⟩ := x
        simp only [gives_ok_iff, hword, true_and]
    · rw [if_neg hword, gives_error_iff]
      exact ⟨False.elim, fun h => hword h.1⟩

end SearchDialect.Predicate
