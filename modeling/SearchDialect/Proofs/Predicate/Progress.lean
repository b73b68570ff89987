import SearchDialect.Predicate.Trace
import SearchDialect.Proofs.Predicate.Positions

/-!
# Progress of the reader of predicates

Every procedure of the reader that succeeds takes something of the text, and so does every turn of
its loops. What it does is paid for by what it takes: a rest of the text is worth 36 steps for each
of its characters, and a trace costs no more than what it takes is worth (`Costs`). Operands save
so much that the symbols that are looked for behind them are paid for as well. The costs of a trace
follow its recursion, with the groups inside an operand bounded first (`CostsBelow`), and in the end
bound the steps of the reader in a text (`reading_progresses`).
-/

namespace SearchDialect.Predicate

open Text

/-! ## Costs of traces -/

/-- Something is taken from the front of a text. -/
def Consumes (before after : List Char) : Prop := ∃ c cs, before = c :: cs ++ after

theorem consumes_cons (c : Char) (cs : List Char) : Consumes (c :: cs) cs := ⟨c, [], rfl⟩

theorem consumes_of_suffix {before after : List Char} (h : after <:+ before)
    (hlt : after.length < before.length) : Consumes before after := by
  obtain ⟨taken, rfl⟩ := h
  cases taken with
  | nil => exact absurd hlt (Nat.lt_irrefl _)
  | cons c cs => exact ⟨c, cs, rfl⟩

/-- A step inside the disjunction of a text: another disjunction starts behind a parenthesis, and a
turn of a loop takes something. -/
inductive Inner (text : List Char) : Step → Prop
  | disjunction {rest : List Char} (h : '(' :: rest <:+ text) :
      Inner text (.call .disjunction rest)
  | call {procedure : Procedure} {rest : List Char} (h : procedure ≠ .disjunction) :
      Inner text (.call procedure rest)
  | turn {loop : Loop} {before after : List Char} (h : Consumes before after) :
      Inner text (.turn loop before after)

/-- A trace of inner steps whose number is paid for, with something left over. -/
structure Costs (text : List Char) (steps : List Step) (left paid : Nat) : Prop where
  inner : ∀ s ∈ steps, Inner text s
  length : steps.length + left ≤ paid

variable {text : List Char}

namespace Costs

variable {steps steps' : List Step} {left left' paid paid' : Nat}

theorem nil (h : left ≤ paid) : Costs text [] left paid :=
  ⟨fun _ hs => absurd hs List.not_mem_nil, by rwa [List.length_nil, Nat.zero_add]⟩

theorem cons {s : Step} (hs : Inner text s) (h : Costs text steps left paid) :
    Costs text (s :: steps) left (paid + 1) := by
  refine ⟨List.forall_mem_cons.2 ⟨hs, h.inner⟩, ?_⟩
  have := h.length
  rw [List.length_cons]
  omega

theorem call {procedure : Procedure} {rest : List Char} (hp : procedure ≠ .disjunction)
    (h : Costs text steps left paid) :
    Costs text (.call procedure rest :: steps) left (paid + 1) := h.cons (.call hp)

theorem append (h : Costs text steps left paid) (h' : Costs text steps' left' paid') :
    Costs text (steps ++ steps') (left + left') (paid + paid') := by
  refine ⟨List.forall_mem_append.2 ⟨h.inner, h'.inner⟩, ?_⟩
  have := h.length
  have := h'.length
  rw [List.length_append]
  omega

theorem mono (h : Costs text steps left paid) (hle : left' + paid ≤ paid' + left) :
    Costs text steps left' paid' := by
  refine ⟨h.inner, ?_⟩
  have := h.length
  omega

end Costs

/-! ## Characters -/

variable (text)

theorem costs_turnsWhile (loop : Loop) (p : Char → Bool) (cs : List Char) :
    Costs text (turnsWhile loop p cs) (cs.dropWhile p).length cs.length := by
  induction cs with
  | nil => exact .nil (Nat.le_refl _)
  | cons c cs ih =>
    rw [turnsWhile, List.dropWhile_cons]
    split
    · exact ih.cons (.turn (consumes_cons c cs))
    · exact .nil (Nat.le_refl _)

theorem costs_turnsFor (loop : Loop) {n : Nat} {cs : List Char} (h : n ≤ cs.length) :
    Costs text (turnsFor loop n cs) 0 n := by
  induction n generalizing cs with
  | zero => exact .nil (Nat.le_refl _)
  | succ n ih =>
    cases cs with
    | nil => cases h
    | cons c cs => exact (ih (Nat.le_of_succ_le_succ h)).cons (.turn (consumes_cons c cs))

theorem costs_blankTrace (cs : List Char) :
    Costs text (blankTrace cs) (skipBlanks cs).length (cs.length + 1) :=
  (costs_turnsWhile text .blanks isBlank cs).call (by decide)

theorem costs_nameTrace (cs : List Char) :
    Costs text (nameTrace cs) (cs.dropWhile isNameChar).length (cs.length + 1) :=
  (costs_turnsWhile text .nameChars isNameChar cs).call (by decide)

/-- The length of what a step on characters leaves, or nothing if it fails. -/
def lengthLeft {α : Type} {P : List Char → Prop} :
    Except Stop (α × { r : List Char // P r }) → Nat
  | .error _ => 0
  | .ok (_, r) => r.1.length

@[simp] theorem lengthLeft_error {α : Type} {P : List Char → Prop} (stop : Stop) :
    lengthLeft (.error stop : Except Stop (α × { r : List Char // P r })) = 0 := rfl

@[simp] theorem lengthLeft_ok {α : Type} {P : List Char → Prop} (a : α) (r : List Char)
    (hr : P r) : lengthLeft (.ok (a, ⟨r, hr⟩)) = r.length := rfl

theorem costs_quotedTurns (opening : List Char) (quote : Char) (cs : List Char) :
    Costs text (quotedTurns quote cs) (lengthLeft (readQuoted opening quote cs)) cs.length := by
  fun_induction readQuoted opening quote cs with
  | case1 => exact .nil (Nat.le_refl _)
  | case2 cs =>
    unfold quotedTurns
    rw [if_pos rfl]
    exact (Costs.nil (Nat.le_refl cs.length)).cons (.turn (consumes_cons _ cs))
  | case3 hq =>
    unfold quotedTurns
    rw [if_neg hq, if_pos rfl]
    exact (Costs.nil (Nat.le_refl 0)).cons (.turn (consumes_cons _ []))
  | case4 d ds e hread hq ih =>
    rw [hread] at ih
    unfold quotedTurns
    rw [if_neg hq, if_pos rfl]
    refine .mono (.cons (.turn ⟨'\\', [d], rfl⟩) ih) ?_
    simp only [lengthLeft_error, List.length_cons]
    omega
  | case5 d ds s r hr hread hq ih =>
    rw [hread] at ih
    unfold quotedTurns
    rw [if_neg hq, if_pos rfl]
    refine .mono (.cons (.turn ⟨'\\', [d], rfl⟩) ih) ?_
    simp only [lengthLeft_ok, List.length_cons]
    omega
  | case6 c cs hq hb e hread ih =>
    rw [hread] at ih
    unfold quotedTurns
    rw [if_neg hq, if_neg hb]
    exact ih.cons (.turn (consumes_cons c cs))
  | case7 c cs hq hb s r hr hread ih =>
    rw [hread] at ih
    unfold quotedTurns
    rw [if_neg hq, if_neg hb]
    exact ih.cons (.turn (consumes_cons c cs))

theorem costs_quotedTrace (opening : List Char) (quote : Char) (cs : List Char) :
    Costs text (quotedTrace quote cs) (lengthLeft (readQuoted opening quote cs)) (cs.length + 1) :=
  (costs_quotedTurns text opening quote cs).call (by decide)

theorem costs_numberTrace (c : Char) (cs : List Char) :
    Costs text (numberTrace c cs) (3 * lengthLeft (readNumber c cs)) (3 * cs.length + 7) := by
  have hturns : Costs text
      (turnsWhile .numberChars isNumberChar (if c = '-' then cs else c :: cs))
      (cs.dropWhile isNumberChar).length (cs.length + 1) := by
    split
    · exact (costs_turnsWhile text _ _ cs).mono (by omega)
    · refine (costs_turnsWhile text _ _ (c :: cs)).mono ?_
      have hdrop := length_dropWhile_le isNumberChar cs
      rw [List.length_cons, List.dropWhile_cons]
      split
      · omega
      · rw [List.length_cons]
        omega
  have hleft : lengthLeft (readNumber c cs) ≤ (cs.dropWhile isNumberChar).length := by
    rw [readNumber]
    split
    · exact Nat.zero_le _
    · exact Nat.le_refl _
  have hdrop := length_dropWhile_le isNumberChar cs
  exact .mono (.call (by decide) (.call (by decide) hturns)) (by omega)

/-- A further name costs two calls more than its characters, and its point pays for them. -/
theorem costs_namesTrace (cs : List Char) :
    Costs text (namesTrace cs) (3 * lengthLeft (readNames cs)) (3 * cs.length) := by
  fun_induction readNames cs with
  | case1 =>
    rw [namesTrace]
    exact .nil (Nat.le_refl _)
  | case2 r name hname =>
    have hname' := costs_nameTrace text r
    rw [namesTrace, if_pos rfl, if_pos hname]
    refine .mono (.cons (.turn (consumes_cons '.' r)) (.call (by decide)
      (.append hname' (.nil (Nat.le_refl 0))))) ?_
    simp only [lengthLeft_error, List.length_cons]
    omega
  | case3 r name hname hlt e hread ih =>
    rw [hread] at ih
    rw [namesTrace, if_pos rfl, if_neg hname]
    refine .mono (.cons (.turn (consumes_cons '.' r)) (.call (by decide)
      (.append (costs_nameTrace text r) ih))) ?_
    simp only [lengthLeft_error, List.length_cons]
    omega
  | case4 r name hname hlt more s hs hread ih =>
    rw [hread] at ih
    rw [namesTrace, if_pos rfl, if_neg hname]
    refine .mono (.cons (.turn (consumes_cons '.' r)) (.call (by decide)
      (.append (costs_nameTrace text r) ih))) ?_
    simp only [lengthLeft_ok, List.length_cons]
    omega
  | case5 c cs hc =>
    rw [namesTrace, if_neg hc]
    exact .nil (Nat.le_refl _)

theorem lengthLeft_readTime_le (word quoted : List Char) (quote : Char) (cs : List Char) :
    lengthLeft (readTime word quoted quote cs) ≤ lengthLeft (readQuoted quoted quote cs) := by
  rw [readTime]
  split
  · exact Nat.zero_le _
  · next h =>
    rw [h]
    split
    · exact Nat.zero_le _
    · exact Nat.le_refl _

theorem lengthLeft_le {α : Type} {cs : List Char} (x : Advance α cs) :
    lengthLeft x ≤ cs.length := by
  cases x with
  | error stop => exact Nat.zero_le _
  | ok x => exact x.2.2

/-- The first name of a word starts at its first character. What follows it is cheaper than the
further names of a path. -/
theorem costs_wordTrace (parameter? : Option (List Char)) (c : Char) (cs : List Char) :
    Costs text (wordTrace c cs) (3 * lengthLeft (readWord parameter? c cs))
      (3 * cs.length + 7) := by
  have hrest := length_dropWhile_le isNameChar cs
  have hname : Costs text (nameTrace (c :: cs)) (cs.dropWhile isNameChar).length
      (cs.length + 2) := by
    refine (costs_nameTrace text (c :: cs)).mono ?_
    rw [List.length_cons, List.dropWhile_cons]
    split
    · omega
    · rw [List.length_cons]
      omega
  -- The costs of a word whose name is followed by other steps.
  have hcosts : ∀ {steps left paid}, Costs text steps left paid →
      paid ≤ 3 * (cs.dropWhile isNameChar).length + 1 →
      Costs text (.call .word (c :: cs) :: .call .position (c :: cs) ::
        (nameTrace (c :: cs) ++ steps)) left (3 * cs.length + 7) := by
    intro steps left paid h hpaid
    refine .mono (.call (by decide) (.call (by decide) (.append hname h))) ?_
    omega
  rw [readWord]
  dsimp only
  split
  · next v hv =>
    rw [wordTrace, hv]
    exact hcosts (.nil (Nat.le_refl _)) (Nat.le_succ _)
  next hkeyword =>
  split
  · next quote r hr =>
    have hquoted := costs_quotedTrace text (cs.dropWhile isNameChar) quote r
    have htime := lengthLeft_readTime_le (c :: cs) (cs.dropWhile isNameChar) quote r
    have hleft := lengthLeft_le (readQuoted (cs.dropWhile isNameChar) quote r)
    have hlt : r.length < (cs.dropWhile isNameChar).length := by
      split at hr
      · exact length_openingQuote? hr
      · cases hr
    have htrace : wordTrace c cs = .call .word (c :: cs) :: .call .position (c :: cs) ::
        (nameTrace (c :: cs) ++ quotedTrace quote r) := by
      rw [wordTrace, hkeyword, hr]
    rw [htrace]
    refine hcosts (.mono hquoted ?_) (Nat.le_refl _)
    split
    · rw [lengthLeft_error]
      omega
    · next h =>
      rw [h] at htime
      rw [lengthLeft_ok] at htime ⊢
      omega
  · next hnone =>
    have hnames := costs_namesTrace text (cs.dropWhile isNameChar)
    rw [wordTrace, hkeyword, hnone]
    refine hcosts (.mono hnames ?_) (Nat.le_refl _)
    split
    · rw [lengthLeft_error]
      omega
    · next h =>
      rw [h]
      rw [lengthLeft_ok, lengthLeft_ok]
      omega

variable {text}

/-! ## Tokens -/

/-- Where a cursor stands in the text a token is looked for without a fault. What it takes and the
blanks before it pay for all but three steps. -/
theorem costs_takeTrace {k : Cursor} (h : IsAt text k) (token : List Char) :
    ∃ found k' hk', take text token k = .ok (found, ⟨k', hk'⟩) ∧ IsAt text k' ∧
      (found = true → k'.rest.length + token.length ≤ k.rest.length) ∧
      Costs text (takeTrace text token k) k'.rest.length (k.rest.length + 3) := by
  have hblanks := costs_blankTrace text k.rest
  rw [← Cursor.rest_skip] at hblanks
  have hskip := k.length_skip_le
  by_cases hprefix : token.isPrefixOf k.skip.rest = true
  · have hlength : token.length ≤ k.skip.rest.length :=
      (List.isPrefixOf_iff_prefix.1 hprefix).length_le
    have hrest : (k.skip.advance token.length).rest.length = k.skip.rest.length - token.length := by
      rw [Cursor.rest_advance, List.length_drop]
    have htake : take text token k = .ok (true, ⟨k.skip.advance token.length, by omega⟩) := by
      rw [take, h.skip.slice?_eq]
      exact if_pos hprefix
    refine ⟨true, _, _, htake, h.skip.advance _, fun _ => by omega, ?_⟩
    rw [takeTrace, htake]
    refine .mono (.call (by decide) (.append hblanks (.call (by decide)
      (costs_turnsFor text .tokenChars hlength)))) ?_
    omega
  · have htake : take text token k = .ok (false, ⟨k.skip, hskip⟩) := by
      rw [take, h.skip.slice?_eq]
      exact if_neg hprefix
    refine ⟨false, _, _, htake, h.skip, Bool.noConfusion, ?_⟩
    rw [takeTrace, htake]
    refine .mono (.call (by decide) (.append hblanks (.call (by decide)
      (.nil (Nat.le_refl 0))))) ?_
    omega

theorem costs_takeSymbolTrace {k : Cursor} (h : IsAt text k) (symbols : List Comparison) :
    ∃ found? k' hk', takeSymbol text k symbols = .ok (found?, ⟨k', hk'⟩) ∧ IsAt text k' ∧
      Costs text (takeSymbolTrace text k symbols) k'.rest.length
        (k.rest.length + 3 * symbols.length) := by
  induction symbols generalizing k with
  | nil => exact ⟨none, k, _, rfl, h, .nil (Nat.le_refl _)⟩
  | cons c symbols ih =>
    obtain ⟨found, k', hk', htake, hat, -, hcosts⟩ := costs_takeTrace h c.symbol.toList
    rw [takeSymbol, takeSymbolTrace, htake]
    cases found with
    | true =>
      refine ⟨some c, k', hk', rfl, hat, ?_⟩
      refine .mono (.append hcosts (.nil (Nat.le_refl 0))) ?_
      rw [List.length_cons]
      omega
    | false =>
      obtain ⟨found?, k'', hk'', hsymbol, hat', hcosts'⟩ := ih hat
      refine ⟨found?, k'', Nat.le_trans hk'' hk', ?_, hat', ?_⟩
      · dsimp only
        rw [hsymbol]
      · refine .mono (.append hcosts hcosts') ?_
        rw [List.length_cons]
        omega

/-! ## Expressions -/

/-- What the rest behind a cursor is worth if a step arrives there, and what the step saves. -/
def worth (saved : Nat) {α : Type} {Q : Cursor → Prop} :
    Except Halt (α × { k : Cursor // Q k }) → Nat
  | .error _ => 0
  | .ok (_, k) => 36 * k.1.rest.length + saved

section

variable {α : Type} {Q : Cursor → Prop} {saved : Nat}

@[simp] theorem worth_error (e : Halt) :
    worth saved (.error e : Except Halt (α × { k : Cursor // Q k })) = 0 := rfl

@[simp] theorem worth_ok (a : α) (k : Cursor) (hk : Q k) :
    worth saved (.ok (a, ⟨k, hk⟩)) = 36 * k.rest.length + saved := rfl

/-- A cursor that has arrived stands in the text. -/
theorem Agrees.isAt {P : List Char → Prop} {x : Except Halt (α × { k : Cursor // Q k })}
    {y : Except Stop (α × { r : List Char // P r })} {a : α} {k : Cursor} {hk : Q k}
    (h : Agrees text x y) (hx : x = .ok (a, ⟨k, hk⟩)) : IsAt text k := by
  rcases h.cases with ⟨stop, herror, -⟩ | ⟨a', k', hk', r, hr, hok, -, htracks⟩
  · rw [hx] at herror
    cases herror
  · rw [hx] at hok
    cases hok
    exact htracks.isAt

/-- A token that is no group saves 29 steps. -/
theorem costs_past {steps : List Step} {k : Cursor} {c : Char} {r : List Char}
    (hrest : k.rest = c :: r) {P : List Char → Prop} (hP : ∀ r, P r → r.length < k.rest.length)
    {x : Except Stop (α × { r : List Char // P r })}
    (h : Costs text steps (3 * lengthLeft x) (3 * r.length + 7)) :
    Costs text steps (worth 29 (past text k hP x)) (36 * k.rest.length) := by
  refine h.mono ?_
  cases x with
  | error stop =>
    rw [past, worth_error, lengthLeft_error, hrest, List.length_cons]
    omega
  | ok x =>
    obtain ⟨a, s, hs⟩ := x
    have hlt := hP s hs
    have hleft : (k.advance (k.rest.length - s.length)).rest.length = s.length := by
      rw [Cursor.rest_advance, List.length_drop]
      omega
    rw [past, worth_ok, lengthLeft_ok]
    rw [hrest, List.length_cons] at hlt
    rw [hleft, hrest, List.length_cons]
    omega

end

variable {parameter? : Option (List Char)} {n : Nat} {k : Cursor}

/-- In front of less than some number of characters, disjunctions are paid for. -/
def CostsBelow (text : List Char) (parameter? : Option (List Char)) (n : Nat) : Prop :=
  ∀ {k : Cursor}, IsAt text k → k.rest.length < n →
    ∃ steps, orTrace text parameter? k = .call .disjunction k.rest :: steps ∧
      Costs text steps (worth 5 (orAt text parameter? k)) (36 * k.rest.length + 4)

/-- The parenthesis in front of a group pays for looking for the other one. -/
theorem costs_group (hn : CostsBelow text parameter? n) (h : IsAt text k) {r : List Char}
    (hrest : k.rest = '(' :: r) (hk : k.rest.length ≤ n) :
    Costs text (orTrace text parameter? k.next) (worth 5 (orAt text parameter? k.next) + 31)
      (36 * k.rest.length) := by
  have hnext : k.next.rest = r := by rw [Cursor.next, hrest]
  have hlength : k.rest.length = k.next.rest.length + 1 := by
    rw [hnext, hrest, List.length_cons]
  obtain ⟨steps, htrace, hsteps⟩ := hn h.next (by omega)
  have hinner : Inner text (.call .disjunction k.next.rest) := by
    apply Inner.disjunction
    rw [hnext, ← hrest]
    exact h.suffix
  rw [htrace]
  exact .mono (.cons hinner hsteps) (by omega)

theorem costs_operandTrace (hn : CostsBelow text parameter? n) (h : IsAt text k)
    (hk : k.rest.length ≤ n) :
    Costs text (operandTrace text parameter? k) (worth 29 (operandAt text parameter? k))
      (36 * k.rest.length + 2) := by
  have hskip := k.length_skip_le
  have hblanks := costs_blankTrace text k.rest
  rw [← Cursor.rest_skip] at hblanks
  -- The call and the blanks before whatever follows them.
  have hcosts : ∀ {steps left}, Costs text steps left (36 * k.skip.rest.length) →
      Costs text (.call .operand k.rest :: (blankTrace k.rest ++ steps)) left
        (36 * k.rest.length + 2) := by
    intro steps left hsteps
    exact .mono (.call (by decide) (.append hblanks hsteps)) (by omega)
  generalize hread : operandAt text parameter? k = x
  rw [operandTrace]
  rw [operandAt] at hread
  split
  · next hrest =>
    split at hread
    · subst hread
      exact hcosts (.nil (Nat.zero_le _))
    · next h' =>
      rw [hrest] at h'
      cases h'
  next c r hrest =>
  split at hread
  · next h' =>
    rw [hrest] at h'
    cases h'
  next c' r' h' =>
  obtain ⟨rfl, rfl⟩ := List.cons.inj (hrest.symm.trans h')
  subst hread
  refine hcosts ?_
  dsimp only
  by_cases hgroup : c = '('
  · rw [if_pos hgroup, if_pos hgroup]
    subst hgroup
    have hinside := costs_group hn h.skip hrest (Nat.le_trans hskip hk)
    rcases hread : orAt text parameter? k.skip.next with e | ⟨e, k', hk'⟩
    · rw [hread, worth_error] at hinside
      refine .mono (.append hinside (.nil (Nat.le_refl 0))) ?_
      rw [worth_error]
      omega
    · have hat := (orAt_agrees parameter? ⟨h.skip.next, rfl⟩).isAt hread
      obtain ⟨found, k'', hk'', htake, -, -, hclose⟩ := costs_takeTrace hat [')']
      rw [hread, worth_ok] at hinside
      dsimp only
      rw [htake]
      cases found with
      | true =>
        refine .mono (.append hinside (.append hclose (.nil (Nat.le_refl 0)))) ?_
        dsimp only
        rw [worth_ok]
        omega
      | false =>
        have hposition : Costs text [.call .position k''.rest] 0 1 :=
          .call (by decide) (.nil (Nat.le_refl 0))
        refine .mono (.append hinside (.append hclose hposition)) ?_
        dsimp only
        rw [worth_error]
        omega
  rw [if_neg hgroup, if_neg hgroup]
  by_cases hquote : c = '\'' ∨ c = '"'
  · rw [if_pos hquote, if_pos hquote]
    have hleft := lengthLeft_le (readQuoted (c :: r) c r)
    have hsteps : Costs text (quotedTrace c r) (3 * lengthLeft (readQuoted (c :: r) c r))
        (3 * r.length + 7) := (costs_quotedTrace text (c :: r) c r).mono (by omega)
    have hpast := costs_past hrest (Cursor.lt_skip_of_le hrest) hsteps
    split <;> next hread => rwa [hread] at hpast
  rw [if_neg hquote, if_neg hquote]
  by_cases hnumber : c = '-' ∨ c.isDigit = true
  · rw [if_pos hnumber, if_pos hnumber]
    have hpast := costs_past hrest (Cursor.lt_skip_of_lt hrest) (costs_numberTrace text c r)
    split <;> next hread => rwa [hread] at hpast
  rw [if_neg hnumber, if_neg hnumber]
  by_cases hword : isNameStart c = true
  · rw [if_pos hword, if_pos hword]
    have hsteps := costs_wordTrace text parameter? c r
    have hpast := costs_past hrest (Cursor.lt_skip_of_lt hrest) hsteps
    split <;> next hread => rwa [hread] at hpast
  rw [if_neg hword, if_neg hword]
  exact .nil (Nat.zero_le _)

theorem operandAt_isAt (h : IsAt text k) {e : Expr} {k' : Cursor} {hk'}
    (hread : operandAt text parameter? k = .ok (e, ⟨k', hk'⟩)) : IsAt text k' :=
  (operandAt_agrees (agreesBelow text parameter? _) ⟨h, rfl⟩ (Nat.le_refl _)).isAt hread

theorem comparisonAt_isAt (h : IsAt text k) {e : Expr} {k' : Cursor} {hk'}
    (hread : comparisonAt text parameter? k = .ok (e, ⟨k', hk'⟩)) : IsAt text k' :=
  (comparisonAt_agrees (agreesBelow text parameter? _) ⟨h, rfl⟩ (Nat.le_refl _)).isAt hread

theorem andAt_isAt (h : IsAt text k) {e : Expr} {k' : Cursor} {hk'}
    (hread : andAt text parameter? k = .ok (e, ⟨k', hk'⟩)) : IsAt text k' :=
  (andAt_agrees (agreesBelow text parameter? _) ⟨h, rfl⟩ (Nat.le_refl _)).isAt hread

theorem costs_comparisonTrace (hn : CostsBelow text parameter? n) (h : IsAt text k)
    (hk : k.rest.length ≤ n) :
    Costs text (comparisonTrace text parameter? k) (worth 11 (comparisonAt text parameter? k))
      (36 * k.rest.length + 3) := by
  have hleft := costs_operandTrace hn h hk
  rw [comparisonTrace, comparisonAt]
  rcases hread : operandAt text parameter? k with e | ⟨left, k', hk'⟩
  · rw [hread, worth_error] at hleft
    refine .mono (.call (by decide) (.append hleft (.nil (Nat.le_refl 0)))) ?_
    rw [worth_error]
    omega
  have hat := operandAt_isAt h hread
  obtain ⟨found?, k'', hk'', htake, hat', hsymbol⟩ :=
    costs_takeSymbolTrace hat [.eq, .ne, .ge, .le, .gt, .lt]
  rw [hread, worth_ok] at hleft
  dsimp only at hleft htake hsymbol ⊢
  rw [htake]
  cases found? with
  | none =>
    refine .mono (.call (by decide) (.append hleft (.append hsymbol (.nil (Nat.le_refl 0))))) ?_
    dsimp only [List.length]
    rw [worth_ok]
    omega
  | some c =>
    have hright := costs_operandTrace hn hat' (by omega)
    refine .mono (.call (by decide) (.append hleft (.append hsymbol hright))) ?_
    dsimp only [List.length]
    rcases operandAt text parameter? k'' with e | ⟨right, k₃, hk₃⟩
    · rw [worth_error, worth_error]
      omega
    · rw [worth_ok, worth_ok]
      omega

/-- The symbol between two parts of a conjunction pays for its turn. -/
theorem costs_andsTrace (hn : CostsBelow text parameter? n) (left : Expr) {k : Cursor}
    (h : IsAt text k) (hk : k.rest.length ≤ n) :
    Costs text (andsTrace text parameter? k) (worth 0 (andsAt text parameter? left k))
      (36 * k.rest.length + 3) := by
  obtain ⟨found, k', hk', htake, hat, hfound, hsymbol⟩ := costs_takeTrace h ['&', '&']
  rw [andsTrace, andsAt, htake]
  cases found with
  | false =>
    refine .mono (.append hsymbol (.nil (Nat.le_refl 0))) ?_
    dsimp only
    rw [worth_ok]
    omega
  | true =>
  have hlt : k'.rest.length + 2 ≤ k.rest.length := hfound rfl
  have hturn : Inner text (.turn .conjuncts k.rest k'.rest) :=
    .turn (consumes_of_suffix (List.suffix_of_suffix_length_le hat.suffix h.suffix hk') (by omega))
  have hright := costs_comparisonTrace hn hat (by omega)
  dsimp only
  rcases hread : comparisonAt text parameter? k' with e | ⟨right, k'', hk''⟩
  · rw [hread, worth_error] at hright
    refine .mono (.append hsymbol (.cons hturn (.append hright (.nil (Nat.le_refl 0))))) ?_
    rw [worth_error]
    omega
  have hat' := comparisonAt_isAt hat hread
  have hmore := costs_andsTrace hn (.logical .and left right) hat' (by omega)
  rw [hread, worth_ok] at hright
  dsimp only at hright hmore ⊢
  refine .mono (.append hsymbol (.cons hturn (.append hright hmore))) ?_
  rcases andsAt text parameter? (.logical .and left right) k'' with e | ⟨e, k₃, hk₃⟩
  · rw [worth_error, worth_error]
    omega
  · rw [worth_ok, worth_ok]
    omega
termination_by k.rest.length

theorem costs_andTrace (hn : CostsBelow text parameter? n) (h : IsAt text k)
    (hk : k.rest.length ≤ n) :
    Costs text (andTrace text parameter? k) (worth 8 (andAt text parameter? k))
      (36 * k.rest.length + 4) := by
  have hleft := costs_comparisonTrace hn h hk
  rw [andTrace, andAt]
  rcases hread : comparisonAt text parameter? k with e | ⟨left, k', hk'⟩
  · rw [hread, worth_error] at hleft
    refine .mono (.call (by decide) (.append hleft (.nil (Nat.le_refl 0)))) ?_
    rw [worth_error]
    omega
  have hmore := costs_andsTrace hn left (comparisonAt_isAt h hread) (by omega)
  rw [hread, worth_ok] at hleft
  dsimp only at hleft hmore ⊢
  refine .mono (.call (by decide) (.append hleft hmore)) ?_
  rcases andsAt text parameter? left k' with e | ⟨e, k'', hk''⟩
  · rw [worth_error, worth_error]
    omega
  · rw [worth_ok, worth_ok]
    omega

/-- The symbol between two parts of a disjunction pays for its turn. -/
theorem costs_orsTrace (hn : CostsBelow text parameter? n) (left : Expr) {k : Cursor}
    (h : IsAt text k) (hk : k.rest.length ≤ n) :
    Costs text (orsTrace text parameter? k) (worth 0 (orsAt text parameter? left k))
      (36 * k.rest.length + 3) := by
  obtain ⟨found, k', hk', htake, hat, hfound, hsymbol⟩ := costs_takeTrace h ['|', '|']
  rw [orsTrace, orsAt, htake]
  cases found with
  | false =>
    refine .mono (.append hsymbol (.nil (Nat.le_refl 0))) ?_
    dsimp only
    rw [worth_ok]
    omega
  | true =>
  have hlt : k'.rest.length + 2 ≤ k.rest.length := hfound rfl
  have hturn : Inner text (.turn .disjuncts k.rest k'.rest) :=
    .turn (consumes_of_suffix (List.suffix_of_suffix_length_le hat.suffix h.suffix hk') (by omega))
  have hright := costs_andTrace hn hat (by omega)
  dsimp only
  rcases hread : andAt text parameter? k' with e | ⟨right, k'', hk''⟩
  · rw [hread, worth_error] at hright
    refine .mono (.append hsymbol (.cons hturn (.append hright (.nil (Nat.le_refl 0))))) ?_
    rw [worth_error]
    omega
  have hat' := andAt_isAt hat hread
  have hmore := costs_orsTrace hn (.logical .or left right) hat' (by omega)
  rw [hread, worth_ok] at hright
  dsimp only at hright hmore ⊢
  refine .mono (.append hsymbol (.cons hturn (.append hright hmore))) ?_
  rcases orsAt text parameter? (.logical .or left right) k'' with e | ⟨e, k₃, hk₃⟩
  · rw [worth_error, worth_error]
    omega
  · rw [worth_ok, worth_ok]
    omega
termination_by k.rest.length

/-- One group deeper. -/
theorem CostsBelow.succ (hn : CostsBelow text parameter? n) :
    CostsBelow text parameter? (n + 1) := by
  intro k h hk
  have hk := Nat.le_of_lt_succ hk
  have hleft := costs_andTrace hn h hk
  rw [orTrace, orAt]
  refine ⟨_, rfl, ?_⟩
  rcases hread : andAt text parameter? k with e | ⟨left, k', hk'⟩
  · rw [hread, worth_error] at hleft
    refine .mono (.append hleft (.nil (Nat.le_refl 0))) ?_
    rw [worth_error]
    omega
  have hmore := costs_orsTrace hn left (andAt_isAt h hread) (by omega)
  rw [hread, worth_ok] at hleft
  dsimp only at hleft hmore ⊢
  refine .mono (.append hleft hmore) ?_
  rcases orsAt text parameter? left k' with e | ⟨e, k'', hk''⟩
  · rw [worth_error, worth_error]
    omega
  · rw [worth_ok, worth_ok]
    omega

theorem costsBelow (text : List Char) (parameter? : Option (List Char)) (n : Nat) :
    CostsBelow text parameter? n := by
  induction n with
  | zero => exact fun _ hk => absurd hk (Nat.not_lt_zero _)
  | succ n ih => exact ih.succ

theorem costs_orTrace (parameter? : Option (List Char)) (h : IsAt text k) :
    ∃ steps, orTrace text parameter? k = .call .disjunction k.rest :: steps ∧
      Costs text steps (worth 5 (orAt text parameter? k)) (36 * k.rest.length + 4) :=
  costsBelow text parameter? _ h (Nat.lt_succ_self _)

/-! ## Whole texts -/

theorem exists_headAt (text : List Char) :
    ∃ parameter? k, headAt text = .ok (parameter?, k) ∧ IsAt text k := by
  cases h : Predicate.head? text with
  | none => exact ⟨none, _, headAt_eq_none h, .start text⟩
  | some found =>
    obtain ⟨k, hhead, htracks⟩ := headAt_eq_some h
    exact ⟨_, k, hhead, htracks.isAt⟩

/-- A procedure takes something wherever it succeeds in a text. -/
def Takes (text : List Char) (step : (k : Cursor) → Moves Expr k) : Prop :=
  ∀ k e k', IsAt text k → step k = .ok (e, k') → Consumes k.rest k'.1.rest

theorem takes_of_isAt {step : (k : Cursor) → Moves Expr k}
    (hstep : ∀ {k e k' hk'}, IsAt text k → step k = .ok (e, ⟨k', hk'⟩) → IsAt text k') :
    Takes text step := by
  rintro k e ⟨k', hk'⟩ h hread
  have hsuffix := List.suffix_of_suffix_length_le (hstep h hread).suffix h.suffix (Nat.le_of_lt hk')
  exact consumes_of_suffix hsuffix hk'

theorem call_not_mem_turnsFor (loop : Loop) (n : Nat) (cs : List Char) (procedure : Procedure)
    (rest : List Char) : .call procedure rest ∉ turnsFor loop n cs := by
  induction n generalizing cs with
  | zero => exact List.not_mem_nil
  | succ n ih =>
    intro hmem
    rcases List.mem_cons.1 hmem with heq | hmem
    · cases heq
    · exact ih cs.tail hmem

/-- The trace of a text up to its outermost disjunction, and from there on. -/
theorem trace_eq (text : List Char) :
    ∃ first rest later m n, trace text = first ++ .call .disjunction rest :: later ∧
      (∀ r, .call .disjunction r ∉ first) ∧ Costs text first 0 m ∧ Costs text later 0 n ∧
      m + n + 1 ≤ 36 * (text.length + 1) := by
  obtain ⟨parameter?, k, hhead, hat⟩ := exists_headAt text
  obtain ⟨steps, htrace, hsteps⟩ := costs_orTrace parameter? hat
  have hlength := hat.suffix.length_le
  have hturns := costs_turnsFor text .headChars (Nat.sub_le text.length k.rest.length)
  have hfirst : Costs text (.call .predicate text :: .call .head text ::
      turnsFor .headChars (text.length - k.rest.length) text) 0
      (text.length - k.rest.length + 2) := .call (by decide) (.call (by decide) hturns)
  have houtermost : ∀ r, .call .disjunction r ∉ (.call .predicate text :: .call .head text ::
      turnsFor .headChars (text.length - k.rest.length) text) := by
    intro r hr
    rcases List.mem_cons.1 hr with h | hr
    · cases h
    rcases List.mem_cons.1 hr with h | hr
    · cases h
    exact call_not_mem_turnsFor _ _ _ _ _ hr
  have hlater : ∃ later, trace text = (.call .predicate text :: .call .head text ::
        turnsFor .headChars (text.length - k.rest.length) text) ++
          .call .disjunction k.rest :: later ∧
      Costs text later 0 (36 * k.rest.length + 4) := by
    rw [trace, hhead]
    dsimp only
    rw [htrace]
    rcases hread : orAt text parameter? k with e | ⟨e, k', hk'⟩ <;> rw [hread] at hsteps
    · rw [worth_error] at hsteps
      exact ⟨steps ++ [], rfl, .mono (.append hsteps (.nil (Nat.le_refl 0))) (by omega)⟩
    · rw [worth_ok] at hsteps
      exact ⟨steps ++ blankTrace k'.rest, rfl,
        .mono (.append hsteps (costs_blankTrace text k'.rest)) (by omega)⟩
  obtain ⟨later, heq, hlater⟩ := hlater
  exact ⟨_, _, later, _, _, heq, houtermost, hfirst, hlater, by omega⟩

/-- In every text the reader makes progress and comes to an end. Operands, comparisons, conjunctions
and disjunctions that are read take something of the text; the disjunctions inside the outermost one
start behind a parenthesis; every turn of a loop takes something. There are no more than 36 steps
for each character and 36 more, and at the end there is a predicate or a fault of the text. -/
theorem reading_progresses (text : List Char) :
    (∀ parameter?, Takes text (operandAt text parameter?) ∧
      Takes text (comparisonAt text parameter?) ∧ Takes text (andAt text parameter?) ∧
      Takes text (orAt text parameter?)) ∧
    (∃ first rest later, trace text = first ++ .call .disjunction rest :: later ∧
      (∀ r, .call .disjunction r ∉ first) ∧
      ∀ r, .call .disjunction r ∈ later → '(' :: r <:+ text) ∧
    (∀ loop before after, .turn loop before after ∈ trace text → Consumes before after) ∧
    (trace text).length ≤ 36 * (text.length + 1) ∧
    readByOffsets text = (read text).mapError .refused ∧
    ((∃ e, read text = .ok e) ∨
      ∃ position fault, read text = .error (.badSyntax position fault)) := by
  obtain ⟨first, rest, later, m, n, htrace, hfirst, hcosts, hcosts', hle⟩ := trace_eq text
  refine ⟨fun parameter? => ⟨takes_of_isAt fun h hread => operandAt_isAt h hread,
    takes_of_isAt fun h hread => comparisonAt_isAt h hread,
    takes_of_isAt fun h hread => andAt_isAt h hread,
    takes_of_isAt fun h hread => (orAt_agrees parameter? ⟨h, rfl⟩).isAt hread⟩, ?_, ?_, ?_, ?_⟩
  · refine ⟨first, rest, later, htrace, hfirst, fun r hr => ?_⟩
    cases hcosts'.inner _ hr with
    | disjunction h => exact h
    | call h => exact absurd rfl h
  · intro loop before after hturn
    rw [htrace] at hturn
    have hinner : Inner text (.turn loop before after) := by
      rcases List.mem_append.1 hturn with h | h
      · exact hcosts.inner _ h
      · rcases List.mem_cons.1 h with h | h
        · cases h
        · exact hcosts'.inner _ h
    cases hinner with
    | turn h => exact h
  · have hlength := hcosts.length
    have hlength' := hcosts'.length
    rw [htrace, List.length_append, List.length_cons]
    omega
  · have hconcludes := readByOffsets_concludes text
    rw [read]
    cases hread : readAll text with
    | ok e =>
      rw [hread] at hconcludes
      exact ⟨hconcludes, .inl ⟨e, rfl⟩⟩
    | error stop =>
      rw [hread] at hconcludes
      exact ⟨hconcludes.1, .inr ⟨_, _, rfl⟩⟩

/-- A blank and a digit are a disjunction, and the loop over the digits of its number takes the
digit. -/
theorem reading_progresses_digit :
    (∃ hk, orAt [' ', '5'] none ⟨0, [' ', '5']⟩ = .ok (.constant (.int 5), ⟨⟨2, []⟩, hk⟩)) ∧
      .turn .numberChars ['5'] [] ∈ trace [' ', '5'] ∧ Consumes [' ', '5'] [] ∧ Consumes ['5'] [] ∧
      (trace [' ', '5']).length ≤ 108 := by
  have hoperand : operandAt [' ', '5'] none ⟨0, [' ', '5']⟩ =
      .ok (.constant (.int 5), ⟨⟨2, []⟩, Nat.zero_lt_two⟩) := by
    rw [operandAt]
    rfl
  have hcomparison : comparisonAt [' ', '5'] none ⟨0, [' ', '5']⟩ =
      .ok (.constant (.int 5), ⟨⟨2, []⟩, Nat.zero_lt_two⟩) := by
    rw [comparisonAt, hoperand]
    rfl
  have hand : andAt [' ', '5'] none ⟨0, [' ', '5']⟩ =
      .ok (.constant (.int 5), ⟨⟨2, []⟩, Nat.zero_lt_two⟩) := by
    rw [andAt, hcomparison]
    dsimp only
    rw [andsAt]
    rfl
  have hor : orAt [' ', '5'] none ⟨0, [' ', '5']⟩ =
      .ok (.constant (.int 5), ⟨⟨2, []⟩, Nat.zero_lt_two⟩) := by
    rw [orAt, hand]
    dsimp only
    rw [orsAt]
    rfl
  have hturn : .turn .numberChars ['5'] [] ∈ operandTrace [' ', '5'] none ⟨0, [' ', '5']⟩ := by
    rw [operandTrace]
    exact .tail _ (.tail _ (.tail _ (.tail _ (.tail _ (.head _)))))
  have htrace : .turn .numberChars ['5'] [] ∈ trace [' ', '5'] := by
    have hhead : headAt [' ', '5'] = .ok (none, ⟨0, [' ', '5']⟩) := rfl
    rw [trace, hhead]
    dsimp only
    rw [orTrace, andTrace, comparisonTrace]
    simp [hturn]
  obtain ⟨htakes, -, hturns, hlength, -⟩ := reading_progresses [' ', '5']
  have hconsumes := (htakes none).2.2.2 _ _ _ (.start [' ', '5']) hor
  exact ⟨⟨_, hor⟩, htrace, hconsumes, hturns _ _ _ htrace, hlength⟩

end SearchDialect.Predicate
