import SearchDialect.Proofs.Predicate.Steps

/-!
# Completeness of the reader of expressions

Every text of a disjunction is read through to its end (`disjunctionReads`). The reader looks one
symbol ahead, so what it does with a part depends on what follows it: `Follows` names the characters
that may come next. A conjunction or a disjunction that is derived from a shorter one on its left is
read from left to right, so its reading is stated together with the parts that go on behind it.
-/

namespace SearchDialect.Predicate

open Text Number

variable {head? : Option (List Char)}

/-! ## What may follow -/

/-- What follows a part of an expression: nothing that prolongs its last token, and after blanks one
of some characters or the end. -/
def Follows (stops r : List Char) : Prop := Ends r ∧ ∀ c ∈ (skipBlanks r).head?, c ∈ stops

theorem Ends.blanks {ws r : List Char} (hws : Blanks ws) (hr : Ends r) : Ends (ws ++ r) := by
  cases ws with
  | nil => exact hr
  | cons w ws =>
    intro c hc
    cases hc
    have hw : isBlank w = true := hws w List.mem_cons_self
    refine ⟨isNameChar_of_isBlank hw, ?_, ?_, ?_⟩ <;> (rintro rfl; exact absurd hw (by decide))

theorem follows_symbol {stops ws r : List Char} {c : Char} (hws : Blanks ws)
    (hc : c ∈ ['|', '&', ')']) (hstop : c ∈ stops) : Follows stops (ws ++ c :: r) := by
  have hsymbol : isBlank c = false ∧ isNameChar c = false ∧ c ≠ '.' ∧ c ≠ '\'' ∧ c ≠ '"' := by
    simp only [List.mem_cons, List.not_mem_nil, or_false] at hc
    rcases hc with rfl | rfl | rfl <;> decide
  constructor
  · apply Ends.blanks hws
    intro d hd
    cases hd
    exact hsymbol.2
  · intro d hd
    rw [skipBlanks_cons hws hsymbol.1] at hd
    cases hd
    exact hstop

theorem follows_blanks {stops ws : List Char} (hws : Blanks ws) : Follows stops ws := by
  constructor
  · have hends : Ends (ws ++ []) := by
      apply Ends.blanks hws
      intro c hc
      cases hc
    rwa [List.append_nil] at hends
  · rw [skipBlanks_of_blanks hws]
    intro c hc
    cases hc

theorem comparison?_stop {r : List Char} (h : Follows [')', '|', '&'] r) :
    comparison? r = none := by
  apply comparison?_eq_none
  intro c s hr
  obtain ⟨d, t, hsymbol, -, -, hd, -⟩ := symbol_eq_cons c
  have hstop := h.2
  rw [hr, hsymbol] at hstop
  have := hstop d rfl
  simp_all

theorem readOrs_stop {r : List Char} {e : Expr} (h : Follows [')'] r) :
    Gives (readOrs head? e r) e r := by
  rw [readOrs_gives_iff, token?_eq_none fun d hd => ?_]
  · exact ⟨rfl, rfl⟩
  · rintro rfl
    exact absurd (h.2 _ hd) (by decide)

theorem readAnds_stop {r : List Char} {e : Expr} (h : Follows [')', '|'] r) :
    Gives (readAnds head? e r) e r := by
  rw [readAnds_gives_iff, token?_eq_none fun d hd => ?_]
  · exact ⟨rfl, rfl⟩
  · rintro rfl
    exact absurd (h.2 _ hd) (by decide)

/-- What may follow a disjunction may follow its last comparison. -/
theorem Follows.and {r : List Char} (h : Follows [')', '|'] r) : Follows [')', '|', '&'] r :=
  ⟨h.1, fun c hc => List.mem_append_left ['&'] (h.2 c hc)⟩

/-! ## Operands -/

theorem readOperand_word {ws ds r : List Char} {c : Char} {e : Expr} (hws : Blanks ws)
    (hc : isNameStart c = true) (h : Gives (readWord head? c ds) e r) :
    Gives (readOperand head? (ws ++ c :: ds)) e r := by
  obtain ⟨hgroup, hquote, hnumber⟩ := ne_of_isNameStart hc
  have hblank := isBlank_of_isNameChar (isNameChar_of_isNameStart hc)
  rw [readOperand_gives_iff (skipBlanks_cons hws hblank),
    if_neg hgroup, if_neg hquote, if_neg hnumber]
  exact ⟨hc, h⟩

theorem readOperand_number {ws cs r : List Char} {v : Literal} (hws : Blanks ws)
    (hcs : IsNumeral false cs) (hv : numberValue? cs = some v) (hr : Ends r) :
    Gives (readOperand head? (ws ++ (cs ++ r))) (.constant v) r := by
  have hne : cs ≠ [] := by
    rintro rfl
    cases hv
  obtain ⟨c, ds, hc, hds, rfl⟩ := isNumeral_iff.1 ⟨hcs, hne⟩
  obtain ⟨hblank, hgroup, hquote⟩ := ne_of_isNumberStart hc
  rw [List.cons_append,
    readOperand_gives_iff (skipBlanks_cons hws hblank),
    if_neg hgroup, if_neg hquote, if_pos hc]
  exact readNumber_complete hds hv hr

theorem readOperand_text {ws cs text r : List Char} (hws : Blanks ws) (hcs : IsQuoted cs text) :
    Gives (readOperand head? (ws ++ (cs ++ r))) (.constant (.text (String.ofList text))) r := by
  obtain ⟨q, body, hq, hbody, rfl⟩ := isQuoted_iff.1 hcs
  obtain ⟨hbackslash, hgroup, hblank, -⟩ := ne_of_quote hq
  rw [List.cons_append,
    readOperand_gives_iff (skipBlanks_cons hws hblank),
    if_neg hgroup, if_pos hq]
  refine ⟨text, (readQuoted_gives_iff hbackslash).2 ⟨body, hbody, ?_⟩, rfl⟩
  rw [List.append_assoc, List.singleton_append]

theorem readOperand_atom {ws word r : List Char} {e : Expr} (hws : Blanks ws)
    (h : IsAtom head? word e) (hr : Ends r) :
    Gives (readOperand head? (ws ++ (word ++ r))) e r := by
  have hrue : ∀ c ∈ ['r', 'u', 'e'], isNameChar c = true := List.all_eq_true.1 rfl
  have halse : ∀ c ∈ ['a', 'l', 's', 'e'], isNameChar c = true := List.all_eq_true.1 rfl
  have hull : ∀ c ∈ ['u', 'l', 'l'], isNameChar c = true := List.all_eq_true.1 rfl
  cases h with
  | constant hv =>
    cases hv with
    | true => exact readOperand_word hws rfl (readWord_keyword hrue rfl hr)
    | false => exact readOperand_word hws rfl (readWord_keyword halse rfl hr)
    | null => exact readOperand_word hws rfl (readWord_keyword hull rfl hr)
    | int hcs hdot hi =>
      exact readOperand_number hws hcs (by rw [numberValue?, if_neg hdot, hi]; rfl) hr
    | double hcs hdot hd =>
      exact readOperand_number hws hcs (by rw [numberValue?, if_pos hdot, hd]; rfl) hr
    | text hcs => exact readOperand_text hws hcs
    | time hcs ht => exact readOperand_word hws rfl (readWord_time hcs ht)
  | path hnames =>
    cases hnames with
    | @names first more hfirst hstart hkey hmore =>
      obtain ⟨hne, hchars⟩ := hfirst
      cases first with
      | nil => exact absurd rfl hne
      | cons c ds =>
        rw [join_cons, List.append_assoc]
        exact readOperand_word hws (hstart c rfl)
          (readWord_path (fun d hd => hchars d (List.mem_cons_of_mem _ hd)) hkey hmore hr)

theorem readOperand_equals {r s : List Char} {e : Expr} :
    ¬ Gives (readOperand head? ('=' :: r)) e s := by
  rw [readOperand_gives_iff (c := '=') (s := r) rfl, if_neg (by decide), if_neg (by decide),
    if_neg (by decide)]
  intro h
  exact absurd h.1 (by decide)

theorem readOperand_group {ws r s s' : List Char} {e : Expr} (hws : Blanks ws)
    (h : Gives (readOr head? r) e s) (hs : token? [')'] s = some s') :
    Gives (readOperand head? (ws ++ '(' :: r)) e s' := by
  have hskip : skipBlanks (ws ++ '(' :: r) = '(' :: r := skipBlanks_cons hws rfl
  rw [readOperand_gives_iff hskip, if_pos rfl]
  exact ⟨s, h, hs⟩

/-! ## Completeness, one lemma for each way to derive a text -/

/-- The text of an operand is read as it, whatever ends its last token. -/
def OperandReads (head? : Option (List Char)) (cs : List Char) (e : Expr) : Prop :=
  ∀ ⦃r : List Char⦄, Ends r → Gives (readOperand head? (cs ++ r)) e r

/-- The text of a comparison is read as it where no comparison follows. -/
def ComparisonReads (head? : Option (List Char)) (cs : List Char) (e : Expr) : Prop :=
  ∀ ⦃r : List Char⦄, Follows [')', '|', '&'] r → Gives (readComparison head? (cs ++ r)) e r

/-- Reading goes through the text of a conjunction and on behind it. -/
def ConjunctionReads (head? : Option (List Char)) (cs : List Char) (l : Expr) : Prop :=
  ∀ ⦃r s : List Char⦄ ⦃e : Expr⦄, Follows [')', '|', '&'] r → Gives (readAnds head? l r) e s →
    Gives (readAnd head? (cs ++ r)) e s

/-- Reading goes through the text of a disjunction and on behind it. -/
def DisjunctionReads (head? : Option (List Char)) (cs : List Char) (l : Expr) : Prop :=
  ∀ ⦃r s : List Char⦄ ⦃e : Expr⦄, Follows [')', '|'] r → Gives (readOrs head? l r) e s →
    Gives (readOr head? (cs ++ r)) e s

variable {cs ls ws ws' rs : List Char} {e l right : Expr}

theorem OperandReads.group (hws : Blanks ws) (h : DisjunctionReads head? cs e) (hws' : Blanks ws') :
    OperandReads head? (ws ++ '(' :: (cs ++ (ws' ++ [')']))) e := by
  intro r hr
  have hread : Gives (readOr head? (cs ++ (ws' ++ ')' :: r))) e (ws' ++ ')' :: r) :=
    h (follows_symbol hws' (by decide) (by decide))
      (readOrs_stop (follows_symbol hws' (by decide) (by decide)))
  have hclose : token? [')'] (ws' ++ ')' :: r) = some r :=
    (token?_eq_some_iff rfl).2 ⟨ws', hws', rfl⟩
  rw [List.append_assoc, List.cons_append, List.append_assoc, List.append_assoc]
  exact readOperand_group hws hread hclose

theorem ComparisonReads.operand (h : OperandReads head? cs e) : ComparisonReads head? cs e := by
  intro r hr
  rw [readComparison_gives_iff]
  refine ⟨e, r, h hr.1, ?_⟩
  rw [comparison?_stop hr]
  exact ⟨rfl, rfl⟩

theorem ComparisonReads.compare {c : Comparison} (hl : OperandReads head? ls l) (hws : Blanks ws)
    (hright : OperandReads head? rs right) :
    ComparisonReads head? (ls ++ (ws ++ (c.symbol.toList ++ rs))) (.compare c l right) := by
  intro r hr
  have hread := hright hr.1
  have hends : Ends (ws ++ (c.symbol.toList ++ (rs ++ r))) := by
    obtain ⟨d, t, hsymbol, -, hname, hd, -⟩ := symbol_eq_cons c
    rw [hsymbol]
    apply Ends.blanks hws
    intro _ h
    cases h
    simp_all
  -- The right operand does not prolong the symbol: no operand starts with an equals sign.
  have hhead : (rs ++ r).head? ≠ some '=' := by
    intro h
    obtain ⟨s, hs⟩ := List.head?_eq_some_iff.1 h
    rw [hs] at hread
    exact readOperand_equals hread
  obtain ⟨hlt, hsymbol⟩ := comparison?_complete c hws hhead
  rw [List.append_assoc, List.append_assoc, List.append_assoc, readComparison_gives_iff]
  refine ⟨l, _, hl hends, ?_⟩
  rw [hsymbol]
  exact ⟨right, hread, rfl⟩

theorem ConjunctionReads.comparison (h : ComparisonReads head? cs e) :
    ConjunctionReads head? cs e :=
  fun r _ _ hr hmore => readAnd_gives_iff.2 ⟨e, r, h hr, hmore⟩

theorem ConjunctionReads.and (hl : ConjunctionReads head? ls l) (hws : Blanks ws)
    (hright : ComparisonReads head? rs right) :
    ConjunctionReads head? (ls ++ (ws ++ '&' :: '&' :: rs)) (.logical .and l right) := by
  intro r s e hr hmore
  -- Behind the left side, reading goes on with the symbol and the right side.
  have htoken : token? ['&', '&'] (ws ++ '&' :: '&' :: (rs ++ r)) = some (rs ++ r) :=
    (token?_eq_some_iff rfl).2 ⟨ws, hws, rfl⟩
  have hnext : Gives (readAnds head? l (ws ++ '&' :: '&' :: (rs ++ r))) e s := by
    rw [readAnds_gives_iff, htoken]
    exact ⟨right, r, hright hr, hmore⟩
  rw [List.append_assoc, List.append_assoc]
  exact hl (follows_symbol hws (by decide) (by decide)) hnext

theorem DisjunctionReads.conjunction (h : ConjunctionReads head? cs e) :
    DisjunctionReads head? cs e :=
  fun r _ _ hr hmore =>
    readOr_gives_iff.2 ⟨e, r, h hr.and (readAnds_stop hr), hmore⟩

theorem DisjunctionReads.or (hl : DisjunctionReads head? ls l) (hws : Blanks ws)
    (hright : ConjunctionReads head? rs right) :
    DisjunctionReads head? (ls ++ (ws ++ '|' :: '|' :: rs)) (.logical .or l right) := by
  intro r s e hr hmore
  have htoken : token? ['|', '|'] (ws ++ '|' :: '|' :: (rs ++ r)) = some (rs ++ r) :=
    (token?_eq_some_iff rfl).2 ⟨ws, hws, rfl⟩
  have hnext : Gives (readOrs head? l (ws ++ '|' :: '|' :: (rs ++ r))) e s := by
    rw [readOrs_gives_iff, htoken]
    exact ⟨right, r, hright hr.and (readAnds_stop hr), hmore⟩
  rw [List.append_assoc, List.append_assoc]
  exact hl (follows_symbol hws (by decide) (by decide)) hnext

/-- The text of a disjunction is read through to its end. -/
theorem disjunctionReads (h : IsDisjunction false head? cs e) : DisjunctionReads head? cs e :=
  @IsDisjunction.rec false head? (fun cs e _ => OperandReads head? cs e)
    (fun cs e _ => ComparisonReads head? cs e) (fun cs e _ => ConjunctionReads head? cs e)
    (fun cs e _ => DisjunctionReads head? cs e)
    (fun hws hv r hr => by rw [List.append_assoc]; exact readOperand_atom hws (.constant hv) hr)
    (fun hws hnames r hr => by rw [List.append_assoc]; exact readOperand_atom hws (.path hnames) hr)
    (fun hws _ hws' ih => .group hws ih hws')
    (fun _ ih => .operand ih)
    (fun _ hws _ ihl ihr => .compare ihl hws ihr)
    (fun _ ih => .comparison ih)
    (fun _ hws _ ihl ihr => .and ihl hws ihr)
    (fun _ ih => .conjunction ih)
    (fun _ hws _ ihl ihr => .or ihl hws ihr)
    cs e h

end SearchDialect.Predicate
