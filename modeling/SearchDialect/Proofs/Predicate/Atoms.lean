import SearchDialect.Proofs.Predicate.Tokens

/-!
# Reading constants and paths

The operands that are one token (`IsAtom`). What the readers of numbers and of words take off a text
is such a token (`readNumber_sound`, `readWord_sound`), and every such token is taken off if what
follows does not prolong it (`readNumber_complete`, `readWord_keyword`, `readWord_time` and
`readWord_path`).
-/

namespace SearchDialect.Predicate
open Text Number

/-- The operands that are one token: constants and paths. -/
inductive IsAtom (head? : Option (List Char)) : List Char → Expr → Prop where
  | constant {cs : List Char} {v : Literal} : IsConstant false cs v → IsAtom head? cs (.constant v)
  | path {names : List (List Char)} : IsPath names → IsAtom head? (join ['.'] names)
      (.member (String.ofList (join ['.'] (unqualified head? names))))

/-- What follows a name, a number or a constant and does not prolong it. -/
def Ends (r : List Char) : Prop :=
  ∀ c ∈ r.head?, isNameChar c = false ∧ c ≠ '.' ∧ c ≠ '\'' ∧ c ≠ '"'

variable {head? : Option (List Char)} {c : Char} {cs r : List Char} {e : Expr}

theorem keyword?_eq_none_iff {name : List Char} : keyword? name = none ↔ name ∉ constantWords := by
  simp only [constantWords, List.mem_cons, List.not_mem_nil, or_false, not_or]
  unfold keyword?
  split
  · next h => simp [h]
  split
  · next h => simp [h]
  split
  · next h => simp [h]
  · next h h' h'' => exact ⟨fun _ => ⟨h, h', h''⟩, fun _ => rfl⟩

theorem isConstant_of_keyword? {name : List Char} {v : Literal} (h : keyword? name = some v) :
    IsConstant false name v := by
  unfold keyword? at h
  split at h
  · next hname => cases h; rw [hname]; exact .true
  split at h
  · next hname => cases h; rw [hname]; exact .false
  split at h
  · next hname => cases h; rw [hname]; exact .null
  · cases h

theorem openingQuote?_eq_some_iff {q : Char} :
    openingQuote? cs = some (q, r) ↔ (q = '\'' ∨ q = '"') ∧ cs = q :: r := by
  constructor
  · intro h
    unfold openingQuote? at h
    split at h
    · cases h; exact ⟨.inl rfl, rfl⟩
    · cases h; exact ⟨.inr rfl, rfl⟩
    · cases h
  · rintro ⟨rfl | rfl, rfl⟩ <;> rfl

theorem openingQuote?_eq_none (h : ∀ c ∈ cs.head?, c ≠ '\'' ∧ c ≠ '"') :
    openingQuote? cs = none := by
  unfold openingQuote?
  split
  · exact absurd rfl (h _ rfl).1
  · exact absurd rfl (h _ rfl).2
  · rfl

/-- A text in quotes is an opening quote, the text up to the closing one, and the closing one. -/
theorem isQuoted_iff {cs text : List Char} : IsQuoted cs text ↔
    ∃ q body, (q = '\'' ∨ q = '"') ∧ QuotedBody q body text ∧ cs = q :: (body ++ [q]) := by
  constructor
  · rintro (h | h)
    · exact ⟨_, _, .inl rfl, h, rfl⟩
    · exact ⟨_, _, .inr rfl, h, rfl⟩
  · rintro ⟨q, body, rfl | rfl, h, rfl⟩
    · exact .single h
    · exact .double h

/-! ## Numbers -/

theorem isNumeral_iff {cs : List Char} : IsNumeral false cs ∧ cs ≠ [] ↔
    ∃ c ds, (c = '-' ∨ c.isDigit = true) ∧ (∀ d ∈ ds, isNumberChar d = true) ∧ cs = c :: ds := by
  constructor
  · rintro ⟨⟨⟨sign, run, rfl, rfl | rfl, hrun⟩, hdot⟩, hne⟩
    · rw [List.nil_append] at hdot hne ⊢
      cases run with
      | nil => exact absurd rfl hne
      | cons c ds =>
        refine ⟨c, ds, .inr ?_, fun d hd => hrun d (List.mem_cons_of_mem _ hd), rfl⟩
        have hc := hrun c List.mem_cons_self
        rw [isNumberChar, Bool.or_eq_true, beq_iff_eq] at hc
        exact hc.resolve_right fun h => hdot rfl (by rw [h]; rfl)
    · exact ⟨'-', run, .inl rfl, hrun, rfl⟩
  · rintro ⟨c, ds, rfl | hc, hds, rfl⟩
    · exact ⟨⟨⟨['-'], ds, rfl, .inr rfl, hds⟩, fun _ h => by cases h⟩, List.cons_ne_nil _ _⟩
    · refine ⟨⟨⟨[], c :: ds, rfl, .inl rfl, ?_⟩, ?_⟩, List.cons_ne_nil _ _⟩
      · intro d hd
        rcases List.mem_cons.1 hd with rfl | hd
        · rw [isNumberChar, hc, Bool.true_or]
        · exact hds d hd
      · intro _ h
        cases h
        exact absurd hc (by decide)

theorem isConstant_of_numberValue? {cs : List Char} {v : Literal} (hcs : IsNumeral false cs)
    (h : numberValue? cs = some v) : IsConstant false cs v := by
  unfold numberValue? at h
  split at h
  · next hdot =>
    obtain ⟨d, hd, rfl⟩ := Option.map_eq_some_iff.1 h
    exact .double hcs hdot hd
  · next hdot =>
    obtain ⟨i, hi, rfl⟩ := Option.map_eq_some_iff.1 h
    exact .int hcs hdot hi

/-- A number is read up to the end of its digits and points. -/
theorem readNumber_sound (hc : c = '-' ∨ c.isDigit = true) (h : Gives (readNumber c cs) e r) :
    ∃ word, c :: cs = word ++ r ∧ IsAtom head? word e := by
  obtain ⟨v, hv, rfl, rfl⟩ := readNumber_gives_iff.1 h
  refine ⟨c :: cs.takeWhile isNumberChar, ?_, .constant (isConstant_of_numberValue? ?_ hv)⟩
  · rw [List.cons_append, List.takeWhile_append_dropWhile]
  · exact (isNumeral_iff.2 ⟨c, _, hc, takeWhile_mem _ _, rfl⟩).1

theorem isNumberChar_of_ends (h : Ends r) : ∀ c ∈ r.head?, isNumberChar c = false := by
  intro c hc
  obtain ⟨hname, hdot, -⟩ := h c hc
  rw [isNumberChar, Bool.or_eq_false_iff, beq_eq_false_iff_ne]
  refine ⟨?_, hdot⟩
  cases hd : c.isDigit with
  | false => rfl
  | true =>
    rw [(isNameChar_of_isDigit hd).1] at hname
    cases hname

theorem readNumber_complete {ds : List Char} {v : Literal} (hds : ∀ d ∈ ds, isNumberChar d = true)
    (hv : numberValue? (c :: ds) = some v) (hr : Ends r) :
    Gives (readNumber c (ds ++ r)) (.constant v) r := by
  obtain ⟨htake, hdrop⟩ := takeWhile_run hds (isNumberChar_of_ends hr)
  rw [readNumber_gives_iff, htake, hdrop]
  exact ⟨v, hv, rfl, rfl⟩

/-! ## Words -/

theorem readWord_sound (hc : isNameStart c = true) (h : Gives (readWord head? c cs) e r) :
    ∃ word, c :: cs = word ++ r ∧ IsAtom head? word e := by
  have hsplit : c :: cs = c :: cs.takeWhile isNameChar ++ cs.dropWhile isNameChar := by
    rw [List.cons_append, List.takeWhile_append_dropWhile]
  have hname : IsName (c :: cs.takeWhile isNameChar) := by
    refine ⟨List.cons_ne_nil _ _, ?_⟩
    intro d hd
    rcases List.mem_cons.1 hd with rfl | hd
    · exact isNameChar_of_isNameStart hc
    · exact takeWhile_mem _ _ d hd
  rw [readWord_gives_iff] at h
  -- The three kinds of words: keywords, date-times and paths.
  split at h
  · next v hv =>
    obtain ⟨rfl, rfl⟩ := h
    exact ⟨_, hsplit, .constant (isConstant_of_keyword? hv)⟩
  split at h
  · next q s hq =>
    obtain ⟨text, t, hread, ht, rfl⟩ := readTime_gives_iff.1 h
    split at hq
    · next hdt =>
      obtain ⟨hquote, hdrop⟩ := openingQuote?_eq_some_iff.1 hq
      obtain ⟨body, hbody, rfl⟩ := (readQuoted_gives_iff (ne_of_quote hquote).1).1 hread
      rw [hsplit, hdt, hdrop]
      refine ⟨'d' :: 't' :: q :: (body ++ [q]), ?_,
        .constant (.time (isQuoted_iff.2 ⟨q, body, hquote, hbody, rfl⟩) ht)⟩
      simp
    · cases hq
  · next hkey _ _ =>
    obtain ⟨names, hread, rfl⟩ := h
    obtain ⟨hnames, hdrop⟩ := readNames_sound hread
    rw [pathOf_eq]
    refine ⟨join ['.'] ((c :: cs.takeWhile isNameChar) :: names), ?_,
      .path (.names hname ?_ ?_ hnames)⟩
    · rw [join_cons, List.append_assoc, ← hdrop, ← hsplit]
    · intro d hd; cases hd; exact hc
    · exact keyword?_eq_none_iff.1 hkey

theorem isNameChar_of_ends (h : Ends r) : ∀ c ∈ r.head?, isNameChar c = false := fun c hc =>
  (h c hc).1

theorem readWord_keyword {ds : List Char} {v : Literal} (hds : ∀ d ∈ ds, isNameChar d = true)
    (hv : keyword? (c :: ds) = some v) (hr : Ends r) :
    Gives (readWord head? c (ds ++ r)) (.constant v) r := by
  obtain ⟨htake, hdrop⟩ := takeWhile_run hds (isNameChar_of_ends hr)
  rw [readWord_gives_iff, htake, hdrop, hv]
  exact ⟨rfl, rfl⟩

theorem readWord_time {cs text : List Char} {t : Time.Timestamp} (hcs : IsQuoted cs text)
    (ht : Time.readTimestamp text = .ok t) :
    Gives (readWord head? 'd' ('t' :: (cs ++ r))) (.constant (.time t)) r := by
  obtain ⟨q, body, hq, hbody, rfl⟩ := isQuoted_iff.1 hcs
  have hend : ∀ c ∈ (q :: (body ++ [q]) ++ r).head?, isNameChar c = false := by
    intro c hc
    cases hc
    exact (ne_of_quote hq).2.2.2
  have hword : ∀ c ∈ ['t'], isNameChar c = true := List.all_eq_true.1 rfl
  obtain ⟨htake, hdrop⟩ := takeWhile_run hword hend
  have hquote : openingQuote? (q :: (body ++ [q]) ++ r) = some (q, body ++ [q] ++ r) :=
    openingQuote?_eq_some_iff.2 ⟨hq, rfl⟩
  show Gives (readWord head? 'd' (['t'] ++ (q :: (body ++ [q]) ++ r))) _ r
  rw [readWord_gives_iff, htake, hdrop,
    keyword?_eq_none_iff.2 (by decide)]
  simp only [if_true, hquote]
  refine readTime_gives_iff.2 ⟨text, t, ?_, ht, rfl⟩
  refine (readQuoted_gives_iff (ne_of_quote hq).1).2 ⟨body, hbody, ?_⟩
  rw [List.append_assoc, List.singleton_append]

theorem readWord_path {ds : List Char} {names : List (List Char)}
    (hds : ∀ d ∈ ds, isNameChar d = true) (hkey : c :: ds ∉ constantWords)
    (hnames : ∀ name ∈ names, IsName name) (hr : Ends r) :
    Gives (readWord head? c (ds ++ (furtherNames names ++ r)))
      (.member (String.ofList (join ['.'] (unqualified head? ((c :: ds) :: names))))) r := by
  have hend : ∀ c ∈ (furtherNames names ++ r).head?,
      isNameChar c = false ∧ c ≠ '\'' ∧ c ≠ '"' := by
    cases names with
    | nil => exact fun c hc => ⟨(hr c hc).1, (hr c hc).2.2⟩
    | cons name names => intro c hc; cases hc; decide
  obtain ⟨htake, hdrop⟩ := takeWhile_run hds fun c hc => (hend c hc).1
  rw [readWord_gives_iff, htake, hdrop, keyword?_eq_none_iff.2 hkey,
    openingQuote?_eq_none fun c hc => (hend c hc).2, ite_self]
  refine ⟨names, readNames_complete hnames fun c hc => ⟨(hr c hc).1, (hr c hc).2.1⟩, ?_⟩
  rw [pathOf_eq]

end SearchDialect.Predicate
