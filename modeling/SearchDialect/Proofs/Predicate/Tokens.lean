import SearchDialect.Proofs.Predicate.Grammar

/-!
# Reading tokens

What each token reader takes from the front of a text, and on which texts it succeeds. A run of
characters is taken as far as it goes, so a run is only read back if what follows does not prolong
it; for names, numbers and constants `Ends` says what that takes.
-/

namespace SearchDialect.Predicate

open Text Number

/-! ## Steps of the reader -/

/-- A step succeeds with a value and a rest. -/
def Gives {α : Type} {P : List Char → Prop} (x : Except Stop (α × { r : List Char // P r })) (a : α)
    (r : List Char) : Prop := ∃ h : P r, x = .ok (a, ⟨r, h⟩)

variable {α : Type} {P : List Char → Prop} {a b : α} {r s : List Char}

@[simp] theorem gives_error_iff {stop : Stop} :
    Gives (.error stop : Except Stop (α × { r // P r })) a r ↔ False :=
  ⟨fun ⟨_, h⟩ => (by cases h), False.elim⟩

@[simp] theorem gives_ok_iff {h : P s} : Gives (.ok (b, ⟨s, h⟩)) a r ↔ b = a ∧ s = r := by
  constructor
  · rintro ⟨_, heq⟩
    cases heq
    exact ⟨rfl, rfl⟩
  · rintro ⟨rfl, rfl⟩
    exact ⟨h, rfl⟩

/-- A step has one outcome. -/
theorem Gives.unique {x : Except Stop (α × { r : List Char // P r })} (h : Gives x a r)
    (h' : Gives x b s) : a = b ∧ r = s := by
  obtain ⟨_, rfl⟩ := h
  exact gives_ok_iff.1 h'

/-- A step after one that gives something. -/
theorem exists_gives_ok_iff {C : α → List Char → Prop} {h : P r} :
    (∃ b s, Gives (.ok (a, ⟨r, h⟩)) b s ∧ C b s) ↔ C a r := by
  simp only [gives_ok_iff]
  constructor
  · rintro ⟨_, _, ⟨rfl, rfl⟩, hC⟩
    exact hC
  · intro hC
    exact ⟨_, _, ⟨rfl, rfl⟩, hC⟩

/-! ## Characters -/

theorem isNameChar_of_isBlank {c : Char} (h : isBlank c = true) : isNameChar c = false := by
  rw [isNameChar, isLetterOrNumber_of_isBlank h, Bool.false_or, beq_eq_false_iff_ne]
  rintro rfl
  exact absurd h (by decide)

theorem isBlank_of_isNameChar {c : Char} (h : isNameChar c = true) : isBlank c = false := by
  cases hb : isBlank c with
  | false => rfl
  | true =>
    rw [isNameChar_of_isBlank hb] at h
    cases h

theorem isNameChar_of_isNameStart {c : Char} (h : isNameStart c = true) : isNameChar c = true := by
  rw [isNameStart, Bool.or_eq_true] at h
  rw [isNameChar, isLetterOrNumber, Bool.or_eq_true, Bool.or_eq_true]
  exact h.imp_left .inl

theorem isDigit_ascii : ∀ n < 0x80, (Char.ofNat n).isDigit = true →
    isNameChar (Char.ofNat n) = true ∧ isNameStart (Char.ofNat n) = false := by
  decide

/-- A digit may stand in a name, but it starts none. -/
theorem isNameChar_of_isDigit {c : Char} (h : c.isDigit = true) :
    isNameChar c = true ∧ isNameStart c = false := by
  have hascii : c.toNat < 0x80 := by
    simp only [Char.isDigit, Bool.and_eq_true, decide_eq_true_eq] at h
    exact Nat.lt_of_le_of_lt h.2 (by decide)
  have := isDigit_ascii c.toNat hascii
  rw [Char.ofNat_toNat] at this
  exact this h

/-- What starts a name starts no other operand. -/
theorem ne_of_isNameStart {c : Char} (h : isNameStart c = true) :
    c ≠ '(' ∧ ¬ (c = '\'' ∨ c = '"') ∧ ¬ (c = '-' ∨ c.isDigit = true) := by
  refine ⟨?_, ?_, ?_⟩
  · rintro rfl
    exact absurd h (by decide)
  · rintro (rfl | rfl) <;> exact absurd h (by decide)
  · rintro (rfl | hd)
    · exact absurd h (by decide)
    · rw [(isNameChar_of_isDigit hd).2] at h
      cases h

/-- What starts a number starts no other operand. -/
theorem ne_of_isNumberStart {c : Char} (h : c = '-' ∨ c.isDigit = true) :
    isBlank c = false ∧ c ≠ '(' ∧ ¬ (c = '\'' ∨ c = '"') := by
  rcases h with rfl | hd
  · decide
  · refine ⟨isBlank_of_isNameChar (isNameChar_of_isDigit hd).1, ?_, ?_⟩
    · rintro rfl
      exact absurd hd (by decide)
    · rintro (rfl | rfl) <;> exact absurd hd (by decide)

/-- What a quote is not: it starts no other operand and goes on with no name. -/
theorem ne_of_quote {q : Char} (h : q = '\'' ∨ q = '"') :
    q ≠ '\\' ∧ q ≠ '(' ∧ isBlank q = false ∧ isNameChar q = false := by
  rcases h with rfl | rfl <;> decide

/-! ## Symbols -/

/-- A token is read if the text is blanks and the token, and the rest is left. -/
theorem token?_eq_some_iff {c : Char} {t cs r : List Char} (hc : isBlank c = false) :
    token? (c :: t) cs = some r ↔ ∃ ws, Blanks ws ∧ cs = ws ++ (c :: (t ++ r)) := by
  unfold token?
  constructor
  · intro h
    obtain ⟨ws, hws, hcs⟩ := exists_blanks cs
    rw [eq_append_of_afterWord? h] at hcs
    exact ⟨ws, hws, hcs⟩
  · rintro ⟨ws, hws, rfl⟩
    rw [skipBlanks_cons hws hc]
    exact afterWord?_append (c :: t) r

/-- No token is read where another character comes next. -/
theorem token?_eq_none {c : Char} {t cs : List Char} (h : ∀ d ∈ (skipBlanks cs).head?, d ≠ c) :
    token? (c :: t) cs = none := by
  unfold token?
  cases hcs : skipBlanks cs with
  | nil => rfl
  | cons d ds =>
    rw [hcs] at h
    rw [afterWord?, if_neg (Ne.symm (h d rfl))]

theorem token?_append {ws t cs : List Char} (hws : Blanks ws)
    (hcs : ∀ c ∈ cs.head?, isBlank c = false) : token? t (ws ++ cs) = afterWord? t cs := by
  rw [token?, skipBlanks_append hws hcs]

/-- A symbol starts with a character that ends a token and comes after no expression. An equals sign
is followed by another one. -/
theorem symbol_eq_cons (c : Comparison) : ∃ d t, c.symbol.toList = d :: t ∧ isBlank d = false ∧
    isNameChar d = false ∧ d ∉ ['.', '\'', '"', ')', '|', '&'] ∧ (d = '=' → t = ['=']) := by
  cases c with
  | eq => exact ⟨'=', ['='], rfl, by decide⟩
  | ne => exact ⟨'!', ['='], rfl, by decide⟩
  | gt => exact ⟨'>', [], rfl, by decide⟩
  | ge => exact ⟨'>', ['='], rfl, by decide⟩
  | lt => exact ⟨'<', [], rfl, by decide⟩
  | le => exact ⟨'<', ['='], rfl, by decide⟩

/-- The symbols in the order in which they are tried. -/
def symbolOrder : List Comparison := [.eq, .ne, .ge, .le, .gt, .lt]

theorem comparison?_eq (cs : List Char) : (comparison? cs).map (fun x => (x.1, x.2.1)) =
    symbolOrder.findSome? fun c => (token? c.symbol.toList cs).map fun r => (c, r) := by
  unfold comparison?
  repeat' split
  all_goals simp [symbolOrder, Comparison.symbol, *]

/-- A comparison is read only where its symbol comes next. -/
theorem comparison?_sound {cs r : List Char} {c : Comparison} {h : r.length < cs.length}
    (hread : comparison? cs = some (c, ⟨r, h⟩)) :
    ∃ ws, Blanks ws ∧ cs = ws ++ (c.symbol.toList ++ r) := by
  have hfound := comparison?_eq cs
  rw [hread, Option.map_some, eq_comm] at hfound
  obtain ⟨d, -, hd⟩ := List.exists_of_findSome?_eq_some hfound
  obtain ⟨s, hs, heq⟩ := Option.map_eq_some_iff.1 hd
  obtain ⟨rfl, rfl⟩ := Prod.mk.inj heq
  obtain ⟨ws, hws, hcs⟩ := exists_blanks cs
  exact ⟨ws, hws, by rw [eq_append_of_afterWord? hs] at hcs; exact hcs⟩

theorem comparison?_complete {ws r : List Char} (c : Comparison) (hws : Blanks ws)
    (hr : r.head? ≠ some '=') :
    ∃ h, comparison? (ws ++ (c.symbol.toList ++ r)) = some (c, ⟨r, h⟩) := by
  have htoken (t : List Char) : token? t (ws ++ (c.symbol.toList ++ r)) =
      afterWord? t (c.symbol.toList ++ r) := by
    obtain ⟨d, s, hsymbol, hblank, -⟩ := symbol_eq_cons c
    rw [hsymbol]
    exact token?_append hws fun _ hd => by cases hd; exact hblank
  -- The longer symbols are tried first: they must not be there if a shorter one is meant.
  have hnone : afterWord? ['='] r = none := by
    cases r with
    | nil => rfl
    | cons d r => rw [afterWord?, if_neg fun h => hr (by rw [h]; rfl)]
  have hfound : (symbolOrder.findSome? fun d =>
      (token? d.symbol.toList (ws ++ (c.symbol.toList ++ r))).map fun r => (d, r)) =
        some (c, r) := by
    simp only [htoken]
    cases c <;> simp [symbolOrder, Comparison.symbol, afterWord?, hnone]
  rw [← comparison?_eq, Option.map_eq_some_iff] at hfound
  obtain ⟨⟨d, s, hs⟩, h, heq⟩ := hfound
  simp only [Prod.mk.injEq] at heq
  obtain ⟨rfl, rfl⟩ := heq
  exact ⟨hs, h⟩

/-- No comparison is read where none of the symbols comes next. -/
theorem comparison?_eq_none {cs : List Char}
    (h : ∀ (c : Comparison) (r : List Char), skipBlanks cs ≠ c.symbol.toList ++ r) :
    comparison? cs = none := by
  cases hread : comparison? cs with
  | none => rfl
  | some x =>
    obtain ⟨c, s, hs⟩ := x
    obtain ⟨ws, hws, hcs⟩ := comparison?_sound hread
    obtain ⟨d, t, hsymbol, hblank, -⟩ := symbol_eq_cons c
    refine absurd ?_ (h c s)
    rw [hcs, hsymbol]
    exact skipBlanks_cons hws hblank

/-! ## Texts in quotes -/

/-- A text in quotes is read up to the first bare copy of its quote. -/
theorem readQuoted_gives_iff {opening cs text r : List Char} {quote : Char}
    (hquote : quote ≠ '\\') : Gives (readQuoted opening quote cs) text r ↔
      ∃ body, QuotedBody quote body text ∧ cs = body ++ quote :: r := by
  constructor
  · intro h
    fun_induction readQuoted opening quote cs generalizing text r with
    | case1 => exact (gives_error_iff.1 h).elim
    | case2 cs =>
      obtain ⟨rfl, rfl⟩ := gives_ok_iff.1 h
      exact ⟨[], .nil, rfl⟩
    | case3 => exact (gives_error_iff.1 h).elim
    | case4 => exact (gives_error_iff.1 h).elim
    | case5 d ds t s hs hread _ ih =>
      obtain ⟨rfl, rfl⟩ := gives_ok_iff.1 h
      obtain ⟨body, hbody, rfl⟩ := ih ⟨hs, hread⟩
      exact ⟨_, .escaped hbody, rfl⟩
    | case6 => exact (gives_error_iff.1 h).elim
    | case7 c cs hc hb s t hs hread ih =>
      obtain ⟨rfl, rfl⟩ := gives_ok_iff.1 h
      obtain ⟨body, hbody, rfl⟩ := ih ⟨hs, hread⟩
      exact ⟨_, .plain hc hb hbody, rfl⟩
  · rintro ⟨body, hbody, rfl⟩
    induction hbody with
    | nil =>
      unfold readQuoted
      simp only [List.nil_append, if_true]
      exact gives_ok_iff.2 ⟨rfl, rfl⟩
    | plain hq hb _ ih =>
      obtain ⟨_, hread⟩ := ih
      rw [List.cons_append]
      unfold readQuoted
      simp only [if_neg hq, if_neg hb, hread]
      exact gives_ok_iff.2 ⟨rfl, rfl⟩
    | escaped _ ih =>
      obtain ⟨_, hread⟩ := ih
      rw [List.cons_append, List.cons_append]
      unfold readQuoted
      simp only [if_neg (Ne.symm hquote), if_true, hread]
      exact gives_ok_iff.2 ⟨rfl, rfl⟩

/-! ## Numbers -/

theorem readNumber_gives_iff {c : Char} {cs r : List Char} {e : Expr} :
    Gives (readNumber c cs) e r ↔ ∃ v, numberValue? (c :: cs.takeWhile isNumberChar) = some v ∧
      e = .constant v ∧ r = cs.dropWhile isNumberChar := by
  unfold readNumber
  dsimp only
  cases numberValue? (c :: cs.takeWhile isNumberChar) with
  | none => simp
  | some v => simp [eq_comm]

/-! ## Paths -/

/-- The further names of a path, each after its point. -/
def furtherNames (names : List (List Char)) : List Char := names.flatMap fun name => '.' :: name

theorem join_cons (first : List Char) (names : List (List Char)) :
    join ['.'] (first :: names) = first ++ furtherNames names := by
  induction names generalizing first with
  | nil => rw [join, furtherNames, List.flatMap_nil, List.append_nil]
  | cons name names ih =>
    rw [join, ih name, furtherNames, furtherNames, List.flatMap_cons, List.append_assoc]
    · rfl
    · exact List.cons_ne_nil _ _

theorem readNames_sound {cs r : List Char} {names : List (List Char)}
    (h : Gives (readNames cs) names r) :
    (∀ name ∈ names, IsName name) ∧ cs = furtherNames names ++ r := by
  fun_induction readNames cs generalizing names r with
  | case1 =>
    obtain ⟨rfl, rfl⟩ := gives_ok_iff.1 h
    exact ⟨fun _ hname => (by cases hname), rfl⟩
  | case2 => exact (gives_error_iff.1 h).elim
  | case3 => exact (gives_error_iff.1 h).elim
  | case4 cs name hname _ more s hs hread =>
    rename_i ih
    obtain ⟨rfl, rfl⟩ := gives_ok_iff.1 h
    obtain ⟨hmore, hcs⟩ := ih ⟨hs, hread⟩
    constructor
    · intro n hn
      rcases List.mem_cons.1 hn with rfl | hn
      · exact ⟨fun hnil => hname (by rw [hnil]; rfl), takeWhile_mem _ _⟩
      · exact hmore n hn
    · rw [furtherNames, List.flatMap_cons, ← furtherNames, List.append_assoc, ← hcs]
      exact congrArg _ List.takeWhile_append_dropWhile.symm
  | case5 c cs hc =>
    obtain ⟨rfl, rfl⟩ := gives_ok_iff.1 h
    exact ⟨fun _ hname => (by cases hname), rfl⟩

theorem readNames_complete {names : List (List Char)} {r : List Char}
    (hnames : ∀ name ∈ names, IsName name) (hr : ∀ c ∈ r.head?, isNameChar c = false ∧ c ≠ '.') :
    Gives (readNames (furtherNames names ++ r)) names r := by
  induction names with
  | nil =>
    rw [furtherNames, List.flatMap_nil, List.nil_append]
    cases r with
    | nil => rw [readNames]; exact gives_ok_iff.2 ⟨rfl, rfl⟩
    | cons c r => rw [readNames, if_neg (hr c rfl).2]; exact gives_ok_iff.2 ⟨rfl, rfl⟩
  | cons name names ih =>
    obtain ⟨hne, hname⟩ := hnames name List.mem_cons_self
    have hnext : ∀ c ∈ (furtherNames names ++ r).head?, isNameChar c = false := by
      cases names with
      | nil => exact fun c hc => (hr c hc).1
      | cons n ns =>
        -- The point of the next name ends this one.
        intro c hc
        cases hc
        decide
    obtain ⟨htake, hdrop⟩ := takeWhile_run hname hnext
    have hread := ih fun n hn => hnames n (List.mem_cons_of_mem _ hn)
    rw [← hdrop] at hread
    obtain ⟨_, hread⟩ := hread
    rw [furtherNames, List.flatMap_cons, ← furtherNames, List.append_assoc, List.cons_append]
    unfold readNames
    simp only [if_true, htake, List.isEmpty_iff, if_neg hne, hread]
    exact gives_ok_iff.2 ⟨rfl, rfl⟩

theorem pathOf_eq (head? : Option (List Char)) (first : List Char) (names : List (List Char)) :
    pathOf head? first names =
      .member (String.ofList (join ['.'] (unqualified head? (first :: names)))) := by
  unfold pathOf
  cases names with
  | nil => rfl
  | cons name names =>
    by_cases h : head? = some first
    · simp [unqualified, h]
    · simp [unqualified, h]

/-! ## Words -/

theorem readTime_gives_iff {word quoted cs r : List Char} {quote : Char} {e : Expr} :
    Gives (readTime word quoted quote cs) e r ↔ ∃ text t,
      Gives (readQuoted quoted quote cs) text r ∧ Time.readTimestamp text = .ok t ∧
        e = .constant (.time t) := by
  unfold readTime
  cases readQuoted quoted quote cs with
  | error stop => simp
  | ok x =>
    obtain ⟨text, s, hs⟩ := x
    cases h : Time.readTimestamp text with
    | error fault => simp [h]
    | ok t =>
      simp only [gives_ok_iff, and_assoc, exists_and_left, exists_eq_left', h, Except.ok.injEq]
      exact and_comm.trans (and_congr_right fun _ => eq_comm)

theorem readWord_gives_iff {head? : Option (List Char)} {c : Char} {cs r : List Char} {e : Expr} :
    Gives (readWord head? c cs) e r ↔
      match keyword? (c :: cs.takeWhile isNameChar) with
      | some v => e = .constant v ∧ r = cs.dropWhile isNameChar
      | none =>
        match (if c :: cs.takeWhile isNameChar = ['d', 't'] then
            openingQuote? (cs.dropWhile isNameChar) else none) with
        | some (quote, s) =>
          Gives (readTime (c :: cs) (cs.dropWhile isNameChar) quote s) e r
        | none => ∃ names, Gives (readNames (cs.dropWhile isNameChar)) names r ∧
            e = pathOf head? (c :: cs.takeWhile isNameChar) names := by
  unfold readWord
  dsimp only
  cases keyword? (c :: cs.takeWhile isNameChar) with
  | some v => simp [eq_comm]
  | none =>
    dsimp only
    split
    · next quote s h =>
      simp only [h]
      cases readTime (c :: cs) (cs.dropWhile isNameChar) quote s with
      | error stop => simp
      | ok x =>
        obtain ⟨e', s, hs⟩ := x
        simp only [gives_ok_iff]
    · next h =>
      simp only [h]
      cases readNames (cs.dropWhile isNameChar) with
      | error stop => simp
      | ok x =>
        obtain ⟨names, s, hs⟩ := x
        simp only [gives_ok_iff, and_assoc, exists_eq_left']
        exact and_comm.trans (and_congr_right fun _ => eq_comm)

end SearchDialect.Predicate
