import SearchDialect.Proofs.Predicate.Completeness
import SearchDialect.Proofs.Predicate.Soundness

/-!
# Reading predicates

The reader takes exactly the texts of the grammar, each to the expressions that it derives
(`read_eq_ok_iff`). The head is looked for before anything else, so a text without one must be told
from a text with one: an expression in front of a name and an arrow is `Stuck` there.
-/

namespace SearchDialect.Predicate

open Text Number

/-! ## Heads -/

theorem head?_eq_some_iff {cs name r : List Char} : Predicate.head? cs = some (name, r) ↔
    ∃ ws ws', Blanks ws ∧ IsName name ∧ Blanks ws' ∧
      cs = ws ++ (name ++ (ws' ++ '=' :: '>' :: r)) := by
  constructor
  · intro h
    obtain ⟨ws, hws, hcs⟩ := exists_blanks cs
    unfold Predicate.head? at h
    dsimp only at h
    split at h
    · cases h
    · next hne =>
      obtain ⟨s, hs, heq⟩ := Option.map_eq_some_iff.1 h
      obtain ⟨rfl, rfl⟩ := Prod.mk.inj heq
      obtain ⟨ws', hws', hdrop⟩ := (token?_eq_some_iff rfl).1 hs
      refine ⟨ws, ws', hws, ⟨fun h => hne (by rw [h]; rfl), takeWhile_mem _ _⟩, hws', ?_⟩
      rw [← show _ = ws' ++ '=' :: '>' :: s from hdrop, List.takeWhile_append_dropWhile]
      exact hcs
  · rintro ⟨ws, ws', hws, ⟨hne, hname⟩, hws', rfl⟩
    have hstart : ∀ c ∈ (name ++ (ws' ++ '=' :: '>' :: r)).head?, isBlank c = false := by
      obtain ⟨d, ds, rfl⟩ := List.exists_cons_of_ne_nil hne
      intro c hc
      cases hc
      exact isBlank_of_isNameChar (hname d List.mem_cons_self)
    have hend : ∀ c ∈ (ws' ++ '=' :: '>' :: r).head?, isNameChar c = false := fun c hc =>
      (Ends.blanks hws' (r := '=' :: '>' :: r) (by intro d hd; cases hd; decide) c hc).1
    obtain ⟨htake, hdrop⟩ := takeWhile_run hname hend
    have harrow : token? ['=', '>'] (ws' ++ '=' :: '>' :: r) = some r :=
      (token?_eq_some_iff rfl).2 ⟨ws', hws', rfl⟩
    unfold Predicate.head?
    dsimp only
    rw [skipBlanks_append hws hstart, htake, hdrop, harrow, if_neg (by rwa [List.isEmpty_iff])]
    rfl

/-- The rest of a text that no expression goes on with: name characters, or an arrow. -/
def Stuck (s : List Char) : Prop :=
  ∃ c r, skipBlanks s = c :: r ∧ (isNameChar c = true ∨ c = '=' ∧ r.head? = some '>')

theorem stuck_append {u ws r : List Char} (hu : ∀ c ∈ u, isNameChar c = true) (hws : Blanks ws) :
    Stuck (u ++ (ws ++ '=' :: '>' :: r)) := by
  cases u with
  | nil =>
    exact ⟨'=', '>' :: r, skipBlanks_cons hws rfl, .inr ⟨rfl, rfl⟩⟩
  | cons c u =>
    have hc := hu c List.mem_cons_self
    refine ⟨c, u ++ (ws ++ '=' :: '>' :: r), ?_, .inl hc⟩
    exact skipBlanks_cons blanks_nil (isBlank_of_isNameChar hc)

theorem Stuck.token?_eq_none {s t : List Char} {c : Char} (h : Stuck s)
    (hc : isNameChar c = false ∧ c ≠ '=') : token? (c :: t) s = none := by
  obtain ⟨d, r, hs, hd⟩ := h
  apply Predicate.token?_eq_none
  intro d' hd'
  rw [hs] at hd'
  cases hd'
  rintro rfl
  rcases hd with hd | ⟨hd, -⟩
  · rw [hc.1] at hd
    cases hd
  · exact hc.2 hd

theorem Stuck.comparison?_eq_none {s : List Char} (h : Stuck s) : comparison? s = none := by
  obtain ⟨d, r, hs, hd⟩ := h
  apply Predicate.comparison?_eq_none
  intro c s' heq
  obtain ⟨d', t, hsymbol, -, hname, -, hequals⟩ := symbol_eq_cons c
  rw [hs, hsymbol, List.cons_append, List.cons.injEq] at heq
  obtain ⟨rfl, rfl⟩ := heq
  rcases hd with hd | ⟨rfl, hr⟩
  · rw [hname] at hd
    cases hd
  · rw [hequals rfl] at hr
    cases hr

/-- An operand at the front of a name and an arrow goes no further than the name. -/
theorem Stuck.of_readOperand {param? : Option (List Char)} {ws name ws' r s : List Char}
    {e : Expr} (hws : Blanks ws) (hname : IsName name) (hws' : Blanks ws')
    (h : Gives (readOperand param? (ws ++ (name ++ (ws' ++ '=' :: '>' :: r)))) e s) : Stuck s := by
  obtain ⟨hne, hname⟩ := hname
  obtain ⟨c, ds, rfl⟩ := List.exists_cons_of_ne_nil hne
  have hc := hname c List.mem_cons_self
  have hds : ∀ d ∈ ds, isNameChar d = true := fun d hd => hname d (List.mem_cons_of_mem _ hd)
  have hend : Ends (ws' ++ '=' :: '>' :: r) :=
    Ends.blanks hws' (by intro d hd; cases hd; decide)
  obtain ⟨htake, hdrop⟩ := takeWhile_run hds (isNameChar_of_ends hend)
  rw [List.cons_append, readOperand_gives_iff
    (skipBlanks_cons hws (isBlank_of_isNameChar hc))] at h
  split at h
  · next hgroup => rw [hgroup] at hc; exact absurd hc (by decide)
  split at h
  · next hquote => rcases hquote with rfl | rfl <;> exact absurd hc (by decide)
  split at h
  -- A number ends where its digits end, which may be inside the name.
  · obtain ⟨v, -, -, rfl⟩ := readNumber_gives_iff.1 h
    rw [List.dropWhile_append]
    split
    · have hnil : ∀ d ∈ ([] : List Char), isNumberChar d = true := by simp
      rw [← List.nil_append (ws' ++ '=' :: '>' :: r),
        (takeWhile_run hnil (isNumberChar_of_ends hend)).2]
      exact stuck_append (u := []) (by simp) hws'
    · exact stuck_append (fun d hd => hds d ((List.dropWhile_sublist _).subset hd)) hws'
  -- A word is the whole name, and neither a quote nor a point follows it.
  · obtain ⟨-, h⟩ := h
    rw [readWord_gives_iff, htake, hdrop, openingQuote?_eq_none fun d hd => (hend d hd).2.2,
      ite_self] at h
    split at h
    · rw [h.2]
      exact stuck_append (u := []) (by simp) hws'
    · obtain ⟨names, hread, -⟩ := h
      have hnil : ∀ n ∈ ([] : List (List Char)), IsName n := by simp
      have hnone : Gives (readNames (ws' ++ '=' :: '>' :: r)) [] (ws' ++ '=' :: '>' :: r) :=
        readNames_complete hnil fun d hd => ⟨(hend d hd).1, (hend d hd).2.1⟩
      rw [← (hnone.unique hread).2]
      exact stuck_append (u := []) (by simp) hws'

/-- An expression at the front of a name and an arrow leaves something else than blanks. -/
theorem Stuck.of_readOr {param? : Option (List Char)} {ws name ws' r s : List Char}
    {e : Expr} (hws : Blanks ws) (hname : IsName name) (hws' : Blanks ws')
    (h : Gives (readOr param? (ws ++ (name ++ (ws' ++ '=' :: '>' :: r)))) e s) : Stuck s := by
  obtain ⟨l, s₁, hl, hs⟩ := readOr_gives_iff.1 h
  obtain ⟨l, s₂, hl, hs'⟩ := readAnd_gives_iff.1 hl
  obtain ⟨l, s₃, hl, hs''⟩ := readComparison_gives_iff.1 hl
  -- No symbol is read off the rest of the operand, so all the parts around it leave the same rest.
  have hstuck := Stuck.of_readOperand hws hname hws' hl
  rw [hstuck.comparison?_eq_none] at hs''
  rw [← hs''.2, readAnds_gives_iff, hstuck.token?_eq_none (by decide)] at hs'
  rw [← hs'.2, readOrs_gives_iff, hstuck.token?_eq_none (by decide)] at hs
  rwa [← hs.2]

/-! ## Predicates -/

/-- The end of a text, at which only blanks may be left. -/
def endAll {cs : List Char} : Progress Expr cs → Except Stop Expr
  | .error stop => .error stop
  | .ok (e, ⟨r, _⟩) =>
    match skipBlanks r with
    | [] => .ok e
    | c :: r => .error ⟨.unexpected c, c :: r⟩

theorem endAll_eq_ok {cs : List Char} {x : Progress Expr cs} {e : Expr} :
    endAll x = .ok e ↔ ∃ s, Gives x e s ∧ Blanks s := by
  cases x with
  | error stop => simp [endAll]
  | ok x =>
    obtain ⟨e', s, hs⟩ := x
    simp only [endAll, gives_ok_iff, and_assoc, exists_and_left, exists_eq_left',
      ← skipBlanks_eq_nil_iff]
    split
    · next h => simp [h]
    · next h => simp [h]

/-- Behind its head a text is a disjunction and blanks. -/
theorem readAll_eq (param? : Option (List Char)) {cs body : List Char}
    (h : Predicate.head? cs = param?.map fun name => (name, body))
    (hplain : param? = none → cs = body) : readAll cs = endAll (readOr param? body) := by
  unfold readAll
  cases param? with
  | none =>
    obtain rfl := hplain rfl
    rw [h]
    rfl
  | some name =>
    rw [h]
    rfl

/-- A text is read if a disjunction is read behind its head and blanks are left. -/
theorem readAll_eq_ok (param? : Option (List Char)) {cs body : List Char} {e : Expr}
    (h : Predicate.head? cs = param?.map fun name => (name, body))
    (hplain : param? = none → cs = body) :
    readAll cs = .ok e ↔ ∃ s, Gives (readOr param? body) e s ∧ Blanks s := by
  rw [readAll_eq param? h hplain, endAll_eq_ok]

/-- What is read is the text of a predicate. -/
theorem isPredicate_of_readAll {cs : List Char} {e : Expr} (h : readAll cs = .ok e) :
    IsPredicate false cs e := by
  cases hhead : Predicate.head? cs with
  | none =>
    obtain ⟨s, hread, hs⟩ := (readAll_eq_ok none hhead fun _ => rfl).1 h
    obtain ⟨used, rfl, hused⟩ := isDisjunction_of_readOr hread
    exact .plain hused hs
  | some x =>
    obtain ⟨name, body⟩ := x
    obtain ⟨ws, ws', hws, hname, hws', rfl⟩ := head?_eq_some_iff.1 hhead
    obtain ⟨s, hread, hs⟩ := (readAll_eq_ok (some name) hhead nofun).1 h
    obtain ⟨used, rfl, hused⟩ := isDisjunction_of_readOr hread
    exact .headed hws hname hws' hused hs

theorem readOr_blanks {param? : Option (List Char)} {cs ws : List Char} {e : Expr}
    (hcs : IsDisjunction false param? cs e) (hws : Blanks ws) :
    Gives (readOr param? (cs ++ ws)) e ws :=
  disjunctionReads hcs (follows_blanks hws) (readOrs_stop (follows_blanks hws))

/-- The text of a disjunction is not taken for one with a head. -/
theorem head?_eq_none {cs ws : List Char} {e : Expr} (hcs : IsDisjunction false none cs e)
    (hws : Blanks ws) : Predicate.head? (cs ++ ws) = none := by
  cases hhead : Predicate.head? (cs ++ ws) with
  | none => rfl
  | some x =>
    obtain ⟨name, body⟩ := x
    obtain ⟨ws₁, ws₂, hws₁, hname, hws₂, heq⟩ := head?_eq_some_iff.1 hhead
    -- Otherwise the text would be read up to its last blanks and be stuck before them.
    have hread := readOr_blanks hcs hws
    rw [heq] at hread
    obtain ⟨c, r, hskip, -⟩ := Stuck.of_readOr hws₁ hname hws₂ hread
    rw [skipBlanks_of_blanks hws] at hskip
    cases hskip

/-- The text of a predicate is read. -/
theorem readAll_of_isPredicate {cs : List Char} {e : Expr} (h : IsPredicate false cs e) :
    readAll cs = .ok e := by
  cases h with
  | @plain cs ws _ hcs hws =>
    have hhead := head?_eq_none hcs hws
    exact (readAll_eq_ok none hhead fun _ => rfl).2 ⟨ws, readOr_blanks hcs hws, hws⟩
  | @headed ws name ws' cs ws'' _ hws hname hws' hcs hws'' =>
    have hhead : Predicate.head? (ws ++ (name ++ (ws' ++ '=' :: '>' :: (cs ++ ws'')))) =
        some (name, cs ++ ws'') := head?_eq_some_iff.2 ⟨ws, ws', hws, hname, hws', rfl⟩
    exact (readAll_eq_ok (some name) hhead nofun).2 ⟨ws'', readOr_blanks hcs hws'', hws''⟩

theorem read_eq_ok {cs : List Char} {e : Expr} : read cs = .ok e ↔ readAll cs = .ok e := by
  unfold read
  cases readAll cs with
  | error stop => simp
  | ok e' => simp

/-- The reader takes exactly the texts of the grammar, and to the expressions they derive. -/
theorem read_eq_ok_iff {cs : List Char} {e : Expr} : read cs = .ok e ↔ IsPredicate false cs e := by
  rw [read_eq_ok]
  constructor
  · exact isPredicate_of_readAll
  · exact readAll_of_isPredicate

/-- No operand starts with a point. -/
theorem not_readOperand_point {param? : Option (List Char)} {cs r : List Char} {e : Expr} :
    ¬ Gives (readOperand param? (' ' :: '.' :: cs)) e r := by
  rw [readOperand_gives_iff (c := '.') (s := cs) rfl, if_neg (by decide), if_neg (by decide),
    if_neg (by decide)]
  intro h
  exact absurd h.1 (by decide)

/-- If numbers may start with their points the grammar has texts that the reader refuses. -/
theorem read_dottedNumber :
    IsPredicate true "A == .5".toList
      (.compare .eq (.member "A") (.constant (.double ⟨0x3FE0000000000000⟩))) ∧
    ∀ e, read "A == .5".toList ≠ .ok e := by
  have hblank : Blanks [' '] := List.all_eq_true.1 rfl
  have hpath : IsPath [['A']] :=
    .names ⟨by decide, List.all_eq_true.1 rfl⟩ (fun _ hc => by cases hc; decide) (by decide)
      (by simp)
  constructor
  · have hleft : IsOperand true none ['A'] (.member "A") := .path blanks_nil hpath
    have hnumber : IsNumeral true ['.', '5'] :=
      ⟨⟨[], ['.', '5'], rfl, .inl rfl, List.all_eq_true.1 rfl⟩, nofun⟩
    have hright : IsOperand true none [' ', '.', '5'] (.constant (.double ⟨0x3FE0000000000000⟩)) :=
      .constant hblank (.double hnumber (by decide) (by decide +kernel))
    have hall : IsComparison true none "A == .5".toList
        (.compare .eq (.member "A") (.constant (.double ⟨0x3FE0000000000000⟩))) :=
      .compare (c := .eq) hleft hblank hright
    exact .plain (.conjunction (.comparison hall)) blanks_nil
  · intro e h
    have hhead : Predicate.head? "A == .5".toList =
        Option.map (fun name => (name, "A == .5".toList)) none := by decide
    rw [read_eq_ok, readAll_eq_ok none hhead fun _ => rfl] at h
    obtain ⟨s, hread, -⟩ := h
    obtain ⟨_, _, hread, -⟩ := readOr_gives_iff.1 hread
    obtain ⟨_, _, hread, -⟩ := readAnd_gives_iff.1 hread
    obtain ⟨_, _, hread, hmore⟩ := readComparison_gives_iff.1 hread
    -- The path is read, and after it the symbol, which leaves the number.
    have hleft : Gives (readOperand none "A == .5".toList) (.member "A") " == .5".toList :=
      readOperand_atom blanks_nil (.path hpath) fun _ hc => by cases hc; decide
    obtain ⟨rfl, rfl⟩ := hleft.unique hread
    obtain ⟨_, hsymbol⟩ := comparison?_complete (r := " .5".toList) .eq hblank (by decide)
    rw [show " == .5".toList = [' '] ++ (Comparison.eq.symbol.toList ++ " .5".toList) from rfl,
      hsymbol] at hmore
    obtain ⟨right, hread, -⟩ := hmore
    exact not_readOperand_point hread

end SearchDialect.Predicate
