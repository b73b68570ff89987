import SearchDialect.Proofs.Predicate.Offsets
import SearchDialect.Proofs.Predicate.Reading

/-!
# Positions of faults

The reader by offsets and the reader of characters go through a text side by side. The cursor stands
in the blanks in front of the rest that is still to be read (`Tracks`), and a step of the one ends
as the step of the other does (`Agrees`): with the same value in front of the same rest, or with the
same fault, whose position is the number of bytes before the rest where it lies. For tokens that is
so because the cursor only stands between two characters, so its slice is there and starts the rest;
for the steps inside a token because what they leave is an end of what they are given (`Within`).

A fault lies in the text, and one about a single character lies in front of that character
(`Placed`). Together these place every fault of a predicate (`read_positions`).
-/

namespace SearchDialect.Predicate

open Text
open Time (byteCount)

/-! ## Agreement of the two readers -/

/-- A cursor that stands in a text where a rest of it begins, or in the blanks before or behind. -/
structure Tracks (text : List Char) (k : Cursor) (cs : List Char) : Prop where
  isAt : IsAt text k
  rest : skipBlanks k.rest = skipBlanks cs

variable {α : Type} {P : List Char → Prop} {Q : Cursor → Prop} {text : List Char} {k : Cursor}
  {cs r : List Char} {a : α}

/-- A step succeeds with a value, and the cursor stands where a rest begins. -/
def Arrives (text : List Char) (x : Except Halt (α × { k : Cursor // Q k })) (a : α)
    (r : List Char) : Prop := ∃ k hk, x = .ok (a, ⟨k, hk⟩) ∧ Tracks text k r

/-- The fault of a step at the number of bytes that are before the rest where it lies. -/
def haltAt (text : List Char) (stop : Stop) : Halt :=
  .refused (.badSyntax (byteCount text - byteCount stop.rest) stop.fault)

/-- A fault that lies in a text, and at the character that it tells. -/
structure Placed (text : List Char) (stop : Stop) : Prop where
  suffix : stop.rest <:+ text
  head : ∀ c, stop.fault = .unexpected c → stop.rest.head? = some c

/-- A step of a cursor ends as a step on the characters does. -/
def Agrees (text : List Char) (x : Except Halt (α × { k : Cursor // Q k })) :
    Except Stop (α × { r : List Char // P r }) → Prop
  | .ok (a, r) => Arrives text x a r.1
  | .error stop => x = .error (haltAt text stop) ∧ Placed text stop

namespace Tracks

theorem skip (h : Tracks text k cs) : Tracks text k.skip cs := by
  refine ⟨h.isAt.skip, ?_⟩
  rw [Cursor.rest_skip, skipBlanks_skipBlanks, h.rest]

theorem rest_skip (h : Tracks text k cs) : k.skip.rest = skipBlanks cs := by
  rw [Cursor.rest_skip, h.rest]

/-- A token is looked for behind the blanks of the rest. -/
theorem slice?_skip (h : Tracks text k cs) :
    slice? text (k.skip.position text) = some (skipBlanks cs) := by
  rw [h.skip.isAt.slice?_eq, h.rest_skip]

end Tracks

/-- A fault at a cursor lies behind the bytes before it. -/
theorem fault_eq (h : IsAt text k) (f : SyntaxFault) :
    Halt.fault text k f = haltAt text ⟨f, k.rest⟩ := by
  rw [Halt.fault, haltAt, h.position_eq, h.offset_eq]

/-- A token that the characters start with is found by the cursor. -/
theorem take_arrives {t : List Char} (h : Tracks text k cs) (hr : token? t cs = some r) :
    Arrives text (take text t k) true r := by
  have hrest : skipBlanks cs = t ++ r := eq_append_of_afterWord? hr
  have hprefix : t.isPrefixOf (skipBlanks cs) = true :=
    List.isPrefixOf_iff_prefix.2 ⟨r, hrest.symm⟩
  rw [take, h.slice?_skip]
  dsimp only
  rw [if_pos hprefix]
  refine ⟨_, _, rfl, h.skip.isAt.advance _, ?_⟩
  rw [Cursor.rest_advance, h.rest_skip, hrest, List.drop_left]

/-- Without the token the cursor passes the blanks only. -/
theorem take_eq_false {t : List Char} (h : Tracks text k cs) (hnone : token? t cs = none) :
    take text t k = .ok (false, ⟨k.skip, k.length_skip_le⟩) := by
  have hprefix : ¬ t.isPrefixOf (skipBlanks cs) = true := by
    rw [List.isPrefixOf_iff_prefix]
    exact afterWord?_eq_none_iff.1 hnone
  rw [take, h.slice?_skip]
  dsimp only
  rw [if_neg hprefix]

/-- The first of some symbols that the characters start with, and what is left after it. -/
def findSymbol (cs : List Char) (symbols : List Comparison) : Option (Comparison × List Char) :=
  symbols.findSome? fun c => (token? c.symbol.toList cs).map fun r => (c, r)

/-- The cursor finds the same symbol. Where there is none it only passes blanks. -/
theorem takeSymbol_arrives (h : Tracks text k cs) (symbols : List Comparison) :
    Arrives text (takeSymbol text k symbols) ((findSymbol cs symbols).map Prod.fst)
      (((findSymbol cs symbols).map Prod.snd).getD cs) := by
  induction symbols generalizing k with
  | nil => exact ⟨k, _, rfl, h⟩
  | cons c symbols ih =>
    rw [findSymbol, List.findSome?_cons, takeSymbol]
    cases htoken : token? c.symbol.toList cs with
    | some r =>
      obtain ⟨k', hk', htake, htracks⟩ := take_arrives h htoken
      rw [htake]
      exact ⟨k', hk', rfl, htracks⟩
    | none =>
      obtain ⟨k', hk', hsymbol, htracks⟩ := ih h.skip
      rw [take_eq_false h htoken]
      dsimp only
      rw [hsymbol]
      exact ⟨k', _, rfl, htracks⟩

/-! ## Steps on characters -/

/-- A step on characters leaves a rest of a text, or its fault lies in the text and is none about a
single character. -/
def Within (text : List Char) : Except Stop (α × { r : List Char // P r }) → Prop
  | .ok (_, r) => r.1 <:+ text
  | .error stop => stop.rest <:+ text ∧ ∀ c, stop.fault ≠ .unexpected c

theorem dropWhile_suffix_cons (p : Char → Bool) (c : Char) (cs : List Char) :
    cs.dropWhile p <:+ c :: cs :=
  (List.dropWhile_suffix p).trans (List.suffix_cons c cs)

theorem readQuoted_within {opening cs : List Char} (quote : Char) (hopening : opening <:+ text)
    (hcs : cs <:+ text) : Within text (readQuoted opening quote cs) := by
  fun_induction readQuoted opening quote cs with
  | case1 => exact ⟨hopening, fun _ hc => by cases hc⟩
  | case2 cs => exact (List.suffix_cons _ cs).trans hcs
  | case3 => exact ⟨hcs, fun _ hc => by cases hc⟩
  | case4 d ds e hread _ ih =>
    have hds := ih ((List.suffix_cons _ _).trans ((List.suffix_cons _ _).trans hcs))
    rw [hread] at hds
    exact hds
  | case5 d ds s r hr hread _ ih =>
    have hds := ih ((List.suffix_cons _ _).trans ((List.suffix_cons _ _).trans hcs))
    rw [hread] at hds
    exact hds
  | case6 c cs hc hb e hread ih =>
    have hrest := ih ((List.suffix_cons _ _).trans hcs)
    rw [hread] at hrest
    exact hrest
  | case7 c cs hc hb s r hr hread ih =>
    have hrest := ih ((List.suffix_cons _ _).trans hcs)
    rw [hread] at hrest
    exact hrest

theorem readNumber_within (c : Char) (cs : List Char) : Within (c :: cs) (readNumber c cs) := by
  rw [readNumber]
  split
  · exact ⟨List.suffix_refl _, fun _ hc => by cases hc⟩
  · exact dropWhile_suffix_cons _ c cs

theorem readNames_within (hcs : cs <:+ text) : Within text (readNames cs) := by
  fun_induction readNames cs with
  | case1 => exact hcs
  | case2 r name hname => exact ⟨(List.suffix_cons _ r).trans hcs, fun _ hc => by cases hc⟩
  | case3 r name hname hlt e hread ih =>
    have hrest := ih ((dropWhile_suffix_cons _ _ r).trans hcs)
    rw [hread] at hrest
    exact hrest
  | case4 r name hname hlt more s hs hread ih =>
    have hrest := ih ((dropWhile_suffix_cons _ _ r).trans hcs)
    rw [hread] at hrest
    exact hrest
  | case5 c cs hc => exact hcs

theorem readTime_within {word quoted : List Char} (quote : Char) (hword : word <:+ text)
    (hquoted : quoted <:+ text) (hcs : cs <:+ text) :
    Within text (readTime word quoted quote cs) := by
  have hread := readQuoted_within quote hquoted hcs
  rw [readTime]
  split
  · next h =>
    rw [h] at hread
    exact hread
  · next s r h =>
    rw [h] at hread
    split
    · exact ⟨hword, fun _ hc => by cases hc⟩
    · exact hread

theorem readWord_within (parameter? : Option (List Char)) (c : Char) (cs : List Char) :
    Within (c :: cs) (readWord parameter? c cs) := by
  have hrest := dropWhile_suffix_cons isNameChar c cs
  rw [readWord]
  dsimp only
  split
  · exact hrest
  split
  · next quote r hr =>
    have hquote : openingQuote? (cs.dropWhile isNameChar) = some (quote, r) := by
      split at hr
      · exact hr
      · cases hr
    have hsuffix : r <:+ c :: cs := by
      rw [(openingQuote?_eq_some_iff.1 hquote).2] at hrest
      exact (List.suffix_cons _ r).trans hrest
    have htime := readTime_within quote (List.suffix_refl (c :: cs)) hrest hsuffix
    split
    · next h =>
      rw [h] at htime
      exact htime
    · next h =>
      rw [h] at htime
      exact htime
  · have hnames := readNames_within hrest
    split
    · next h =>
      rw [h] at hnames
      exact hnames
    · next h =>
      rw [h] at hnames
      exact hnames

/-- The cursor passes what a step on characters takes. -/
theorem past_agrees (h : IsAt text k) (hP : ∀ r, P r → r.length < k.rest.length)
    {x : Except Stop (α × { r : List Char // P r })} (hx : Within k.rest x) :
    Agrees text (past text k hP x) x := by
  have hdrop {r : List Char} (hr : r <:+ k.rest) :
      (k.advance (k.rest.length - r.length)).rest = r := by
    rw [Cursor.rest_advance]
    exact (List.suffix_iff_eq_drop.1 hr).symm
  cases x with
  | error stop =>
    obtain ⟨hsuffix, hfault⟩ := hx
    refine ⟨?_, hsuffix.trans h.suffix, fun c hc => absurd hc (hfault c)⟩
    rw [past, fault_eq (h.advance _), hdrop hsuffix]
  | ok x =>
    obtain ⟨a, r, hr⟩ := x
    refine ⟨_, _, rfl, h.advance _, ?_⟩
    rw [hdrop hx]

/-! ## Expressions -/

/-- Steps that agree both fail, or both give a value and go on at the same place. -/
theorem Agrees.cases {x : Except Halt (α × { k : Cursor // Q k })}
    {y : Except Stop (α × { r : List Char // P r })} (h : Agrees text x y) :
    (∃ stop, x = .error (haltAt text stop) ∧ y = .error stop ∧ Placed text stop) ∨
      ∃ a k hk r hr, x = .ok (a, ⟨k, hk⟩) ∧ y = .ok (a, ⟨r, hr⟩) ∧ Tracks text k r := by
  cases y with
  | error stop => exact .inl ⟨stop, h.1, rfl, h.2⟩
  | ok y =>
    obtain ⟨a, r, hr⟩ := y
    obtain ⟨k, hk, hx, htracks⟩ := h
    exact .inr ⟨a, k, hk, r, hr, hx, rfl, htracks⟩

theorem Tracks.agrees_ok {hk : Q k} {hr : P r} (h : Tracks text k r) :
    Agrees text (.ok (a, ⟨k, hk⟩)) (.ok (a, ⟨r, hr⟩)) :=
  ⟨k, hk, rfl, h⟩

variable {head? : Option (List Char)} {n : Nat}

/-- In front of less than some number of characters, disjunctions are read alike. -/
def AgreesBelow (text : List Char) (head? : Option (List Char)) (n : Nat) : Prop :=
  ∀ ⦃k : Cursor⦄ ⦃cs : List Char⦄, Tracks text k cs → k.rest.length < n →
    Agrees text (orAt text head? k) (readOr head? cs)

/-- An operand is read alike if the groups in it are. -/
theorem operandAt_agrees (hn : AgreesBelow text head? n) (h : Tracks text k cs)
    (hk : k.rest.length ≤ n) : Agrees text (operandAt text head? k) (readOperand head? cs) := by
  have hskip := h.skip.isAt
  have hlength := k.length_skip_le
  rw [readOperand]
  split
  · next hcs =>
    have hrest : k.skip.rest = [] := by rw [h.rest_skip, hcs]
    rw [operandAt]
    split
    · rw [fault_eq hskip, hrest]
      exact ⟨rfl, List.nil_suffix, fun _ hc => by cases hc⟩
    · next h' =>
      rw [hrest] at h'
      cases h'
  · next c r hcs =>
    have hrest : k.skip.rest = c :: r := by rw [h.rest_skip, hcs]
    rw [operandAt]
    split
    · next h' =>
      rw [hrest] at h'
      cases h'
    next c' r' h' =>
    obtain ⟨rfl, rfl⟩ := List.cons.inj (hrest.symm.trans h')
    dsimp only
    by_cases hgroup : c = '('
    -- A group, and the parenthesis that closes it.
    · rw [if_pos hgroup, if_pos hgroup]
      have hnext : k.skip.next.rest = r := by rw [Cursor.next, hrest]
      have hbelow : k.skip.next.rest.length < n := by
        rw [hnext]
        rw [hrest, List.length_cons] at hlength
        omega
      rcases (hn ⟨hskip.next, by rw [hnext]⟩ hbelow).cases with
        ⟨stop, hx, hy, hplaced⟩ | ⟨e, k', hk', r', hr', hx, hy, htracks⟩ <;> rw [hx, hy]
      · exact ⟨rfl, hplaced⟩
      · dsimp only
        rcases Option.eq_none_or_eq_some (token? [')'] r') with hclose | ⟨s, hclose⟩
        · rw [take_eq_false htracks hclose]
          dsimp only
          split
          · rw [fault_eq htracks.skip.isAt, ← htracks.rest_skip]
            exact ⟨rfl, htracks.skip.isAt.suffix, fun _ hc => by cases hc⟩
          · next hsome => cases hclose.symm.trans hsome
        · obtain ⟨k'', hk'', htake, htracks'⟩ := take_arrives htracks hclose
          rw [htake]
          dsimp only
          split
          · next hnone => cases hclose.symm.trans hnone
          · next s' hs =>
            cases hclose.symm.trans hs
            exact htracks'.agrees_ok
    rw [if_neg hgroup, if_neg hgroup]
    by_cases hquote : c = '\'' ∨ c = '"'
    · rw [if_pos hquote, if_pos hquote]
      have hread : Within k.skip.rest (readQuoted (c :: r) c r) := by
        rw [hrest]
        exact readQuoted_within c (List.suffix_refl _) (List.suffix_cons c r)
      rcases (past_agrees hskip (Cursor.lt_skip_of_le hrest) hread).cases
        with ⟨stop, hx, hy, hplaced⟩ | ⟨s, k', hk', r', hr', hx, hy, htracks⟩ <;> rw [hx, hy]
      · exact ⟨rfl, hplaced⟩
      · exact htracks.agrees_ok
    rw [if_neg hquote, if_neg hquote]
    by_cases hnumber : c = '-' ∨ c.isDigit = true
    · rw [if_pos hnumber, if_pos hnumber]
      have hread : Within k.skip.rest (readNumber c r) := by
        rw [hrest]
        exact readNumber_within c r
      rcases (past_agrees hskip (Cursor.lt_skip_of_lt hrest) hread).cases
        with ⟨stop, hx, hy, hplaced⟩ | ⟨e, k', hk', r', hr', hx, hy, htracks⟩ <;> rw [hx, hy]
      · exact ⟨rfl, hplaced⟩
      · exact htracks.agrees_ok
    rw [if_neg hnumber, if_neg hnumber]
    by_cases hword : isNameStart c = true
    · rw [if_pos hword, if_pos hword]
      have hread : Within k.skip.rest (readWord head? c r) := by
        rw [hrest]
        exact readWord_within head? c r
      rcases (past_agrees hskip (Cursor.lt_skip_of_lt hrest) hread).cases
        with ⟨stop, hx, hy, hplaced⟩ | ⟨e, k', hk', r', hr', hx, hy, htracks⟩ <;> rw [hx, hy]
      · exact ⟨rfl, hplaced⟩
      · exact htracks.agrees_ok
    rw [if_neg hword, if_neg hword]
    -- No operand starts here.
    rw [fault_eq hskip, ← hrest]
    exact ⟨rfl, hskip.suffix, fun d hd => by cases hd; rw [hrest]; rfl⟩

theorem comparisonAt_agrees (hn : AgreesBelow text head? n) (h : Tracks text k cs)
    (hk : k.rest.length ≤ n) :
    Agrees text (comparisonAt text head? k) (readComparison head? cs) := by
  rw [readComparison, comparisonAt]
  rcases (operandAt_agrees hn h hk).cases with
    ⟨stop, hx, hy, hplaced⟩ | ⟨left, k', hk', r, hr, hx, hy, htracks⟩ <;> rw [hx, hy]
  · exact ⟨rfl, hplaced⟩
  dsimp only
  have hsymbol := takeSymbol_arrives htracks [.eq, .ne, .ge, .le, .gt, .lt]
  have hfirst : findSymbol r [.eq, .ne, .ge, .le, .gt, .lt] =
      (comparison? r).map fun x => (x.1, x.2.1) := (comparison?_eq r).symm
  rw [hfirst] at hsymbol
  cases hfound : comparison? r with
  | none =>
    rw [hfound] at hsymbol
    obtain ⟨k'', hk'', htake, htracks'⟩ : Arrives text _ none r := hsymbol
    rw [htake]
    exact htracks'.agrees_ok
  | some found =>
    obtain ⟨c, s, hs⟩ := found
    rw [hfound] at hsymbol
    obtain ⟨k'', hk'', htake, htracks'⟩ : Arrives text _ (some c) s := hsymbol
    rw [htake]
    dsimp only
    rcases (operandAt_agrees hn htracks' (by omega)).cases with
      ⟨stop, hx, hy, hplaced⟩ | ⟨right, k₃, hk₃, r', hr', hx, hy, htracks''⟩ <;> rw [hx, hy]
    · exact ⟨rfl, hplaced⟩
    · exact htracks''.agrees_ok

/-- A conjunction goes on alike: with the same parts, up to the same place. -/
theorem andsAt_agrees (hn : AgreesBelow text head? n) (left : Expr) {k : Cursor}
    {cs : List Char} (h : Tracks text k cs) (hk : k.rest.length ≤ n) :
    Agrees text (andsAt text head? left k) (readAnds head? left cs) := by
  rw [readAnds]
  split
  · next htoken =>
    rw [andsAt, take_eq_false h htoken]
    exact h.skip.agrees_ok
  next s htoken =>
  obtain ⟨k', hk', htake, htracks⟩ := take_arrives h htoken
  rw [andsAt, htake]
  dsimp only
  rcases (comparisonAt_agrees hn htracks (Nat.le_trans hk' hk)).cases with
    ⟨stop, hx, hy, hplaced⟩ | ⟨right, k'', hk'', r, hr, hx, hy, htracks'⟩ <;> rw [hx, hy]
  · exact ⟨rfl, hplaced⟩
  dsimp only
  rcases (andsAt_agrees hn (.logical .and left right) htracks' (by omega)).cases with
    ⟨stop, hx, hy, hplaced⟩ | ⟨e, k₃, hk₃, r', hr', hx, hy, htracks''⟩ <;> rw [hx, hy]
  · exact ⟨rfl, hplaced⟩
  · exact htracks''.agrees_ok
termination_by k.rest.length

theorem andAt_agrees (hn : AgreesBelow text head? n) (h : Tracks text k cs)
    (hk : k.rest.length ≤ n) : Agrees text (andAt text head? k) (readAnd head? cs) := by
  rw [readAnd, andAt]
  rcases (comparisonAt_agrees hn h hk).cases with
    ⟨stop, hx, hy, hplaced⟩ | ⟨left, k', hk', r, hr, hx, hy, htracks⟩ <;> rw [hx, hy]
  · exact ⟨rfl, hplaced⟩
  dsimp only
  rcases (andsAt_agrees hn left htracks (by omega)).cases with
    ⟨stop, hx, hy, hplaced⟩ | ⟨e, k'', hk'', r', hr', hx, hy, htracks'⟩ <;> rw [hx, hy]
  · exact ⟨rfl, hplaced⟩
  · exact htracks'.agrees_ok

/-- A disjunction goes on alike: with the same parts, up to the same place. -/
theorem orsAt_agrees (hn : AgreesBelow text head? n) (left : Expr) {k : Cursor}
    {cs : List Char} (h : Tracks text k cs) (hk : k.rest.length ≤ n) :
    Agrees text (orsAt text head? left k) (readOrs head? left cs) := by
  rw [readOrs]
  split
  · next htoken =>
    rw [orsAt, take_eq_false h htoken]
    exact h.skip.agrees_ok
  next s htoken =>
  obtain ⟨k', hk', htake, htracks⟩ := take_arrives h htoken
  rw [orsAt, htake]
  dsimp only
  rcases (andAt_agrees hn htracks (Nat.le_trans hk' hk)).cases with
    ⟨stop, hx, hy, hplaced⟩ | ⟨right, k'', hk'', r, hr, hx, hy, htracks'⟩ <;> rw [hx, hy]
  · exact ⟨rfl, hplaced⟩
  dsimp only
  rcases (orsAt_agrees hn (.logical .or left right) htracks' (by omega)).cases with
    ⟨stop, hx, hy, hplaced⟩ | ⟨e, k₃, hk₃, r', hr', hx, hy, htracks''⟩ <;> rw [hx, hy]
  · exact ⟨rfl, hplaced⟩
  · exact htracks''.agrees_ok
termination_by k.rest.length

/-- One group deeper. -/
theorem AgreesBelow.succ (hn : AgreesBelow text head? n) : AgreesBelow text head? (n + 1) := by
  intro k cs h hk
  have hk := Nat.le_of_lt_succ hk
  rw [readOr, orAt]
  rcases (andAt_agrees hn h hk).cases with
    ⟨stop, hx, hy, hplaced⟩ | ⟨left, k', hk', r, hr, hx, hy, htracks⟩ <;> rw [hx, hy]
  · exact ⟨rfl, hplaced⟩
  dsimp only
  rcases (orsAt_agrees hn left htracks (by omega)).cases with
    ⟨stop, hx, hy, hplaced⟩ | ⟨e, k'', hk'', r', hr', hx, hy, htracks'⟩ <;> rw [hx, hy]
  · exact ⟨rfl, hplaced⟩
  · exact htracks'.agrees_ok

theorem agreesBelow (text : List Char) (head? : Option (List Char)) (n : Nat) :
    AgreesBelow text head? n := by
  induction n with
  | zero => exact fun k cs _ hk => absurd hk (Nat.not_lt_zero _)
  | succ n ih => exact ih.succ

theorem orAt_agrees (head? : Option (List Char)) (h : Tracks text k cs) :
    Agrees text (orAt text head? k) (readOr head? cs) :=
  agreesBelow text head? _ h (Nat.lt_succ_self _)

/-! ## Heads -/

/-- The text has a slice behind the name that it may start with. -/
theorem slice?_name (cs : List Char) :
    slice? cs (byteCount (cs.takeWhile isNameChar)) = some (cs.dropWhile isNameChar) :=
  slice?_eq_some_iff.2 ⟨_, List.takeWhile_append_dropWhile.symm, rfl⟩

/-- Behind a head the cursor stands behind its arrow. -/
theorem headAt_eq_some {name : List Char} (h : Predicate.head? text = some (name, r)) :
    ∃ k, headAt text = .ok (some name, k) ∧ Tracks text k r := by
  unfold Predicate.head? at h
  dsimp only at h
  split at h
  · cases h
  next hne =>
  obtain ⟨s, hs, heq⟩ := Option.map_eq_some_iff.1 h
  obtain ⟨rfl, rfl⟩ := Prod.mk.inj heq
  have hafter : skipBlanks ((skipBlanks text).dropWhile isNameChar) = ['=', '>'] ++ s :=
    eq_append_of_afterWord? hs
  obtain ⟨before, htext⟩ : ['=', '>'] ++ s <:+ text := by
    rw [← hafter]
    exact ((List.dropWhile_suffix _).trans (List.dropWhile_suffix _)).trans
      (List.dropWhile_suffix _)
  have htext' : text = before ++ ['=', '>'] ++ s := by rw [List.append_assoc, htext]
  have hmoved : Cursor.upTo (byteCount text - byteCount (['=', '>'] ++ s) + 2) 0 text =
      ⟨byteCount (before ++ ['=', '>']), s⟩ := by
    have hoffset : byteCount text - byteCount (['=', '>'] ++ s) + 2 =
        0 + byteCount (before ++ ['=', '>']) := by
      have harrow : byteCount ['=', '>'] = 2 := rfl
      rw [← htext, byteCount_append, byteCount_append, byteCount_append, harrow]
      omega
    rw [hoffset, htext', upTo_append, Nat.zero_add]
  refine ⟨⟨byteCount (before ++ ['=', '>']), s⟩, ?_, ⟨before ++ ['=', '>'], htext', rfl⟩, rfl⟩
  rw [headAt]
  dsimp only
  rw [if_neg hne, slice?_name]
  dsimp only
  rw [hafter, if_pos (List.isPrefixOf_iff_prefix.2 ⟨s, rfl⟩), hmoved]

/-- Without a head the cursor stays in front of the text. -/
theorem headAt_eq_none (h : Predicate.head? text = none) : headAt text = .ok (none, ⟨0, text⟩) := by
  rw [Predicate.head?] at h
  rw [headAt]
  dsimp only at h ⊢
  split
  · rfl
  next hne =>
  rw [if_neg hne, Option.map_eq_none_iff] at h
  rw [slice?_name]
  dsimp only
  rw [if_neg]
  rw [List.isPrefixOf_iff_prefix]
  exact afterWord?_eq_none_iff.1 h

/-! ## Whole texts -/

/-- Reading by offsets ends as reading the characters does. -/
def Concludes (text : List Char) (x : Except Halt Expr) : Except Stop Expr → Prop
  | .ok e => x = .ok e
  | .error stop => x = .error (haltAt text stop) ∧ Placed text stop

theorem readFrom_concludes (head? : Option (List Char)) (h : Tracks text k cs) :
    Concludes text (readFrom text head? k) (endAll (readOr head? cs)) := by
  rw [readFrom]
  rcases (orAt_agrees head? h).cases with
    ⟨stop, hx, hy, hplaced⟩ | ⟨e, k', hk', r, hr, hx, hy, htracks⟩ <;> rw [hx, hy]
  · exact ⟨rfl, hplaced⟩
  rw [endAll]
  dsimp only
  cases hrest : k'.skip.rest with
  | nil =>
    rw [← htracks.rest_skip, hrest]
    exact rfl
  | cons c s =>
    rw [← htracks.rest_skip, hrest]
    dsimp only
    rw [fault_eq htracks.skip.isAt, ← hrest]
    exact ⟨rfl, htracks.skip.isAt.suffix, fun d hd => by cases hd; rw [hrest]; rfl⟩

theorem readByOffsets_concludes (text : List Char) :
    Concludes text (readByOffsets text) (readAll text) := by
  rw [readByOffsets]
  cases h : Predicate.head? text with
  | none =>
    rw [headAt_eq_none h, readAll_eq none h fun _ => rfl]
    exact readFrom_concludes none ⟨.start text, rfl⟩
  | some found =>
    obtain ⟨name, body⟩ := found
    obtain ⟨k, hhead, htracks⟩ := headAt_eq_some h
    rw [hhead, readAll_eq (some name) h nofun]
    exact readFrom_concludes (some name) htracks

theorem take_toList_append (a b : String) {n : Nat} (h : n ≤ a.toList.length) :
    (a ++ b).toList.take n = a.toList.take n := by
  rw [String.toList_append, List.take_append_of_le_length h]

/-- Only a character that is not due is reported as one. -/
theorem eq_unexpected_of_message {f : SyntaxFault} {c : Char}
    (h : f.message = "unexpected '" ++ String.singleton c ++ "'") : f = .unexpected c := by
  -- Up to the quote no other message is the same.
  have hstart : f.message.toList.take 12 = "unexpected '".toList.take 12 := by
    rw [h, String.append_assoc, take_toList_append _ _ (by decide)]
  cases f with
  | unexpected d =>
    change "unexpected '" ++ String.singleton d ++ "'" = _ at h
    simp only [String.ext_iff, String.toList_append, String.toList_singleton] at h
    rw [List.singleton_inj.1 (List.append_cancel_left (List.append_cancel_right h))]
  | badNumber text =>
    change ("invalid number '" ++ text ++ "'").toList.take 12 = _ at hstart
    rw [String.append_assoc, take_toList_append _ _ (by decide)] at hstart
    exact absurd hstart (by decide)
  | badTime text fault =>
    change ("invalid date-time '" ++ text ++ "': " ++ fault.message).toList.take 12 = _ at hstart
    rw [String.append_assoc, String.append_assoc, take_toList_append _ _ (by decide)] at hstart
    exact absurd hstart (by decide)
  | unexpectedEnd | unclosed | noMemberName | unterminatedText | unterminatedEscape =>
    exact absurd hstart (by decide)

/-- A character of a text starts at an offset in bytes. -/
def StandsAt (text : List Char) (offset : Nat) (c : Char) : Prop :=
  ∃ before after, text = before ++ c :: after ∧ byteCount before = offset

theorem standsAt_of_head? {stop : Stop} {c : Char} (hsuffix : stop.rest <:+ text)
    (hc : stop.rest.head? = some c) :
    StandsAt text (byteCount text - byteCount stop.rest) c := by
  obtain ⟨before, rfl⟩ := hsuffix
  obtain ⟨after, hrest⟩ := List.head?_eq_some_iff.1 hc
  refine ⟨before, after, by rw [hrest], ?_⟩
  rw [byteCount_append]
  omega

/-- Every text is a predicate or has a fault that lies in it: at the start of one of its characters
or at its end. A character that is reported is the one at the place of the fault. Reading the text
by offsets ends the same way; in particular every slice that a token is looked for in starts between
two characters. -/
theorem read_positions (cs : List Char) :
    ((∃ e, read cs = .ok e) ∨
      ∃ position fault, read cs = .error (.badSyntax position fault) ∧
        ((∃ c, StandsAt cs position c) ∨ position = byteCount cs) ∧
        ∀ c, fault.message = "unexpected '" ++ String.singleton c ++ "'" →
          StandsAt cs position c) ∧
      readByOffsets cs = (read cs).mapError .refused ∧
      ∀ offset, readByOffsets cs ≠ .error (.noSlice offset) := by
  have hagrees := readByOffsets_concludes cs
  rw [read]
  cases hread : readAll cs with
  | ok e =>
    rw [hread] at hagrees
    refine ⟨.inl ⟨e, rfl⟩, hagrees, ?_⟩
    rw [hagrees]
    exact nofun
  | error stop =>
    rw [hread] at hagrees
    obtain ⟨heq, hplaced⟩ := hagrees
    refine ⟨.inr ⟨_, stop.fault, rfl, ?_, ?_⟩, heq, ?_⟩
    · cases hrest : stop.rest with
      | nil => exact .inr rfl
      | cons c r =>
        rw [← hrest]
        exact .inl ⟨c, standsAt_of_head? hplaced.suffix (by rw [hrest]; rfl)⟩
    · intro c hc
      exact standsAt_of_head? hplaced.suffix (hplaced.head c (eq_unexpected_of_message hc))
    · rw [heq]
      exact nofun

end SearchDialect.Predicate
