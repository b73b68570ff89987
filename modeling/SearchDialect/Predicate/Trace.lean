import SearchDialect.Predicate.Cursor

/-!
# What the reader of predicates does

The procedures that the reader by offsets calls and the turns of its loops, in their order, each
with the rest of the text at which it starts. The trace of a procedure is its own call and the
traces of what it calls, as far as it comes: where a step fails, nothing follows.

A turn is told with what is left when the loop has made sure to go on. The end of the text and a
character or token that a loop does not take end the loop and are no turn.
-/

namespace SearchDialect.Predicate

open Text

/-- A procedure of the reader. -/
inductive Procedure where
  | predicate
  /-- Looks for a name and an arrow in front. -/
  | head
  | disjunction
  | conjunction
  | comparison
  | operand
  | word
  | name
  | quoted
  | number
  /-- Looks for a token behind blanks. -/
  | token
  | blanks
  /-- Tells the offset of the cursor. -/
  | position
deriving DecidableEq, Repr

/-- A loop of the reader. -/
inductive Loop where
  /-- Over the further parts of a disjunction. -/
  | disjuncts
  /-- Over the further parts of a conjunction. -/
  | conjuncts
  /-- Over the further names of a path. -/
  | names
  | nameChars
  | quotedChars
  | numberChars
  /-- Over the characters of a token that was found. -/
  | tokenChars
  /-- Up to the end of a head that was found. -/
  | headChars
  | blanks
deriving DecidableEq, Repr

/-- A step of the reader. -/
inductive Step where
  /-- A procedure starts in front of a rest of the text. -/
  | call (procedure : Procedure) (rest : List Char)
  /-- A loop goes on. -/
  | turn (loop : Loop) (before after : List Char)
deriving DecidableEq, Repr

/-! ## Characters -/

/-- A loop over the characters that have a property. -/
def turnsWhile (loop : Loop) (p : Char → Bool) : List Char → List Step
  | [] => []
  | c :: cs => if p c then .turn loop (c :: cs) cs :: turnsWhile loop p cs else []

/-- A loop over a number of characters. -/
def turnsFor (loop : Loop) : Nat → List Char → List Step
  | 0, _ => []
  | n + 1, cs => .turn loop cs cs.tail :: turnsFor loop n cs.tail

def blankTrace (cs : List Char) : List Step :=
  .call .blanks cs :: turnsWhile .blanks isBlank cs

def nameTrace (cs : List Char) : List Step :=
  .call .name cs :: turnsWhile .nameChars isNameChar cs

/-- The loop over a text behind its opening quote. A backslash is taken with the next character. -/
def quotedTurns (quote : Char) : List Char → List Step
  | [] => []
  | c :: cs =>
    if c = quote then [.turn .quotedChars (c :: cs) cs]
    else if c = '\\' then
      match cs with
      | [] => [.turn .quotedChars [c] []]
      | d :: ds => .turn .quotedChars (c :: d :: ds) ds :: quotedTurns quote ds
    else .turn .quotedChars (c :: cs) cs :: quotedTurns quote cs

def quotedTrace (quote : Char) (cs : List Char) : List Step :=
  .call .quoted (quote :: cs) :: quotedTurns quote cs

/-- The sign of a number is taken before the loop. -/
def numberTrace (c : Char) (cs : List Char) : List Step :=
  .call .number (c :: cs) :: .call .position (c :: cs) ::
    turnsWhile .numberChars isNumberChar (if c = '-' then cs else c :: cs)

/-- The loop over the further names of a path. -/
def namesTrace (cs : List Char) : List Step :=
  match cs with
  | [] => []
  | c :: r =>
    if c = '.' then
      have := length_dropWhile_le isNameChar r
      .turn .names (c :: r) r :: .call .position r :: (nameTrace r ++
        if (r.takeWhile isNameChar).isEmpty then [] else namesTrace (r.dropWhile isNameChar))
    else []
termination_by cs.length
decreasing_by
  simp only [List.length_cons]
  omega

def wordTrace (c : Char) (cs : List Char) : List Step :=
  let name := c :: cs.takeWhile isNameChar
  let rest := cs.dropWhile isNameChar
  .call .word (c :: cs) :: .call .position (c :: cs) :: (nameTrace (c :: cs) ++
    match keyword? name with
    | some _ => []
    | none =>
      match if name = ['d', 't'] then openingQuote? rest else none with
      | some (quote, r) => quotedTrace quote r
      | none => namesTrace rest)

/-! ## Tokens -/

def takeTrace (text token : List Char) (k : Cursor) : List Step :=
  .call .token k.rest :: (blankTrace k.rest ++ .call .position k.skip.rest ::
    match take text token k with
    | .ok (true, _) => turnsFor .tokenChars token.length k.skip.rest
    | _ => [])

/-- The symbols are looked for one after the other, until one is found. -/
def takeSymbolTrace (text : List Char) (k : Cursor) : List Comparison → List Step
  | [] => []
  | c :: cs =>
    takeTrace text c.symbol.toList k ++
      match take text c.symbol.toList k with
      | .ok (false, k') => takeSymbolTrace text k' cs
      | _ => []

/-! ## Expressions -/

mutual

def orTrace (text : List Char) (parameter? : Option (List Char)) (k : Cursor) : List Step :=
  .call .disjunction k.rest :: (andTrace text parameter? k ++
    match andAt text parameter? k with
    | .error _ => []
    | .ok (_, ⟨k', _⟩) => orsTrace text parameter? k')
termination_by (k.rest.length, 4)

/-- The loop over the further parts of a disjunction. -/
def orsTrace (text : List Char) (parameter? : Option (List Char)) (k : Cursor) : List Step :=
  takeTrace text ['|', '|'] k ++
    match take text ['|', '|'] k with
    | .ok (true, ⟨k', _⟩) =>
      .turn .disjuncts k.rest k'.rest :: (andTrace text parameter? k' ++
        match andAt text parameter? k' with
        | .error _ => []
        | .ok (_, ⟨k'', _⟩) => orsTrace text parameter? k'')
    | _ => []
termination_by (k.rest.length, 5)
decreasing_by
  · exact Prod.Lex.right' _ (by assumption) (by decide)
  · exact Prod.Lex.left _ _ (by omega)

def andTrace (text : List Char) (parameter? : Option (List Char)) (k : Cursor) : List Step :=
  .call .conjunction k.rest :: (comparisonTrace text parameter? k ++
    match comparisonAt text parameter? k with
    | .error _ => []
    | .ok (_, ⟨k', _⟩) => andsTrace text parameter? k')
termination_by (k.rest.length, 2)

/-- The loop over the further parts of a conjunction. -/
def andsTrace (text : List Char) (parameter? : Option (List Char)) (k : Cursor) : List Step :=
  takeTrace text ['&', '&'] k ++
    match take text ['&', '&'] k with
    | .ok (true, ⟨k', _⟩) =>
      .turn .conjuncts k.rest k'.rest :: (comparisonTrace text parameter? k' ++
        match comparisonAt text parameter? k' with
        | .error _ => []
        | .ok (_, ⟨k'', _⟩) => andsTrace text parameter? k'')
    | _ => []
termination_by (k.rest.length, 3)
decreasing_by
  · exact Prod.Lex.right' _ (by assumption) (by decide)
  · exact Prod.Lex.left _ _ (by omega)

def comparisonTrace (text : List Char) (parameter? : Option (List Char)) (k : Cursor) :
    List Step :=
  .call .comparison k.rest :: (operandTrace text parameter? k ++
    match operandAt text parameter? k with
    | .error _ => []
    | .ok (_, ⟨k', _⟩) =>
      takeSymbolTrace text k' [.eq, .ne, .ge, .le, .gt, .lt] ++
        match takeSymbol text k' [.eq, .ne, .ge, .le, .gt, .lt] with
        | .ok (some _, ⟨k'', _⟩) => operandTrace text parameter? k''
        | _ => [])
termination_by (k.rest.length, 1)

def operandTrace (text : List Char) (parameter? : Option (List Char)) (k : Cursor) : List Step :=
  .call .operand k.rest :: (blankTrace k.rest ++
    match h : k.skip.rest with
    | [] => []
    | c :: r =>
      if c = '(' then
        have := Cursor.next_skip_lt h
        orTrace text parameter? k.skip.next ++
          match orAt text parameter? k.skip.next with
          | .error _ => []
          | .ok (_, ⟨k', _⟩) =>
            takeTrace text [')'] k' ++
              match take text [')'] k' with
              | .ok (false, ⟨k'', _⟩) => [.call .position k''.rest]
              | _ => []
      else if c = '\'' ∨ c = '"' then quotedTrace c r
      else if c = '-' ∨ c.isDigit then numberTrace c r
      else if isNameStart c then wordTrace c r
      else [])
termination_by (k.rest.length, 0)

end

/-! ## Whole texts -/

/-- Everything that the reader does in a text. -/
def trace (text : List Char) : List Step :=
  .call .predicate text :: .call .head text ::
    match headAt text with
    | .error _ => []
    | .ok (parameter?, k) =>
      turnsFor .headChars (text.length - k.rest.length) text ++
        (orTrace text parameter? k ++
          match orAt text parameter? k with
          | .error _ => []
          | .ok (_, ⟨k', _⟩) => blankTrace k'.rest)

end SearchDialect.Predicate
