import SearchDialect.Predicate.Reader

/-!
# Reading predicates by offsets

The reader of predicates as it moves through a text. A cursor goes forward character by character
and counts the bytes that it leaves behind; a token is looked for in the slice of the text that
starts at the offset of the cursor. An offset that does not lie between two characters has no slice,
and there the reader would break off (`Halt.noSlice`). Faults lie at the offset of the cursor.

The steps inside a word, a number or a text in quotes look at one character after the other; they
are those of `Predicate.Reader`, and the cursor moves past what they take.
-/

namespace SearchDialect.Predicate

open Text
open Time (byteCount)

/-! ## Slices and cursors -/

/-- The text from an offset in bytes on. There is none if the offset lies inside a character or
behind the end. -/
def slice? : List Char → Nat → Option (List Char)
  | cs, 0 => some cs
  | [], _ + 1 => none
  | c :: cs, n + 1 => if c.utf8Size ≤ n + 1 then slice? cs (n + 1 - c.utf8Size) else none

/-- A place in a text: how many bytes are before it, and the text from there on. -/
structure Cursor where
  offset : Nat
  rest : List Char

namespace Cursor

/-- The cursor behind the next character. At the end it stays. -/
def next (k : Cursor) : Cursor :=
  match k.rest with
  | [] => k
  | c :: r => ⟨k.offset + c.utf8Size, r⟩

/-- The cursor behind some characters. -/
def advance (k : Cursor) : Nat → Cursor
  | 0 => k
  | n + 1 => k.next.advance n

/-- The cursor that starts at an offset, behind all blanks. -/
def afterBlanks (offset : Nat) : List Char → Cursor
  | [] => ⟨offset, []⟩
  | c :: r => if isBlank c then afterBlanks (offset + c.utf8Size) r else ⟨offset, c :: r⟩

/-- The cursor behind the blanks that come next. -/
def skip (k : Cursor) : Cursor := afterBlanks k.offset k.rest

/-- The cursor that starts at an offset, moved until another offset is reached. -/
def upTo (goal offset : Nat) : List Char → Cursor
  | [] => ⟨offset, []⟩
  | c :: r => if offset < goal then upTo goal (offset + c.utf8Size) r else ⟨offset, c :: r⟩

/-- Where a cursor stands in a text; at the end that is the size of the text. -/
def position (text : List Char) (k : Cursor) : Nat :=
  if k.rest.isEmpty then byteCount text else k.offset

theorem rest_advance (k : Cursor) (n : Nat) : (k.advance n).rest = k.rest.drop n := by
  induction n generalizing k with
  | zero => rfl
  | succ n ih =>
    rw [advance, ih, next]
    split
    · next h => rw [h, List.drop_nil, List.drop_nil]
    · next h => rw [h, List.drop_succ_cons]

theorem rest_skip (k : Cursor) : k.skip.rest = skipBlanks k.rest := by
  obtain ⟨offset, cs⟩ := k
  show (afterBlanks offset cs).rest = skipBlanks cs
  induction cs generalizing offset with
  | nil => rfl
  | cons c cs ih =>
    rw [afterBlanks, skipBlanks, List.dropWhile_cons]
    split
    · exact ih _
    · rfl

theorem length_skip_le (k : Cursor) : k.skip.rest.length ≤ k.rest.length := by
  rw [rest_skip]
  exact length_skipBlanks_le k.rest

section

variable {k k' k'' : Cursor} {c : Char} {r : List Char}

theorem lt_of_lt_skip (h : k'.rest.length < k.skip.rest.length) : k'.rest.length < k.rest.length :=
  Nat.lt_of_lt_of_le h k.length_skip_le

theorem next_skip_lt (h : k.skip.rest = c :: r) : k.skip.next.rest.length < k.rest.length := by
  have hle := k.length_skip_le
  rw [next, h]
  rw [h] at hle
  exact hle

theorem lt_of_next_skip (h : k.skip.rest = c :: r)
    (hk' : k'.rest.length < k.skip.next.rest.length) (hk'' : k''.rest.length ≤ k'.rest.length) :
    k''.rest.length < k.rest.length :=
  Nat.lt_of_le_of_lt hk'' (Nat.lt_trans hk' (next_skip_lt h))

theorem lt_skip_of_le (h : k.skip.rest = c :: r) (s : List Char) (hs : s.length ≤ r.length) :
    s.length < k.skip.rest.length := by
  rw [h]
  exact Nat.lt_succ_of_le hs

theorem lt_skip_of_lt (h : k.skip.rest = c :: r) (s : List Char) (hs : s.length < (c :: r).length) :
    s.length < k.skip.rest.length := by
  rw [h]
  exact hs

end

end Cursor

/-- Why reading ends before a predicate is read. -/
inductive Halt where
  | refused (error : CompileError)
  /-- A slice was to start at an offset that does not lie between two characters. -/
  | noSlice (offset : Nat)

namespace Halt

/-- A fault where a cursor stands. -/
def fault (text : List Char) (k : Cursor) (f : SyntaxFault) : Halt :=
  .refused (.badSyntax (k.position text) f)

end Halt

/-- What a step gives that moves a cursor forward. -/
abbrev Moves (α : Type) (k : Cursor) :=
  Except Halt (α × { k' : Cursor // k'.rest.length < k.rest.length })

/-- What a step gives that may leave a cursor where it is. -/
abbrev Stays (α : Type) (k : Cursor) :=
  Except Halt (α × { k' : Cursor // k'.rest.length ≤ k.rest.length })

/-! ## Steps -/

/-- Looks for a token behind the blanks that come next, and moves behind it if it is there. -/
def take (text token : List Char) (k : Cursor) : Stays Bool k :=
  match slice? text (k.skip.position text) with
  | none => .error (.noSlice (k.skip.position text))
  | some s =>
    if token.isPrefixOf s then
      .ok (true, ⟨k.skip.advance token.length, by
        have := k.length_skip_le
        rw [Cursor.rest_advance, List.length_drop]
        omega⟩)
    else .ok (false, ⟨k.skip, k.length_skip_le⟩)

/-- Looks for symbols of comparisons, one after the other. -/
def takeSymbol (text : List Char) (k : Cursor) : List Comparison → Stays (Option Comparison) k
  | [] => .ok (none, ⟨k, Nat.le_refl _⟩)
  | c :: cs =>
    match take text c.symbol.toList k with
    | .error e => .error e
    | .ok (true, k') => .ok (some c, k')
    | .ok (false, ⟨k', hk'⟩) =>
      match takeSymbol text k' cs with
      | .error e => .error e
      | .ok (found?, ⟨k'', hk''⟩) => .ok (found?, ⟨k'', by omega⟩)

/-- Moves a cursor past what a step takes of the characters from there on. -/
def past {α : Type} {P : List Char → Prop} (text : List Char) (k : Cursor)
    (hP : ∀ r, P r → r.length < k.rest.length) :
    Except Stop (α × { r : List Char // P r }) → Moves α k
  | .error stop =>
    .error (.fault text (k.advance (k.rest.length - stop.rest.length)) stop.fault)
  | .ok (a, ⟨r, hr⟩) =>
    .ok (a, ⟨k.advance (k.rest.length - r.length), by
      have := hP r hr
      rw [Cursor.rest_advance, List.length_drop]
      omega⟩)

/-! ## Expressions -/

mutual

def orAt (text : List Char) (parameter? : Option (List Char)) (k : Cursor) : Moves Expr k :=
  match andAt text parameter? k with
  | .error e => .error e
  | .ok (left, ⟨k', hk'⟩) =>
    match orsAt text parameter? left k' with
    | .error e => .error e
    | .ok (e, ⟨k'', hk''⟩) => .ok (e, ⟨k'', by omega⟩)
termination_by (k.rest.length, 4)

/-- Reads the further parts of a disjunction, to the right of an expression. -/
def orsAt (text : List Char) (parameter? : Option (List Char)) (left : Expr) (k : Cursor) :
    Stays Expr k :=
  match take text ['|', '|'] k with
  | .error e => .error e
  | .ok (false, k') => .ok (left, k')
  | .ok (true, ⟨k', hk'⟩) =>
    match andAt text parameter? k' with
    | .error e => .error e
    | .ok (right, ⟨k'', hk''⟩) =>
      match orsAt text parameter? (.logical .or left right) k'' with
      | .error e => .error e
      | .ok (e, ⟨k₃, hk₃⟩) => .ok (e, ⟨k₃, by omega⟩)
termination_by (k.rest.length, 5)
decreasing_by
  · exact Prod.Lex.right' _ hk' (by decide)
  · exact Prod.Lex.left _ _ (by omega)

def andAt (text : List Char) (parameter? : Option (List Char)) (k : Cursor) : Moves Expr k :=
  match comparisonAt text parameter? k with
  | .error e => .error e
  | .ok (left, ⟨k', hk'⟩) =>
    match andsAt text parameter? left k' with
    | .error e => .error e
    | .ok (e, ⟨k'', hk''⟩) => .ok (e, ⟨k'', by omega⟩)
termination_by (k.rest.length, 2)

/-- Reads the further parts of a conjunction, to the right of an expression. -/
def andsAt (text : List Char) (parameter? : Option (List Char)) (left : Expr) (k : Cursor) :
    Stays Expr k :=
  match take text ['&', '&'] k with
  | .error e => .error e
  | .ok (false, k') => .ok (left, k')
  | .ok (true, ⟨k', hk'⟩) =>
    match comparisonAt text parameter? k' with
    | .error e => .error e
    | .ok (right, ⟨k'', hk''⟩) =>
      match andsAt text parameter? (.logical .and left right) k'' with
      | .error e => .error e
      | .ok (e, ⟨k₃, hk₃⟩) => .ok (e, ⟨k₃, by omega⟩)
termination_by (k.rest.length, 3)
decreasing_by
  · exact Prod.Lex.right' _ hk' (by decide)
  · exact Prod.Lex.left _ _ (by omega)

/-- Reads an operand or a comparison of two. -/
def comparisonAt (text : List Char) (parameter? : Option (List Char)) (k : Cursor) :
    Moves Expr k :=
  match operandAt text parameter? k with
  | .error e => .error e
  | .ok (left, ⟨k', hk'⟩) =>
    match takeSymbol text k' [.eq, .ne, .ge, .le, .gt, .lt] with
    | .error e => .error e
    | .ok (none, ⟨k'', hk''⟩) => .ok (left, ⟨k'', by omega⟩)
    | .ok (some c, ⟨k'', hk''⟩) =>
      match operandAt text parameter? k'' with
      | .error e => .error e
      | .ok (right, ⟨k₃, hk₃⟩) => .ok (.compare c left right, ⟨k₃, by omega⟩)
termination_by (k.rest.length, 1)

def operandAt (text : List Char) (parameter? : Option (List Char)) (k : Cursor) : Moves Expr k :=
  match h : k.skip.rest with
  | [] => .error (.fault text k.skip .unexpectedEnd)
  | c :: r =>
    if c = '(' then
      have := Cursor.next_skip_lt h
      match orAt text parameter? k.skip.next with
      | .error e => .error e
      | .ok (e, ⟨k', hk'⟩) =>
        match take text [')'] k' with
        | .error e => .error e
        | .ok (false, ⟨k'', _⟩) => .error (.fault text k'' .unclosed)
        | .ok (true, ⟨k'', hk''⟩) => .ok (e, ⟨k'', Cursor.lt_of_next_skip h hk' hk''⟩)
    else if c = '\'' ∨ c = '"' then
      match past text k.skip (Cursor.lt_skip_of_le h) (readQuoted (c :: r) c r) with
      | .error e => .error e
      | .ok (s, ⟨k', hk'⟩) =>
        .ok (.constant (.text (String.ofList s)), ⟨k', Cursor.lt_of_lt_skip hk'⟩)
    else if c = '-' ∨ c.isDigit then
      match past text k.skip (Cursor.lt_skip_of_lt h) (readNumber c r) with
      | .error e => .error e
      | .ok (e, ⟨k', hk'⟩) => .ok (e, ⟨k', Cursor.lt_of_lt_skip hk'⟩)
    else if isNameStart c then
      match past text k.skip (Cursor.lt_skip_of_lt h) (readWord parameter? c r) with
      | .error e => .error e
      | .ok (e, ⟨k', hk'⟩) => .ok (e, ⟨k', Cursor.lt_of_lt_skip hk'⟩)
    else .error (.fault text k.skip (.unexpected c))
termination_by (k.rest.length, 0)

end

/-! ## Whole texts -/

/-- The name in front of an arrow and the cursor behind the arrow, or no name and the cursor at the
start. The offset behind the arrow is found from the end of the text. -/
def headAt (text : List Char) : Except Halt (Option (List Char) × Cursor) :=
  let rest := skipBlanks text
  let name := rest.takeWhile isNameChar
  if name.isEmpty then .ok (none, ⟨0, text⟩)
  else
    match slice? rest (byteCount name) with
    | none => .error (.noSlice (byteCount name))
    | some s =>
      let after := skipBlanks s
      if ['=', '>'].isPrefixOf after then
        .ok (some name, .upTo (byteCount text - byteCount after + 2) 0 text)
      else .ok (none, ⟨0, text⟩)

/-- Reads a disjunction behind a head, up to the end of the text. -/
def readFrom (text : List Char) (parameter? : Option (List Char)) (k : Cursor) :
    Except Halt Expr :=
  match orAt text parameter? k with
  | .error e => .error e
  | .ok (e, ⟨k', _⟩) =>
    match k'.skip.rest with
    | [] => .ok e
    | c :: _ => .error (.fault text k'.skip (.unexpected c))

/-- Reads a predicate that takes up the whole text, by offsets. -/
def readByOffsets (text : List Char) : Except Halt Expr :=
  match headAt text with
  | .error e => .error e
  | .ok (parameter?, k) => readFrom text parameter? k

end SearchDialect.Predicate
