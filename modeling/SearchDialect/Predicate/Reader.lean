import SearchDialect.Predicate.Error
import SearchDialect.Predicate.Expr
import SearchDialect.Text.After
import SearchDialect.Text.Letter
import SearchDialect.Text.Split

/-!
# Reading predicates

The text of a predicate, an optional head and a disjunction:

    predicate   = [ name "=>" ] disjunction
    disjunction = conjunction { "||" conjunction }
    conjunction = comparison { "&&" comparison }
    comparison  = operand [ ( "==" | "!=" | ">=" | "<=" | ">" | "<" ) operand ]
    operand     = "(" disjunction ")" | path | number | text | "dt" text | "true" | "false" | "null"
    path        = name { "." name }

A path that starts with the name in the head loses it. Blanks may stand before every token; inside
paths, numbers and date-times there are none. Every step of the reader gives the rest of the text
with a proof that it is shorter, and a fault gives the rest at which it lies.
-/

namespace SearchDialect.Predicate

open Text Number

/-- A fault and the rest of the text at which it lies. -/
structure Stop where
  fault : SyntaxFault
  rest : List Char
deriving DecidableEq

/-- What a step gives that consumes something. -/
abbrev Progress (α : Type) (cs : List Char) :=
  Except Stop (α × { r : List Char // r.length < cs.length })

/-- What a step gives that may consume nothing. -/
abbrev Advance (α : Type) (cs : List Char) :=
  Except Stop (α × { r : List Char // r.length ≤ cs.length })

/-! ## Tokens -/

/-- A character that a name may contain. -/
def isNameChar (c : Char) : Bool := isLetterOrNumber c || c == '_'

/-- A character that the first name of a path may start with. -/
def isNameStart (c : Char) : Bool := isLetter c || c == '_'

/-- What is left after blanks and a token. -/
def token? (token : List Char) (cs : List Char) : Option (List Char) :=
  afterWord? token (skipBlanks cs)

theorem length_token? {c : Char} {t cs r : List Char} (h : token? (c :: t) cs = some r) :
    r.length < cs.length := by
  have := length_afterWord? h
  have := length_skipBlanks_le cs
  simp only [List.length_cons] at *
  omega

/-- The name in front of an arrow, and what is left after it. -/
def head? (cs : List Char) : Option (List Char × List Char) :=
  let cs := skipBlanks cs
  let name := cs.takeWhile isNameChar
  if name.isEmpty then none
  else (token? ['=', '>'] (cs.dropWhile isNameChar)).map fun r => (name, r)

theorem length_dropWhile_le (p : Char → Bool) (cs : List Char) :
    (cs.dropWhile p).length ≤ cs.length :=
  (List.dropWhile_sublist p).length_le

theorem length_le_cons (c : Char) (cs : List Char) : cs.length ≤ (c :: cs).length :=
  Nat.le_succ _

theorem length_le_cons_of_le {r cs : List Char} (c : Char) (h : r.length ≤ cs.length) :
    r.length ≤ (c :: cs).length :=
  Nat.le_succ_of_le h

theorem length_le_cons_cons_of_le {r cs : List Char} (c d : Char) (h : r.length ≤ cs.length) :
    r.length ≤ (c :: d :: cs).length :=
  length_le_cons_of_le c (length_le_cons_of_le d h)

/-- The text up to a quote. A backslash takes the next character as it is. A text without its
closing quote is a fault of the opening one. -/
def readQuoted (opening : List Char) (quote : Char) (cs : List Char) : Advance (List Char) cs :=
  match cs with
  | [] => .error ⟨.unterminatedText, opening⟩
  | c :: cs =>
    if c = quote then .ok ([], ⟨cs, length_le_cons c cs⟩)
    else if c = '\\' then
      match cs with
      | [] => .error ⟨.unterminatedEscape, [c]⟩
      | d :: ds =>
        match readQuoted opening quote ds with
        | .error e => .error e
        | .ok (text, ⟨r, hr⟩) =>
          .ok (d :: text, ⟨r, length_le_cons_cons_of_le c d hr⟩)
    else
      match readQuoted opening quote cs with
      | .error e => .error e
      | .ok (text, ⟨r, hr⟩) => .ok (c :: text, ⟨r, length_le_cons_of_le c hr⟩)

/-- A character of the digits of a number, or its point. -/
def isNumberChar (c : Char) : Bool := c.isDigit || c == '.'

/-- The value of a number: with a point a double, without one a 64-bit integer. -/
def numberValue? (text : List Char) : Option Literal :=
  if '.' ∈ text then (readDouble? text).map .double else (readInt64? text).map .int

/-- Reads a number that starts with a character. -/
def readNumber (c : Char) (cs : List Char) : Progress Expr (c :: cs) :=
  let text := c :: cs.takeWhile isNumberChar
  match numberValue? text with
  | none => .error ⟨.badNumber (String.ofList text), c :: cs⟩
  | some v =>
    .ok (.constant v, ⟨cs.dropWhile isNumberChar, by
      have := length_dropWhile_le isNumberChar cs
      simp only [List.length_cons]
      omega⟩)

/-- Reads the further names of a path. -/
def readNames (cs : List Char) : Advance (List (List Char)) cs :=
  match cs with
  | [] => .ok ([], ⟨[], Nat.le_refl _⟩)
  | c :: r =>
    if c = '.' then
      let name := r.takeWhile isNameChar
      if name.isEmpty then .error ⟨.noMemberName, r⟩
      else
        have := length_dropWhile_le isNameChar r
        match readNames (r.dropWhile isNameChar) with
        | .error e => .error e
        | .ok (names, ⟨r', hr⟩) =>
          .ok (name :: names, ⟨r', by simp only [List.length_cons]; omega⟩)
    else .ok ([], ⟨c :: r, Nat.le_refl _⟩)
termination_by cs.length
decreasing_by
  simp only [List.length_cons]
  omega

/-- The path of some names. A path of two or more names loses the first if it is the one in the
head. -/
def pathOf (parameter? : Option (List Char)) (first : List Char) (names : List (List Char)) :
    Expr :=
  let all := if !names.isEmpty && parameter? == some first then names else first :: names
  .member (String.ofList (join ['.'] all))

/-- The constant that a word stands for. -/
def keyword? (name : List Char) : Option Literal :=
  if name = "true".toList then some (.bool true)
  else if name = "false".toList then some (.bool false)
  else if name = "null".toList then some .null
  else none

/-- The quote that a text starts with. -/
def openingQuote? : List Char → Option (Char × List Char)
  | '\'' :: r => some ('\'', r)
  | '"' :: r => some ('"', r)
  | _ => none

theorem length_openingQuote? {cs r : List Char} {q : Char} (h : openingQuote? cs = some (q, r)) :
    r.length < cs.length := by
  unfold openingQuote? at h
  split at h <;> simp_all

/-- Reads the date-time between quotes after the word `dt`. -/
def readTime (word : List Char) (quoted : List Char) (quote : Char) (cs : List Char) :
    Advance Expr cs :=
  match readQuoted quoted quote cs with
  | .error e => .error e
  | .ok (text, r) =>
    match Time.readTimestamp text with
    | .error fault => .error ⟨.badTime (String.ofList text) fault, word⟩
    | .ok t => .ok (.constant (.time t), r)

/-- Reads a keyword, a date-time or a path that starts with a character. -/
def readWord (parameter? : Option (List Char)) (c : Char) (cs : List Char) :
    Progress Expr (c :: cs) :=
  let name := c :: cs.takeWhile isNameChar
  let rest := cs.dropWhile isNameChar
  have hrest : rest.length ≤ cs.length := length_dropWhile_le isNameChar cs
  match keyword? name with
  | some v => .ok (.constant v, ⟨rest, Nat.lt_succ_of_le hrest⟩)
  | none =>
    -- Without a quote behind it `dt` is a name like any other.
    match ho : (if name = ['d', 't'] then openingQuote? rest else none) with
    | some (quote, r) =>
      have hr : r.length < rest.length := by
        split at ho
        · exact length_openingQuote? ho
        · cases ho
      match readTime (c :: cs) rest quote r with
      | .error e => .error e
      | .ok (e, ⟨r', hr'⟩) => .ok (e, ⟨r', by simp only [List.length_cons]; omega⟩)
    | none =>
      match readNames rest with
      | .error e => .error e
      | .ok (names, ⟨r, hr⟩) =>
        .ok (pathOf parameter? name names, ⟨r, by simp only [List.length_cons]; omega⟩)

/-- The comparison whose symbol comes next after blanks; of two symbols the longer one. -/
def comparison? (cs : List Char) : Option (Comparison × { r : List Char // r.length < cs.length }) :=
  match h : token? ['=', '='] cs with
  | some r => some (.eq, ⟨r, length_token? h⟩)
  | none =>
  match h : token? ['!', '='] cs with
  | some r => some (.ne, ⟨r, length_token? h⟩)
  | none =>
  match h : token? ['>', '='] cs with
  | some r => some (.ge, ⟨r, length_token? h⟩)
  | none =>
  match h : token? ['<', '='] cs with
  | some r => some (.le, ⟨r, length_token? h⟩)
  | none =>
  match h : token? ['>'] cs with
  | some r => some (.gt, ⟨r, length_token? h⟩)
  | none =>
  match h : token? ['<'] cs with
  | some r => some (.lt, ⟨r, length_token? h⟩)
  | none => none

/-! ## Expressions -/

mutual

def readOr (parameter? : Option (List Char)) (cs : List Char) : Progress Expr cs :=
  match readAnd parameter? cs with
  | .error e => .error e
  | .ok (left, ⟨r, hr⟩) =>
    match readOrs parameter? left r with
    | .error e => .error e
    | .ok (e, ⟨r', hr'⟩) => .ok (e, ⟨r', by omega⟩)
-- Each level hands the whole text on to the next tighter one, which has the smaller number.
termination_by (cs.length, 4)

/-- Reads the further parts of a disjunction, to the right of an expression. -/
def readOrs (parameter? : Option (List Char)) (left : Expr) (cs : List Char) : Advance Expr cs :=
  match h : token? ['|', '|'] cs with
  | none => .ok (left, ⟨cs, Nat.le_refl _⟩)
  | some r =>
    have := length_token? h
    match readAnd parameter? r with
    | .error e => .error e
    | .ok (right, ⟨r', hr'⟩) =>
      match readOrs parameter? (.logical .or left right) r' with
      | .error e => .error e
      | .ok (e, ⟨r'', hr''⟩) => .ok (e, ⟨r'', by omega⟩)
termination_by (cs.length, 0)

def readAnd (parameter? : Option (List Char)) (cs : List Char) : Progress Expr cs :=
  match readComparison parameter? cs with
  | .error e => .error e
  | .ok (left, ⟨r, hr⟩) =>
    match readAnds parameter? left r with
    | .error e => .error e
    | .ok (e, ⟨r', hr'⟩) => .ok (e, ⟨r', by omega⟩)
termination_by (cs.length, 3)

/-- Reads the further parts of a conjunction, to the right of an expression. -/
def readAnds (parameter? : Option (List Char)) (left : Expr) (cs : List Char) : Advance Expr cs :=
  match h : token? ['&', '&'] cs with
  | none => .ok (left, ⟨cs, Nat.le_refl _⟩)
  | some r =>
    have := length_token? h
    match readComparison parameter? r with
    | .error e => .error e
    | .ok (right, ⟨r', hr'⟩) =>
      match readAnds parameter? (.logical .and left right) r' with
      | .error e => .error e
      | .ok (e, ⟨r'', hr''⟩) => .ok (e, ⟨r'', by omega⟩)
termination_by (cs.length, 0)

/-- Reads an operand or a comparison of two. -/
def readComparison (parameter? : Option (List Char)) (cs : List Char) : Progress Expr cs :=
  match readOperand parameter? cs with
  | .error e => .error e
  | .ok (left, ⟨r, hr⟩) =>
    match comparison? r with
    | none => .ok (left, ⟨r, hr⟩)
    | some (c, ⟨r', hr'⟩) =>
      match readOperand parameter? r' with
      | .error e => .error e
      | .ok (right, ⟨r'', hr''⟩) => .ok (.compare c left right, ⟨r'', by omega⟩)
termination_by (cs.length, 2)

def readOperand (parameter? : Option (List Char)) (cs : List Char) : Progress Expr cs :=
  have hle := length_skipBlanks_le cs
  match h : skipBlanks cs with
  | [] => .error ⟨.unexpectedEnd, []⟩
  | c :: r =>
    have hlt : r.length < cs.length := by simp only [h, List.length_cons] at hle; omega
    if c = '(' then
      match readOr parameter? r with
      | .error e => .error e
      | .ok (e, ⟨r', hr'⟩) =>
        match hc : token? [')'] r' with
        | none => .error ⟨.unclosed, skipBlanks r'⟩
        | some r'' => .ok (e, ⟨r'', by have := length_token? hc; omega⟩)
    else if c = '\'' ∨ c = '"' then
      match readQuoted (c :: r) c r with
      | .error e => .error e
      | .ok (text, ⟨r', hr'⟩) => .ok (.constant (.text (String.ofList text)), ⟨r', by omega⟩)
    else if c = '-' ∨ c.isDigit then
      match readNumber c r with
      | .error e => .error e
      | .ok (e, ⟨r', hr'⟩) => .ok (e, ⟨r', by simp only [List.length_cons] at hr'; omega⟩)
    else if isNameStart c then
      match readWord parameter? c r with
      | .error e => .error e
      | .ok (e, ⟨r', hr'⟩) => .ok (e, ⟨r', by simp only [List.length_cons] at hr'; omega⟩)
    else .error ⟨.unexpected c, c :: r⟩
termination_by (cs.length, 1)

end

/-- Reads a predicate that takes up the whole text. -/
def readAll (cs : List Char) : Except Stop Expr :=
  let (parameter?, body) := match head? cs with
    | some (name, r) => (some name, r)
    | none => (none, cs)
  match readOr parameter? body with
  | .error e => .error e
  | .ok (e, ⟨r, _⟩) =>
    match skipBlanks r with
    | [] => .ok e
    | c :: r => .error ⟨.unexpected c, c :: r⟩

/-- Reads a predicate. The position of a fault is the number of bytes before it. -/
def read (cs : List Char) : Except CompileError Expr :=
  match readAll cs with
  | .ok e => .ok e
  | .error stop =>
    .error (.badSyntax (Time.byteCount cs - Time.byteCount stop.rest) stop.fault)

end SearchDialect.Predicate
