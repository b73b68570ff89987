import SearchDialect.Predicate.Reader
import SearchDialect.Proofs.Text.Blank

/-!
# The grammar of predicates

Which texts derive which expressions, without regard to how they are read:

    predicate   = [ name "=>" ] disjunction
    disjunction = conjunction | disjunction "||" conjunction
    conjunction = comparison | conjunction "&&" comparison
    comparison  = operand | operand ( "==" | "!=" | ">" | ">=" | "<" | "<=" ) operand
    operand     = "(" disjunction ")" | path | constant

Blanks may stand before every token and at the end. A constant and a path are one token each. The
grammar leaves open whether a number may start with its point (`dotted`).
-/

namespace SearchDialect.Predicate

open Text Number

/-! ## Tokens -/

/-- A name: letters, numbers and underscores, at least one of them. -/
def IsName (cs : List Char) : Prop := cs ≠ [] ∧ ∀ c ∈ cs, isNameChar c = true

/-- The words that are constants. -/
def constantWords : List (List Char) := ["true".toList, "false".toList, "null".toList]

/-- The names of a path. The first one starts with a letter or an underscore, and it is no word for
a constant. -/
inductive IsPath : List (List Char) → Prop where
  | names {first : List Char} {more : List (List Char)} : IsName first →
      (∀ c ∈ first.head?, isNameStart c = true) → first ∉ constantWords →
      (∀ name ∈ more, IsName name) → IsPath (first :: more)

/-- The names of a path without the name in the head of the predicate, if there are further ones. -/
def unqualified (head? : Option (List Char)) : List (List Char) → List (List Char)
  | first :: next :: more => if head? = some first then next :: more else first :: next :: more
  | names => names

/-- What stands between quotes, and the text it means: a backslash takes the next character as it
is, and the quote itself only stands there behind a backslash. -/
inductive QuotedBody (quote : Char) : List Char → List Char → Prop where
  | nil : QuotedBody quote [] []
  | plain {c : Char} {body text : List Char} : c ≠ quote → c ≠ '\\' →
      QuotedBody quote body text → QuotedBody quote (c :: body) (c :: text)
  | escaped {c : Char} {body text : List Char} :
      QuotedBody quote body text → QuotedBody quote ('\\' :: c :: body) (c :: text)

/-- A text in quotes, single or double, and the text it means. -/
inductive IsQuoted : List Char → List Char → Prop where
  | single {body text : List Char} : QuotedBody '\'' body text →
      IsQuoted ('\'' :: (body ++ ['\''])) text
  | double {body text : List Char} : QuotedBody '"' body text →
      IsQuoted ('"' :: (body ++ ['"'])) text

/-- A minus or nothing, and a run of digits and points. Only if `dotted` is set the text may start
with a point. -/
def IsNumeral (dotted : Bool) (cs : List Char) : Prop :=
  (∃ sign run, cs = sign ++ run ∧ (sign = [] ∨ sign = ['-']) ∧ ∀ c ∈ run, isNumberChar c = true) ∧
    (dotted = false → cs.head? ≠ some '.')

/-- The texts of constants. -/
inductive IsConstant (dotted : Bool) : List Char → Literal → Prop where
  | true : IsConstant dotted "true".toList (.bool true)
  | false : IsConstant dotted "false".toList (.bool false)
  | null : IsConstant dotted "null".toList .null
  | int {cs : List Char} {i : Int64} : IsNumeral dotted cs → '.' ∉ cs → readInt64? cs = some i →
      IsConstant dotted cs (.int i)
  | double {cs : List Char} {d : Double} : IsNumeral dotted cs → '.' ∈ cs →
      readDouble? cs = some d → IsConstant dotted cs (.double d)
  | text {cs text : List Char} : IsQuoted cs text →
      IsConstant dotted cs (.text (String.ofList text))
  | time {cs text : List Char} {t : Time.Timestamp} : IsQuoted cs text →
      Time.readTimestamp text = .ok t → IsConstant dotted ('d' :: 't' :: cs) (.time t)

/-! ## Expressions -/

variable (dotted : Bool) (head? : Option (List Char))

mutual

/-- The texts of operands. -/
inductive IsOperand : List Char → Expr → Prop where
  | constant {ws cs : List Char} {v : Literal} : Blanks ws → IsConstant dotted cs v →
      IsOperand (ws ++ cs) (.constant v)
  | path {ws : List Char} {names : List (List Char)} : Blanks ws → IsPath names →
      IsOperand (ws ++ join ['.'] names)
        (.member (String.ofList (join ['.'] (unqualified head? names))))
  | group {ws ws' cs : List Char} {e : Expr} : Blanks ws → IsDisjunction cs e → Blanks ws' →
      IsOperand (ws ++ '(' :: (cs ++ (ws' ++ [')']))) e

/-- The texts of operands and of comparisons of two. -/
inductive IsComparison : List Char → Expr → Prop where
  | operand {cs : List Char} {e : Expr} : IsOperand cs e → IsComparison cs e
  | compare {ls ws rs : List Char} {c : Comparison} {l r : Expr} : IsOperand ls l → Blanks ws →
      IsOperand rs r → IsComparison (ls ++ (ws ++ (c.symbol.toList ++ rs))) (.compare c l r)

/-- The texts of conjunctions; several parts group to the left. -/
inductive IsConjunction : List Char → Expr → Prop where
  | comparison {cs : List Char} {e : Expr} : IsComparison cs e → IsConjunction cs e
  | and {ls ws rs : List Char} {l r : Expr} : IsConjunction ls l → Blanks ws → IsComparison rs r →
      IsConjunction (ls ++ (ws ++ ('&' :: '&' :: rs))) (.logical .and l r)

/-- The texts of disjunctions; several parts group to the left. -/
inductive IsDisjunction : List Char → Expr → Prop where
  | conjunction {cs : List Char} {e : Expr} : IsConjunction cs e → IsDisjunction cs e
  | or {ls ws rs : List Char} {l r : Expr} : IsDisjunction ls l → Blanks ws → IsConjunction rs r →
      IsDisjunction (ls ++ (ws ++ ('|' :: '|' :: rs))) (.logical .or l r)

end

/-- The texts of predicates. -/
inductive IsPredicate : List Char → Expr → Prop where
  | plain {cs ws : List Char} {e : Expr} : IsDisjunction dotted none cs e → Blanks ws →
      IsPredicate (cs ++ ws) e
  | headed {ws name ws' cs ws'' : List Char} {e : Expr} : Blanks ws → IsName name → Blanks ws' →
      IsDisjunction dotted (some name) cs e → Blanks ws'' →
      IsPredicate (ws ++ (name ++ (ws' ++ ('=' :: '>' :: (cs ++ ws''))))) e

end SearchDialect.Predicate
