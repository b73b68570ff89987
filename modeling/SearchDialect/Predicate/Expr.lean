import SearchDialect.Filter.Basic
import SearchDialect.Literal.Conversion

/-!
# Predicate expressions

A predicate over the members of a model: comparisons joined by connectives. The operands of a
comparison are members, constants, conversions and calls; which of them may stand where is decided
when a predicate is turned into a filter.
-/

namespace SearchDialect

/-- A function that a predicate may call. A failure tells its reason. -/
abbrev Function := List Literal → Except String Literal

/-- A predicate expression. -/
inductive Expr where
  /-- The member at a dotted path. -/
  | member (path : String)
  | constant (value : Literal)
  | convert (operand : Expr) (target : Target)
  /-- A function applied to the value of the receiver, if there is one, and of the arguments. -/
  | call (name : String) (function : Function) (receiver? : Option Expr) (arguments : List Expr)
  | compare (comparison : Comparison) (left right : Expr)
  | logical (connective : Connective) (left right : Expr)

instance : Inhabited Expr := ⟨.constant .null⟩

def Expr.describe : Expr → String
  | member path => "member '" ++ path ++ "'"
  | constant value => "constant " ++ value.display
  | convert _ target => "conversion to " ++ target.kind.name
  | call name _ _ _ => "call to '" ++ name ++ "'"
  | compare c _ _ => "comparison '" ++ c.symbol ++ "'"
  | logical c _ _ => "logical '" ++ c.word ++ "'"

end SearchDialect
