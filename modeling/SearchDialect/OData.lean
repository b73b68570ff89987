import SearchDialect.Condition.Dialect
import SearchDialect.Text.Lowercase
import SearchDialect.Text.Quoted
import SearchDialect.Text.Split

/-!
# OData filters

Filters in the language of OData: `Price gt 10 and Name eq 'O''Brien'`. The names of a path stand
between slashes.
-/

namespace SearchDialect.OData

open Text Time

/-- A path with slashes in place of its dots. -/
def path (property : String) : String :=
  String.ofList (property.toList.map fun c => if c = '.' then '/' else c)

/-- A literal where a date-time is due. A text is taken as a date-time if it is one. -/
def timeLiteral : Literal → String
  | .time t => t.milliseconds
  | .text s =>
    match readTimestamp? s.toList with
    | some t => t.milliseconds
    | none => s
  | v => v.display

/-- A literal where a value of a kind is due. -/
def literal (kind : Kind) (v : Literal) : String :=
  if v.isNull then "null"
  else
    match kind with
    | .string | .char => String.ofList (quoteDoubled v.display.toList)
    | .bool => lowercase v.display
    | .datetime => timeLiteral v
    | .int | .long | .double => v.display

/-- OData as a query language. A linked filter with links of its own always gets parentheses. -/
def dialect : Dialect where
  compare := fun property kind c v => path property ++ " " ++ c.word ++ " " ++ literal kind v
  word := Connective.word
  groupsFirst := true

variable {ι : Type}

def condition (family : Family ι) (m : Model ι) (f : Filter) : Except ModelError String :=
  dialect.condition family m f

/-- The condition that all of some filters hold, each in parentheses; none if no filter says
anything. -/
def conjunction (family : Family ι) (m : Model ι) (fs : List Filter) :
    Except ModelError (Option String) := do
  let conditions ← fs.mapM (condition family m)
  let parts := (conditions.filter (!·.isEmpty)).map fun c => "(" ++ c ++ ")"
  return if parts.isEmpty then none else some (joinStrings " and " parts)

end SearchDialect.OData
