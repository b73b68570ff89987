import SearchDialect.Condition.Dialect
import SearchDialect.Text.Lowercase
import SearchDialect.Text.Quoted

/-!
# Lucene query strings

Filters in the language of Lucene query strings: `Price:>10 AND Name:"O'Brien"`.
-/

namespace SearchDialect.Lucene

open Text

/-- A text as a phrase. -/
def phrase (s : String) : String := String.ofList (quoteEscaped s.toList)

/-- A literal, other than null, where a value of a kind is due. -/
def literal (kind : Kind) (v : Literal) : String :=
  if kind.isTextual then phrase v.display else lowercase v.display

/-- What stands between a property and a value. -/
def operator : Comparison → String
  | .eq | .ne => ":"
  | .gt => ":>"
  | .ge => ":>="
  | .lt => ":<"
  | .le => ":<="

/-- The comparison of a property with a date-time: a phrase or a range, the end of a range being
excluded by a brace and included by a bracket. -/
def compareTime (property : String) (c : Comparison) (v : String) : String :=
  match c with
  | .eq | .ne => property ++ ":\"" ++ v ++ "\""
  | .gt => property ++ ":\x7b" ++ v ++ " TO *\x7d"
  | .ge => property ++ ":[" ++ v ++ " TO *]"
  | .lt => property ++ ":\x7b* TO " ++ v ++ "\x7d"
  | .le => property ++ ":[* TO " ++ v ++ "]"

/-- The condition that a comparison's negation starts from. -/
def compareBare (property : String) (kind : Kind) (c : Comparison) (v : Literal) : String :=
  if v.isNull then
    "(" ++ property ++ ":null OR (!(_exists_:" ++ property ++ ")))"
  else if kind = .datetime then compareTime property c v.display
  else property ++ operator c ++ literal kind v

/-- The comparison of a property with a value; inequality is the negation of equality. -/
def compare (property : String) (kind : Kind) (c : Comparison) (v : Literal) : String :=
  let bare := compareBare property kind c v
  if c = .ne then "!(" ++ bare ++ ")" else bare

def word : Connective → String
  | .and => "AND"
  | .or => "OR"

/-- Lucene as a query language. A linked filter with links of its own gets parentheses only where
something stands before it. -/
def dialect : Dialect where
  compare := compare
  word := word
  groupsFirst := false

variable {ι : Type}

def condition (family : Family ι) (m : Model ι) (f : Filter) : Except ModelError String :=
  dialect.condition family m f

end SearchDialect.Lucene
