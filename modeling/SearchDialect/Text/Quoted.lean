/-!
# Quoted texts

Two ways to put a text between quotes: an inner quote is doubled, or it is escaped by a backslash,
which then has to be escaped itself. `scanDoubled?` and `scanEscaped?` read a quoted text and tell
what follows it.
-/

namespace SearchDialect.Text

def doubleQuotes : List Char → List Char
  | [] => []
  | c :: cs => if c = '\'' then '\'' :: '\'' :: doubleQuotes cs else c :: doubleQuotes cs

/-- A text between single quotes, inner quotes doubled. -/
def quoteDoubled (cs : List Char) : List Char := '\'' :: (doubleQuotes cs ++ ['\''])

/-- A text in which every double quote and every backslash has a backslash before it. -/
def escapeQuotes : List Char → List Char
  | [] => []
  | c :: cs =>
    if c = '"' ∨ c = '\\' then '\\' :: c :: escapeQuotes cs else c :: escapeQuotes cs

/-- A text between double quotes, inner quotes and backslashes escaped. -/
def quoteEscaped (cs : List Char) : List Char := '"' :: (escapeQuotes cs ++ ['"'])

/-- Reads up to a single quote that is not doubled: the text, and what follows the quote. -/
def scanDoubledBody? : List Char → Option (List Char × List Char)
  | [] => none
  | '\'' :: '\'' :: cs => (scanDoubledBody? cs).map fun r => ('\'' :: r.1, r.2)
  | '\'' :: cs => some ([], cs)
  | c :: cs => (scanDoubledBody? cs).map fun r => (c :: r.1, r.2)

/-- Reads a text between single quotes. -/
def scanDoubled? : List Char → Option (List Char × List Char)
  | '\'' :: cs => scanDoubledBody? cs
  | _ => none

/-- Reads up to a double quote that is not escaped: the text, and what follows the quote. -/
def scanEscapedBody? : List Char → Option (List Char × List Char)
  | [] => none
  | '"' :: cs => some ([], cs)
  | '\\' :: c :: cs => (scanEscapedBody? cs).map fun r => (c :: r.1, r.2)
  | ['\\'] => none
  | c :: cs => (scanEscapedBody? cs).map fun r => (c :: r.1, r.2)

/-- Reads a text between double quotes. -/
def scanEscaped? : List Char → Option (List Char × List Char)
  | '"' :: cs => scanEscapedBody? cs
  | _ => none

end SearchDialect.Text
