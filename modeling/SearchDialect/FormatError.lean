import SearchDialect.Json.Printer

/-!
# Faults of encoded filters

What can be wrong with a filter list or a word that comes from outside: the text is no JSON, the
JSON has not the shape of filters, or the bytes are no text.
-/

namespace SearchDialect

/-- The sets of words that encoded requests use. -/
inductive Vocabulary where
  | comparison
  | connective
  | direction
deriving DecidableEq, Repr

/-- What a word of a vocabulary is called in messages. -/
def Vocabulary.noun : Vocabulary → String
  | .comparison => "filter operator"
  | .connective => "filter logic"
  | .direction => "sort order"

/-- How a JSON value differs from the shape of a filter. -/
inductive ShapeFault where
  | unknownWord (vocabulary : Vocabulary) (word : String)
  | notScalar (found : Json)
  | notFilter (found : Json)
  /-- A member of a filter has another type than expected. -/
  | wrongMember (member expected : String) (found : Json)
  | noLogic (found : Json)
  | noFilter
  | notList (found : Json)
  | badCount (parameter found : String)

/-- How a sequence of bytes fails to be UTF-8. -/
inductive Utf8Fault where
  /-- The bytes from an index on cannot start or continue a character. -/
  | invalid (length index : Nat)
  /-- The bytes end inside a character. -/
  | incomplete (index : Nat)
deriving DecidableEq, Repr

/-- Why encoded filters or parameters cannot be read. -/
inductive FormatError where
  | invalidJson
  | invalidShape (fault : ShapeFault)
  | invalidEncoding (fault : Utf8Fault)

def ShapeFault.message : ShapeFault → String
  | .unknownWord vocabulary word => "unknown " ++ vocabulary.noun ++ " '" ++ word ++ "'"
  | .notScalar found => "filter value must be a scalar, found " ++ found.text
  | .notFilter found => "filter must be an object, found " ++ found.text
  | .wrongMember member expected found =>
    "'" ++ member ++ "' must be " ++ expected ++ ", found " ++ found.text
  | .noLogic found => "connector needs a logic 'l', found " ++ found.text
  | .noFilter => "connector needs a filter 'f'"
  | .notList found => "expected a filter list, found " ++ found.text
  | .badCount parameter found =>
    parameter ++ " must be a non-negative integer, found '" ++ found ++ "'"

def Utf8Fault.message : Utf8Fault → String
  | .invalid length index =>
    "invalid utf-8 sequence of " ++ Number.natText length ++ " bytes from index " ++
      Number.natText index
  | .incomplete index => "incomplete utf-8 byte sequence from index " ++ Number.natText index

def FormatError.message : FormatError → String
  | .invalidJson => "Invalid filter JSON"
  | .invalidShape fault => "Invalid filter shape: " ++ fault.message
  | .invalidEncoding fault => "Invalid encoding: " ++ fault.message

end SearchDialect
