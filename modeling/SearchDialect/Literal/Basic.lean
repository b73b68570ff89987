import SearchDialect.FormatError
import SearchDialect.Json.Basic
import SearchDialect.Number.Numeral
import SearchDialect.Time.Printer
import SearchDialect.Time.Reader

/-!
# Literals

The dynamically typed values that properties are compared with: their text for the reader's eye, and
their JSON. JSON tells neither a character from a text nor a date-time from one, so reading back
gives a text that is an RFC 3339 date-time as that date-time.
-/

namespace SearchDialect

open Number Time

/-- A value that a property is compared with. -/
inductive Literal where
  | null
  | bool (b : Bool)
  | int (i : Int64)
  | double (d : Double)
  | text (s : String)
  | time (t : Timestamp)
  | char (c : Char)
deriving DecidableEq

instance : Inhabited Literal := ⟨.null⟩

namespace Literal

def isNull : Literal → Bool
  | null => true
  | _ => false

def typeName : Literal → String
  | null => "null"
  | bool _ => "bool"
  | int _ => "int"
  | double _ => "double"
  | text _ => "string"
  | time _ => "datetime"
  | char _ => "char"

def double? : Literal → Option Double
  | int i => some (Double.ofInt i.toInt)
  | double d => some d
  | _ => none

def text? : Literal → Option String
  | text s => some s
  | _ => none

/-- The text of a literal for the reader's eye. -/
def display : Literal → String
  | null => "null"
  | bool true => "true"
  | bool false => "false"
  | int i => intText i.toInt
  | double d => d.display
  | text s => s
  | time t => t.text
  | char c => String.singleton c

/-- The JSON of a literal. -/
def toJson : Literal → Json
  | null => .null
  | bool b => .bool b
  | int i => .int i.toInt
  | double d => .ofDouble d
  | text s => .str s
  | time t => .str t.text
  | char c => .str (String.singleton c)

/-- The literal of a JSON value. An integer beyond 64 bits becomes a double. -/
def ofJson : Json → Except FormatError Literal
  | .null => .ok null
  | .bool b => .ok (bool b)
  | .int i =>
    match int64? i with
    | some n => .ok (int n)
    | none => .ok (double (Double.ofInt i))
  | .double d => .ok (double d)
  | .str s =>
    match readTimestamp? s.toList with
    | some t => .ok (time t)
    | none => .ok (text s)
  | j => .error (.invalidShape (.notScalar j))

end Literal

end SearchDialect
