/-!
# Value kinds

The kind of value that a property holds. It decides how a literal is written in a native query.
-/

namespace SearchDialect

/-- The kind of a primitive value. -/
inductive Kind where
  /-- A 32-bit integer, also the discriminant of an enumeration. -/
  | int
  /-- A 64-bit integer. -/
  | long
  | double
  | bool
  /-- A text. -/
  | string
  /-- A point in time. -/
  | datetime
  /-- A single character. -/
  | char
deriving DecidableEq, Repr

namespace Kind

def name : Kind → String
  | int => "int"
  | long => "long"
  | double => "double"
  | bool => "bool"
  | string => "string"
  | datetime => "datetime"
  | char => "char"

/-- The kinds whose values are bare numbers in a query. -/
def isNumeric : Kind → Bool
  | int | long | double => true
  | _ => false

/-- The kinds whose values are quoted in a query. -/
def isTextual : Kind → Bool
  | string | char => true
  | _ => false

end Kind

end SearchDialect
