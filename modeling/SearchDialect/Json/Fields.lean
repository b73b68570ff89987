import SearchDialect.Json.Written

/-!
# Reading written JSON into types

A value of a type is read from JSON as it is written, so that members that the type does not know
are never interpreted. A record is an object, whose known members may stand once each and in any
order, or a list of the values of its members in order.
-/

namespace SearchDialect.Json.Written

open Number

def text? : Written → Option String
  | .string body => (unescape? body).map String.ofList
  | _ => none

def bool? : Written → Option Bool
  | .bool b => some b
  | _ => none

/-- A number as JSON. -/
def number? : Written → Option Json
  | .number n => numberToJson? n
  | _ => none

def unsigned? (w : Written) : Option UInt64 := w.number?.bind (·.unsigned?)

def integer? (w : Written) : Option Int64 :=
  match w.number? with
  | some (.int i) => int64? i
  | _ => none

def double? (w : Written) : Option Double := w.number?.bind (·.number?)

/-- Null, or a value of a type. -/
def nullable? {α : Type} (read? : Written → Option α) : Written → Option (Option α)
  | .null => some none
  | w => (read? w).map some

def list? {α : Type} (read? : Written → Option α) : Written → Option (List α)
  | .array items => items.mapM read?
  | _ => none

/-- The names of some members, interpreted. -/
def named? : List (List Char × Written) → Option (List (String × Written))
  | [] => some []
  | (name, w) :: ms =>
    match unescape? name, named? ms with
    | some n, some rest => some ((String.ofList n, w) :: rest)
    | _, _ => none

/-- A map from names to values of a type, in order of the names, the last value of each name. -/
def map? {α : Type} (read? : Written → Option α) : Written → Option (List (String × α))
  | .object members => do
    let members ← named? members
    let values ← members.mapM fun m => (read? m.2).map fun v => (m.1, v)
    return sortMembers values
  | _ => none

/-- Whether a name occurs at most once. -/
def atMostOnce (members : List (String × Written)) (name : String) : Bool :=
  (members.filter (·.1 == name)).length ≤ 1

/-- The members of a record with some names. Fails if one of them stands twice, and if a list is
longer than the names. -/
def fields? (names : List String) : Written → Option (List (String × Written))
  | .object members => do
    let members ← named? members
    if names.all (atMostOnce members) then some members else none
  | .array items => if items.length ≤ names.length then some (names.zip items) else none
  | _ => none

/-- The members of a record with some names, all of which a list has to give. -/
def allFields? (names : List String) (w : Written) : Option (List (String × Written)) :=
  match w with
  | .array items => if items.length = names.length then some (names.zip items) else none
  | w => w.fields? names

end SearchDialect.Json.Written
