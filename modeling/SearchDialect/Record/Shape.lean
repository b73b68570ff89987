import SearchDialect.Json.Basic
import SearchDialect.Number.Numeral
import SearchDialect.Result.Record
import SearchDialect.Text.Inspected

/-!
# Record shapes

A shape describes the documents that a record can be read from, and is the decoder of such records.
The first fault is told: members are read in the order in which the document holds them, and then
missing ones are looked for in the order in which they are declared. A record may also be given as
the list of its members' values.
-/

namespace SearchDialect

open Number Json

/-- The shape of a record or of a part of it. -/
inductive Shape where
  | text
  | truth
  | number
  /-- An integer of 32 bits. -/
  | int32
  /-- Null or something of a shape. -/
  | optional (inner : Shape)
  | list (inner : Shape)
  /-- A record of a name with its fields: name, shape, and the value of an absent field. -/
  | record (name : String) (fields : List (String × Shape × Option Json))
deriving Inhabited

namespace Shape

/-- What a shape is called where something else is found. -/
def expected : Shape → String
  | text => "a string"
  | truth => "a boolean"
  | number => "f64"
  | int32 => "i32"
  | optional inner => inner.expected
  | list _ => "a sequence"
  | record name _ => "struct " ++ name

/-- What a JSON value is called where something else is expected. -/
def found : Json → String
  | .null => "null"
  | .bool true => "boolean \x60true\x60"
  | .bool false => "boolean \x60false\x60"
  | .int i => "integer \x60" ++ intText i ++ "\x60"
  | .double d => "floating point \x60" ++ (Json.double d).text ++ "\x60"
  | .str s => "string " ++ Text.inspect s
  | .arr _ => "sequence"
  | .obj _ => "map"

/-- The fault that a value has another type. -/
def wrongType {α : Type} (j : Json) (s : Shape) : Except String α :=
  .error ("invalid type: " ++ found j ++ ", expected " ++ s.expected)

/-- The fault that a list has another length. -/
def wrongLength {α : Type} (length : Nat) (expected : String) : Except String α :=
  .error ("invalid length " ++ natText length ++ ", expected " ++ expected)

/-- The number of fields of a record, in words. -/
def elements (n : Nat) : String := natText n ++ (if n = 1 then " element" else " elements")

/-- The value of a field that a document does not hold: its default, or null if it is optional. -/
def absent (name : String) (s : Shape) (default? : Option Json) : Except String Json :=
  match default?, s with
  | some j, _ => .ok j
  | none, optional _ => .ok .null
  | none, _ => .error ("missing field \x60" ++ name ++ "\x60")

/-- The fields of a record: those that a document holds, and the values of absent ones. -/
def complete (values : List (String × Json)) :
    List (String × Shape × Option Json) → Except String (List (String × Json))
  | [] => .ok []
  | (name, s, default?) :: rest => do
    let v ← match lookup name values with
      | some v => .ok v
      | none => absent name s default?
    let vs ← complete values rest
    return (name, v) :: vs

mutual

/-- Reads a value of a shape. Members that a record does not have are ignored. -/
def decode : Shape → Decoder Json
  | text => fun j =>
    match j with
    | .str s => .ok (.str s)
    | j => wrongType j text
  | truth => fun j =>
    match j with
    | .bool b => .ok (.bool b)
    | j => wrongType j truth
  | number => fun j =>
    match j.number? with
    | some d => .ok (.double d)
    | none => wrongType j number
  | int32 => fun j =>
    match j with
    | .int i =>
      if fitsInt32 i then .ok (.int i)
      else .error ("invalid value: " ++ found j ++ ", expected i32")
    | j => wrongType j int32
  | optional inner => fun j =>
    match j with
    | .null => .ok .null
    | j => decode inner j
  | list inner => fun j =>
    match j with
    | .arr items => do
      let vs ← items.mapM (decode inner)
      return .arr vs
    | j => wrongType j (list inner)
  | record name fields => fun j =>
    match j with
    | .obj members => do
      let values ← members.foldlM (fun (acc : List (String × Json)) m => do
        match ← decodeField fields m.1 m.2 with
        | some v => return acc ++ [(m.1, v)]
        | none => return acc) []
      let all ← complete values fields
      return .object all
    | .arr items => do
      let all ← decodeItems name fields.length 0 fields items
      if items.length ≤ fields.length then return .object all
      else wrongLength items.length "fewer elements in array"
    | j => wrongType j (record name fields)

/-- Reads the value of a member, if a record has a field of its name. -/
def decodeField : List (String × Shape × Option Json) → String → Json → Except String (Option Json)
  | [], _, _ => .ok none
  | (name, s, _) :: rest, member, j =>
    if name = member then (decode s j).map some else decodeField rest member j

/-- Reads the fields of a record from the values of a list. -/
def decodeItems (record : String) (count position : Nat) :
    List (String × Shape × Option Json) → List Json → Except String (List (String × Json))
  | [], _ => .ok []
  | (name, s, _) :: rest, j :: js => do
    let v ← decode s j
    let vs ← decodeItems record count (position + 1) rest js
    return (name, v) :: vs
  | (name, _, some j) :: rest, [] => do
    let vs ← decodeItems record count (position + 1) rest []
    return (name, j) :: vs
  | (_, _, none) :: _, [] =>
    wrongLength position ("struct " ++ record ++ " with " ++ elements count)

end

end Shape

end SearchDialect
