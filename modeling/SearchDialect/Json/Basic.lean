import SearchDialect.Number.Double
import SearchDialect.Number.Integer

/-!
# JSON values

Numbers are integers or doubles, and the two stay apart. Objects are lists of members; `object`
builds one with its keys in order of code points, the last of several members of one name winning.
-/

namespace SearchDialect

open Number

/-- A JSON value. -/
inductive Json where
  | null
  | bool (b : Bool)
  | int (i : Int)
  | double (d : Double)
  | str (s : String)
  | arr (items : List Json)
  | obj (members : List (String × Json))
deriving Inhabited

namespace Json

/-- Adds a member to members that are in order of their names, replacing one of the same name. -/
def insertMember {α : Type} (name : String) (value : α) : List (String × α) → List (String × α)
  | [] => [(name, value)]
  | (n, v) :: rest =>
    if name < n then (name, value) :: (n, v) :: rest
    else if name = n then (name, value) :: rest
    else (n, v) :: insertMember name value rest

/-- Members in order of their names, the last of each name. -/
def sortMembers {α : Type} (members : List (String × α)) : List (String × α) :=
  members.foldl (fun acc m => insertMember m.1 m.2 acc) []

/-- The object of some members, in order of their names. -/
def object (members : List (String × Json)) : Json := .obj (sortMembers members)

mutual

/-- The same value with the members of all objects in order of their names. -/
def sort : Json → Json
  | .arr items => .arr (sortItems items)
  | .obj members => object (sortValues members)
  | j => j

/-- The same items with the members of all objects in order. -/
def sortItems : List Json → List Json
  | [] => []
  | j :: js => sort j :: sortItems js

/-- The same members with the members of all objects in them in order. -/
def sortValues : List (String × Json) → List (String × Json)
  | [] => []
  | (n, j) :: ms => (n, sort j) :: sortValues ms

end

/-- The member of a name in a list of members. -/
def lookup {α : Type} (name : String) : List (String × α) → Option α
  | [] => none
  | (n, v) :: rest => if n = name then some v else lookup name rest

def members? : Json → Option (List (String × Json))
  | .obj ms => some ms
  | _ => none

def items? : Json → Option (List Json)
  | .arr xs => some xs
  | _ => none

def string? : Json → Option String
  | .str s => some s
  | _ => none

def bool? : Json → Option Bool
  | .bool b => some b
  | _ => none

/-- The member of a name, of an object. -/
def get? (name : String) : Json → Option Json
  | .obj ms => lookup name ms
  | _ => none

def number? : Json → Option Double
  | .int i => some (Double.ofInt i)
  | .double d => some d
  | _ => none

/-- A number as an unsigned 64-bit integer, if it is written as one. -/
def unsigned? : Json → Option UInt64
  | .int i => uint64? i
  | _ => none

/-- An optional text: null if there is none. -/
def ofString? : Option String → Json
  | none => .null
  | some s => .str s

/-- A double as JSON. Infinities and NaNs become null. -/
def ofDouble (d : Double) : Json := if d.isFinite then .double d else .null

/-- An optional double: null if there is none. -/
def ofDouble? : Option Double → Json
  | none => .null
  | some d => .ofDouble d

def ofUnsigned (n : UInt64) : Json := .int n.toNat

end Json

end SearchDialect
