import SearchDialect.Filter.Basic
import SearchDialect.Json.Printer
import SearchDialect.Json.Written

/-!
# Filters as JSON

A filter is an object with the members `p` (property), `o` (comparison), `v` (value), `vi`
(visibility), `t` (tag) and `f` (links); a link is an object with `l` (connective) and `f` (filter).
The reader takes an absent or null member for its default and ignores all other members.
-/

namespace SearchDialect

namespace Filter

/-! ## Writing -/

mutual

def toJson : Filter → Json
  | node p c v t vi ls =>
    .obj [("p", .str p), ("o", .str c.word), ("v", v.toJson), ("vi", .bool vi),
      ("t", Json.ofString? t), ("f", .arr (linksToJson ls))]

def linksToJson : List (Connective × Filter) → List Json
  | [] => []
  | (c, f) :: ls => .obj [("l", .str c.word), ("f", toJson f)] :: linksToJson ls

end

/-! ## Reading -/

/-- Where a filter's value is absent it is null. -/
def valueOfJson (members : List (String × Json)) : Except FormatError Literal :=
  match Json.lookup "v" members with
  | none => .ok .null
  | some j => Literal.ofJson j

/-- The text under a name; absent or null is none. -/
def textOfJson (name : String) (members : List (String × Json)) :
    Except FormatError (Option String) :=
  match Json.lookup name members with
  | none | some .null => .ok none
  | some (.str s) => .ok (some s)
  | some j => .error (.invalidShape (.wrongMember name "a string" j))

/-- The comparison under `o`; absent or null is equality. -/
def comparisonOfJson (members : List (String × Json)) : Except FormatError Comparison := do
  match ← textOfJson "o" members with
  | none => return .eq
  | some w => Comparison.ofWord w

/-- The visibility under `vi`; absent or null is visible. -/
def visibleOfJson (members : List (String × Json)) : Except FormatError Bool :=
  match Json.lookup "vi" members with
  | none | some .null => .ok true
  | some (.bool b) => .ok b
  | some j => .error (.invalidShape (.wrongMember "vi" "a bool" j))

/-- The connective of a link. -/
def connectiveOfJson (j : Json) : Except FormatError Connective :=
  match (j.get? "l").bind (·.string?) with
  | none => .error (.invalidShape (.noLogic j))
  | some w => Connective.ofWord w

theorem sizeOf_lookup {name : String} {members : List (String × Json)} {j : Json}
    (h : Json.lookup name members = some j) : sizeOf j < sizeOf members := by
  induction members with
  | nil => simp [Json.lookup] at h
  | cons m ms ih =>
    obtain ⟨n, v⟩ := m
    simp only [Json.lookup] at h
    split at h
    · cases h
      simp only [List.cons.sizeOf_spec, Prod.mk.sizeOf_spec]
      omega
    · have := ih h
      simp only [List.cons.sizeOf_spec, Prod.mk.sizeOf_spec]
      omega

theorem sizeOf_get? {name : String} {j v : Json} (h : j.get? name = some v) :
    sizeOf v < sizeOf j := by
  cases j with
  | obj ms =>
    have := sizeOf_lookup h
    simp only [Json.obj.sizeOf_spec]
    omega
  | _ => simp [Json.get?] at h

mutual

/-- The filter of a JSON value. The members are checked in the order in which they are written. -/
def ofJson : Json → Except FormatError Filter
  | .obj ms => do
    let p ← textOfJson "p" ms
    let o ← comparisonOfJson ms
    let v ← valueOfJson ms
    let vi ← visibleOfJson ms
    let t ← textOfJson "t" ms
    let ls ← linksOfMembers ms
    return node (p.getD "") o v t vi ls
  | found => .error (.invalidShape (.notFilter found))
termination_by j => sizeOf j
decreasing_by
  simp only [Json.obj.sizeOf_spec]
  omega

/-- The links under `f`; absent or null is none. -/
def linksOfMembers (ms : List (String × Json)) : Except FormatError (List (Connective × Filter)) :=
  match _h : Json.lookup "f" ms with
  | none => .ok []
  | some .null => .ok []
  | some (.arr items) => linksOfJson items
  | some found => .error (.invalidShape (.wrongMember "f" "an array" found))
termination_by sizeOf ms
decreasing_by
  have := sizeOf_lookup _h
  simp only [Json.arr.sizeOf_spec] at this
  omega

/-- The links of the items of an array. -/
def linksOfJson : List Json → Except FormatError (List (Connective × Filter))
  | [] => .ok []
  | j :: js => do
    let l ← linkOfJson j
    let ls ← linksOfJson js
    return l :: ls
termination_by items => sizeOf items
decreasing_by
  all_goals
    simp only [List.cons.sizeOf_spec]
    omega

/-- The link of an item. -/
def linkOfJson (j : Json) : Except FormatError (Connective × Filter) :=
  match connectiveOfJson j with
  | .error e => .error e
  | .ok c =>
    match _h : j.get? "f" with
    | none => .error (.invalidShape .noFilter)
    | some inner => (ofJson inner).map fun f => (c, f)
termination_by sizeOf j
decreasing_by
  exact sizeOf_get? _h

end

/-! ## Lists of filters as text -/

def listToText (fs : List Filter) : List Char := Json.chars (.arr (fs.map toJson))

/-- The filters of a JSON value that has to be an array. -/
def listOfJson : Json → Except FormatError (List Filter)
  | .arr items => items.mapM ofJson
  | found => .error (.invalidShape (.notList found))

def listOfText (cs : List Char) : Except FormatError (List Filter) :=
  match Json.read? cs with
  | none => .error .invalidJson
  | some j => listOfJson j

end Filter

end SearchDialect
