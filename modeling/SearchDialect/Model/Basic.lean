import SearchDialect.Kind
import SearchDialect.Model.Error
import SearchDialect.Number.Double

/-!
# Models

A model describes the documents of an index: its members, their declared types and the part they
take in search. Models refer to each other, and to themselves, by an index into a family of models,
so that every reference leads to a model.
-/

namespace SearchDialect

open Number

/-- The declared type of a member, over a family of models with indices in `ι`. -/
inductive MemberType (ι : Type) where
  | value (kind : Kind)
  /-- An enumeration, searched by its discriminant. -/
  | enumeration (name : String)
  | nullable (inner : MemberType ι)
  | list (inner : MemberType ι)
  /-- A nested object described by a model of the family. -/
  | object (model : ι)
deriving Repr

namespace MemberType

variable {ι : Type}

/-- A type without the optional and list wrappers around it. -/
def core : MemberType ι → MemberType ι
  | nullable inner => inner.core
  | list inner => inner.core
  | t => t

/-- Whether the outermost wrapper makes the type optional. -/
def isNullable : MemberType ι → Bool
  | nullable _ => true
  | _ => false

/-- The kind of the wrapped value, if it is one. An enumeration counts as an integer. -/
def kind? (t : MemberType ι) : Option Kind :=
  match t.core with
  | value k => some k
  | enumeration _ => some .int
  | _ => none

/-- The model of the wrapped object, if it is one. -/
def object? (t : MemberType ι) : Option ι :=
  match t.core with
  | object i => some i
  | _ => none

end MemberType

/-- What kind of member a model has under a name. -/
inductive MemberRole where
  | field
  | property
  | method
  | constructor
  | event
deriving DecidableEq, Repr

/-- Fields and properties hold a value that can be searched. -/
def MemberRole.isAccessible : MemberRole → Bool
  | .field | .property => true
  | _ => false

/-- The part that a member takes in search. -/
structure Attributes where
  isKey : Bool := false
  /-- Takes part in free-text search. -/
  isSearchable : Bool := false
  synonymMaps : List String := []
  /-- The weight in free-text search; zero for none. -/
  boost : Double := Double.zero
  isFilterable : Bool := false
  isSortable : Bool := false
  isFacetable : Bool := false
  /-- Stored as a sub-document of its own. -/
  isNested : Bool := false
  analyzer : Option String := none
  searchAnalyzer : Option String := none
  indexAnalyzer : Option String := none
  forSuggestions : Bool := false
  /-- The boundaries of range facets. -/
  ranges : List Double := []
deriving DecidableEq

/-- A member of a model. Methods, constructors and events have no type. -/
structure Member (ι : Type) where
  name : String
  role : MemberRole
  type? : Option (MemberType ι)
  attributes? : Option Attributes := none
  ignored : Bool := false

namespace Member

variable {ι : Type}

/-- The type of a field or property. -/
def accessibleType? (m : Member ι) : Option (MemberType ι) :=
  if m.role.isAccessible then m.type? else none

/-- Fields and properties are selected unless they are ignored. -/
def isSelectable (m : Member ι) : Bool := m.role.isAccessible && !m.ignored

/-- Whether a member has attributes of which something holds. -/
def hasAttribute (m : Member ι) (p : Attributes → Bool) : Bool := m.attributes?.any p

end Member

/-- A model: its name, the index it is stored in, and its members in order of declaration. -/
structure Model (ι : Type) where
  name : String
  indexName? : Option String := none
  members : List (Member ι) := []

/-- Models that refer to each other. -/
abbrev Family (ι : Type) := ι → Model ι

namespace Model

variable {ι : Type}

def member? (m : Model ι) (name : String) : Option (Member ι) :=
  m.members.find? (·.name == name)

def keys (m : Model ι) : List (Member ι) := m.members.filter (·.hasAttribute (·.isKey))

def keyName? (m : Model ι) : Option String := m.keys.head?.map (·.name)

/-- The members whose attributes satisfy a condition, in order of declaration. -/
def membersWhere (m : Model ι) (p : Attributes → Bool) : List (String × Attributes) :=
  m.members.filterMap fun member =>
    (member.attributes?.filter p).map fun attributes => (member.name, attributes)

def facetable (m : Model ι) : List (String × Attributes) := m.membersWhere (·.isFacetable)

def searchable (m : Model ι) : List (String × Attributes) := m.membersWhere (·.isSearchable)

def filterable (m : Model ι) : List (String × Attributes) := m.membersWhere (·.isFilterable)

def sortable (m : Model ι) : List (String × Attributes) := m.membersWhere (·.isSortable)

def suggesting (m : Model ι) : List (String × Attributes) := m.membersWhere (·.forSuggestions)

/-- The first name of a list that occurs in the list before it. -/
def firstRepeated? (seen : List String) : List String → Option String
  | [] => none
  | n :: ns => if n ∈ seen then some n else firstRepeated? (seen ++ [n]) ns

/-- Checks a model: no two members may have the same name, and at most one may be the key. -/
def check (m : Model ι) : Except ModelError (Model ι) :=
  match firstRepeated? [] (m.members.map (·.name)) with
  | some name => .error (.duplicateMember m.name name)
  | none =>
    match m.keys with
    | first :: second :: _ => .error (.ambiguousKey m.name first.name second.name)
    | _ => .ok m

end Model

end SearchDialect
