import SearchDialect.Literal.Basic

/-!
# Filters

A filter compares one property with a literal and is joined to further filters by links, each with a
connective. A filter without a property is no condition of its own: it only holds a tag or links.
-/

namespace SearchDialect

/-- How a property is compared with a literal. -/
inductive Comparison where
  | eq
  | ne
  | gt
  | ge
  | lt
  | le
deriving DecidableEq, Repr

namespace Comparison

def word : Comparison → String
  | eq => "eq"
  | ne => "ne"
  | gt => "gt"
  | ge => "ge"
  | lt => "lt"
  | le => "le"

/-- The symbol of a comparison in predicates. -/
def symbol : Comparison → String
  | eq => "=="
  | ne => "!="
  | gt => ">"
  | ge => ">="
  | lt => "<"
  | le => "<="

def all : List Comparison := [eq, ne, gt, ge, lt, le]

def ofWord (w : String) : Except FormatError Comparison :=
  match all.find? (·.word == w) with
  | some c => .ok c
  | none => .error (.invalidShape (.unknownWord .comparison w))

end Comparison

/-- How a filter is joined to the next one. -/
inductive Connective where
  | and
  | or
deriving DecidableEq, Repr

namespace Connective

def word : Connective → String
  | and => "and"
  | or => "or"

def ofWord (w : String) : Except FormatError Connective :=
  if w = "and" then .ok and
  else if w = "or" then .ok or
  else .error (.invalidShape (.unknownWord .connective w))

end Connective

/-- A condition `property comparison value` with links to further filters. -/
inductive Filter where
  /-- A filter of its property, comparison, value, tag, visibility and links. The property is a
  dotted path; it is empty if the filter holds no condition of its own. The tag tells a filter from
  others, and the visibility whether users are shown the filter. -/
  | node (property : String) (comparison : Comparison) (value : Literal) (tag? : Option String)
      (visible : Bool) (links : List (Connective × Filter))

instance : Inhabited Filter := ⟨.node "" .eq .null none true []⟩

namespace Filter

/-- The path of the property; empty for a filter without a condition. -/
def property : Filter → String
  | node p _ _ _ _ _ => p

def comparison : Filter → Comparison
  | node _ c _ _ _ _ => c

def value : Filter → Literal
  | node _ _ v _ _ _ => v

/-- The name by which the filter is found again. -/
def tag? : Filter → Option String
  | node _ _ _ t _ _ => t

/-- Whether users are shown the filter. -/
def visible : Filter → Bool
  | node _ _ _ _ vi _ => vi

/-- The filters joined to this one, in order. -/
def links : Filter → List (Connective × Filter)
  | node _ _ _ _ _ ls => ls

/-- A visible condition without tag and links. -/
def condition (property : String) (comparison : Comparison) (value : Literal) : Filter :=
  node property comparison value none true []

/-- Whether a filter holds no condition of its own. -/
def isBlank (f : Filter) : Bool := f.property.isEmpty

/-- A filter with one more link at its end. -/
def link (f : Filter) (c : Connective) (g : Filter) : Filter :=
  node f.property f.comparison f.value f.tag? f.visible (f.links ++ [(c, g)])

mutual

/-- A filter and all filters that its links lead to, depth first. -/
def walk : Filter → List Filter
  | node p c v t vi ls => node p c v t vi ls :: walkLinks ls

/-- All filters that some links lead to, depth first. -/
def walkLinks : List (Connective × Filter) → List Filter
  | [] => []
  | (_, f) :: ls => walk f ++ walkLinks ls

end

end Filter

end SearchDialect
