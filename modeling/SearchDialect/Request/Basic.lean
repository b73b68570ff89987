import SearchDialect.Filter.Basic
import SearchDialect.Request.Facet
import SearchDialect.Request.OrderBy
import SearchDialect.Text.Blank

/-!
# Requests

What is asked of a search backend, without regard to its query language.
-/

namespace SearchDialect

/-- A search request. -/
structure Request where
  /-- The number of records to return. -/
  limit : UInt64 := 50
  /-- The number of records to pass over. -/
  offset : UInt64 := 0
  /-- Free text; a star matches every document. -/
  text : String := "*"
  orderBy : List OrderBy := []
  /-- The fields to highlight, each once. -/
  highlight : List String := []
  /-- The name of a scoring profile. -/
  profile? : Option String := none
  facets : List Facet := []
  /-- Filters that all have to hold. -/
  filters : List Filter := []
deriving Inhabited

namespace Request

/-- Adds an ordering, or changes the direction of the one of the same property. -/
def withOrderBy (r : Request) (o : OrderBy) : Request :=
  { r with orderBy := o.insert r.orderBy }

/-- Adds orderings one after the other. -/
def withOrderings (r : Request) (os : List OrderBy) : Request :=
  { r with orderBy := OrderBy.insertAll os r.orderBy }

/-- Adds a field to highlight, unless it is there already. -/
def withHighlight (r : Request) (field : String) : Request :=
  if field ∈ r.highlight then r else { r with highlight := r.highlight ++ [field] }

def withFacet (r : Request) (f : Facet) : Request := { r with facets := r.facets ++ [f] }

def withFilter (r : Request) (f : Filter) : Request := { r with filters := r.filters ++ [f] }

/-- Whether the free text matches every document: nothing or a star, between blanks. -/
def matchesAll (r : Request) : Bool :=
  let t := Text.trim r.text.toList
  t.isEmpty || t == ['*']

end Request

end SearchDialect
