import SearchDialect.Json.Fields

/-!
# Results

What a search gives, in the same form for every backend: scored records with highlighted fields, and
the buckets of facets.
-/

namespace SearchDialect

open Number Json

/-- A bucket of a facet: of a term or of a range. -/
structure Bucket where
  /-- The term. -/
  value? : Option Json := none
  count? : Option Int64 := none
  /-- The lower end of the range. -/
  from? : Option Double := none
  /-- The upper end of the range. -/
  to? : Option Double := none
  /-- The property that is summed in the bucket. -/
  sumField? : Option String := none
  sum? : Option Double := none
deriving Inhabited

namespace Bucket

def term (value : Json) (count? : Option Int64) : Bucket := { value? := some value, count? }

def range (from? to? : Option Double) (count? : Option Int64) : Bucket := { from?, to?, count? }

def isRange (b : Bucket) : Bool := b.from?.isSome || b.to?.isSome

end Bucket

/-- A record that was found. -/
structure Hit (α : Type) where
  score : Double
  /-- The highlighted fragments of fields, in order of the fields. -/
  highlights : List (String × List String)
  record : α

def Hit.highlighted? {α : Type} (h : Hit α) (field : String) : Option String :=
  (lookup field h.highlights).bind (·.head?)

/-- The result of a search. -/
structure ResultPage (α : Type) where
  /-- The name that the backend gave to the search. -/
  searchId? : Option String := none
  indexName : String
  hits : List (Hit α) := []
  /-- The number of records that match in all. -/
  total? : Option Int64 := some 0
  /-- The buckets of facets, in order of the facets' names. -/
  facets : List (String × List Bucket) := []

def ResultPage.facet? {α : Type} (r : ResultPage α) (name : String) : Option (List Bucket) :=
  lookup name r.facets

/-- A suggested record. -/
structure Suggestion (α : Type) where
  record : α
  /-- The suggested text with its matches highlighted. -/
  text : String

/-- The total of a backend's answer: a count that is missing or negative is unknown, and taken for
zero. -/
def normalizeTotal (total? : Option Int64) : Int64 := (total?.filter (0 ≤ ·)).getD 0

/-- A number as a 64-bit integer, if it is written as one. -/
def Json.integer? : Json → Option Int64
  | .int i => int64? i
  | _ => none

end SearchDialect
