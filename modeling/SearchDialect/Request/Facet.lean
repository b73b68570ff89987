import SearchDialect.Json.Basic

/-!
# Requested facets
-/

namespace SearchDialect

open Number

/-- A facet to be counted beside the hits. -/
structure Facet where
  /-- The path of the property. -/
  name : String
  /-- The order of the buckets; by count the largest come first. -/
  sort : String := "count"
  /-- The largest number of buckets. -/
  count : UInt64 := 1000
  /-- The boundaries of the buckets, if they are given. -/
  values : List Double := []
  /-- The property that is summed in each bucket. -/
  sumField? : Option String := none
deriving DecidableEq

namespace Facet

def toJson (f : Facet) : Json :=
  .object [("facet_name", .str f.name), ("sort", .str f.sort), ("count", .ofUnsigned f.count),
    ("values", .arr (f.values.map .ofDouble)), ("sum_by_field", .ofString? f.sumField?)]

end Facet

end SearchDialect
