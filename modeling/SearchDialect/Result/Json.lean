import SearchDialect.Result.Basic

/-!
# Results as JSON

Stored results are read back from JSON. The counts, bounds and sums of a bucket may be absent, as
may the name of the search and the total.
-/

namespace SearchDialect

open Json

/-! ## Writing -/

/-- An optional integer: null if there is none. -/
def Json.ofInteger? : Option Int64 → Json
  | none => .null
  | some i => .int i.toInt

def Bucket.toJson (b : Bucket) : Json :=
  .object [("value", b.value?.getD .null), ("count", .ofInteger? b.count?),
    ("from", .ofDouble? b.from?), ("to", .ofDouble? b.to?),
    ("sum_by_field", .ofString? b.sumField?), ("sum_by_value", .ofDouble? b.sum?)]

def Hit.toJson (h : Hit Json) : Json :=
  .object [("score", .ofDouble h.score),
    ("highlights", .obj (h.highlights.map fun f => (f.1, .arr (f.2.map .str)))),
    ("record", h.record)]

def ResultPage.toJson (r : ResultPage Json) : Json :=
  .object [("search_id", .ofString? r.searchId?), ("index_name", .str r.indexName),
    ("records", .arr (r.hits.map Hit.toJson)), ("total_records_found", .ofInteger? r.total?),
    ("facets_stats", .obj (r.facets.map fun f => (f.1, .arr (f.2.map Bucket.toJson))))]

def Suggestion.toJson (s : Suggestion Json) : Json :=
  .object [("record", s.record), ("text_with_highlights", .str s.text)]

/-! ## Reading -/

/-- A member that may be absent or null. -/
def optionalMember? {α : Type} (name : String) (read? : Written → Option α)
    (members : List (String × Written)) : Option (Option α) :=
  match lookup name members with
  | none => some none
  | some w => Written.nullable? read? w

/-- The depth that is left for a value inside `n` containers. -/
def depthInside (n : Nat) : Nat := maxDepth - n

def Bucket.ofWritten? (w : Written) : Option Bucket := do
  let ms ← w.allFields? ["value", "count", "from", "to", "sum_by_field", "sum_by_value"]
  let value? ← optionalMember? "value" (Written.toJson? (depthInside 4)) ms
  let count? ← optionalMember? "count" Written.integer? ms
  let from? ← optionalMember? "from" Written.double? ms
  let to? ← optionalMember? "to" Written.double? ms
  let sumField? ← optionalMember? "sum_by_field" Written.text? ms
  let sum? ← optionalMember? "sum_by_value" Written.double? ms
  return { value?, count?, from?, to?, sumField?, sum? }

def Hit.ofWritten? (w : Written) : Option (Hit Json) := do
  let ms ← w.allFields? ["score", "highlights", "record"]
  let score ← (lookup "score" ms).bind Written.double?
  let highlights ← (lookup "highlights" ms).bind (Written.map? (Written.list? Written.text?))
  let record ← (lookup "record" ms).bind (Written.toJson? (depthInside 3))
  return { score, highlights, record }

def ResultPage.ofWritten? (w : Written) : Option (ResultPage Json) := do
  let ms ← w.allFields?
    ["search_id", "index_name", "records", "total_records_found", "facets_stats"]
  let searchId? ← optionalMember? "search_id" Written.text? ms
  let indexName ← (lookup "index_name" ms).bind Written.text?
  let hits ← (lookup "records" ms).bind (Written.list? Hit.ofWritten?)
  let total? ← optionalMember? "total_records_found" Written.integer? ms
  let facets ← (lookup "facets_stats" ms).bind (Written.map? (Written.list? Bucket.ofWritten?))
  return { searchId?, indexName, hits, total?, facets }

/-- Reads a stored result. -/
def ResultPage.read? (cs : List Char) : Option (ResultPage Json) :=
  (Written.read? cs).bind ofWritten?

end SearchDialect
