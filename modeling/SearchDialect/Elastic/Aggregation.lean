import SearchDialect.Lucene.Clauses
import SearchDialect.Request.Basic
import SearchDialect.Result.Report
import SearchDialect.Result.Basic

/-!
# Facets as aggregations

A facet is asked for as an aggregation of Elasticsearch: by ranges if boundaries are known, by terms
otherwise. A facet on nested documents is wrapped in an aggregation of those documents, filtered by
the clause on their path, and counts the documents around them.
-/

namespace SearchDialect.Elastic

open Number Json

variable {ι : Type}

/-- The name of the aggregation that filters nested documents. -/
def filteredName : String := "filtered"

/-- The name of the aggregation that counts the documents around nested ones. -/
def rootName : String := "to_root"

/-- The boundaries of a facet's ranges: those declared for the property, else those requested. -/
def facetRanges (family : Family ι) (m : Model ι) (f : Facet) : Except ModelError (List Double) := do
  let attributes? ← m.attributesAt family f.name
  let declared := (attributes?.map (·.ranges)).getD []
  return if declared.isEmpty then f.values else declared

/-! ## Asking -/

/-- The range from one boundary up to the next; without a first boundary it has no lower end. -/
structure Range where
  from? : Option Double
  upTo : Double
deriving DecidableEq

/-- The ranges that end at some boundaries and start where the one before ends. -/
def rangesAfter (from? : Option Double) : List Double → List Range
  | [] => []
  | b :: bs => ⟨from?, b⟩ :: rangesAfter (some b) bs

/-- The ranges of some boundaries: one ending at each, the first without a lower end. -/
def ranges (boundaries : List Double) : List Range := rangesAfter none boundaries

def Range.toJson (r : Range) : Json :=
  .object ((r.from?.map fun d => ("from", Json.ofDouble d)).toList ++ [("to", .ofDouble r.upTo)])

def queryString (text : String) : Json :=
  .object [("query_string", .object [("query", .str text)])]

/-- The aggregations inside a facet's buckets. -/
def innerAggregations (f : Facet) (byTerm nested : Bool) : List (String × Json) :=
  let root := if nested then [(rootName, .object [("reverse_nested", .object [])])] else []
  let sum := if byTerm then
      f.sumField?.toList.map fun field =>
        (field, .object [("sum", .object [("field", .str field)])])
    else []
  root ++ sum

/-- The aggregation that forms a facet's buckets. -/
def leafAggregation (f : Facet) (boundaries : List Double) (nested : Bool) : Json :=
  let byTerm := boundaries.isEmpty
  let inner := innerAggregations f byTerm nested
  let own :=
    if byTerm then
      ("terms", Json.object [("field", .str f.name), ("size", .ofUnsigned f.count),
        ("order", .object [("_count", .str "desc")])])
    else
      ("range", Json.object [("field", .str f.name),
        ("ranges", .arr ((ranges boundaries).map Range.toJson))])
  .object (own :: (if inner.isEmpty then [] else [("aggs", .object inner)]))

def aggregation (f : Facet) (boundaries : List Double) (clauses : Lucene.Clauses) : Json :=
  match Lucene.nestedPath? f.name with
  | none => leafAggregation f boundaries false
  | some path =>
    let filter := match clauses.at? path with
      | some query => queryString query
      | none => .object [("match_all", .object [])]
    .object [("nested", .object [("path", .str path)]),
      ("aggs", .object [(filteredName, .object [("filter", filter),
        ("aggs", .object [(f.name, leafAggregation f boundaries true)])])])]

/-- The aggregations of some facets by the facets' names, the last of each name; none without
facets. -/
def aggregations (family : Family ι) (m : Model ι) (facets : List Facet)
    (clauses : Lucene.Clauses) : Except ModelError (Option Json) := do
  let members ← facets.mapM fun f => do
    let boundaries ← facetRanges family m f
    return (f.name, aggregation f boundaries clauses)
  return if members.isEmpty then none else some (.object members)

/-! ## Reading -/

/-- The number of documents in a bucket: of those around nested ones if they are counted. -/
def bucketCount? (j : Json) : Option Int64 :=
  (((j.get? rootName).bind (·.get? "doc_count")).or (j.get? "doc_count")).bind (·.integer?)

/-- The bucket of a JSON value, for a facet by ranges or by terms. -/
def bucket (f : Facet) (byRange : Bool) (j : Json) : Bucket :=
  let count? := bucketCount? j
  if byRange then
    .range ((j.get? "from").bind (·.number?)) ((j.get? "to").bind (·.number?)) count?
  else
    let b := Bucket.term ((j.get? "key").getD .null) count?
    match f.sumField? with
    | none => b
    | some field =>
      { b with
        sumField? := some field
        sum? := ((j.get? field).bind (·.get? "value")).bind (·.number?) }

/-- The buckets of an aggregation: a list, or an object of buckets by name. -/
def bucketItems : Json → List Json
  | .arr items => items
  | .obj members => members.map (·.2)
  | _ => []

/-- The buckets that an answer holds for a facet. -/
def facetBuckets? (f : Facet) (outer : Json) : Option Json :=
  let leaf? := match Lucene.nestedPath? f.name with
    | none => some outer
    | some _ => (outer.get? filteredName).bind (·.get? f.name)
  leaf?.bind (·.get? "buckets")

/-- Whether a facet is formed by ranges. -/
def isByRange (family : Family ι) (m : Model ι) (f : Facet) : Bool :=
  match facetRanges family m f with
  | .ok boundaries => !boundaries.isEmpty
  | .error _ => false

/-- The buckets of facets in the aggregations of an answer. -/
def facetsFrom (family : Family ι) (m : Model ι) (answer : Json)
    (found : List (String × List Bucket)) : List Facet → Report (List (String × List Bucket))
  | [] => return found
  | f :: fs =>
    match answer.get? f.name with
    | none => do
      Report.note (.noAggregation f.name)
      facetsFrom family m answer found fs
    | some outer =>
      match facetBuckets? f outer with
      | none => do
        Report.note (.noBuckets f.name)
        facetsFrom family m answer found fs
      | some buckets =>
        let parsed := (bucketItems buckets).map (bucket f (isByRange family m f))
        facetsFrom family m answer (insertMember f.name parsed found) fs

end SearchDialect.Elastic
