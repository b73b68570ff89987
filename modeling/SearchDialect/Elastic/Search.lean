import SearchDialect.Backend
import SearchDialect.Elastic.Aggregation
import SearchDialect.Settings

/-!
# Queries for Elasticsearch

The body of a search: the free text has to match, the clauses of the filters have to hold, and sort,
aggregations and highlights are asked for beside it.
-/

namespace SearchDialect.Elastic

open Number

variable {ι : Type}

/-- A property of free-text search, with its weight if it has one. -/
def weightedField (name : String) (a : Attributes) : String :=
  if Double.lt Double.zero a.boost then name ++ "^" ++ a.boost.display else name

/-- The query for the free text. -/
def textQuery (m : Model ι) (r : Request) : Json :=
  if r.matchesAll then .object [("match_all", .object [])]
  else
    let fields := m.searchable.map fun p => Json.str (weightedField p.1 p.2)
    .object [("query_string", .object
      (("query", .str r.text) :: (if fields.isEmpty then [] else [("fields", .arr fields)])))]

/-- The queries for the clauses of filters. -/
def clauseQueries (cs : Lucene.Clauses) : List Json :=
  cs.root?.toList.map queryString ++
    cs.nested.map fun c =>
      .object [("nested", .object [("path", .str c.1), ("query", queryString c.2)])]

/-- The fields to highlight: those of free-text search and those requested. -/
def highlightFields (m : Model ι) (r : Request) : List (String × Json) :=
  (m.searchable.map (·.1) ++ r.highlight).map fun name => (name, .object [])

def highlightOptions (fields : List (String × Json)) (s : Settings) : Json :=
  .object [("pre_tags", .arr [.str s.preTag]), ("post_tags", .arr [.str s.postTag]),
    ("number_of_fragments", .int 0), ("encoder", .str "html"), ("fields", .object fields)]

def searchBody (family : Family ι) (m : Model ι) (r : Request) (s : Settings) :
    Except ModelError Json := do
  let clauses ← Lucene.clauses family m r.filters
  let filters := clauseQueries clauses
  let aggregations? ← aggregations family m r.facets clauses
  let sort := r.orderBy.map fun o =>
    Json.object [(o.property, .object [("order", .str o.direction.word)])]
  let fields := highlightFields m r
  return .object <|
    [("from", .ofUnsigned r.offset), ("size", .ofUnsigned r.limit),
      ("query", .object [("bool", .object
        (("must", .arr [textQuery m r]) ::
          (if filters.isEmpty then [] else [("filter", .arr filters)])))])] ++
    (if sort.isEmpty then [] else [("sort", .arr sort)]) ++
    (aggregations?.map fun a => ("aggs", a)).toList ++
    (if fields.isEmpty then [] else [("highlight", highlightOptions fields s)])

def search (family : Family ι) (m : Model ι) (r : Request) (s : Settings) :
    Except ModelError BackendRequest := do
  let body ← searchBody family m r s
  return { kind := .search, body }

end SearchDialect.Elastic
