import SearchDialect.Backend
import SearchDialect.Elastic.Aggregation
import SearchDialect.Result.Record

/-!
# Answers of Elasticsearch

Hits, total and aggregations in the answers of Elasticsearch. Highlighted fragments are taken as they
are.
-/

namespace SearchDialect.Elastic

open Number Json

variable {ι : Type}

/-- The total of an answer's hits: a number, or an object that holds one. -/
def total? (hits : Json) : Option Int64 :=
  match hits.get? "total" with
  | none => none
  | some (.int i) => int64? i
  | some j => (j.get? "value").bind (·.integer?)

/-- The hits of an answer. A missing list of hits is empty. -/
def hitItems (hits : Json) : Except QueryError (List Json) :=
  match hits.get? "hits" with
  | some (.arr items) => .ok items
  | some _ => .error (.malformed .hitsNotAList)
  | none => .ok []

def highlights (hit : Json) : List (String × List String) :=
  match hit.get? "highlight" with
  | some (.obj fields) =>
    fields.map fun f => (f.1, (f.2.items?.getD []).filterMap (·.string?))
  | _ => []

def hit {α : Type} (decode : Decoder α) (keyName? : Option String) (position : Nat) (j : Json) :
    Except QueryError (Hit α) :=
  match j.get? "_source" with
  | none => .error (.malformed (.noSource position))
  | some source => do
    let record ← readRecord decode keyName? position source
    return {
      score := ((j.get? "_score").bind (·.number?)).getD Double.zero
      highlights := highlights j
      record }

def hits {α : Type} (decode : Decoder α) (keyName? : Option String) (position : Nat) :
    List Json → Except QueryError (List (Hit α))
  | [] => .ok []
  | j :: js => do
    let h ← hit decode keyName? position j
    let hs ← hits decode keyName? (position + 1) js
    return h :: hs

def facets (family : Family ι) (m : Model ι) (r : Request) (body : Json) :
    Report (List (String × List Bucket)) :=
  match body.get? "aggregations" with
  | none => return []
  | some answer => facetsFrom family m answer [] r.facets

def result {α : Type} (decode : Decoder α) (family : Family ι) (m : Model ι) (r : Request)
    (indexName : String) (reply : BackendReply) : Report (ResultPage α) := do
  let found ← Report.ofExcept (match reply.body.get? "hits" with
    | some j => .ok j
    | none => .error (.malformed .noHits))
  let items ← Report.ofExcept (hitItems found)
  let hits ← Report.ofExcept (hits decode m.keyName? 0 items)
  let facets ← facets family m r reply.body
  return { indexName, hits, total? := some (normalizeTotal (total? found)), facets }

end SearchDialect.Elastic
