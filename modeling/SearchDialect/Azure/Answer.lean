import SearchDialect.Backend
import SearchDialect.OData
import SearchDialect.Request.Basic
import SearchDialect.Result.Basic
import SearchDialect.Result.Record
import SearchDialect.Settings
import SearchDialect.Text.Replace

/-!
# Answers of Azure

Hits, facets and suggestions in the answers of Azure Search. A hit is its document, beside which
members that start with `@search.` tell score, highlights and the like. A highlighted fragment is
put back into the whole text of its field.
-/

namespace SearchDialect.Azure

open Text Number Json

def documents (body : Json) : Except QueryError (List Json) :=
  match body.get? "value" with
  | some (.arr items) => .ok items
  | some _ => .error (.malformed .valueNotAList)
  | none => .error (.malformed .noValue)

/-- The members of a document apart from those of the search. -/
def ownMembers (members : List (String × Json)) : List (String × Json) :=
  members.filter fun m => (afterWord? "@search.".toList m.1.toList).isNone

def without (name : String) (members : List (String × Json)) : List (String × Json) :=
  members.filter fun m => m.1 != name

/-! ## Highlights -/

/-- The text of a field, whose path has slashes between its names. -/
def fieldText? (members : List (String × Json)) (field : String) : Option String :=
  let found? := (splitString '/' field).foldl
    (fun (j? : Option Json) name => j?.bind (Json.get? name)) (some (Json.obj members))
  found?.bind (·.string?)

/-- A text with a highlighted fragment in place of the same fragment without its tags. -/
def highlightIn (preTag postTag text fragment : String) : String :=
  let plain := replaceString postTag "" (replaceString preTag "" fragment)
  if plain.isEmpty then text else replaceString plain fragment text

/-- The texts of a list; nothing if it is no list. -/
def stringItems (j : Json) : List String := (j.items?.getD []).filterMap (·.string?)

/-- The highlighted form of a field: its whole text with all fragments highlighted. A field that is
no text in the document keeps its fragments. -/
def expandField (s : Settings) (members : List (String × Json)) (field : String)
    (fragments : List String) : Report (String × List String) :=
  match fieldText? members field with
  | none => do
    Report.note (.noHighlightedText field)
    return (field, fragments)
  | some text => return (field, [fragments.foldl (highlightIn s.preTag s.postTag) text])

/-- The highlighted forms of fields, one after the other. -/
def expandFields (s : Settings) (members : List (String × Json)) :
    List (String × Json) → Report (List (String × List String))
  | [] => return []
  | (field, fragments) :: rest => do
    let f ← expandField s members field (stringItems fragments)
    let fs ← expandFields s members rest
    return f :: fs

def highlights (s : Settings) (members : List (String × Json)) :
    Option Json → Report (List (String × List String))
  | some (.obj fields) => expandFields s members fields
  | _ => return []

/-! ## Hits -/

def hit {α : Type} (decode : Decoder α) (keyName? : Option String) (s : Settings)
    (position : Nat) : Json → Report (Hit α)
  | .obj members => do
    let score := ((lookup "@search.score" members).bind (·.number?)).getD Double.zero
    let rest := without "@search.highlights" (without "@search.score" members)
    let highlights ← highlights s rest (lookup "@search.highlights" members)
    let record ← Report.ofExcept
      (readRecord decode keyName? position (.obj (ownMembers members)))
    return { score, highlights, record }
  | _ => Report.fail (.malformed (.resultNotAnObject position))

def hits {α : Type} (decode : Decoder α) (keyName? : Option String) (s : Settings)
    (position : Nat) : List Json → Report (List (Hit α))
  | [] => return []
  | item :: items => do
    let h ← hit decode keyName? s position item
    let hs ← hits decode keyName? s (position + 1) items
    return h :: hs

/-! ## Facets -/

def bucket (j : Json) : Bucket where
  value? := (j.get? "value").filter fun v => match v with
    | .null => false
    | _ => true
  count? := (j.get? "count").bind (·.integer?)
  from? := (j.get? "from").bind (·.number?)
  to? := (j.get? "to").bind (·.number?)

/-- The first requested facet that is asked for under a name. -/
def requested? (r : Request) (name : String) : Option String :=
  (r.facets.map (·.name)).find? fun f => OData.path f == name

/-- The buckets of facets, under the names by which they were requested. -/
def facetsFrom (r : Request) (found : List (String × List Bucket)) :
    List (String × Json) → Report (List (String × List Bucket))
  | [] => return found
  | (name, buckets) :: rest =>
    match requested? r name with
    | none => do
      Report.note (.unrequestedFacet name)
      facetsFrom r found rest
    | some facet =>
      facetsFrom r (insertMember facet ((buckets.items?.getD []).map bucket) found) rest

def facets (r : Request) (body : Json) : Report (List (String × List Bucket)) :=
  match body.get? "@search.facets" with
  | some (.obj members) => facetsFrom r [] members
  | _ => return []

/-! ## Answers -/

/-- The header that names the search. -/
def searchIdHeader : String := "x-ms-azs-searchid"

def result {α : Type} (decode : Decoder α) (keyName? : Option String) (r : Request)
    (s : Settings) (indexName : String) (reply : BackendReply) : Report (ResultPage α) := do
  let items ← Report.ofExcept (documents reply.body)
  let hits ← hits decode keyName? s 0 items
  let facets ← facets r reply.body
  return {
    searchId? := reply.header? searchIdHeader
    indexName
    hits
    total? := some (normalizeTotal ((reply.body.get? "@odata.count").bind (·.integer?)))
    facets }

def suggestion {α : Type} (decode : Decoder α) (keyName? : Option String) (position : Nat) :
    Json → Except QueryError (Suggestion α)
  | .obj members => do
    let record ← readRecord decode keyName? position (.obj (ownMembers members))
    return ⟨record, ((lookup "@search.text" members).bind (·.string?)).getD ""⟩
  | _ => .error (.malformed (.suggestionNotAnObject position))

def suggestionsFrom {α : Type} (decode : Decoder α) (keyName? : Option String) (position : Nat) :
    List Json → Except QueryError (List (Suggestion α))
  | [] => .ok []
  | item :: items => do
    let s ← suggestion decode keyName? position item
    let ss ← suggestionsFrom decode keyName? (position + 1) items
    return s :: ss

def suggestions {α : Type} (decode : Decoder α) (keyName? : Option String)
    (reply : BackendReply) : Except QueryError (List (Suggestion α)) := do
  let items ← documents reply.body
  suggestionsFrom decode keyName? 0 items

end SearchDialect.Azure
