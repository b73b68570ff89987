import SearchDialect.Backend
import SearchDialect.Model.Selection
import SearchDialect.OData
import SearchDialect.Request.Basic
import SearchDialect.Settings

/-!
# Queries for Azure

The bodies of search and suggest requests to Azure Search.
-/

namespace SearchDialect.Azure

open Text Number

variable {ι : Type}

/-- What is asked for a facet: the boundaries of its buckets, or their number and order. -/
def facetText (f : Facet) : String :=
  let name := OData.path f.name
  if f.values.isEmpty then
    name ++ ",count:" ++ natText f.count.toNat ++ ",sort:" ++ f.sort
  else name ++ ",values:" ++ joinStrings "|" (f.values.map (·.display))

/-- An ordering, as it is asked for. -/
def orderText (o : OrderBy) : String := OData.path o.property ++ " " ++ o.direction.word

/-- The members that are asked for. -/
def selectText (family : Family ι) (m : Model ι) : String := joinStrings "," (m.selection family)

/-- A member of a body that is left out if there is nothing to say. -/
def memberUnless (empty : Bool) (name : String) (value : Json) : List (String × Json) :=
  if empty then [] else [(name, value)]

/-- The body of a search. The filters are those of the searched model, the members asked for those of
the record's model. -/
def searchBody (family : Family ι) (m record : Model ι) (r : Request) (s : Settings) :
    Except ModelError Json := do
  let filter? ← OData.conjunction family m r.filters
  let profile? := r.profile?.filter (!·.isEmpty)
  return .object <|
    [("search", .str r.text), ("searchMode", .str "any"), ("queryType", .str "full"),
      ("count", .bool true), ("top", .ofUnsigned r.limit), ("skip", .ofUnsigned r.offset),
      ("select", .str (selectText family record)), ("highlightPreTag", .str s.preTag),
      ("highlightPostTag", .str s.postTag)] ++
    memberUnless r.highlight.isEmpty "highlight" (.str (joinStrings "," r.highlight)) ++
    memberUnless r.facets.isEmpty "facets" (.arr (r.facets.map fun f => .str (facetText f))) ++
    memberUnless r.orderBy.isEmpty "orderby"
      (.str (joinStrings "," (r.orderBy.map orderText))) ++
    (filter?.map fun f => ("filter", Json.str f)).toList ++
    (profile?.map fun p => ("scoringProfile", Json.str p)).toList

/-- The header that asks for the name of the search. -/
def searchIdRequest : String × String := ("x-ms-azs-return-searchid", "true")

def search (family : Family ι) (m record : Model ι) (r : Request) (s : Settings) :
    Except ModelError BackendRequest := do
  let body ← searchBody family m record r s
  return { kind := .search, body, headers := [searchIdRequest] }

def suggest (family : Family ι) (m : Model ι) (text suggester : String) (fuzzy : Bool)
    (s : Settings) : BackendRequest where
  kind := .suggest
  body := .object
    [("search", .str text), ("suggesterName", .str suggester), ("fuzzy", .bool fuzzy),
      ("top", .ofUnsigned s.suggestions), ("highlightPreTag", .str s.preTag),
      ("highlightPostTag", .str s.postTag), ("select", .str (selectText family m))]

end SearchDialect.Azure
