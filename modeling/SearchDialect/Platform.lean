import SearchDialect.Azure.Answer
import SearchDialect.Azure.Search
import SearchDialect.Elastic.Answer
import SearchDialect.Elastic.Search
import SearchDialect.Error

/-!
# Platforms

The search backends that requests can be translated for, behind one set of functions.
-/

namespace SearchDialect

/-- A search backend. -/
inductive Platform where
  | azure
  | elastic
deriving DecidableEq, Repr

namespace Platform

variable {ι : Type} {α : Type}

def name : Platform → String
  | azure => "azure"
  | elastic => "elasticsearch"

/-- The search for a request over a model, with records of another model. -/
def search (p : Platform) (family : Family ι) (m record : Model ι) (r : Request) (s : Settings) :
    Except Error BackendRequest :=
  (match p with
    | azure => Azure.search family m record r s
    | elastic => Elastic.search family m r s).mapError .model

def result (p : Platform) (decode : Decoder α) (family : Family ι) (m : Model ι) (r : Request)
    (s : Settings) (indexName : String) (reply : BackendReply) : Report (ResultPage α) :=
  match p with
  | azure => Azure.result decode m.keyName? r s indexName reply
  | elastic => Elastic.result decode family m r indexName reply

/-- The fault that a platform makes no suggestions. -/
def noSuggestions (p : Platform) : QueryError := .unsupported p.name "suggest"

def suggest (p : Platform) (family : Family ι) (m : Model ι) (text suggester : String)
    (fuzzy : Bool) (s : Settings) : Except QueryError BackendRequest :=
  match p with
  | azure => .ok (Azure.suggest family m text suggester fuzzy s)
  | elastic => .error p.noSuggestions

def suggestions (p : Platform) (decode : Decoder α) (m : Model ι) (reply : BackendReply) :
    Except QueryError (List (Suggestion α)) :=
  match p with
  | azure => Azure.suggestions decode m.keyName? reply
  | elastic => .error p.noSuggestions

end Platform

end SearchDialect
