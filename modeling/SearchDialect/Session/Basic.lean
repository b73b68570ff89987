import SearchDialect.Platform
import SearchDialect.Session.Cache

/-!
# Sessions

A session runs queries and suggestions from end to end: it resolves the handle on the index, sends
the request, checks the reply and reads it. Its only state is the cache of handles. Who resolves
handles and who carries requests are parameters, so a call is a function of what they answer.
-/

namespace SearchDialect

/-- What comes back for a request: a reply, a fault, or nothing within the time allowed. -/
inductive Outcome where
  | reply (reply : BackendReply)
  | failed (error : BackendError)
  | silent

/-- Carries a request to an index. -/
abbrev Executor := Handle → BackendRequest → Outcome

/-- A search session. -/
structure Session where
  platform : Platform
  settings : Settings := {}
  cache : HandleCache := {}

/-- What a call of a session does and gives. -/
structure Call (α : Type) where
  result : Except Error α
  /-- The cache afterwards. -/
  cache : HandleCache
  /-- Whether the resolver was asked. -/
  asked : Bool := false
  /-- The request that was sent, and to which index. -/
  sent? : Option (Handle × BackendRequest) := none
  notes : List Note := []

namespace Session

variable {ι : Type} {α : Type}

/-- The name of the index that a model is searched in: its declared index, or else its own name,
mapped by the settings. -/
def indexName (s : Session) (m : Model ι) : String :=
  s.settings.indexName (m.indexName?.getD m.name)

/-- The text of a rejected reply's body. -/
def bodyText : Json → String
  | .str text => text
  | j => j.text

/-- The reply to a request to an index, if it came in time and tells success. -/
def receive (s : Session) (h : Handle) : Outcome → Except QueryError BackendReply
  | .silent => .error (.timeout s.settings.timeout)
  | .failed e => .error (e.toQueryError h.name)
  | .reply r => if r.isSuccess then .ok r else .error (.rejected r.status (bodyText r.body))

/-- The note on an answered query, if the settings ask for one. -/
def answerNotes (s : Session) (r : Request) (page : ResultPage α) : List Note :=
  if s.settings.track then
    [.answered page.indexName page.searchId? r.text (page.total?.getD 0) r.profile?]
  else []

/-- Searches the index of a model for records of another model. -/
def query (s : Session) (resolver : Resolver) (execute : Executor) (decode : Decoder α)
    (family : Family ι) (m record : Model ι) (r : Request) : Call (ResultPage α) :=
  let found := s.cache.resolve resolver (s.indexName m)
  match found.handle with
  | .error e => { result := .error (.query e), cache := found.cache, asked := found.asked }
  | .ok h =>
    match s.platform.search family m record r s.settings with
    | .error e => { result := .error e, cache := found.cache, asked := found.asked }
    | .ok request =>
      let call (result : Except Error (ResultPage α)) (notes : List Note) : Call (ResultPage α) :=
        { result, cache := found.cache, asked := found.asked, sent? := some (h, request), notes }
      match s.receive h (execute h request) with
      | .error e => call (.error (.query e)) []
      | .ok reply =>
        let report := s.platform.result decode family m r s.settings h.name reply
        match report.result with
        | .error e => call (.error (.query e)) report.notes
        | .ok page => call (.ok page) (report.notes ++ s.answerNotes r page)

/-- Asks for suggestions from the index of a model. -/
def suggest (s : Session) (resolver : Resolver) (execute : Executor) (decode : Decoder α)
    (family : Family ι) (m : Model ι) (text suggester : String) (fuzzy : Bool) :
    Call (List (Suggestion α)) :=
  match s.platform.suggest family m text suggester fuzzy s.settings with
  | .error e => { result := .error (.query e), cache := s.cache }
  | .ok request =>
    let found := s.cache.resolve resolver (s.indexName m)
    match found.handle with
    | .error e => { result := .error (.query e), cache := found.cache, asked := found.asked }
    | .ok h =>
      let result := (s.receive h (execute h request)).bind (s.platform.suggestions decode m)
      { result := result.mapError .query
        cache := found.cache
        asked := found.asked
        sent? := some (h, request) }

end Session

end SearchDialect
