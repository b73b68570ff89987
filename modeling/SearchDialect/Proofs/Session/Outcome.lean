import Mathlib.Order.Interval.Set.Defs
import SearchDialect.Proofs.Outcome
import SearchDialect.Proofs.Session.Calls

/-!
# How calls end

A query resolves the handle on its index before it builds its request, a call for suggestions builds
before it resolves, and both send one request at most. `QueryEnds` and `SuggestEnds` say how a call
ends by the first step that fails, and `Touches` what a call has to do with its resolver, its
executor and the cache, however it ends (`outcome_of_calls`).
-/

namespace SearchDialect

/-! ## Handles -/

namespace HandleCache

/-- The handle on an index: the one that is kept, or else what the resolver answers. -/
def handleOf (c : HandleCache) (resolver : Resolver) (name : String) : Except QueryError Handle :=
  match c.get? name with
  | some h => .ok h
  | none => resolver name

theorem handle_resolve (c : HandleCache) (resolver : Resolver) (name : String) :
    (c.resolve resolver name).handle = c.handleOf resolver name := by
  rw [handleOf]
  rcases c.resolve_cases resolver name with ⟨h, hget, hfound⟩ | ⟨e, hget, he, hfound⟩ |
    ⟨h, hget, hh, hfound⟩
  · rw [hfound, hget]
  · rw [hfound, hget, he]
  · rw [hfound, hget, hh]

/-- Where a name is kept the resolver plays no part; else only its answer for the name does. -/
theorem resolve_congr {c : HandleCache} {resolver resolver' : Resolver} {name : String}
    (h : (c.resolve resolver name).asked = true → resolver' name = resolver name) :
    c.resolve resolver' name = c.resolve resolver name := by
  cases hget : c.get? name with
  | some handle => rw [resolve, resolve, hget]
  | none =>
    have hasked : (c.resolve resolver name).asked = true := by
      rw [resolve, hget]
      cases resolver name <;> rfl
    rw [resolve, resolve, h hasked]

theorem not_kept_of_asked {c : HandleCache} {resolver : Resolver} {name : String}
    (h : (c.resolve resolver name).asked = true) : c.get? name = none := by
  rcases c.resolve_cases resolver name with ⟨handle, -, hfound⟩ | ⟨_, hget, -⟩ | ⟨_, hget, -⟩
  · rw [hfound] at h
    cases h
  · exact hget
  · exact hget

theorem cache_resolve_cases {c : HandleCache} {resolver : Resolver} {name : String} :
    (c.resolve resolver name).cache = c ∨ ∃ h, (c.resolve resolver name).asked = true ∧
      resolver name = .ok h ∧ (c.resolve resolver name).cache = c.insert name h := by
  rcases c.resolve_cases resolver name with ⟨h, -, hfound⟩ | ⟨e, -, -, hfound⟩ |
    ⟨h, -, hh, hfound⟩
  · exact .inl (by rw [hfound])
  · exact .inl (by rw [hfound])
  · exact .inr ⟨h, by rw [hfound], hh, by rw [hfound]⟩

end HandleCache

/-! ## Backends -/

namespace BackendReply

theorem isSuccess_iff {r : BackendReply} :
    r.isSuccess = true ↔ r.status.toNat ∈ Set.Ico 200 300 := by
  rw [isSuccess, Bool.and_eq_true, decide_eq_true_iff, decide_eq_true_iff, UInt16.le_iff_toNat_le,
    UInt16.lt_iff_toNat_lt]
  rfl

end BackendReply

namespace Platform

variable {ι α : Type}

/-- What keeps a search from being built is a fault of the model. -/
theorem exists_model_of_search {p : Platform} {family : Family ι} {m record : Model ι} {r : Request}
    {s : Settings} {e : Error} (h : p.search family m record r s = .error e) :
    ∃ fault, e = .model fault := by
  have hfault {built : Except ModelError BackendRequest}
      (h : built.mapError Error.model = .error e) : ∃ fault, e = .model fault := by
    cases built with
    | ok request => cases h
    | error fault =>
      cases h
      exact ⟨fault, rfl⟩
  cases p with
  | azure => exact hfault h
  | elastic => exact hfault h

/-- What is read from a reply goes under the name that it is read for. -/
theorem indexName_of_result {p : Platform} {decode : Decoder α} {family : Family ι} {m : Model ι}
    {r : Request} {s : Settings} {name : String} {reply : BackendReply} {page : ResultPage α}
    (h : (p.result decode family m r s name reply).result = .ok page) : page.indexName = name := by
  cases p with
  | azure =>
    simp only [result, Azure.result, Report.result_bind, bind_eq_ok_iff] at h
    obtain ⟨items, -, hits, -, facets, -, h⟩ := h
    cases h
    rfl
  | elastic =>
    simp only [result, Elastic.result, Report.result_bind, bind_eq_ok_iff] at h
    obtain ⟨found, -, items, -, hits, -, facets, -, h⟩ := h
    cases h
    rfl

end Platform

namespace Session

variable {ι α β : Type}

/-! ## Replies -/

/-- What a session takes from what comes back for a request to an index: nothing came in time, the
executor failed, the status tells no success, or there is a reply to read. -/
inductive Received (s : Session) (h : Handle) :
    Outcome → Except QueryError BackendReply → Prop where
  | late : Received s h .silent (.error (.timeout s.settings.timeout))
  | refused (status : UInt16) (body : String) :
    Received s h (.failed (.status status body)) (.error (.rejected status body))
  | unreachable (reason : String) :
    Received s h (.failed (.transport reason)) (.error (.unavailable h.name reason))
  | rejectedText {r : BackendReply} {text : String} (hstatus : r.status.toNat ∉ Set.Ico 200 300)
    (hbody : r.body = .str text) : Received s h (.reply r) (.error (.rejected r.status text))
  | rejectedJson {r : BackendReply} (hstatus : r.status.toNat ∉ Set.Ico 200 300)
    (hbody : ∀ text, r.body ≠ .str text) :
    Received s h (.reply r) (.error (.rejected r.status r.body.text))
  | accepted {r : BackendReply} (hstatus : r.status.toNat ∈ Set.Ico 200 300) :
    Received s h (.reply r) (.ok r)

theorem receive_of_rejected {s : Session} {h : Handle} {r : BackendReply}
    (hstatus : r.status.toNat ∉ Set.Ico 200 300) :
    s.receive h (.reply r) = .error (.rejected r.status (bodyText r.body)) := by
  rw [receive, if_neg (mt BackendReply.isSuccess_iff.1 hstatus)]

theorem received_receive (s : Session) (h : Handle) (outcome : Outcome) :
    s.Received h outcome (s.receive h outcome) := by
  cases outcome with
  | silent => exact .late
  | failed error =>
    cases error with
    | status status body => exact .refused status body
    | transport reason => exact .unreachable reason
  | reply r =>
    by_cases hstatus : r.status.toNat ∈ Set.Ico 200 300
    · rw [receive, if_pos (BackendReply.isSuccess_iff.2 hstatus)]
      exact .accepted hstatus
    · rw [receive_of_rejected hstatus]
      cases hbody : r.body with
      | str text => exact .rejectedText hstatus hbody
      | _ =>
        rw [← hbody, show bodyText r.body = r.body.text by rw [hbody]; rfl]
        exact .rejectedJson hstatus (by rw [hbody]; nofun)

theorem received_iff {s : Session} {h : Handle} {outcome : Outcome}
    {received : Except QueryError BackendReply} :
    s.Received h outcome received ↔ s.receive h outcome = received := by
  constructor
  · intro hreceived
    cases hreceived with
    | late | refused _ _ | unreachable _ => rfl
    | rejectedText hstatus hbody => rw [receive_of_rejected hstatus, hbody, bodyText]
    | @rejectedJson r hstatus hbody =>
      rw [receive_of_rejected hstatus, bodyText]
      exact fun text htext => hbody text htext
    | accepted hstatus => rw [receive, if_pos (BackendReply.isSuccess_iff.2 hstatus)]
  · rintro rfl
    exact s.received_receive h outcome

/-! ## Calls -/

/-- How a call ends that sends a request to an index and makes a result of the reply by `read`. -/
inductive Exchange (s : Session) (execute : Executor) (read : BackendReply → Except QueryError β)
    (h : Handle) (request : BackendRequest) : Except Error β → Prop where
  | unanswered {e : QueryError} (hreceived : s.Received h (execute h request) (.error e)) :
    Exchange s execute read h request (.error (.query e))
  | unread {reply : BackendReply} {e : QueryError}
    (hreceived : s.Received h (execute h request) (.ok reply)) (hread : read reply = .error e) :
    Exchange s execute read h request (.error (.query e))
  | answered {reply : BackendReply} {b : β}
    (hreceived : s.Received h (execute h request) (.ok reply)) (hread : read reply = .ok b) :
    Exchange s execute read h request (.ok b)

section

variable (s : Session) (resolver : Resolver) (execute : Executor) (decode : Decoder α)
  (family : Family ι) (m record : Model ι) (r : Request) (text suggester : String) (fuzzy : Bool)

/-- How a query ends, and what it has sent: it finds no handle, its search is not built, or it sends
the search to the index of the handle, and a result that it gives is under the name of the handle. -/
inductive QueryEnds : Except Error (ResultPage α) → Option (Handle × BackendRequest) → Prop where
  | unresolved {e : QueryError}
    (hhandle : s.cache.handleOf resolver (s.indexName m) = .error e) :
    QueryEnds (.error (.query e)) none
  | unbuilt {h : Handle} {e : ModelError}
    (hhandle : s.cache.handleOf resolver (s.indexName m) = .ok h)
    (hbuild : s.platform.search family m record r s.settings = .error (.model e)) :
    QueryEnds (.error (.model e)) none
  | sent {h : Handle} {request : BackendRequest} {result : Except Error (ResultPage α)}
    (hhandle : s.cache.handleOf resolver (s.indexName m) = .ok h)
    (hbuild : s.platform.search family m record r s.settings = .ok request)
    (hexchange : s.Exchange execute
      (fun reply => (s.platform.result decode family m r s.settings h.name reply).result)
      h request result)
    (hname : ∀ page, result = .ok page → page.indexName = h.name) :
    QueryEnds result (some (h, request))

/-- How a call for suggestions ends, and what it has sent: its request is not built, it finds no
handle, or it sends the request. -/
inductive SuggestEnds :
    Except Error (List (Suggestion α)) → Option (Handle × BackendRequest) → Prop where
  | unbuilt {e : QueryError}
    (hbuild : s.platform.suggest family m text suggester fuzzy s.settings = .error e) :
    SuggestEnds (.error (.query e)) none
  | unresolved {request : BackendRequest} {e : QueryError}
    (hbuild : s.platform.suggest family m text suggester fuzzy s.settings = .ok request)
    (hhandle : s.cache.handleOf resolver (s.indexName m) = .error e) :
    SuggestEnds (.error (.query e)) none
  | sent {h : Handle} {request : BackendRequest} {result : Except Error (List (Suggestion α))}
    (hbuild : s.platform.suggest family m text suggester fuzzy s.settings = .ok request)
    (hhandle : s.cache.handleOf resolver (s.indexName m) = .ok h)
    (hexchange : s.Exchange execute (s.platform.suggestions decode m) h request result) :
    SuggestEnds result (some (h, request))

end

/-- What a call that is about an index has to do with its resolver, its executor and the cache. -/
structure Touches (c : HandleCache) (name : String) (resolver : Resolver) (execute : Executor)
    (call : Resolver → Executor → Call β) : Prop where
  /-- The resolver is asked only if no handle is kept. -/
  not_kept : (call resolver execute).asked = true → c.get? name = none
  /-- Of the resolver at most its answer for the name counts, and that only if it is asked. -/
  eq_of_answer : ∀ resolver', ((call resolver execute).asked = true →
    resolver' name = resolver name) → call resolver' execute = call resolver execute
  /-- Of the executor at most its answer to the one request counts that was sent. -/
  eq_of_reply : ∀ execute', (∀ h request, (call resolver execute).sent? = some (h, request) →
    execute' h request = execute h request) → call resolver execute' = call resolver execute
  /-- The cache stays, or also keeps the handle that the resolver has found. -/
  cache_cases : (call resolver execute).cache = c ∨
    ∃ h, (call resolver execute).asked = true ∧ resolver name = .ok h ∧
      (call resolver execute).cache = c.insert name h

section

variable {s : Session} {execute : Executor} {h : Handle} {request : BackendRequest}

theorem exchange_iff {read : BackendReply → Except QueryError β} {result : Except Error β} :
    s.Exchange execute read h request result ↔
      ((s.receive h (execute h request)).bind read).mapError .query = result := by
  constructor
  · intro hexchange
    cases hexchange with
    | unanswered hreceived => rw [received_iff.1 hreceived]; rfl
    | unread hreceived hread | answered hreceived hread =>
      rw [received_iff.1 hreceived]
      show (read _).mapError _ = _
      rw [hread]
      rfl
  · rintro rfl
    cases hreceived : s.receive h (execute h request) with
    | error e => exact .unanswered (received_iff.2 hreceived)
    | ok reply =>
      show s.Exchange execute read h request ((read reply).mapError .query)
      cases hread : read reply with
      | error e => exact .unread (received_iff.2 hreceived) hread
      | ok b => exact .answered (received_iff.2 hreceived) hread

variable {resolver : Resolver} {decode : Decoder α} {family : Family ι} {m record : Model ι}
  {r : Request} {text suggester : String} {fuzzy : Bool}

/-! ### Queries -/

theorem query_of_unresolved {e : QueryError}
    (hhandle : s.cache.handleOf resolver (s.indexName m) = .error e) :
    (s.query resolver execute decode family m record r).result = .error (.query e) ∧
      (s.query resolver execute decode family m record r).sent? = none := by
  rw [← HandleCache.handle_resolve] at hhandle
  simp [query, hhandle]

theorem query_of_unbuilt {e : Error} (hhandle : s.cache.handleOf resolver (s.indexName m) = .ok h)
    (hbuild : s.platform.search family m record r s.settings = .error e) :
    (s.query resolver execute decode family m record r).result = .error e ∧
      (s.query resolver execute decode family m record r).sent? = none := by
  rw [← HandleCache.handle_resolve] at hhandle
  simp [query, hhandle, hbuild]

theorem query_of_sent (hhandle : s.cache.handleOf resolver (s.indexName m) = .ok h)
    (hbuild : s.platform.search family m record r s.settings = .ok request) :
    (s.query resolver execute decode family m record r).result =
      ((s.receive h (execute h request)).bind fun reply =>
        (s.platform.result decode family m r s.settings h.name reply).result).mapError .query ∧
      (s.query resolver execute decode family m record r).sent? = some (h, request) := by
  rw [← HandleCache.handle_resolve] at hhandle
  simp only [query, hhandle, hbuild]
  cases s.receive h (execute h request) with
  | error e => exact ⟨rfl, rfl⟩
  | ok reply =>
    simp only [Except.bind]
    cases (s.platform.result decode family m r s.settings h.name reply).result with
    | error e => exact ⟨rfl, rfl⟩
    | ok page => exact ⟨rfl, rfl⟩

theorem queryEnds_iff {result : Except Error (ResultPage α)}
    {sent? : Option (Handle × BackendRequest)} :
    s.QueryEnds resolver execute decode family m record r result sent? ↔
      (s.query resolver execute decode family m record r).result = result ∧
        (s.query resolver execute decode family m record r).sent? = sent? := by
  constructor
  · intro hends
    cases hends with
    | unresolved hhandle => exact query_of_unresolved hhandle
    | unbuilt hhandle hbuild => exact query_of_unbuilt hhandle hbuild
    | sent hhandle hbuild hexchange _ =>
      refine ⟨?_, (query_of_sent hhandle hbuild).2⟩
      rw [(query_of_sent hhandle hbuild).1]
      exact exchange_iff.1 hexchange
  · rintro ⟨rfl, rfl⟩
    cases hhandle : s.cache.handleOf resolver (s.indexName m) with
    | error e =>
      rw [(query_of_unresolved hhandle).1, (query_of_unresolved hhandle).2]
      exact .unresolved hhandle
    | ok h =>
      cases hbuild : s.platform.search family m record r s.settings with
      | error e =>
        rw [(query_of_unbuilt hhandle hbuild).1, (query_of_unbuilt hhandle hbuild).2]
        obtain ⟨fault, rfl⟩ := Platform.exists_model_of_search hbuild
        exact .unbuilt hhandle hbuild
      | ok request =>
        obtain ⟨hresult, hsent⟩ :
            _ ∧ (s.query resolver execute decode family m record r).sent? = _ :=
          query_of_sent hhandle hbuild
        have hexchange := exchange_iff.2 hresult.symm
        rw [hsent]
        refine .sent hhandle hbuild hexchange ?_
        intro page hpage
        rw [hpage] at hexchange
        cases hexchange with
        | answered _ hread => exact Platform.indexName_of_result hread

/-- A query uses the cache to resolve its index. -/
theorem query_lookup : (s.query resolver execute decode family m record r).asked =
      (s.cache.resolve resolver (s.indexName m)).asked ∧
    (s.query resolver execute decode family m record r).cache =
      (s.cache.resolve resolver (s.indexName m)).cache := by
  have hquery := query_eq s s.cache resolver execute decode family m record r
  exact ⟨congrArg Call.asked hquery, congrArg Call.cache hquery⟩

theorem touches_query (s : Session) (resolver : Resolver) (execute : Executor) (decode : Decoder α)
    (family : Family ι) (m record : Model ι) (r : Request) :
    Touches s.cache (s.indexName m) resolver execute fun resolver execute =>
      s.query resolver execute decode family m record r where
  not_kept := by
    rw [query_lookup.1]
    exact HandleCache.not_kept_of_asked
  eq_of_answer resolver' h := by
    rw [query_lookup.1] at h
    simp only [query, HandleCache.resolve_congr h]
  eq_of_reply execute' h := by
    cases hhandle : s.cache.handleOf resolver (s.indexName m) with
    | error e =>
      rw [← HandleCache.handle_resolve] at hhandle
      simp only [query, hhandle]
    | ok handle =>
      cases hbuild : s.platform.search family m record r s.settings with
      | error e =>
        rw [← HandleCache.handle_resolve] at hhandle
        simp only [query, hhandle, hbuild]
      | ok request =>
        have hreply := h handle request (query_of_sent hhandle hbuild).2
        rw [← HandleCache.handle_resolve] at hhandle
        simp only [query, hhandle, hbuild, hreply]
  cache_cases := by
    rw [query_lookup.1, query_lookup.2]
    exact HandleCache.cache_resolve_cases

/-! ### Suggestions -/

theorem suggest_of_unbuilt {e : QueryError}
    (hbuild : s.platform.suggest family m text suggester fuzzy s.settings = .error e) :
    s.suggest resolver execute decode family m text suggester fuzzy =
      { result := .error (.query e), cache := s.cache } := by
  simp only [suggest, hbuild]

theorem suggest_of_unresolved {e : QueryError}
    (hbuild : s.platform.suggest family m text suggester fuzzy s.settings = .ok request)
    (hhandle : s.cache.handleOf resolver (s.indexName m) = .error e) :
    (s.suggest resolver execute decode family m text suggester fuzzy).result =
        .error (.query e) ∧
      (s.suggest resolver execute decode family m text suggester fuzzy).sent? = none := by
  rw [← HandleCache.handle_resolve] at hhandle
  simp [suggest, hhandle, hbuild]

theorem suggest_of_sent
    (hbuild : s.platform.suggest family m text suggester fuzzy s.settings = .ok request)
    (hhandle : s.cache.handleOf resolver (s.indexName m) = .ok h) :
    (s.suggest resolver execute decode family m text suggester fuzzy).result =
        ((s.receive h (execute h request)).bind (s.platform.suggestions decode m)).mapError .query ∧
      (s.suggest resolver execute decode family m text suggester fuzzy).sent? =
        some (h, request) := by
  rw [← HandleCache.handle_resolve] at hhandle
  simp [suggest, hhandle, hbuild]

theorem suggestEnds_iff {result : Except Error (List (Suggestion α))}
    {sent? : Option (Handle × BackendRequest)} :
    s.SuggestEnds resolver execute decode family m text suggester fuzzy result sent? ↔
      (s.suggest resolver execute decode family m text suggester fuzzy).result = result ∧
        (s.suggest resolver execute decode family m text suggester fuzzy).sent? = sent? := by
  constructor
  · intro hends
    cases hends with
    | unbuilt hbuild =>
      rw [suggest_of_unbuilt hbuild]
      exact ⟨rfl, rfl⟩
    | unresolved hbuild hhandle => exact suggest_of_unresolved hbuild hhandle
    | sent hbuild hhandle hexchange =>
      refine ⟨?_, (suggest_of_sent hbuild hhandle).2⟩
      rw [(suggest_of_sent hbuild hhandle).1]
      exact exchange_iff.1 hexchange
  · rintro ⟨rfl, rfl⟩
    cases hbuild : s.platform.suggest family m text suggester fuzzy s.settings with
    | error e =>
      rw [suggest_of_unbuilt hbuild]
      exact .unbuilt hbuild
    | ok request =>
      cases hhandle : s.cache.handleOf resolver (s.indexName m) with
      | error e =>
        rw [(suggest_of_unresolved hbuild hhandle).1, (suggest_of_unresolved hbuild hhandle).2]
        exact .unresolved hbuild hhandle
      | ok h =>
        rw [(suggest_of_sent hbuild hhandle).2]
        exact .sent hbuild hhandle (exchange_iff.2 (suggest_of_sent hbuild hhandle).1.symm)

/-- A call for suggestions that has built its request uses the cache to resolve its index. -/
theorem suggest_lookup
    (hbuild : s.platform.suggest family m text suggester fuzzy s.settings = .ok request) :
    (s.suggest resolver execute decode family m text suggester fuzzy).asked =
        (s.cache.resolve resolver (s.indexName m)).asked ∧
      (s.suggest resolver execute decode family m text suggester fuzzy).cache =
        (s.cache.resolve resolver (s.indexName m)).cache := by
  have hsuggest := suggest_eq s s.cache resolver execute decode family m text suggester fuzzy hbuild
  exact ⟨congrArg Call.asked hsuggest, congrArg Call.cache hsuggest⟩

theorem touches_suggest (s : Session) (resolver : Resolver) (execute : Executor)
    (decode : Decoder α) (family : Family ι) (m : Model ι) (text suggester : String)
    (fuzzy : Bool) :
    Touches s.cache (s.indexName m) resolver execute fun resolver execute =>
      s.suggest resolver execute decode family m text suggester fuzzy := by
  cases hbuild : s.platform.suggest family m text suggester fuzzy s.settings with
  | error e =>
    -- Nothing is touched.
    simp only [suggest_of_unbuilt hbuild]
    exact ⟨nofun, fun _ _ => rfl, fun _ _ => rfl, .inl rfl⟩
  | ok request =>
    constructor
    case not_kept =>
      rw [(suggest_lookup hbuild).1]
      exact HandleCache.not_kept_of_asked
    case eq_of_answer =>
      intro resolver' h
      rw [(suggest_lookup hbuild).1] at h
      simp only [suggest, HandleCache.resolve_congr h]
    case eq_of_reply =>
      intro execute' h
      cases hhandle : s.cache.handleOf resolver (s.indexName m) with
      | error e =>
        rw [← HandleCache.handle_resolve] at hhandle
        simp only [suggest, hbuild, hhandle]
      | ok handle =>
        have hreply := h handle request (suggest_of_sent hbuild hhandle).2
        rw [← HandleCache.handle_resolve] at hhandle
        simp only [suggest, hbuild, hhandle, hreply]
    case cache_cases =>
      rw [(suggest_lookup hbuild).1, (suggest_lookup hbuild).2]
      exact HandleCache.cache_resolve_cases

end

/-- A query and a call for suggestions end as the rules say and in no other way, and touch no more of
their surroundings than the resolver's answer for the name of the index, the executor's answer to the
one request that was sent, and the place of that name in the cache. Over Elasticsearch suggestions
always fail before anything is touched. -/
theorem outcome_of_calls (s : Session) (resolver : Resolver) (execute : Executor)
    (decode : Decoder α) (family : Family ι) (m record : Model ι) (r : Request)
    (text suggester : String) (fuzzy : Bool) :
    (∀ result sent?, s.QueryEnds resolver execute decode family m record r result sent? ↔
      (s.query resolver execute decode family m record r).result = result ∧
        (s.query resolver execute decode family m record r).sent? = sent?) ∧
    Touches s.cache (s.indexName m) resolver execute (fun resolver execute =>
      s.query resolver execute decode family m record r) ∧
    (∀ result sent?, s.SuggestEnds resolver execute decode family m text suggester fuzzy result
        sent? ↔
      (s.suggest resolver execute decode family m text suggester fuzzy).result = result ∧
        (s.suggest resolver execute decode family m text suggester fuzzy).sent? = sent?) ∧
    Touches s.cache (s.indexName m) resolver execute (fun resolver execute =>
      s.suggest resolver execute decode family m text suggester fuzzy) ∧
    ({ s with platform := .elastic } : Session).suggest resolver execute decode family m text
        suggester fuzzy =
      { result := .error (.query (.unsupported "elasticsearch" "suggest")), cache := s.cache,
        asked := false, sent? := none, notes := [] } := by
  refine ⟨fun result sent? => queryEnds_iff, touches_query s _ _ _ _ _ _ _,
    fun result sent? => suggestEnds_iff, touches_suggest s _ _ _ _ _ _ _ _, ?_⟩
  exact suggest_of_unbuilt rfl

end Session

end SearchDialect
