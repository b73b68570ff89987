import SearchDialect.Proofs.Session.Cache
import SearchDialect.Session.Basic

/-!
# Sessions over time

A session keeps handles from one call to the next, yet no call shows it. Calls use the cache only to
resolve the name of their index (`next_eq`), so what holds of a cache after any uses holds of the
cache of a session after any turns (`run_eq`). With a resolver and an executor that do not change
their answers, every call gives what it gives in a new session (`cache_transparent`).
-/

namespace SearchDialect

/-- Calls that give the same result, by the same request and with the same notes. What they do to
the cache may differ. -/
structure Call.Same {α : Type} (c c' : Call α) : Prop where
  result : c.result = c'.result
  sent : c.sent? = c'.sent?
  notes : c.notes = c'.notes

/-- A call with what a look-up in the cache did. -/
def Call.over {α : Type} (c : Call α) (found : HandleCache.Lookup) : Call α :=
  { c with cache := found.cache, asked := found.asked }

namespace Session

open HandleCache

def withCache (s : Session) (c : HandleCache) : Session := { s with cache := c }

section

variable (s : Session) (c : HandleCache)

@[simp] theorem platform_withCache : (s.withCache c).platform = s.platform := rfl

@[simp] theorem settings_withCache : (s.withCache c).settings = s.settings := rfl

@[simp] theorem cache_withCache : (s.withCache c).cache = c := rfl

@[simp] theorem indexName_withCache {ι : Type} (m : Model ι) :
    (s.withCache c).indexName m = s.indexName m := rfl

@[simp] theorem receive_withCache : (s.withCache c).receive = s.receive := rfl

@[simp] theorem answerNotes_withCache {α : Type} (r : Request) (page : ResultPage α) :
    (s.withCache c).answerNotes r page = s.answerNotes r page := rfl

end

/-- Something that is done with a session. -/
inductive Command : Type 1 where
  | query {ι α : Type} (decode : Decoder α) (family : Family ι) (m record : Model ι) (r : Request)
  | suggest {ι α : Type} (decode : Decoder α) (family : Family ι) (m : Model ι)
    (text suggester : String) (fuzzy : Bool)
  /-- A use of the cache beside queries and suggestions. -/
  | cache (use : Use)

/-- A command at a time when the resolver and the executor answer in some way. -/
structure Turn : Type 1 where
  resolver : Resolver
  execute : Executor
  command : Command

/-- The session after a turn. -/
def next (s : Session) (turn : Turn) : Session :=
  s.withCache <| match turn.command with
    | .query decode family m record r =>
      (s.query turn.resolver turn.execute decode family m record r).cache
    | .suggest decode family m text suggester fuzzy =>
      (s.suggest turn.resolver turn.execute decode family m text suggester fuzzy).cache
    | .cache use => s.cache.after ⟨turn.resolver, use⟩

/-- Whether a turn asks the resolver. -/
def asks (s : Session) (turn : Turn) : Bool :=
  match turn.command with
  | .query decode family m record r =>
    (s.query turn.resolver turn.execute decode family m record r).asked
  | .suggest decode family m text suggester fuzzy =>
    (s.suggest turn.resolver turn.execute decode family m text suggester fuzzy).asked
  | .cache use => s.cache.asks ⟨turn.resolver, use⟩

def run (s : Session) (turns : List Turn) : Session := turns.foldl next s

/-- How a command uses the cache. A platform without suggestions tells so before it is used. -/
def uses (s : Session) : Command → List Use
  | .query _ _ m _ _ => [.resolve (s.indexName m)]
  | .suggest _ family m text suggester fuzzy =>
    match s.platform.suggest family m text suggester fuzzy s.settings with
    | .ok _ => [.resolve (s.indexName m)]
    | .error _ => []
  | .cache use => [use]

/-- The steps of a turn on the cache. -/
def steps (s : Session) (turn : Turn) : List Step :=
  (s.uses turn.command).map (⟨turn.resolver, ·⟩)

/-! ## One turn -/

section

variable {ι α : Type} (s : Session) (c : HandleCache) (resolver : Resolver) (execute : Executor)
  (decode : Decoder α) (family : Family ι) (m record : Model ι) (r : Request)
  (text suggester : String) (fuzzy : Bool)

/-- Of the cache a query sees only the handle that is found. -/
theorem query_eq : (s.withCache c).query resolver execute decode family m record r =
    ((s.withCache {}).query (fun _ => (c.resolve resolver (s.indexName m)).handle) execute decode
      family m record r).over (c.resolve resolver (s.indexName m)) := by
  simp only [query, platform_withCache, settings_withCache, cache_withCache, indexName_withCache,
    receive_withCache, answerNotes_withCache, handle_resolve_new]
  generalize c.resolve resolver (s.indexName m) = found
  cases found.handle with
  | error e => rfl
  | ok h =>
    simp only
    cases s.platform.search family m record r s.settings with
    | error e => rfl
    | ok request =>
      simp only
      cases s.receive h (execute h request) with
      | error e => rfl
      | ok reply =>
        simp only
        cases (s.platform.result decode family m r s.settings h.name reply).result <;> rfl

/-- Of the cache a call for suggestions sees at most the handle that is found. -/
theorem suggest_eq {request : BackendRequest}
    (h : s.platform.suggest family m text suggester fuzzy s.settings = .ok request) :
    (s.withCache c).suggest resolver execute decode family m text suggester fuzzy =
      ((s.withCache {}).suggest (fun _ => (c.resolve resolver (s.indexName m)).handle) execute
        decode family m text suggester fuzzy).over (c.resolve resolver (s.indexName m)) := by
  simp only [suggest, platform_withCache, settings_withCache, cache_withCache, indexName_withCache,
    receive_withCache, handle_resolve_new, h]
  generalize c.resolve resolver (s.indexName m) = found
  cases found.handle <;> rfl

variable {c' : HandleCache}

/-- With the same handle a query gives the same. -/
theorem query_same (h : (c.resolve resolver (s.indexName m)).handle =
      (c'.resolve resolver (s.indexName m)).handle) :
    ((s.withCache c).query resolver execute decode family m record r).Same
      ((s.withCache c').query resolver execute decode family m record r) := by
  rw [query_eq s c, query_eq s c', h]
  exact ⟨rfl, rfl, rfl⟩

theorem suggest_same (h : (c.resolve resolver (s.indexName m)).handle =
      (c'.resolve resolver (s.indexName m)).handle) :
    ((s.withCache c).suggest resolver execute decode family m text suggester fuzzy).Same
      ((s.withCache c').suggest resolver execute decode family m text suggester fuzzy) := by
  cases hrequest : s.platform.suggest family m text suggester fuzzy s.settings with
  | error e =>
    simp only [suggest, platform_withCache, settings_withCache, hrequest]
    exact ⟨rfl, rfl, rfl⟩
  | ok request =>
    rw [suggest_eq s c _ _ _ _ _ _ _ _ hrequest, suggest_eq s c' _ _ _ _ _ _ _ _ hrequest, h]
    exact ⟨rfl, rfl, rfl⟩

end

variable (s : Session) (turn : Turn)

/-- A turn changes only the cache, as by its steps. -/
theorem next_eq : s.next turn = s.withCache ((s.steps turn).foldl after s.cache) := by
  obtain ⟨resolver, execute, command⟩ := turn
  refine congrArg s.withCache ?_
  cases command with
  | query decode family m record r =>
    exact congrArg Call.cache (query_eq s s.cache resolver execute decode family m record r)
  | suggest decode family m text suggester fuzzy =>
    cases hrequest : s.platform.suggest family m text suggester fuzzy s.settings with
    | error e => simp [steps, uses, suggest, hrequest]
    | ok request =>
      simp only [steps, uses, hrequest]
      exact congrArg Call.cache
        (suggest_eq s s.cache resolver execute decode family m text suggester fuzzy hrequest)
  | cache use => rfl

theorem asks_iff : s.asks turn = true ↔ ∃ step ∈ s.steps turn, s.cache.asks step = true := by
  obtain ⟨resolver, execute, command⟩ := turn
  cases command with
  | query decode family m record r =>
    have hasked := congrArg Call.asked
      (query_eq s s.cache resolver execute decode family m record r)
    simp only [steps, uses, List.map_singleton, List.mem_singleton, exists_eq_left]
    exact iff_of_eq (congrArg (· = true) hasked)
  | suggest decode family m text suggester fuzzy =>
    cases hrequest : s.platform.suggest family m text suggester fuzzy s.settings with
    | error e => simp [asks, steps, uses, suggest, hrequest]
    | ok request =>
      have hasked := congrArg Call.asked
        (suggest_eq s s.cache resolver execute decode family m text suggester fuzzy hrequest)
      simp only [steps, uses, hrequest, List.map_singleton, List.mem_singleton, exists_eq_left]
      exact iff_of_eq (congrArg (· = true) hasked)
  | cache use => simp [asks, steps, uses]

/-! ## All turns -/

/-- Over turns only the cache changes, as by the steps of the turns. -/
theorem run_eq (turns : List Turn) :
    s.run turns = s.withCache ((turns.flatMap s.steps).foldl after s.cache) := by
  have hnext (c : HandleCache) (turn : Turn) :
      (s.withCache c).next turn = s.withCache ((s.steps turn).foldl after c) :=
    next_eq (s.withCache c) turn
  rw [List.foldl_flatMap]
  exact List.foldl_hom s.withCache hnext

/-- A session that was not used yet. -/
def new (platform : Platform) (settings : Settings) : Session := { platform, settings }

theorem cache_run (platform : Platform) (settings : Settings) (turns : List Turn) :
    ((new platform settings).run turns).cache =
      (history (turns.flatMap (new platform settings).steps)).cache := by
  rw [run_eq, cache_history]
  rfl

/-- With a resolver that does not change its answers the steps of turns are those of their uses. -/
theorem flatMap_steps (resolver : Resolver) (execute : Executor) (commands : List Command) :
    (commands.map (⟨resolver, execute, ·⟩)).flatMap s.steps =
      (commands.flatMap s.uses).map (⟨resolver, ·⟩) := by
  rw [List.flatMap_map, List.map_flatMap]
  rfl

/-- Sessions in which every call gives the same. -/
structure Alike (resolver : Resolver) (execute : Executor) (s s' : Session) : Prop where
  query : ∀ {ι α : Type} (decode : Decoder α) (family : Family ι) (m record : Model ι)
    (r : Request), (s.query resolver execute decode family m record r).Same
      (s'.query resolver execute decode family m record r)
  suggest : ∀ {ι α : Type} (decode : Decoder α) (family : Family ι) (m : Model ι)
    (text suggester : String) (fuzzy : Bool),
    (s.suggest resolver execute decode family m text suggester fuzzy).Same
      (s'.suggest resolver execute decode family m text suggester fuzzy)

theorem alike_of_handles {resolver : Resolver} {execute : Executor} {c c' : HandleCache}
    (h : ∀ name, (c.resolve resolver name).handle = (c'.resolve resolver name).handle) :
    Alike resolver execute (s.withCache c) (s.withCache c') where
  query decode family m record r := query_same s c resolver execute decode family m record r (h _)
  suggest decode family m text suggester fuzzy :=
    suggest_same s c resolver execute decode family m text suggester fuzzy (h _)

/-- After any turns a session tells what a new one tells. -/
theorem alike_run (platform : Platform) (settings : Settings) (resolver : Resolver)
    (execute : Executor) (commands : List Command) :
    Alike resolver execute ((new platform settings).run (commands.map (⟨resolver, execute, ·⟩)))
      (new platform settings) := by
  rw [run_eq, flatMap_steps]
  apply alike_of_handles (new platform settings)
  intro name
  have hheld := handle_resolve_history resolver (commands.flatMap (new platform settings).uses) name
  rw [cache_history] at hheld
  exact hheld.trans (handle_resolve_new resolver name).symm

/-- The cache shows in no call. It tells the handles that were found first, whatever is done with
it; a session does with it no more than the steps of its turns; and as long as resolver and executor
do not change their answers, every call gives what it gives in a new session. -/
theorem cache_transparent (platform : Platform) (settings : Settings) :
    (∀ steps : List Step, (history steps).Tells) ∧
      (∀ turns : List Turn,
        let s := (new platform settings).run turns
        s.cache = (history (turns.flatMap (new platform settings).steps)).cache ∧
          ∀ turn, s.asks turn = true ↔
            ∃ step ∈ (new platform settings).steps turn, s.cache.asks step = true) ∧
      ∀ resolver execute (commands : List Command),
        Alike resolver execute
          ((new platform settings).run (commands.map (⟨resolver, execute, ·⟩)))
          (new platform settings) := by
  refine ⟨fun steps => (kept_history steps).tells, fun turns => ⟨?_, fun turn => ?_⟩, ?_⟩
  · exact cache_run platform settings turns
  · rw [asks_iff, run_eq]
    rfl
  · exact alike_run platform settings

end Session

end SearchDialect
