import Mathlib.Data.List.DropRight
import SearchDialect.Proofs.Json.Members
import SearchDialect.Session.Cache

/-!
# The cache of handles over time

A cache is read, asked to resolve names, cleared and measured, in any order, and the resolver may
answer differently each time it is asked. What the cache then holds follows from what happened to
it: for each name the first handle that was found since the last clearing (`kept_history`).
-/

namespace SearchDialect.HandleCache

/-- A use of a cache. -/
inductive Use where
  | get (name : String)
  | resolve (name : String)
  | clear
  | size
deriving DecidableEq

/-- A use of a cache at a time when the resolver answers in some way. -/
structure Step where
  resolver : Resolver
  use : Use

/-- The cache after a step. -/
def after (c : HandleCache) (step : Step) : HandleCache :=
  match step.use with
  | .get _ | .size => c
  | .resolve name => (c.resolve step.resolver name).cache
  | .clear => c.clear

/-- Whether a step asks the resolver. -/
def asks (c : HandleCache) (step : Step) : Bool :=
  match step.use with
  | .resolve name => (c.resolve step.resolver name).asked
  | .get _ | .clear | .size => false

/-! ## Histories -/

/-- Something that happens to a cache. -/
inductive Event where
  /-- The resolver, asked for a name, answers. -/
  | answered (name : String) (answer : Except QueryError Handle)
  | cleared

namespace Event

def isAnswer : Event → Bool
  | answered _ _ => true
  | cleared => false

/-- The handle that is found for a name. -/
def found? (name : String) : Event → Option Handle
  | answered n (.ok h) => if n = name then some h else none
  | answered _ (.error _) | cleared => none

end Event

/-- The first handle that was found for a name since the last clearing. -/
def firstFound? (events : List Event) (name : String) : Option Handle :=
  (events.rtakeWhile Event.isAnswer).findSome? (Event.found? name)

example (h : Handle) (e : QueryError) :
    firstFound? [.answered "tea" (.ok ⟨"tea", "old"⟩), .cleared, .answered "tea" (.error e),
      .answered "tea" (.ok ⟨"tea", "new"⟩), .answered "milk" (.ok h)] "tea" =
        some ⟨"tea", "new"⟩ := rfl

/-- What happens in a step. -/
def happens (c : HandleCache) (step : Step) : List Event :=
  match step.use with
  | .get _ | .size => []
  | .resolve name => if c.asks step then [.answered name (step.resolver name)] else []
  | .clear => [.cleared]

/-- A cache with what happened to it since it was made. -/
structure History where
  cache : HandleCache := {}
  events : List Event := []

namespace History

def next (h : History) (step : Step) : History where
  cache := h.cache.after step
  events := h.events ++ h.cache.happens step

end History

/-- The history of a new cache over some steps. -/
def history (steps : List Step) : History := steps.foldl History.next {}

theorem cache_next (h : History) (step : Step) :
    h.cache.after step = (h.next step).cache := rfl

theorem cache_history (steps : List Step) : (history steps).cache = steps.foldl after {} :=
  (List.foldl_hom History.cache cache_next).symm

/-! ## One step -/

@[simp] theorem firstFound?_cleared (events : List Event) (name : String) :
    firstFound? (events ++ [.cleared]) name = none := by
  rw [firstFound?, List.rtakeWhile_concat_neg Event.isAnswer events _ (by simp [Event.isAnswer])]
  rfl

@[simp] theorem firstFound?_answered (events : List Event) (n name : String)
    (answer : Except QueryError Handle) :
    firstFound? (events ++ [.answered n answer]) name =
      (firstFound? events name).or (Event.found? name (.answered n answer)) := by
  rw [firstFound?, List.rtakeWhile_concat_pos Event.isAnswer events _ rfl, List.findSome?_append,
    List.findSome?_singleton, firstFound?]

/-- A handle that was found was an answer of the resolver. -/
theorem answered_of_firstFound? {events : List Event} {name : String} {handle : Handle}
    (h : firstFound? events name = some handle) : .answered name (.ok handle) ∈ events := by
  obtain ⟨event, hmem, hfound⟩ := List.exists_of_findSome?_eq_some h
  have hevent : event ∈ events := List.rtakeWhile_suffix _ _ |>.subset hmem
  cases event with
  | cleared => cases hfound
  | answered n answer =>
    cases answer with
    | error e => cases hfound
    | ok h' =>
      rw [Event.found?, Option.ite_none_right_eq_some] at hfound
      obtain ⟨rfl, hhandle⟩ := hfound
      obtain rfl := Option.some.inj hhandle
      exact hevent

@[simp] theorem get?_insert (c : HandleCache) (n name : String) (h : Handle) :
    (c.insert n h).get? name = if n = name then some h else c.get? name := rfl

/-- A name is held, or its resolution fails and the cache stays, or it is found and then held. -/
theorem resolve_cases (c : HandleCache) (resolver : Resolver) (name : String) :
    (∃ h, c.get? name = some h ∧ c.resolve resolver name = ⟨.ok h, c, false⟩) ∨
      (∃ e, c.get? name = none ∧ resolver name = .error e ∧
        c.resolve resolver name = ⟨.error e, c, true⟩) ∨
      ∃ h, c.get? name = none ∧ resolver name = .ok h ∧
        c.resolve resolver name = ⟨.ok h, c.insert name h, true⟩ := by
  rw [resolve]
  cases hget : c.get? name with
  | some h => exact .inl ⟨h, rfl, rfl⟩
  | none =>
    refine .inr ?_
    cases hresolver : resolver name with
    | error e => exact .inl ⟨e, rfl, rfl, rfl⟩
    | ok h => exact .inr ⟨h, rfl, rfl, rfl⟩

namespace History

/-- A cache holds what was found first, each name once. -/
structure Kept (h : History) : Prop where
  get? : ∀ name, h.cache.get? name = firstFound? h.events name
  nodup : (h.cache.handles.map (·.1)).Nodup

theorem kept_new : Kept {} := ⟨fun _ => rfl, List.nodup_nil⟩

/-- Where nothing happens the history stays. -/
theorem next_eq_self {h : History} {step : Step} (hafter : h.cache.after step = h.cache)
    (hhappens : h.cache.happens step = []) : h.next step = h := by
  rw [History.next, hafter, hhappens, List.append_nil]

theorem Kept.next {h : History} (hk : h.Kept) (step : Step) : (h.next step).Kept := by
  obtain ⟨cache, events⟩ := h
  obtain ⟨resolver, use⟩ := step
  cases use with
  | get _ | size =>
    rw [next_eq_self rfl rfl]
    exact hk
  | clear =>
    refine ⟨fun name => ?_, List.nodup_nil⟩
    exact (firstFound?_cleared events name).symm
  | resolve n =>
    rcases cache.resolve_cases resolver n with
      ⟨handle, hget, hfound⟩ | ⟨e, hget, hresolver, hfound⟩ | ⟨handle, hget, hresolver, hfound⟩
    · rw [next_eq_self (by simp [after, hfound]) (by simp [happens, asks, hfound])]
      exact hk
    · have hnext : (History.next ⟨cache, events⟩ ⟨resolver, .resolve n⟩) =
          ⟨cache, events ++ [.answered n (.error e)]⟩ := by
        simp [History.next, after, happens, asks, hfound, hresolver]
      rw [hnext]
      refine ⟨fun name => ?_, hk.nodup⟩
      rw [firstFound?_answered, ← hk.get?]
      exact (Option.or_none).symm
    · have hnext : (History.next ⟨cache, events⟩ ⟨resolver, .resolve n⟩) =
          ⟨cache.insert n handle, events ++ [.answered n (.ok handle)]⟩ := by
        simp [History.next, after, happens, asks, hfound, hresolver]
      rw [hnext]
      constructor
      · intro name
        rw [firstFound?_answered, ← hk.get?, get?_insert, Event.found?]
        by_cases hn : n = name
        · subst hn
          rw [hget, if_pos rfl]
          rfl
        · rw [if_neg hn, if_neg hn, Option.or_none]
      · refine List.nodup_cons.2 ⟨?_, hk.nodup⟩
        rw [← Json.lookup_isSome_iff]
        simpa [HandleCache.get?] using hget

end History

/-! ## All steps -/

theorem kept_history (steps : List Step) : (history steps).Kept :=
  List.foldlRecOn steps History.next History.kept_new fun _ hk step _ => hk.next step

/-- What a cache tells follows from what happened to it. -/
structure History.Tells (h : History) : Prop where
  get? : ∀ name, h.cache.get? name = firstFound? h.events name
  /-- The size counts the names for which a handle was found. -/
  size : ∃ names : List String, names.Nodup ∧
    (∀ name, name ∈ names ↔ (firstFound? h.events name).isSome) ∧ h.cache.size = names.length
  /-- Only a name that is not held makes the cache ask. -/
  asks : ∀ resolver use, h.cache.asks ⟨resolver, use⟩ = true ↔
    ∃ name, use = .resolve name ∧ firstFound? h.events name = none
  resolve : ∀ resolver name, (h.cache.resolve resolver name).handle =
    ((firstFound? h.events name).map .ok).getD (resolver name)
  /-- A failed resolution leaves the cache as it was. -/
  failed : ∀ resolver name e, (h.cache.resolve resolver name).handle = .error e →
    (h.cache.resolve resolver name).cache = h.cache

theorem History.Kept.tells {h : History} (hk : h.Kept) : h.Tells where
  get? := hk.get?
  size := by
    refine ⟨h.cache.handles.map (·.1), hk.nodup, fun name => ?_, ?_⟩
    · rw [← hk.get?, HandleCache.get?, Json.lookup_isSome_iff]
    · rw [HandleCache.size, List.length_map]
  asks resolver use := by
    cases use with
    | get _ | clear | size => simp [HandleCache.asks]
    | resolve n =>
      simp only [HandleCache.asks, Use.resolve.injEq, exists_eq_left', ← hk.get?]
      rcases h.cache.resolve_cases resolver n with
        ⟨handle, hget, hfound⟩ | ⟨e, hget, -, hfound⟩ | ⟨handle, hget, -, hfound⟩ <;>
      simp [hget, hfound]
  resolve resolver name := by
    rw [← hk.get?]
    rcases h.cache.resolve_cases resolver name with
      ⟨handle, hget, hfound⟩ | ⟨e, hget, hresolver, hfound⟩ | ⟨handle, hget, hresolver, hfound⟩
    · simp [hget, hfound]
    · simp [hget, hfound, hresolver]
    · simp [hget, hfound, hresolver]
  failed resolver name e he := by
    rcases h.cache.resolve_cases resolver name with
      ⟨handle, -, hfound⟩ | ⟨e', -, -, hfound⟩ | ⟨handle, -, -, hfound⟩
    · rw [hfound]
    · rw [hfound]
    · rw [hfound] at he
      cases he

/-- A new cache passes on what the resolver answers. -/
theorem handle_resolve_new (resolver : Resolver) (name : String) :
    (({} : HandleCache).resolve resolver name).handle = resolver name :=
  History.kept_new.tells.resolve resolver name

/-! ## A resolver that does not change its answers -/

/-- The answers that a history tells of are those of a resolver. -/
def History.AnsweredBy (resolver : Resolver) (h : History) : Prop :=
  ∀ name answer, .answered name answer ∈ h.events → answer = resolver name

theorem History.AnsweredBy.next {resolver : Resolver} {h : History} (ha : h.AnsweredBy resolver)
    (use : Use) : (h.next ⟨resolver, use⟩).AnsweredBy resolver := by
  intro name answer hmem
  rcases List.mem_append.1 hmem with hmem | hmem
  · exact ha name answer hmem
  · cases use with
    | get _ | size => cases hmem
    | clear => simp [happens] at hmem
    | resolve n =>
      simp only [happens] at hmem
      split at hmem
      · simp only [List.mem_singleton, Event.answered.injEq] at hmem
        obtain ⟨rfl, rfl⟩ := hmem
        rfl
      · cases hmem

theorem answeredBy_history (resolver : Resolver) (uses : List Use) :
    (history (uses.map (⟨resolver, ·⟩))).AnsweredBy resolver := by
  refine List.foldlRecOn _ History.next ?_ ?_
  · intro name answer hmem
    cases hmem
  · intro h ha step hstep
    obtain ⟨use, -, rfl⟩ := List.mem_map.1 hstep
    exact ha.next use

/-- Whether it is kept or found anew, a handle is the one that the resolver finds. -/
theorem handle_resolve_history (resolver : Resolver) (uses : List Use) (name : String) :
    ((history (uses.map (⟨resolver, ·⟩))).cache.resolve resolver name).handle = resolver name := by
  rw [(kept_history _).tells.resolve]
  cases hfirst : firstFound? (history (uses.map (⟨resolver, ·⟩))).events name with
  | none => rfl
  | some handle =>
    exact answeredBy_history resolver uses name (.ok handle)
      (answered_of_firstFound? hfirst)

end SearchDialect.HandleCache
