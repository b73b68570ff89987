import SearchDialect.Result.Error
import SearchDialect.Text.Inspected

/-!
# Notes

While an answer is read, and after a query is answered, notes are taken for whoever runs the search.
A report is the outcome of some work together with its notes; the notes stay when the work fails.
`result_bind` says that they have no influence on the outcome.
-/

namespace SearchDialect

open Number

/-- Something worth noting. -/
inductive Note where
  /-- A highlighted field is no text in the document. -/
  | noHighlightedText (field : String)
  | unrequestedFacet (name : String)
  | noAggregation (facet : String)
  | noBuckets (facet : String)
  /-- A query was answered. -/
  | answered (index : String) (searchId? : Option String) (text : String) (total : Int64)
      (profile? : Option String)
deriving DecidableEq

def Note.message : Note → String
  | .noHighlightedText field =>
    "highlighted field '" ++ field ++ "' has no text in the document"
  | .unrequestedFacet name => "ignoring facet '" ++ name ++ "' that was not requested"
  | .noAggregation facet => "no aggregation returned for facet '" ++ facet ++ "'"
  | .noBuckets facet => "aggregation for facet '" ++ facet ++ "' has no buckets"
  | .answered index searchId? text total profile? =>
    "search index=" ++ index ++ " search_id=" ++ searchId?.getD "-" ++ " query=" ++
      Text.inspect text ++ " results=" ++ intText total.toInt ++ " scoring_profile=" ++
      profile?.getD "-"

/-- The outcome of some work, with the notes taken on the way. -/
structure Report (α : Type) where
  notes : List Note
  result : Except QueryError α

namespace Report

/-- Work that succeeds without notes. -/
protected def pure {α : Type} (a : α) : Report α := ⟨[], .ok a⟩

/-- Work that fails without notes. -/
def fail {α : Type} (e : QueryError) : Report α := ⟨[], .error e⟩

/-- Work that goes on with the result of other work. -/
protected def bind {α β : Type} (r : Report α) (f : α → Report β) : Report β :=
  match r.result with
  | .error e => ⟨r.notes, .error e⟩
  | .ok a => ⟨r.notes ++ (f a).notes, (f a).result⟩

instance : Monad Report where
  pure := Report.pure
  bind := Report.bind

/-- Takes a note. -/
def note (n : Note) : Report Unit := ⟨[n], .ok ()⟩

/-- Work without notes. -/
def ofExcept {α : Type} (r : Except QueryError α) : Report α := ⟨[], r⟩

@[simp] theorem result_pure {α : Type} (a : α) : (pure a : Report α).result = .ok a := rfl

@[simp] theorem result_bind {α β : Type} (r : Report α) (f : α → Report β) :
    (r >>= f).result = r.result >>= fun a => (f a).result := by
  simp only [bind, Report.bind, Except.bind]
  cases r.result <;> rfl

@[simp] theorem result_note (n : Note) : (note n).result = .ok () := rfl

end Report

end SearchDialect
