import SearchDialect.Number.Integer

/-!
# Faults of queries
-/

namespace SearchDialect

open Number

/-- How a backend's answer differs from the expected shape. Positions count from zero. -/
inductive ReplyFault where
  | noValue
  | valueNotAList
  | resultNotAnObject (position : Nat)
  | suggestionNotAnObject (position : Nat)
  | noHits
  | hitsNotAList
  | noSource (position : Nat)
deriving DecidableEq, Repr

/-- Why a query has no result. -/
inductive QueryError where
  /-- The backend answered with another status than success. -/
  | rejected (status : UInt16) (body : String)
  /-- The backend has no such service. -/
  | unsupported (backend capability : String)
  /-- A record of the answer is not of the expected type. -/
  | undecodable (position : Nat) (key? : Option String) (reason : String)
  | malformed (fault : ReplyFault)
  /-- The backend took longer than this many milliseconds. -/
  | timeout (limit : UInt64)
  | unavailable (index reason : String)
deriving DecidableEq, Repr

def ReplyFault.message : ReplyFault → String
  | .noValue => "missing 'value'"
  | .valueNotAList => "'value' is not an array"
  | .resultNotAnObject n => "search result #" ++ natText n ++ " is not an object"
  | .suggestionNotAnObject n => "suggestion #" ++ natText n ++ " is not an object"
  | .noHits => "missing 'hits'"
  | .hitsNotAList => "'hits.hits' is not an array"
  | .noSource n => "hit #" ++ natText n ++ " has no '_source'"

/-- A span of time in the largest of the units seconds and milliseconds that it fills, with as many
decimal places as it needs; no time at all counts nanoseconds. -/
def spanText (milliseconds : Nat) : String :=
  if milliseconds = 0 then "0ns"
  else if milliseconds < 1000 then natText milliseconds ++ "ms"
  else
    let places := (padded 3 (milliseconds % 1000)).reverse.dropWhile (· == '0')
    natText (milliseconds / 1000) ++
      String.ofList (if places.isEmpty then [] else '.' :: places.reverse) ++ "s"

def QueryError.message : QueryError → String
  | .rejected status body =>
    "Backend rejected the query with status " ++ natText status.toNat ++ ": " ++ body
  | .unsupported backend capability =>
    capability ++ " is not supported by the " ++ backend ++ " backend"
  | .undecodable position key? reason =>
    "Failed to deserialize result record #" ++ natText position ++
      (match key? with
        | some key => " (key " ++ key ++ ")"
        | none => "") ++
      ": " ++ reason
  | .malformed fault => "Malformed backend response: " ++ fault.message
  | .timeout limit => "Backend call timed out after " ++ spanText limit.toNat
  | .unavailable index reason => "Index '" ++ index ++ "' is unavailable: " ++ reason

end SearchDialect
