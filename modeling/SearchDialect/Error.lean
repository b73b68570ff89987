import SearchDialect.Model.Error
import SearchDialect.Result.Error

/-!
# Faults of a search

A search fails because the request does not fit the model, or because of the backend.
-/

namespace SearchDialect

/-- Why a search has no result. -/
inductive Error where
  | model (error : ModelError)
  | query (error : QueryError)
deriving DecidableEq, Repr

def Error.message : Error → String
  | .model e => "Schema error: " ++ e.message
  | .query e => "Query error: " ++ e.message

end SearchDialect
