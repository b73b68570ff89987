/-!
# Faults of models and paths
-/

namespace SearchDialect

/-- Why a model is refused, or why a path does not lead to a value. -/
inductive ModelError where
  /-- A segment of a path names no member. -/
  | unknownMember (member model : String)
  /-- A segment of a path names a method, a constructor or an event. -/
  | notAccessible (member model : String)
  /-- More than one property of a model is its key. -/
  | ambiguousKey (model first second : String)
  /-- Two members of a model have the same name. -/
  | duplicateMember (model member : String)
  /-- A path ends on an object. -/
  | notAValue (path model : String)
  /-- A path or one of its segments is empty. -/
  | emptyPath (model : String)
deriving DecidableEq, Repr

def ModelError.message : ModelError → String
  | .unknownMember member model => "Unknown member '" ++ member ++ "' on model '" ++ model ++ "'"
  | .notAccessible member model =>
    "Member '" ++ member ++ "' of model '" ++ model ++
      "' is not a field or property and cannot be searched"
  | .ambiguousKey model first second =>
    "Model '" ++ model ++ "' declares more than one key property ('" ++ first ++ "' and '" ++
      second ++ "')"
  | .duplicateMember model member =>
    "Model '" ++ model ++ "' declares member '" ++ member ++ "' twice"
  | .notAValue path model =>
    "Path '" ++ path ++ "' on model '" ++ model ++ "' does not end on a primitive value"
  | .emptyPath model => "Property path on model '" ++ model ++ "' cannot be empty"

end SearchDialect
