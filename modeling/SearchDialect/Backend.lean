import SearchDialect.Json.Basic
import SearchDialect.Result.Error

/-!
# Talking to a backend

Requests to a backend and its replies, as they are handed to and received from whoever carries them
over the network.
-/

namespace SearchDialect

/-- What a backend is asked to do. -/
inductive RequestKind where
  | search
  | suggest
deriving DecidableEq, Repr

def RequestKind.word : RequestKind → String
  | .search => "search"
  | .suggest => "suggest"

/-- A request to a backend. -/
structure BackendRequest where
  kind : RequestKind
  body : Json
  /-- The headers, in order. -/
  headers : List (String × String) := []

namespace BackendRequest

def withHeader (r : BackendRequest) (name value : String) : BackendRequest :=
  { r with headers := r.headers ++ [(name, value)] }

/-- The first header of a name, in any case of ASCII letters. -/
def header? (r : BackendRequest) (name : String) : Option String :=
  (r.headers.find? fun h => h.1.toList.map Char.toLower == name.toList.map Char.toLower).map (·.2)

def toJson (r : BackendRequest) : Json :=
  .object [("kind", .str r.kind.word), ("body", r.body),
    ("headers", .arr (r.headers.map fun h => .arr [.str h.1, .str h.2]))]

end BackendRequest

/-- A reply of a backend. -/
structure BackendReply where
  status : UInt16 := 200
  /-- The headers, their names in lower case and in order; of each name the last. -/
  headers : List (String × String) := []
  body : Json

namespace BackendReply

/-- A text with its ASCII letters in lower case. -/
def foldName (name : String) : String := String.ofList (name.toList.map Char.toLower)

/-- Adds a header, replacing one of the same name. -/
def withHeader (r : BackendReply) (name value : String) : BackendReply :=
  { r with headers := Json.insertMember (foldName name) value r.headers }

/-- The header of a name, in any case of ASCII letters. -/
def header? (r : BackendReply) (name : String) : Option String :=
  Json.lookup (foldName name) r.headers

/-- Whether the status tells success. -/
def isSuccess (r : BackendReply) : Bool := 200 ≤ r.status && r.status < 300

def toJson (r : BackendReply) : Json :=
  .object [("status", .int r.status.toNat), ("body", r.body),
    ("headers", .obj (r.headers.map fun h => (h.1, .str h.2)))]

end BackendReply

/-- Why there is no reply. -/
inductive BackendError where
  /-- The backend answered with the status of an error. -/
  | status (status : UInt16) (body : String)
  | transport (reason : String)
deriving DecidableEq, Repr

namespace BackendError

def message : BackendError → String
  | status s body => "status " ++ Number.natText s.toNat ++ ": " ++ body
  | transport reason => "transport failure: " ++ reason

/-- The fault of a query of an index. -/
def toQueryError (index : String) : BackendError → QueryError
  | status s body => .rejected s body
  | transport reason => .unavailable index reason

end BackendError

end SearchDialect
