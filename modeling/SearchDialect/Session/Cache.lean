import SearchDialect.Json.Basic
import SearchDialect.Result.Error

/-!
# Index handles

A handle on an index tells where requests for it go. Handles are resolved once per index name and
kept until the cache is cleared; a failed resolution is not kept.
-/

namespace SearchDialect

/-- A handle on an index. -/
structure Handle where
  /-- The name of the index. -/
  name : String
  /-- Where requests for the index go. -/
  location : String
deriving DecidableEq, Repr

def Handle.toJson (h : Handle) : Json :=
  .object [("name", .str h.name), ("location", .str h.location)]

/-- Finds the handle on an index. -/
abbrev Resolver := String → Except QueryError Handle

/-- The handles that were resolved, by index name. -/
structure HandleCache where
  handles : List (String × Handle) := []
deriving DecidableEq, Inhabited

namespace HandleCache

def get? (c : HandleCache) (name : String) : Option Handle := Json.lookup name c.handles

def size (c : HandleCache) : Nat := c.handles.length

def isEmpty (c : HandleCache) : Bool := c.handles.isEmpty

def clear (_ : HandleCache) : HandleCache := {}

def insert (c : HandleCache) (name : String) (h : Handle) : HandleCache :=
  { handles := (name, h) :: c.handles }

/-- What looking up a name gives: the handle or the fault, the cache afterwards, and whether the
resolver was asked. -/
structure Lookup where
  handle : Except QueryError Handle
  cache : HandleCache
  asked : Bool

/-- The handle kept for a name, or the one that the resolver finds, which is then kept. -/
def resolve (c : HandleCache) (resolver : Resolver) (name : String) : Lookup :=
  match c.get? name with
  | some h => ⟨.ok h, c, false⟩
  | none =>
    match resolver name with
    | .error e => ⟨.error e, c, true⟩
    | .ok h => ⟨.ok h, c.insert name h, true⟩

end HandleCache

end SearchDialect
