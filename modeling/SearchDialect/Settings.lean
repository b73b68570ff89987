import SearchDialect.Json.Fields

/-!
# Settings

What a search session can be told: how index names are mapped, how long a backend may take, the tags
around highlighted text, the number of suggestions, and whether queries are noted. Settings are read
from a JSON text whose absent members keep their defaults.
-/

namespace SearchDialect

open Json

/-- The settings of a search session. -/
structure Settings where
  /-- Declared index names with the names of the indices to query, in order of the former. -/
  mapping : List (String × String) := []
  /-- The time that a backend may take, in milliseconds. -/
  timeout : UInt64 := 30000
  /-- The tag before highlighted text. -/
  preTag : String := "<span class=\"highlight\">"
  /-- The tag after highlighted text. -/
  postTag : String := "</span>"
  /-- The largest number of suggestions. -/
  suggestions : UInt64 := 8
  /-- Whether answered queries are noted. -/
  track : Bool := false
deriving DecidableEq, Inhabited

/-- Why settings cannot be used. -/
inductive SettingsError where
  /-- The text is no JSON, or a member has the wrong type. -/
  | malformed
  | noTimeout
  | noSuggestions
  /-- An index name is mapped to nothing. -/
  | emptyIndex (name : String)
deriving DecidableEq, Repr

def SettingsError.message : SettingsError → String
  | .malformed => "JSON error"
  | .noTimeout => "Invalid configuration: request_timeout must be greater than zero"
  | .noSuggestions => "Invalid configuration: suggestion_top must be greater than zero"
  | .emptyIndex name =>
    "Invalid configuration: index mapping for '" ++ name ++ "' points to an empty index name"

namespace Settings

/-- Checks that there is time to answer, that suggestions are asked for, and that no index name is
mapped to nothing. The first fault in this order is told. -/
def validate (s : Settings) : Except SettingsError Unit :=
  if s.timeout = 0 then .error .noTimeout
  else if s.suggestions = 0 then .error .noSuggestions
  else
    match s.mapping.find? (·.2.isEmpty) with
    | some (name, _) => .error (.emptyIndex name)
    | none => .ok ()

/-- The name of the index that is queried for a declared one. -/
def indexName (s : Settings) (declared : String) : String :=
  (lookup declared s.mapping).getD declared

/-- Maps a declared index name to another one. -/
def withMapping (s : Settings) (declared name : String) : Settings :=
  { s with mapping := insertMember declared name s.mapping }

def toJson (s : Settings) : Json :=
  .object [("index_mapping", .obj (s.mapping.map fun m => (m.1, .str m.2))),
    ("request_timeout", .ofUnsigned s.timeout), ("highlight_pre_tag", .str s.preTag),
    ("highlight_post_tag", .str s.postTag), ("suggestion_top", .ofUnsigned s.suggestions),
    ("track_queries", .bool s.track)]

/-! ## Reading -/

/-- The names of the members of settings, in the order in which a bare list gives them. -/
def memberNames : List String :=
  ["index_mapping", "request_timeout", "highlight_pre_tag", "highlight_post_tag",
    "suggestion_top", "track_queries"]

/-- A member of a type, or a default where it is absent. -/
def member? {α : Type} (name : String) (read? : Written → Option α) (default : α)
    (members : List (String × Written)) : Option α :=
  match lookup name members with
  | none => some default
  | some w => read? w

/-- The settings of a written JSON value: an object, or a list of the values of some first
members. -/
def ofWritten? (w : Written) : Option Settings := do
  let members ← w.fields? memberNames
  let d : Settings := {}
  let mapping ← member? "index_mapping" (Written.map? Written.text?) d.mapping members
  let timeout ← member? "request_timeout" Written.unsigned? d.timeout members
  let preTag ← member? "highlight_pre_tag" Written.text? d.preTag members
  let postTag ← member? "highlight_post_tag" Written.text? d.postTag members
  let suggestions ← member? "suggestion_top" Written.unsigned? d.suggestions members
  let track ← member? "track_queries" Written.bool? d.track members
  return ⟨mapping, timeout, preTag, postTag, suggestions, track⟩

/-- Reads settings from a JSON text and checks them. -/
def read (cs : List Char) : Except SettingsError Settings :=
  match (Written.read? cs).bind ofWritten? with
  | none => .error .malformed
  | some s => do
    s.validate
    return s

end Settings

end SearchDialect
