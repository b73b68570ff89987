import SearchDialect.Model.Basic
import SearchDialect.Text.Split

/-!
# Selected members

Which members of a document a query asks for: every selectable member, a nested object replaced by
its own members. Models may contain themselves, so objects are opened to a fixed depth only.
-/

namespace SearchDialect

namespace Model

variable {ι : Type}

/-- How many objects are opened inside each other. -/
def maxOpened : Nat := 8

/-- The chains of member names that a model is expanded to when at most `depth` objects are opened
inside each other, in order of declaration. -/
def chains (family : Family ι) : Nat → Model ι → List (List String)
  | 0, m => (m.members.filter (·.isSelectable)).map fun member => [member.name]
  | depth + 1, m =>
    (m.members.filter (·.isSelectable)).flatMap fun member =>
      match member.type?.bind (·.object?) with
      | some i => (chains family depth (family i)).map (member.name :: ·)
      | none => [[member.name]]

/-- The members that a query asks for, the names of a chain joined by slashes. -/
def selection (family : Family ι) (m : Model ι) : List String :=
  (m.chains family maxOpened).map (Text.joinStrings "/")

end Model

end SearchDialect
