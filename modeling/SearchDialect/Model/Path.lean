import SearchDialect.Model.Basic
import SearchDialect.Text.Split

/-!
# Property paths

A property path is a list of member names between dots. Each name but the last leads, through the
wrappers of its declared type, to the model in which the next one is looked up.
-/

namespace SearchDialect

namespace Model

variable {ι : Type}

/-- The member that a list of names leads to, and the model that declares it. -/
def locate (family : Family ι) (m : Model ι) :
    List String → Except ModelError (Model ι × Member ι)
  | [] => .error (.emptyPath m.name)
  | name :: rest =>
    if name.isEmpty then .error (.emptyPath m.name)
    else
      match m.member? name with
      | none => .error (.unknownMember name m.name)
      | some member =>
        match rest with
        | [] => .ok (m, member)
        | next :: _ =>
          match member.accessibleType? with
          | none => .error (.notAccessible member.name m.name)
          | some type =>
            match type.object? with
            | none => .error (.unknownMember next (m.name ++ "." ++ name))
            | some i => locate family (family i) rest

def segments (path : String) : List String := Text.splitString '.' path

/-- The kind of value that a path leads to. -/
def kindAt (family : Family ι) (m : Model ι) (path : String) : Except ModelError Kind := do
  let (owner, member) ← m.locate family (segments path)
  match member.accessibleType? with
  | none => .error (.notAccessible member.name owner.name)
  | some type =>
    match type.kind? with
    | none => .error (.notAValue path m.name)
    | some kind => .ok kind

/-- The attributes of the member that a path leads to, of whatever role. -/
def attributesAt (family : Family ι) (m : Model ι) (path : String) :
    Except ModelError (Option Attributes) := do
  let (_, member) ← m.locate family (segments path)
  return member.attributes?

end Model

end SearchDialect
