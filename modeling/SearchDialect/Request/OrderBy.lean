import SearchDialect.FormatError
import SearchDialect.Text.Split

/-!
# Orderings

The properties that results are sorted by, the most significant first. A list of orderings names a
property once: naming it again changes its direction and keeps its place. As text, the entries
`property direction` stand between commas, and the reader drops every entry of another form.
-/

namespace SearchDialect

open Text

/-- A direction of sorting. -/
inductive Direction where
  | asc
  | desc
deriving DecidableEq, Repr

namespace Direction

def word : Direction → String
  | asc => "asc"
  | desc => "desc"

/-- The direction of a word, in any case of ASCII letters. -/
def ofChars? (cs : List Char) : Option Direction :=
  let w := cs.map Char.toLower
  if w = "asc".toList then some asc else if w = "desc".toList then some desc else none

/-- The direction of a word, in any case of ASCII letters. -/
def ofWord (w : String) : Except FormatError Direction :=
  match ofChars? w.toList with
  | some d => .ok d
  | none => .error (.invalidShape (.unknownWord .direction w))

end Direction

/-- A property and the direction in which it is sorted. -/
structure OrderBy where
  property : String
  direction : Direction
deriving DecidableEq, Repr

namespace OrderBy

/-- Adds an ordering at the end, or in the place of the one of the same property. -/
def insert (o : OrderBy) : List OrderBy → List OrderBy
  | [] => [o]
  | p :: ps => if p.property = o.property then o :: ps else p :: insert o ps

/-- Adds orderings one after the other. -/
def insertAll (os : List OrderBy) (into : List OrderBy) : List OrderBy :=
  os.foldl (fun acc o => insert o acc) into

def chars (o : OrderBy) : List Char := o.property.toList ++ ' ' :: o.direction.word.toList

def listChars (os : List OrderBy) : List Char := join [','] (os.map chars)

/-- The ordering of an entry: a property that is not empty, a blank and a direction. -/
def ofEntry? (cs : List Char) : Option OrderBy :=
  match split ' ' cs with
  | [property, direction] =>
    if property.isEmpty then none
    else (Direction.ofChars? direction).map fun d => ⟨String.ofList property, d⟩
  | _ => none

/-- The orderings of a text. Entries that are none are dropped. -/
def listOfChars (cs : List Char) : List OrderBy := (split ',' cs).filterMap ofEntry?

def listText (os : List OrderBy) : String := String.ofList (listChars os)

def listOfText (s : String) : List OrderBy := listOfChars s.toList

end OrderBy

end SearchDialect
