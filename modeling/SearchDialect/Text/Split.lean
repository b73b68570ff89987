/-!
# Splitting at a character

A text is cut at every occurrence of a separator, so that there is always one part more than there
are separators. `join_split` says that nothing else is lost.
-/

namespace SearchDialect.Text

/-- The parts of a text between the occurrences of a separator. -/
def split (separator : Char) : List Char → List (List Char)
  | [] => [[]]
  | c :: cs =>
    if c = separator then [] :: split separator cs
    else
      match split separator cs with
      | [] => [[c]]
      | part :: parts => (c :: part) :: parts

/-- Parts with a separator between them. -/
def join (separator : List Char) : List (List Char) → List Char
  | [] => []
  | [part] => part
  | part :: parts => part ++ separator ++ join separator parts

/-- A text before and after the first occurrence of a separator. -/
def splitFirst? (separator : Char) : List Char → Option (List Char × List Char)
  | [] => none
  | c :: cs =>
    if c = separator then some ([], cs)
    else (splitFirst? separator cs).map fun r => (c :: r.1, r.2)

def joinStrings (separator : String) (parts : List String) : String :=
  String.ofList (join separator.toList (parts.map String.toList))

def splitString (separator : Char) (s : String) : List String :=
  (split separator s.toList).map String.ofList

theorem split_ne_nil (separator : Char) (cs : List Char) : split separator cs ≠ [] := by
  cases cs with
  | nil => simp [split]
  | cons c cs =>
    simp only [split]
    split
    · simp
    · split <;> simp

theorem join_split (separator : Char) (cs : List Char) :
    join [separator] (split separator cs) = cs := by
  induction cs with
  | nil => rfl
  | cons c cs ih =>
    simp only [split]
    have hne := split_ne_nil separator cs
    split
    · next h =>
      cases hs : split separator cs with
      | nil => exact absurd hs hne
      | cons p ps =>
        rw [hs] at ih
        simp [join, ih, h]
    · split
      · next hs => exact absurd hs hne
      · next p ps hs =>
        rw [hs] at ih
        cases ps with
        | nil => simp [join] at ih ⊢; exact ih
        | cons q qs => simp [join] at ih ⊢; exact ih

end SearchDialect.Text
