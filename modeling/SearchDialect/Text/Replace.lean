import SearchDialect.Text.After

/-!
# Replacing parts of a text
-/

namespace SearchDialect.Text

/-- A text with new characters in place of every occurrence of old ones, from left to right and
without overlaps. No characters occur nowhere. -/
def replace (old new cs : List Char) : List Char :=
  match cs with
  | [] => []
  | c :: cs =>
    if _hold : old = [] then c :: cs
    else
      match _hrest : afterWord? old (c :: cs) with
      | some rest => new ++ replace old new rest
      | none => c :: replace old new cs
termination_by cs.length
decreasing_by
  · have := length_afterWord? _hrest
    have : old.length ≠ 0 := by simpa [List.length_eq_zero_iff] using _hold
    omega
  · simp

def replaceString (old new s : String) : String :=
  String.ofList (replace old.toList new.toList s.toList)

end SearchDialect.Text
