/-!
# What follows a word
-/

namespace SearchDialect.Text

/-- What is left after a word that a text starts with. -/
def afterWord? : List Char → List Char → Option (List Char)
  | [], cs => some cs
  | _ :: _, [] => none
  | w :: ws, c :: cs => if w = c then afterWord? ws cs else none

theorem eq_append_of_afterWord? {w cs r : List Char} (h : afterWord? w cs = some r) :
    cs = w ++ r := by
  fun_induction afterWord? w cs with
  | case1 => cases h; rfl
  | case2 => cases h
  | case3 w ws cs ih => simp [ih h]
  | case4 => cases h

theorem length_afterWord? {w cs r : List Char} (h : afterWord? w cs = some r) :
    r.length + w.length = cs.length := by
  simp [eq_append_of_afterWord? h, Nat.add_comm]

end SearchDialect.Text
