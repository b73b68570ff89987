import SearchDialect.Text.Replace

/-!
# Stand-ins for structure

The characters that give JSON its structure are written as short tokens of URL-safe characters. The
reader replaces the tokens one kind after the other, each from left to right.
-/

namespace SearchDialect.Text

/-- The structural characters with their tokens, in the order in which they are replaced. -/
def standIns : List (Char × List Char) := [
  ('\x7b', ['-', '_', 'v']),
  ('\x7d', ['v', '_', '-']),
  ('[', ['-', '_', 'x']),
  (']', ['x', '_', '-']),
  (':', ['-', '_', 'i']),
  (',', ['-', '_', 'q'])]

/-- The token of a structural character; any other character stands for itself. -/
def standInOf (c : Char) : List Char := ((standIns.find? (·.1 = c)).map (·.2)).getD [c]

/-- A text with tokens in place of its structural characters. -/
def putStandIns (cs : List Char) : List Char := cs.flatMap standInOf

/-- A text with the structural characters in place of their tokens. -/
def takeStandIns (cs : List Char) : List Char :=
  standIns.foldl (fun acc s => replace s.2 [s.1] acc) cs

end SearchDialect.Text
