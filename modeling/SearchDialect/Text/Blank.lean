/-!
# Blanks

The characters with the Unicode property `White_Space`, and trimming a text at them.
`isBlank_head_skipBlanks` says that what is left never starts with one.
-/

namespace SearchDialect.Text

/-- A character with the property `White_Space`. -/
def isBlank (c : Char) : Bool :=
  let n := c.toNat
  (9 ≤ n && n ≤ 13) || n == 0x20 || n == 0x85 || n == 0xA0 || n == 0x1680 ||
    (0x2000 ≤ n && n ≤ 0x200A) || n == 0x2028 || n == 0x2029 || n == 0x202F || n == 0x205F ||
    n == 0x3000

/-- What is left of a text after its leading blanks. -/
def skipBlanks (cs : List Char) : List Char := cs.dropWhile isBlank

/-- What is left of a text before its trailing blanks. -/
def dropTrailingBlanks (cs : List Char) : List Char := (skipBlanks cs.reverse).reverse

/-- A text without its leading and trailing blanks. -/
def trim (cs : List Char) : List Char := dropTrailingBlanks (skipBlanks cs)

theorem length_skipBlanks_le (cs : List Char) : (skipBlanks cs).length ≤ cs.length :=
  (List.dropWhile_sublist isBlank).length_le

/-- What `skipBlanks` leaves does not start with a blank. -/
theorem isBlank_head_skipBlanks {cs r : List Char} {c : Char} (h : skipBlanks cs = c :: r) :
    isBlank c = false := by
  induction cs with
  | nil => simp [skipBlanks] at h
  | cons d ds ih =>
    by_cases hd : isBlank d
    · exact ih (by simpa [skipBlanks, hd] using h)
    · simp only [skipBlanks, List.dropWhile_cons, hd] at h
      simp only [Bool.false_eq_true, if_false, List.cons.injEq] at h
      simpa [← h.1] using hd

end SearchDialect.Text
