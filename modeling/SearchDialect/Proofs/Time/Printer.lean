import SearchDialect.Proofs.Number.Digits
import SearchDialect.Time.Printer

/-!
# The characters of points in time

Both written forms of a point in time are made of digits, signs, colons, a point and the letters `T`
and `Z` (`isTimeChar_of_mem_chars`, `isTimeChar_of_mem_milliseconds`), whatever the year.
-/

namespace SearchDialect.Time

open Number

/-- A character of a written point in time. -/
def isTimeChar (c : Char) : Bool :=
  c.isDigit || c == '-' || c == '+' || c == ':' || c == '.' || c == 'T' || c == 'Z'

theorem isTimeChar_of_isDigit {c : Char} (h : c.isDigit = true) : isTimeChar c = true := by
  simp [isTimeChar, h]

theorem isTimeChar_of_mem_padded {w n : Nat} : ∀ c ∈ padded w n, isTimeChar c = true := by
  intro c hc
  exact isTimeChar_of_isDigit (allDigits_padded w n c hc)

theorem isTimeChar_of_mem_yearText {year : Int} : ∀ c ∈ yearText year, isTimeChar c = true := by
  unfold yearText
  split
  · exact isTimeChar_of_mem_padded
  · rw [List.forall_mem_cons]
    refine ⟨?_, isTimeChar_of_mem_padded⟩
    split <;> decide

theorem Date.isTimeChar_of_mem_text (d : Date) : ∀ c ∈ d.text, isTimeChar c = true := by
  rw [Date.text]
  simp only [List.forall_mem_append, List.forall_mem_cons]
  exact ⟨isTimeChar_of_mem_yearText, by decide, isTimeChar_of_mem_padded, by decide,
    isTimeChar_of_mem_padded⟩

namespace Timestamp

theorem isTimeChar_of_mem_clockText (t : Timestamp) : ∀ c ∈ t.clockText, isTimeChar c = true := by
  rw [clockText]
  simp only [List.forall_mem_append, List.forall_mem_cons]
  exact ⟨isTimeChar_of_mem_padded, by decide, isTimeChar_of_mem_padded, by decide,
    isTimeChar_of_mem_padded⟩

theorem isTimeChar_of_mem_fractionText {n : Nat} : ∀ c ∈ fractionText n, isTimeChar c = true := by
  have hpoint (w k : Nat) : ∀ c ∈ '.' :: padded w k, isTimeChar c = true := by
    rw [List.forall_mem_cons]
    exact ⟨by decide, isTimeChar_of_mem_padded⟩
  unfold fractionText
  split
  · intro c hc
    cases hc
  split
  · exact hpoint _ _
  split
  · exact hpoint _ _
  · exact hpoint _ _

theorem isTimeChar_of_mem_chars (t : Timestamp) : ∀ c ∈ t.chars, isTimeChar c = true := by
  rw [chars]
  simp only [List.forall_mem_append, List.forall_mem_cons]
  exact ⟨t.date.isTimeChar_of_mem_text, by decide, t.isTimeChar_of_mem_clockText,
    isTimeChar_of_mem_fractionText, by decide, by simp⟩

theorem isTimeChar_of_mem_milliseconds (t : Timestamp) :
    ∀ c ∈ t.milliseconds.toList, isTimeChar c = true := by
  rw [milliseconds, String.toList_ofList]
  simp only [List.forall_mem_append, List.forall_mem_cons]
  exact ⟨t.date.isTimeChar_of_mem_text, by decide, t.isTimeChar_of_mem_clockText, by decide,
    isTimeChar_of_mem_padded, by decide, by simp⟩

end Timestamp

end SearchDialect.Time
