import SearchDialect.Predicate.Cursor
import SearchDialect.Proofs.Predicate.Tokens

/-!
# Offsets in a text

A cursor that starts in front of a text and only ever moves by whole characters stands between two
characters (`IsAt`). There the text has a slice (`slice?_eq_some_iff`), and the slice is the rest of
the text from the cursor on (`IsAt.slice?_eq`).
-/

namespace SearchDialect.Predicate

open Text
open Time (byteCount)

/-! ## Slices -/

theorem byteCount_cons (c : Char) (cs : List Char) :
    byteCount (c :: cs) = c.utf8Size + byteCount cs := rfl

theorem byteCount_append (as bs : List Char) :
    byteCount (as ++ bs) = byteCount as + byteCount bs := by
  induction as with
  | nil => exact (Nat.zero_add _).symm
  | cons a as ih => rw [List.cons_append, byteCount_cons, byteCount_cons, ih, Nat.add_assoc]

/-- A text has a slice at an offset if that is the number of bytes of some characters in front. -/
theorem slice?_eq_some_iff {cs r : List Char} {n : Nat} :
    slice? cs n = some r ↔ ∃ before, cs = before ++ r ∧ byteCount before = n := by
  constructor
  · intro h
    fun_induction slice? cs n with
    | case1 cs =>
      cases h
      exact ⟨[], rfl, rfl⟩
    | case2 => cases h
    | case3 c cs n hle ih =>
      obtain ⟨before, rfl, hbefore⟩ := ih h
      refine ⟨c :: before, rfl, ?_⟩
      rw [byteCount_cons, hbefore]
      omega
    | case4 => cases h
  · rintro ⟨before, rfl, rfl⟩
    induction before with
    | nil => rw [List.nil_append, byteCount, List.foldr_nil, slice?]
    | cons c before ih =>
      obtain ⟨n, hn⟩ := Nat.exists_eq_succ_of_ne_zero (Nat.ne_of_gt c.utf8Size_pos)
      have hsize : byteCount (c :: before) = (n + byteCount before) + 1 := by
        rw [byteCount_cons, hn]
        omega
      have hrest : n + byteCount before + 1 - c.utf8Size = byteCount before := by
        rw [hn]
        omega
      rw [hsize, List.cons_append, slice?, if_pos (by omega), hrest, ih]

/-! ## Cursors -/

/-- A cursor that stands between two characters of a text and counts the bytes before it. -/
def IsAt (text : List Char) (k : Cursor) : Prop :=
  ∃ before, text = before ++ k.rest ∧ byteCount before = k.offset

namespace IsAt

variable {text : List Char} {k : Cursor}

theorem start (text : List Char) : IsAt text ⟨0, text⟩ := ⟨[], rfl, rfl⟩

theorem suffix (h : IsAt text k) : k.rest <:+ text := by
  obtain ⟨before, htext, -⟩ := h
  exact ⟨before, htext.symm⟩

theorem offset_eq (h : IsAt text k) : k.offset = byteCount text - byteCount k.rest := by
  obtain ⟨before, htext, hbefore⟩ := h
  rw [← hbefore, htext, byteCount_append]
  omega

/-- One character further. -/
theorem cons {offset : Nat} {c : Char} {r : List Char} (h : IsAt text ⟨offset, c :: r⟩) :
    IsAt text ⟨offset + c.utf8Size, r⟩ := by
  obtain ⟨before, htext, hbefore⟩ := h
  refine ⟨before ++ [c], ?_, ?_⟩
  · rw [htext, List.append_assoc, List.singleton_append]
  · rw [byteCount_append, hbefore]
    rfl

theorem next (h : IsAt text k) : IsAt text k.next := by
  obtain ⟨offset, cs⟩ := k
  cases cs with
  | nil => exact h
  | cons c r => exact h.cons

theorem advance (h : IsAt text k) (n : Nat) : IsAt text (k.advance n) := by
  induction n generalizing k with
  | zero => exact h
  | succ n ih => exact ih h.next

theorem skip (h : IsAt text k) : IsAt text k.skip := by
  obtain ⟨offset, cs⟩ := k
  show IsAt text (Cursor.afterBlanks offset cs)
  induction cs generalizing offset with
  | nil => exact h
  | cons c cs ih =>
    rw [Cursor.afterBlanks]
    split
    · exact ih _ h.cons
    · exact h

/-- The position of a cursor is the number of bytes before it, also at the end of the text. -/
theorem position_eq (h : IsAt text k) : k.position text = k.offset := by
  rw [Cursor.position]
  split
  · next hend =>
    rw [h.offset_eq, List.isEmpty_iff.1 hend]
    rfl
  · rfl

/-- The text has a slice where a cursor stands. -/
theorem slice?_eq (h : IsAt text k) : slice? text (k.position text) = some k.rest := by
  rw [h.position_eq, slice?_eq_some_iff]
  exact h

end IsAt

/-- A cursor that is moved until it has passed some characters stands behind them. -/
theorem upTo_append (offset : Nat) (before r : List Char) :
    Cursor.upTo (offset + byteCount before) offset (before ++ r) =
      ⟨offset + byteCount before, r⟩ := by
  induction before generalizing offset with
  | nil =>
    cases r with
    | nil => rfl
    | cons c r => exact if_neg (Nat.lt_irrefl offset)
  | cons c before ih =>
    have hpos := c.utf8Size_pos
    rw [List.cons_append, Cursor.upTo, byteCount_cons, if_pos (by omega), ← Nat.add_assoc, ih]

end SearchDialect.Predicate
