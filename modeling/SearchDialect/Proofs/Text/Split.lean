import SearchDialect.Text.After
import SearchDialect.Text.Split

/-!
# Runs of characters, words and joined parts

A run is taken off the front of a text as a whole (`takeWhile_run`), and parts in which a separator
does not occur are found again after they were joined (`split_join`).
-/

namespace SearchDialect.Text

/-! ## Runs -/

/-- A run is taken off the front of a text up to the first character that does not belong to it. -/
theorem takeWhile_run {p : Char → Bool} {cs r : List Char} (hcs : ∀ c ∈ cs, p c = true)
    (hr : ∀ c ∈ r.head?, p c = false) :
    (cs ++ r).takeWhile p = cs ∧ (cs ++ r).dropWhile p = r := by
  rw [List.takeWhile_append_of_pos hcs, List.dropWhile_append_of_pos hcs]
  cases r with
  | nil =>
    rw [List.takeWhile_nil, List.dropWhile_nil, List.append_nil]
    exact ⟨rfl, rfl⟩
  | cons c r =>
    have hc : ¬ p c = true := by rw [hr c rfl]; decide
    rw [List.takeWhile_cons_of_neg hc, List.dropWhile_cons_of_neg hc, List.append_nil]
    exact ⟨rfl, rfl⟩

theorem takeWhile_mem (p : Char → Bool) (cs : List Char) : ∀ c ∈ cs.takeWhile p, p c = true :=
  List.all_eq_true.1 List.all_takeWhile

theorem afterWord?_append (w r : List Char) : afterWord? w (w ++ r) = some r := by
  induction w with
  | nil => rfl
  | cons c w ih =>
    rw [List.cons_append, afterWord?, if_pos rfl]
    exact ih

theorem afterWord?_eq_none_iff {w cs : List Char} : afterWord? w cs = none ↔ ¬ w <+: cs := by
  constructor
  · rintro h ⟨r, rfl⟩
    rw [afterWord?_append] at h
    cases h
  · intro h
    cases hr : afterWord? w cs with
    | none => rfl
    | some r => exact absurd ⟨r, (eq_append_of_afterWord? hr).symm⟩ h

/-! ## Joined parts -/

theorem split_of_not_mem {separator : Char} {cs : List Char} (h : separator ∉ cs) :
    split separator cs = [cs] := by
  induction cs with
  | nil => rfl
  | cons c cs ih =>
    rw [List.mem_cons, not_or] at h
    rw [split, if_neg (Ne.symm h.1), ih h.2]

/-- No separator is left in the parts of a text. -/
theorem not_mem_of_mem_split {separator : Char} {cs part : List Char}
    (h : part ∈ split separator cs) : separator ∉ part := by
  induction cs generalizing part with
  | nil =>
    rw [split, List.mem_singleton] at h
    rw [h]
    exact List.not_mem_nil
  | cons c cs ih =>
    rw [split] at h
    split at h
    · rcases List.mem_cons.1 h with rfl | h
      · exact List.not_mem_nil
      · exact ih h
    · next hc =>
      split at h
      · next hs => exact absurd hs (split_ne_nil separator cs)
      · next first parts hs =>
        rw [hs] at ih
        rcases List.mem_cons.1 h with rfl | h
        · intro hmem
          rcases List.mem_cons.1 hmem with rfl | hmem
          · exact hc rfl
          · exact ih List.mem_cons_self hmem
        · exact ih (List.mem_cons_of_mem first h)

/-- A text is cut where a separator stands. -/
theorem split_append_separator (separator : Char) (before after : List Char) :
    split separator (before ++ separator :: after) =
      split separator before ++ split separator after := by
  induction before with
  | nil =>
    show split separator (separator :: after) = [] :: split separator after
    rw [split, if_pos rfl]
  | cons c before ih =>
    rw [List.cons_append, split, split]
    by_cases hc : c = separator
    · rw [if_pos hc, if_pos hc, ih]
      rfl
    · rw [if_neg hc, if_neg hc, ih]
      cases h : split separator before with
      | nil => exact absurd h (split_ne_nil separator before)
      | cons part parts => rfl

/-- A part ends at the first separator behind it. -/
theorem split_append {separator : Char} {part : List Char} (h : separator ∉ part)
    (rest : List Char) :
    split separator (part ++ separator :: rest) = part :: split separator rest := by
  rw [split_append_separator, split_of_not_mem h]
  rfl

/-- A text has two parts if one separator stands in it. -/
theorem split_eq_pair_iff {separator : Char} {cs first second : List Char} :
    split separator cs = [first, second] ↔
      separator ∉ first ∧ separator ∉ second ∧ cs = first ++ separator :: second := by
  constructor
  · intro h
    have hpart : ∀ part ∈ [first, second], separator ∉ part := by
      rw [← h]
      exact fun _ => not_mem_of_mem_split
    have hjoin := join_split separator cs
    rw [h, join, join, List.append_assoc] at hjoin
    · rw [List.forall_mem_cons, List.forall_mem_singleton] at hpart
      exact ⟨hpart.1, hpart.2, hjoin.symm⟩
    · exact List.cons_ne_nil _ _
  · rintro ⟨hfirst, hsecond, rfl⟩
    rw [split_append hfirst, split_of_not_mem hsecond]

theorem splitFirst?_append {separator : Char} {part : List Char} (h : separator ∉ part)
    (rest : List Char) :
    splitFirst? separator (part ++ separator :: rest) = some (part, rest) := by
  induction part with
  | nil => rw [List.nil_append, splitFirst?, if_pos rfl]
  | cons c part ih =>
    rw [List.mem_cons, not_or] at h
    rw [List.cons_append, splitFirst?, if_neg (Ne.symm h.1), ih h.2, Option.map_some]

/-- Joined parts are split where they were joined. -/
theorem split_join {separator : Char} {parts : List (List Char)} (hne : parts ≠ [])
    (h : ∀ part ∈ parts, separator ∉ part) :
    split separator (join [separator] parts) = parts := by
  induction parts with
  | nil => exact absurd rfl hne
  | cons part parts ih =>
    rw [List.forall_mem_cons] at h
    cases parts with
    | nil => exact split_of_not_mem h.1
    | cons next parts =>
      have htext : join [separator] (part :: next :: parts) =
          part ++ separator :: join [separator] (next :: parts) := by
        rw [join]
        · rw [List.append_assoc]
          rfl
        · exact List.cons_ne_nil _ _
      rw [htext, split_append h.1, ih (List.cons_ne_nil _ _) h.2]

end SearchDialect.Text
