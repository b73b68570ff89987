import Mathlib.Data.List.Infix
import SearchDialect.Proofs.Text.Split
import SearchDialect.Text.Replace

/-!
# What replacing does to a text

A pass from left to right replaces a text wherever it stands. Where the new text is one character
that was not there before, nothing is lost (`flatMap_replace`), and the old text stands nowhere any
more (`not_infix_replace`).
-/

namespace SearchDialect.Text

/-- A character at which the old text does not start is kept. -/
theorem replace_skip {old new cs : List Char} {c : Char} (h : afterWord? old (c :: cs) = none) :
    replace old new (c :: cs) = c :: replace old new cs := by
  have hne : old ≠ [] := by
    rintro rfl
    cases h
  rw [replace, dif_neg hne]
  split
  · next h' =>
    rw [h] at h'
    cases h'
  · rfl

/-- A word at which the old text starts nowhere is kept. -/
theorem replace_skip_word {old new w cs : List Char}
    (h : ∀ part ∈ w.tails, part ≠ [] → ¬ old <+: part ++ cs) :
    replace old new (w ++ cs) = w ++ replace old new cs := by
  induction w with
  | nil => rfl
  | cons c w ih =>
    have hfront : ¬ old <+: c :: (w ++ cs) :=
      h (c :: w) List.mem_cons_self (List.cons_ne_nil c w)
    have hrest := ih fun part hpart => h part (List.mem_cons_of_mem _ hpart)
    rw [List.cons_append, List.cons_append, replace_skip (afterWord?_eq_none_iff.2 hfront), hrest]

/-- The old text at the front is replaced. -/
theorem replace_append {old : List Char} (hne : old ≠ []) (new rest : List Char) :
    replace old new (old ++ rest) = new ++ replace old new rest := by
  have h := afterWord?_append old rest
  cases old with
  | nil => exact absurd rfl hne
  | cons c w =>
    rw [List.cons_append] at h ⊢
    rw [replace, dif_neg hne]
    split
    · next h' =>
      rw [h] at h'
      cases h'
      rfl
    · next h' =>
      rw [h] at h'
      cases h'

/-- A text is empty, or the old text stands at its front and is replaced, or its first character is
kept. -/
theorem replace_induction {old : List Char} (hne : old ≠ []) (new : List Char)
    {motive : List Char → List Char → Prop} (nil : motive [] [])
    (found : ∀ rest, motive rest (replace old new rest) →
      motive (old ++ rest) (new ++ replace old new rest))
    (kept : ∀ c cs, afterWord? old (c :: cs) = none → motive cs (replace old new cs) →
      motive (c :: cs) (c :: replace old new cs)) (cs : List Char) :
    motive cs (replace old new cs) := by
  fun_induction replace old new cs with
  | case1 => exact nil
  | case2 c cs hold => exact absurd hold hne
  | case3 c cs _ rest hrest ih =>
    rw [eq_append_of_afterWord? hrest]
    exact found rest ih
  | case4 c cs _ hrest ih => exact kept c cs hrest ih

/-- One character is replaced wherever it stands. -/
theorem replace_singleton (c : Char) (new cs : List Char) :
    replace [c] new cs = cs.flatMap (fun x => if x = c then new else [x]) := by
  refine replace_induction (List.cons_ne_nil c []) new
    (motive := fun cs r => r = cs.flatMap (fun x => if x = c then new else [x])) rfl ?_ ?_ cs
  · intro rest ih
    rw [ih, List.singleton_append, List.flatMap_cons, if_pos rfl]
  · intro x cs hskip ih
    have hx : x ≠ c := by
      rintro rfl
      simp [afterWord?] at hskip
    rw [ih, List.flatMap_cons, if_neg hx, List.singleton_append]

theorem toList_replaceString (old new s : String) :
    (replaceString old new s).toList = replace old.toList new.toList s.toList :=
  String.toList_ofList

theorem mem_replace {old new w : List Char} {c : Char} (hne : old ≠ [])
    (h : c ∈ replace old new w) : c ∈ new ∨ c ∈ w := by
  revert h
  refine replace_induction hne new (motive := fun w r => c ∈ r → c ∈ new ∨ c ∈ w) ?_ ?_ ?_ w
  · exact .inr
  · intro rest ih h
    rcases List.mem_append.1 h with h | h
    · exact .inl h
    · exact (ih h).imp_right (List.mem_append_right old)
  · intro x cs _ ih h
    rcases List.mem_cons.1 h with rfl | h
    · exact .inr List.mem_cons_self
    · exact (ih h).imp_right (List.mem_cons_of_mem x)

/-- Putting the old text back in place of the new character undoes the replacing, if the new
character was not there before. -/
theorem flatMap_replace {old w : List Char} {c : Char} (hne : old ≠ []) (hc : c ∉ w) :
    (replace old [c] w).flatMap (fun x => if x = c then old else [x]) = w := by
  revert hc
  refine replace_induction hne [c]
    (motive := fun w r => c ∉ w → r.flatMap (fun x => if x = c then old else [x]) = w) ?_ ?_ ?_ w
  · intro _
    rfl
  · intro rest ih hc
    rw [List.mem_append, not_or] at hc
    rw [List.flatMap_append, ih hc.2, List.flatMap_singleton, if_pos rfl]
  · intro x cs _ ih hc
    rw [List.mem_cons, not_or] at hc
    rw [List.flatMap_cons, ih hc.2, if_neg (Ne.symm hc.1), List.singleton_append]

/-- What stands at the front after the replacing without the new character stood there before. -/
theorem prefix_of_prefix_replace {old w u : List Char} {c : Char} (hne : old ≠ []) (hc : c ∉ u)
    (h : u <+: replace old [c] w) : u <+: w := by
  revert u
  refine replace_induction hne [c]
    (motive := fun w r => ∀ {u}, c ∉ u → u <+: r → u <+: w) ?_ ?_ ?_ w
  · exact fun _ h => h
  · intro rest _ u hc h
    cases u with
    | nil => exact List.nil_prefix
    | cons x u =>
      have hx : x = c := (List.cons_prefix_cons.1 h).1
      exact absurd (hx ▸ List.mem_cons_self) hc
  · intro y cs _ ih u hc h
    cases u with
    | nil => exact List.nil_prefix
    | cons x u =>
      rw [List.mem_cons, not_or] at hc
      obtain ⟨rfl, hu⟩ := List.cons_prefix_cons.1 h
      exact List.cons_prefix_cons.2 ⟨rfl, ih hc.2 hu⟩

/-- The old text stands nowhere after the replacing. -/
theorem not_infix_replace {old : List Char} {c : Char} (hne : old ≠ []) (hc : c ∉ old)
    (w : List Char) : ¬ old <:+: replace old [c] w := by
  refine replace_induction hne [c] (motive := fun _ r => ¬ old <:+: r) ?_ ?_ ?_ w
  · exact fun h => hne (List.infix_nil.1 h)
  · intro rest ih h
    rcases List.infix_cons_iff.1 h with hfront | hin
    · cases old with
      | nil => exact hne rfl
      | cons x old =>
        have hx : x = c := (List.cons_prefix_cons.1 hfront).1
        exact hc (hx ▸ List.mem_cons_self)
    · exact ih hin
  · intro x cs hskip ih h
    rcases List.infix_cons_iff.1 h with hfront | hin
    · rw [← replace_skip hskip] at hfront
      exact afterWord?_eq_none_iff.1 hskip (prefix_of_prefix_replace hne hc hfront)
    · exact ih hin

end SearchDialect.Text
