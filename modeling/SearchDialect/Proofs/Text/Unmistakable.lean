import Mathlib.Data.List.Chain
import Mathlib.Data.List.Infix
import SearchDialect.Text.StandIn

/-!
# Texts that cannot be mistaken for stand-ins

A text may hold by accident what looks like the token of a structural character: `-`, `_`, `v`
written next to each other look like an opening brace. Every token has an underscore in its middle,
so an accident needs an underscore of the text, and on either side of it an end of a token that is
still looked for (`lookalikes`). Texts without such a place are unmistakable. Where framed texts
stand next to each other, no accident reaches across (`unmistakable_append_iff`).
-/

namespace SearchDialect.Text

/-- What makes an underscore between them look like the middle of a token, for each token in the
order of the passes: the characters whose written form ends like the token starts, and those whose
written form starts like the token ends. Characters of finished passes are written as themselves. -/
def lookalikes : List (List Char × List Char) := [
  (['-', '\x7d', ']'], ['v', '\x7d']),
  (['v'], ['-', '[', ':', ',']),
  (['-', ']'], ['x', ']']),
  (['x'], ['-', ':', ',']),
  (['-'], ['i']),
  (['-'], ['q'])]

/-- No underscore of a text looks like the middle of a token. -/
def Unmistakable (cs : List Char) : Prop :=
  ∀ ends ∈ lookalikes, ∀ a ∈ ends.1, ∀ b ∈ ends.2, ¬ [a, '_', b] <:+: cs

-- Not by the instance for all characters: only those of the table are looked at.
instance (cs : List Char) : Decidable (Unmistakable cs) :=
  decidable_of_iff (lookalikes.all fun ends => ends.1.all fun a => ends.2.all fun b =>
    !decide ([a, '_', b] <:+: cs)) (by simp [Unmistakable])

example : Unmistakable "a-_b ]_- v__ x_ -_".toList := by decide

example : ¬ Unmistakable "[]_x".toList := by decide

theorem unmistakable_of_not_mem {cs : List Char} (h : '_' ∉ cs) : Unmistakable cs := by
  intro ends _ a _ b _ hin
  exact h (hin.subset (by simp))

/-! ## Texts next to each other -/

/-- A text that neither starts nor ends with an underscore, so that what stands next to it has no
part in its underscores. -/
structure Framed (cs : List Char) : Prop where
  head : '_' ∉ cs.head?
  last : '_' ∉ cs.getLast?

theorem framed_of_not_mem {cs : List Char} (h : '_' ∉ cs) : Framed cs where
  head := fun hc => h (List.mem_of_mem_head? hc)
  last := fun hc => h (List.mem_of_mem_getLast? hc)

theorem Framed.append {as bs : List Char} (ha : Framed as) (hb : Framed bs) :
    Framed (as ++ bs) where
  head := by
    rw [List.head?_append, Option.mem_def, Option.or_eq_some_iff]
    rintro (h | ⟨-, h⟩)
    · exact ha.head h
    · exact hb.head h
  last := by
    rw [List.getLast?_append, Option.mem_def, Option.or_eq_some_iff]
    rintro (h | ⟨-, h⟩)
    · exact hb.last h
    · exact ha.last h

/-- An underscore of two framed texts has both its neighbours in its own text. -/
theorem infix_of_infix_append {as bs : List Char} {a b : Char} (ha : Framed as) (hb : Framed bs)
    (h : [a, '_', b] <:+: as ++ bs) : [a, '_', b] <:+: as ∨ [a, '_', b] <:+: bs := by
  obtain ⟨s, t, hst⟩ := h
  rw [List.append_assoc, List.append_eq_append_iff] at hst
  rcases hst with ⟨u, rfl, hu⟩ | ⟨u, rfl, hu⟩
  · -- The first text ends within the three characters, or after them.
    match u with
    | [] => exact .inr ⟨[], t, hu⟩
    | [_] =>
      simp only [List.cons_append, List.nil_append, List.cons.injEq] at hu
      exact absurd (by rw [← hu.2]; rfl) hb.head
    | [_, _] =>
      simp only [List.cons_append, List.nil_append, List.cons.injEq] at hu
      exact absurd (by simp [← hu.2.1]) ha.last
    | _ :: _ :: _ :: u =>
      simp only [List.cons_append, List.nil_append, List.cons.injEq] at hu
      obtain ⟨rfl, rfl, rfl, -⟩ := hu
      exact .inl ⟨s, u, by simp⟩
  · exact .inr ⟨u, t, by rw [List.append_assoc]; exact hu.symm⟩

theorem unmistakable_append_iff {as bs : List Char} (ha : Framed as) (hb : Framed bs) :
    Unmistakable (as ++ bs) ↔ Unmistakable as ∧ Unmistakable bs := by
  constructor
  · intro h
    exact ⟨fun ends hends a ha b hb hin =>
        h ends hends a ha b hb (hin.trans (List.prefix_append as bs).isInfix),
      fun ends hends a ha b hb hin =>
        h ends hends a ha b hb (hin.trans (List.suffix_append as bs).isInfix)⟩
  · rintro ⟨has, hbs⟩ ends hends a hmem b hmem' hin
    rcases infix_of_infix_append ha hb hin with hin | hin
    · exact has ends hends a hmem b hmem' hin
    · exact hbs ends hends a hmem b hmem' hin

/-! ## Separated texts -/

/-- Two neighbours of which one is an underscore and the other a character that may be written with
a dash on the side of the underscore. -/
def Clashes (a b : Char) : Prop :=
  (a ∈ ['-', '\x7d', ']'] ∧ b = '_') ∨ (a = '_' ∧ b ∈ ['-', '\x7b', '[', ':', ','])

instance (a b : Char) : Decidable (Clashes a b) := inferInstanceAs (Decidable (_ ∨ _))

/-- No underscore stands directly after `-`, a closing brace or a closing bracket, and none directly
before `-`, an opening brace, an opening bracket, a colon or a comma. -/
def Separated (cs : List Char) : Prop := cs.IsChain fun a b => ¬ Clashes a b

instance (cs : List Char) : Decidable (Separated cs) :=
  inferInstanceAs (Decidable (List.IsChain _ _))

/-- One end of every token is a dash. -/
theorem clashes_of_lookalikes : ∀ ends ∈ lookalikes, ∀ a ∈ ends.1, ∀ b ∈ ends.2,
    Clashes a '_' ∨ Clashes '_' b := by
  simp [lookalikes, Clashes]

theorem Separated.unmistakable {cs : List Char} (h : Separated cs) : Unmistakable cs := by
  intro ends hends a ha b hb hin
  have hchain : ¬ Clashes a '_' ∧ ¬ Clashes '_' b := by
    simpa [Separated] using List.IsChain.infix h hin
  rcases clashes_of_lookalikes ends hends a ha b hb with hclash | hclash
  · exact hchain.1 hclash
  · exact hchain.2 hclash

end SearchDialect.Text
