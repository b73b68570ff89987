import SearchDialect.Proofs.Text.Replace
import SearchDialect.Text.Percent

/-!
# Respelling what is percent encoded

In a percent-encoded text every byte is spelled as one character, or as a percent sign with two
digits. A word that is such a spelling and starts with no digit stands only where a byte is spelled
by it: never inside a spelling, and never across two of them. Replacing such words one after the
other therefore respells every byte on its own (`respellAll_flatMap`).
-/

namespace SearchDialect.Text

/-! ## Spellings -/

/-- An upper-case hexadecimal digit. -/
def isUpperHex (c : Char) : Bool := ('0' ≤ c && c ≤ '9') || ('A' ≤ c && c ≤ 'F')

/-- How one byte may be spelled. -/
inductive IsSpelling : List Char → Prop where
  | single {c : Char} (h : c ≠ '%') : IsSpelling [c]
  | escape {x y : Char} (hx : isUpperHex x = true) (hy : isUpperHex y = true) :
    IsSpelling ['%', x, y]

/-- A spelling that starts with no digit, and the one that is put in its place. -/
structure IsRespelling (r : List Char × List Char) : Prop where
  old : IsSpelling r.1
  new : IsSpelling r.2
  head : ∀ c ∈ r.1.head?, isUpperHex c = false

/-- The spelling of one byte after a replacement. -/
def respell (r : List Char × List Char) (w : List Char) : List Char := if w = r.1 then r.2 else w

/-- The spelling of one byte after some replacements. -/
def spelled (rs : List (List Char × List Char)) (w : List Char) : List Char :=
  rs.foldl (fun w r => respell r w) w

theorem IsSpelling.ne_nil {w : List Char} (h : IsSpelling w) : w ≠ [] := by
  cases h <;> exact List.cons_ne_nil _ _

theorem isUpperHex_upperHexDigit : ∀ n < 16, isUpperHex (upperHexDigit n) = true := by
  decide

theorem isSpelling_escapeByte (b : UInt8) : IsSpelling (escapeByte b) := by
  have hb : b.toNat < 256 := UInt8.toNat_lt b
  apply IsSpelling.escape
  · exact isUpperHex_upperHexDigit _ (by omega)
  · exact isUpperHex_upperHexDigit _ (by omega)

theorem isSpelling_percentByte (b : UInt8) : IsSpelling (percentByte b) := by
  rw [percentByte]
  split
  · next hb =>
    apply IsSpelling.single
    intro hpercent
    simp [isUnreserved, hpercent] at hb
  · exact isSpelling_escapeByte b

theorem isRespelling_respellings : ∀ r ∈ respellings, IsRespelling r := by
  intro r hr
  simp only [respellings, List.mem_cons, List.not_mem_nil, or_false] at hr
  rcases hr with rfl | rfl | rfl | rfl | rfl | rfl
  · refine ⟨.single (by decide), .escape rfl rfl, ?_⟩
    rintro _ ⟨⟩
    rfl
  all_goals
    refine ⟨.escape rfl rfl, .single (by decide), ?_⟩
    rintro _ ⟨⟩
    rfl

/-! ## Replacing in a text of spellings -/

variable {r : List Char × List Char} {w : List Char}

theorem IsRespelling.isSpelling_respell (hr : IsRespelling r) (hw : IsSpelling w) :
    IsSpelling (respell r w) := by
  rw [respell]
  split
  · exact hr.new
  · exact hw

/-- What is replaced does not stand at a digit. -/
theorem IsRespelling.not_prefix_digit (hr : IsRespelling r) {c : Char} (hc : isUpperHex c = true)
    (cs : List Char) : ¬ r.1 <+: c :: cs := by
  intro hstarts
  obtain ⟨d, ds, hold⟩ := List.exists_cons_of_ne_nil hr.old.ne_nil
  rw [hold, List.cons_prefix_cons] at hstarts
  have hdigit := hr.head d (by rw [hold]; rfl)
  rw [hstarts.1, hc] at hdigit
  cases hdigit

/-- What stands at the front of a text that starts with a spelling is that spelling. -/
theorem IsSpelling.eq_of_prefix {u : List Char} (hu : IsSpelling u) (hw : IsSpelling w)
    {cs : List Char} (h : u <+: w ++ cs) : u = w := by
  cases hu with
  | single hc =>
    cases hw with
    | single _ => rw [(List.cons_prefix_cons.1 h).1]
    | escape _ _ => exact absurd (List.cons_prefix_cons.1 h).1 hc
  | escape _ _ =>
    cases hw with
    | single hc => exact absurd (List.cons_prefix_cons.1 h).1.symm hc
    | escape _ _ =>
      obtain ⟨-, h⟩ := List.cons_prefix_cons.1 h
      obtain ⟨hx, h⟩ := List.cons_prefix_cons.1 h
      obtain ⟨hy, -⟩ := List.cons_prefix_cons.1 h
      rw [hx, hy]

/-- A spelling is replaced as a whole or kept as a whole. -/
theorem IsRespelling.replace_append (hr : IsRespelling r) (hw : IsSpelling w) (rest : List Char) :
    replace r.1 r.2 (w ++ rest) = respell r w ++ replace r.1 r.2 rest := by
  rw [respell]
  split
  · next h =>
    rw [h]
    exact Text.replace_append hr.old.ne_nil r.2 rest
  · next hne =>
    apply replace_skip_word
    intro part hpart hpartne hstarts
    have hwhole : part ≠ w := by
      rintro rfl
      exact hne (hr.old.eq_of_prefix hw hstarts).symm
    -- What is left are the digits of an escape.
    cases hw with
    | single _ =>
      rcases List.mem_cons.1 hpart with rfl | hpart
      · exact hwhole rfl
      · exact hpartne (List.mem_singleton.1 hpart)
    | @escape x y hx hy =>
      have hparts : part = ['%', x, y] ∨ part = [x, y] ∨ part = [y] ∨ part = [] := by
        simpa using hpart
      rcases hparts with rfl | rfl | rfl | rfl
      · exact hwhole rfl
      · exact hr.not_prefix_digit hx _ hstarts
      · exact hr.not_prefix_digit hy _ hstarts
      · exact hpartne rfl

variable {α : Type} {f : α → List Char}

theorem IsRespelling.replace_flatMap (hr : IsRespelling r) (hf : ∀ a, IsSpelling (f a))
    (as : List α) : replace r.1 r.2 (as.flatMap f) = as.flatMap fun a => respell r (f a) := by
  induction as with
  | nil =>
    rw [List.flatMap_nil, replace]
    rfl
  | cons a as ih => rw [List.flatMap_cons, hr.replace_append (hf a), ih, List.flatMap_cons]

/-- Replacements made one after the other in a text of spellings respell each of them on its own. -/
theorem respellAll_flatMap {rs : List (List Char × List Char)} (hrs : ∀ r ∈ rs, IsRespelling r)
    (hf : ∀ a, IsSpelling (f a)) (as : List α) :
    respellAll rs (as.flatMap f) = as.flatMap fun a => spelled rs (f a) := by
  induction rs generalizing f with
  | nil => rfl
  | cons r rs ih =>
    rw [List.forall_mem_cons] at hrs
    have hnext : ∀ a, IsSpelling (respell r (f a)) := fun a => hrs.1.isSpelling_respell (hf a)
    show respellAll rs (replace r.1 r.2 (as.flatMap f)) = _
    rw [hrs.1.replace_flatMap hf, ih hrs.2 hnext]
    rfl

/-- In a text of spellings, two digits follow every percent sign. -/
theorem digits_of_percent (hf : ∀ a, IsSpelling (f a)) {as : List α} {before after : List Char}
    (h : as.flatMap f = before ++ '%' :: after) :
    ∃ x y rest, after = x :: y :: rest ∧ isUpperHex x = true ∧ isUpperHex y = true := by
  induction as generalizing before with
  | nil => simp at h
  | cons a as ih =>
    rw [List.flatMap_cons] at h
    -- The percent sign stands behind the first spelling, or it is its first character.
    have hspelling := hf a
    generalize f a = w at h hspelling
    cases hspelling with
    | single hc =>
      cases before with
      | nil => exact absurd (List.cons.inj h).1 hc
      | cons c before => exact ih (List.cons.inj h).2
    | @escape x y hx hy =>
      match before with
      | [] => exact ⟨x, y, as.flatMap f, (List.cons.inj h).2.symm, hx, hy⟩
      | [c] =>
        obtain ⟨-, rfl, -⟩ : '%' = c ∧ x = '%' ∧ _ := by simpa using h
        cases hx
      | [c, d] =>
        obtain ⟨-, -, rfl, -⟩ : '%' = c ∧ x = d ∧ y = '%' ∧ _ := by simpa using h
        cases hy
      | c :: d :: e :: before =>
        obtain ⟨-, -, -, h⟩ : '%' = c ∧ x = d ∧ y = e ∧ _ := by simpa using h
        exact ih h

end SearchDialect.Text
