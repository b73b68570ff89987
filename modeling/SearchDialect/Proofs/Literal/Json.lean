import SearchDialect.Literal.Basic
import SearchDialect.Proofs.Json.Printer
import SearchDialect.Proofs.Time.Reader

/-!
# Round trip of literals through JSON

JSON has no form for some literals, which come back as others: `Literal.reread` says which.
`Literal.Stable` are the literals that come back as themselves (`reread_eq_self_iff`). A literal that
was read is one of them, but for date-times that cannot be written (`IsDecoded.stable_iff`). From a
text of JSON a double comes back as what its numeral is read as (`rereadText?`), which is the same
for the literals of `Literal.Survives`.
-/

namespace SearchDialect.Literal

open Number Time

/-- The literal that a literal is read back as. -/
def reread : Literal → Literal
  | double d => if d.isFinite then double d else null
  | text s =>
    match readTimestamp? s.toList with
    | some t => time t
    | none => text s
  | time t => if 0 ≤ t.date.year ∧ t.date.year ≤ 9999 then time t else text t.text
  | char c => text (String.singleton c)
  | v => v

/-- A literal that is read back as itself: no character, no infinity or NaN, no text that is a
date-time, and no date-time outside the years 0 to 9999. -/
def Stable : Literal → Prop
  | double d => d.isFinite = true
  | text s => readTimestamp? s.toList = none
  | time t => 0 ≤ t.date.year ∧ t.date.year ≤ 9999
  | char _ => False
  | _ => True

instance decidableStable : (v : Literal) → Decidable v.Stable
  | null | bool _ | int _ => isTrue trivial
  | double d => inferInstanceAs (Decidable (d.isFinite = true))
  | text s => inferInstanceAs (Decidable (readTimestamp? s.toList = none))
  | time t => inferInstanceAs (Decidable (0 ≤ t.date.year ∧ t.date.year ≤ 9999))
  | char _ => isFalse id

theorem reread_of_stable {v : Literal} (h : v.Stable) : v.reread = v := by
  cases v with
  | null | bool b | int i => rfl
  | double d => exact if_pos h
  | text s =>
    show (match readTimestamp? s.toList with
      | some t => time t
      | none => text s) = _
    rw [show readTimestamp? s.toList = none from h]
  | time t => exact if_pos h
  | char c => exact h.elim

theorem reread_eq_self_iff {v : Literal} : v.reread = v ↔ v.Stable := by
  constructor
  · intro h
    cases v with
    | null | bool b | int i => trivial
    | double d =>
      rw [reread] at h
      split at h
      · next hd => exact hd
      · cases h
    | text s =>
      rw [reread] at h
      split at h
      · cases h
      · next hs => exact hs
    | time t =>
      rw [reread] at h
      split at h
      · next ht => exact ht
      · cases h
    | char c => cases h
  · exact reread_of_stable

/-- One character is no date-time. -/
theorem readTimestamp?_singleton (c : Char) : readTimestamp? [c] = none := by
  have hsize : byteCount [c] < 19 := by
    have hc := c.utf8Size_le_four
    show c.utf8Size + 0 < 19
    omega
  rw [readTimestamp?, readTimestamp, if_pos hsize]
  rfl

theorem ofJson_str (s : String) : ofJson (.str s) =
    .ok (match readTimestamp? s.toList with
      | some t => time t
      | none => text s) := by
  rw [ofJson]
  cases readTimestamp? s.toList <;> rfl

/-- The JSON of a literal is read back. -/
theorem ofJson_toJson (v : Literal) : ofJson v.toJson = .ok v.reread := by
  cases v with
  | null | bool b => rfl
  | int i =>
    rw [toJson, ofJson, int64?_toInt]
    rfl
  | double d =>
    rw [toJson, Json.ofDouble, reread]
    split <;> rfl
  | text s => exact ofJson_str s
  | time t =>
    rw [toJson, ofJson_str, Timestamp.text, String.toList_ofList, reread]
    by_cases h : 0 ≤ t.date.year ∧ t.date.year ≤ 9999
    · rw [if_pos h, readTimestamp?, readTimestamp_chars h]
      rfl
    · rw [if_neg h, readTimestamp?_outside h]
      rfl
  | char c =>
    rw [toJson, ofJson_str, String.toList_singleton, readTimestamp?_singleton, reread]

/-! ## Literals that were read -/

/-- A literal as it is read from JSON: one that comes back as itself, or a date-time of whatever
year. -/
def IsDecoded (v : Literal) : Prop := v.Stable ∨ ∃ t, v = time t

theorem isDecoded_of_ofJson {j : Json} {v : Literal} (hj : j.Plain) (h : ofJson j = .ok v) :
    v.IsDecoded := by
  cases j with
  | null | bool b =>
    cases h
    exact .inl trivial
  | int i =>
    rw [ofJson] at h
    split at h
    · cases h
      exact .inl trivial
    · cases h
      obtain ⟨hlo, hhi⟩ : Json.Written.IsWide i := hj
      exact .inl (Double.isFinite_ofInt (by omega))
  | double d =>
    cases h
    exact .inl hj
  | str s =>
    rw [ofJson_str] at h
    cases hs : readTimestamp? s.toList with
    | none =>
      rw [hs] at h
      cases h
      exact .inl hs
    | some t =>
      rw [hs] at h
      cases h
      exact .inr ⟨t, rfl⟩
  | arr items => cases h
  | obj members => cases h

/-- A date-time that does not come back as itself comes back as a text that does. -/
theorem IsDecoded.stable_reread {v : Literal} (h : v.IsDecoded) : v.reread.Stable := by
  rcases h with h | ⟨t, rfl⟩
  · rw [reread_of_stable h]
    exact h
  · rw [reread]
    split
    · next ht => exact ht
    · next ht =>
      show readTimestamp? t.text.toList = none
      rw [Timestamp.text, String.toList_ofList]
      exact readTimestamp?_outside ht

/-- What was read comes back as itself unless it is a date-time outside the years 0 to 9999. -/
theorem IsDecoded.stable_iff {v : Literal} (h : v.IsDecoded) :
    v.Stable ↔ ∀ t, v = time t → 0 ≤ t.date.year ∧ t.date.year ≤ 9999 := by
  constructor
  · rintro hv t rfl
    exact hv
  · intro htime
    rcases h with hv | ⟨t, rfl⟩
    · exact hv
    · exact htime t rfl

/-! ## The JSON of a literal -/

/-- The JSON of a literal is no container and has a text of its own. -/
theorem plain_toJson (v : Literal) : Json.Plain v.toJson := by
  cases v with
  | int i =>
    have hlo := i.le_toInt
    have hhi := i.toInt_lt
    exact ⟨hlo, by omega⟩
  | double d =>
    rw [toJson, Json.ofDouble]
    split
    · next h => exact h
    · trivial
  | _ => trivial

@[simp] theorem nesting_toJson (v : Literal) : Json.nesting v.toJson = 0 := by
  cases v with
  | double d =>
    rw [toJson, Json.ofDouble]
    split <;> rfl
  | _ => rfl

@[simp] theorem sort_toJson (v : Literal) : Json.sort v.toJson = v.toJson := by
  cases v with
  | double d =>
    rw [toJson, Json.ofDouble]
    split <;> rfl
  | _ => rfl

/-! ## Through a text -/

/-- The literal that a literal is read back as from the text of its JSON, where a double is read from
its numeral. -/
def rereadText? : Literal → Option Literal
  | double d => if d.isFinite then (Json.reparsedDouble? d).map double else some null
  | v => some v.reread

/-- A literal whose double, if it is a finite one, is read back from its numeral. -/
def Survives : Literal → Prop
  | double d => d.isFinite = true → Json.Survives d
  | _ => True

instance decidableSurvives : (v : Literal) → Decidable v.Survives
  | double d => inferInstanceAs (Decidable (d.isFinite = true → Json.Survives d))
  | null | bool _ | int _ | text _ | time _ | char _ => isTrue trivial

theorem rereadText?_of_survives {v : Literal} (h : v.Survives) :
    v.rereadText? = some v.reread := by
  cases v with
  | double d =>
    rw [rereadText?, reread]
    split
    · next hd => rw [show Json.reparsedDouble? d = some d from h hd, Option.map_some]
    · rfl
  | _ => rfl

theorem rereadText?_eq_self_iff {v : Literal} :
    v.rereadText? = some v ↔ v.Stable ∧ v.Survives := by
  constructor
  · intro h
    cases v with
    | double d =>
      rw [rereadText?] at h
      split at h
      · next hd =>
        obtain ⟨e, he, hed⟩ := Option.map_eq_some_iff.1 h
        cases hed
        exact ⟨hd, fun _ => he⟩
      · cases h
    | _ => exact ⟨reread_eq_self_iff.1 (Option.some.inj h), trivial⟩
  · rintro ⟨hstable, hsurvives⟩
    rw [rereadText?_of_survives hsurvives, reread_of_stable hstable]

/-- The JSON of a literal is read back from its text. -/
theorem rel_reparsed?_toJson (v : Literal) :
    Option.Rel (fun j w => ofJson j.sort = .ok w) v.toJson.reparsed? v.rereadText? := by
  have hsame (h : v.toJson.reparsed? = some v.toJson) (hv : v.rereadText? = some v.reread) :
      Option.Rel (fun j w => ofJson j.sort = .ok w) v.toJson.reparsed? v.rereadText? := by
    rw [h, hv]
    exact .some (by rw [sort_toJson, ofJson_toJson])
  cases v with
  | double d =>
    rw [toJson, Json.ofDouble, rereadText?]
    split
    · rw [Json.reparsed?]
      cases Json.reparsedDouble? d with
      | none => exact .none
      | some e => exact .some rfl
    · exact .some rfl
  | _ => exact hsame rfl rfl

end SearchDialect.Literal
