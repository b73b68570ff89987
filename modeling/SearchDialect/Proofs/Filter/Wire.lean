import SearchDialect.Proofs.Filter.Json

/-!
# What a filter comes back as

`Filter.ComesBack` says rule by rule what the JSON of a filter may be read as: its property,
comparison, tag, visibility and links stay as they are, and `Literal.ComesBack` has the rules for its
literal. Every filter comes back, as one filter only, and it is the one that the reader gives
(`ofJson_toJson_iff`).
-/

namespace SearchDialect

open Number Time

namespace Literal

/-- What a literal comes back as. Of the literals that JSON writes as texts, a character comes back
as a text and a text that is a date-time as that date-time; a date-time outside the years 0 to 9999
is no date-time to the reader. -/
inductive ComesBack : Literal → Literal → Prop where
  | same {v : Literal} (h : v.Stable) : ComesBack v v
  | char (c : Char) : ComesBack (char c) (text (String.singleton c))
  | notFinite {d : Double} (h : d.isFinite = false) : ComesBack (double d) null
  | dateTime {s : String} {t : Timestamp} (h : readTimestamp? s.toList = some t) :
    ComesBack (text s) (time t)
  | outside {t : Timestamp} (h : ¬(0 ≤ t.date.year ∧ t.date.year ≤ 9999)) :
    ComesBack (time t) (text t.text)

theorem comesBack_reread (v : Literal) : v.ComesBack v.reread := by
  cases v with
  | null | bool b | int i => exact .same trivial
  | double d =>
    rw [reread]
    split
    · next h => exact .same h
    · next h => exact .notFinite (Bool.eq_false_iff.2 h)
  | text s =>
    rw [reread]
    split
    · next h => exact .dateTime h
    · next h => exact .same h
  | time t =>
    rw [reread]
    split
    · next h => exact .same h
    · next h => exact .outside h
  | char c => exact .char c

theorem comesBack_iff {v w : Literal} : v.ComesBack w ↔ w = v.reread := by
  constructor
  · intro h
    cases h with
    | same h => exact (reread_of_stable h).symm
    | char c => rfl
    | notFinite h => simp [reread, h]
    | dateTime h => simp [reread, h]
    | outside h => exact (if_neg h).symm
  · rintro rfl
    exact v.comesBack_reread

end Literal

namespace Filter

mutual

/-- What a filter comes back as. -/
inductive ComesBack : Filter → Filter → Prop where
  | node {p : String} {c : Comparison} {v w : Literal} {t : Option String} {vi : Bool}
      {ls ks : List (Connective × Filter)} (hvalue : v.ComesBack w)
      (hlinks : LinksComeBack ls ks) : ComesBack (node p c v t vi ls) (node p c w t vi ks)

/-- What links come back as: the same number of links, in the same order. -/
inductive LinksComeBack : List (Connective × Filter) → List (Connective × Filter) → Prop where
  | nil : LinksComeBack [] []
  | cons {c : Connective} {f g : Filter} {ls ks : List (Connective × Filter)}
      (hfilter : ComesBack f g) (hlinks : LinksComeBack ls ks) :
      LinksComeBack ((c, f) :: ls) ((c, g) :: ks)

end

mutual

theorem comesBack_reread (f : Filter) : f.ComesBack f.reread := by
  match f with
  | node p c v t vi ls => exact .node v.comesBack_reread (linksComeBack_rereadLinks ls)

theorem linksComeBack_rereadLinks (ls : List (Connective × Filter)) :
    LinksComeBack ls (rereadLinks ls) := by
  match ls with
  | [] => exact .nil
  | (c, f) :: ls => exact .cons (comesBack_reread f) (linksComeBack_rereadLinks ls)

end

mutual

theorem ComesBack.eq_reread {f g : Filter} (h : f.ComesBack g) : g = f.reread := by
  match h with
  | .node hvalue hlinks => rw [reread, Literal.comesBack_iff.1 hvalue, hlinks.eq_rereadLinks]

theorem LinksComeBack.eq_rereadLinks {ls ks : List (Connective × Filter)}
    (h : LinksComeBack ls ks) : ks = rereadLinks ls := by
  match h with
  | .nil => rfl
  | .cons hfilter hlinks => rw [rereadLinks, hfilter.eq_reread, hlinks.eq_rereadLinks]

end

theorem comesBack_iff {f g : Filter} : f.ComesBack g ↔ g = f.reread := by
  constructor
  · exact ComesBack.eq_reread
  · rintro rfl
    exact f.comesBack_reread

mutual

/-- The JSON of a filter, members in the order of the printer, is read back. -/
theorem ofJson_toJson (f : Filter) : ofJson f.toJson = .ok f.reread := by
  match f with
  | node p c v t vi ls =>
    rw [toJson, reread]
    exact ofJson_obj rfl rfl rfl v.ofJson_toJson rfl rfl rfl (linksOfJson_linksToJson ls)

theorem linksOfJson_linksToJson (ls : List (Connective × Filter)) :
    linksOfJson (linksToJson ls) = .ok (rereadLinks ls) := by
  match ls with
  | [] => rw [linksToJson, linksOfJson]; rfl
  | (c, f) :: ls =>
    have hlink : linkOfJson (.obj [("l", .str c.word), ("f", toJson f)]) = .ok (c, f.reread) :=
      linkOfJson_obj rfl rfl (ofJson_toJson f)
    rw [linksToJson, linksOfJson, hlink, linksOfJson_linksToJson ls]
    rfl

end

/-- Every filter comes back from its JSON as what the rules say and as nothing else, whether the
members stand in the order of the printer or in the order of their names. -/
theorem ofJson_toJson_iff (f : Filter) :
    (∃ g, f.ComesBack g) ∧ ∀ g, (ofJson f.toJson = .ok g ↔ f.ComesBack g) ∧
      (ofJson f.toJson.sort = .ok g ↔ f.ComesBack g) := by
  refine ⟨⟨f.reread, f.comesBack_reread⟩, fun g => ?_⟩
  rw [ofJson_toJson, ofJson_sort_toJson, comesBack_iff, Except.ok.injEq]
  exact ⟨eq_comm, eq_comm⟩

end Filter

end SearchDialect
