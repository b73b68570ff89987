import SearchDialect.Model.Basic

/-!
# What members hold

The functions that look at a model, told as statements about its declarations: which type is left
when all optional and list wrappers are taken off (`Unwraps`), which member a name stands for
(`Declares`), and which members hold a value at all (`Holds`, `HoldsNothing`). In a model that was
checked a name stands for one member only (`namesApart_of_check`).
-/

namespace SearchDialect

variable {ι : Type}

/-! ## Types -/

namespace MemberType

/-- Some wrappers of a type, optional or list, in whatever order, are around another type. -/
inductive Unwraps : MemberType ι → MemberType ι → Prop where
  | none {t : MemberType ι} : Unwraps t t
  | nullable {t u : MemberType ι} : Unwraps t u → Unwraps (nullable t) u
  | list {t u : MemberType ι} : Unwraps t u → Unwraps (list t) u

/-- A type whose values are of a kind: under its wrappers it is that kind of value, or an
enumeration, whose values are integers. -/
inductive HasKind : MemberType ι → Kind → Prop where
  | value {t : MemberType ι} {k : Kind} : t.Unwraps (.value k) → HasKind t k
  | enumeration {t : MemberType ι} {name : String} : t.Unwraps (.enumeration name) → HasKind t .int

theorem unwraps_core (t : MemberType ι) : t.Unwraps t.core := by
  induction t with
  | value k | enumeration name | object i => exact .none
  | nullable t ih => exact .nullable ih
  | list t ih => exact .list ih

theorem Unwraps.core_eq {t u : MemberType ι} (h : t.Unwraps u) : t.core = u.core := by
  induction h with
  | none => rfl
  | nullable _ ih => exact ih
  | list _ ih => exact ih

/-- Under its wrappers a type is a value, an enumeration or an object. -/
theorem core_cases (t : MemberType ι) :
    (∃ k, t.core = .value k) ∨ (∃ name, t.core = .enumeration name) ∨ ∃ i, t.core = .object i := by
  induction t with
  | value k => exact .inl ⟨k, rfl⟩
  | enumeration name => exact .inr (.inl ⟨name, rfl⟩)
  | object i => exact .inr (.inr ⟨i, rfl⟩)
  | nullable t ih => exact ih
  | list t ih => exact ih

theorem object?_eq_some_iff {t : MemberType ι} {i : ι} :
    t.object? = some i ↔ t.Unwraps (.object i) := by
  constructor
  · intro h
    rw [object?] at h
    split at h
    · next j hj =>
      cases h
      rw [← hj]
      exact t.unwraps_core
    · cases h
  · intro h
    have hcore : t.core = .object i := h.core_eq
    rw [object?, hcore]

theorem object?_eq_none_iff {t : MemberType ι} :
    t.object? = none ↔ ∀ i, ¬ t.Unwraps (.object i) := by
  simp only [Option.eq_none_iff_forall_ne_some, ne_eq, object?_eq_some_iff]

theorem kind?_eq_some_iff {t : MemberType ι} {k : Kind} : t.kind? = some k ↔ t.HasKind k := by
  constructor
  · intro h
    have hcore := t.unwraps_core
    rw [kind?] at h
    split at h
    · next j hj =>
      cases h
      rw [hj] at hcore
      exact .value hcore
    · next name hname =>
      cases h
      rw [hname] at hcore
      exact .enumeration hcore
    · cases h
  · intro h
    cases h with
    | value h =>
      have hcore : t.core = .value k := h.core_eq
      rw [kind?, hcore]
    | @enumeration name h =>
      have hcore : t.core = .enumeration name := h.core_eq
      rw [kind?, hcore]

/-- A type that is no object has a kind. -/
theorem exists_hasKind {t : MemberType ι} (h : ∀ i, ¬ t.Unwraps (.object i)) :
    ∃ k, t.HasKind k := by
  have hcore := t.unwraps_core
  rcases t.core_cases with ⟨k, hk⟩ | ⟨name, hname⟩ | ⟨i, hi⟩
  · rw [hk] at hcore
    exact ⟨k, .value hcore⟩
  · rw [hname] at hcore
    exact ⟨.int, .enumeration hcore⟩
  · rw [hi] at hcore
    exact absurd hcore (h i)

/-- The values of an object have no kind. -/
theorem kind?_of_object {t : MemberType ι} {i : ι} (h : t.Unwraps (.object i)) :
    t.kind? = none := by
  have hcore : t.core = .object i := h.core_eq
  rw [kind?, hcore]

end MemberType

/-! ## Members -/

namespace Member

/-- A field or property of a type. -/
def Holds (x : Member ι) (t : MemberType ι) : Prop :=
  (x.role = .field ∨ x.role = .property) ∧ x.type? = some t

/-- A method, a constructor or an event; fields and properties are declared with a type. -/
def HoldsNothing (x : Member ι) : Prop :=
  (x.role = .method ∨ x.role = .constructor ∨ x.role = .event) ∨ x.type? = none

theorem accessibleType?_eq_some_iff {x : Member ι} {t : MemberType ι} :
    x.accessibleType? = some t ↔ x.Holds t := by
  rw [accessibleType?, Holds]
  cases x.role <;> simp [MemberRole.isAccessible]

theorem accessibleType?_eq_none_iff {x : Member ι} :
    x.accessibleType? = none ↔ x.HoldsNothing := by
  rw [accessibleType?, HoldsNothing]
  cases x.role <;> simp [MemberRole.isAccessible]

end Member

namespace Model

/-- The first member of a model that has a name. -/
def Declares (m : Model ι) (name : String) (x : Member ι) : Prop :=
  ∃ before after, m.members = before ++ x :: after ∧ x.name = name ∧ ∀ y ∈ before, y.name ≠ name

theorem member?_eq_some_iff {m : Model ι} {name : String} {x : Member ι} :
    m.member? name = some x ↔ m.Declares name x := by
  rw [member?, List.find?_eq_some_iff_append, Declares]
  constructor
  · rintro ⟨hname, before, after, hmembers, hbefore⟩
    exact ⟨before, after, hmembers, by simpa using hname, fun y hy => by simpa using hbefore y hy⟩
  · rintro ⟨before, after, hmembers, hname, hbefore⟩
    exact ⟨by simpa using hname, before, after, hmembers, fun y hy => by simpa using hbefore y hy⟩

theorem member?_eq_none_iff {m : Model ι} {name : String} :
    m.member? name = none ↔ ∀ x ∈ m.members, x.name ≠ name := by
  simp [member?]

/-! ## Names -/

/-- No two members have the same name. -/
def NamesApart (m : Model ι) : Prop := (m.members.map (·.name)).Nodup

theorem firstRepeated?_eq_none_iff {seen names : List String} :
    firstRepeated? seen names = none ↔ names.Nodup ∧ ∀ n ∈ names, n ∉ seen := by
  induction names generalizing seen with
  | nil => simp [firstRepeated?]
  | cons n ns ih =>
    rw [firstRepeated?]
    by_cases hn : n ∈ seen
    · simp [hn]
    · -- the name is seen from now on, so that it may not come again
      rw [if_neg hn, ih]
      grind

/-- A model that was checked tells its members apart by their names. -/
theorem namesApart_of_check {m m' : Model ι} (h : m.check = .ok m') : m.NamesApart := by
  rw [check] at h
  split at h
  · cases h
  · next hnames => exact (firstRepeated?_eq_none_iff.1 hnames).1

end Model

end SearchDialect
