import SearchDialect.Model.Path
import SearchDialect.Proofs.Model.Member
import SearchDialect.Proofs.Outcome
import SearchDialect.Proofs.Text.Split

/-!
# Where a path leads

The segments of a path before one of them lead from model to model (`Leads`), and at that segment the
path ends, on a value or with a fault (`EndsWith`). Every path ends at one segment in one way, and
`kindAt` tells it (`kindAt_eq_iff`). The models of the family may refer to each other in any way: it
is the path that gets shorter.
-/

namespace SearchDialect

open Text

variable {ι : Type}

/-! ## Segments -/

/-- The segments of a path: they hold no dots, and with dots between them they are the path. -/
structure AreSegments (ss : List String) (path : String) : Prop where
  ne_nil : ss ≠ []
  dotless : ∀ s ∈ ss, '.' ∉ s.toList
  path_eq : path = joinStrings "." ss

theorem areSegments_iff {ss : List String} {path : String} :
    AreSegments ss path ↔ Model.segments path = ss := by
  rw [Model.segments, splitString]
  constructor
  · rintro ⟨hne, hdotless, rfl⟩
    have hparts : ∀ part ∈ ss.map String.toList, '.' ∉ part := by
      intro part hpart
      obtain ⟨s, hs, rfl⟩ := List.mem_map.1 hpart
      exact hdotless s hs
    rw [joinStrings, String.toList_ofList, show ".".toList = ['.'] from rfl,
      split_join (by simpa using hne) hparts]
    simp
  · rintro rfl
    refine ⟨by simpa using split_ne_nil '.' path.toList, ?_, ?_⟩
    · intro s hs
      obtain ⟨part, hpart, rfl⟩ := List.mem_map.1 hs
      rw [String.toList_ofList]
      exact not_mem_of_mem_split hpart
    · have hjoin := join_split '.' path.toList
      simp [joinStrings, Function.comp_def, hjoin]

theorem Model.segments_ne_nil (path : String) : Model.segments path ≠ [] :=
  (areSegments_iff.2 rfl).ne_nil

namespace Model

variable (family : Family ι)

/-! ## The walk -/

/-- A name opens the object of a member: it stands for a field or property of that object. -/
def Opens (m : Model ι) (name : String) (i : ι) : Prop :=
  name ≠ "" ∧ ∃ x t, m.Declares name x ∧ x.Holds t ∧ t.Unwraps (.object i)

/-- Names that lead from one model to another, each opening an object of the next model. -/
inductive Leads : Model ι → List String → Model ι → Prop where
  | here {m : Model ι} : Leads m [] m
  | inside {m n : Model ι} {name : String} {names : List String} {i : ι} : m.Opens name i →
      Leads (family i) names n → Leads m (name :: names) n

/-- How a path that starts at the model `root` ends at one of its segments, with the segments that
come after it. -/
inductive EndsWith (path root : String) (m : Model ι) :
    String → List String → Except ModelError Kind → Prop where
  | value {name : String} {x : Member ι} {t : MemberType ι} {k : Kind} : name ≠ "" →
      m.Declares name x → x.Holds t → t.HasKind k → EndsWith path root m name [] (.ok k)
  | empty {rest : List String} : EndsWith path root m "" rest (.error (.emptyPath m.name))
  | unknown {name : String} {rest : List String} : name ≠ "" → (∀ x ∈ m.members, x.name ≠ name) →
      EndsWith path root m name rest (.error (.unknownMember name m.name))
  | notAccessible {name : String} {rest : List String} {x : Member ι} : name ≠ "" →
      m.Declares name x → x.HoldsNothing →
      EndsWith path root m name rest (.error (.notAccessible name m.name))
  | noObject {name next : String} {rest : List String} {x : Member ι} {t : MemberType ι} :
      name ≠ "" → m.Declares name x → x.Holds t → (∀ i, ¬ t.Unwraps (.object i)) →
      EndsWith path root m name (next :: rest)
        (.error (.unknownMember next (m.name ++ "." ++ name)))
  | notAValue {name : String} {i : ι} : m.Opens name i →
      EndsWith path root m name [] (.error (.notAValue path root))

variable {family} {path root : String}

/-- At a segment the path ends, or it goes on in an object. -/
theorem endsWith_or_opens (path root : String) (m : Model ι) (name : String)
    (rest : List String) :
    (∃ r, EndsWith path root m name rest r) ∨ rest ≠ [] ∧ ∃ i, m.Opens name i := by
  by_cases hname : name = ""
  · subst hname
    exact .inl ⟨_, .empty⟩
  cases hx : m.member? name with
  | none => exact .inl ⟨_, .unknown hname (member?_eq_none_iff.1 hx)⟩
  | some x =>
    have hx := member?_eq_some_iff.1 hx
    cases ht : x.accessibleType? with
    | none => exact .inl ⟨_, .notAccessible hname hx (Member.accessibleType?_eq_none_iff.1 ht)⟩
    | some t =>
      have ht := Member.accessibleType?_eq_some_iff.1 ht
      cases hi : t.object? with
      | none =>
        have hi := MemberType.object?_eq_none_iff.1 hi
        cases rest with
        | nil =>
          obtain ⟨k, hk⟩ := MemberType.exists_hasKind hi
          exact .inl ⟨_, .value hname hx ht hk⟩
        | cons next rest => exact .inl ⟨_, .noObject hname hx ht hi⟩
      | some i =>
        have hopens : m.Opens name i := ⟨hname, x, t, hx, ht, MemberType.object?_eq_some_iff.1 hi⟩
        cases rest with
        | nil => exact .inl ⟨_, .notAValue hopens⟩
        | cons next rest => exact .inr ⟨List.cons_ne_nil _ _, i, hopens⟩

/-- Every path ends at one of its segments. -/
theorem exists_endsWith (family : Family ι) (path root : String) (m : Model ι) {ss : List String}
    (h : ss ≠ []) : ∃ names name rest n r, ss = names ++ name :: rest ∧ Leads family m names n ∧
      EndsWith path root n name rest r := by
  induction ss generalizing m with
  | nil => exact absurd rfl h
  | cons s ss ih =>
    rcases endsWith_or_opens path root m s ss with ⟨r, hr⟩ | ⟨hne, i, hi⟩
    · exact ⟨[], s, ss, m, r, rfl, .here, hr⟩
    · obtain ⟨names, name, rest, n, r, rfl, hleads, hr⟩ := ih (family i) hne
      exact ⟨s :: names, name, rest, n, r, rfl, .inside hi hleads, hr⟩

/-! ## What is computed -/

/-- The kind of value that a member holds at the end of a path. -/
def endKind (path root : String) (owner : Model ι) (x : Member ι) : Except ModelError Kind :=
  match x.accessibleType? with
  | none => .error (.notAccessible x.name owner.name)
  | some t =>
    match t.kind? with
    | none => .error (.notAValue path root)
    | some k => .ok k

theorem kindAt_eq (m : Model ι) (path : String) : m.kindAt family path =
    (m.locate family (segments path) >>= fun p => endKind path m.name p.1 p.2) := rfl

/-- An object is opened before the rest of a path is looked at. -/
theorem locate_of_opens {m : Model ι} {name : String} {i : ι} (h : m.Opens name i)
    {rest : List String} (hrest : rest ≠ []) :
    m.locate family (name :: rest) = (family i).locate family rest := by
  obtain ⟨hname, x, t, hx, ht, hi⟩ := h
  cases rest with
  | nil => exact absurd rfl hrest
  | cons next rest =>
    have hne : name.isEmpty = false := by simpa using hname
    rw [locate, hne, member?_eq_some_iff.2 hx]
    simp only [Bool.false_eq_true, if_false, Member.accessibleType?_eq_some_iff.2 ht,
      MemberType.object?_eq_some_iff.2 hi]

/-- The names that lead to a model are walked over before the rest of a path is looked at. -/
theorem locate_of_leads {m n : Model ι} {names : List String} (h : Leads family m names n)
    {rest : List String} (hrest : rest ≠ []) :
    m.locate family (names ++ rest) = n.locate family rest := by
  induction h with
  | here => rfl
  | inside hopens _ ih =>
    rw [List.cons_append, locate_of_opens hopens (List.append_ne_nil_of_right_ne_nil _ hrest), ih]

/-- The last name of a path stands for the member it leads to. -/
theorem locate_last {m : Model ι} {name : String} {x : Member ι} (hname : name ≠ "")
    (hx : m.Declares name x) : m.locate family [name] = .ok (m, x) := by
  simp [locate, hname, member?_eq_some_iff.2 hx]

theorem locate_of_endsWith {m : Model ι} {name : String} {rest : List String}
    {r : Except ModelError Kind} (h : EndsWith path root m name rest r) :
    (m.locate family (name :: rest) >>= fun p => endKind path root p.1 p.2) = r := by
  cases h with
  | value hname hx ht hk =>
    rw [locate_last hname hx, ok_bind]
    simp only [endKind, Member.accessibleType?_eq_some_iff.2 ht, MemberType.kind?_eq_some_iff.2 hk]
  | empty => simp [locate]
  | unknown hname hx => simp [locate, hname, member?_eq_none_iff.2 hx]
  | notAccessible hname hx ht =>
    have ht := Member.accessibleType?_eq_none_iff.2 ht
    obtain ⟨_, _, -, rfl, -⟩ := id hx
    cases rest with
    | nil =>
      rw [locate_last hname hx, ok_bind]
      simp only [endKind, ht]
    | cons next rest => simp [locate, hname, member?_eq_some_iff.2 hx, ht]
  | noObject hname hx ht hi =>
    simp [locate, hname, member?_eq_some_iff.2 hx, Member.accessibleType?_eq_some_iff.2 ht,
      MemberType.object?_eq_none_iff.2 hi]
  | notAValue hopens =>
    obtain ⟨hname, x, t, hx, ht, hi⟩ := hopens
    rw [locate_last hname hx, ok_bind]
    simp only [endKind, Member.accessibleType?_eq_some_iff.2 ht, MemberType.kind?_of_object hi]

/-- The kind of value that a path leads to, or its fault, is the one with which it ends at one of
its segments. All segments before that one lead from model to model. -/
theorem kindAt_eq_iff (family : Family ι) (m : Model ι) (path : String)
    (r : Except ModelError Kind) :
    m.kindAt family path = r ↔ ∃ names name rest n, AreSegments (names ++ name :: rest) path ∧
      Leads family m names n ∧ EndsWith path m.name n name rest r := by
  have hcomputed {names : List String} {name : String} {rest : List String} {n : Model ι}
      {r : Except ModelError Kind} (hs : AreSegments (names ++ name :: rest) path)
      (hleads : Leads family m names n) (hr : EndsWith path m.name n name rest r) :
      m.kindAt family path = r := by
    rw [kindAt_eq, areSegments_iff.1 hs, locate_of_leads hleads (List.cons_ne_nil _ _)]
    exact locate_of_endsWith hr
  constructor
  · rintro rfl
    obtain ⟨names, name, rest, n, r, hss, hleads, hr⟩ :=
      exists_endsWith family path m.name m (segments_ne_nil path)
    have hs : AreSegments (names ++ name :: rest) path := areSegments_iff.2 hss
    rw [hcomputed hs hleads hr]
    exact ⟨names, name, rest, n, hs, hleads, hr⟩
  · rintro ⟨names, name, rest, n, hs, hleads, hr⟩
    exact hcomputed hs hleads hr

end Model

end SearchDialect
