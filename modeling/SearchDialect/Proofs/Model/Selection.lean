import SearchDialect.Model.Selection
import SearchDialect.Proofs.Model.Member
import Mathlib.Data.List.Nodup

/-!
# What is selected

A chain of members leads from a model through its objects (`IsChain`), each member listed with the
place of its declaration. A selection consists of the chains that end on a value, or that are cut off
at nine members (`Selects`): all of them, each once, in the order in which the places of their
members come (`selection_exact`). Models that contain themselves are no exception.
-/

namespace SearchDialect

open Text

variable {ι : Type}

/-- A field or property that is not ignored. -/
def Member.Selected (x : Member ι) : Prop :=
  (x.role = .field ∨ x.role = .property) ∧ x.ignored = false

/-- A member whose type, under its wrappers, is the object of some model. -/
def Member.OpensObject (x : Member ι) (i : ι) : Prop :=
  ∃ t, x.type? = some t ∧ t.Unwraps (.object i)

theorem Member.isSelectable_iff {x : Member ι} : x.isSelectable = true ↔ x.Selected := by
  rw [isSelectable, Selected]
  cases x.role <;> simp [MemberRole.isAccessible]

theorem Member.opensObject_iff {x : Member ι} {i : ι} :
    x.type?.bind (·.object?) = some i ↔ x.OpensObject i := by
  simp only [Option.bind_eq_some_iff, MemberType.object?_eq_some_iff, OpensObject]

namespace Model

/-- Members with the places of their declarations. -/
abbrev Chain (ι : Type) := List (Member ι × Nat)

namespace Chain

def names (c : Chain ι) : List String := c.map fun s => s.1.name

def places (c : Chain ι) : List Nat := c.map fun s => s.2

end Chain

variable (family : Family ι)

/-- A chain of members that starts in a model: each member but the last opens the object whose model
declares the next one. -/
inductive IsChain : Model ι → Chain ι → Prop where
  | last {m : Model ι} {x : Member ι} {place : Nat} : m.members[place]? = some x →
      IsChain m [(x, place)]
  | inside {m : Model ι} {x : Member ι} {place : Nat} {i : ι} {c : Chain ι} :
      m.members[place]? = some x → x.OpensObject i → IsChain (family i) c →
      IsChain m ((x, place) :: c)

/-- The chains of a selection, where `limit` is the largest number of members in a chain. -/
structure Selects (limit : Nat) (m : Model ι) (c : Chain ι) : Prop where
  isChain : IsChain family m c
  selected : ∀ s ∈ c, s.1.Selected
  length_le : c.length ≤ limit
  ends : ∀ s ∈ c.getLast?, (∃ i, s.1.OpensObject i) → c.length = limit

variable {family}

/-! ## Chains -/

theorem IsChain.ne_nil {m : Model ι} {c : Chain ι} (h : IsChain family m c) : c ≠ [] := by
  cases h <;> exact List.cons_ne_nil _ _

/-- Where members are told apart by their names, chains are too. -/
theorem IsChain.eq_of_names_eq (hfamily : ∀ i, (family i).NamesApart) {m : Model ι}
    (hm : m.NamesApart) {c d : Chain ι} (hc : IsChain family m c) (hd : IsChain family m d)
    (h : c.names = d.names) : c = d := by
  -- one name stands at one place of a model
  have hplace {m : Model ι} (hm : m.NamesApart) {x y : Member ι} {p q : Nat}
      (hx : m.members[p]? = some x) (hy : m.members[q]? = some y) (hname : x.name = y.name) :
      (x, p) = (y, q) := by
    have hp : (m.members.map (·.name))[p]? = some x.name := by simp [hx]
    have hq : (m.members.map (·.name))[q]? = some x.name := by simp [hy, hname]
    have hpq : p = q := (List.getElem?_inj (List.getElem?_eq_some_iff.1 hp).1 hm).1 (hp.trans hq.symm)
    subst hpq
    rw [hx, Option.some.injEq] at hy
    rw [hy]
  induction hc generalizing d with
  | last hx =>
    cases hd with
    | last hy =>
      rw [hplace hm hx hy (List.cons.inj h).1]
    | inside hy _ hd =>
      have hnil := (List.cons.inj h).2
      exact absurd (List.map_eq_nil_iff.1 hnil.symm) hd.ne_nil
  | inside hx hi hc ih =>
    cases hd with
    | last hy =>
      have hnil := (List.cons.inj h).2
      exact absurd (List.map_eq_nil_iff.1 hnil) hc.ne_nil
    | inside hy hj hd =>
      obtain ⟨hname, hnames⟩ := List.cons.inj h
      have hstep := hplace hm hx hy hname
      cases hstep
      have hobject := Member.opensObject_iff.2 hi
      rw [Member.opensObject_iff.2 hj, Option.some.injEq] at hobject
      subst hobject
      rw [ih (hfamily _) hd hnames]

/-! ## The expansion with its places -/

/-- The members that can stand in a selection, with their places. -/
def selected (m : Model ι) : Chain ι := m.members.zipIdx.filter (·.1.isSelectable)

/-- The chains that start with a member, given those that start in the object it opens. -/
def startingWith (inside : ι → List (Chain ι)) (s : Member ι × Nat) : List (Chain ι) :=
  match s.1.type?.bind (·.object?) with
  | some i => (inside i).map (s :: ·)
  | none => [[s]]

/-- The chains of members that a model is expanded to, with their places. -/
def expansion (family : Family ι) : Nat → Model ι → List (Chain ι)
  | 0, m => m.selected.map fun s => [s]
  | depth + 1, m => m.selected.flatMap (startingWith fun i => expansion family depth (family i))

theorem mem_selected_iff {m : Model ι} {s : Member ι × Nat} :
    s ∈ m.selected ↔ m.members[s.2]? = some s.1 ∧ s.1.Selected := by
  rw [selected, List.mem_filter, List.mem_zipIdx_iff_getElem?, Member.isSelectable_iff]

theorem map_selected (m : Model ι) :
    m.selected.map Prod.fst = m.members.filter (·.isSelectable) := by
  have h := List.filter_map (f := Prod.fst) (p := Member.isSelectable) (l := m.members.zipIdx)
  rw [List.zipIdx_map_fst] at h
  exact h.symm

theorem pairwise_selected (m : Model ι) : m.selected.Pairwise fun s s' => s.2 < s'.2 := by
  apply List.Pairwise.filter
  rw [← List.pairwise_map, List.zipIdx_map_snd]
  exact List.pairwise_lt_range'

theorem head_of_startingWith {inside : ι → List (Chain ι)} {s : Member ι × Nat} {c : Chain ι}
    (h : c ∈ startingWith inside s) : ∃ rest, c = s :: rest := by
  rw [startingWith] at h
  split at h
  · obtain ⟨rest, -, rfl⟩ := List.mem_map.1 h
    exact ⟨rest, rfl⟩
  · exact ⟨[], List.mem_singleton.1 h⟩

/-- The names in the expansion are what is computed. -/
theorem map_names_expansion (depth : Nat) (m : Model ι) :
    (m.expansion family depth).map Chain.names = m.chains family depth := by
  induction depth generalizing m with
  | zero =>
    rw [expansion, chains, ← map_selected, List.map_map, List.map_map]
    rfl
  | succ depth ih =>
    rw [expansion, chains, ← map_selected, List.map_flatMap, List.flatMap_map]
    congr 1
    funext s
    rw [startingWith]
    cases s.1.type?.bind (·.object?) with
    | none => rfl
    | some i =>
      simp only [← ih, List.map_map]
      rfl

/-! ## Which chains there are -/

theorem selects_singleton_iff {limit : Nat} {m : Model ι} {s : Member ι × Nat} :
    Selects family (limit + 1) m [s] ↔
      s ∈ m.selected ∧ ((∃ i, s.1.OpensObject i) → limit = 0) := by
  rw [mem_selected_iff]
  constructor
  · rintro ⟨hchain, hselected, -, hends⟩
    cases hchain with
    | last hx =>
      refine ⟨⟨hx, hselected _ (List.mem_singleton_self _)⟩, fun hi => ?_⟩
      have hlength := hends _ rfl hi
      rw [List.length_singleton] at hlength
      omega
    | inside _ _ h => exact absurd rfl h.ne_nil
  · rintro ⟨⟨hx, hselected⟩, hends⟩
    refine ⟨.last hx, ?_, Nat.le_add_left 1 limit, ?_⟩
    · intro s' hs'
      rw [List.mem_singleton.1 hs']
      exact hselected
    · intro s' hs' hi
      cases hs'
      rw [hends hi]
      rfl

theorem selects_cons_iff {limit : Nat} {m : Model ι} {s : Member ι × Nat} {c : Chain ι}
    (hc : c ≠ []) : Selects family (limit + 1) m (s :: c) ↔
      s ∈ m.selected ∧ ∃ i, s.1.OpensObject i ∧ Selects family limit (family i) c := by
  rw [mem_selected_iff]
  constructor
  · rintro ⟨hchain, hselected, hlength, hends⟩
    rw [List.forall_mem_cons] at hselected
    rw [List.length_cons] at hlength hends
    cases hchain with
    | last _ => exact absurd rfl hc
    | @inside _ _ _ i _ hx hi hchain =>
      refine ⟨⟨hx, hselected.1⟩, i, hi, hchain, hselected.2, by omega, ?_⟩
      intro s' hs' hobject
      have hlast := hends s' (by rw [List.getLast?_cons_of_ne_nil hc]; exact hs') hobject
      omega
  · rintro ⟨⟨hx, hselected⟩, i, hi, hchain, hrest, hlength, hends⟩
    refine ⟨.inside hx hi hchain, List.forall_mem_cons.2 ⟨hselected, hrest⟩, ?_, ?_⟩
    · exact Nat.succ_le_succ hlength
    · intro s' hs' hobject
      rw [List.getLast?_cons_of_ne_nil hc] at hs'
      rw [List.length_cons, hends s' hs' hobject]

/-- The expansion holds the chains of the selection and no others. -/
theorem mem_expansion_iff {depth : Nat} {m : Model ι} {c : Chain ι} :
    c ∈ m.expansion family depth ↔ Selects family (depth + 1) m c := by
  induction depth generalizing m c with
  | zero =>
    rw [expansion, List.mem_map]
    constructor
    · rintro ⟨s, hs, rfl⟩
      exact selects_singleton_iff.2 ⟨hs, fun _ => rfl⟩
    · intro h
      obtain ⟨s, rfl⟩ := List.length_eq_one_iff.1
        (Nat.le_antisymm h.length_le (List.length_pos_iff.2 h.isChain.ne_nil))
      exact ⟨s, (selects_singleton_iff.1 h).1, rfl⟩
  | succ depth ih =>
    rw [expansion, List.mem_flatMap]
    constructor
    · rintro ⟨s, hs, hc⟩
      rw [startingWith] at hc
      split at hc
      · next i hi =>
        obtain ⟨rest, hrest, rfl⟩ := List.mem_map.1 hc
        have hrest := ih.1 hrest
        exact (selects_cons_iff hrest.isChain.ne_nil).2
          ⟨hs, i, Member.opensObject_iff.1 hi, hrest⟩
      · next hi =>
        rw [List.mem_singleton.1 hc]
        refine selects_singleton_iff.2 ⟨hs, fun ⟨i, hobject⟩ => ?_⟩
        rw [Member.opensObject_iff.2 hobject] at hi
        cases hi
    · intro h
      cases c with
      | nil => exact absurd rfl h.isChain.ne_nil
      | cons s rest =>
        by_cases hrest : rest = []
        · subst hrest
          obtain ⟨hs, hends⟩ := selects_singleton_iff.1 h
          refine ⟨s, hs, ?_⟩
          rw [startingWith]
          cases hi : s.1.type?.bind (·.object?) with
          | none => exact List.mem_singleton_self _
          | some i => exact absurd (hends ⟨i, Member.opensObject_iff.1 hi⟩) (Nat.succ_ne_zero _)
        · obtain ⟨hs, i, hi, hselects⟩ := (selects_cons_iff hrest).1 h
          refine ⟨s, hs, ?_⟩
          rw [startingWith, Member.opensObject_iff.2 hi]
          exact List.mem_map_of_mem (ih.2 hselects)

/-! ## Their order -/

/-- The chains of the expansion come in the order of their places. -/
theorem pairwise_expansion (depth : Nat) (m : Model ι) :
    (m.expansion family depth).Pairwise fun c d => c.places < d.places := by
  induction depth generalizing m with
  | zero =>
    rw [expansion, List.pairwise_map]
    refine m.pairwise_selected.imp fun hlt => ?_
    exact List.cons_lt_cons_iff.2 (.inl hlt)
  | succ depth ih =>
    rw [expansion, List.pairwise_flatMap]
    constructor
    · -- one member, and the chains of its object after it
      intro s _
      rw [startingWith]
      split
      · next i _ =>
        rw [List.pairwise_map]
        refine (ih (family i)).imp fun hlt => ?_
        exact List.cons_lt_cons_iff.2 (.inr ⟨rfl, hlt⟩)
      · exact List.pairwise_singleton _ _
    · refine m.pairwise_selected.imp fun hlt => ?_
      intro c hc d hd
      obtain ⟨_, rfl⟩ := head_of_startingWith hc
      obtain ⟨_, rfl⟩ := head_of_startingWith hd
      exact List.cons_lt_cons_iff.2 (.inl hlt)

/-- The selection of a model is exact: there is a chain for each of its texts, the chains are those
that a selection consists of, and they come in the order in which members are declared, each member
followed by what is inside it. Where members are told apart by their names, no names come twice. -/
theorem selection_exact (family : Family ι) (m : Model ι) : ∃ cs : List (Chain ι),
    m.selection family = cs.map (fun c => joinStrings "/" c.names) ∧
    (∀ c, c ∈ cs ↔ Selects family 9 m c) ∧
    cs.Pairwise (fun c d => c.places < d.places) ∧
    (m.NamesApart → (∀ i, (family i).NamesApart) → (cs.map Chain.names).Nodup) := by
  refine ⟨m.expansion family maxOpened, ?_, fun c => mem_expansion_iff,
    pairwise_expansion maxOpened m, fun hm hfamily => ?_⟩
  · rw [selection, ← map_names_expansion, List.map_map]
    rfl
  · have hnodup : (m.expansion family maxOpened).Nodup := by
      refine (pairwise_expansion maxOpened m).imp ?_
      intro c d hlt heq
      subst heq
      exact List.lt_irrefl _ hlt
    apply hnodup.map_on
    intro c hc d hd hnames
    exact (mem_expansion_iff.1 hc).isChain.eq_of_names_eq hfamily hm
      (mem_expansion_iff.1 hd).isChain hnames

/-- A model that contains itself, with members that are not selected. -/
def person : Model Unit where
  name := "Person"
  members := [
    { name := "Name", role := .property, type? := some (.value .string) },
    { name := "Secret", role := .property, type? := some (.object ()), ignored := true },
    { name := "Friends", role := .field, type? := some (.list (.nullable (.object ()))) },
    { name := "Greet", role := .method, type? := none }]

theorem selection_exact_person : person.NamesApart ∧ ∃ cs : List (Chain Unit),
    person.selection (fun _ => person) = cs.map (fun c => joinStrings "/" c.names) ∧
    (∀ c, c ∈ cs ↔ Selects (fun _ => person) 9 person c) ∧ (cs.map Chain.names).Nodup := by
  have happart : person.NamesApart := by
    rw [NamesApart]
    decide
  obtain ⟨cs, htexts, hmem, -, hnodup⟩ := selection_exact (fun _ => person) person
  exact ⟨happart, cs, htexts, hmem, hnodup happart fun _ => happart⟩

example : person.chains (fun _ => person) 1 =
    [["Name"], ["Friends", "Name"], ["Friends", "Friends"]] := by rfl

end Model

end SearchDialect
