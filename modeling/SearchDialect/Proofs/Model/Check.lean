import SearchDialect.Proofs.Model.Member

/-!
# What is checked of a model

A model is accepted exactly if its members have different names and at most one of them is the key,
and then as it stands, so that looking up a name or the key finds the only member that has it
(`check_exact`). Otherwise the fault names the first member whose name is taken, or else the first
two keys.
-/

namespace SearchDialect

variable {ι : Type}

/-- A member that is declared as key. -/
def Member.IsKey (x : Member ι) : Prop := ∃ a, x.attributes? = some a ∧ a.isKey = true

theorem Member.hasAttribute_isKey_iff {x : Member ι} :
    x.hasAttribute (·.isKey) = true ↔ x.IsKey := by
  rw [hasAttribute, IsKey, Option.any_eq_true]

namespace Model

/-- At most one member is a key. -/
def OneKey (m : Model ι) : Prop := m.members.Pairwise fun x y => ¬ (x.IsKey ∧ y.IsKey)

/-- The first member whose name another one had before. -/
def FirstTaken (m : Model ι) (x : Member ι) : Prop :=
  ∃ before after, m.members = before ++ x :: after ∧ (∃ y ∈ before, y.name = x.name) ∧
    (before.map (·.name)).Nodup

/-- The first two keys, in order of declaration. -/
def FirstKeys (m : Model ι) (x y : Member ι) : Prop :=
  ∃ before between after, m.members = before ++ x :: (between ++ y :: after) ∧ x.IsKey ∧ y.IsKey ∧
    (∀ z ∈ before, ¬ z.IsKey) ∧ ∀ z ∈ between, ¬ z.IsKey

variable {m m' : Model ι}

/-! ## Names -/

theorem firstRepeated?_eq_some_iff {seen names : List String} {n : String} :
    firstRepeated? seen names = some n ↔ ∃ before after, names = before ++ n :: after ∧
      (n ∈ seen ∨ n ∈ before) ∧ before.Nodup ∧ ∀ k ∈ before, k ∉ seen := by
  induction names generalizing seen with
  | nil => simp [firstRepeated?]
  | cons k ks ih =>
    rw [firstRepeated?]
    by_cases hk : k ∈ seen
    · rw [if_pos hk]
      constructor
      · intro h
        cases h
        exact ⟨[], ks, rfl, .inl hk, .nil, fun _ hm => absurd hm List.not_mem_nil⟩
      · rintro ⟨before, after, heq, -, -, hseen⟩
        cases before with
        | nil => cases heq; rfl
        | cons b before =>
          cases heq
          exact absurd hk (hseen k List.mem_cons_self)
    · rw [if_neg hk, ih]
      constructor
      · rintro ⟨before, after, rfl, hn, hnodup, hseen⟩
        refine ⟨k :: before, after, rfl, ?_⟩
        grind
      · rintro ⟨before, after, heq, hn, hnodup, hseen⟩
        cases before with
        | nil =>
          cases heq
          exact absurd (hn.resolve_right List.not_mem_nil) hk
        | cons b before =>
          cases heq
          refine ⟨before, after, rfl, ?_⟩
          grind

/-- The name that is reported is that of the first member whose name is taken. -/
theorem firstRepeated?_names_iff {name : String} :
    firstRepeated? [] (m.members.map (·.name)) = some name ↔
      ∃ x, m.FirstTaken x ∧ x.name = name := by
  rw [firstRepeated?_eq_some_iff]
  constructor
  · rintro ⟨before, after, hnames, hn, hnodup, -⟩
    obtain ⟨xs, ys, hmembers, rfl, hys⟩ := List.map_eq_append_iff.1 hnames
    obtain ⟨x, zs, rfl, rfl, rfl⟩ := List.map_eq_cons_iff.1 hys
    obtain ⟨y, hy, hname⟩ := List.mem_map.1 (hn.resolve_left List.not_mem_nil)
    exact ⟨x, ⟨xs, zs, hmembers, ⟨y, hy, hname⟩, hnodup⟩, rfl⟩
  · rintro ⟨x, ⟨before, after, hmembers, ⟨y, hy, hname⟩, hnodup⟩, rfl⟩
    refine ⟨before.map (·.name), after.map (·.name), ?_, .inr ?_, hnodup, nofun⟩
    · rw [hmembers, List.map_append, List.map_cons]
    · exact List.mem_map.2 ⟨y, hy, hname⟩

theorem namesApart_iff : m.NamesApart ↔ firstRepeated? [] (m.members.map (·.name)) = none := by
  rw [firstRepeated?_eq_none_iff]
  exact ⟨fun h => ⟨h, fun _ _ => List.not_mem_nil⟩, fun h => h.1⟩

/-- In a model whose names are apart, a name stands for the only member that has it. -/
theorem NamesApart.member?_eq_some_iff (h : m.NamesApart) {name : String} {x : Member ι} :
    m.member? name = some x ↔ x ∈ m.members ∧ x.name = name := by
  rw [Model.member?_eq_some_iff]
  constructor
  · rintro ⟨before, after, hmembers, hname, -⟩
    exact ⟨by rw [hmembers]; exact List.mem_append_right _ List.mem_cons_self, hname⟩
  · rintro ⟨hx, rfl⟩
    obtain ⟨before, after, hmembers⟩ := List.append_of_mem hx
    refine ⟨before, after, hmembers, rfl, fun y hy heq => ?_⟩
    rw [NamesApart, hmembers, List.map_append, List.nodup_append] at h
    exact h.2.2 y.name (List.mem_map_of_mem hy) x.name List.mem_cons_self heq

/-! ## Keys -/

theorem mem_keys_iff {x : Member ι} : x ∈ m.keys ↔ x ∈ m.members ∧ x.IsKey := by
  rw [keys, List.mem_filter, Member.hasAttribute_isKey_iff]

/-- There are two keys at least if two members are the first of them. -/
theorem exists_keys_iff {x y : Member ι} :
    (∃ more, m.keys = x :: y :: more) ↔ m.FirstKeys x y := by
  have hplain {zs : List (Member ι)} :
      (∀ z ∈ zs, ¬ z.hasAttribute (·.isKey) = true) ↔ ∀ z ∈ zs, ¬ z.IsKey := by
    simp only [Member.hasAttribute_isKey_iff]
  constructor
  · rintro ⟨more, h⟩
    obtain ⟨before, rest, hmembers, hbefore, hx, hrest⟩ := List.filter_eq_cons_iff.1 h
    obtain ⟨between, after, rfl, hbetween, hy, -⟩ := List.filter_eq_cons_iff.1 hrest
    exact ⟨before, between, after, hmembers, Member.hasAttribute_isKey_iff.1 hx,
      Member.hasAttribute_isKey_iff.1 hy, hplain.1 hbefore, hplain.1 hbetween⟩
  · rintro ⟨before, between, after, hmembers, hx, hy, hbefore, hbetween⟩
    refine ⟨after.filter (·.hasAttribute (·.isKey)), List.filter_eq_cons_iff.2
      ⟨before, between ++ y :: after, hmembers, hplain.2 hbefore,
        Member.hasAttribute_isKey_iff.2 hx, List.filter_eq_cons_iff.2
          ⟨between, after, rfl, hplain.2 hbetween, Member.hasAttribute_isKey_iff.2 hy, rfl⟩⟩⟩

/-- More than one member is a key if there are first two keys. -/
theorem oneKey_iff : m.OneKey ↔ ∀ x y, ¬ m.FirstKeys x y := by
  have hkeys : m.OneKey ↔ m.keys.Pairwise fun _ _ => False := by
    simp only [OneKey, keys, List.pairwise_filter, Member.hasAttribute_isKey_iff, not_and]
  simp only [hkeys, ← exists_keys_iff]
  constructor
  · rintro h x y ⟨more, hmore⟩
    rw [hmore, List.pairwise_cons] at h
    exact h.1 y List.mem_cons_self
  · intro h
    cases hkeys : m.keys with
    | nil => exact .nil
    | cons x more =>
      cases more with
      | nil => exact List.pairwise_singleton _ x
      | cons y more => exact absurd ⟨more, hkeys⟩ (h x y)

/-- If there is one key at most, it is the key that is found. -/
theorem OneKey.keyName?_eq_some_iff (h : m.OneKey) {name : String} :
    m.keyName? = some name ↔ ∃ x ∈ m.members, x.IsKey ∧ x.name = name := by
  have hmem : (∃ x ∈ m.members, x.IsKey ∧ x.name = name) ↔ ∃ x ∈ m.keys, x.name = name := by
    simp only [mem_keys_iff, and_assoc]
  have hone : ∀ x y more, m.keys ≠ x :: y :: more := fun x y more hmore =>
    oneKey_iff.1 h x y (exists_keys_iff.1 ⟨more, hmore⟩)
  rw [keyName?, hmem]
  cases hkeys : m.keys with
  | nil => simp
  | cons x more =>
    cases more with
    | nil => simp
    | cons y more => exact absurd hkeys (hone x y more)

/-! ## The check -/

theorem check_eq_ok_iff : m.check = .ok m' ↔ m' = m ∧ m.NamesApart ∧ m.OneKey := by
  rw [check, namesApart_iff]
  cases firstRepeated? [] (m.members.map (·.name)) with
  | some name => simp
  | none =>
    dsimp only
    split
    · next x y more hmore =>
      have hkeys : ¬ m.OneKey := fun h => oneKey_iff.1 h x y (exists_keys_iff.1 ⟨more, hmore⟩)
      simp [hkeys]
    · next hone =>
      have hkey : m.OneKey := oneKey_iff.2 fun x y h => by
        obtain ⟨more, hmore⟩ := exists_keys_iff.2 h
        exact hone x y more hmore
      rw [Except.ok.injEq]
      exact ⟨fun h => ⟨h.symm, rfl, hkey⟩, fun h => h.1.symm⟩

theorem check_eq_error_iff {error : ModelError} : m.check = .error error ↔
    (∃ x, m.FirstTaken x ∧ error = .duplicateMember m.name x.name) ∨
    (m.NamesApart ∧ ∃ x y, m.FirstKeys x y ∧ error = .ambiguousKey m.name x.name y.name) := by
  rw [check, namesApart_iff]
  cases hnames : firstRepeated? [] (m.members.map (·.name)) with
  | some name =>
    obtain ⟨x, hx, rfl⟩ := firstRepeated?_names_iff.1 hnames
    constructor
    · intro h
      cases h
      exact .inl ⟨x, hx, rfl⟩
    · rintro (⟨y, hy, rfl⟩ | ⟨hnone, -⟩)
      · have hname := firstRepeated?_names_iff.2 ⟨y, hy, rfl⟩
        rw [hnames, Option.some.injEq] at hname
        rw [hname]
      · cases hnone
  | none =>
    have hfree : ∀ x, ¬ m.FirstTaken x := fun x hx => by
      have hname := firstRepeated?_names_iff.2 ⟨x, hx, rfl⟩
      rw [hnames] at hname
      cases hname
    simp only [hfree, false_and, exists_false, false_or, true_and, ← exists_keys_iff]
    split
    · next x y more hmore =>
      rw [hmore]
      constructor
      · intro h
        cases h
        exact ⟨x, y, ⟨more, rfl⟩, rfl⟩
      · rintro ⟨_, _, ⟨_, hkeys⟩, rfl⟩
        cases hkeys
        rfl
    · next hone =>
      constructor
      · intro h
        cases h
      · rintro ⟨x, y, ⟨more, hmore⟩, -⟩
        exact (hone x y more hmore).elim

/-- A model is accepted if its members have different names and at most one is the key, and then as
it stands; names and the key lead to the only member that has them. Otherwise the fault names the
first member whose name is taken or, if there is none, the first two keys. -/
theorem check_exact (m : Model ι) :
    (∀ m', m.check = .ok m' ↔ m' = m ∧ m.NamesApart ∧ m.OneKey) ∧
    (∀ m', m.check = .ok m' →
      (∀ name x, m'.member? name = some x ↔ x ∈ m.members ∧ x.name = name) ∧
      ∀ name, m'.keyName? = some name ↔ ∃ x ∈ m.members, x.IsKey ∧ x.name = name) ∧
    ∀ error, m.check = .error error ↔
      (∃ x, m.FirstTaken x ∧ error = .duplicateMember m.name x.name) ∨
      (m.NamesApart ∧ ∃ x y, m.FirstKeys x y ∧ error = .ambiguousKey m.name x.name y.name) := by
  refine ⟨fun m' => check_eq_ok_iff, ?_, fun error => check_eq_error_iff⟩
  intro m' h
  obtain ⟨rfl, hnames, hkey⟩ := check_eq_ok_iff.1 h
  exact ⟨fun name x => hnames.member?_eq_some_iff, fun name => hkey.keyName?_eq_some_iff⟩

end Model

end SearchDialect
