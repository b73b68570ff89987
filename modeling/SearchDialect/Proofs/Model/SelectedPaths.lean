import SearchDialect.Proofs.Model.Path
import SearchDialect.Proofs.Model.Selection
import SearchDialect.Proofs.Text.Replace

/-!
# Selected paths lead to values

A selection is made by going through the declarations of models, and a path is followed by looking up
names. In models that were built the two meet the same members: a selected chain that is not cut off
leads to a value, and a path to a value whose members are not ignored is selected
(`kindAt_of_mem_selection`, `mem_selection_of_kindAt`; both in `selection_kindAt`).
-/

namespace SearchDialect

open Text

variable {ι : Type}

/-! ## Two spellings of a path -/

namespace Text

/-- Where a character separates parts, another one can be put in its place. -/
theorem replace_join {a : Char} (b : Char) {parts : List (List Char)}
    (h : ∀ part ∈ parts, a ∉ part) : replace [a] [b] (join [a] parts) = join [b] parts := by
  have hkept {part : List Char} (hpart : a ∉ part) :
      part.flatMap (fun x => if x = a then [b] else [x]) = part := by
    induction part with
    | nil => rfl
    | cons c part ih =>
      rw [List.mem_cons, not_or] at hpart
      rw [List.flatMap_cons, if_neg (Ne.symm hpart.1), ih hpart.2, List.singleton_append]
  rw [replace_singleton]
  fun_induction join [a] parts with
  | case1 => rfl
  | case2 part => exact hkept (h part List.mem_cons_self)
  | case3 part parts hne ih =>
    rw [List.forall_mem_cons] at h
    have hjoin : join [b] (part :: parts) = part ++ [b] ++ join [b] parts := by
      rw [join]
      exact hne
    rw [List.flatMap_append, List.flatMap_append, hkept h.1, ih h.2, hjoin,
      List.flatMap_singleton, if_pos rfl]

/-- Names without a character are found again after they were joined with it. -/
theorem splitString_joinStrings {a : Char} {separator : String} (ha : separator.toList = [a])
    {names : List String} (hne : names ≠ []) (h : ∀ name ∈ names, a ∉ name.toList) :
    splitString a (joinStrings separator names) = names := by
  have hparts : ∀ part ∈ names.map String.toList, a ∉ part := List.forall_mem_map.2 h
  rw [splitString, joinStrings, String.toList_ofList, ha,
    split_join (by simpa using hne) hparts, List.map_map]
  exact List.map_id'' (fun name => String.ofList_toList) names

theorem replaceString_joinStrings {a b : Char} {old new : String} (ha : old.toList = [a])
    (hb : new.toList = [b]) {names : List String} (h : ∀ name ∈ names, a ∉ name.toList) :
    replaceString old new (joinStrings old names) = joinStrings new names := by
  have hparts : ∀ part ∈ names.map String.toList, a ∉ part := List.forall_mem_map.2 h
  rw [replaceString, joinStrings, joinStrings, String.toList_ofList, ha, hb,
    replace_join b hparts]

end Text

namespace Model

/-! ## Models that were built -/

/-- A model that was built: it passed its check, and its fields and properties have types. -/
structure Built (m : Model ι) : Prop where
  checked : m.check = .ok m
  typed : ∀ x ∈ m.members, x.role = .field ∨ x.role = .property → x.type? ≠ none

/-- All members have names that can stand in both spellings of a path. -/
def NamesFit (m : Model ι) : Prop :=
  ∀ x ∈ m.members, x.name ≠ "" ∧ '.' ∉ x.name.toList ∧ '/' ∉ x.name.toList

/-- A name stands for the only member that has it. -/
theorem declares_of_getElem? {m : Model ι} (hm : m.NamesApart) {x : Member ι} {place : Nat}
    (h : m.members[place]? = some x) : m.Declares x.name x := by
  obtain ⟨hplace, hx⟩ := List.getElem?_eq_some_iff.1 h
  have hmembers : m.members = m.members.take place ++ x :: m.members.drop (place + 1) := by
    rw [← hx, List.getElem_cons_drop, List.take_append_drop]
  refine ⟨_, _, hmembers, rfl, fun y hy hname => ?_⟩
  have hnodup : (m.members.map (·.name)).Nodup := hm
  rw [hmembers, List.map_append, List.map_cons, List.nodup_append] at hnodup
  exact hnodup.2.2 y.name (List.mem_map_of_mem hy) x.name List.mem_cons_self hname

theorem exists_getElem?_of_declares {m : Model ι} {name : String} {x : Member ι}
    (h : m.Declares name x) : ∃ place : Nat, m.members[place]? = some x := by
  obtain ⟨before, after, hmembers, -, -⟩ := h
  refine ⟨before.length, ?_⟩
  rw [hmembers]
  simp

variable {family : Family ι} {m : Model ι}

theorem Selects.mem_selection {c : Chain ι} (h : Selects family 9 m c) :
    joinStrings "/" c.names ∈ m.selection family := by
  rw [selection, ← map_names_expansion, List.map_map]
  exact List.mem_map.2 ⟨c, mem_expansion_iff.2 h, rfl⟩

theorem exists_selects_of_mem_selection {path : String} (h : path ∈ m.selection family) :
    ∃ c : Chain ι, Selects family 9 m c ∧ path = joinStrings "/" c.names := by
  rw [selection, ← map_names_expansion, List.map_map] at h
  obtain ⟨c, hc, rfl⟩ := List.mem_map.1 h
  exact ⟨c, mem_expansion_iff.1 hc, rfl⟩

/-! ## From a chain to a value -/

/-- The names of a chain fit where the names of all members do. -/
theorem IsChain.names_fit (hm : m.NamesFit) (hfamily : ∀ i, (family i).NamesFit) {c : Chain ι}
    (h : IsChain family m c) :
    ∀ name ∈ c.names, name ≠ "" ∧ '.' ∉ name.toList ∧ '/' ∉ name.toList := by
  induction h with
  | last hx =>
    intro name hname
    obtain rfl := List.mem_singleton.1 hname
    exact hm _ (List.mem_of_getElem? hx)
  | inside hx _ _ ih =>
    intro name hname
    rcases List.mem_cons.1 hname with rfl | hname
    · exact hm _ (List.mem_of_getElem? hx)
    · exact ih (hfamily _) name hname

/-- A field or property that opens no object ends a path on a value. -/
theorem endKind_of_selected (hm : m.Built) {x : Member ι} (hmem : x ∈ m.members)
    (hx : x.Selected) (hvalue : ¬ ∃ i, x.OpensObject i) (path root : String) :
    ∃ k, endKind path root m x = .ok k := by
  obtain ⟨t, ht⟩ := Option.ne_none_iff_exists'.1 (hm.typed x hmem hx.1)
  have hobject : ∀ i, ¬ t.Unwraps (.object i) := fun i hi => hvalue ⟨i, t, ht, hi⟩
  obtain ⟨k, hk⟩ := MemberType.exists_hasKind hobject
  refine ⟨k, ?_⟩
  rw [endKind, Member.accessibleType?_eq_some_iff.2 ⟨hx.1, ht⟩]
  simp only [MemberType.kind?_eq_some_iff.2 hk]

/-- A chain of selected members that ends on no object leads to a value. -/
theorem IsChain.locate (hm : m.Built) (hfamily : ∀ i, (family i).Built) {c : Chain ι}
    (h : IsChain family m c) (hfit : ∀ name ∈ c.names, name ≠ "")
    (hselected : ∀ s ∈ c, s.1.Selected) (hvalue : ∀ s ∈ c.getLast?, ¬ ∃ i, s.1.OpensObject i)
    (path root : String) :
    ∃ k, (m.locate family c.names >>= fun p => endKind path root p.1 p.2) = .ok k := by
  induction h with
  | @last m x place hx =>
    have hdeclares := declares_of_getElem? (namesApart_of_check hm.checked) hx
    have hname : x.name ≠ "" := hfit x.name List.mem_cons_self
    show ∃ k, (m.locate family [x.name] >>= _) = .ok k
    rw [locate_last hname hdeclares, ok_bind]
    exact endKind_of_selected hm (List.mem_of_getElem? hx)
      (hselected _ List.mem_cons_self) (hvalue _ rfl) path root
  | @inside m x place i c hx hi hc ih =>
    obtain ⟨t, ht, hobject⟩ := hi
    have hdeclares := declares_of_getElem? (namesApart_of_check hm.checked) hx
    have hrole := (hselected _ List.mem_cons_self).1
    have hopens : m.Opens x.name i :=
      ⟨hfit x.name List.mem_cons_self, x, t, hdeclares, ⟨hrole, ht⟩, hobject⟩
    have hnames : Chain.names c ≠ [] := by
      rw [Chain.names, ne_eq, List.map_eq_nil_iff]
      exact hc.ne_nil
    show ∃ k, (m.locate family (x.name :: Chain.names c) >>= _) = .ok k
    rw [locate_of_opens hopens hnames]
    rw [List.getLast?_cons_of_ne_nil hc.ne_nil] at hvalue
    apply ih (hfamily i) _ _ hvalue
    · exact fun name hname => hfit name (List.mem_cons_of_mem _ hname)
    · exact fun s hs => hselected s (List.mem_cons_of_mem _ hs)

/-- A selected path that is not cut off leads to a value. -/
theorem kindAt_of_mem_selection (hm : m.Built) (hfamily : ∀ i, (family i).Built)
    (hfit : m.NamesFit) (hfits : ∀ i, (family i).NamesFit) {path : String}
    (hpath : path ∈ m.selection family) (hlength : (splitString '/' path).length < 9) :
    ∃ k, m.kindAt family (replaceString "/" "." path) = .ok k := by
  obtain ⟨c, hc, rfl⟩ := exists_selects_of_mem_selection hpath
  have hnames := hc.isChain.names_fit hfit hfits
  have hne : c.names ≠ [] := by
    rw [Chain.names, ne_eq, List.map_eq_nil_iff]
    exact hc.isChain.ne_nil
  rw [splitString_joinStrings rfl hne fun name hname => (hnames name hname).2.2,
    Chain.names, List.length_map] at hlength
  have hvalue : ∀ s ∈ c.getLast?, ¬ ∃ i, s.1.OpensObject i := by
    intro s hs hobject
    have hcut := hc.ends s hs hobject
    omega
  have hsegments : segments (joinStrings "." c.names) = c.names :=
    areSegments_iff.1 ⟨hne, fun name hname => (hnames name hname).2.1, rfl⟩
  rw [replaceString_joinStrings rfl rfl fun name hname => (hnames name hname).2.2, kindAt_eq,
    hsegments]
  exact hc.isChain.locate hm hfamily (fun name hname => (hnames name hname).1) hc.selected hvalue
    _ _

/-! ## From a value to a chain -/

/-- The members that the segments of a path stand for, as far as they lead through objects. -/
def Passes (family : Family ι) (m : Model ι) (ss : List String) (x : Member ι) : Prop :=
  ∃ names name rest n, ss = names ++ name :: rest ∧ Leads family m names n ∧ n.Declares name x

theorem Passes.head {name : String} {rest : List String} {x : Member ι} (h : m.Declares name x) :
    m.Passes family (name :: rest) x := ⟨[], name, rest, m, rfl, .here, h⟩

theorem Passes.inside {name : String} {ss : List String} {x : Member ι} {i : ι}
    (hi : m.Opens name i) (h : (family i).Passes family ss x) :
    m.Passes family (name :: ss) x := by
  obtain ⟨names, name', rest, n, rfl, hleads, hx⟩ := h
  exact ⟨name :: names, name', rest, n, rfl, .inside hi hleads, hx⟩

/-- The members that a path to a value passes form a chain of fields and properties. -/
theorem Leads.exists_chain {n : Model ι} {names : List String} {name : String} {x : Member ι}
    {t : MemberType ι} (h : Leads family m names n) (hx : n.Declares name x) (ht : x.Holds t) :
    ∃ c : Chain ι, c.names = names ++ [name] ∧ IsChain family m c ∧
      (∀ s ∈ c, (s.1.role = .field ∨ s.1.role = .property) ∧
        m.Passes family (names ++ [name]) s.1) ∧
      ∀ s ∈ c.getLast?, s.1 = x := by
  induction h with
  | here =>
    obtain ⟨place, hplace⟩ := exists_getElem?_of_declares hx
    have hname : x.name = name := by
      obtain ⟨-, -, -, hname, -⟩ := hx
      exact hname
    refine ⟨[(x, place)], congrArg (fun name => [name]) hname, .last hplace, ?_, ?_⟩
    · intro s hs
      obtain rfl := List.mem_singleton.1 hs
      exact ⟨ht.1, .head hx⟩
    · intro s hs
      cases hs
      rfl
  | @inside m n first names i hopens _ ih =>
    obtain ⟨c, hnames, hchain, hpassed, hlast⟩ := ih hx
    obtain ⟨-, y, u, hy, hu, hi⟩ := id hopens
    obtain ⟨place, hplace⟩ := exists_getElem?_of_declares hy
    have hfirst : y.name = first := by
      obtain ⟨-, -, -, hname, -⟩ := hy
      exact hname
    refine ⟨(y, place) :: c, ?_, .inside hplace ⟨u, hu.2, hi⟩ hchain, ?_, ?_⟩
    · rw [List.cons_append, ← hnames, ← hfirst]
      rfl
    · intro s hs
      rcases List.mem_cons.1 hs with rfl | hs
      · exact ⟨hu.1, .head hy⟩
      · exact ⟨(hpassed s hs).1, .inside hopens (hpassed s hs).2⟩
    · rwa [List.getLast?_cons_of_ne_nil hchain.ne_nil]

/-- The names of a path to a value, the last of them standing for a member that holds it. -/
theorem exists_leads_of_kindAt {path : String} {k : Kind} (h : m.kindAt family path = .ok k) :
    ∃ names name n x t, segments path = names ++ [name] ∧ Leads family m names n ∧
      n.Declares name x ∧ x.Holds t ∧ t.HasKind k := by
  obtain ⟨names, name, rest, n, r, hss, hleads, hr⟩ :=
    exists_endsWith family path m.name m (segments_ne_nil path)
  rw [kindAt_eq, hss, locate_of_leads hleads (List.cons_ne_nil _ _), locate_of_endsWith hr] at h
  subst h
  cases hr with
  | value _ hx ht hk => exact ⟨names, name, n, _, _, hss, hleads, hx, ht, hk⟩

/-- A path to a value is selected, unless it is too long or a member on it is ignored. -/
theorem mem_selection_of_kindAt {path : String} {k : Kind} (h : m.kindAt family path = .ok k)
    (hlength : (segments path).length ≤ 9)
    (hkept : ∀ x, m.Passes family (segments path) x → x.ignored = false) :
    replaceString "." "/" path ∈ m.selection family := by
  obtain ⟨names, name, n, x, t, hss, hleads, hx, ht, hk⟩ := exists_leads_of_kindAt h
  obtain ⟨c, hnames, hchain, hpassed, hlast⟩ := hleads.exists_chain hx ht
  have hselects : Selects family 9 m c := by
    refine ⟨hchain, fun s hs => ?_, ?_, ?_⟩
    · refine ⟨(hpassed s hs).1, hkept s.1 ?_⟩
      rw [hss]
      exact (hpassed s hs).2
    · rw [hss, ← hnames, Chain.names, List.length_map] at hlength
      exact hlength
    · -- the last member holds a value
      rintro s hs ⟨i, u, hu, hobject⟩
      rw [hlast s hs, ht.2, Option.some.injEq] at hu
      subst hu
      rw [← MemberType.kind?_eq_some_iff, MemberType.kind?_of_object hobject] at hk
      cases hk
  obtain ⟨-, hdotless, hpath⟩ : AreSegments c.names path := by
    rw [hnames]
    exact areSegments_iff.2 hss
  rw [hpath, replaceString_joinStrings rfl rfl hdotless]
  exact hselects.mem_selection

/-! ## The two together -/

/-- In models that were built and whose names can stand in both spellings of a path, everything that
is selected leads to a value, but for what is cut off at nine segments. The other way round, every
path to a value of at most nine segments is selected, unless a member on it is ignored. -/
theorem selection_kindAt (family : Family ι) (m : Model ι) (hm : m.Built)
    (hfamily : ∀ i, (family i).Built) (hfit : m.NamesFit) (hfits : ∀ i, (family i).NamesFit) :
    (∀ path ∈ m.selection family, (splitString '/' path).length < 9 →
      ∃ k, m.kindAt family (replaceString "/" "." path) = .ok k) ∧
    ∀ path, (∃ k, m.kindAt family path = .ok k) → (segments path).length ≤ 9 →
      (∀ x, m.Passes family (segments path) x → x.ignored = false) →
      replaceString "." "/" path ∈ m.selection family := by
  constructor
  · intro path hpath hlength
    exact kindAt_of_mem_selection hm hfamily hfit hfits hpath hlength
  · rintro path ⟨k, hk⟩ hlength hkept
    exact mem_selection_of_kindAt hk hlength hkept

/-- All members on the path to the names of a person's friends' friends are kept, so that the names
are selected, and what is selected leads to them. -/
theorem selection_kindAt_friendsOfFriends : person.Built ∧ person.NamesFit ∧
    person.kindAt (fun _ => person) "Friends.Friends.Name" = .ok .string ∧
    (∀ x, person.Passes (fun _ => person) (segments "Friends.Friends.Name") x →
      x.ignored = false) ∧
    replaceString "." "/" "Friends.Friends.Name" ∈ person.selection (fun _ => person) ∧
    ∃ k, person.kindAt (fun _ => person)
      (replaceString "/" "." (replaceString "." "/" "Friends.Friends.Name")) = .ok k := by
  have hbuilt : person.Built := ⟨by rfl, by simp [person]⟩
  have hfit : person.NamesFit := by
    rw [NamesFit]
    decide
  have hkind : person.kindAt (fun _ => person) "Friends.Friends.Name" = .ok .string := by rfl
  have hstays : ∀ {m n : Model Unit} {names : List String},
      Leads (fun _ => person) m names n → m = person → n = person := by
    intro m n names h
    induction h with
    | here => exact id
    | inside _ _ ih => exact fun _ => ih rfl
  have hkept : ∀ x, person.Passes (fun _ => person) (segments "Friends.Friends.Name") x →
      x.ignored = false := by
    rintro x ⟨names, name, rest, n, hss, hleads, before, after, hmembers, hname, -⟩
    obtain rfl := hstays hleads rfl
    have hx : x ∈ person.members := hmembers ▸ List.mem_append_right before List.mem_cons_self
    have hsegment : x.name ∈ segments "Friends.Friends.Name" := by
      rw [hss, hname]
      exact List.mem_append_right names List.mem_cons_self
    have hall : ∀ y ∈ person.members, y.name ∈ segments "Friends.Friends.Name" →
        y.ignored = false := by decide
    exact hall x hx hsegment
  obtain ⟨hleads, hselected⟩ := selection_kindAt (fun _ => person) person hbuilt
    (fun _ => hbuilt) hfit (fun _ => hfit)
  have hmem := hselected "Friends.Friends.Name" ⟨.string, hkind⟩ (by decide) hkept
  refine ⟨hbuilt, hfit, hkind, hkept, hmem, hleads _ hmem ?_⟩
  decide +kernel

end Model

end SearchDialect
