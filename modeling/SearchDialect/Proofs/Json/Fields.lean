import Mathlib.Data.List.Nodup
import SearchDialect.Json.Fields
import SearchDialect.Proofs.Json.Members
import SearchDialect.Proofs.Json.Printer
import SearchDialect.Proofs.Outcome

/-!
# Written values of types

What the readers of written values accept: a text is a string whose escapes all exist, an unsigned
number is digits alone and has 64 bits (`unsigned?_eq_some_iff`), and a map of texts holds the last
text of each name (`map?_eq_some_iff`). The members of a record are what an object holds under their
names or a list at their places (`fields?_eq_some`), and a record with all names told apart has them
(`exists_fields?`). Values are written so that these readers find them again (`isText_written`,
`isUnsigned_written`, `isTextMap_written`, `isRecord_written`).
-/

namespace SearchDialect.Json

open Number

/-! ## The last member of each name -/

section

variable {α : Type}

/-- A member is the last of its name. -/
def IsLast (ms : List (String × α)) (m : String × α) : Prop :=
  ∃ before after, ms = before ++ m :: after ∧ m.1 ∉ after.map (·.1)

theorem lookup_eq_some_iff {name : String} {v : α} {ms : List (String × α)} :
    lookup name ms = some v ↔
      ∃ before after, ms = before ++ (name, v) :: after ∧ name ∉ before.map (·.1) := by
  induction ms with
  | nil => exact iff_of_false nofun fun ⟨before, _, h, _⟩ => by cases before <;> cases h
  | cons m ms ih =>
    obtain ⟨n, u⟩ := m
    rw [lookup]
    by_cases hn : n = name
    · subst hn
      rw [if_pos rfl]
      constructor
      · rintro h
        cases h
        exact ⟨[], ms, rfl, List.not_mem_nil⟩
      · rintro ⟨before, after, h, hbefore⟩
        cases before with
        | nil => cases h; rfl
        | cons m before =>
          cases h
          exact absurd List.mem_cons_self hbefore
    · rw [if_neg hn, ih]
      constructor
      · rintro ⟨before, after, rfl, hbefore⟩
        refine ⟨(n, u) :: before, after, rfl, ?_⟩
        rw [List.map_cons, List.mem_cons, not_or]
        exact ⟨Ne.symm hn, hbefore⟩
      · rintro ⟨before, after, h, hbefore⟩
        cases before with
        | nil =>
          cases h
          exact absurd rfl hn
        | cons m before =>
          cases h
          exact ⟨before, after, rfl, fun hmem => hbefore (List.mem_cons_of_mem _ hmem)⟩

theorem mem_of_lookup {name : String} {v : α} {ms : List (String × α)}
    (h : lookup name ms = some v) : (name, v) ∈ ms := by
  obtain ⟨before, after, rfl, -⟩ := lookup_eq_some_iff.1 h
  exact List.mem_append_right before List.mem_cons_self

theorem lookup_reverse_eq_some_iff {m : String × α} {ms : List (String × α)} :
    lookup m.1 ms.reverse = some m.2 ↔ IsLast ms m := by
  rw [lookup_eq_some_iff, IsLast]
  constructor
  · rintro ⟨later, earlier, h, hlater⟩
    refine ⟨earlier.reverse, later.reverse, ?_, by simpa using hlater⟩
    rw [← List.reverse_reverse ms, h]
    simp
  · rintro ⟨before, after, rfl, hafter⟩
    exact ⟨after.reverse, before.reverse, by simp, by simpa using hafter⟩

theorem InOrder.pairwise {ms : List (String × α)} (h : InOrder ms) :
    ms.Pairwise fun m m' => m.1 < m'.1 := List.pairwise_map.1 h

theorem InOrder.nodup {ms : List (String × α)} (h : InOrder ms) : ms.Nodup := by
  apply h.pairwise.imp
  rintro m _ hlt rfl
  exact String.lt_irrefl m.1 hlt

/-- Members in order are told by what they are. -/
theorem InOrder.eq_of_mem_iff {ms ms' : List (String × α)} (h : InOrder ms) (h' : InOrder ms')
    (hmem : ∀ m, m ∈ ms ↔ m ∈ ms') : ms = ms' := by
  have hperm := (List.perm_ext_iff_of_nodup h.nodup h'.nodup).2 hmem
  apply hperm.eq_of_pairwise _ h.pairwise h'.pairwise
  intro m m' _ _ hlt hgt
  exact absurd (String.lt_trans hlt hgt) (String.lt_irrefl m.1)

/-- Members are put in order by taking the last of each name. -/
theorem sortMembers_eq_iff {ms sorted : List (String × α)} :
    sortMembers ms = sorted ↔ InOrder sorted ∧ ∀ m, m ∈ sorted ↔ IsLast ms m := by
  have hsort : ∀ m, m ∈ sortMembers ms ↔ IsLast ms m := by
    intro m
    rw [← lookup_reverse_eq_some_iff, ← lookup_sortMembers]
    exact ⟨lookup_of_mem (inOrder_sortMembers ms), mem_of_lookup⟩
  constructor
  · rintro rfl
    exact ⟨inOrder_sortMembers ms, hsort⟩
  · rintro ⟨horder, hmem⟩
    exact (inOrder_sortMembers ms).eq_of_mem_iff horder fun m => (hsort m).trans (hmem m).symm

/-- Where no name stands twice, every member is the last of its name. -/
theorem isLast_iff_mem {ms : List (String × α)} (h : (ms.map (·.1)).Nodup) (m : String × α) :
    IsLast ms m ↔ m ∈ ms := by
  constructor
  · rintro ⟨before, after, rfl, -⟩
    exact List.mem_append_right before List.mem_cons_self
  · intro hm
    obtain ⟨before, after, rfl⟩ := List.append_of_mem hm
    refine ⟨before, after, rfl, ?_⟩
    rw [List.map_append, List.map_cons] at h
    exact (List.nodup_cons.1 (List.nodup_append.1 h).2.1).1

/-- Members whose names are told apart are all kept. -/
theorem perm_sortMembers {ms : List (String × α)} (h : (ms.map (·.1)).Nodup) :
    (sortMembers ms).Perm ms := by
  obtain ⟨horder, hmem⟩ := sortMembers_eq_iff.1 (Eq.refl (sortMembers ms))
  have hms : ms.Nodup := List.Nodup.of_map _ h
  refine (List.perm_ext_iff_of_nodup horder.nodup hms).2 fun m => ?_
  rw [hmem, isLast_iff_mem h]

end

theorem mapM_eq_some_iff {α β : Type} {f : α → Option β} {xs : List α} {ys : List β} :
    xs.mapM f = some ys ↔ List.Forall₂ (fun x y => f x = some y) xs ys := by
  induction xs generalizing ys with
  | nil =>
    rw [List.mapM_nil, List.forall₂_nil_left_iff]
    exact ⟨fun h => (Option.some.inj h).symm, fun h => h ▸ rfl⟩
  | cons x xs ih =>
    simp only [List.mapM_cons, List.forall₂_cons_left_iff, Option.bind_eq_bind,
      Option.bind_eq_some_iff, ih]
    constructor
    · rintro ⟨y, hy, ys', hys, h⟩
      exact ⟨y, ys', hy, hys, (Option.some.inj h).symm⟩
    · rintro ⟨y, ys', hy, hys, rfl⟩
      exact ⟨y, hy, ys', hys, rfl⟩

theorem exists_forall₂_and_iff {α β γ : Type} {R : α → β → Prop} {S : β → γ → Prop} {xs : List α}
    {zs : List γ} :
    (∃ ys, List.Forall₂ R xs ys ∧ List.Forall₂ S ys zs) ↔
      List.Forall₂ (fun x z => ∃ y, R x y ∧ S y z) xs zs := by
  constructor
  · rintro ⟨ys, hxs, hzs⟩
    induction hxs generalizing zs with
    | nil =>
      cases hzs
      exact .nil
    | cons hxy _ ih =>
      cases hzs with
      | cons hyz hzs => exact .cons ⟨_, hxy, hyz⟩ (ih hzs)
  · intro h
    induction h with
    | nil => exact ⟨[], .nil, .nil⟩
    | cons hxz _ ih =>
      obtain ⟨y, hxy, hyz⟩ := hxz
      obtain ⟨ys, hxs, hzs⟩ := ih
      exact ⟨y :: ys, .cons hxy hxs, .cons hyz hzs⟩

namespace Written

/-! ## Texts and numbers -/

/-- What is written between quotes stands for a text. -/
def Spells (body : List Char) (s : String) : Prop := unescape? body = some s.toList

theorem Spells.unique {body : List Char} {s t : String} (hs : Spells body s) (ht : Spells body t) :
    s = t := String.toList_inj.1 (Option.some.inj (hs.symm.trans ht))

theorem spells_escape (s : String) : Spells (escape s.toList) s := unescape?_escape s.toList

/-- A written string stands for a text. -/
def IsText (w : Written) (s : String) : Prop := ∃ body, w = .string body ∧ Spells body s

/-- A written number is the digits of an unsigned 64-bit integer. -/
def IsUnsigned (w : Written) (n : UInt64) : Prop :=
  ∃ digits, w = .number ⟨false, digits, [], none⟩ ∧ ofDigits digits = n.toNat

theorem text?_eq_some_iff {w : Written} {s : String} : w.text? = some s ↔ w.IsText s := by
  cases w with
  | string body =>
    show (unescape? body).map String.ofList = some s ↔ _
    rw [Option.map_eq_some_iff]
    constructor
    · rintro ⟨cs, hcs, rfl⟩
      exact ⟨body, rfl, by rw [Spells, hcs, String.toList_ofList]⟩
    · rintro ⟨_, h, hs⟩
      cases h
      exact ⟨s.toList, hs, String.ofList_toList⟩
  | _ => exact iff_of_false nofun nofun

theorem bool?_eq_some_iff {w : Written} {b : Bool} : w.bool? = some b ↔ w = .bool b := by
  cases w with
  | bool b' =>
    show some b' = some b ↔ _
    rw [Option.some_inj, Written.bool.injEq]
  | _ => exact iff_of_false nofun nofun

theorem uint64?_eq_some_iff {i : Int} {n : UInt64} : uint64? i = some n ↔ i = n.toNat := by
  have hlt := n.toNat_lt
  unfold uint64?
  split
  · next h =>
    rw [Option.some_inj, ← UInt64.toNat_inj, UInt64.toNat_ofNat']
    omega
  · next h =>
    refine iff_of_false nofun ?_
    rintro rfl
    omega

theorem unsigned?_int (i : Int) : (Json.int i).unsigned? = uint64? i := rfl

theorem unsigned?_eq_some_iff {w : Written} {n : UInt64} :
    w.unsigned? = some n ↔ w.IsUnsigned n := by
  cases w with
  | number m =>
    obtain ⟨negative, whole, fraction, exponent⟩ := m
    show (numberToJson? ⟨negative, whole, fraction, exponent⟩).bind (·.unsigned?) = some n ↔ _
    -- A double is no unsigned number.
    have hdouble : ∀ k : Numeral, ((decimal? k).map Json.double).bind (·.unsigned?) ≠ some n := by
      intro k
      cases decimal? k <;> nofun
    unfold numberToJson?
    dsimp only
    by_cases hwhole : (fraction.isEmpty && exponent.isNone) = true
    · rw [if_pos hwhole]
      rw [Bool.and_eq_true, List.isEmpty_iff, Option.isNone_iff_eq_none] at hwhole
      obtain ⟨rfl, rfl⟩ := hwhole
      cases negative with
      | true =>
        -- A negative number is below zero, and minus zero is a double.
        refine iff_of_false ?_ fun ⟨_, h, _⟩ => by cases h
        split
        · exact hdouble _
        · next hzero =>
          split
          · intro hn
            rw [Option.bind_some, unsigned?_int, uint64?_eq_some_iff] at hn
            simp [Double.applySign] at hzero hn
            omega
          · exact hdouble _
      | false =>
        have hlt := n.toNat_lt
        simp only [Double.applySign, Bool.false_and, Bool.false_eq_true, if_false]
        constructor
        · intro h
          split at h
          · rw [Option.bind_some, unsigned?_int, uint64?_eq_some_iff] at h
            exact ⟨whole, rfl, Int.ofNat.inj h⟩
          · exact absurd h (hdouble _)
        · rintro ⟨digits, h, hn⟩
          cases h
          have hrange : -0x8000000000000000 ≤ (n.toNat : Int) ∧
              (n.toNat : Int) < 0x10000000000000000 := by omega
          rw [hn, if_pos hrange, Option.bind_some, unsigned?_int, uint64?_eq_some_iff]
    · rw [if_neg hwhole]
      refine iff_of_false (hdouble _) ?_
      rintro ⟨digits, h, -⟩
      cases h
      exact hwhole rfl
  | _ => exact iff_of_false nofun nofun

/-! ## Maps -/

/-- Members with what their names stand for. -/
def Named (ms : List (List Char × Written)) (ns : List (String × Written)) : Prop :=
  List.Forall₂ (fun m n => Spells m.1 n.1 ∧ m.2 = n.2) ms ns

theorem named?_eq_some_iff {ms : List (List Char × Written)} {ns : List (String × Written)} :
    named? ms = some ns ↔ Named ms ns := by
  induction ms generalizing ns with
  | nil =>
    rw [Named, List.forall₂_nil_left_iff]
    exact ⟨fun h => (Option.some.inj h).symm, fun h => h ▸ rfl⟩
  | cons m ms ih =>
    obtain ⟨body, w⟩ := m
    rw [Named, List.forall₂_cons_left_iff, named?]
    constructor
    · intro h
      split at h
      · next n rest hn hrest =>
        cases h
        exact ⟨_, rest, ⟨by rw [Spells, hn, String.toList_ofList], rfl⟩, ih.1 hrest, rfl⟩
      · cases h
    · rintro ⟨⟨n, _⟩, rest, ⟨hn, rfl⟩, hrest, rfl⟩
      have hname : unescape? body = some n.toList := hn
      rw [hname, ih.2 hrest]
      simp only [String.ofList_toList]

/-- A written object is a map to texts: members in order, the last text of each name. -/
def IsTextMap (w : Written) (ms : List (String × String)) : Prop :=
  ∃ members entries, w = .object members ∧
    List.Forall₂ (fun m e => Spells m.1 e.1 ∧ m.2.IsText e.2) members entries ∧
    InOrder ms ∧ ∀ m, m ∈ ms ↔ IsLast entries m

theorem map?_eq_some_iff {w : Written} {ms : List (String × String)} :
    w.map? text? = some ms ↔ w.IsTextMap ms := by
  have hentry : ∀ (n : String × Written) (e : String × String),
      ((n.2.text?).map fun v => (n.1, v)) = some e ↔ n.1 = e.1 ∧ n.2.IsText e.2 := by
    rintro ⟨n, v⟩ ⟨n', t⟩
    rw [Option.map_eq_some_iff]
    constructor
    · rintro ⟨t, ht, h⟩
      cases h
      exact ⟨rfl, text?_eq_some_iff.1 ht⟩
    · rintro ⟨rfl, ht⟩
      exact ⟨t, text?_eq_some_iff.2 ht, rfl⟩
  cases w with
  | object members =>
    show ((named? members).bind fun ns =>
      (ns.mapM fun n : String × Written => (n.2.text?).map fun v => (n.1, v)).bind
        fun entries => some (sortMembers entries)) = some ms ↔ _
    simp only [Option.bind_eq_some_iff, named?_eq_some_iff, mapM_eq_some_iff, hentry,
      Option.some_inj, sortMembers_eq_iff]
    constructor
    · rintro ⟨ns, hns, entries, hentries, hms⟩
      have hboth := exists_forall₂_and_iff.1 ⟨ns, hns, hentries⟩
      refine ⟨members, entries, rfl, hboth.imp ?_, hms⟩
      rintro m e ⟨n, ⟨hname, hvalue⟩, hname', htext⟩
      rw [hname'] at hname
      rw [← hvalue] at htext
      exact ⟨hname, htext⟩
    · rintro ⟨_, entries, h, hentries, hms⟩
      cases h
      have hboth : List.Forall₂ (fun m e => ∃ n : String × Written,
          (Spells m.1 n.1 ∧ m.2 = n.2) ∧ n.1 = e.1 ∧ n.2.IsText e.2) members entries :=
        hentries.imp fun m e he => ⟨(e.1, m.2), ⟨he.1, rfl⟩, rfl, he.2⟩
      obtain ⟨ns, hns, hns'⟩ := exists_forall₂_and_iff.2 hboth
      exact ⟨ns, hns, entries, hns', hms⟩
  | _ =>
    refine iff_of_false nofun ?_
    rintro ⟨members, entries, h, -⟩
    cases h

/-! ## Records -/

/-- A value is a record with members of some names: the names in an object are texts, none of the
known ones stands twice, and a list is no longer than the names. -/
inductive IsRecord (names : List String) : Written → Prop
  | object {members : List (List Char × Written)}
      (htexts : ∀ m ∈ members, ∃ name, Spells m.1 name)
      (honce : ∀ name ∈ names, members.Pairwise fun m m' => ¬(Spells m.1 name ∧ Spells m'.1 name)) :
      IsRecord names (.object members)
  | list {items : List Written} (h : items.length ≤ names.length) : IsRecord names (.array items)

/-- A record gives a value for a name: the value of a member of the name, or the item at the place
of the name. -/
inductive Gives (names : List String) : Written → String → Written → Prop
  | member {members : List (List Char × Written)} {body : List Char} {name : String} {w : Written}
      (hmem : (body, w) ∈ members) (hname : Spells body name) :
      Gives names (.object members) name w
  | item {items : List Written} {i : Nat} {name : String} {w : Written}
      (hname : names[i]? = some name) (hitem : items[i]? = some w) :
      Gives names (.array items) name w

theorem Named.mem_iff {ms : List (List Char × Written)} {ns : List (String × Written)}
    (h : Named ms ns) (name : String) (w : Written) :
    (name, w) ∈ ns ↔ ∃ body, (body, w) ∈ ms ∧ Spells body name := by
  induction h with
  | nil => exact iff_of_false List.not_mem_nil fun ⟨_, hmem, _⟩ => List.not_mem_nil hmem
  | @cons m n ms ns hm _ ih =>
    obtain ⟨body, v⟩ := m
    obtain ⟨n, _⟩ := n
    obtain ⟨hn, rfl⟩ := hm
    rw [List.mem_cons, ih]
    constructor
    · rintro (heq | ⟨body', hmem, hname⟩)
      · cases heq
        exact ⟨body, List.mem_cons_self, hn⟩
      · exact ⟨body', List.mem_cons_of_mem _ hmem, hname⟩
    · rintro ⟨body', hmem, hname⟩
      rcases List.mem_cons.1 hmem with heq | hmem
      · cases heq
        exact .inl (by rw [hname.unique hn])
      · exact .inr ⟨body', hmem, hname⟩

theorem exists_named_iff {ms : List (List Char × Written)} :
    (∃ ns, Named ms ns) ↔ ∀ m ∈ ms, ∃ name, Spells m.1 name := by
  refine exists_forall₂_iff.trans (forall₂_congr fun m _ => ?_)
  constructor
  · rintro ⟨n, hname, -⟩
    exact ⟨n.1, hname⟩
  · rintro ⟨name, hname⟩
    exact ⟨(name, m.2), hname, rfl⟩

theorem atMostOnce_cons (m : String × Written) (ms : List (String × Written)) (name : String) :
    atMostOnce (m :: ms) name = true ↔
      (m.1 = name → name ∉ ms.map (·.1)) ∧ atMostOnce ms name = true := by
  have hnone : (ms.filter (·.1 == name)).length = 0 ↔ name ∉ ms.map (·.1) := by
    rw [List.length_eq_zero_iff, List.filter_eq_nil_iff, List.mem_map, not_exists]
    exact forall_congr' fun m => by rw [beq_iff_eq, not_and]
  unfold atMostOnce
  rw [decide_eq_true_iff, decide_eq_true_iff, List.filter_cons]
  by_cases hm : m.1 = name
  · rw [if_pos (beq_iff_eq.2 hm), List.length_cons, ← hnone]
    constructor
    · intro h
      exact ⟨fun _ => by omega, by omega⟩
    · intro h
      have := h.1 hm
      omega
  · rw [if_neg (fun h => hm (beq_iff_eq.1 h))]
    exact ⟨fun h => ⟨fun h' => absurd h' hm, h⟩, fun h => h.2⟩

theorem Named.atMostOnce_iff {ms : List (List Char × Written)} {ns : List (String × Written)}
    (h : Named ms ns) (name : String) :
    atMostOnce ns name = true ↔
      ms.Pairwise fun m m' => ¬(Spells m.1 name ∧ Spells m'.1 name) := by
  induction h with
  | nil => exact iff_of_true rfl .nil
  | @cons m n ms ns hm hms ih =>
    rw [atMostOnce_cons, List.pairwise_cons, ih]
    apply and_congr_left'
    have hrest := Named.mem_iff hms name
    constructor
    · rintro hnot m' hm' ⟨hname, hname'⟩
      apply hnot (hm.1.unique hname)
      exact List.mem_map.2 ⟨(name, m'.2), (hrest m'.2).2 ⟨m'.1, hm', hname'⟩, rfl⟩
    · rintro hpair rfl hmem
      obtain ⟨⟨_, w⟩, hw, rfl⟩ := List.mem_map.1 hmem
      obtain ⟨body, hbody, hname⟩ := (hrest w).1 hw
      exact hpair _ hbody ⟨hm.1, hname⟩

/-- Where a name stands at most once, its member is found. -/
theorem lookup_eq_some_iff_mem {ns : List (String × Written)} {name : String} {w : Written}
    (h : atMostOnce ns name = true) : lookup name ns = some w ↔ (name, w) ∈ ns := by
  refine ⟨mem_of_lookup, fun hmem => ?_⟩
  induction ns with
  | nil => exact absurd hmem List.not_mem_nil
  | cons n ns ih =>
    obtain ⟨hfirst, hns⟩ := (atMostOnce_cons n ns name).1 h
    rw [lookup]
    rcases List.mem_cons.1 hmem with rfl | hmem
    · rw [if_pos rfl]
    · rw [if_neg fun hn => hfirst hn (List.mem_map.2 ⟨_, hmem, rfl⟩)]
      exact ih hns hmem

theorem lookup_zip {names : List String} (hnames : names.Nodup) (items : List Written)
    (name : String) (w : Written) :
    lookup name (names.zip items) = some w ↔
      ∃ i : Nat, names[i]? = some name ∧ items[i]? = some w := by
  induction names generalizing items with
  | nil =>
    refine iff_of_false nofun ?_
    rintro ⟨i, h, -⟩
    cases h
  | cons n names ih =>
    obtain ⟨hn, hnames⟩ := List.nodup_cons.1 hnames
    cases items with
    | nil =>
      refine iff_of_false nofun ?_
      rintro ⟨i, -, h⟩
      cases h
    | cons v items =>
      rw [List.zip_cons_cons, lookup]
      by_cases hname : n = name
      · subst hname
        rw [if_pos rfl]
        constructor
        · exact fun h => ⟨0, rfl, h⟩
        · rintro ⟨i, hi, h⟩
          cases i with
          | zero => exact h
          | succ i =>
            rw [List.getElem?_cons_succ] at hi
            exact absurd (List.mem_of_getElem? hi) hn
      · rw [if_neg hname, ih hnames]
        constructor
        · rintro ⟨i, hi, h⟩
          exact ⟨i + 1, hi, h⟩
        · rintro ⟨i, hi, h⟩
          cases i with
          | zero => exact absurd (Option.some.inj hi) hname
          | succ i => exact ⟨i, hi, h⟩

/-- The members of a record are the values that it gives. -/
theorem fields?_eq_some {names : List String} (hnames : names.Nodup) {w : Written}
    {ns : List (String × Written)} (h : w.fields? names = some ns) :
    w.IsRecord names ∧
      ∀ name ∈ names, ∀ v, lookup name ns = some v ↔ w.Gives names name v := by
  cases w with
  | object members =>
    obtain ⟨ns', hns, h⟩ := Option.bind_eq_some_iff.1 h
    split at h
    · next honce =>
      cases h
      rw [List.all_eq_true] at honce
      have hnamed := named?_eq_some_iff.1 hns
      refine ⟨.object (exists_named_iff.1 ⟨_, hnamed⟩) fun name hname =>
        (hnamed.atMostOnce_iff name).1 (honce name hname), ?_⟩
      intro name hname v
      rw [lookup_eq_some_iff_mem (honce name hname), hnamed.mem_iff]
      constructor
      · rintro ⟨body, hmem, hbody⟩
        exact .member hmem hbody
      · rintro (⟨hmem, hbody⟩ | _)
        exact ⟨_, hmem, hbody⟩
    · cases h
  | array items =>
    rw [fields?] at h
    split at h
    · next hlen =>
      cases h
      refine ⟨.list hlen, fun name _ v => ?_⟩
      rw [lookup_zip hnames]
      constructor
      · rintro ⟨i, hname, hitem⟩
        exact .item hname hitem
      · rintro (_ | ⟨hname, hitem⟩)
        exact ⟨_, hname, hitem⟩
    · cases h
  | _ => cases h

theorem exists_fields? {names : List String} {w : Written} (h : w.IsRecord names) :
    ∃ ns, w.fields? names = some ns := by
  cases h with
  | object htexts honce =>
    obtain ⟨ns, hns⟩ := exists_named_iff.2 htexts
    refine ⟨ns, Option.bind_eq_some_iff.2 ⟨ns, named?_eq_some_iff.2 hns, if_pos ?_⟩⟩
    exact List.all_eq_true.2 fun name hname => (Named.atMostOnce_iff hns name).2 (honce name hname)
  | list h => exact ⟨_, if_pos h⟩

end Written

/-! ## Values as they are written -/

open Written

theorem writtenMembers_eq_map (ms : List (String × Json)) :
    writtenMembers ms = ms.map fun m => (escape m.1.toList, written m.2) := by
  induction ms with
  | nil => rfl
  | cons m ms ih =>
    rw [writtenMembers, ih]
    rfl

theorem isText_written (s : String) : (written (.str s)).IsText s := ⟨_, rfl, spells_escape s⟩

theorem isUnsigned_written (n : UInt64) : (written (.ofUnsigned n)).IsUnsigned n := by
  have hsign : decide ((n.toNat : Int) < 0) = false := decide_eq_false (by omega)
  refine ⟨toDigits n.toNat, ?_, ofDigits_toDigits n.toNat⟩
  show Written.number (Numeral.ofInt n.toNat) = _
  rw [Numeral.ofInt, hsign]
  rfl

/-- The entries of a map can be written in any order. -/
theorem isTextMap_written {ms entries : List (String × String)} (horder : InOrder ms)
    (hperm : entries.Perm ms) :
    (written (.obj (entries.map fun e => (e.1, .str e.2)))).IsTextMap ms := by
  have hnodup : (entries.map (·.1)).Nodup := by
    rw [(hperm.map _).nodup_iff]
    apply horder.imp
    rintro m _ hlt rfl
    exact String.lt_irrefl m hlt
  refine ⟨_, entries, rfl, ?_, horder, fun m => ?_⟩
  · rw [writtenMembers_eq_map, List.map_map, List.forall₂_map_left_iff]
    exact List.forall₂_same.2 fun e _ => ⟨spells_escape e.1, isText_written e.2⟩
  · rw [isLast_iff_mem hnodup, hperm.mem_iff]

/-- An object with names that are told apart, as it is written, is a record of any names, and it
gives for a name what its member of that name is written as. -/
theorem isRecord_written {members : List (String × Json)} (h : (members.map (·.1)).Nodup)
    (names : List String) : (written (.obj members)).IsRecord names := by
  rw [written, writtenMembers_eq_map]
  refine .object ?_ fun name _ => ?_
  · intro m hm
    obtain ⟨m, -, rfl⟩ := List.mem_map.1 hm
    exact ⟨m.1, spells_escape m.1⟩
  · rw [List.pairwise_map]
    apply (List.pairwise_map.1 h).imp
    rintro m m' hne ⟨hm, hm'⟩
    exact hne ((spells_escape m.1).unique hm |>.trans (hm'.unique (spells_escape m'.1)))

theorem gives_written_iff {members : List (String × Json)} {names : List String} {name : String}
    {w : Written} :
    (written (.obj members)).Gives names name w ↔ ∃ j, (name, j) ∈ members ∧ w = written j := by
  rw [written, writtenMembers_eq_map]
  constructor
  · rintro (⟨hmem, hname⟩ | _)
    obtain ⟨m, hm, heq⟩ := List.mem_map.1 hmem
    cases heq
    rw [← (spells_escape m.1).unique hname]
    exact ⟨m.2, hm, rfl⟩
  · rintro ⟨j, hmem, rfl⟩
    exact .member (List.mem_map.2 ⟨_, hmem, rfl⟩) (spells_escape name)

end SearchDialect.Json
