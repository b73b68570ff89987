import SearchDialect.Json.Basic

/-!
# Members of objects

Looking up a name in members that were put in order gives the last member of that name
(`lookup_sortMembers`), and each name stands in them once (`inOrder_sortMembers`).
-/

namespace SearchDialect.Json

variable {α : Type}

/-- A member that is added is found, and it hides no member of another name. -/
theorem lookup_insertMember (name n : String) (v : α) (ms : List (String × α)) :
    lookup n (insertMember name v ms) = if name = n then some v else lookup n ms := by
  induction ms with
  | nil => rfl
  | cons m ms ih =>
    obtain ⟨n', v'⟩ := m
    unfold insertMember
    split
    · rfl
    split
    · next h =>
      subst h
      by_cases hn : name = n
      · rw [lookup, if_pos hn, if_pos hn]
      · rw [lookup, lookup, if_neg hn, if_neg hn, if_neg hn]
    · next hne =>
      rw [lookup, ih, lookup]
      by_cases hn : name = n
      · have hn' : n' ≠ n := fun h => hne (hn.trans h.symm)
        rw [if_pos hn, if_neg hn', if_pos hn]
      · rw [if_neg hn, if_neg hn]

theorem lookup_append (n : String) (ms ms' : List (String × α)) :
    lookup n (ms ++ ms') = (lookup n ms).or (lookup n ms') := by
  induction ms with
  | nil => rfl
  | cons m ms ih =>
    rw [List.cons_append, lookup, lookup, ih]
    split <;> rfl

/-- In ordered members, the last member of a name is found. -/
theorem lookup_sortMembers (n : String) (ms : List (String × α)) :
    lookup n (sortMembers ms) = lookup n ms.reverse := by
  have hfold : ∀ acc : List (String × α),
      lookup n (ms.foldl (fun acc m => insertMember m.1 m.2 acc) acc) =
        (lookup n ms.reverse).or (lookup n acc) := by
    induction ms with
    | nil => intro acc; rfl
    | cons m ms ih =>
      intro acc
      rw [List.foldl_cons, ih, List.reverse_cons, lookup_append, lookup_insertMember,
        Option.or_assoc]
      congr 1
      rw [lookup, lookup]
      split <;> rfl
  rw [sortMembers, hfold]
  exact Option.or_none

theorem get?_object (n : String) (ms : List (String × Json)) :
    (object ms).get? n = lookup n ms.reverse := lookup_sortMembers n ms

theorem lookup_map {β : Type} (name : β → String) (g : β → α) (n : String) (bs : List β) :
    lookup n (bs.map fun b => (name b, g b)) = (bs.find? fun b => name b == n).map g := by
  induction bs with
  | nil => rfl
  | cons b bs ih =>
    rw [List.map_cons, lookup, List.find?_cons, ih]
    cases h : name b == n with
    | true => rw [if_pos (beq_iff_eq.1 h), Option.map_some]
    | false => rw [if_neg (beq_eq_false_iff_ne.1 h)]

theorem lookup_isSome_iff {n : String} {ms : List (String × α)} :
    (lookup n ms).isSome ↔ n ∈ ms.map (·.1) := by
  induction ms with
  | nil => simp [lookup]
  | cons m ms ih =>
    rw [lookup, List.map_cons, List.mem_cons]
    by_cases h : m.1 = n
    · simp [h]
    · rw [if_neg h, ih, or_iff_right (Ne.symm h)]

theorem mem_names_sortMembers {n : String} {ms : List (String × α)} :
    n ∈ (sortMembers ms).map (·.1) ↔ n ∈ ms.map (·.1) := by
  rw [← lookup_isSome_iff, lookup_sortMembers, lookup_isSome_iff, List.map_reverse,
    List.mem_reverse]

/-! ## The order of members -/

/-- Members in order of their names, one of each name. -/
def InOrder (ms : List (String × α)) : Prop := (ms.map (·.1)).Pairwise (· < ·)

theorem inOrder_nil : InOrder ([] : List (String × α)) := List.Pairwise.nil

theorem lookup_of_mem {n : String} {v : α} {ms : List (String × α)} (h : InOrder ms)
    (hmem : (n, v) ∈ ms) : lookup n ms = some v := by
  induction ms with
  | nil => cases hmem
  | cons m ms ih =>
    obtain ⟨hfirst, hms⟩ := List.pairwise_cons.1 h
    rw [lookup]
    rcases List.mem_cons.1 hmem with rfl | hmem
    · rw [if_pos rfl]
    · have hlt : m.1 < n := hfirst n (List.mem_map.2 ⟨(n, v), hmem, rfl⟩)
      have hne : m.1 ≠ n := by
        intro heq
        rw [heq] at hlt
        exact String.lt_irrefl n hlt
      rw [if_neg hne]
      exact ih hms hmem

theorem mem_names_insertMember {name n : String} {v : α} {ms : List (String × α)} :
    n ∈ (insertMember name v ms).map (·.1) ↔ n = name ∨ n ∈ ms.map (·.1) := by
  rw [← lookup_isSome_iff, lookup_insertMember, ← lookup_isSome_iff]
  by_cases h : name = n
  · simp [h]
  · rw [if_neg h, or_iff_right (Ne.symm h)]

theorem inOrder_insertMember {ms : List (String × α)} (h : InOrder ms) (name : String) (v : α) :
    InOrder (insertMember name v ms) := by
  induction ms with
  | nil => exact List.pairwise_singleton _ name
  | cons m ms ih =>
    obtain ⟨n, v'⟩ := m
    obtain ⟨hfirst, hms⟩ := List.pairwise_cons.1 h
    rw [insertMember]
    split
    · next hlt =>
      refine List.pairwise_cons.2 ⟨?_, h⟩
      intro k hk
      rcases List.mem_cons.1 hk with rfl | hk
      · exact hlt
      · exact String.lt_trans hlt (hfirst k hk)
    split
    · next heq =>
      subst heq
      exact List.pairwise_cons.2 ⟨hfirst, hms⟩
    · next hlt hne =>
      refine List.pairwise_cons.2 ⟨?_, ih hms⟩
      intro k hk
      rcases mem_names_insertMember.1 hk with rfl | hk
      · refine Decidable.by_contra fun hnot => hne ?_
        exact String.le_antisymm (String.not_lt.1 hnot) (String.not_lt.1 hlt)
      · exact hfirst k hk

theorem inOrder_sortMembers (ms : List (String × α)) : InOrder (sortMembers ms) := by
  have hfold : ∀ acc : List (String × α), InOrder acc →
      InOrder (ms.foldl (fun acc m => insertMember m.1 m.2 acc) acc) := by
    induction ms with
    | nil => exact fun _ h => h
    | cons m ms ih => exact fun acc h => ih _ (inOrder_insertMember h m.1 m.2)
  exact hfold [] inOrder_nil

end SearchDialect.Json
