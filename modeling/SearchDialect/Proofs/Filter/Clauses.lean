import SearchDialect.Lucene.Clauses
import SearchDialect.Proofs.Outcome

/-!
# Sorting conditions into clauses

Conditions are sorted by the nested document that they are on. The clause of each document holds all
of its conditions in their order and no others (`clause?_sortClauses`), and the clauses on nested
documents stand in the order in which their paths are first used (`firstUses_sortClauses`).
-/

namespace SearchDialect.Lucene

/-- The clause on the document itself, or on the nested documents at a path. -/
def Clauses.clause? (cs : Clauses) : Option String → Option String
  | none => cs.root?
  | some path => cs.at? path

/-- The conditions on the document itself, or on the nested documents at a path, in their order. -/
def conditionsOn (path? : Option String) (conditions : List (Option String × String)) :
    List String :=
  (conditions.filter fun c => c.1 == path?).map (·.2)

/-- Conditions that all have to hold, if there are any. -/
def joinConditions? (cs : List String) : Option String :=
  if cs.isEmpty then none else some (joinConditions cs)

theorem joinConditions?_eq_none_iff {cs : List String} : joinConditions? cs = none ↔ cs = [] := by
  cases cs <;> simp [joinConditions?]

theorem eq_of_joinConditions? {cs : List String} {clause : String}
    (h : joinConditions? cs = some clause) : clause = joinConditions cs := by
  cases cs with
  | nil => simp [joinConditions?] at h
  | cons c cs => exact (Option.some.inj h).symm

/-- Adds a condition to those of its path, if it is on nested documents. -/
def collect (acc : List (String × List String)) (c : Option String × String) :
    List (String × List String) :=
  match c.1 with
  | none => acc
  | some path => addAt path c.2 acc

/-- The conditions that have been collected for a path. -/
def collectedAt? (path : String) (acc : List (String × List String)) : Option (List String) :=
  (acc.find? (·.1 == path)).map (·.2)

theorem conditionsOn_cons (path? : Option String) (c : Option String × String)
    (conditions : List (Option String × String)) :
    conditionsOn path? (c :: conditions) =
      if c.1 = path? then c.2 :: conditionsOn path? conditions
      else conditionsOn path? conditions := by
  by_cases h : c.1 = path? <;> simp [conditionsOn, h]

theorem collectedAt?_addAt (path p c : String) (acc : List (String × List String)) :
    collectedAt? path (addAt p c acc) =
      if p = path then some ((collectedAt? path acc).getD [] ++ [c])
      else collectedAt? path acc := by
  induction acc with
  | nil => by_cases hp : p = path <;> simp [collectedAt?, addAt, hp]
  | cons q acc ih =>
    obtain ⟨q, cs⟩ := q
    rw [addAt]
    by_cases hq : q = p
    · subst hq
      by_cases hp : q = path <;> simp [collectedAt?, hp]
    · rw [if_neg hq]
      by_cases hpath : q = path
      · have hp : p ≠ path := fun h => hq (hpath.trans h.symm)
        simp [collectedAt?, hpath, hp]
      · simpa [collectedAt?, hpath] using ih

/-- Collecting conditions appends those of a path to what has been collected for it. -/
theorem collectedAt?_foldl (path : String) (conditions : List (Option String × String))
    (acc : List (String × List String)) :
    collectedAt? path (conditions.foldl collect acc) =
      if (conditionsOn (some path) conditions).isEmpty then collectedAt? path acc
      else some ((collectedAt? path acc).getD [] ++ conditionsOn (some path) conditions) := by
  induction conditions generalizing acc with
  | nil => rfl
  | cons c conditions ih =>
    obtain ⟨path?, c⟩ := c
    rw [List.foldl_cons, ih, conditionsOn_cons]
    cases path? with
    | none => rfl
    | some p =>
      rw [collect, collectedAt?_addAt]
      by_cases hp : p = path
      · rw [if_pos hp, if_pos (congrArg some hp)]
        cases conditionsOn (some path) conditions <;> simp
      · rw [if_neg hp, if_neg fun h => hp (Option.some.inj h)]

theorem root?_sortClauses (conditions : List (Option String × String)) :
    (sortClauses conditions).root? = joinConditions? (conditionsOn none conditions) := by
  have hroot : (conditions.filterMap fun c => if c.1.isNone then some c.2 else none) =
      conditionsOn none conditions := by
    induction conditions with
    | nil => rfl
    | cons c conditions ih =>
      obtain ⟨path?, c⟩ := c
      rw [conditionsOn_cons, List.filterMap_cons, ih]
      cases path? <;> rfl
  rw [← hroot]
  rfl

theorem at?_sortClauses (path : String) (conditions : List (Option String × String)) :
    (sortClauses conditions).at? path =
      joinConditions? (conditionsOn (some path) conditions) := by
  have hnested : (sortClauses conditions).nested =
      (conditions.foldl collect []).map fun p => (p.1, joinConditions p.2) := rfl
  have hjoined : (sortClauses conditions).at? path =
      (collectedAt? path (conditions.foldl collect [])).map joinConditions := by
    rw [Clauses.at?, hnested, List.find?_map, collectedAt?, Option.map_map, Option.map_map]
    rfl
  rw [hjoined, collectedAt?_foldl, joinConditions?]
  split <;> rfl

/-- Sorting loses no condition and changes no order. -/
theorem clause?_sortClauses (path? : Option String)
    (conditions : List (Option String × String)) :
    (sortClauses conditions).clause? path? = joinConditions? (conditionsOn path? conditions) := by
  cases path? with
  | none => exact root?_sortClauses conditions
  | some path => exact at?_sortClauses path conditions

/-! ## The conditions of filters -/

section

variable {ι : Type} {family : Family ι} {m : Model ι} {fs : List Filter} {texts : List String}

/-- The conditions that are sorted: those of filters that say something, in parentheses, each with
the path of its filter. -/
def spoken (fs : List Filter) (texts : List String) : List (Option String × String) :=
  ((fs.zip texts).filter fun p => !p.2.isEmpty).map fun p => (home? p.1, "(" ++ p.2 ++ ")")

theorem clauses_eq_sortClauses
    (h : List.Forall₂ (fun f s => condition family m f = .ok s) fs texts) :
    clauses family m fs = .ok (sortClauses (spoken fs texts)) := by
  have hconditions : fs.mapM (fun f => do
      let c ← condition family m f
      return (home? f, c)) = .ok ((fs.zip texts).map fun p => (home? p.1, p.2)) := by
    apply mapM_of_forall₂
    induction h with
    | nil => exact .nil
    | cons hf _ ih => exact .cons (by rw [hf]; rfl) ih
  have hspoken : (((fs.zip texts).map fun p => (home? p.1, p.2)).filter (!·.2.isEmpty)).map
      (fun c => (c.1, "(" ++ c.2 ++ ")")) = spoken fs texts := by
    rw [List.filter_map, List.map_map]
    rfl
  rw [clauses, hconditions, ok_bind]
  show Except.ok (sortClauses _) = _
  rw [hspoken]

/-- Where no condition is empty, all of them are sorted. -/
theorem clauses_of_forall₂
    (h : List.Forall₂ (fun f s => condition family m f = .ok s) fs texts)
    (hne : ∀ s ∈ texts, s ≠ "") :
    clauses family m fs =
      .ok (sortClauses ((fs.zip texts).map fun p => (home? p.1, "(" ++ p.2 ++ ")"))) := by
  have hkept : (fs.zip texts).filter (fun p => !p.2.isEmpty) = fs.zip texts := by
    rw [List.filter_eq_self]
    intro p hp
    simpa [String.isEmpty_iff] using hne p.2 (List.of_mem_zip hp).2
  rw [clauses_eq_sortClauses h, spoken, hkept]

end

/-! ## The paths of clauses -/

/-- Some paths are those that are used, each once and in the order of their first use. -/
structure FirstUses (used paths : List String) : Prop where
  nodup : paths.Nodup
  mem_iff : ∀ p, p ∈ paths ↔ p ∈ used
  inOrder : paths.Pairwise fun p q => ∃ before after, used = before ++ p :: after ∧ q ∉ before

namespace FirstUses

variable {used paths : List String} {p : String}

theorem nil : FirstUses [] [] where
  nodup := List.nodup_nil
  mem_iff _ := Iff.rfl
  inOrder := List.Pairwise.nil

/-- What has been used in order stays in order when more is used. -/
theorem inOrder_append (h : FirstUses used paths) (more : List String) :
    paths.Pairwise fun p q => ∃ before after, used ++ more = before ++ p :: after ∧ q ∉ before := by
  refine h.inOrder.imp ?_
  rintro p q ⟨before, after, hused, hq⟩
  refine ⟨before, after ++ more, ?_, hq⟩
  rw [hused, List.append_assoc, List.cons_append]

/-- A path that is used again. -/
theorem again (h : FirstUses used paths) (hp : p ∈ paths) : FirstUses (used ++ [p]) paths where
  nodup := h.nodup
  mem_iff q := by
    rw [h.mem_iff, List.mem_append, List.mem_singleton]
    constructor
    · exact Or.inl
    · rintro (hq | rfl)
      · exact hq
      · exact (h.mem_iff q).1 hp
  inOrder := h.inOrder_append [p]

/-- A path that is used for the first time. -/
theorem next (h : FirstUses used paths) (hp : p ∉ paths) :
    FirstUses (used ++ [p]) (paths ++ [p]) where
  nodup := by
    refine List.nodup_append.2 ⟨h.nodup, List.pairwise_singleton _ p, ?_⟩
    rintro q hq r hr rfl
    exact hp (List.mem_singleton.1 hr ▸ hq)
  mem_iff q := by rw [List.mem_append, List.mem_append, h.mem_iff]
  inOrder := by
    refine List.pairwise_append.2 ⟨h.inOrder_append [p], List.pairwise_singleton _ p, ?_⟩
    intro q hq r hr
    obtain rfl := List.mem_singleton.1 hr
    obtain ⟨before, after, hused, hbefore⟩ :=
      List.eq_append_cons_of_mem ((h.mem_iff q).1 hq)
    refine ⟨before, after ++ [r], by rw [hused, List.append_assoc, List.cons_append], ?_⟩
    intro hr
    apply hp
    rw [h.mem_iff, hused]
    exact List.mem_append_left _ hr

end FirstUses

theorem paths_addAt (p c : String) (acc : List (String × List String)) :
    (addAt p c acc).map (·.1) =
      if p ∈ acc.map (·.1) then acc.map (·.1) else acc.map (·.1) ++ [p] := by
  induction acc with
  | nil => rfl
  | cons q acc ih =>
    obtain ⟨q, cs⟩ := q
    rw [addAt]
    by_cases hq : q = p
    · simp [hq]
    · rw [if_neg hq, List.map_cons, ih]
      have hp : p ≠ q := Ne.symm hq
      by_cases hmem : p ∈ acc.map (·.1) <;> simp [hmem, hp]

/-- One more condition uses its path, if it has one. -/
theorem FirstUses.collect {used : List String} {acc : List (String × List String)}
    (h : FirstUses used (acc.map (·.1))) (c : Option String × String) :
    FirstUses (used ++ c.1.toList) ((Lucene.collect acc c).map (·.1)) := by
  obtain ⟨path?, c⟩ := c
  cases path? with
  | none => simpa [Lucene.collect] using h
  | some p =>
    show FirstUses (used ++ [p]) ((addAt p c acc).map (·.1))
    rw [paths_addAt]
    split
    · next hp => exact h.again hp
    · next hp => exact h.next hp

theorem FirstUses.foldl_collect (conditions : List (Option String × String)) {used : List String}
    {acc : List (String × List String)} (h : FirstUses used (acc.map (·.1))) :
    FirstUses (used ++ conditions.filterMap (·.1))
      ((conditions.foldl Lucene.collect acc).map (·.1)) := by
  induction conditions generalizing used acc with
  | nil => simpa using h
  | cons c conditions ih =>
    have hnext := ih (h.collect c)
    have hused : used ++ c.1.toList ++ conditions.filterMap (·.1) =
        used ++ (c :: conditions).filterMap (·.1) := by
      rw [List.filterMap_cons, List.append_assoc]
      cases c.1 <;> rfl
    rw [hused] at hnext
    exact hnext

/-- The clauses stand in the order in which their paths are first used. -/
theorem firstUses_sortClauses (conditions : List (Option String × String)) :
    FirstUses (conditions.filterMap (·.1)) ((sortClauses conditions).nested.map (·.1)) := by
  have hnested : (sortClauses conditions).nested.map (·.1) =
      (conditions.foldl collect []).map (·.1) := List.map_map
  have hnone : FirstUses [] (([] : List (String × List String)).map (·.1)) := FirstUses.nil
  rw [hnested]
  exact FirstUses.foldl_collect conditions hnone

end SearchDialect.Lucene
