import SearchDialect.Proofs.Filter.Clauses
import SearchDialect.Proofs.Filter.Faults
import SearchDialect.Proofs.Filter.Home
import SearchDialect.Proofs.Filter.Silence

/-!
# Clauses as a partition

The filters of a request are divided among the clauses: each filter that holds a condition is said
in the clause of the one place where it lies, and nowhere else, and a filter without a condition is
said nowhere. Within a clause the order is that of the filters, and the clauses on nested documents
stand in the order in which filters first lie there (`Lucene.clauses_partition`).
-/

namespace SearchDialect.Lucene

variable {ι : Type} {family : Family ι} {m : Model ι} {fs : List Filter} {texts : List String}

/-- The conditions, in parentheses, of the filters that lie at a place, in their order. -/
def saidOn (path? : Option String) (written : List (Filter × String)) : List String :=
  (written.filter fun p => p.1.LiesOn path?).map fun p => "(" ++ p.2 ++ ")"

/-- Some filter lies on the nested documents at `p` before any lies on those at `q`. -/
def LiesBefore (fs : List Filter) (p q : String) : Prop :=
  ∃ before f after, fs = before ++ f :: after ∧ f.LiesOn (some p) ∧
    ∀ g ∈ before, ¬ g.LiesOn (some q)

theorem resolves_of_clauses {cs : Clauses} (h : clauses family m fs = .ok cs) :
    ∀ f ∈ fs, f.Resolves family m := by
  have hfault : fault? (clauses family m fs) = none := fault?_eq_none_iff.2 ⟨cs, h⟩
  rw [fault?_clauses, List.findSome?_eq_none_iff, List.forall_mem_flatMap] at hfault
  intro f hf g hg
  exact Filter.ownFault?_eq_none_iff.1 (hfault f hf g hg)

theorem exists_condition {f : Filter} (h : f.Resolves family m) :
    ∃ s, condition family m f = .ok s ∧ (s = "" ↔ f.isSilent = true) := by
  obtain ⟨ts, hts, -⟩ := Dialect.exists_tokens (d := dialect) h
  have hs := Dialect.condition_of_tokens dialect hts
  refine ⟨_, hs, ?_⟩
  rw [← condition_eq_empty_iff (d := dialect) compare_ne_empty rfl h, hs, Except.ok.injEq]

/-- Each filter with its condition, which is empty exactly if the filter holds none. -/
abbrev Writes (family : Family ι) (m : Model ι) (f : Filter) (s : String) : Prop :=
  condition family m f = .ok s ∧ (s = "" ↔ f.isSilent = true)

theorem exists_texts (h : ∀ f ∈ fs, f.Resolves family m) :
    ∃ texts, List.Forall₂ (Writes family m) fs texts := by
  induction fs with
  | nil => exact ⟨[], .nil⟩
  | cons f fs ih =>
    rw [List.forall_mem_cons] at h
    obtain ⟨s, hs⟩ := exists_condition h.1
    obtain ⟨texts, htexts⟩ := ih h.2
    exact ⟨s :: texts, .cons hs htexts⟩

/-- What is sorted to a place is what is said of the filters that lie there. -/
theorem conditionsOn_spoken (h : List.Forall₂ (Writes family m) fs texts) (path? : Option String) :
    conditionsOn path? (spoken fs texts) = saidOn path? (fs.zip texts) := by
  have hkept : ∀ p ∈ fs.zip texts,
      (home? p.1 == path? && !p.2.isEmpty) = decide (p.1.LiesOn path?) := by
    intro p hp
    have hempty : p.2 = "" ↔ p.1.isSilent = true := (List.forall₂_zip h hp).2
    rw [Bool.eq_iff_iff, decide_eq_true_iff, Filter.liesOn_iff, Bool.and_eq_true, beq_iff_eq,
      Bool.not_eq_true', and_comm, ← Bool.not_eq_true, ← Bool.not_eq_true p.1.isSilent,
      String.isEmpty_iff, hempty]
  rw [conditionsOn, spoken, List.filter_map, List.map_map, List.filter_filter, saidOn,
    ← List.filter_congr hkept]
  rfl

theorem filterMap_spoken (h : List.Forall₂ (Writes family m) fs texts) :
    (spoken fs texts).filterMap (·.1) = fs.filterMap home? := by
  induction h with
  | nil => rfl
  | @cons f s fs texts hs _ ih =>
    rw [List.filterMap_cons, ← ih]
    by_cases hempty : s = ""
    · rw [Filter.home?_of_isSilent (hs.2.1 hempty)]
      simp [spoken, hempty]
    · have hsaid : spoken (f :: fs) (s :: texts) =
          (home? f, "(" ++ s ++ ")") :: spoken fs texts := by
        simp [spoken, hempty]
      rw [hsaid, List.filterMap_cons]

/-- A path that is used before another one belongs to a filter that comes before those of the
other. -/
theorem liesBefore_of_used {p q : String}
    (h : ∃ before after, fs.filterMap home? = before ++ p :: after ∧ q ∉ before) :
    LiesBefore fs p q := by
  obtain ⟨before, after, hused, hq⟩ := h
  obtain ⟨front, rest, rfl, rfl, hrest⟩ := List.filterMap_eq_append_iff.1 hused
  obtain ⟨skipped, f, back, rfl, hskipped, hf, -⟩ := List.filterMap_eq_cons_iff.1 hrest
  refine ⟨front ++ skipped, f, back, by simp, Filter.liesOn_some_iff.2 hf, ?_⟩
  intro g hg hlies
  have hhome := Filter.liesOn_some_iff.1 hlies
  rcases List.mem_append.1 hg with hg | hg
  · exact hq (List.mem_filterMap.2 ⟨g, hg, hhome⟩)
  · rw [hskipped g hg] at hhome
    cases hhome

theorem saidOn_eq_nil_iff (h : List.Forall₂ (Writes family m) fs texts) {path? : Option String} :
    saidOn path? (fs.zip texts) = [] ↔ ∀ f ∈ fs, ¬ f.LiesOn path? := by
  have hfs : (fs.zip texts).map Prod.fst = fs := List.map_fst_zip (Nat.le_of_eq h.length_eq)
  rw [saidOn, List.map_eq_nil_iff, List.filter_eq_nil_iff]
  constructor
  · intro hnone f hf
    rw [← hfs] at hf
    obtain ⟨p, hp, rfl⟩ := List.mem_map.1 hf
    simpa using hnone p hp
  · intro hnone p hp
    simpa using hnone p.1 (List.of_mem_zip hp).1

/-- Where paths are distinct, each clause is the one at its path. -/
theorem at?_of_mem {cs : Clauses} (hnodup : (cs.nested.map (·.1)).Nodup) {path clause : String}
    (h : (path, clause) ∈ cs.nested) : cs.at? path = some clause := by
  obtain ⟨before, after, hcs⟩ := List.append_of_mem h
  have hfirst : cs.nested.find? (·.1 == path) = some (path, clause) := by
    rw [List.find?_eq_some_iff_append]
    refine ⟨beq_self_eq_true path, before, after, hcs, ?_⟩
    rintro ⟨p, c⟩ hp
    rw [hcs, List.map_append, List.nodup_append] at hnodup
    have hne : p ≠ path := hnodup.2.2 p (List.mem_map_of_mem hp) path List.mem_cons_self
    simpa using hne
  rw [Clauses.at?, hfirst]
  rfl

/-- Each filter that holds a condition lies in one place, any other one nowhere, and the clause of a
place joins the conditions of the filters that lie there, in their order. There is a clause on the
document itself exactly if a filter lies there, and one on nested documents for each path at which a
filter lies, in the order in which filters first do. -/
theorem clauses_partition {cs : Clauses} (h : clauses family m fs = .ok cs) :
    (∀ f ∈ fs, (f.isSilent = false → ∃! path?, f.LiesOn path?) ∧
      (f.isSilent = true → ∀ path?, ¬ f.LiesOn path?)) ∧
    (∃ texts, List.Forall₂ (fun f s => condition family m f = .ok s) fs texts ∧
      (∀ clause, cs.root? = some clause →
        clause = Text.joinStrings " AND " (saidOn none (fs.zip texts))) ∧
      ∀ path clause, (path, clause) ∈ cs.nested →
        clause = Text.joinStrings " AND " (saidOn (some path) (fs.zip texts))) ∧
    (cs.root? = none ↔ ∀ f ∈ fs, ¬ f.LiesOn none) ∧
    (cs.nested.map (·.1)).Nodup ∧
    (∀ path, path ∈ cs.nested.map (·.1) ↔ ∃ f ∈ fs, f.LiesOn (some path)) ∧
    (cs.nested.map (·.1)).Pairwise (LiesBefore fs) := by
  obtain ⟨texts, htexts⟩ := exists_texts (resolves_of_clauses h)
  have hconditions := htexts.imp fun _ _ hs => hs.1
  obtain rfl : sortClauses (spoken fs texts) = cs :=
    Except.ok.inj ((clauses_eq_sortClauses hconditions).symm.trans h)
  have hjoined (path?) : (sortClauses (spoken fs texts)).clause? path? =
      joinConditions? (saidOn path? (fs.zip texts)) := by
    rw [clause?_sortClauses, conditionsOn_spoken htexts]
  have huses := firstUses_sortClauses (spoken fs texts)
  rw [filterMap_spoken htexts] at huses
  refine ⟨?_, ⟨texts, hconditions, ?_, ?_⟩, ?_, huses.nodup, ?_, ?_⟩
  · intro f _
    exact ⟨Filter.existsUnique_liesOn, Filter.not_liesOn⟩
  · intro clause hroot
    exact eq_of_joinConditions? ((hjoined none).symm.trans hroot)
  · intro path clause hmem
    exact eq_of_joinConditions? ((hjoined (some path)).symm.trans (at?_of_mem huses.nodup hmem))
  · rw [← saidOn_eq_nil_iff htexts]
    show (sortClauses (spoken fs texts)).clause? none = none ↔ _
    rw [hjoined, joinConditions?_eq_none_iff]
  · intro path
    rw [huses.mem_iff, List.mem_filterMap]
    simp only [Filter.liesOn_some_iff]
  · exact huses.inOrder.imp liesBefore_of_used

/-- Two filters on items, apart from each other, among filters on the product itself, one that
holds no condition, and one that begins with a placeholder. -/
def itemsApart : List Filter :=
  [.condition "IsActive" .eq (.bool true), .condition "Items.Category" .eq (.text "shoes"),
    .node "" .eq .null (some "empty") true [],
    (Filter.node "" .eq .null (some "head") true []).link .and
      (.condition "Items.Maker.Founded" .lt (.int 1990)),
    .condition "Price" .ge (.int 1), .condition "Items.Count" .gt (.int 2)]

/-- The second of the filters on items is said in the clause of the first. -/
theorem clauses_partition_itemsApart :
    clauses Storefront.family (Storefront.family .product) itemsApart = .ok
      { root? := some "(IsActive:true) AND (Price:>=1)"
        nested := [("Items", "(Items.Category:\"shoes\") AND (Items.Count:>2)"),
          ("Items.Maker", "(Items.Maker.Founded:<1990)")] } ∧
    (∃! path?, (Filter.condition "Items.Count" .gt (.int 2)).LiesOn path?) ∧
    LiesBefore itemsApart "Items" "Items.Maker" := by
  have h : clauses Storefront.family (Storefront.family .product) itemsApart = .ok
      { root? := some "(IsActive:true) AND (Price:>=1)"
        nested := [("Items", "(Items.Category:\"shoes\") AND (Items.Count:>2)"),
          ("Items.Maker", "(Items.Maker.Founded:<1990)")] } := by
    decide
  obtain ⟨hplaces, -, -, -, -, horder⟩ := clauses_partition h
  refine ⟨h, (hplaces _ ?_).1 ?_, ?_⟩
  · simp [itemsApart]
  · decide
  · simpa using horder

end SearchDialect.Lucene
