import SearchDialect.Lucene.Clauses
import SearchDialect.Proofs.Filter.Tree
import SearchDialect.Proofs.Text.Split

/-!
# Where a filter lies

A property with a dot lies on the nested documents at the path before its last dot, any other one on
the document itself (`nestedPath?_eq_iff`). A filter lies where the first property lies that its
walk comes to (`Filter.liesOn_iff`), so that it lies in one place if it holds a condition and nowhere
if it holds none (`Filter.existsUnique_liesOn`, `Filter.not_liesOn`).
-/

namespace SearchDialect

open Text

/-! ## Properties -/

namespace Lucene

/-- Where a property lies: on the nested documents at the path before its last dot, or, without a
dot, on the document itself. -/
def LiesAt (property : String) : Option String → Prop
  | none => '.' ∉ property.toList
  | some path => ∃ name : String, property = path ++ "." ++ name ∧ '.' ∉ name.toList

theorem nestedPath?_of_not_mem {property : String} (h : '.' ∉ property.toList) :
    nestedPath? property = none := by
  rw [nestedPath?, split_of_not_mem h]
  rfl

theorem nestedPath?_append (path : String) {name : String} (h : '.' ∉ name.toList) :
    nestedPath? (path ++ "." ++ name) = some path := by
  have htext : (path ++ "." ++ name).toList = path.toList ++ '.' :: name.toList := by simp
  obtain ⟨last, names, hpath⟩ := List.exists_cons_of_ne_nil
    (mt List.reverse_eq_nil_iff.1 (split_ne_nil '.' path.toList))
  have hsplit : (split '.' (path ++ "." ++ name).toList).reverse =
      name.toList :: last :: names := by
    rw [htext, split_append_separator, split_of_not_mem h, List.reverse_append, hpath]
    rfl
  have hjoin : join ['.'] (last :: names).reverse = path.toList := by
    rw [← hpath, List.reverse_reverse, join_split]
  rw [nestedPath?, hsplit]
  show some (String.ofList (join ['.'] (last :: names).reverse)) = some path
  rw [hjoin, String.ofList_toList]

/-- A text with dots has a last one. -/
theorem exists_last_dot {property : String} (h : '.' ∈ property.toList) :
    ∃ path name : String, property = path ++ "." ++ name ∧ '.' ∉ name.toList := by
  obtain ⟨after, before, htext, hafter⟩ := List.eq_append_cons_of_mem (List.mem_reverse.2 h)
  have htext : property.toList = before.reverse ++ '.' :: after.reverse := by
    rw [← List.reverse_reverse property.toList, htext]
    simp
  refine ⟨String.ofList before.reverse, String.ofList after.reverse, ?_, ?_⟩
  · apply String.toList_injective
    simp [htext]
  · simpa using hafter

theorem exists_nestedPath? {property : String} (h : '.' ∈ property.toList) :
    ∃ path, nestedPath? property = some path := by
  obtain ⟨path, name, rfl, hname⟩ := exists_last_dot h
  exact ⟨path, nestedPath?_append path hname⟩

theorem nestedPath?_eq_iff {property : String} {path? : Option String} :
    nestedPath? property = path? ↔ LiesAt property path? := by
  constructor
  · rintro rfl
    by_cases h : '.' ∈ property.toList
    · obtain ⟨path, name, rfl, hname⟩ := exists_last_dot h
      rw [nestedPath?_append path hname]
      exact ⟨name, rfl, hname⟩
    · rw [nestedPath?_of_not_mem h]
      exact h
  · intro h
    cases path? with
    | none => exact nestedPath?_of_not_mem h
    | some path =>
      obtain ⟨name, rfl, hname⟩ := h
      exact nestedPath?_append path hname

end Lucene

/-! ## Filters -/

namespace Filter

/-- A filter lies where the first property lies that its walk comes to. -/
def LiesOn (f : Filter) (path? : Option String) : Prop :=
  ∃ before g after, f.walk = before ++ g :: after ∧ (∀ b ∈ before, b.isBlank = true) ∧
    g.isBlank = false ∧ Lucene.LiesAt g.property path?

theorem liesOn_iff {f : Filter} {path? : Option String} :
    f.LiesOn path? ↔ f.isSilent = false ∧ Lucene.home? f = path? := by
  constructor
  · rintro ⟨before, g, after, hwalk, hbefore, hg, hlies⟩
    have hfirst : f.walk.find? (fun g => !g.isBlank) = some g := by
      rw [List.find?_eq_some_iff_append]
      refine ⟨by simp [hg], before, after, hwalk, ?_⟩
      intro b hb
      simp [hbefore b hb]
    constructor
    · rw [isSilent, hwalk]
      simp [hg]
    · rw [Lucene.home?, hfirst]
      exact Lucene.nestedPath?_eq_iff.2 hlies
  · rintro ⟨hsilent, rfl⟩
    cases hfirst : f.walk.find? (fun g => !g.isBlank) with
    | none =>
      rw [List.find?_eq_none] at hfirst
      have hall : f.isSilent = true := by
        rw [isSilent, List.all_eq_true]
        intro g hg
        simpa using hfirst g hg
      rw [hall] at hsilent
      cases hsilent
    | some g =>
      have hhome : Lucene.home? f = Lucene.nestedPath? g.property := by
        rw [Lucene.home?, hfirst]
        rfl
      obtain ⟨hg, before, after, hwalk, hbefore⟩ := List.find?_eq_some_iff_append.1 hfirst
      refine ⟨before, g, after, hwalk, ?_, by simpa using hg, ?_⟩
      · intro b hb
        simpa using hbefore b hb
      · rw [hhome]
        exact Lucene.nestedPath?_eq_iff.1 rfl

theorem home?_of_isSilent {f : Filter} (h : f.isSilent = true) : Lucene.home? f = none := by
  have hnone : f.walk.find? (fun g => !g.isBlank) = none := by
    rw [List.find?_eq_none]
    intro g hg
    simpa using List.all_eq_true.1 h g hg
  rw [Lucene.home?, hnone]
  rfl

theorem liesOn_some_iff {f : Filter} {path : String} :
    f.LiesOn (some path) ↔ Lucene.home? f = some path := by
  rw [liesOn_iff, and_iff_right_iff_imp]
  intro hhome
  cases hs : f.isSilent with
  | false => rfl
  | true =>
    rw [home?_of_isSilent hs] at hhome
    cases hhome

instance (f : Filter) (path? : Option String) : Decidable (f.LiesOn path?) :=
  decidable_of_iff (f.isSilent = false ∧ Lucene.home? f = path?) liesOn_iff.symm

/-- A filter that holds a condition lies in one place. -/
theorem existsUnique_liesOn {f : Filter} (h : f.isSilent = false) : ∃! path?, f.LiesOn path? := by
  refine ⟨Lucene.home? f, liesOn_iff.2 ⟨h, rfl⟩, ?_⟩
  intro path? hlies
  exact (liesOn_iff.1 hlies).2.symm

/-- A filter that holds no condition lies nowhere. -/
theorem not_liesOn {f : Filter} (h : f.isSilent = true) (path? : Option String) :
    ¬ f.LiesOn path? := by
  intro hlies
  rw [(liesOn_iff.1 hlies).1] at h
  cases h

end Filter

end SearchDialect
