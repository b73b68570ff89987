import SearchDialect.Lucene.Clauses
import SearchDialect.OData
import SearchDialect.Proofs.Filter.Tree
import SearchDialect.Sample.Storefront

/-!
# Faults of filters

A filter is at fault if it names a property that leads to no value. Whatever the query language, the
filters that a filter links to are looked at depth first, and the first fault is told
(`Dialect.fault?_tokens`). So both languages refuse the same filters for the same reason
(`conjunction_clauses_fault`), although they sort and group what they write in ways of their own.
-/

namespace SearchDialect

open SearchDialect.Filter (walk walkLinks)

variable {ι : Type} (family : Family ι) (m : Model ι)

namespace Filter

/-- Why the property of a filter leads to no value, if it names one that does not. -/
def ownFault? (f : Filter) : Option ModelError :=
  if f.isBlank then none else fault? (m.kindAt family f.property)

/-- The first of some filters that names a property which leads to no value is refused for `e`. -/
def FirstFault (gs : List Filter) (e : ModelError) : Prop :=
  ∃ before g after, gs = before ++ g :: after ∧
    (∀ f ∈ before, f.isBlank = false → ∃ k, m.kindAt family f.property = .ok k) ∧
    g.isBlank = false ∧ m.kindAt family g.property = .error e

variable {family m}

theorem ownFault?_eq_none_iff {f : Filter} :
    f.ownFault? family m = none ↔
      (f.isBlank = false → ∃ k, m.kindAt family f.property = .ok k) := by
  rw [ownFault?, ← fault?_eq_none_iff]
  cases f.isBlank <;> simp

theorem ownFault?_eq_some_iff {f : Filter} {e : ModelError} :
    f.ownFault? family m = some e ↔
      f.isBlank = false ∧ m.kindAt family f.property = .error e := by
  rw [ownFault?, ← fault?_eq_some_iff]
  cases f.isBlank <;> simp

theorem firstFault_iff {gs : List Filter} {e : ModelError} :
    FirstFault family m gs e ↔ gs.findSome? (ownFault? family m) = some e := by
  simp only [FirstFault, List.findSome?_eq_some_iff, ownFault?_eq_none_iff, ownFault?_eq_some_iff]
  constructor
  · rintro ⟨before, g, after, hgs, hbefore, hg⟩
    exact ⟨before, g, after, hgs, hg, hbefore⟩
  · rintro ⟨before, g, after, hgs, hg, hbefore⟩
    exact ⟨before, g, after, hgs, hbefore, hg⟩

/-- Of steps done for some filters, each with the fault of its filter's walk, the fault of all walks
one after the other is told. -/
theorem fault?_mapM_walk {β : Type} {step : Filter → Except ModelError β}
    (h : ∀ f, fault? (step f) = f.walk.findSome? (ownFault? family m)) (fs : List Filter) :
    fault? (fs.mapM step) = (fs.flatMap walk).findSome? (ownFault? family m) := by
  rw [fault?_mapM]
  induction fs with
  | nil => rfl
  | cons f fs ih =>
    rw [List.flatMap_cons, List.findSome?_append, ← ih, List.findSome?_cons, h]
    cases f.walk.findSome? (ownFault? family m) <;> rfl

end Filter

open SearchDialect.Filter (ownFault? FirstFault)

/-! ## The first fault of a filter -/

namespace Dialect

variable {family m} (d : Dialect)

theorem fault?_own (f : Filter) :
    fault? (d.own family m f.property f.comparison f.value) = f.ownFault? family m := by
  rw [own, ownFault?, Filter.isBlank]
  split
  · rfl
  · rw [fault?_bind_pure]

/-- What has been written before some links does not change their first fault. -/
theorem fault?_linkTokens {ls : List (Connective × Filter)}
    (h : ∀ l ∈ ls, fault? (d.tokens family m l.2) = l.2.walk.findSome? (ownFault? family m))
    (written : List Token) :
    fault? (d.linkTokens family m written ls) =
      (walkLinks ls).findSome? (ownFault? family m) := by
  induction ls generalizing written with
  | nil => rfl
  | cons l ls ih =>
    obtain ⟨c, f⟩ := l
    rw [List.forall_mem_cons] at h
    rw [linkTokens, fault?_bind fun _ => ih h.2 _, h.1, walkLinks, List.findSome?_append]

/-- The fault of a filter is the first one of its walk. -/
theorem fault?_tokens (f : Filter) :
    fault? (d.tokens family m f) = f.walk.findSome? (ownFault? family m) := by
  induction f with
  | node p c v t vi ls ih =>
    have hown : fault? (d.own family m p c v) = ownFault? family m (.node p c v t vi ls) :=
      d.fault?_own (.node p c v t vi ls)
    rw [tokens, fault?_bind fun written => d.fault?_linkTokens ih written, hown, walk,
      List.findSome?_cons]
    cases ownFault? family m (.node p c v t vi ls) <;> rfl

theorem fault?_condition (f : Filter) :
    fault? (d.condition family m f) = f.walk.findSome? (ownFault? family m) := by
  rw [condition, fault?_bind_pure, fault?_tokens]

end Dialect

/-! ## The first fault of some filters -/

theorem OData.fault?_conjunction (fs : List Filter) :
    fault? (OData.conjunction family m fs) =
      (fs.flatMap walk).findSome? (ownFault? family m) := by
  rw [conjunction, fault?_bind_pure]
  exact Filter.fault?_mapM_walk dialect.fault?_condition fs

theorem Lucene.fault?_clauses (fs : List Filter) :
    fault? (Lucene.clauses family m fs) =
      (fs.flatMap walk).findSome? (ownFault? family m) := by
  rw [clauses, fault?_bind_pure]
  apply Filter.fault?_mapM_walk
  intro f
  rw [fault?_bind_pure]
  exact dialect.fault?_condition f

/-- Both languages write some filters if all their properties lead to values, and else refuse them
for the same reason: the fault of the first filter at fault when the filters are walked through one
after the other, each depth first. -/
theorem conjunction_clauses_fault (fs : List Filter) :
    ((∃ text?, OData.conjunction family m fs = .ok text?) ↔
      ∃ clauses, Lucene.clauses family m fs = .ok clauses) ∧
    ((∃ clauses, Lucene.clauses family m fs = .ok clauses) ↔
      ∀ f ∈ fs, f.Resolves family m) ∧
    ∀ e,
      (OData.conjunction family m fs = .error e ↔ FirstFault family m (fs.flatMap walk) e) ∧
      (Lucene.clauses family m fs = .error e ↔ FirstFault family m (fs.flatMap walk) e) := by
  have hodata := OData.fault?_conjunction family m fs
  have hlucene := Lucene.fault?_clauses family m fs
  refine ⟨?_, ?_, fun e => ⟨?_, ?_⟩⟩
  · rw [← fault?_eq_none_iff, ← fault?_eq_none_iff, hodata, hlucene]
  · rw [← fault?_eq_none_iff, hlucene, List.findSome?_eq_none_iff, List.forall_mem_flatMap]
    simp only [Filter.ownFault?_eq_none_iff, Filter.Resolves]
  · rw [← fault?_eq_some_iff, hodata, Filter.firstFault_iff]
  · rw [← fault?_eq_some_iff, hlucene, Filter.firstFault_iff]

/-- The fault of a link, here of a placeholder's, comes before the one of the next filter. -/
example :
    Lucene.clauses Storefront.family (Storefront.family .product)
        [Filter.link default .and (.condition "Nothing" .eq .null), .condition "Main" .eq .null] =
      .error (.unknownMember "Nothing" "Product") := by
  decide

end SearchDialect
