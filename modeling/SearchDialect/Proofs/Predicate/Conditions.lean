import SearchDialect.Proofs.Filter.Clauses
import SearchDialect.Proofs.Filter.Reading
import SearchDialect.Proofs.Predicate.LeftToRight

/-!
# The conditions of predicates

The properties of a predicate are looked up once, when it becomes a filter. Its filter names a
property at every depth, and one that leads to a value (`Expr.stated_of_toFilter`), so that it is
written in both languages, alone and among others, and never as nothing
(`Expr.exists_conditions_toFilter`).
-/

namespace SearchDialect

variable {ι : Type} {family : Family ι} {m : Model ι}

namespace Filter

/-- A link brings its own walk and changes no property. -/
theorem stated_link_iff {f g : Filter} {c : Connective} :
    (f.link c g).Stated family m ↔ f.Stated family m ∧ g.Stated family m := by
  have hlinks : (f.link c g).links = f.links ++ [(c, g)] := rfl
  simp only [Stated]
  rw [forall_mem_walk_iff, forall_mem_walk_iff (f := f), hlinks, List.forall_mem_append,
    List.forall_mem_singleton, ← and_assoc]
  rfl

/-- Stated filters are written, none of them as nothing. -/
theorem exists_texts {d : Dialect} (hd : ∀ p k c v, d.compare p k c v ≠ "") {fs : List Filter}
    (h : ∀ f ∈ fs, f.Stated family m) :
    ∃ texts, List.Forall₂ (fun f s => d.condition family m f = .ok s) fs texts ∧
      ∀ s ∈ texts, s ≠ "" := by
  obtain ⟨tss, htss, hne, -⟩ := exists_conditions hd h
  exact ⟨tss.map d.text, List.forall₂_map_right_iff.2 htss, List.forall_mem_map.2 hne⟩

end Filter

namespace Expr

/-- At every depth the filter of a predicate names a property that leads to a value. -/
theorem stated_of_toFilter {e : Expr} {f : Filter} (h : e.toFilter family m = .ok f) :
    f.Stated family m := by
  match e, h with
  | compare c l r, h =>
    obtain ⟨p, k, v, _, hk, _, rfl⟩ := toFilter_compare h
    intro g hg
    obtain rfl : g = .condition p c v := List.mem_singleton.1 hg
    exact ⟨Model.ne_empty_of_kindAt hk, k, hk⟩
  | logical c l r, h =>
    obtain ⟨g, g', hl, hr, rfl⟩ := toFilter_logical h
    exact Filter.stated_link_iff.2 ⟨stated_of_toFilter hl, stated_of_toFilter hr⟩
  | member _, h | constant _, h | convert _ _, h | call _ _ _ _, h => simp [toFilter] at h

/-- Some predicates that become filters are written in both languages. No filter at any depth is
blank, and every one of them has a condition, which is not empty: the OData conjunction is that of
all conditions, and each Lucene clause that of all conditions on its document. -/
theorem exists_conditions_toFilter {es : List Expr} {fs : List Filter}
    (h : List.Forall₂ (fun e f => e.toFilter family m = .ok f) es fs) :
    (∀ f ∈ fs, ∀ g ∈ f.walk, g.isBlank = false) ∧
    (∃ texts, List.Forall₂ (fun f s => OData.condition family m f = .ok s) fs texts ∧
      (∀ s ∈ texts, s ≠ "") ∧
      OData.conjunction family m fs =
        .ok (if texts.isEmpty then none
          else some (Text.joinStrings " and " (texts.map fun s => "(" ++ s ++ ")")))) ∧
    ∃ texts clauses,
      List.Forall₂ (fun f s => Lucene.condition family m f = .ok s) fs texts ∧
      (∀ s ∈ texts, s ≠ "") ∧
      Lucene.clauses family m fs = .ok clauses ∧
      ∀ path?, clauses.clause? path? = Lucene.joinConditions? (Lucene.conditionsOn path?
        ((fs.zip texts).map fun p => (Lucene.home? p.1, "(" ++ p.2 ++ ")"))) := by
  have hstated : ∀ f ∈ fs, f.Stated family m := by
    induction h with
    | nil => intro f hf; cases hf
    | cons hf _ ih => exact List.forall_mem_cons.2 ⟨stated_of_toFilter hf, ih⟩
  refine ⟨fun f hf g hg => (hstated f hf g hg).1, ?_, ?_⟩
  · obtain ⟨texts, htexts, hne⟩ := Filter.exists_texts OData.compare_ne_empty hstated
    exact ⟨texts, htexts, hne, OData.conjunction_of_mapM (mapM_of_forall₂ htexts) hne⟩
  · obtain ⟨texts, htexts, hne⟩ := Filter.exists_texts Lucene.compare_ne_empty hstated
    exact ⟨texts, _, htexts, hne, Lucene.clauses_of_forall₂ htexts hne, fun path? =>
      Lucene.clause?_sortClauses path? _⟩

/-- `Items.Category == 'd'`: the first name of the path leads to nested documents. -/
def nestedCategory : Expr := productIs "Items.Category" (.text "d")

/-- One predicate on the document itself and one on nested documents. -/
theorem exists_conditions_toFilter_rootAndNested :
    List.Forall₂ (fun e f => e.toFilter Storefront.family (Storefront.family .product) = .ok f)
      [disjunctionBothSides, nestedCategory]
      [filterBothSides, .condition "Items.Category" .eq (.text "d")] ∧
    ∃ texts,
      List.Forall₂
        (fun f s => OData.condition Storefront.family (Storefront.family .product) f = .ok s)
        [filterBothSides, .condition "Items.Category" .eq (.text "d")] texts ∧
      (∀ s ∈ texts, s ≠ "") ∧
      Text.joinStrings " and " (texts.map fun s => "(" ++ s ++ ")") =
        "(Id eq 'a' or Id eq 'b' and (Brand eq 'c' or Stock gt 7)) and (Items/Category eq 'd')" := by
  have h : List.Forall₂
      (fun e f => e.toFilter Storefront.family (Storefront.family .product) = .ok f)
      [disjunctionBothSides, nestedCategory]
      [filterBothSides, .condition "Items.Category" .eq (.text "d")] :=
    .cons rfl (.cons rfl .nil)
  have hwritten : OData.conjunction Storefront.family (Storefront.family .product)
      [filterBothSides, .condition "Items.Category" .eq (.text "d")] = .ok (some
        "(Id eq 'a' or Id eq 'b' and (Brand eq 'c' or Stock gt 7)) and (Items/Category eq 'd')") := by
    decide
  obtain ⟨-, ⟨texts, htexts, hne, hconjunction⟩, -⟩ := exists_conditions_toFilter h
  refine ⟨h, texts, htexts, hne, ?_⟩
  rw [hwritten] at hconjunction
  cases htexts with
  | cons _ _ => exact (Option.some.inj (Except.ok.inj hconjunction)).symm

end Expr

end SearchDialect
