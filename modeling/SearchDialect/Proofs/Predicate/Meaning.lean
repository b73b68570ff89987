import Mathlib.Data.List.Forall2
import SearchDialect.Lucene
import SearchDialect.OData
import SearchDialect.Predicate.ToFilter
import SearchDialect.Proofs.Condition.Reading
import SearchDialect.Sample.Storefront

/-!
# What becomes of a predicate's meaning

A predicate that is turned into a filter and written as a condition keeps its comparisons in their
order. Its meaning it keeps exactly when no conjunction in it has a disjunction on its left side
(`condition_meaning_iff`): the filter of a left side is the head of a chain, and a chain is written
without parentheses.
-/

namespace SearchDialect

namespace Model

variable {ι : Type} {family : Family ι} {m : Model ι}

/-- A path that leads to a value is not empty. -/
theorem ne_empty_of_kindAt {p : String} {k : Kind} (h : m.kindAt family p = .ok k) :
    p.isEmpty = false := by
  cases hp : p.isEmpty with
  | false => rfl
  | true =>
    obtain rfl : p = "" := String.isEmpty_iff.1 hp
    cases h

end Model

namespace Expr

open Dialect (condition_of_tokens)

/-- The comparisons of a predicate, joined as it joins them. -/
def formula : Expr → Formula Expr
  | logical c l r => .join c l.formula r.formula
  | e => .atom e

variable {ι : Type} (d : Dialect) {family : Family ι} {m : Model ι}

/-! ## Inverting the translation -/

theorem toFilter_compare {c : Comparison} {l r : Expr} {f : Filter}
    (h : (compare c l r).toFilter family m = .ok f) :
    ∃ p k v, l.path = .ok p ∧ m.kindAt family p = .ok k ∧ r.evaluate = .ok v ∧
      f = .condition p c v := by
  simp only [toFilter] at h
  cases hp : l.path with
  | error e => simp [hp, bind, Except.bind] at h
  | ok p =>
    cases hk : m.kindAt family p with
    | error e => simp [hp, hk, bind, Except.bind, Except.mapError] at h
    | ok k =>
      cases hv : r.evaluate with
      | error e => simp [hp, hk, hv, bind, Except.bind, Except.mapError] at h
      | ok v =>
        simp [hp, hk, hv, bind, Except.bind, Except.mapError, pure, Except.pure] at h
        exact ⟨p, k, v, rfl, hk, rfl, h.symm⟩

theorem toFilter_logical {c : Connective} {l r : Expr} {f : Filter}
    (h : (logical c l r).toFilter family m = .ok f) :
    ∃ g g', l.toFilter family m = .ok g ∧ r.toFilter family m = .ok g' ∧ f = g.link c g' := by
  simp only [toFilter] at h
  cases hl : l.toFilter family m with
  | error e => simp [hl, bind, Except.bind] at h
  | ok g =>
    cases hr : r.toFilter family m with
    | error e => simp [hl, hr, bind, Except.bind] at h
    | ok g' =>
      simp [hl, hr, bind, Except.bind, pure, Except.pure] at h
      exact ⟨g, g', rfl, rfl, h.symm⟩

/-! ## What is written -/

/-- The text of a comparison that stands alone. -/
def textIn (d : Dialect) (family : Family ι) (m : Model ι) (e : Expr) : String :=
  (((e.toFilter family m).toOption.bind fun f => (d.condition family m f).toOption)).getD ""

theorem tokens_condition {p : String} {k : Kind} (h : m.kindAt family p = .ok k) (c : Comparison)
    (v : Literal) :
    d.tokens family m (.condition p c v) = .ok [.comparison (d.compare p k c v)] := by
  simp [Filter.condition, Dialect.tokens, Dialect.own, Model.ne_empty_of_kindAt h, h,
    Dialect.linkTokens, bind, Except.bind, pure, Except.pure]

/-- The filter of a predicate is written as the chain of its comparisons. Only the filter of a
single comparison has no links, and it is written as one unit. -/
theorem chained_tokens (e : Expr) {f : Filter} (h : e.toFilter family m = .ok f) :
    ∃ ts, d.tokens family m f = .ok ts ∧ Chained ts (e.formula.map (textIn d family m)).groups ∧
      (f.links.isEmpty = true →
        Reads .unit ts (e.formula.map (textIn d family m)).regroup) := by
  match e, h with
  | compare c l r, h =>
    obtain ⟨p, k, v, hp, hk, hv, rfl⟩ := toFilter_compare h
    have ht := tokens_condition d hk c v
    have htext : textIn d family m (compare c l r) = d.compare p k c v := by
      simp [textIn, h, condition_of_tokens d ht, Except.toOption, Dialect.text, Dialect.tokenText]
    refine ⟨_, ht, ?_, ?_⟩
    · simp only [formula, Formula.map, htext]
      exact .ofUnit (.comparison _)
    · intro _
      simp only [formula, Formula.map, htext]
      exact .comparison _
  | logical c l r, h =>
    obtain ⟨g, g', hl, hr, rfl⟩ := toFilter_logical h
    obtain ⟨ts, hts, hchain, _⟩ := chained_tokens l hl
    obtain ⟨us, hus, hchain', hunit⟩ := chained_tokens r hr
    -- The right side becomes one more link on the filter of the left side.
    refine ⟨d.linked ts c (!g'.links.isEmpty) us, ?_, ?_, ?_⟩
    · rw [Dialect.tokens_link, hts, hus]
      rfl
    · apply Dialect.chained_linked d c hchain hchain'
      intro hb
      exact hunit (by simpa using hb)
    · intro hlinks
      simp [Filter.link, Filter.links] at hlinks
  | member _, h | constant _, h | convert _ _, h | call _ _ _ _, h => simp [toFilter] at h

/-- The text of a comparison is the condition of its own filter. -/
theorem condition_of_mem_atoms {e : Expr} {f : Filter} (h : e.toFilter family m = .ok f) :
    ∀ c ∈ e.formula.atoms, ∃ g, c.toFilter family m = .ok g ∧
      d.condition family m g = .ok (textIn d family m c) := by
  match e, h with
  | compare c l r, h =>
    intro e' he'
    obtain rfl : e' = compare c l r := by simpa [formula, Formula.atoms] using he'
    obtain ⟨ts, hts, _⟩ := chained_tokens d _ h
    refine ⟨f, h, ?_⟩
    simp [textIn, h, condition_of_tokens d hts, Except.toOption]
  | logical c l r, h =>
    obtain ⟨g, g', hl, hr, _⟩ := toFilter_logical h
    intro e' he'
    rcases List.mem_append.1 he' with he' | he'
    · exact condition_of_mem_atoms hl e' he'
    · exact condition_of_mem_atoms hr e' he'
  | member _, h | constant _, h | convert _ _, h | call _ _ _ _, h => simp [toFilter] at h

/-! ## The meaning -/

/-- What a query language makes of a predicate and its filter: the condition `text`, whose tokens
are read as `φ`. The atoms of `φ` are the comparisons of the predicate in their order, each as it is
written alone. -/
structure SaidAs (d : Dialect) (family : Family ι) (m : Model ι) (e : Expr) (f : Filter)
    (text : String) (φ : Formula String) : Prop where
  reads : ∃ ts, d.tokens family m f = .ok ts ∧ d.text ts = text ∧ Reads .disjunction ts φ
  atoms : List.Forall₂ (fun c s => ∃ g, c.toFilter family m = .ok g ∧
    d.condition family m g = .ok s) e.formula.atoms φ.atoms

theorem exists_saidAs {e : Expr} {f : Filter} (h : e.toFilter family m = .ok f) :
    ∃ text φ, d.condition family m f = .ok text ∧ SaidAs d family m e f text φ ∧
      ((∀ v, φ.holds v = e.formula.holds v) ↔ e.formula.NoLeftDisjunction) := by
  obtain ⟨ts, hts, hchain, _⟩ := chained_tokens d e h
  refine ⟨d.text ts, (e.formula.map (textIn d family m)).regroup, condition_of_tokens d hts,
    ⟨⟨ts, hts, rfl, hchain.reads⟩, ?_⟩, ?_⟩
  · rw [Formula.atoms_regroup, Formula.atoms_map, List.forall₂_map_right_iff]
    exact List.forall₂_same.2 (condition_of_mem_atoms d h)
  · simp only [Formula.regroup_map, Formula.holds, Formula.holdsFrom_map]
    exact Formula.holds_regroup_iff

/-- Both conditions of a predicate that becomes a filter are well formed and list its comparisons
from left to right. They are true exactly where the predicate is, under every assignment, if and
only if no conjunction of the predicate has a disjunction on its left side. -/
theorem condition_meaning_iff {e : Expr} {f : Filter} (h : e.toFilter family m = .ok f) :
    (∃ text φ, OData.condition family m f = .ok text ∧
      SaidAs OData.dialect family m e f text φ ∧
      ((∀ v, φ.holds v = e.formula.holds v) ↔ e.formula.NoLeftDisjunction)) ∧
    (∃ text φ, Lucene.condition family m f = .ok text ∧
      SaidAs Lucene.dialect family m e f text φ ∧
      ((∀ v, φ.holds v = e.formula.holds v) ↔ e.formula.NoLeftDisjunction)) :=
  ⟨exists_saidAs OData.dialect h, exists_saidAs Lucene.dialect h⟩

/-- The comparison of a product's member with a constant. -/
def productIs (member : String) (v : Literal) : Expr :=
  compare .eq (.member member) (constant v)

/-- `IsActive == true && (Id == 'a' || Id == 'b')`. -/
def disjunctionRight : Expr :=
  logical .and (productIs "IsActive" (.bool true))
    (logical .or (productIs "Id" (.text "a")) (productIs "Id" (.text "b")))

/-- `(Id == 'a' || Id == 'b') && IsActive == true`. -/
def disjunctionLeft : Expr :=
  logical .and (logical .or (productIs "Id" (.text "a")) (productIs "Id" (.text "b")))
    (productIs "IsActive" (.bool true))

/-- With its disjunction on the right side a predicate is written without loss. -/
theorem condition_meaning_disjunctionRight :
    ∃ f, disjunctionRight.toFilter Storefront.family (Storefront.family .product) = .ok f ∧
      ∃ text φ, OData.condition Storefront.family (Storefront.family .product) f = .ok text ∧
        SaidAs OData.dialect Storefront.family (Storefront.family .product) disjunctionRight f
          text φ ∧
        ∀ v, φ.holds v = disjunctionRight.formula.holds v := by
  obtain ⟨⟨text, φ, htext, hsaid, hiff⟩, -⟩ := condition_meaning_iff
    (show disjunctionRight.toFilter Storefront.family (Storefront.family .product) = .ok _ from rfl)
  exact ⟨_, rfl, text, φ, htext, hsaid, hiff.2 (by decide)⟩

/-- With its disjunction on the left side the same predicate is written as another one: if `Id` is
`'a'` and the product is not active, the predicate is false and both conditions are true. -/
theorem condition_meaning_disjunctionLeft :
    ∃ f ts us, disjunctionLeft.toFilter Storefront.family (Storefront.family .product) = .ok f ∧
      OData.dialect.tokens Storefront.family (Storefront.family .product) f = .ok ts ∧
      OData.dialect.text ts = "Id eq 'a' or Id eq 'b' and IsActive eq true" ∧
      (∀ φ, Reads .disjunction ts φ →
        ∃ v, φ.holds v = true ∧ disjunctionLeft.formula.holds v = false) ∧
      Lucene.dialect.tokens Storefront.family (Storefront.family .product) f = .ok us ∧
      Lucene.dialect.text us = "Id:\"a\" OR Id:\"b\" AND IsActive:true" ∧
      ∀ φ, Reads .disjunction us φ →
        ∃ v, φ.holds v = true ∧ disjunctionLeft.formula.holds v = false := by
  -- Whatever the three texts are, they are read as `a or (b and c)`: let only `a` be true.
  have reading (a b c : String) {φ : Formula String}
      (h : Reads .disjunction [.comparison a, .connective .or, .comparison b, .connective .and,
        .comparison c] φ) :
      ∃ v, φ.holds v = true ∧ disjunctionLeft.formula.holds v = false := by
    have hread : Reads .disjunction ([.comparison a] ++ .connective .or ::
        ([.comparison b] ++ .connective .and :: [.comparison c]))
        (.join .or (.atom a) (.join .and (.atom b) (.atom c))) :=
      .or (.ofConjunction (.ofUnit (.comparison a)))
        (.and (.ofUnit (.comparison b)) (.comparison c))
    obtain rfl := Reads.unique h hread
    exact ⟨fun i => i == 0, rfl, rfl⟩
  refine ⟨_, [.comparison "Id eq 'a'", .connective .or, .comparison "Id eq 'b'", .connective .and,
    .comparison "IsActive eq true"], [.comparison "Id:\"a\"", .connective .or,
    .comparison "Id:\"b\"", .connective .and, .comparison "IsActive:true"], rfl, ?_, ?_,
    fun φ => reading _ _ _, ?_, ?_, fun φ => reading _ _ _⟩
  all_goals decide

end Expr

end SearchDialect
