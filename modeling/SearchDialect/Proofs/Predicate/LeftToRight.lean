import Mathlib.Data.List.Forall2
import SearchDialect.Proofs.Filter.Tree
import SearchDialect.Proofs.Predicate.Meaning

/-!
# The filter of a predicate

A predicate that becomes a filter becomes one that holds its comparisons in their order, one in each
filter of its walk, and that means the same: the links of a filter, taken one after the other from
its own condition on, are grouped as the predicate groups its comparisons (`walk_toFilter`). What is
lost between a predicate and a condition in a query language is lost where the filter is written.
-/

namespace SearchDialect

namespace Expr

/-- An operand without the conversions around it. -/
def unconverted : Expr → Expr
  | convert operand _ => operand.unconverted
  | e => e

theorem path_eq_ok_iff {e : Expr} {p : String} : e.path = .ok p ↔ e.unconverted = member p := by
  match e with
  | member q => simp [path, unconverted]
  | convert operand target => exact path_eq_ok_iff (e := operand)
  | constant _ | call _ _ _ _ | compare _ _ _ | logical _ _ _ => simp [path, unconverted]

/-- A comparison and the filter that holds it: a visible filter without tag that compares the member
on the left side with the value of the right side. -/
def IsHeldBy (e : Expr) (g : Filter) : Prop :=
  ∃ l r, e = compare g.comparison l r ∧ l.unconverted = member g.property ∧
    r.evaluate = .ok g.value ∧ g.tag? = none ∧ g.visible = true

/-- Links are no part of the comparison that a filter holds. -/
theorem IsHeldBy.link {e : Expr} {f : Filter} (h : e.IsHeldBy f) (c : Connective) (g : Filter) :
    e.IsHeldBy (f.link c g) := h

variable {ι : Type} {family : Family ι} {m : Model ι}

/-- The comparisons of a predicate are held by the filters of the walk, one after the other. -/
theorem forall₂_walk {e : Expr} {f : Filter} (h : e.toFilter family m = .ok f) :
    List.Forall₂ IsHeldBy e.formula.atoms f.walk := by
  match e, h with
  | compare c l r, h =>
    obtain ⟨p, k, v, hp, _, hv, rfl⟩ := toFilter_compare h
    refine .cons ?_ .nil
    exact ⟨l, r, rfl, path_eq_ok_iff.1 hp, hv, rfl, rfl⟩
  | logical c l r, h =>
    obtain ⟨g, g', hl, hr, rfl⟩ := toFilter_logical h
    have hleft := forall₂_walk hl
    rw [Filter.walk_eq] at hleft
    -- The head of the left side is the head of the whole filter, now with one more link.
    cases hatoms : l.formula.atoms with
    | nil => simp [hatoms] at hleft
    | cons a as =>
      rw [hatoms] at hleft
      obtain ⟨hhead, htail⟩ := List.forall₂_cons.1 hleft
      have hwalk : g.walk.tail = g.links.flatMap fun l => l.2.walk := by rw [Filter.walk_eq]; rfl
      rw [formula, Formula.atoms, hatoms, Filter.walk_link, hwalk]
      exact .cons (hhead.link c g') (List.rel_append htail (forall₂_walk hr))
  | member _, h | constant _, h | convert _ _, h | call _ _ _ _, h => simp [toFilter] at h

/-- A filter is as true as the predicate that it comes from. -/
theorem holdsFrom_toFilter (v : Nat → Bool) {e : Expr} {f : Filter} (n : Nat)
    (h : e.toFilter family m = .ok f) : f.holdsFrom v n = e.formula.holdsFrom v n := by
  match e, h with
  | compare c l r, h =>
    obtain ⟨p, k, w, _, _, _, rfl⟩ := toFilter_compare h
    rfl
  | logical c l r, h =>
    obtain ⟨g, g', hl, hr, rfl⟩ := toFilter_logical h
    have hlength : l.formula.atoms.length = g.walk.length := (forall₂_walk hl).length_eq
    rw [Filter.holdsFrom_link, formula, Formula.holdsFrom, hlength, holdsFrom_toFilter v n hl,
      holdsFrom_toFilter v _ hr]
  | member _, h | constant _, h | convert _ _, h | call _ _ _ _, h => simp [toFilter] at h

/-- The walk of a filter that a predicate becomes lists the comparisons of the predicate from left
to right, and the filter, taken link by link, is true exactly where the predicate is. -/
theorem walk_toFilter {e : Expr} {f : Filter} (h : e.toFilter family m = .ok f) :
    List.Forall₂ IsHeldBy e.formula.atoms f.walk ∧ ∀ v, f.holds v = e.formula.holds v :=
  ⟨forall₂_walk h, fun v => holdsFrom_toFilter v 0 h⟩

/-- `(Id == 'a' || Id == 'b') && (Brand == 'c' || (int)Stock > (int)'7')`. -/
def disjunctionBothSides : Expr :=
  logical .and (logical .or (productIs "Id" (.text "a")) (productIs "Id" (.text "b")))
    (logical .or (productIs "Brand" (.text "c"))
      (compare .gt (convert (.member "Stock") ⟨.int, false⟩)
        (convert (constant (.text "7")) ⟨.int, false⟩)))

/-- Its filter: the first comparison is the head of everything, and gets a link for the rest of the
left side and one for the right side. -/
def filterBothSides : Filter :=
  ((Filter.condition "Id" .eq (.text "a")).link .or (.condition "Id" .eq (.text "b"))).link .and
    ((Filter.condition "Brand" .eq (.text "c")).link .or (.condition "Stock" .gt (.int 7)))

theorem walk_toFilter_disjunctionBothSides :
    disjunctionBothSides.toFilter Storefront.family (Storefront.family .product) =
        .ok filterBothSides ∧
      List.Forall₂ IsHeldBy disjunctionBothSides.formula.atoms filterBothSides.walk ∧
      ∀ v, filterBothSides.holds v = disjunctionBothSides.formula.holds v := by
  have h : disjunctionBothSides.toFilter Storefront.family (Storefront.family .product) =
      .ok filterBothSides := rfl
  exact ⟨h, walk_toFilter h⟩

end Expr

end SearchDialect
