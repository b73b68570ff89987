import SearchDialect.Proofs.Condition.Writer
import SearchDialect.Sample.Storefront

/-!
# Filters that hold no condition

A filter may hold no condition of its own, and none at any depth. Such a filter is meant to be
skipped: linked to another one, it should leave nothing in the condition. It does exactly where it
stands before everything that is written, and, in a language in which a chain may begin with
parentheses, has no links of its own (`skipsSilence_iff`). Elsewhere the word of its connective or
its parentheses stay behind, and the condition is not well formed.
-/

namespace SearchDialect

namespace Filter

mutual

/-- A filter without the links that hold no condition, at every depth. -/
def pruned : Filter → Filter
  | node p c v t vi ls => node p c v t vi (prunedLinks ls)

/-- The links of some that hold a condition, without those of theirs that hold none. -/
def prunedLinks : List (Connective × Filter) → List (Connective × Filter)
  | [] => []
  | (c, f) :: ls => if f.isSilent then prunedLinks ls else (c, pruned f) :: prunedLinks ls

end

theorem prunedLinks_eq (ls : List (Connective × Filter)) :
    prunedLinks ls = (ls.filter fun l => !l.2.isSilent).map (Prod.map id pruned) := by
  induction ls with
  | nil => rfl
  | cons l ls ih =>
    obtain ⟨c, f⟩ := l
    rw [prunedLinks, ih, List.filter_cons]
    cases hs : f.isSilent <;> simp

theorem linksChain?_prunedLinks {groupsFirst : Bool} (ls : List (Connective × Filter))
    (w? : Option (Formula.Groups Filter))
    (h : ∀ l ∈ ls, l.2.pruned.chain? groupsFirst = l.2.chain? groupsFirst) :
    linksChain? groupsFirst w? (prunedLinks ls) = linksChain? groupsFirst w? ls := by
  induction ls generalizing w? with
  | nil => rfl
  | cons l ls ih =>
    obtain ⟨c, f⟩ := l
    rw [List.forall_mem_cons] at h
    cases hs : f.isSilent with
    | true =>
      rw [prunedLinks, hs, if_pos rfl, ih _ h.2, linksChain?, chain?_eq_none_iff.2 hs]
      rfl
    | false =>
      rw [prunedLinks, hs, if_neg Bool.false_ne_true, linksChain?, linksChain?, h.1, ih _ h.2]

/-- Links without a condition are no part of the chain. -/
theorem chain?_pruned (groupsFirst : Bool) (f : Filter) :
    f.pruned.chain? groupsFirst = f.chain? groupsFirst := by
  induction f with
  | node p c v t vi ls ih => exact linksChain?_prunedLinks ls _ ih

theorem formula_pruned (groupsFirst : Bool) (f : Filter) :
    f.pruned.formula groupsFirst = f.formula groupsFirst := by
  rw [formula, chain?_pruned]
  obtain ⟨p, c, v, t, vi, ls⟩ := f
  rfl

theorem conditions_pruned (f : Filter) : f.pruned.conditions = f.conditions := by
  rw [← chainAtoms_chain? true, chain?_pruned, chainAtoms_chain?]

theorem isSilent_pruned (f : Filter) : f.pruned.isSilent = f.isSilent := by
  rw [Bool.eq_iff_iff, ← conditions_eq_nil_iff, conditions_pruned, conditions_eq_nil_iff]

theorem noSilentLink_pruned (f : Filter) : f.pruned.NoSilentLink := by
  induction f with
  | node p c v t vi ls ih =>
    rw [noSilentLink_iff]
    intro l hl
    have hl : l ∈ prunedLinks ls := hl
    rw [prunedLinks_eq] at hl
    obtain ⟨k, hk, rfl⟩ := List.mem_map.1 hl
    obtain ⟨hmem, hs⟩ := List.mem_filter.1 hk
    refine ⟨?_, ih k hmem⟩
    show k.2.pruned.isSilent = false
    rw [isSilent_pruned]
    simpa using hs

variable {ι : Type} {family : Family ι} {m : Model ι} {f : Filter}

theorem Resolves.pruned (h : f.Resolves family m) : f.pruned.Resolves family m := by
  rw [resolves_iff] at h ⊢
  rwa [conditions_pruned]

end Filter

/-! ## Where silence is skipped -/

variable {ι : Type} {family : Family ι} {m : Model ι} {f : Filter}

/-- A language skips what holds no condition: the condition of a filter is empty exactly if the
filter holds none, and else it is well formed and read as if the links that hold none were not
there. -/
structure SkipsSilence (d : Dialect) (family : Family ι) (m : Model ι) (f : Filter) : Prop where
  empty_iff : d.condition family m f = .ok "" ↔ f.isSilent = true
  reads : f.isSilent = false → ∃ ts us φ, d.tokens family m f = .ok ts ∧
    d.tokens family m f.pruned = .ok us ∧ Reads .disjunction ts φ ∧ Reads .disjunction us φ

/-- A condition is empty if nothing is written. -/
theorem condition_eq_empty_iff_of_tokens {d : Dialect} (hd : ∀ p k c v, d.compare p k c v ≠ "")
    {ts : List Token} (hts : d.tokens family m f = .ok ts) :
    d.condition family m f = .ok "" ↔ ts = [] := by
  rw [Dialect.condition_of_tokens d hts, Except.ok.injEq,
    Dialect.text_eq_empty_iff (Dialect.visible_tokens hd hts)]

/-- A language skips what holds no condition exactly where that leaves no trace. -/
theorem skipsSilence_iff {d : Dialect} (hd : ∀ p k c v, d.compare p k c v ≠ "")
    (h : f.Resolves family m) :
    SkipsSilence d family m f ↔ f.silentFirst d.groupsFirst = true := by
  obtain ⟨ts, hts, hf⟩ := Dialect.exists_tokens (d := d) h
  obtain ⟨us, hus, hpruned⟩ := Dialect.exists_tokens (d := d) h.pruned
  have hempty := condition_eq_empty_iff_of_tokens hd hts
  constructor
  · intro hskips
    -- What is broken is neither empty nor read as anything.
    cases hfirst : f.silentFirst d.groupsFirst with
    | true => rfl
    | false =>
      have hbroken := hf.broken hfirst
      cases hs : f.isSilent with
      | true => exact absurd (hempty.1 (hskips.empty_iff.2 hs)) hbroken.ne_nil
      | false =>
        obtain ⟨ts', _, φ, hts', _, hreads, _⟩ := hskips.reads hs
        obtain rfl : ts = ts' := Except.ok.inj (hts.symm.trans hts')
        exact absurd hreads (hbroken.not_reads φ)
  · intro hfirst
    constructor
    · rw [hempty]
      constructor
      · rintro rfl
        cases hs : f.isSilent with
        | true => rfl
        | false => exact absurd rfl (hf.reads hs hfirst).ne_nil
      · intro hs
        exact hf.eq_nil hs hfirst
    · intro hs
      have hfirst' := f.noSilentLink_pruned.silentFirst d.groupsFirst
      have hreads := hpruned.reads (f.isSilent_pruned.trans hs) hfirst'
      rw [f.formula_pruned] at hreads
      exact ⟨ts, us, _, hts, hus, hf.reads hs hfirst, hreads⟩

/-- In a language in which no chain begins with parentheses the condition of a filter as a whole is
empty exactly if the filter holds none, whatever it leaves inside others. -/
theorem condition_eq_empty_iff {d : Dialect} (hd : ∀ p k c v, d.compare p k c v ≠ "")
    (hfirst : d.groupsFirst = false) (h : f.Resolves family m) :
    d.condition family m f = .ok "" ↔ f.isSilent = true := by
  obtain ⟨ts, hts, hf⟩ := Dialect.exists_tokens (d := d) h
  rw [condition_eq_empty_iff_of_tokens hd hts]
  constructor
  · rintro rfl
    cases hs : f.isSilent with
    | true => rfl
    | false =>
      cases hkept : f.silentFirst d.groupsFirst with
      | true => exact absurd rfl (hf.reads hs hkept).ne_nil
      | false => exact absurd rfl (hf.broken hkept).ne_nil
  · intro hs
    have hnone : (d.groupsFirst && !f.links.isEmpty) = false := by rw [hfirst, Bool.false_and]
    exact hf.eq_nil hs (Filter.silentFirst_of_isSilent hs hnone)

/-- Each of the two languages skips what holds no condition exactly where it comes before everything
that does; in OData it must not have links of its own either. -/
theorem condition_skipsSilence_iff (h : f.Resolves family m) :
    (SkipsSilence OData.dialect family m f ↔ f.silentFirst true = true) ∧
      (SkipsSilence Lucene.dialect family m f ↔ f.silentFirst false = true) :=
  ⟨skipsSilence_iff OData.compare_ne_empty h, skipsSilence_iff Lucene.compare_ne_empty h⟩

namespace Filter

/-- A filter that only holds a tag. -/
def placeholder (tag : String) : Filter := node "" .eq .null (some tag) true []

/-- Two placeholders before the conditions, the first of them at the head. -/
def placeholdersFirst : Filter :=
  (((placeholder "head").link .and (placeholder "next")).link .or
    (condition "Id" .eq (.text "a"))).link .and
      ((condition "IsActive" .eq (.bool true)).link .or (condition "Stock" .gt (.int 7)))

/-- A condition and a placeholder. -/
def placeholderLast : Filter :=
  (condition "IsActive" .eq (.bool true)).link .and (placeholder "last")

/-- Placeholders only, one of them with a link. -/
def placeholdersOnly : Filter :=
  (placeholder "head").link .and ((placeholder "next").link .or (placeholder "last"))

end Filter

/-- Placeholders that come first are skipped. -/
theorem condition_skipsSilence_placeholdersFirst :
    Filter.placeholdersFirst.Resolves Storefront.family (Storefront.family .product) ∧
      OData.condition Storefront.family (Storefront.family .product) Filter.placeholdersFirst =
        .ok "Id eq 'a' and (IsActive eq true or Stock gt 7)" ∧
      SkipsSilence OData.dialect Storefront.family (Storefront.family .product)
        Filter.placeholdersFirst ∧
      SkipsSilence Lucene.dialect Storefront.family (Storefront.family .product)
        Filter.placeholdersFirst := by
  have h : Filter.placeholdersFirst.Resolves Storefront.family (Storefront.family .product) := by
    decide
  obtain ⟨hodata, hlucene⟩ := condition_skipsSilence_iff h
  exact ⟨h, rfl, hodata.2 (by decide), hlucene.2 (by decide)⟩

/-- A placeholder after a condition leaves the word of its connective, and in OData placeholders
alone may leave parentheses. -/
theorem not_skipsSilence_placeholderLast :
    Filter.placeholderLast.Resolves Storefront.family (Storefront.family .product) ∧
      OData.condition Storefront.family (Storefront.family .product) Filter.placeholderLast =
        .ok "IsActive eq true and " ∧
      ¬ SkipsSilence OData.dialect Storefront.family (Storefront.family .product)
        Filter.placeholderLast ∧
      Lucene.condition Storefront.family (Storefront.family .product) Filter.placeholderLast =
        .ok "IsActive:true AND " ∧
      ¬ SkipsSilence Lucene.dialect Storefront.family (Storefront.family .product)
        Filter.placeholderLast ∧
      Filter.placeholdersOnly.isSilent = true ∧
      OData.condition Storefront.family (Storefront.family .product) Filter.placeholdersOnly =
        .ok "()" := by
  have h : Filter.placeholderLast.Resolves Storefront.family (Storefront.family .product) := by
    decide
  refine ⟨h, rfl, ?_, rfl, ?_, by decide, rfl⟩
  · rw [skipsSilence_iff OData.compare_ne_empty h]
    decide
  · rw [skipsSilence_iff Lucene.compare_ne_empty h]
    decide

end SearchDialect
