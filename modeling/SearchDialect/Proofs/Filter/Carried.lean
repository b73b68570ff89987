import SearchDialect.Lucene.Clauses
import SearchDialect.OData
import SearchDialect.Proofs.Filter.Parameter
import SearchDialect.Proofs.Filter.Stable
import SearchDialect.Proofs.Outcome
import SearchDialect.Sample.Storefront

/-!
# Conditions carried through a URL

A filter that is read back from a URL need not be the filter that was written: a character comes
back as a text. Neither query language tells the two apart, and nothing else of a filter changes if
its doubles are read back from their numerals, so that its condition is the same as before
(`conditions_readParameter`). A double that is not read back gives another condition
(`not_conditions_readParameter_uneven`).
-/

namespace SearchDialect

open Text Number

/-! ## Literals -/

namespace Literal

/-- A literal that comes back as itself, or a character: no infinity or NaN, no text that is a
date-time, and no date-time outside the years 0 to 9999. -/
def Portable : Literal → Prop
  | char _ => True
  | v => v.Stable

instance decidablePortable : (v : Literal) → Decidable v.Portable
  | null | bool _ | int _ | char _ => isTrue trivial
  | double d => decidableStable (double d)
  | text s => decidableStable (text s)
  | time t => decidableStable (time t)

theorem Portable.stable_or_char {v : Literal} (h : v.Portable) : v.Stable ∨ ∃ c, v = char c := by
  cases v with
  | char c => exact .inr ⟨c, rfl⟩
  | null | bool _ | int _ | double _ | text _ | time _ => exact .inl h

end Literal

namespace Dialect

/-- A query language writes comparisons with `v` and with `w` in the same way. -/
def Alike (d : Dialect) (v w : Literal) : Prop :=
  ∀ property kind c, d.compare property kind c v = d.compare property kind c w

/-- Where characters are written like texts, all portable literals are written as they come back. -/
theorem alike_reread {d : Dialect}
    (hchar : ∀ c, d.Alike (.text (String.singleton c)) (.char c)) {v : Literal} (h : v.Portable) :
    d.Alike v.reread v := by
  rcases h.stable_or_char with hstable | ⟨c, rfl⟩
  · rw [Literal.reread_of_stable hstable]
    exact fun _ _ _ => rfl
  · exact hchar c

end Dialect

theorem OData.alike_char (c : Char) : dialect.Alike (.text (String.singleton c)) (.char c) := by
  intro property kind k
  have hliteral : literal kind (.text (String.singleton c)) = literal kind (.char c) := by
    cases kind with
    | datetime =>
      show timeLiteral (.text (String.singleton c)) = String.singleton c
      rw [timeLiteral, String.toList_singleton, Literal.readTimestamp?_singleton]
    | bool | int | long | double | string | char => rfl
  show path property ++ " " ++ k.word ++ " " ++ literal kind _ = _
  rw [hliteral]
  rfl

theorem Lucene.alike_char (c : Char) : dialect.Alike (.text (String.singleton c)) (.char c) :=
  fun _ _ _ => rfl

/-! ## Filters -/

theorem Lucene.home?_reread (f : Filter) : home? f.reread = home? f := by
  have hproperty (g : Filter) : g.reread.property = g.property := by
    obtain ⟨p, c, v, t, vi, ls⟩ := g
    rfl
  have hblank : (fun g : Filter => !g.isBlank) ∘ Filter.reread = fun g => !g.isBlank := by
    funext g
    rw [Function.comp_apply, Filter.isBlank, hproperty]
    rfl
  rw [home?, home?, Filter.walk_reread, List.find?_map, hblank]
  cases f.walk.find? fun g => !g.isBlank with
  | none => rfl
  | some g => exact congrArg nestedPath? (hproperty g)

variable {ι : Type} {family : Family ι} {m : Model ι}

namespace Dialect

variable {d : Dialect}

theorem own_congr {v w : Literal} (h : d.Alike v w) (property : String) (c : Comparison) :
    d.own family m property c v = d.own family m property c w := by
  simp only [own, h property _ c]

/-- Links of which each leads to a filter with the same tokens. -/
theorem linkTokens_map {change : Filter → Filter} {ls : List (Connective × Filter)}
    (htokens : ∀ l ∈ ls, d.tokens family m (change l.2) = d.tokens family m l.2)
    (hlinks : ∀ l ∈ ls, (change l.2).links.isEmpty = l.2.links.isEmpty) (written : List Token) :
    d.linkTokens family m written (ls.map (Prod.map id change)) =
      d.linkTokens family m written ls := by
  induction ls generalizing written with
  | nil => rfl
  | cons l ls ih =>
    obtain ⟨c, f⟩ := l
    obtain ⟨hf, htokens⟩ := List.forall_mem_cons.1 htokens
    obtain ⟨hlink, hlinks⟩ := List.forall_mem_cons.1 hlinks
    show d.linkTokens family m written ((c, change f) :: ls.map (Prod.map id change)) = _
    rw [linkTokens, linkTokens, hf, hlink]
    cases d.tokens family m f with
    | error e => rfl
    | ok inner => exact ih htokens hlinks _

/-- A filter whose literals are written as they come back has the same tokens after that. -/
theorem tokens_reread {f : Filter} (h : ∀ g ∈ f.walk, d.Alike g.value.reread g.value) :
    d.tokens family m f.reread = d.tokens family m f := by
  induction f with
  | node p c v t vi ls ih =>
    obtain ⟨hv, hls⟩ := Filter.forall_mem_walk_iff.1 h
    have hv : d.Alike v.reread v := hv
    have htokens : ∀ l ∈ ls, d.tokens family m l.2.reread = d.tokens family m l.2 :=
      fun l hl => ih l hl (hls l hl)
    have hempty : ∀ l ∈ ls, l.2.reread.links.isEmpty = l.2.links.isEmpty := by
      rintro ⟨c, p', c', v', t', vi', ls'⟩ -
      show (Filter.rereadLinks ls').isEmpty = ls'.isEmpty
      rw [Filter.rereadLinks_eq_map, List.isEmpty_map]
    rw [Filter.reread, tokens, tokens, own_congr hv, Filter.rereadLinks_eq_map]
    cases d.own family m p c v with
    | error e => rfl
    | ok written => exact linkTokens_map htokens hempty written

theorem condition_reread {f : Filter} (h : ∀ g ∈ f.walk, d.Alike g.value.reread g.value) :
    d.condition family m f.reread = d.condition family m f := by
  rw [condition, condition, tokens_reread h]

end Dialect

/-! ## Lists of filters -/

theorem OData.conjunction_reread {fs : List Filter}
    (h : ∀ f ∈ fs, ∀ g ∈ f.walk, g.value.Portable) :
    conjunction family m (fs.map Filter.reread) = conjunction family m fs := by
  have hconditions : (fs.map Filter.reread).mapM (condition family m) =
      fs.mapM (condition family m) :=
    mapM_map_congr fun f hf =>
      Dialect.condition_reread fun g hg => Dialect.alike_reread alike_char (h f hf g hg)
  rw [conjunction, conjunction, hconditions]

theorem Lucene.clauses_reread {fs : List Filter}
    (h : ∀ f ∈ fs, ∀ g ∈ f.walk, g.value.Portable) :
    clauses family m (fs.map Filter.reread) = clauses family m fs := by
  rw [clauses, clauses, mapM_map_congr]
  intro f hf
  have hcondition : condition family m f.reread = condition family m f :=
    Dialect.condition_reread fun g hg => Dialect.alike_reread alike_char (h f hf g hg)
  rw [hcondition, home?_reread]

/-- A list of filters that a URL carries, with doubles that are read back from their numerals, is read
back as a list for which both languages write what they write for the list itself, or refuse it for the
same reason. -/
theorem conditions_readParameter {fs : List Filter} (hseparated : ∀ f ∈ fs, f.IsSeparated)
    (hheight : ∀ f ∈ fs, f.height ≤ 41) (hportable : ∀ f ∈ fs, ∀ g ∈ f.walk, g.value.Portable)
    (hsurvives : ∀ f ∈ fs, f.Survives) (family : Family ι) (m : Model ι) :
    ∃ decoded, Filter.readParameter (Filter.writeParameter fs none none) = .ok decoded ∧
      OData.conjunction family m decoded = OData.conjunction family m fs ∧
      Lucene.clauses family m decoded = Lucene.clauses family m fs := by
  refine ⟨fs.map Filter.reread, ?_, OData.conjunction_reread hportable,
    Lucene.clauses_reread hportable⟩
  rw [Filter.readParameter_eq, Filter.carried_none,
    Filter.ofParameter_of_survives hseparated hsurvives, if_pos hheight]

/-- Filters with letters for a grade, a name and a time, and a price. -/
def lettered : List Filter :=
  [.condition "Grade" .ne (.char '_'),
    (Filter.condition "Name" .eq (.char '"')).link .or (.condition "Created" .lt (.char '7')),
    .condition "Items.Category" .eq (.text "a_b-c"),
    .condition "Price" .ge (.double (.ofDecimal false 95 (-1)))]

/-- The letters come back as texts of one letter, which are quoted or not as the letters are. -/
theorem conditions_readParameter_lettered :
    ∃ decoded, Filter.readParameter (Filter.writeParameter lettered none none) = .ok decoded ∧
      OData.conjunction Storefront.family (Storefront.family .product) decoded = .ok
        (some ("(Grade ne '_') and (Name eq '\"' or Created lt 7) and (Items/Category eq 'a_b-c')" ++
          " and (Price ge 9.5)")) ∧
      Lucene.clauses Storefront.family (Storefront.family .product) decoded = .ok
        { root? := some ("(!(Grade:\"_\")) AND (Name:\"\\\"\" OR Created:\x7b* TO 7\x7d)" ++
            " AND (Price:>=9.5)")
          nested := [("Items", "(Items.Category:\"a_b-c\")")] } := by
  have hseparated : ∀ f ∈ lettered, f.IsSeparated := by decide
  have hheight : ∀ f ∈ lettered, f.height ≤ 41 := by decide
  have hportable : ∀ f ∈ lettered, ∀ g ∈ f.walk, g.value.Portable := by decide +kernel
  have hsurvives : ∀ f ∈ lettered, f.Survives := by decide +kernel
  obtain ⟨decoded, hdecoded, hodata, hlucene⟩ := conditions_readParameter hseparated hheight
    hportable hsurvives Storefront.family (Storefront.family .product)
  refine ⟨decoded, hdecoded, hodata.trans ?_, hlucene.trans ?_⟩
  · decide +kernel
  · decide +kernel

/-- A URL carries the lower bound of a price, but the price comes back as another one, which both
languages write with other digits. -/
theorem not_conditions_readParameter_uneven :
    (∀ f ∈ [Filter.priceFrom Json.uneven], f.IsSeparated ∧ f.height ≤ 41 ∧
      ∀ g ∈ f.walk, g.value.Portable) ∧
    OData.conjunction Storefront.family (Storefront.family .product) [.priceFrom Json.uneven] =
      .ok (some "(Price ge 51.248178375505404)") ∧
    Lucene.clauses Storefront.family (Storefront.family .product) [.priceFrom Json.uneven] =
      .ok { root? := some "(Price:>=51.248178375505404)" } ∧
    ∃ decoded, Filter.readParameter
        (Filter.writeParameter [.priceFrom Json.uneven] none none) = .ok decoded ∧
      OData.conjunction Storefront.family (Storefront.family .product) decoded =
        .ok (some "(Price ge 51.24817837550541)") ∧
      Lucene.clauses Storefront.family (Storefront.family .product) decoded =
        .ok { root? := some "(Price:>=51.24817837550541)" } := by
  have hback : Filter.readParameter (Filter.writeParameter [.priceFrom Json.uneven] none none) =
      .ok [.priceFrom (.ofDecimal false 5124817837550541 (-14))] := by
    rw [Filter.readParameter_eq, Filter.carried_none, Filter.ofParameter_toParameter_uneven]
  refine ⟨by decide +kernel, ?_, ?_, _, hback, ?_, ?_⟩
  · decide +kernel
  · decide +kernel
  · decide +kernel
  · decide +kernel

end SearchDialect
