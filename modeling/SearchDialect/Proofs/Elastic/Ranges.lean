import Mathlib.Data.Real.Basic
import SearchDialect.Proofs.Elastic.Facets
import SearchDialect.Proofs.Number.NearestInteger

/-!
# Ranges of an aggregation

The ranges that are asked for end at the boundaries of a facet, one at each, and every range starts
where the one before it ends. JSON has no form for a boundary that is an infinity or a NaN, and null
is sent in its place (`not_ranges_tile_endless`). If the boundaries increase, the ranges lie side by
side below the last of them: a number below it is in exactly one range, and no other number is in any
(`ranges_tile`).

This is shown on ranges first, by recursion over the boundaries with any lower end in front of them
(`existsUnique_contains`), and then read off the JSON that is sent (`holds_toJson_iff`).
-/

namespace SearchDialect.Elastic

open Number Json

/-- Doubles that increase, as the exact numbers they stand for. -/
structure Increasing (boundaries : List Double) : Prop where
  finite : ∀ b ∈ boundaries, b.isFinite = true
  lt : boundaries.Pairwise fun b b' => b.value < b'.value

/-- The number that a JSON value stands for. -/
def exactValue? : Json → Option ℚ
  | .int i => some i
  | .double d => if d.isFinite then some d.value else none
  | _ => none

/-- A number lies in a range as it is sent: not below its lower end, and below its upper one. An end
that is absent bounds nothing. -/
def Holds (range : Json) (x : ℝ) : Prop :=
  (∀ lower, range.get? "from" = some lower → ∃ q : ℚ, exactValue? lower = some q ∧ q ≤ x) ∧
    ∀ upper, range.get? "to" = some upper → ∃ q : ℚ, exactValue? upper = some q ∧ x < q

/-! ## Ranges -/

namespace Range

/-- A number lies in a range whose ends are finite. -/
def Contains (r : Range) (x : ℝ) : Prop :=
  (∀ lower, r.from? = some lower → lower.value ≤ x) ∧ x < r.upTo.value

theorem get?_toJson (r : Range) :
    r.toJson.get? "from" = r.from?.map ofDouble ∧ r.toJson.get? "to" = some (ofDouble r.upTo) := by
  obtain ⟨from?, upTo⟩ := r
  rw [toJson, get?_object, get?_object]
  cases from? with
  | none => exact ⟨rfl, rfl⟩
  | some lower => exact ⟨rfl, rfl⟩

/-- A range with finite ends holds the same numbers when it is sent. -/
theorem holds_toJson_iff {r : Range} (hfrom : ∀ lower, r.from? = some lower → lower.isFinite = true)
    (hupTo : r.upTo.isFinite = true) (x : ℝ) : Holds r.toJson x ↔ r.Contains x := by
  have hexact : ∀ d : Double, d.isFinite = true → exactValue? (ofDouble d) = some d.value := by
    intro d hd
    rw [ofDouble, if_pos hd]
    exact if_pos hd
  obtain ⟨hlower, hupper⟩ := get?_toJson r
  rw [Holds, Contains, hlower, hupper]
  refine and_congr ?_ ?_
  · constructor
    · intro h lower hfound
      obtain ⟨q, hq, hle⟩ := h (ofDouble lower) (by rw [hfound]; rfl)
      rw [hexact lower (hfrom lower hfound)] at hq
      rwa [Option.some.inj hq]
    · intro h j hj
      obtain ⟨lower, hfound, rfl⟩ := Option.map_eq_some_iff.1 hj
      exact ⟨lower.value, hexact lower (hfrom lower hfound), h lower hfound⟩
  · constructor
    · intro h
      obtain ⟨q, hq, hlt⟩ := h _ rfl
      rw [hexact r.upTo hupTo] at hq
      rwa [Option.some.inj hq]
    · rintro h j hj
      obtain rfl := Option.some.inj hj
      exact ⟨_, hexact r.upTo hupTo, h⟩

end Range

/-! ## Side by side -/

section

variable {from? : Option Double} {boundaries : List Double}

theorem length_rangesAfter (from? : Option Double) (boundaries : List Double) :
    (rangesAfter from? boundaries).length = boundaries.length := by
  induction boundaries generalizing from? with
  | nil => rfl
  | cons b bs ih => rw [rangesAfter, List.length_cons, ih, List.length_cons]

/-- A range ends at its boundary, and starts at the one before. -/
theorem getElem?_rangesAfter (from? : Option Double) (boundaries : List Double) (i : Nat) :
    (rangesAfter from? boundaries)[i]? =
      boundaries[i]?.map fun b => ⟨if i = 0 then from? else boundaries[i - 1]?, b⟩ := by
  induction boundaries generalizing from? i with
  | nil => rfl
  | cons b bs ih =>
    cases i with
    | zero => rfl
    | succ i =>
      rw [rangesAfter, List.getElem?_cons_succ, ih, List.getElem?_cons_succ]
      cases i <;> rfl

theorem Increasing.tail {b : Double} (h : Increasing (b :: boundaries)) : Increasing boundaries :=
  ⟨fun d hd => h.finite d (List.mem_cons_of_mem b hd), (List.pairwise_cons.1 h.lt).2⟩

/-- The ends of a range are boundaries. -/
theorem ends_of_mem {r : Range} (hr : r ∈ rangesAfter from? boundaries) :
    (r.from? = from? ∨ ∃ b ∈ boundaries, r.from? = some b) ∧ r.upTo ∈ boundaries := by
  induction boundaries generalizing from? with
  | nil => cases hr
  | cons b bs ih =>
    rcases List.mem_cons.1 hr with rfl | hr
    · exact ⟨.inl rfl, List.mem_cons_self⟩
    · obtain ⟨hfrom | ⟨b', hb', hfrom⟩, hupTo⟩ := ih hr
      · exact ⟨.inr ⟨b, List.mem_cons_self, hfrom⟩, List.mem_cons_of_mem b hupTo⟩
      · exact ⟨.inr ⟨b', List.mem_cons_of_mem b hb', hfrom⟩, List.mem_cons_of_mem b hupTo⟩

/-- What lies in a range behind a boundary is not below the boundary. -/
theorem le_of_contains {b : Double} {r : Range} {x : ℝ} (h : Increasing (b :: boundaries))
    (hr : r ∈ rangesAfter (some b) boundaries) (hx : r.Contains x) : b.value ≤ x := by
  rcases (ends_of_mem hr).1 with hfrom | ⟨b', hb', hfrom⟩
  · exact hx.1 b hfrom
  · have hlt : (b.value : ℝ) < b'.value := by exact_mod_cast (List.pairwise_cons.1 h.lt).1 b' hb'
    exact hlt.le.trans (hx.1 b' hfrom)

/-- What lies in a range is below the last boundary. -/
theorem lt_of_contains {r : Range} {x : ℝ} (h : Increasing boundaries) (hne : boundaries ≠ [])
    (hr : r ∈ rangesAfter from? boundaries) (hx : r.Contains x) :
    x < (boundaries.getLast hne).value := by
  have hupTo := (ends_of_mem hr).2
  rw [← List.dropLast_append_getLast hne] at hupTo
  rcases List.mem_append.1 hupTo with hmem | hmem
  · have hlt := h.lt
    rw [← List.dropLast_append_getLast hne, List.pairwise_append] at hlt
    have hlast : (r.upTo.value : ℝ) < (boundaries.getLast hne).value := by
      exact_mod_cast hlt.2.2 r.upTo hmem _ (List.mem_singleton_self _)
    exact hx.2.trans hlast
  · rw [← List.mem_singleton.1 hmem]
    exact hx.2

/-- A number between a lower end and the last of the boundaries behind it is in exactly one of the
ranges. -/
theorem existsUnique_contains {x : ℝ} (h : Increasing boundaries) (hne : boundaries ≠ [])
    (hfrom : ∀ lower, from? = some lower → lower.value ≤ x)
    (hx : x < (boundaries.getLast hne).value) :
    ∃! i : Nat, ∃ r : Range, (rangesAfter from? boundaries)[i]? = some r ∧ r.Contains x := by
  induction boundaries generalizing from? with
  | nil => exact absurd rfl hne
  | cons b bs ih =>
    rcases lt_or_ge x b.value with hlt | hge
    · -- The number is in the first range, and the other ranges start behind it.
      refine ⟨0, ⟨⟨from?, b⟩, rfl, hfrom, hlt⟩, ?_⟩
      rintro i ⟨r, hr, hcontains⟩
      cases i with
      | zero => rfl
      | succ i =>
        have hle := le_of_contains h (List.mem_of_getElem? hr) hcontains
        exact absurd hlt hle.not_gt
    · have hbs : bs ≠ [] := by
        rintro rfl
        exact hge.not_gt hx
      rw [List.getLast_cons hbs] at hx
      obtain ⟨i, hi, hunique⟩ := ih h.tail hbs (fun _ hb => Option.some.inj hb ▸ hge) hx
      refine ⟨i + 1, hi, ?_⟩
      rintro j ⟨r, hr, hcontains⟩
      cases j with
      | zero =>
        obtain rfl := Option.some.inj hr
        exact absurd hcontains.2 hge.not_gt
      | succ j => rw [hunique j ⟨r, hr, hcontains⟩]

end

/-! ## Ranges as they are sent -/

theorem follow?_append (names names' : List String) (j : Json) :
    j.follow? (names ++ names') = (j.follow? names).bind (·.follow? names') := by
  induction names generalizing j with
  | nil => rfl
  | cons name names ih =>
    simp only [List.cons_append, follow?, Option.bind_assoc]
    congr 1
    funext i
    exact ih i

/-- The ranges of some boundaries as they are sent. -/
def sentRanges (boundaries : List Double) : List Json := (ranges boundaries).map Range.toJson

variable {boundaries : List Double}

theorem follow?_sentRanges (f : Facet) (hne : boundaries ≠ []) (nested : Bool) :
    (leafAggregation f boundaries nested).follow? ["range", "ranges"] =
      some (.arr (sentRanges boundaries)) := by
  have hempty : boundaries.isEmpty = false := List.isEmpty_eq_false_iff.2 hne
  rw [follow?_pair, leafAggregation]
  simp only [get?_object, hempty]
  cases (innerAggregations f false nested).isEmpty <;>
    simp [lookup, get?_object, sentRanges]

theorem getElem?_sentRanges (boundaries : List Double) (i : Nat) :
    (sentRanges boundaries)[i]? = boundaries[i]?.map fun b =>
      Range.toJson ⟨if i = 0 then none else boundaries[i - 1]?, b⟩ := by
  rw [sentRanges, List.getElem?_map, ranges, getElem?_rangesAfter, Option.map_map]
  rfl

/-- A range that is sent ends at its boundary and starts where the one before ends. -/
theorem ends_of_sent {i : Nat} {range : Json} (h : (sentRanges boundaries)[i]? = some range) :
    (∃ b, boundaries[i]? = some b ∧ range.get? "to" = some (ofDouble b)) ∧
      range.get? "from" = if i = 0 then none
        else (sentRanges boundaries)[i - 1]?.bind (·.get? "to") := by
  rw [getElem?_sentRanges] at h
  obtain ⟨b, hb, rfl⟩ := Option.map_eq_some_iff.1 h
  obtain ⟨hfrom, hto⟩ := Range.get?_toJson ⟨if i = 0 then none else boundaries[i - 1]?, b⟩
  refine ⟨⟨b, hb, hto⟩, ?_⟩
  rw [hfrom]
  split
  · rfl
  · rw [getElem?_sentRanges]
    cases boundaries[i - 1]? with
    | none => rfl
    | some b' =>
      rw [Option.map_some, Option.map_some, Option.bind_some, (Range.get?_toJson _).2]

/-- The ranges of boundaries that increase have finite ends. -/
theorem holds_iff_of_mem (h : Increasing boundaries) {r : Range} (hr : r ∈ ranges boundaries)
    (x : ℝ) : Holds r.toJson x ↔ r.Contains x := by
  obtain ⟨hfrom, hupTo⟩ := ends_of_mem hr
  apply Range.holds_toJson_iff
  · intro lower hlower
    rcases hfrom with hnone | ⟨b, hb, hsome⟩
    · rw [hnone] at hlower
      cases hlower
    · rw [hsome] at hlower
      exact Option.some.inj hlower ▸ h.finite b hb
  · exact h.finite _ hupTo

theorem existsUnique_holds (h : Increasing boundaries) (hne : boundaries ≠ []) {x : ℝ}
    (hx : x < (boundaries.getLast hne).value) :
    ∃! i : Nat, ∃ range, (sentRanges boundaries)[i]? = some range ∧ Holds range x := by
  have hbelow : ∀ lower : Double, none = some lower → lower.value ≤ x := nofun
  obtain ⟨i, ⟨r, hr, hcontains⟩, hunique⟩ := existsUnique_contains h hne hbelow hx
  have hholds := (holds_iff_of_mem h (List.mem_of_getElem? hr) x).2 hcontains
  refine ⟨i, ⟨r.toJson, ?_, hholds⟩, ?_⟩
  · rw [sentRanges, List.getElem?_map, ranges, hr]
    rfl
  · rintro j ⟨range, hrange, hin⟩
    rw [sentRanges, List.getElem?_map] at hrange
    obtain ⟨s, hs, rfl⟩ := Option.map_eq_some_iff.1 hrange
    exact hunique j ⟨s, hs, (holds_iff_of_mem h (List.mem_of_getElem? hs) x).1 hin⟩

/-- The aggregation for a facet with boundaries has as many ranges as these. A range ends at its
boundary, or at null if that is not finite, and starts where the one before it ends; the first has no
lower end. If the boundaries increase, every number below the last one lies in exactly one range, and
no other number in any. -/
theorem ranges_tile {f : Facet} {clauses : Lucene.Clauses} {asked : Json}
    (hasked : asked.get? f.name = some (aggregation f boundaries clauses))
    (hne : boundaries ≠ []) :
    ∃ sent : List Json,
      asked.follow? (leafPath f.name ++ ["range", "ranges"]) = some (.arr sent) ∧
      sent.length = boundaries.length ∧
      (∀ (i : Nat) (range : Json), sent[i]? = some range →
        (∃ b, boundaries[i]? = some b ∧
          range.get? "to" = some (if b.isFinite then .double b else .null)) ∧
        range.get? "from" = if i = 0 then none else sent[i - 1]?.bind (·.get? "to")) ∧
      (Increasing boundaries → ∀ x : ℝ,
        (x < (boundaries.getLast hne).value →
          ∃! i : Nat, ∃ range, sent[i]? = some range ∧ Holds range x) ∧
        (¬ x < (boundaries.getLast hne).value → ∀ range ∈ sent, ¬ Holds range x)) := by
  obtain ⟨nested, hleaf⟩ := follow?_leafPath hasked
  refine ⟨sentRanges boundaries, ?_, ?_, fun i range => ends_of_sent, ?_⟩
  · rw [follow?_append, hleaf]
    exact follow?_sentRanges f hne nested
  · rw [sentRanges, List.length_map, ranges, length_rangesAfter]
  · intro h x
    refine ⟨existsUnique_holds h hne, ?_⟩
    intro hx range hrange hin
    obtain ⟨r, hr, rfl⟩ := List.mem_map.1 hrange
    exact hx (lt_of_contains h hne hr ((holds_iff_of_mem h hr x).1 hin))

/-- The boundaries of the counts of items: 1, 5.5 and 20. -/
def countBoundaries : List Double :=
  [Double.ofInt 1, Double.ofDecimal false 55 (-1), Double.ofInt 20]

theorem increasing_countBoundaries : Increasing countBoundaries := by
  refine ⟨by decide, ?_⟩
  have hvalues : countBoundaries.map (·.value) = [1, 11 / 2, 20] := by decide +kernel
  apply List.pairwise_map.1
  rw [hvalues]
  decide +kernel

/-- A count of 5.5 lies in one range only, although it is a boundary. -/
theorem ranges_tile_itemCounts :
    ∃ asked, aggregations Storefront.family (Storefront.family .product) [{ name := "Items.Count" }]
        {} = .ok (some asked) ∧
      asked.get? "Items.Count" = some (aggregation { name := "Items.Count" } countBoundaries {}) ∧
      countBoundaries ≠ [] ∧ Increasing countBoundaries ∧
      ∃ sent : List Json, asked.follow? ["Items.Count", "aggs", "filtered", "aggs", "Items.Count",
          "range", "ranges"] = some (.arr sent) ∧
        sent.length = 3 ∧ ∃! i : Nat, ∃ range, sent[i]? = some range ∧ Holds range 5.5 := by
  obtain ⟨asked, hasked, hget⟩ : ∃ asked, aggregations Storefront.family
      (Storefront.family .product) [{ name := "Items.Count" }] {} = .ok (some asked) ∧
      asked.get? "Items.Count" = some (aggregation { name := "Items.Count" } countBoundaries {}) :=
    ⟨_, rfl, rfl⟩
  have hne : countBoundaries ≠ [] := List.cons_ne_nil _ _
  obtain ⟨sent, hsent, hlength, -, htile⟩ :=
    ranges_tile (f := { name := "Items.Count" }) hget hne
  have hlast : (Double.ofInt 20).value = 20 := by decide +kernel
  refine ⟨asked, hasked, hget, hne, increasing_countBoundaries, sent, hsent, hlength, ?_⟩
  apply (htile increasing_countBoundaries 5.5).1
  show (5.5 : ℝ) < (Double.ofInt 20).value
  rw [hlast]
  norm_num

/-- The boundaries 10, 100 and infinity. -/
def endlessBoundaries : List Double := [Double.ofInt 10, Double.ofInt 100, Double.infinity]

/-- The last range of a facet does not end at the infinity that is its boundary, but at null. -/
theorem not_ranges_tile_endless :
    ∃ (asked : Json) (sent : List Json), aggregations Storefront.family (Storefront.family .product)
        [{ name := "Brand", values := endlessBoundaries }] {} = .ok (some asked) ∧
      asked.follow? ["Brand", "range", "ranges"] = some (.arr sent) ∧
      sent.length = endlessBoundaries.length ∧
      sent[2]?.bind (·.get? "to") = some .null ∧
      sent[2]?.bind (·.get? "to") ≠ endlessBoundaries[2]?.map .double := by
  refine ⟨_, _, rfl, rfl, rfl, rfl, ?_⟩
  intro h
  cases h

end SearchDialect.Elastic
