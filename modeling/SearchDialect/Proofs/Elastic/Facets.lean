import SearchDialect.Elastic.Aggregation
import SearchDialect.Proofs.Filter.Home
import SearchDialect.Proofs.Json.Members
import SearchDialect.Proofs.Outcome
import SearchDialect.Sample.Storefront

/-!
# Facets, asked for and read

An answer to aggregations has their shape: it holds the buckets of a facet as deep as the
aggregation that forms them was built (`Mirrors`). What was built says how a bucket is read: by
ranges or by terms, and with which sum (`bucketOf`). The facets of a request are read from such an
answer exactly as they were built, although the two sides look at the names and the ranges of facets
apart from each other (`facetsFrom_mirrored`).
-/

namespace SearchDialect

/-- What some names lead to, each the name of a member of what the names before it lead to. -/
def Json.follow? : List String → Json → Option Json
  | [], j => some j
  | name :: names, j => (j.get? name).bind (follow? names)

namespace Elastic

open Number Json

/-! ## Shapes -/

/-- The names that lead to the aggregation which forms the buckets of a facet. -/
def leafPath (name : String) : List String :=
  if '.' ∈ name.toList then [name, "aggs", filteredName, "aggs", name] else [name]

/-- The names that lead to the buckets of a facet in an answer. -/
def bucketsPath (name : String) : List String :=
  if '.' ∈ name.toList then [name, filteredName, name, "buckets"] else [name, "buckets"]

/-- An answer mirrors aggregations: under each of their names it holds a list of buckets, as deep as
the aggregation that forms them. -/
def Mirrors (asked answer : Json) : Prop :=
  ∀ name, (asked.get? name).isSome →
    ∃ items, answer.follow? (bucketsPath name) = some (.arr items)

/-- The name under which an aggregation sums a property in its buckets. -/
def summed? (leaf : Json) : Option String :=
  ((leaf.get? "aggs").bind (·.members?)).bind fun inner =>
    (inner.find? fun a => (a.2.get? "sum").isSome).map (·.1)

/-- The number of documents that a bucket tells: in its member `to_root`, or else for itself. -/
def told? (b : Json) : Option Int64 :=
  match b.follow? ["to_root", "doc_count"] with
  | some count => count.integer?
  | none => (b.get? "doc_count").bind (·.integer?)

/-- What a bucket of an aggregation says: the ends of a range if it forms ranges, and else a term,
with the sum of a property if it sums one. -/
def bucketOf (leaf b : Json) : Bucket :=
  match leaf.get? "range" with
  | some _ => {
      from? := (b.get? "from").bind (·.number?)
      to? := (b.get? "to").bind (·.number?)
      count? := told? b }
  | none => {
      value? := some ((b.get? "key").getD .null)
      count? := told? b
      sumField? := summed? leaf
      sum? := (summed? leaf).bind fun field => (b.follow? [field, "value"]).bind (·.number?) }

/-! ## One facet -/

theorem follow?_pair (j : Json) (name name' : String) :
    j.follow? [name, name'] = (j.get? name).bind (·.get? name') := by
  simp [follow?]

theorem bucketCount?_eq (b : Json) : bucketCount? b = told? b := by
  rw [bucketCount?, told?, follow?_pair]
  show (((b.get? "to_root").bind (·.get? "doc_count")).or _).bind _ = _
  cases (b.get? "to_root").bind (·.get? "doc_count") <;> rfl

/-- The members of the aggregation that forms a facet's buckets. -/
theorem get?_leafAggregation (f : Facet) (boundaries : List Double) (nested : Bool) :
    ((leafAggregation f boundaries nested).get? "range").isSome = !boundaries.isEmpty ∧
      (leafAggregation f boundaries nested).get? "aggs" =
        if (innerAggregations f boundaries.isEmpty nested).isEmpty then none
        else some (.object (innerAggregations f boundaries.isEmpty nested)) := by
  simp only [leafAggregation, get?_object]
  cases boundaries.isEmpty <;>
    cases (innerAggregations f _ nested).isEmpty <;> simp [lookup]

/-- Only an aggregation by terms sums, and it does so beside the aggregation that counts the
documents around nested ones. -/
theorem summed?_leafAggregation (f : Facet) (boundaries : List Double) (nested : Bool) :
    summed? (leafAggregation f boundaries nested) =
      if boundaries.isEmpty then f.sumField? else none := by
  obtain ⟨name, sort, count, values, sumField?⟩ := f
  rw [summed?, (get?_leafAggregation _ boundaries nested).2]
  cases boundaries.isEmpty with
  | false => cases nested <;> rfl
  | true =>
    cases sumField? with
    | none => cases nested <;> rfl
    | some field =>
      cases nested with
      | false => rfl
      | true =>
        show ((insertMember field _ [(rootName, _)]).find? _).map (·.1) = some field
        rw [insertMember]
        split
        · rfl
        split
        · rfl
        · rfl

theorem bucketOf_leafAggregation (f : Facet) (boundaries : List Double) (nested : Bool) (b : Json) :
    bucketOf (leafAggregation f boundaries nested) b = bucket f (!boundaries.isEmpty) b := by
  have hrange := (get?_leafAggregation f boundaries nested).1
  have hsum := summed?_leafAggregation f boundaries nested
  rw [bucketOf, bucket, bucketCount?_eq, hsum]
  cases hr : (leafAggregation f boundaries nested).get? "range" with
  | some ranges =>
    rw [hr] at hrange
    rw [← hrange]
    rfl
  | none =>
    rw [hr] at hrange
    have hterms : boundaries.isEmpty = true := by simpa using hrange.symm
    rw [hterms, if_pos rfl]
    cases f.sumField? with
    | none => rfl
    | some field => simp [Bucket.term, follow?_pair]

/-- What is asked for under the name of a facet has the buckets of the facet at its leaf. -/
theorem follow?_leafPath {asked : Json} {f : Facet} {boundaries : List Double}
    {clauses : Lucene.Clauses}
    (h : asked.get? f.name = some (aggregation f boundaries clauses)) :
    ∃ nested, asked.follow? (leafPath f.name) = some (leafAggregation f boundaries nested) := by
  rw [leafPath]
  split
  · next hdot =>
    obtain ⟨path, hpath⟩ := Lucene.exists_nestedPath? hdot
    refine ⟨true, ?_⟩
    rw [follow?, h, aggregation, hpath]
    simp [follow?, get?_object, lookup]
  · next hdot =>
    refine ⟨false, ?_⟩
    rw [follow?, h, aggregation, Lucene.nestedPath?_of_not_mem hdot]
    rfl

/-- The buckets that are looked for in an answer are those at the depth of the aggregation. -/
theorem follow?_bucketsPath (answer : Json) (f : Facet) :
    answer.follow? (bucketsPath f.name) = (answer.get? f.name).bind (facetBuckets? f) := by
  rw [bucketsPath]
  split
  · next hdot =>
    obtain ⟨path, hpath⟩ := Lucene.exists_nestedPath? hdot
    rw [follow?]
    congr 1
    funext outer
    rw [facetBuckets?, hpath]
    simp [follow?, Option.bind_assoc]
  · next hdot =>
    rw [follow?]
    congr 1
    funext outer
    rw [facetBuckets?, Lucene.nestedPath?_of_not_mem hdot]
    simp [follow?]

/-! ## All facets -/

variable {ι : Type} (family : Family ι) (m : Model ι)

/-- The boundaries of a facet; none if it is refused. -/
def boundariesOf (f : Facet) : List Double := (facetRanges family m f).toOption.getD []

/-- The last of some facets that has a name. -/
def last? (facets : List Facet) (name : String) : Option Facet :=
  facets.reverse.find? fun f => f.name == name

/-- The buckets of a facet in an answer. -/
def readFacet (answer : Json) (f : Facet) : List Bucket :=
  ((answer.follow? (bucketsPath f.name)).map bucketItems).getD [] |>.map
    (bucket f (isByRange family m f))

variable {family m}

theorem facetRanges_of_accepted {facets : List Facet} {clauses : Lucene.Clauses}
    {asked? : Option Json} (h : aggregations family m facets clauses = .ok asked?) :
    ∀ f ∈ facets, facetRanges family m f = .ok (boundariesOf family m f) := by
  have hfault : fault? (aggregations family m facets clauses) = none :=
    fault?_eq_none_iff.2 ⟨asked?, h⟩
  rw [aggregations, fault?_bind_pure, fault?_mapM, List.findSome?_eq_none_iff] at hfault
  intro f hf
  have hf := hfault f hf
  rw [fault?_bind_pure] at hf
  obtain ⟨boundaries, hboundaries⟩ := fault?_eq_none_iff.1 hf
  rw [boundariesOf, hboundaries]
  rfl

/-- What is asked for if no facet is refused. -/
theorem aggregations_of_accepted {facets : List Facet} {clauses : Lucene.Clauses}
    (h : ∀ f ∈ facets, facetRanges family m f = .ok (boundariesOf family m f)) :
    aggregations family m facets clauses = .ok (if facets.isEmpty then none
      else some (.object (facets.map fun f =>
        (f.name, aggregation f (boundariesOf family m f) clauses)))) := by
  have hmembers : facets.mapM (fun f => do
      let boundaries ← facetRanges family m f
      return (f.name, aggregation f boundaries clauses)) =
        .ok (facets.map fun f => (f.name, aggregation f (boundariesOf family m f) clauses)) := by
    apply mapM_of_forall₂
    rw [List.forall₂_map_right_iff, List.forall₂_same]
    intro f hf
    rw [h f hf]
    rfl
  rw [aggregations, hmembers, ok_bind, List.isEmpty_map]
  rfl

/-- Aggregations are asked for under the names of facets. -/
theorem isSome_asked_iff {facets : List Facet} {clauses : Lucene.Clauses} {asked : Json}
    (h : aggregations family m facets clauses = .ok (some asked)) (name : String) :
    (asked.get? name).isSome ↔ name ∈ facets.map (·.name) := by
  rw [aggregations_of_accepted (facetRanges_of_accepted h)] at h
  split at h
  · cases h
  · obtain rfl := Option.some.inj (Except.ok.inj h)
    rw [get?_object, lookup_isSome_iff, List.map_reverse, List.mem_reverse, List.map_map]
    rfl

/-- Facets that are all answered are read without a note. -/
theorem facetsFrom_eq {facets : List Facet} {answer : Json}
    (h : ∀ f ∈ facets, ∃ items, answer.follow? (bucketsPath f.name) = some (.arr items))
    (found : List (String × List Bucket)) :
    facetsFrom family m answer found facets =
      ⟨[], .ok (facets.foldl (fun acc f => insertMember f.name (readFacet family m answer f) acc)
        found)⟩ := by
  induction facets generalizing found with
  | nil => rfl
  | cons f facets ih =>
    obtain ⟨⟨items, hitems⟩, hfacets⟩ := List.forall_mem_cons.1 h
    have hread : readFacet family m answer f = items.map (bucket f (isByRange family m f)) := by
      rw [readFacet, hitems]
      rfl
    rw [follow?_bucketsPath] at hitems
    obtain ⟨outer, houter, hbuckets⟩ := Option.bind_eq_some_iff.1 hitems
    rw [facetsFrom, houter]
    simp only [hbuckets]
    rw [ih hfacets, List.foldl_cons, hread]
    rfl

/-- The facets of a request with their buckets in an answer, the last of each name. -/
def readFacets (family : Family ι) (m : Model ι) (answer : Json) (facets : List Facet) :
    List (String × List Bucket) :=
  sortMembers (facets.map fun f => (f.name, readFacet family m answer f))

theorem last?_eq_some_iff {facets : List Facet} {name : String} {f : Facet} :
    last? facets name = some f ↔ f.name = name ∧ ∃ before after, facets = before ++ f :: after ∧
      ∀ g ∈ after, g.name ≠ name := by
  rw [last?, List.find?_eq_some_iff_append, beq_iff_eq]
  refine and_congr_right fun _ => ?_
  constructor
  · rintro ⟨later, earlier, hfacets, hlater⟩
    refine ⟨earlier.reverse, later.reverse, ?_, ?_⟩
    · rw [← List.reverse_reverse facets, hfacets]
      simp
    · intro g hg
      simpa using hlater g (List.mem_reverse.1 hg)
  · rintro ⟨before, after, rfl, hafter⟩
    refine ⟨after.reverse, before.reverse, by simp, ?_⟩
    intro g hg
    simpa using hafter g (List.mem_reverse.1 hg)

theorem lookup_readFacets (answer : Json) (facets : List Facet) (name : String) :
    lookup name (readFacets family m answer facets) =
      (last? facets name).map (readFacet family m answer) := by
  rw [readFacets, lookup_sortMembers, ← List.map_reverse, lookup_map, last?]

/-- The last facet of a name is the one that is asked for and read under it. -/
theorem asked_and_read {facets : List Facet} {clauses : Lucene.Clauses} {asked? : Option Json}
    {answer : Json} (hasked : aggregations family m facets clauses = .ok asked?)
    (hmirrors : ∀ asked, asked? = some asked → Mirrors asked answer) {name : String} {f : Facet}
    (hlast : last? facets name = some f) :
    ∃ asked items, asked? = some asked ∧
      facetRanges family m f = .ok (boundariesOf family m f) ∧
      asked.get? name = some (aggregation f (boundariesOf family m f) clauses) ∧
      answer.follow? (bucketsPath name) = some (.arr items) ∧
      readFacet family m answer f = items.map (bucket f !(boundariesOf family m f).isEmpty) := by
  have hranges := facetRanges_of_accepted hasked
  obtain ⟨rfl, before, after, hfacets, -⟩ := last?_eq_some_iff.1 hlast
  have hf : f ∈ facets := by rw [hfacets]; simp
  have hne : facets.isEmpty = false := by rw [hfacets]; simp
  rw [aggregations_of_accepted hranges, hne] at hasked
  obtain rfl := Except.ok.inj hasked
  have hget : (Json.object (facets.map fun f =>
      (f.name, aggregation f (boundariesOf family m f) clauses))).get? f.name =
        some (aggregation f (boundariesOf family m f) clauses) := by
    rw [get?_object, ← List.map_reverse, lookup_map, ← last?, hlast]
    rfl
  obtain ⟨items, hitems⟩ := hmirrors _ rfl f.name (by rw [hget]; rfl)
  refine ⟨_, items, rfl, hranges f hf, hget, hitems, ?_⟩
  rw [readFacet, hitems, isByRange, hranges f hf]
  rfl

/-- The facets of a request are read from an answer that mirrors what was asked for them, each under
its name and with all of its buckets in their order, as the aggregation says that forms them. Of
facets of one name the last is asked for and read. -/
theorem facetsFrom_mirrored {facets : List Facet} {clauses : Lucene.Clauses} {asked? : Option Json}
    {answer : Json} (hasked : aggregations family m facets clauses = .ok asked?)
    (hmirrors : ∀ asked, asked? = some asked → Mirrors asked answer) :
    ∃ found, facetsFrom family m answer [] facets = ⟨[], .ok found⟩ ∧
      InOrder found ∧
      (∀ name, name ∈ found.map (·.1) ↔ name ∈ facets.map (·.name)) ∧
      (∀ name buckets, (name, buckets) ∈ found → ∃ asked leaf items, asked? = some asked ∧
        asked.follow? (leafPath name) = some leaf ∧
        answer.follow? (bucketsPath name) = some (.arr items) ∧
        buckets = items.map (bucketOf leaf)) ∧
      ∀ before f after, facets = before ++ f :: after → (∀ g ∈ after, g.name ≠ f.name) →
        ∃ asked boundaries items, asked? = some asked ∧
          facetRanges family m f = .ok boundaries ∧
          asked.get? f.name = some (aggregation f boundaries clauses) ∧
          answer.follow? (bucketsPath f.name) = some (.arr items) ∧
          lookup f.name found = some (items.map (bucket f !boundaries.isEmpty)) := by
  have hitems : ∀ f ∈ facets, ∃ items, answer.follow? (bucketsPath f.name) = some (.arr items) := by
    intro f hf
    obtain ⟨g, hlast⟩ : ∃ g, last? facets f.name = some g := by
      rw [← Option.isSome_iff_exists, last?, List.find?_isSome]
      exact ⟨f, List.mem_reverse.2 hf, beq_self_eq_true f.name⟩
    obtain ⟨-, items, -, -, -, hitems, -⟩ := asked_and_read hasked hmirrors hlast
    exact ⟨items, hitems⟩
  refine ⟨readFacets family m answer facets, ?_, inOrder_sortMembers _, ?_, ?_, ?_⟩
  · rw [facetsFrom_eq hitems, readFacets, sortMembers, List.foldl_map]
  · intro name
    rw [readFacets, mem_names_sortMembers, List.map_map]
    rfl
  · intro name buckets hmem
    have hlookup := lookup_of_mem (inOrder_sortMembers _) hmem
    change lookup name (readFacets family m answer facets) = some buckets at hlookup
    rw [lookup_readFacets] at hlookup
    obtain ⟨f, hlast, rfl⟩ := Option.map_eq_some_iff.1 hlookup
    obtain ⟨asked, items, hasked?, -, hget, hitems, hread⟩ :=
      asked_and_read hasked hmirrors hlast
    obtain rfl := (last?_eq_some_iff.1 hlast).1
    obtain ⟨nested, hleaf⟩ := follow?_leafPath hget
    refine ⟨asked, _, items, hasked?, hleaf, hitems, ?_⟩
    rw [hread]
    exact List.map_congr_left fun b _ => (bucketOf_leafAggregation f _ nested b).symm
  · intro before f after hfacets hafter
    have hlast := last?_eq_some_iff.2 ⟨rfl, before, after, hfacets, hafter⟩
    obtain ⟨asked, items, hasked?, hranges, hget, hitems, hread⟩ :=
      asked_and_read hasked hmirrors hlast
    refine ⟨asked, _, items, hasked?, hranges, hget, hitems, ?_⟩
    rw [lookup_readFacets, hlast, Option.map_some, hread]

/-- Brands twice, the second time with the stock of each, categories of items between them, and
prices, whose ranges are declared. -/
def brandsTwice : List Facet :=
  [{ name := "Brand" }, { name := "Items.Category", sumField? := some "Items.Count" },
    { name := "Brand", sumField? := some "Stock" }, { name := "Price" }]

/-- An answer with one bucket for each name. -/
def oneBucketEach : Json :=
  .object [
    ("Brand", .object [("buckets", .arr [.object [("key", .str "acme"), ("doc_count", .int 4),
      ("Stock", .object [("value", .int 12)])]])]),
    ("Items.Category", .object [("filtered", .object [("Items.Category", .object [("buckets",
      .arr [.object [("key", .str "shoes"), ("doc_count", .int 9),
        ("to_root", .object [("doc_count", .int 2)]),
        ("Items.Count", .object [("value", .int 5)])]])])])]),
    ("Price", .object [("buckets", .arr [.object [("to", .int 10), ("doc_count", .int 1)]])])]

/-- The brands are read with their stock, as the second facet asks for. -/
theorem facetsFrom_mirrored_brandsTwice :
    ∃ asked, aggregations Storefront.family (Storefront.family .product) brandsTwice {} =
        .ok (some asked) ∧ Mirrors asked oneBucketEach ∧
      ∃ found, facetsFrom Storefront.family (Storefront.family .product) oneBucketEach []
          brandsTwice = ⟨[], .ok found⟩ ∧
        lookup "Brand" found = some [{
          value? := some (.str "acme"), count? := some 4, sumField? := some "Stock",
          sum? := some (Double.ofInt 12) }] := by
  obtain ⟨asked, hasked⟩ : ∃ asked, aggregations Storefront.family (Storefront.family .product)
      brandsTwice {} = .ok (some asked) := ⟨_, rfl⟩
  have hmirrors : Mirrors asked oneBucketEach := by
    intro name hname
    have hname : name ∈ ["Brand", "Items.Category", "Brand", "Price"] :=
      (isSome_asked_iff hasked name).1 hname
    simp only [List.mem_cons, List.not_mem_nil, or_false] at hname
    rcases hname with rfl | rfl | rfl | rfl <;> exact ⟨_, rfl⟩
  refine ⟨asked, hasked, hmirrors, ?_⟩
  obtain ⟨found, hfound, -, -, -, hlast⟩ := facetsFrom_mirrored hasked
    (fun _ h => Option.some.inj h ▸ hmirrors)
  obtain ⟨-, boundaries, items, -, hboundaries, -, hitems, hbrand⟩ :=
    hlast [{ name := "Brand" }, { name := "Items.Category", sumField? := some "Items.Count" }]
      { name := "Brand", sumField? := some "Stock" } [{ name := "Price" }] rfl (by decide)
  refine ⟨found, hfound, ?_⟩
  obtain rfl : [] = boundaries := Except.ok.inj hboundaries
  cases hitems
  exact hbrand

end Elastic

end SearchDialect
