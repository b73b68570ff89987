import SearchDialect.Azure.Answer
import SearchDialect.Azure.Search
import SearchDialect.Proofs.Json.Members
import SearchDialect.Proofs.Outcome

/-!
# Facets under their requested names

A facet is asked for by its name with slashes for dots, and its buckets come back under that form.
The forms of two names may be the same, so a form is traced to the first facet that was requested
with it (`requested?_eq_some_iff`). The buckets of an answer are found under the names of these facets
and under no other (`result_facets`).
-/

namespace SearchDialect.Azure

open Text Number Json

/-- A facet is asked for by the form of its name that has slashes. -/
theorem facetText_eq (f : Facet) : ∃ rest, facetText f = OData.path f.name ++ "," ++ rest := by
  rw [facetText]
  split
  · exact ⟨"count:" ++ natText f.count.toNat ++ ",sort:" ++ f.sort, by simp [String.ext_iff]⟩
  · exact ⟨"values:" ++ joinStrings "|" (f.values.map (·.display)), by simp [String.ext_iff]⟩

/-- The name of the first facet of a request that has its form. -/
def IsFirst (r : Request) (name : String) : Prop :=
  ∃ before f after, r.facets = before ++ f :: after ∧ f.name = name ∧
    ∀ g ∈ before, OData.path g.name ≠ OData.path name

/-- A form is traced to the first facet that was requested with it. -/
theorem requested?_eq_some_iff {r : Request} {form name : String} :
    requested? r form = some name ↔ OData.path name = form ∧ IsFirst r name := by
  rw [requested?, List.find?_eq_some_iff_append, beq_iff_eq]
  constructor
  · rintro ⟨rfl, before, after, hfacets, hbefore⟩
    obtain ⟨fs, gs, hfs, rfl, hgs⟩ := List.map_eq_append_iff.1 hfacets
    obtain ⟨f, hs, rfl, rfl, rfl⟩ := List.map_eq_cons_iff.1 hgs
    refine ⟨rfl, fs, f, hs, hfs, rfl, fun g hg => ?_⟩
    simpa using hbefore g.name (List.mem_map_of_mem hg)
  · rintro ⟨rfl, before, f, after, hfacets, rfl, hbefore⟩
    refine ⟨rfl, before.map (·.name), after.map (·.name), ?_, ?_⟩
    · rw [hfacets, List.map_append, List.map_cons]
    · intro name hname
      obtain ⟨g, hg, rfl⟩ := List.mem_map.1 hname
      simpa using hbefore g hg

/-- The buckets of a member of the facets: one for each item of a list, none of anything else. -/
inductive HasBuckets : Json → List Bucket → Prop where
  | list (items : List Json) : HasBuckets (.arr items) (items.map bucket)
  | other {j : Json} (h : ∀ items, j ≠ .arr items) : HasBuckets j []

theorem hasBuckets_iff {j : Json} {bs : List Bucket} :
    HasBuckets j bs ↔ (j.items?.getD []).map bucket = bs := by
  constructor
  · rintro (⟨items⟩ | ⟨h⟩)
    · rfl
    · cases j with
      | arr items => exact absurd rfl (h items)
      | null | bool _ | int _ | double _ | str _ | obj _ => rfl
  · rintro rfl
    cases j with
    | arr items => exact .list items
    | null | bool _ | int _ | double _ | str _ | obj _ => exact .other nofun

/-- What is found under a name after the facets of some members were read. -/
theorem lookup_facetsFrom {r : Request} {members : List (String × Json)}
    (hnames : (members.map (·.1)).Nodup) {found fs : List (String × List Bucket)}
    (h : (facetsFrom r found members).result = .ok fs) (name : String) :
    lookup name fs = if requested? r (OData.path name) = some name then
      ((lookup (OData.path name) members).map fun j => (j.items?.getD []).map bucket).or
        (lookup name found)
    else lookup name found := by
  induction members generalizing found with
  | nil =>
    cases h
    rw [lookup, Option.map_none, Option.none_or, ite_self]
  | cons member members ih =>
    obtain ⟨form, j⟩ := member
    rw [List.map_cons, List.nodup_cons] at hnames
    rw [facetsFrom] at h
    rw [lookup]
    split at h
    · next hnone =>
      rw [Report.result_bind, Report.result_note, ok_bind] at h
      rw [ih hnames.2 h]
      by_cases hform : form = OData.path name
      · rw [← hform, hnone]
        rfl
      · rw [if_neg hform]
    · next facet hfacet =>
      have hpath := (requested?_eq_some_iff.1 hfacet).1
      rw [ih hnames.2 h, lookup_insertMember]
      by_cases hname : facet = name
      · -- The form of a name is the name of one member only.
        subst hname
        have habsent : lookup (OData.path facet) members = none := by
          rw [← Option.not_isSome_iff_eq_none, lookup_isSome_iff, hpath]
          exact hnames.1
        rw [habsent, hpath, if_pos hfacet, if_pos hfacet, if_pos rfl, if_pos rfl]
        rfl
      · rw [if_neg hname]
        by_cases hform : form = OData.path name
        · have hother : requested? r (OData.path name) ≠ some name := by
            rw [← hform, hfacet, ne_eq, Option.some.injEq]
            exact hname
          rw [if_neg hother, if_neg hother]
        · rw [if_neg hform]

/-- Facets are kept in order of their names, each name once. -/
theorem inOrder_facetsFrom {r : Request} {members : List (String × Json)}
    {found fs : List (String × List Bucket)} (hfound : InOrder found)
    (h : (facetsFrom r found members).result = .ok fs) : InOrder fs := by
  induction members generalizing found with
  | nil =>
    cases h
    exact hfound
  | cons member members ih =>
    obtain ⟨form, j⟩ := member
    rw [facetsFrom] at h
    split at h
    · rw [Report.result_bind, Report.result_note, ok_bind] at h
      exact ih hfound h
    · exact ih (inOrder_insertMember hfound _ _) h

variable {α : Type} {decode : Decoder α} {keyName? : Option String} {r : Request} {s : Settings}
  {indexName : String} {reply : BackendReply} {page : ResultPage α}

/-- The facets of a result are those of its answer. -/
theorem facets_of_result
    (h : (result decode keyName? r s indexName reply).result = .ok page) :
    (facets r reply.body).result = .ok page.facets := by
  rw [result] at h
  simp only [Report.result_bind, bind_eq_ok_iff, Report.result_pure, Except.ok.injEq] at h
  obtain ⟨items, -, hits, -, facets, hfacets, rfl⟩ := h
  exact hfacets

/-- The facets of a result stand under the names that they were requested by: a name is there if it
is the first one requested with its form and the form, in which it is asked for, is a member of the
facets of the answer. It has the buckets of that member. -/
theorem result_facets {members : List (String × Json)}
    (hpage : (result decode keyName? r s indexName reply).result = .ok page)
    (hanswer : reply.body.get? "@search.facets" = some (.obj members))
    (hnames : (members.map (·.1)).Nodup) :
    (∀ f ∈ r.facets, ∃ rest, facetText f = OData.path f.name ++ "," ++ rest) ∧
    InOrder page.facets ∧
    (∀ name, (page.facet? name).isSome ↔
      IsFirst r name ∧ OData.path name ∈ members.map (·.1)) ∧
    ∀ name buckets, page.facet? name = some buckets ↔
      IsFirst r name ∧ ∃ j, lookup (OData.path name) members = some j ∧ HasBuckets j buckets := by
  have hread : (facetsFrom r [] members).result = .ok page.facets := by
    have hfacets := facets_of_result hpage
    rw [facets, hanswer] at hfacets
    exact hfacets
  have hfound (name : String) (buckets : List Bucket) : page.facet? name = some buckets ↔
      IsFirst r name ∧ ∃ j, lookup (OData.path name) members = some j ∧ HasBuckets j buckets := by
    have hfirst : requested? r (OData.path name) = some name ↔ IsFirst r name := by
      rw [requested?_eq_some_iff, and_iff_right rfl]
    rw [ResultPage.facet?, lookup_facetsFrom hnames hread, ← hfirst]
    simp only [lookup, Option.or_none, hasBuckets_iff]
    split
    · next h => rw [and_iff_right h, Option.map_eq_some_iff]
    · next h => simp [h]
  refine ⟨fun f _ => facetText_eq f, inOrder_facetsFrom inOrder_nil hread, ?_, hfound⟩
  intro name
  rw [Option.isSome_iff_exists, ← lookup_isSome_iff, Option.isSome_iff_exists]
  simp only [hfound, exists_and_left, and_congr_right_iff]
  intro _
  constructor
  · rintro ⟨_, j, hj, -⟩
    exact ⟨j, hj⟩
  · rintro ⟨j, hj⟩
    exact ⟨_, j, hj, hasBuckets_iff.2 rfl⟩

/-- A property that is requested in both forms, and another one twice. -/
def pricesTwice : Request where
  facets := [{ name := "Items.Price", values := [Double.ofInt 10] }, { name := "Brand" },
    { name := "Items/Price" }, { name := "Brand", count := 5 }]

/-- Facets of an answer, of which one was not requested. -/
def threeFacets : BackendReply where
  body := .object [("value", .arr []), ("@search.facets", .object [
    ("Brand", .str "acme"),
    ("Items/Price", .arr [.object [("to", .int 10), ("count", .int 1)],
      .object [("from", .int 10), ("count", .int 4)]]),
    ("Other", .arr [.object [("value", .str "x"), ("count", .int 1)]])])]

/-- The ranges of prices come back under the name that is requested first. -/
theorem result_facets_pricesTwice :
    ∃ page members, (result (fun j => .ok j) none pricesTwice {} "products" threeFacets).result =
        .ok page ∧
      threeFacets.body.get? "@search.facets" = some (.obj members) ∧
      (members.map (·.1)).Nodup ∧
      page.facet? "Items.Price" =
        some [{ to? := some (Double.ofInt 10), count? := some 1 },
          { from? := some (Double.ofInt 10), count? := some 4 }] ∧
      page.facet? "Brand" = some [] ∧ page.facet? "Items/Price" = none := by
  obtain ⟨page, hpage⟩ : ∃ page, (result (fun j => .ok j) none pricesTwice {} "products"
      threeFacets).result = .ok page := ⟨_, rfl⟩
  obtain ⟨members, hanswer⟩ : ∃ members,
      threeFacets.body.get? "@search.facets" = some (.obj members) := ⟨_, rfl⟩
  have hnames : (members.map (·.1)).Nodup := by
    cases hanswer
    decide
  obtain ⟨-, -, hsome, hfound⟩ := result_facets hpage hanswer hnames
  have hprices : requested? pricesTwice "Items/Price" = some "Items.Price" := rfl
  have hbrand : requested? pricesTwice "Brand" = some "Brand" := rfl
  refine ⟨page, members, hpage, hanswer, hnames, ?_, ?_, ?_⟩
  · rw [hfound]
    refine ⟨(requested?_eq_some_iff.1 hprices).2, ?_⟩
    cases hanswer
    exact ⟨_, rfl, .list _⟩
  · rw [hfound]
    refine ⟨(requested?_eq_some_iff.1 hbrand).2, ?_⟩
    cases hanswer
    exact ⟨_, rfl, .other nofun⟩
  · rw [← Option.not_isSome_iff_eq_none, hsome]
    rintro ⟨hfirst, -⟩
    have hslashes := requested?_eq_some_iff.2 ⟨rfl, hfirst⟩
    exact absurd (hprices.symm.trans hslashes) (by decide)

end SearchDialect.Azure
