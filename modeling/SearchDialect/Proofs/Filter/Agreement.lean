import SearchDialect.Proofs.Condition.Truth
import SearchDialect.Proofs.Condition.Writer
import SearchDialect.Sample.Storefront

/-!
# What the two languages say of one filter

The two languages write the conditions of a filter in the same order and join them by the same
connectives. They put parentheses around the same links, but for one: the first link of a filter
without a property, which stands in parentheses in OData and does not in Lucene. This makes a
difference where that link has an `or` outside parentheses and an `and` follows it, and only there:
the two conditions have the same truth exactly if this happens at no depth
(`conditions_agree_iff`).
-/

namespace SearchDialect

open Formula (Groups SameTruth sameTruth_extendAll_iff)

namespace Filter

/-! ## Parentheses at the beginning -/

mutual

/-- Whether a condition has an `or` outside parentheses when its first link has none. -/
def isOpen : Filter → Bool
  | node p _ _ _ _ ls => linksAreOpen (!p.isEmpty) ls

/-- The same for some links, if a condition has been written before them or not. -/
def linksAreOpen (started : Bool) : List (Connective × Filter) → Bool
  | [] => false
  | (c, f) :: ls => (if started then c == .or else isOpen f) || linksAreOpen true ls

end

/-- Parentheses around the first link of a filter make no difference: something stands before it, no
`and` follows it, or it has no `or` that they would close in. -/
def keepsHead (f : Filter) : Bool :=
  !f.isBlank || match f.links with
    | (_, g) :: (.and, _) :: _ => !g.isOpen
    | _ => true

/-- Parentheses around a first link make no difference at any depth. -/
def HeadsKept (f : Filter) : Prop := ∀ g ∈ f.walk, g.keepsHead = true

instance (f : Filter) : Decidable f.HeadsKept := inferInstanceAs (Decidable (∀ _ ∈ _, _ = _))

theorem headsKept_iff {f : Filter} :
    f.HeadsKept ↔ f.keepsHead = true ∧ ∀ l ∈ f.links, l.2.HeadsKept :=
  forall_mem_walk_iff

theorem keepsHead_of_property {p : String} (hp : p.isEmpty = false) (c : Comparison) (v : Literal)
    (t : Option String) (vi : Bool) (ls : List (Connective × Filter)) :
    (node p c v t vi ls).keepsHead = true := by
  simp [keepsHead, isBlank, property, hp]

theorem keepsHead_of_head {p : String} (hp : p.isEmpty = true) (c : Comparison) (v : Literal)
    (t : Option String) (vi : Bool) (k : Connective) (g : Filter)
    (ls : List (Connective × Filter)) :
    (node p c v t vi ((k, g) :: ls)).keepsHead = true ↔
      ∀ l ∈ ls.head?, l.1 = .and → g.isOpen = false := by
  match ls with
  | [] | (.or, f) :: ls => simp [keepsHead, links]
  | (.and, f) :: ls => simp [keepsHead, isBlank, property, links, hp]

theorem linksAreOpen_true (ls : List (Connective × Filter)) :
    linksAreOpen true ls = ls.any fun l => l.1 == .or := by
  induction ls with
  | nil => rfl
  | cons l ls ih =>
    obtain ⟨c, f⟩ := l
    rw [linksAreOpen, ih]
    rfl

/-- In Lucene a chain has groups before its last if its condition has an `or` outside
parentheses. -/
theorem isSome_before? {f : Filter} (h : f.NoSilentLink) {s : Groups Filter}
    (hs : f.chain? false = some s) : s.before?.isSome = f.isOpen := by
  induction f generalizing s with
  | node p c v t vi ls ih =>
    have h : ∀ l ∈ ls, l.2.isSilent = false ∧ l.2.NoSilentLink := noSilentLink_iff.1 h
    rw [isOpen]
    cases hp : p.isEmpty with
    | false =>
      rw [chain?_of_property hp fun l hl => (h l hl).1] at hs
      obtain rfl := Option.some.inj hs
      rw [Groups.isSome_before?_extendAll, List.any_map]
      exact (linksAreOpen_true ls).symm
    | true =>
      cases ls with
      | nil => simp [chain?, linksChain?, hp] at hs
      | cons l ls =>
        obtain ⟨k, g⟩ := l
        obtain ⟨hg, hls⟩ := List.forall_mem_cons.1 h
        obtain ⟨e, he, -⟩ := exists_chain? false hg.1
        rw [chain?_of_head hp he fun l hl => (hls l hl).1] at hs
        obtain rfl := Option.some.inj hs
        have hopen : e.before?.isSome = g.isOpen := ih _ List.mem_cons_self hg.2 he
        rw [Groups.isSome_before?_extendAll, List.any_map, Bool.not_true, linksAreOpen,
          linksAreOpen_true, ← hopen]
        rfl

/-! ## The truth of the two chains -/

theorem length_atoms_formula {f : Filter} (h : f.isSilent = false) :
    (f.formula true).atoms.length = (f.formula false).atoms.length := by
  rw [atoms_formula h, atoms_formula h]

/-- Links that stand in parentheses in both languages, after chains that go apart where an `and`
meets groups of the second one only. -/
theorem sameTruth_extendAll_formula_iff {s t : Groups Filter} (haligned : s.Aligned t)
    {ls : List (Connective × Filter)} (h : ∀ l ∈ ls, l.2.isSilent = false)
    (ih : ∀ l ∈ ls, SameTruth (l.2.formula true) (l.2.formula false) ↔ l.2.HeadsKept) :
    SameTruth (s.extendAll (ls.map (Prod.map id (formula true)))).formula
        (t.extendAll (ls.map (Prod.map id (formula false)))).formula ↔
      SameTruth s.formula t.formula ∧ (∀ l ∈ ls, l.2.HeadsKept) ∧
        ∀ l ∈ ls.head?, l.1 = .and → t.before?.isSome = true → s.before?.isSome = true := by
  rw [sameTruth_extendAll_iff haligned ls fun l hl => length_atoms_formula (h l hl)]
  have hlinks : (∀ l ∈ ls, SameTruth (l.2.formula true) (l.2.formula false)) ↔
      ∀ l ∈ ls, l.2.HeadsKept :=
    forall_congr' fun l => forall_congr' fun hl => ih l hl
  rw [hlinks]

/-- With parentheses around first links and without them, a filter says the same exactly if they
make no difference. -/
theorem sameTruth_formula_iff {f : Filter} (h : f.NoSilentLink) :
    SameTruth (f.formula true) (f.formula false) ↔ f.HeadsKept := by
  induction f with
  | node p c v t vi ls ih =>
    have h : ∀ l ∈ ls, l.2.isSilent = false ∧ l.2.NoSilentLink := noSilentLink_iff.1 h
    have ih (l) (hl : l ∈ ls) :
        SameTruth (l.2.formula true) (l.2.formula false) ↔ l.2.HeadsKept := ih l hl (h l hl).2
    rw [headsKept_iff]
    cases hp : p.isEmpty with
    | false =>
      -- Both chains begin with the filter's own condition.
      have hls : ∀ l ∈ ls, l.2.isSilent = false := fun l hl => (h l hl).1
      have haligned : (⟨none, .atom (node p c v t vi [])⟩ : Groups Filter).Aligned
          ⟨none, .atom (node p c v t vi [])⟩ := ⟨rfl, fun _ h => by cases h⟩
      have hiff := sameTruth_extendAll_formula_iff haligned hls ih
      rw [formula, chain?_of_property hp hls, formula, chain?_of_property hp hls]
      simpa [SameTruth.refl, keepsHead_of_property hp, links] using hiff
    | true =>
      cases ls with
      | nil =>
        have hnone (groupsFirst : Bool) :
            (node p c v t vi []).formula groupsFirst = .atom (node p c v t vi []) := by
          simp [formula, chain?, linksChain?, hp, alone, property, comparison, value, tag?, visible]
        simp [hnone, SameTruth.refl, keepsHead, links]
      | cons l ls =>
        obtain ⟨k, g⟩ := l
        obtain ⟨⟨hg, hgls⟩, hls⟩ := List.forall_mem_cons.1 h
        obtain ⟨ihg, ih⟩ := List.forall_mem_cons.1 ih
        have hls : ∀ l ∈ ls, l.2.isSilent = false := fun l hl => (hls l hl).1
        -- In OData the first link is one group; in Lucene it keeps its own groups.
        obtain ⟨a, ha, haformula⟩ := exists_chain? true hg
        obtain ⟨b, hb, hbformula⟩ := exists_chain? false hg
        have haligned : (⟨none, a.formula⟩ : Groups Filter).Aligned b := by
          refine ⟨?_, fun _ h => by cases h⟩
          rw [hbformula]
          show a.formula.atoms.length = _
          rw [haformula, length_atoms_formula hg]
        have hiff := sameTruth_extendAll_formula_iff haligned hls ih
        have hsides : SameTruth (Groups.formula ⟨none, a.formula⟩) b.formula ↔ g.HeadsKept := by
          rw [hbformula, ← ihg, ← haformula]
          rfl
        rw [hsides, isSome_before? hgls hb] at hiff
        rw [formula, chain?_of_head hp ha hls, formula, chain?_of_head hp hb hls,
          keepsHead_of_head hp]
        show _ ↔ _ ∧ ∀ l ∈ (k, g) :: ls, l.2.HeadsKept
        rw [List.forall_mem_cons, and_left_comm, and_comm (a := ∀ l ∈ ls.head?, _)]
        simpa using hiff

end Filter

/-! ## The two conditions -/

variable {ι : Type} {family : Family ι} {m : Model ι} {f : Filter}

/-- What a language makes of the conditions of a filter: a text whose tokens are read as `φ`, and as
nothing else (`Reads.unique`). The atoms of `φ` are the conditions in the order of the walk, each as
it is written alone. -/
structure Says (d : Dialect) (family : Family ι) (m : Model ι) (f : Filter) (text : String)
    (φ : Formula String) : Prop where
  condition : d.condition family m f = .ok text
  reads : ∃ ts, d.tokens family m f = .ok ts ∧ d.text ts = text ∧ Reads .disjunction ts φ
  atoms : φ.atoms = f.conditions.map (d.ownText family m)

theorem exists_says (d : Dialect) (h : f.Resolves family m) (hlinks : f.NoSilentLink)
    (hs : f.isSilent = false) :
    ∃ text, Says d family m f text ((f.formula d.groupsFirst).map (d.ownText family m)) := by
  obtain ⟨ts, hts, hf⟩ := Dialect.exists_tokens (d := d) h
  refine ⟨d.text ts, Dialect.condition_of_tokens d hts,
    ⟨ts, hts, rfl, hf.reads hs (hlinks.silentFirst d.groupsFirst)⟩, ?_⟩
  rw [Formula.atoms_map, Filter.atoms_formula hs]

theorem condition_of_isSilent (d : Dialect) (h : f.Resolves family m) (hlinks : f.NoSilentLink)
    (hs : f.isSilent = true) : d.condition family m f = .ok "" := by
  obtain ⟨ts, hts, hf⟩ := Dialect.exists_tokens (d := d) h
  obtain rfl := hf.eq_nil hs (hlinks.silentFirst d.groupsFirst)
  exact Dialect.condition_of_tokens d hts

/-- Of a filter in which every link holds a condition both languages write all conditions in the
same order, or nothing if there are none. The two texts are true under the same assignments if and
only if parentheses around a first link make no difference at any depth. -/
theorem conditions_agree_iff (h : f.Resolves family m) (hlinks : f.NoSilentLink) :
    (f.isSilent = true → OData.condition family m f = .ok "" ∧
      Lucene.condition family m f = .ok "") ∧
    (f.isSilent = false → ∃ odata lucene φ ψ, Says OData.dialect family m f odata φ ∧
      Says Lucene.dialect family m f lucene ψ ∧
      ((∀ v, φ.holds v = ψ.holds v) ↔ f.HeadsKept)) := by
  constructor
  · intro hs
    exact ⟨condition_of_isSilent _ h hlinks hs, condition_of_isSilent _ h hlinks hs⟩
  · intro hs
    obtain ⟨odata, hodata⟩ := exists_says OData.dialect h hlinks hs
    obtain ⟨lucene, hlucene⟩ := exists_says Lucene.dialect h hlinks hs
    refine ⟨odata, lucene, _, _, hodata, hlucene, ?_⟩
    rw [← Filter.sameTruth_formula_iff hlinks,
      Formula.sameTruth_iff (Filter.length_atoms_formula hs)]
    simp only [Formula.holds, Formula.holdsFrom_map]
    rfl

namespace Filter

/-- A filter that only holds links: `Id` is `'a'` or `'b'`, and then `IsActive`. -/
def headless (c : Connective) : Filter :=
  ((node "" .eq .null (some "head") true []).link .and
    ((condition "Id" .eq (.text "a")).link .or (condition "Id" .eq (.text "b")))).link c
      (condition "IsActive" .eq (.bool true))

end Filter

/-- Before an `or` it makes no difference that only OData puts parentheses around a first link. -/
theorem conditions_agree_beforeOr :
    (Filter.headless .or).Resolves Storefront.family (Storefront.family .product) ∧
      (Filter.headless .or).NoSilentLink ∧
      ∃ φ ψ, Says OData.dialect Storefront.family (Storefront.family .product)
          (Filter.headless .or) "(Id eq 'a' or Id eq 'b') or IsActive eq true" φ ∧
        Says Lucene.dialect Storefront.family (Storefront.family .product)
          (Filter.headless .or) "Id:\"a\" OR Id:\"b\" OR IsActive:true" ψ ∧
        ∀ v, φ.holds v = ψ.holds v := by
  have h : (Filter.headless .or).Resolves Storefront.family (Storefront.family .product) := by
    decide
  have hlinks : (Filter.headless .or).NoSilentLink := by decide
  obtain ⟨odata, lucene, φ, ψ, hodata, hlucene, hiff⟩ :=
    (conditions_agree_iff h hlinks).2 (by decide)
  obtain rfl : "(Id eq 'a' or Id eq 'b') or IsActive eq true" = odata :=
    Except.ok.inj hodata.condition
  obtain rfl : "Id:\"a\" OR Id:\"b\" OR IsActive:true" = lucene :=
    Except.ok.inj hlucene.condition
  exact ⟨h, hlinks, φ, ψ, hodata, hlucene, hiff.2 (by decide)⟩

/-- Before an `and` it does: if `Id` is `'a'` and the product is not active, the Lucene condition is
true and the OData condition is not. -/
theorem not_conditions_agree_beforeAnd :
    (Filter.headless .and).Resolves Storefront.family (Storefront.family .product) ∧
      (Filter.headless .and).NoSilentLink ∧
      ∃ φ ψ, Says OData.dialect Storefront.family (Storefront.family .product)
          (Filter.headless .and) "(Id eq 'a' or Id eq 'b') and IsActive eq true" φ ∧
        Says Lucene.dialect Storefront.family (Storefront.family .product)
          (Filter.headless .and) "Id:\"a\" OR Id:\"b\" AND IsActive:true" ψ ∧
        φ.holds (· == 0) = false ∧ ψ.holds (· == 0) = true := by
  have h : (Filter.headless .and).Resolves Storefront.family (Storefront.family .product) := by
    decide
  have hlinks : (Filter.headless .and).NoSilentLink := by decide
  obtain ⟨odata, hodata⟩ := exists_says OData.dialect h hlinks (by decide)
  obtain ⟨lucene, hlucene⟩ := exists_says Lucene.dialect h hlinks (by decide)
  obtain rfl : "(Id eq 'a' or Id eq 'b') and IsActive eq true" = odata :=
    Except.ok.inj hodata.condition
  obtain rfl : "Id:\"a\" OR Id:\"b\" AND IsActive:true" = lucene :=
    Except.ok.inj hlucene.condition
  exact ⟨h, hlinks, _, _, hodata, hlucene, rfl, rfl⟩

end SearchDialect
