import SearchDialect.Proofs.Condition.Writer
import SearchDialect.Proofs.Predicate.Meaning

/-!
# What a written filter says

A filter in which every link holds a condition of its own says what its chain says when it is split
at each `or`: the groups joined by `or`, the conditions of a group joined by `and`, and a linked
filter with links of its own as one unit (`Filter.reading`). Both languages write it so, and the
OData condition of some filters is the conjunction of what they say (`reads_stated`). Link by link
from left to right a filter means the same if nowhere an `and` comes after an `or`
(`holdsFrom_reading`).
-/

namespace SearchDialect

namespace Formula

variable {α β : Type}

/-! ## Chains split at `or` -/

/-- Formulas joined by one connective, from left to right. -/
def joinAll (c : Connective) (φ : Formula α) (φs : List (Formula α)) : Formula α :=
  φs.foldl (join c) φ

/-- The units of a chain after its first one, split at each `or`: those of the first group, and the
groups after it, each as its first unit and the others. -/
def splitAtOr : List (Connective × β) → List β × List (β × List β)
  | [] => ([], [])
  | (.and, u) :: us => (u :: (splitAtOr us).1, (splitAtOr us).2)
  | (.or, u) :: us => ([], (u, (splitAtOr us).1) :: (splitAtOr us).2)

/-- A chain as it is read: groups joined by `or`, and the units of each group by `and`. -/
def ofChain (φ : Formula α) (us : List (Connective × Formula α)) : Formula α :=
  joinAll .or (joinAll .and φ (splitAtOr us).1)
    ((splitAtOr us).2.map fun g => joinAll .and g.1 g.2)

/-- Splitting at each `or` is what taking one unit after the other leads to. -/
theorem formula_extendAll (s : Groups α) (us : List (Connective × Formula α)) :
    (s.extendAll us).formula =
      joinAll .or (Groups.formula ⟨s.before?, joinAll .and s.last (splitAtOr us).1⟩)
        ((splitAtOr us).2.map fun g => joinAll .and g.1 g.2) := by
  induction us generalizing s with
  | nil => rfl
  | cons u us ih =>
    obtain ⟨c, φ⟩ := u
    show ((s.extend c φ).extendAll us).formula = _
    rw [ih]
    cases c with
    | and => rfl
    | or => rfl

theorem atoms_joinAll (c : Connective) (φ : Formula α) (φs : List (Formula α)) :
    (joinAll c φ φs).atoms = φ.atoms ++ φs.flatMap atoms := by
  induction φs generalizing φ with
  | nil => simp [joinAll]
  | cons ψ φs ih =>
    show (joinAll c (join c φ ψ) φs).atoms = _
    rw [ih, atoms, List.append_assoc, List.flatMap_cons]

theorem map_joinAll (g : α → β) (c : Connective) (φ : Formula α) (φs : List (Formula α)) :
    (joinAll c φ φs).map g = joinAll c (φ.map g) (φs.map (map g)) := by
  induction φs generalizing φ with
  | nil => rfl
  | cons ψ φs ih => exact ih (join c φ ψ)

/-- Reading a chain changes how its atoms are grouped, never which ones there are. -/
theorem atoms_ofChain (φ : Formula α) (us : List (Connective × Formula α)) :
    (ofChain φ us).atoms = φ.atoms ++ us.flatMap fun u => u.2.atoms := by
  induction us generalizing φ with
  | nil => simp [ofChain, joinAll, splitAtOr]
  | cons u us ih =>
    obtain ⟨c, ψ⟩ := u
    cases c with
    | and =>
      show (ofChain (join .and φ ψ) us).atoms = _
      rw [ih, atoms, List.append_assoc, List.flatMap_cons]
    | or =>
      have hgroups : (ofChain ψ us).atoms = (joinAll .and ψ (splitAtOr us).1).atoms ++
          ((splitAtOr us).2.map fun g => joinAll .and g.1 g.2).flatMap atoms := atoms_joinAll _ _ _
      show (joinAll .or φ (joinAll .and ψ (splitAtOr us).1 ::
        (splitAtOr us).2.map fun g => joinAll .and g.1 g.2)).atoms = _
      rw [atoms_joinAll, List.flatMap_cons, ← hgroups, ih, List.flatMap_cons]

/-! ## Chains without an `and` after an `or` -/

/-- A chain joined one unit after the other. -/
def inOrder (φ : Formula α) (us : List (Connective × Formula α)) : Formula α :=
  us.foldl (fun φ u => join u.1 φ u.2) φ

theorem splitAtOr_of_or {us : List (Connective × β)} (h : ∀ u ∈ us, u.1 = .or) :
    (splitAtOr us).1 = [] := by
  cases us with
  | nil => rfl
  | cons u us =>
    obtain ⟨c, φ⟩ := u
    obtain rfl : c = .or := h _ List.mem_cons_self
    rfl

/-- A chain whose `and`s all come first is read as it is joined one unit after the other. -/
theorem ofChain_eq_inOrder {us : List (Connective × Formula α)}
    (h : us.Pairwise fun u w => ¬(u.1 = .or ∧ w.1 = .and)) (φ : Formula α) :
    ofChain φ us = inOrder φ us := by
  induction us generalizing φ with
  | nil => rfl
  | cons u us ih =>
    obtain ⟨c, ψ⟩ := u
    rw [List.pairwise_cons] at h
    cases c with
    | and => exact ih h.2 (join .and φ ψ)
    | or =>
      have hor : ∀ w ∈ us, w.1 = .or := by
        intro w hw
        cases hc : w.1 with
        | and => exact absurd ⟨rfl, hc⟩ (h.1 w hw)
        | or => rfl
      have hrest : ofChain (join .or φ ψ) us = inOrder (join .or φ ψ) us := ih h.2 _
      rw [ofChain, splitAtOr_of_or hor] at hrest
      rw [ofChain, splitAtOr, splitAtOr_of_or hor]
      exact hrest

end Formula

open Formula (joinAll ofChain)

namespace Filter

/-! ## The reading of a filter -/

mutual

/-- What a filter says in which every link holds a condition of its own. -/
def reading : Filter → Formula Filter
  | node p c v t vi ls => ofChain (.atom (node p c v t vi [])) (linkReadings ls)

/-- What some links say, each as one unit. -/
def linkReadings : List (Connective × Filter) → List (Connective × Formula Filter)
  | [] => []
  | (c, f) :: ls => (c, reading f) :: linkReadings ls

end

theorem linkReadings_eq (ls : List (Connective × Filter)) :
    linkReadings ls = ls.map (Prod.map id reading) := by
  induction ls with
  | nil => rfl
  | cons l ls ih =>
    obtain ⟨c, f⟩ := l
    rw [linkReadings, ih]
    rfl

theorem reading_eq (f : Filter) :
    f.reading = ofChain (.atom f.alone) (f.links.map (Prod.map id reading)) := by
  obtain ⟨p, c, v, t, vi, ls⟩ := f
  rw [reading, linkReadings_eq]
  rfl

theorem length_atoms_reading (f : Filter) : f.reading.atoms.length = f.walk.length := by
  induction f with
  | node p c v t vi ls ih =>
    have hlinks : (ls.map fun l => (l.2.reading.atoms).length) = ls.map fun l => l.2.walk.length :=
      List.map_congr_left fun l hl => ih l hl
    rw [reading_eq, Formula.atoms_ofChain, walk_eq]
    simp [Formula.atoms, links, List.length_flatMap, List.flatMap_map, Prod.map, hlinks]

variable {ι : Type} (family : Family ι) (m : Model ι)

/-- Every filter at every depth has a property, and one that leads to a value of the model. -/
def Stated (f : Filter) : Prop :=
  ∀ g ∈ f.walk, g.isBlank = false ∧ ∃ k, m.kindAt family g.property = .ok k

instance (f : Filter) : Decidable (f.Stated family m) :=
  inferInstanceAs (Decidable (∀ _ ∈ _, _ ∧ ∃ _, _ = _))

variable {family m}

theorem Stated.link {f : Filter} (h : f.Stated family m) {l : Connective × Filter}
    (hl : l ∈ f.links) : l.2.Stated family m :=
  (forall_mem_walk_iff.1 h).2 l hl

theorem Stated.resolves {f : Filter} (h : f.Stated family m) : f.Resolves family m :=
  fun g hg _ => (h g hg).2

theorem Stated.isSilent {f : Filter} (h : f.Stated family m) : f.isSilent = false := by
  rw [isSilent_eq, (h f f.self_mem_walk).1, Bool.false_and]

theorem Stated.noSilentLink {f : Filter} (h : f.Stated family m) : f.NoSilentLink := by
  induction f with
  | node p c v t vi ls ih =>
    rw [noSilentLink_iff]
    exact fun l hl => ⟨(h.link hl).isSilent, ih l hl (h.link hl)⟩

/-- The chain of a filter says what its reading says, whether a chain may begin with parentheses or
not. -/
theorem Stated.formula {f : Filter} (h : f.Stated family m) (groupsFirst : Bool) :
    f.formula groupsFirst = f.reading := by
  induction f with
  | node p c v t vi ls ih =>
    have hp : p.isEmpty = false := (h _ (self_mem_walk _)).1
    have hls : ∀ l ∈ ls, l.2.isSilent = false := fun l hl => (h.link hl).isSilent
    have hreadings : ls.map (Prod.map id (Filter.formula groupsFirst)) =
        ls.map (Prod.map id reading) := by
      apply List.map_congr_left
      intro l hl
      rw [Prod.map, ih l hl (h.link hl)]
      rfl
    rw [Filter.formula, chain?_of_property hp hls, hreadings, reading_eq]
    exact Formula.formula_extendAll _ _

/-! ## From left to right -/

/-- No `and` comes after an `or` in the links of a filter, at any depth. -/
def AndsFirst (f : Filter) : Prop :=
  ∀ g ∈ f.walk, g.links.Pairwise fun k l => ¬(k.1 = .or ∧ l.1 = .and)

instance (f : Filter) : Decidable f.AndsFirst :=
  inferInstanceAs (Decidable (∀ _ ∈ _, List.Pairwise _ _))

theorem AndsFirst.link {f : Filter} (h : f.AndsFirst) {l : Connective × Filter}
    (hl : l ∈ f.links) : l.2.AndsFirst :=
  (forall_mem_walk_iff.1 h).2 l hl

theorem holdsFrom_inOrder (v : Nat → Bool) (n : Nat) {ls : List (Connective × Filter)}
    (h : ∀ l ∈ ls, ∀ k, l.2.reading.holdsFrom v k = l.2.holdsFrom v k) (φ : Formula Filter) :
    (Formula.inOrder φ (ls.map (Prod.map id reading))).holdsFrom v n =
      linksHoldFrom v (φ.holdsFrom v n) (n + φ.atoms.length) ls := by
  induction ls generalizing φ with
  | nil => rfl
  | cons l ls ih =>
    obtain ⟨c, f⟩ := l
    rw [List.forall_mem_cons] at h
    show (Formula.inOrder (.join c φ f.reading) (ls.map _)).holdsFrom v n = _
    rw [ih h.2, linksHoldFrom, Formula.holdsFrom, Formula.atoms, List.length_append, h.1,
      length_atoms_reading, Nat.add_assoc]

/-- If its `and`s come first, a filter means what it means when its links are taken one after the
other. -/
theorem holdsFrom_reading {f : Filter} (h : f.AndsFirst) (v : Nat → Bool) (n : Nat) :
    f.reading.holdsFrom v n = f.holdsFrom v n := by
  induction f generalizing n with
  | node p c w t vi ls ih =>
    have hands : (ls.map (Prod.map id reading)).Pairwise fun u w => ¬(u.1 = .or ∧ w.1 = .and) :=
      List.pairwise_map.2 (h _ (self_mem_walk _))
    rw [reading_eq]
    show (ofChain _ (ls.map _)).holdsFrom v n = linksHoldFrom v (v n) (n + 1) ls
    rw [Formula.ofChain_eq_inOrder hands, holdsFrom_inOrder v n fun l hl k => ih l hl (h.link hl) k]
    rfl

/-! ## Several filters -/

/-- What some filters say that all have to hold. -/
def readingAll (f : Filter) (fs : List Filter) : Formula Filter :=
  joinAll .and f.reading (fs.map reading)

/-- The truth of filters that all have to hold, their walks being numbered on from `n`. -/
def allHoldFrom (v : Nat → Bool) (n : Nat) : List Filter → Bool
  | [] => true
  | f :: fs => f.holdsFrom v n && allHoldFrom v (n + f.walk.length) fs

theorem holdsFrom_joinAll_reading (v : Nat → Bool) (n : Nat) {fs : List Filter}
    (h : ∀ f ∈ fs, f.AndsFirst) (φ : Formula Filter) :
    (joinAll .and φ (fs.map reading)).holdsFrom v n =
      (φ.holdsFrom v n && allHoldFrom v (n + φ.atoms.length) fs) := by
  induction fs generalizing φ with
  | nil => simp [joinAll, allHoldFrom]
  | cons f fs ih =>
    rw [List.forall_mem_cons] at h
    show (joinAll .and (.join .and φ f.reading) (fs.map reading)).holdsFrom v n = _
    rw [ih h.2, Formula.holdsFrom, Formula.atoms, List.length_append, holdsFrom_reading h.1,
      length_atoms_reading, allHoldFrom, ← Nat.add_assoc, Connective.truth, Bool.and_assoc]

end Filter

/-! ## The conjunction of some filters -/

namespace Dialect

variable {d : Dialect}

/-- Tokens in parentheses. -/
def inParentheses (ts : List Token) : List Token := .opening :: (ts ++ [.closing])

/-- Tokens, and some more in parentheses that `and` joins to them. -/
def andAll (ts : List Token) (tss : List (List Token)) : List Token :=
  tss.foldl (fun us ts => us ++ .connective .and :: inParentheses ts) ts

theorem text_append (ts us : List Token) : d.text (ts ++ us) = d.text ts ++ d.text us := by
  simp [text, String.join_append]

theorem text_inParentheses (ts : List Token) :
    d.text (inParentheses ts) = "(" ++ d.text ts ++ ")" := by
  simp [text, inParentheses, String.join_cons, String.join_append, tokenText, String.append_assoc]

theorem text_andAll (ts : List Token) (tss : List (List Token)) :
    d.text (andAll ts tss) = Text.joinStrings (" " ++ d.word .and ++ " ")
      (d.text ts :: tss.map fun us => "(" ++ d.text us ++ ")") := by
  induction tss generalizing ts with
  | nil => simp [andAll, Text.joinStrings, Text.join]
  | cons us tss ih =>
    have htext : d.text (ts ++ .connective .and :: inParentheses us) =
        d.text ts ++ (" " ++ d.word .and ++ " ") ++ ("(" ++ d.text us ++ ")") := by
      rw [text_append, ← text_inParentheses]
      simp [text, String.join_cons, tokenText, String.append_assoc]
    show d.text (andAll (ts ++ .connective .and :: inParentheses us) tss) = _
    rw [ih, htext]
    cases tss with
    | nil => simp [Text.joinStrings, Text.join]
    | cons ws tss => simp [Text.joinStrings, Text.join]

/-- Parts that are read on their own are read as a conjunction. -/
theorem reads_andAll {ts : List Token} {φ : Formula String} {tss : List (List Token)}
    {φs : List (Formula String)} (h : Reads .conjunction ts φ)
    (hall : List.Forall₂ (Reads .disjunction) tss φs) :
    Reads .conjunction (andAll ts tss) (joinAll .and φ φs) := by
  induction hall generalizing ts φ with
  | nil => exact h
  | cons hpart _ ih => exact ih (.and h (.parentheses hpart))

end Dialect

/-- Where no condition is empty, none is left out of the conjunction. -/
theorem OData.conjunction_of_mapM {ι : Type} {family : Family ι} {m : Model ι} {fs : List Filter}
    {texts : List String} (h : fs.mapM (OData.condition family m) = .ok texts)
    (hne : ∀ s ∈ texts, s ≠ "") :
    OData.conjunction family m fs =
      .ok (if texts.isEmpty then none
        else some (Text.joinStrings " and " (texts.map fun s => "(" ++ s ++ ")"))) := by
  have hkept : texts.filter (fun s => !s.isEmpty) = texts := by
    rw [List.filter_eq_self]
    intro s hs
    simpa [String.isEmpty_iff] using hne s hs
  rw [conjunction, h, ok_bind, hkept]
  dsimp only
  rw [List.isEmpty_map]
  rfl

namespace Filter

open Dialect (andAll inParentheses)

variable {ι : Type} {family : Family ι} {m : Model ι}

/-- The tokens of a stated filter are read as what it says. -/
theorem Stated.reads (d : Dialect) {f : Filter} (h : f.Stated family m) :
    ∃ ts, d.tokens family m f = .ok ts ∧
      Reads .disjunction ts (f.reading.map (d.ownText family m)) := by
  obtain ⟨ts, hts, hwritten⟩ := Dialect.exists_tokens (d := d) h.resolves
  have hreads := hwritten.reads h.isSilent (h.noSilentLink.silentFirst d.groupsFirst)
  rw [h.formula] at hreads
  exact ⟨ts, hts, hreads⟩

/-- A stated filter is written, with at least one character, and read as what it says. -/
theorem Stated.exists_condition {d : Dialect} (hd : ∀ p k c v, d.compare p k c v ≠ "")
    {f : Filter} (h : f.Stated family m) :
    ∃ ts, d.condition family m f = .ok (d.text ts) ∧ d.text ts ≠ "" ∧
      Reads .disjunction ts (f.reading.map (d.ownText family m)) := by
  obtain ⟨ts, hts, hread⟩ := h.reads d
  refine ⟨ts, Dialect.condition_of_tokens d hts, ?_, hread⟩
  intro hempty
  exact hread.ne_nil ((Dialect.text_eq_empty_iff (Dialect.visible_tokens hd hts)).1 hempty)

/-- The conditions of stated filters: none of them is empty, and each is read as what its filter
says. -/
theorem exists_conditions {d : Dialect} (hd : ∀ p k c v, d.compare p k c v ≠ "")
    {fs : List Filter} (h : ∀ f ∈ fs, f.Stated family m) :
    ∃ tss, List.Forall₂ (fun f ts => d.condition family m f = .ok (d.text ts)) fs tss ∧
      (∀ ts ∈ tss, d.text ts ≠ "") ∧
      List.Forall₂ (fun f ts => Reads .disjunction ts (f.reading.map (d.ownText family m)))
        fs tss := by
  induction fs with
  | nil => exact ⟨[], .nil, by simp, .nil⟩
  | cons f fs ih =>
    rw [List.forall_mem_cons] at h
    obtain ⟨tss, htss, hne, hreads⟩ := ih h.2
    obtain ⟨ts, hts, htext, hread⟩ := h.1.exists_condition hd
    exact ⟨ts :: tss, .cons hts htss, List.forall_mem_cons.2 ⟨htext, hne⟩, .cons hread hreads⟩

/-- The OData condition of stated filters is read as the conjunction of what they say. -/
theorem conjunction_reads {f : Filter} {fs : List Filter}
    (h : ∀ g ∈ f :: fs, g.Stated family m) :
    ∃ text ts, OData.conjunction family m (f :: fs) = .ok (some text) ∧
      OData.dialect.text ts = text ∧
      Reads .disjunction ts ((readingAll f fs).map (OData.dialect.ownText family m)) := by
  obtain ⟨tss, htss, hne, hreads⟩ := exists_conditions OData.compare_ne_empty h
  have hmapM := mapM_of_forall₂ (List.forall₂_map_right_iff.2 htss)
  have hwritten := OData.conjunction_of_mapM hmapM (List.forall_mem_map.2 hne)
  obtain ⟨ts, tss, hread, htail, rfl⟩ := List.forall₂_cons_left_iff.1 hreads
  refine ⟨_, andAll (inParentheses ts) tss, ?_, rfl, ?_⟩
  · rw [hwritten, Dialect.text_andAll, Dialect.text_inParentheses]
    simp only [List.map_cons, List.map_map]
    rfl
  · rw [readingAll, Formula.map_joinAll, List.map_map]
    apply Reads.ofConjunction
    apply Dialect.reads_andAll (.ofUnit (.parentheses hread))
    exact List.forall₂_map_right_iff.2 htail.flip

/-- Filters that hold a condition at every depth are written as what they say: the OData condition
of all of them as the conjunction, and the Lucene condition of each of them as its own reading.
Without an `and` after an `or` this is what their links say from left to right. -/
theorem reads_stated {f : Filter} {fs : List Filter} (h : ∀ g ∈ f :: fs, g.Stated family m) :
    (∃ text ts, OData.conjunction family m (f :: fs) = .ok (some text) ∧
      OData.dialect.text ts = text ∧
      Reads .disjunction ts ((readingAll f fs).map (OData.dialect.ownText family m))) ∧
    (∀ g ∈ f :: fs, ∃ text ts, Lucene.condition family m g = .ok text ∧
      Lucene.dialect.tokens family m g = .ok ts ∧ Lucene.dialect.text ts = text ∧
      Reads .disjunction ts (g.reading.map (Lucene.dialect.ownText family m))) ∧
    ((∀ g ∈ f :: fs, g.AndsFirst) →
      ∀ v, (readingAll f fs).holds v = allHoldFrom v 0 (f :: fs)) ∧
    ∀ g ∈ f :: fs, g.AndsFirst → ∀ v, g.reading.holds v = g.holds v := by
  refine ⟨conjunction_reads h, ?_, ?_, ?_⟩
  · intro g hg
    obtain ⟨ts, hts, hread⟩ := (h g hg).reads Lucene.dialect
    exact ⟨_, ts, Dialect.condition_of_tokens _ hts, hts, rfl, hread⟩
  · intro hands v
    rw [List.forall_mem_cons] at hands
    rw [Formula.holds, readingAll, holdsFrom_joinAll_reading v 0 hands.2,
      holdsFrom_reading hands.1, length_atoms_reading]
    rfl
  · intro g _ hands v
    exact holdsFrom_reading hands v 0

/-- `IsActive and (Id or Id)`, in words of the storefront. -/
def activeOfTwo : Filter :=
  (condition "IsActive" .eq (.bool true)).link .and
    ((condition "Id" .eq (.text "a")).link .or (condition "Id" .eq (.text "b")))

/-- A group on the right side stands in parentheses, and so does each of two filters. -/
theorem reads_stated_activeOfTwo :
    (∀ g ∈ [activeOfTwo, condition "Stock" .gt (.int 7)],
      g.Stated Storefront.family (Storefront.family .product) ∧ g.AndsFirst) ∧
    ∃ ts, OData.dialect.text ts =
        "(IsActive eq true and (Id eq 'a' or Id eq 'b')) and (Stock gt 7)" ∧
      Reads .disjunction ts ((readingAll activeOfTwo [condition "Stock" .gt (.int 7)]).map
        (OData.dialect.ownText Storefront.family (Storefront.family .product))) ∧
      ∀ v, (readingAll activeOfTwo [condition "Stock" .gt (.int 7)]).holds v =
        allHoldFrom v 0 [activeOfTwo, condition "Stock" .gt (.int 7)] := by
  have h : ∀ g ∈ [activeOfTwo, condition "Stock" .gt (.int 7)],
      g.Stated Storefront.family (Storefront.family .product) ∧ g.AndsFirst := by decide
  have hwritten : OData.conjunction Storefront.family (Storefront.family .product)
      [activeOfTwo, condition "Stock" .gt (.int 7)] =
        .ok (some "(IsActive eq true and (Id eq 'a' or Id eq 'b')) and (Stock gt 7)") := by decide
  obtain ⟨⟨text, ts, htext, hts, hread⟩, -, hmeans, -⟩ := reads_stated fun g hg => (h g hg).1
  obtain rfl : _ = text := Option.some.inj (Except.ok.inj (hwritten.symm.trans htext))
  exact ⟨h, ts, hts, hread, hmeans fun g hg => (h g hg).2⟩

end Filter

end SearchDialect
