import SearchDialect.Lucene
import SearchDialect.OData
import SearchDialect.Proofs.Condition.Chain
import SearchDialect.Proofs.Condition.Reading
import SearchDialect.Proofs.Outcome

/-!
# What is written for a filter

A filter is written link by link, and a link that holds no condition may leave traces: the word of
its connective, or a pair of parentheses. Where it leaves none the tokens are read as the filter's
chain; else they are not read as anything (`Dialect.exists_tokens`).
-/

namespace SearchDialect

open Formula (Groups)

/-! ## Tokens that are not read as anything -/

namespace Progress

/-- Tokens after which a unit is still due, or which no reader takes. -/
def Unread (ts : List Token) : Prop :=
  ∀ outer, (due ⟨none, none⟩ outer).run ts = none ∨
    ∃ p, (due ⟨none, none⟩ outer).run ts = some (due p outer)

theorem unread_nil : Unread [] := fun _ => .inr ⟨⟨none, none⟩, rfl⟩

/-- Nothing closes a parenthesis where a unit is due. -/
theorem run_parentheses {ts : List Token} (h : Unread ts) (p : Pending) (outer : List Pending) :
    (due p outer).run (.opening :: (ts ++ [.closing])) = none := by
  show (due ⟨none, none⟩ (p :: outer)).run (ts ++ [.closing]) = none
  rw [run_append]
  rcases h (p :: outer) with h | ⟨q, h⟩
  · rw [h]; rfl
  · rw [h]; rfl

/-- No connective follows where a unit is due. -/
theorem Unread.connective {ts : List Token} (h : Unread ts) (c : Connective) (us : List Token) :
    Unread (ts ++ .connective c :: us) := by
  intro outer
  left
  rw [run_append]
  rcases h outer with h | ⟨q, h⟩
  · rw [h]; rfl
  · rw [h]; rfl

/-- After a chain and a connective a unit is due. -/
theorem run_connective {ts : List Token} {s : Groups String} (h : Chained ts s) (c : Connective)
    (us : List Token) (outer : List Pending) :
    ∃ p, (due ⟨none, none⟩ outer).run (ts ++ .connective c :: us) = (due p outer).run us := by
  obtain ⟨s, -, hs⟩ := h.reads.takes outer
  rw [run_append, hs]
  cases c with
  | and => exact ⟨_, rfl⟩
  | or => exact ⟨_, rfl⟩

end Progress

/-- Tokens that are there but are not read as anything. -/
structure Broken (ts : List Token) : Prop where
  ne_nil : ts ≠ []
  unread : Progress.Unread ts

theorem Broken.not_reads {ts : List Token} (h : Broken ts) (φ : Formula String) :
    ¬ Reads .disjunction ts φ := by
  intro hr
  obtain ⟨s, -, hs⟩ := hr.takes []
  rcases h.unread [] with hn | ⟨p, hp⟩
  · rw [hn] at hs; cases hs
  · rw [hp] at hs; cases hs

/-! ## Writing a filter -/

namespace Dialect

variable {ι : Type} (d : Dialect) (family : Family ι) (m : Model ι)

/-- The text of a filter's own comparison. -/
def ownText (f : Filter) : String :=
  match m.kindAt family f.property with
  | .ok k => d.compare f.property k f.comparison f.value
  | .error _ => ""

/-- Tokens that are read as a chain, or no tokens where there is none. -/
def Written (ts : List Token) : Option (Groups Filter) → Prop
  | none => ts = []
  | some s => Chained ts (s.map (d.ownText family m))

/-- What is written for a filter. -/
structure WrittenAs (f : Filter) (ts : List Token) : Prop where
  written : f.silentFirst d.groupsFirst = true →
    d.Written family m ts (f.chain? d.groupsFirst)
  broken : f.silentFirst d.groupsFirst = false → Broken ts
  unit : f.links = [] → ∀ s, f.chain? d.groupsFirst = some s →
    Reads .unit ts (s.formula.map (d.ownText family m))

variable {d family m}

theorem own_of_isBlank {f : Filter} (h : f.isBlank = true) :
    d.own family m f.property f.comparison f.value = .ok [] := by
  have h : f.property.isEmpty = true := h
  rw [own, if_pos h]

theorem own_of_kindAt {f : Filter} {k : Kind} (hb : f.isBlank = false)
    (h : m.kindAt family f.property = .ok k) :
    d.own family m f.property f.comparison f.value =
      .ok [.comparison (d.ownText family m f)] := by
  have hb : f.property.isEmpty = false := hb
  simp [own, hb, ownText, h, bind, Except.bind, pure, Except.pure]

theorem tokens_node (f : Filter) :
    d.tokens family m f = (do
      let ts ← d.own family m f.property f.comparison f.value
      d.linkTokens family m ts f.links) := by
  obtain ⟨p, c, v, t, vi, ls⟩ := f
  rw [tokens]
  rfl

/-- A link that leaves no trace, or extends the chain by what it holds. -/
theorem Written.linked {ts inner : List Token} {w? i? : Option (Groups Filter)}
    (h : d.Written family m ts w?) (hi : d.Written family m inner i?) (c : Connective)
    {hasLinks : Bool}
    (hsilent : i? = none → w? = none ∧ (d.groupsFirst && hasLinks) = false)
    (hunit : hasLinks = false → ∀ s, i? = some s →
      Reads .unit inner (s.formula.map (d.ownText family m))) :
    d.Written family m (d.linked ts c hasLinks inner) (Groups.addLink? d.groupsFirst w? c i?) := by
  cases i? with
  | none =>
    obtain ⟨rfl, hparens⟩ := hsilent rfl
    obtain rfl : ts = [] := h
    obtain rfl : inner = [] := hi
    show d.linked [] c hasLinks [] = []
    simp [Dialect.linked, Bool.and_comm hasLinks, hparens]
  | some s =>
    have hi : Chained inner (s.map (d.ownText family m)) := hi
    cases w? with
    | some w =>
      show Chained (d.linked ts c hasLinks inner) ((w.extend c s.formula).map _)
      rw [← Groups.extend_map, ← Groups.formula_map]
      apply d.chained_linked c h hi
      intro hb
      rw [Groups.formula_map]
      exact hunit hb s rfl
    | none =>
      obtain rfl : ts = [] := h
      show Chained (d.linked [] c hasLinks inner)
        ((if d.groupsFirst then ⟨none, s.formula⟩ else s : Groups Filter).map _)
      -- The first of a chain: its own groups, unless it stands in parentheses or is a unit.
      cases hg : d.groupsFirst with
      | false => simpa [Dialect.linked, hg] using hi
      | true =>
        have hreads := hi.reads
        rw [Groups.formula_map] at hreads
        cases hasLinks with
        | true =>
          have hlinked : d.linked [] c true inner = .opening :: (inner ++ [.closing]) := by
            simp [Dialect.linked, hg]
          rw [hlinked]
          exact Reads.ofUnit (.parentheses hreads)
        | false =>
          have hlinked : d.linked [] c false inner = inner := by simp [Dialect.linked]
          rw [hlinked]
          exact Reads.ofUnit (hunit rfl s rfl)

/-- Broken tokens stay broken. -/
theorem broken_linked {ts : List Token} (h : Broken ts) (c : Connective) (hasLinks : Bool)
    (inner : List Token) : Broken (d.linked ts c hasLinks inner) := by
  have hne : ts.isEmpty = false := List.isEmpty_eq_false_iff.2 h.ne_nil
  constructor
  · simp [linked, h.ne_nil]
  · simpa [linked, hne] using h.unread.connective c _

/-- Where a link is written of which nothing is read, tokens break: after a chain the connective
misses its right side, and parentheses hold nothing. -/
theorem broken_linked_unread {ts inner : List Token} {w? : Option (Groups Filter)}
    (h : d.Written family m ts w?) (c : Connective) {hasLinks : Bool}
    (hi : Progress.Unread inner) (hleaf : hasLinks = false → inner = [])
    (htrace : w? = none → inner ≠ [] ∨ (d.groupsFirst && hasLinks) = true) :
    Broken (d.linked ts c hasLinks inner) := by
  cases w? with
  | some w =>
    have h : Chained ts (w.map (d.ownText family m)) := h
    have hne : ts.isEmpty = false := List.isEmpty_eq_false_iff.2 h.reads.ne_nil
    refine ⟨by simp [linked, h.reads.ne_nil], ?_⟩
    intro outer
    cases hasLinks with
    | true =>
      obtain ⟨p, hp⟩ := Progress.run_connective h c (.opening :: (inner ++ [.closing])) outer
      left
      simpa [linked, hne, hp] using Progress.run_parentheses hi p outer
    | false =>
      obtain ⟨p, hp⟩ := Progress.run_connective h c [] outer
      obtain rfl := hleaf rfl
      right
      exact ⟨p, by simpa [linked, hne] using hp⟩
  | none =>
    obtain rfl : ts = [] := h
    cases hparens : hasLinks && d.groupsFirst with
    | true =>
      refine ⟨by simp [linked, hparens], ?_⟩
      intro outer
      left
      simpa [linked, hparens] using Progress.run_parentheses hi ⟨none, none⟩ outer
    | false =>
      have hne : inner ≠ [] := by
        rw [Bool.and_comm] at hparens
        simpa [hparens] using htrace rfl
      have hlinked : d.linked [] c hasLinks inner = inner := by simp [linked, hparens]
      rw [hlinked]
      exact ⟨hne, hi⟩

/-- Nothing is written for a silent filter that leaves no trace. -/
theorem WrittenAs.eq_nil {f : Filter} {ts : List Token} (h : d.WrittenAs family m f ts)
    (hs : f.isSilent = true) (hfirst : f.silentFirst d.groupsFirst = true) : ts = [] := by
  have hwritten := h.written hfirst
  rwa [Filter.chain?_eq_none_iff.2 hs] at hwritten

/-- Nothing is read of a filter that is silent or broken. -/
theorem WrittenAs.unread {f : Filter} {ts : List Token} (h : d.WrittenAs family m f ts)
    (hf : f.isSilent = true ∨ f.silentFirst d.groupsFirst = false) : Progress.Unread ts := by
  cases hs : f.silentFirst d.groupsFirst with
  | false => exact (h.broken hs).unread
  | true =>
    have hsilent : f.isSilent = true := by simpa [hs] using hf
    obtain rfl := h.eq_nil hsilent hs
    exact Progress.unread_nil

/-- A link that leaves no trace where it is silent extends the chain by what it holds. -/
theorem WrittenAs.linked {f : Filter} {ts inner : List Token} {w? : Option (Groups Filter)}
    (h : d.WrittenAs family m f inner) (hts : d.Written family m ts w?) (c : Connective)
    (hfirst : f.silentFirst d.groupsFirst = true)
    (hsilent : f.isSilent = true → w? = none ∧ (d.groupsFirst && !f.links.isEmpty) = false) :
    d.Written family m (d.linked ts c (!f.links.isEmpty) inner)
      (Groups.addLink? d.groupsFirst w? c (f.chain? d.groupsFirst)) := by
  apply hts.linked (h.written hfirst) c
  · intro hnone
    exact hsilent (Filter.chain?_eq_none_iff.1 hnone)
  · intro hleaf
    exact h.unit (by simpa using hleaf)

/-- A link that is broken, or silent but not without a trace, breaks the chain. -/
theorem WrittenAs.broken_linked {f : Filter} {ts inner : List Token} {w? : Option (Groups Filter)}
    (h : d.WrittenAs family m f inner) (hts : d.Written family m ts w?) (c : Connective)
    (hf : f.silentFirst d.groupsFirst = false ∨ f.isSilent = true ∧
      (w? = none → (d.groupsFirst && !f.links.isEmpty) = true)) :
    Broken (d.linked ts c (!f.links.isEmpty) inner) := by
  apply broken_linked_unread hts c (h.unread (by rcases hf with hf | hf <;> simp [hf]))
  · intro hleaf
    have hlinks : f.links = [] := by simpa using hleaf
    have hfirst := Filter.silentFirst_of_links d.groupsFirst hlinks
    have hsilent : f.isSilent = true := by
      rcases hf with hf | hf
      · rw [hfirst] at hf; cases hf
      · exact hf.1
    exact h.eq_nil hsilent hfirst
  · intro hnone
    rcases hf with hf | hf
    · exact .inl (h.broken hf).ne_nil
    · exact .inr (hf.2 hnone)

/-- Links after broken tokens mend nothing. -/
theorem exists_linkTokens_broken {ls : List (Connective × Filter)}
    (h : ∀ l ∈ ls, ∃ inner, d.tokens family m l.2 = .ok inner) {ts : List Token}
    (hts : Broken ts) : ∃ us, d.linkTokens family m ts ls = .ok us ∧ Broken us := by
  induction ls generalizing ts with
  | nil => exact ⟨ts, rfl, hts⟩
  | cons l ls ih =>
    obtain ⟨c, f⟩ := l
    rw [List.forall_mem_cons] at h
    obtain ⟨⟨inner, hinner⟩, hls⟩ := h
    obtain ⟨us, hus, hbroken⟩ := ih hls (Dialect.broken_linked hts c (!f.links.isEmpty) inner)
    refine ⟨us, ?_, hbroken⟩
    rw [linkTokens, hinner]
    exact hus

/-- Links extend the chain written before them if the silent ones leave no trace; else they break
it. -/
theorem exists_linkTokens {ls : List (Connective × Filter)}
    (h : ∀ l ∈ ls, ∃ inner, d.tokens family m l.2 = .ok inner ∧ d.WrittenAs family m l.2 inner)
    {ts : List Token} {w? : Option (Groups Filter)} (hts : d.Written family m ts w?) :
    ∃ us, d.linkTokens family m ts ls = .ok us ∧
      (Filter.linksSilentFirst d.groupsFirst w?.isSome ls = true →
        d.Written family m us (Filter.linksChain? d.groupsFirst w? ls)) ∧
      (Filter.linksSilentFirst d.groupsFirst w?.isSome ls = false → Broken us) := by
  induction ls generalizing ts w? with
  | nil => exact ⟨ts, rfl, fun _ => hts, fun hb => by cases hb⟩
  | cons l ls ih =>
    obtain ⟨c, f⟩ := l
    rw [List.forall_mem_cons] at h
    obtain ⟨⟨inner, hinner, hf⟩, hls⟩ := h
    rw [linkTokens, hinner, ok_bind]
    have hok := fun l hl => (hls l hl).imp fun _ => And.left
    -- Each case says what becomes of the link; the links after it follow by induction.
    have goOn (hlinked : d.Written family m (d.linked ts c (!f.links.isEmpty) inner)
        (Groups.addLink? d.groupsFirst w? c (f.chain? d.groupsFirst))) := ih hls hlinked
    have stop (hlinked : Broken (d.linked ts c (!f.links.isEmpty) inner)) :=
      exists_linkTokens_broken hok hlinked
    rw [Filter.isSome_addLink?, Filter.isSome_chain?] at goOn
    simp only [Filter.linksSilentFirst, Filter.linksChain?]
    cases hs : f.isSilent with
    | true =>
      rw [hs, Bool.not_true, Bool.or_false] at goOn
      cases htrace : w?.isSome || (d.groupsFirst && !f.links.isEmpty) with
      | false =>
        rw [Bool.or_eq_false_iff, Option.isSome_eq_false_iff, Option.isNone_iff_eq_none] at htrace
        have hfirst := Filter.silentFirst_of_isSilent hs htrace.2
        obtain ⟨us, hus, hgo⟩ := goOn (hf.linked hts c hfirst fun _ => htrace)
        refine ⟨us, hus, ?_⟩
        simpa [htrace] using hgo
      | true =>
        obtain ⟨us, hus, hbroken⟩ := stop <| hf.broken_linked hts c <| .inr ⟨hs, fun hw => by
          simpa [hw] using htrace⟩
        refine ⟨us, hus, ?_, fun _ => hbroken⟩
        intro hfirst
        rw [Bool.or_eq_true] at htrace
        rcases htrace with htrace | htrace
        · simp [htrace] at hfirst
        · simp [htrace] at hfirst
    | false =>
      rw [hs, Bool.not_false, Bool.or_true] at goOn
      cases hfirst : f.silentFirst d.groupsFirst with
      | true =>
        obtain ⟨us, hus, hgo⟩ := goOn <| hf.linked hts c hfirst fun hsilent => by
          simp [hs] at hsilent
        exact ⟨us, hus, by simpa using hgo⟩
      | false =>
        obtain ⟨us, hus, hbroken⟩ := stop (hf.broken_linked hts c (.inl hfirst))
        exact ⟨us, hus, by simp, fun _ => hbroken⟩

/-- A filter whose properties all lead to values is written. Its tokens are read as its chain if
links without a condition leave no trace, and are broken if one does. -/
theorem exists_tokens {f : Filter} (h : f.Resolves family m) :
    ∃ ts, d.tokens family m f = .ok ts ∧ d.WrittenAs family m f ts := by
  induction f with
  | node p c v t vi ls ih =>
    have hls : ∀ l ∈ ls, ∃ inner, d.tokens family m l.2 = .ok inner ∧
        d.WrittenAs family m l.2 inner := fun l hl => ih l hl (h.link hl)
    rw [tokens_node]
    cases hb : (Filter.node p c v t vi ls).isBlank with
    | true =>
      have hp : p.isEmpty = true := hb
      rw [own_of_isBlank hb, ok_bind]
      obtain ⟨us, hus, hchain, hbroken⟩ :=
        exists_linkTokens hls (show d.Written family m [] none from rfl)
      refine ⟨us, hus, ?_, ?_, ?_⟩
      · simpa [Filter.silentFirst, Filter.chain?, hp] using hchain
      · simpa [Filter.silentFirst, hp] using hbroken
      · rintro (rfl : ls = []) s hs
        simp [Filter.chain?, Filter.linksChain?, hp] at hs
    | false =>
      have hp : p.isEmpty = false := hb
      obtain ⟨k, hk⟩ := h _ (Filter.self_mem_walk _) hb
      rw [own_of_kindAt hb hk, ok_bind]
      have hown : d.Written family m [.comparison (d.ownText family m (.node p c v t vi ls))]
          (some ⟨none, .atom (.node p c v t vi [])⟩) := Reads.ofUnit (.comparison _)
      obtain ⟨us, hus, hchain, hbroken⟩ := exists_linkTokens hls hown
      refine ⟨us, hus, ?_, ?_, ?_⟩
      · simpa [Filter.silentFirst, Filter.chain?, hp] using hchain
      · simpa [Filter.silentFirst, hp] using hbroken
      · rintro (rfl : ls = []) s hs
        obtain rfl : [Token.comparison (d.ownText family m (.node p c v t vi []))] = us :=
          Except.ok.inj hus
        simp only [Filter.chain?, Filter.linksChain?, hp, Bool.false_eq_true, if_false,
          Option.some.injEq] at hs
        subst hs
        exact Reads.comparison _

/-- A written filter that holds a condition is read as its chain. -/
theorem WrittenAs.reads {f : Filter} {ts : List Token} (h : d.WrittenAs family m f ts)
    (hs : f.isSilent = false) (hfirst : f.silentFirst d.groupsFirst = true) :
    Reads .disjunction ts ((f.formula d.groupsFirst).map (d.ownText family m)) := by
  obtain ⟨s, hchain, hformula⟩ := Filter.exists_chain? d.groupsFirst hs
  have hwritten := h.written hfirst
  rw [hchain] at hwritten
  have hreads := Chained.reads hwritten
  rwa [Formula.Groups.formula_map, hformula] at hreads

/-! ## Texts -/

/-- Tokens of which each has a text. -/
def Visible (d : Dialect) (ts : List Token) : Prop := ∀ t ∈ ts, d.tokenText t ≠ ""

theorem text_eq_empty_iff {ts : List Token} (h : d.Visible ts) : d.text ts = "" ↔ ts = [] := by
  cases ts with
  | nil => simp [text]
  | cons t ts =>
    have ht := h t List.mem_cons_self
    simp [text, String.join_cons, String.append_eq_empty_iff, ht]

theorem Visible.linked {ts inner : List Token} (hts : d.Visible ts) (hi : d.Visible inner)
    (c : Connective) (hasLinks : Bool) : d.Visible (d.linked ts c hasLinks inner) := by
  have hunit : d.Visible (.opening :: (inner ++ [.closing])) := by
    intro t ht
    simp only [List.mem_cons, List.mem_append, List.not_mem_nil, or_false] at ht
    rcases ht with rfl | ht | rfl
    · simp [tokenText]
    · exact hi t ht
    · simp [tokenText]
  intro t ht
  simp only [Dialect.linked, List.mem_append] at ht
  rcases ht with (ht | ht) | ht
  · exact hts t ht
  · split at ht
    · obtain rfl : t = .connective c := by simpa using ht
      simp [tokenText, String.append_eq_empty_iff]
    · simp at ht
  · split at ht
    · exact hunit t ht
    · exact hi t ht

theorem visible_linkTokens {ls : List (Connective × Filter)}
    (h : ∀ l ∈ ls, ∀ inner, d.tokens family m l.2 = .ok inner → d.Visible inner)
    {ts us : List Token} (hts : d.Visible ts) (hus : d.linkTokens family m ts ls = .ok us) :
    d.Visible us := by
  induction ls generalizing ts with
  | nil =>
    obtain rfl : ts = us := Except.ok.inj hus
    exact hts
  | cons l ls ih =>
    obtain ⟨c, f⟩ := l
    rw [List.forall_mem_cons] at h
    rw [linkTokens] at hus
    cases hf : d.tokens family m f with
    | error e => rw [hf] at hus; cases hus
    | ok inner =>
      rw [hf, ok_bind] at hus
      exact ih h.2 (hts.linked (h.1 inner hf) c _) hus

/-- If every comparison has a text, then so has every token that is written. -/
theorem visible_tokens (hd : ∀ p k c v, d.compare p k c v ≠ "") {f : Filter} {ts : List Token}
    (h : d.tokens family m f = .ok ts) : d.Visible ts := by
  induction f generalizing ts with
  | node p c v t vi ls ih =>
    rw [tokens] at h
    cases hown : d.own family m p c v with
    | error e => rw [hown] at h; cases h
    | ok written =>
      rw [hown, ok_bind] at h
      refine visible_linkTokens (fun l hl _ => ih l hl) ?_ h
      rw [own] at hown
      split at hown
      · obtain rfl := Except.ok.inj hown
        intro t ht
        cases ht
      · cases hk : m.kindAt family p with
        | error e => rw [hk] at hown; cases hown
        | ok k =>
          rw [hk, ok_bind] at hown
          obtain rfl := Except.ok.inj hown
          intro t ht
          obtain rfl : t = .comparison (d.compare p k c v) := by simpa using ht
          exact hd p k c v

end Dialect

theorem OData.compare_ne_empty (p : String) (k : Kind) (c : Comparison) (v : Literal) :
    OData.dialect.compare p k c v ≠ "" := by
  simp [OData.dialect, String.append_eq_empty_iff]

theorem Lucene.compare_ne_empty (p : String) (k : Kind) (c : Comparison) (v : Literal) :
    Lucene.dialect.compare p k c v ≠ "" := by
  have htime (w : String) : compareTime p c w ≠ "" := by
    cases c <;> simp [compareTime, String.append_eq_empty_iff]
  have hbare : compareBare p k c v ≠ "" := by
    rw [compareBare]
    split
    · simp [String.append_eq_empty_iff]
    · split
      · exact htime _
      · cases c <;> simp [operator, String.append_eq_empty_iff]
  show Lucene.compare p k c v ≠ ""
  rw [Lucene.compare]
  split
  · simp [String.append_eq_empty_iff]
  · exact hbare

end SearchDialect
