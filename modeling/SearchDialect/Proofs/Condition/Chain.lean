import SearchDialect.Proofs.Filter.Tree

/-!
# The chain of a filter

A filter joins its own condition and its links to a chain, and a link that stands first may keep its
own groups or be one group (`Filter.chain?`). Links that hold no condition are no part of the chain.
Where all links hold one, the chain is the first unit extended by the others
(`Filter.linksChain?_some`). `Filter.silentFirst` says where links without a condition stand so that
they can be written without a trace.
-/

namespace SearchDialect

open Formula (Groups)

/-! ## Chains of links -/

namespace Formula

/-- A chain with one more link, if the link holds anything. A link at the beginning is one group, or
begins the chain with its own groups. -/
def Groups.addLink? {α : Type} (groupsFirst : Bool) :
    Option (Groups α) → Connective → Option (Groups α) → Option (Groups α)
  | written?, _, none => written?
  | none, _, some s => some (if groupsFirst then ⟨none, s.formula⟩ else s)
  | some s, c, some t => some (s.extend c t.formula)

/-- A chain with some more units. -/
def Groups.extendAll {α : Type} (s : Groups α) (us : List (Connective × Formula α)) : Groups α :=
  us.foldl (fun s u => s.extend u.1 u.2) s

end Formula

namespace Filter

section

variable (groupsFirst : Bool)

mutual

/-- The chain of the conditions that a filter holds, if there are any. -/
def chain? : Filter → Option (Groups Filter)
  | node p c v t vi ls =>
    linksChain? (if p.isEmpty then none else some ⟨none, .atom (node p c v t vi [])⟩) ls

/-- A chain with some more links. -/
def linksChain? (written? : Option (Groups Filter)) :
    List (Connective × Filter) → Option (Groups Filter)
  | [] => written?
  | (c, f) :: ls => linksChain? (Groups.addLink? groupsFirst written? c (chain? f)) ls

end

/-- The conditions that a filter holds, joined as they are read. A filter that holds none stands for
itself. -/
def formula (f : Filter) : Formula Filter :=
  match f.chain? groupsFirst with
  | none => .atom f.alone
  | some s => s.formula

mutual

/-- Links that hold no condition come before everything that does, at every depth; where a chain may
begin with parentheses, they have no links of their own. -/
def silentFirst : Filter → Bool
  | node p _ _ _ _ ls => linksSilentFirst (!p.isEmpty) ls

/-- The same for some links, if a condition has been written before them or not. -/
def linksSilentFirst (started : Bool) : List (Connective × Filter) → Bool
  | [] => true
  | (_, f) :: ls =>
    if f.isSilent then
      !started && !(groupsFirst && !f.links.isEmpty) && linksSilentFirst started ls
    else silentFirst f && linksSilentFirst true ls

end

variable {groupsFirst}

theorem isSome_addLink? {α : Type} (w? i? : Option (Groups α)) (c : Connective) :
    (Groups.addLink? groupsFirst w? c i?).isSome = (w?.isSome || i?.isSome) := by
  cases w? <;> cases i? <;> rfl

theorem isSome_linksChain? (ls : List (Connective × Filter)) (w? : Option (Groups Filter))
    (h : ∀ l ∈ ls, (l.2.chain? groupsFirst).isSome = !l.2.isSilent) :
    (linksChain? groupsFirst w? ls).isSome = (w?.isSome || !ls.all fun l => l.2.isSilent) := by
  induction ls generalizing w? with
  | nil => simp [linksChain?]
  | cons l ls ih =>
    obtain ⟨c, f⟩ := l
    rw [List.forall_mem_cons] at h
    rw [linksChain?, ih _ h.2, isSome_addLink?, h.1, List.all_cons, Bool.or_assoc, Bool.not_and]

/-- There is a chain exactly where a filter holds a condition. -/
theorem isSome_chain? (f : Filter) : (f.chain? groupsFirst).isSome = !f.isSilent := by
  induction f with
  | node p c v t vi ls ih =>
    rw [chain?, isSome_linksChain? _ _ ih, isSilent_eq]
    show _ = !(p.isEmpty && ls.all fun l => l.2.isSilent)
    cases p.isEmpty <;> simp

theorem chain?_eq_none_iff {f : Filter} : f.chain? groupsFirst = none ↔ f.isSilent = true := by
  rw [← Option.isNone_iff_eq_none, ← Option.not_isSome, isSome_chain?, Bool.not_not]

theorem exists_chain? (groupsFirst : Bool) {f : Filter} (h : f.isSilent = false) :
    ∃ s, f.chain? groupsFirst = some s ∧ s.formula = f.formula groupsFirst := by
  cases hs : f.chain? groupsFirst with
  | none => rw [chain?_eq_none_iff.1 hs] at h; cases h
  | some s => exact ⟨s, rfl, by rw [formula, hs]⟩

/-- After a condition, links that all hold one extend the chain by their formulas. -/
theorem linksChain?_some {ls : List (Connective × Filter)} (h : ∀ l ∈ ls, l.2.isSilent = false)
    (s : Groups Filter) :
    linksChain? groupsFirst (some s) ls =
      some (s.extendAll (ls.map (Prod.map id (formula groupsFirst)))) := by
  induction ls generalizing s with
  | nil => rfl
  | cons l ls ih =>
    obtain ⟨c, f⟩ := l
    rw [List.forall_mem_cons] at h
    obtain ⟨t, ht, hformula⟩ := exists_chain? groupsFirst h.1
    rw [linksChain?, ht]
    show linksChain? groupsFirst (some (s.extend c t.formula)) ls = _
    rw [ih h.2, hformula]
    rfl

/-- A filter with a property whose links all hold a condition is its own condition extended by
them. -/
theorem chain?_of_property {p : String} (hp : p.isEmpty = false) {c : Comparison} {v : Literal}
    {t : Option String} {vi : Bool} {ls : List (Connective × Filter)}
    (h : ∀ l ∈ ls, l.2.isSilent = false) :
    (node p c v t vi ls).chain? groupsFirst =
      some (Groups.extendAll ⟨none, .atom (node p c v t vi [])⟩
        (ls.map (Prod.map id (formula groupsFirst)))) := by
  rw [chain?, hp, if_neg Bool.false_ne_true, linksChain?_some h]

/-- Without a property it is its first link extended by the others. -/
theorem chain?_of_head {p : String} (hp : p.isEmpty = true) {c : Comparison} {v : Literal}
    {t : Option String} {vi : Bool} {k : Connective} {g : Filter} {s : Groups Filter}
    (hs : g.chain? groupsFirst = some s) {ls : List (Connective × Filter)}
    (h : ∀ l ∈ ls, l.2.isSilent = false) :
    (node p c v t vi ((k, g) :: ls)).chain? groupsFirst =
      some (Groups.extendAll (if groupsFirst then ⟨none, s.formula⟩ else s)
        (ls.map (Prod.map id (formula groupsFirst)))) := by
  rw [chain?, hp, if_pos rfl, linksChain?, hs]
  exact linksChain?_some h _

/-! ## The conditions of a chain -/

/-- The atoms of a chain, if there is one. -/
def chainAtoms : Option (Groups Filter) → List Filter
  | none => []
  | some s => s.formula.atoms

theorem chainAtoms_addLink? (w? i? : Option (Groups Filter)) (c : Connective) :
    chainAtoms (Groups.addLink? groupsFirst w? c i?) = chainAtoms w? ++ chainAtoms i? := by
  cases i? with
  | none => simp [Groups.addLink?, chainAtoms]
  | some t =>
    cases w? with
    | none => cases groupsFirst <;> rfl
    | some s => exact Groups.atoms_extend s c t.formula

theorem chainAtoms_linksChain? (ls : List (Connective × Filter)) (w? : Option (Groups Filter))
    (h : ∀ l ∈ ls, chainAtoms (l.2.chain? groupsFirst) = l.2.conditions) :
    chainAtoms (linksChain? groupsFirst w? ls) =
      chainAtoms w? ++ ls.flatMap fun l => l.2.conditions := by
  induction ls generalizing w? with
  | nil => simp [linksChain?]
  | cons l ls ih =>
    obtain ⟨c, f⟩ := l
    rw [List.forall_mem_cons] at h
    rw [linksChain?, ih _ h.2, chainAtoms_addLink?, h.1, List.append_assoc, List.flatMap_cons]

/-- A chain holds the conditions of the filter in the order of its walk. -/
theorem chainAtoms_chain? (groupsFirst : Bool) (f : Filter) :
    chainAtoms (f.chain? groupsFirst) = f.conditions := by
  induction f with
  | node p c v t vi ls ih =>
    rw [chain?, chainAtoms_linksChain? _ _ ih, conditions_eq]
    show _ = (if p.isEmpty then [] else [node p c v t vi []]) ++ _
    cases p.isEmpty <;> rfl

theorem atoms_formula {f : Filter} (h : f.isSilent = false) :
    (f.formula groupsFirst).atoms = f.conditions := by
  obtain ⟨s, hs, hformula⟩ := exists_chain? groupsFirst h
  rw [← chainAtoms_chain? groupsFirst, hs, ← hformula]
  rfl

/-! ## Links that leave no trace -/

theorem silentFirst_of_links (groupsFirst : Bool) {f : Filter} (h : f.links = []) :
    f.silentFirst groupsFirst = true := by
  obtain ⟨p, c, v, t, vi, ls⟩ := f
  obtain rfl : ls = [] := h
  rfl

/-- Where no chain begins with parentheses, a filter that holds no condition leaves no trace. -/
theorem silentFirst_inline {f : Filter} (h : f.isSilent = true) : f.silentFirst false = true := by
  have links (ls : List (Connective × Filter)) (hls : ls.all (fun l => l.2.isSilent) = true) :
      linksSilentFirst false false ls = true := by
    induction ls with
    | nil => rfl
    | cons l ls ih =>
      obtain ⟨c, g⟩ := l
      rw [List.all_cons, Bool.and_eq_true] at hls
      simp [linksSilentFirst, hls.1, ih hls.2]
  obtain ⟨p, c, v, t, vi, ls⟩ := f
  rw [isSilent_eq, Bool.and_eq_true] at h
  have hp : p.isEmpty = true := h.1
  rw [silentFirst, hp]
  exact links ls h.2

/-- Else it leaves no trace if it has no links. -/
theorem silentFirst_of_isSilent {f : Filter} (h : f.isSilent = true)
    (hparens : (groupsFirst && !f.links.isEmpty) = false) : f.silentFirst groupsFirst = true := by
  rw [Bool.and_eq_false_iff, Bool.not_eq_false', List.isEmpty_iff] at hparens
  rcases hparens with rfl | hlinks
  · exact silentFirst_inline h
  · exact silentFirst_of_links _ hlinks

theorem linksSilentFirst_of_forall {ls : List (Connective × Filter)}
    (h : ∀ l ∈ ls, l.2.isSilent = false ∧ l.2.silentFirst groupsFirst = true) (started : Bool) :
    linksSilentFirst groupsFirst started ls = true := by
  induction ls generalizing started with
  | nil => rfl
  | cons l ls ih =>
    obtain ⟨c, f⟩ := l
    rw [List.forall_mem_cons] at h
    rw [linksSilentFirst, h.1.1, if_neg Bool.false_ne_true, h.1.2, ih h.2]
    rfl

end

/-- Every link, at every depth, holds a condition. -/
def NoSilentLink (f : Filter) : Prop := ∀ g ∈ f.walk, ∀ l ∈ g.links, l.2.isSilent = false

instance (f : Filter) : Decidable f.NoSilentLink :=
  inferInstanceAs (Decidable (∀ _ ∈ _, ∀ _ ∈ _, _ = _))

theorem noSilentLink_iff {f : Filter} :
    f.NoSilentLink ↔ ∀ l ∈ f.links, l.2.isSilent = false ∧ l.2.NoSilentLink := by
  rw [NoSilentLink, forall_mem_walk_iff]
  constructor
  · rintro ⟨hsilent, hlinks⟩ l hl
    exact ⟨hsilent l hl, hlinks l hl⟩
  · intro h
    exact ⟨fun l hl => (h l hl).1, fun l hl => (h l hl).2⟩

/-- A filter in which every link holds a condition leaves no trace of one that does not. -/
theorem NoSilentLink.silentFirst {f : Filter} (h : f.NoSilentLink) (groupsFirst : Bool) :
    f.silentFirst groupsFirst = true := by
  induction f with
  | node p c v t vi ls ih =>
    rw [noSilentLink_iff] at h
    exact linksSilentFirst_of_forall (fun l hl => ⟨(h l hl).1, ih l hl (h l hl).2⟩) _

end Filter

end SearchDialect
