import SearchDialect.Model.Path
import SearchDialect.Proofs.Condition.Formula
import SearchDialect.Proofs.Outcome

/-!
# Filters as trees

Induction over a filter and the filters that its links lead to, the conditions that it holds in the
order of its walk, and its truth: a filter starts from its own condition and takes its links one
after the other (`Filter.holds`). One more link on a filter is one more step at the end
(`holdsFrom_link`).
-/

namespace SearchDialect

namespace Filter

/-- Induction over a filter and the filters that its links lead to. -/
@[elab_as_elim, induction_eliminator]
theorem inductionOnLinks {motive : Filter → Prop}
    (node : ∀ p c v t vi ls, (∀ l ∈ ls, motive l.2) → motive (.node p c v t vi ls))
    (f : Filter) : motive f := by
  cases f with
  | node p c v t vi ls =>
    refine node p c v t vi ls fun l hl => ?_
    have hlt := List.sizeOf_lt_of_mem hl
    have hle : sizeOf l.2 < sizeOf l := by
      obtain ⟨k, g⟩ := l
      simp only [Prod.mk.sizeOf_spec]
      omega
    exact inductionOnLinks node l.2
termination_by sizeOf f
decreasing_by
  simp
  omega

/-! ## The walk -/

theorem walkLinks_eq (ls : List (Connective × Filter)) :
    walkLinks ls = ls.flatMap fun l => l.2.walk := by
  induction ls with
  | nil => rfl
  | cons l ls ih =>
    obtain ⟨c, f⟩ := l
    rw [walkLinks, ih]
    rfl

theorem walk_eq (f : Filter) : f.walk = f :: f.links.flatMap fun l => l.2.walk := by
  obtain ⟨p, c, v, t, vi, ls⟩ := f
  rw [walk, walkLinks_eq]
  rfl

theorem self_mem_walk (f : Filter) : f ∈ f.walk := by
  rw [walk_eq]
  exact List.mem_cons_self

/-- What holds at every depth holds of the filter itself and at every depth of its links. -/
theorem forall_mem_walk_iff {P : Filter → Prop} {f : Filter} :
    (∀ g ∈ f.walk, P g) ↔ P f ∧ ∀ l ∈ f.links, ∀ g ∈ l.2.walk, P g := by
  rw [walk_eq, List.forall_mem_cons, List.forall_mem_flatMap]

/-- One more link is walked through after everything else. -/
theorem walk_link (f : Filter) (c : Connective) (g : Filter) :
    (f.link c g).walk = f.link c g :: (f.walk.tail ++ g.walk) := by
  rw [walk_eq (f.link c g), walk_eq f]
  simp [link, links]

/-! ## Conditions -/

/-- A filter's own condition, without its links. -/
def alone (f : Filter) : Filter := node f.property f.comparison f.value f.tag? f.visible []

/-- The conditions that a filter holds, in the order of its walk. -/
def conditions (f : Filter) : List Filter := (f.walk.filter fun g => !g.isBlank).map alone

/-- Whether no condition is held at any depth. -/
def isSilent (f : Filter) : Bool := f.walk.all isBlank

theorem conditions_eq (f : Filter) :
    f.conditions = (if f.isBlank then [] else [f.alone]) ++
      f.links.flatMap fun l => l.2.conditions := by
  simp only [conditions, walk_eq f, List.filter_cons, List.filter_flatMap]
  cases f.isBlank <;> simp [List.map_flatMap]

theorem isSilent_eq (f : Filter) :
    f.isSilent = (f.isBlank && f.links.all fun l => l.2.isSilent) := by
  rw [isSilent, walk_eq, List.all_cons, List.all_flatMap]
  rfl

theorem conditions_eq_nil_iff {f : Filter} : f.conditions = [] ↔ f.isSilent = true := by
  simp [conditions, isSilent]

section

variable {ι : Type} (family : Family ι) (m : Model ι)

/-- Every property that a filter names, at any depth, leads to a value of the model. -/
def Resolves (f : Filter) : Prop :=
  ∀ g ∈ f.walk, g.isBlank = false → ∃ k, m.kindAt family g.property = .ok k

instance (f : Filter) : Decidable (f.Resolves family m) :=
  inferInstanceAs (Decidable (∀ _ ∈ _, _ → ∃ _, _ = _))

variable {family m}

/-- Only the conditions matter. -/
theorem resolves_iff {f : Filter} :
    f.Resolves family m ↔ ∀ g ∈ f.conditions, ∃ k, m.kindAt family g.property = .ok k := by
  constructor
  · intro h g hg
    obtain ⟨f', hf', rfl⟩ := List.mem_map.1 hg
    obtain ⟨hwalk, hblank⟩ := List.mem_filter.1 hf'
    exact h f' hwalk (by simpa using hblank)
  · intro h g hg hblank
    have hmem : g ∈ f.walk.filter fun g => !g.isBlank := List.mem_filter.2 ⟨hg, by simp [hblank]⟩
    exact h g.alone (List.mem_map_of_mem hmem)

theorem Resolves.link {f : Filter} (h : f.Resolves family m) {l : Connective × Filter}
    (hl : l ∈ f.links) : l.2.Resolves family m :=
  (forall_mem_walk_iff.1 h).2 l hl

end

/-! ## Truth -/

mutual

/-- The truth of a filter whose walk is numbered from `n` on: that of its own condition, joined with
its links. -/
def holdsFrom (v : Nat → Bool) (n : Nat) : Filter → Bool
  | node _ _ _ _ _ ls => linksHoldFrom v (v n) (n + 1) ls

/-- A truth value joined with some links, one after the other. -/
def linksHoldFrom (v : Nat → Bool) (b : Bool) (n : Nat) : List (Connective × Filter) → Bool
  | [] => b
  | (c, f) :: ls => linksHoldFrom v (c.truth b (holdsFrom v n f)) (n + f.walk.length) ls

end

/-- The truth of a filter when the condition of the `i`-th filter of its walk, counted from zero, is
`v i`. -/
def holds (v : Nat → Bool) (f : Filter) : Bool := f.holdsFrom v 0

theorem linksHoldFrom_append (v : Nat → Bool) (b : Bool) (n : Nat)
    (ls ks : List (Connective × Filter)) :
    linksHoldFrom v b n (ls ++ ks) =
      linksHoldFrom v (linksHoldFrom v b n ls) (n + (walkLinks ls).length) ks := by
  induction ls generalizing b n with
  | nil => simp [linksHoldFrom, walkLinks]
  | cons l ls ih =>
    obtain ⟨c, f⟩ := l
    simp only [List.cons_append, linksHoldFrom, walkLinks, List.length_append]
    rw [ih, Nat.add_assoc]

/-- One more link is joined after everything else. -/
theorem holdsFrom_link (v : Nat → Bool) (n : Nat) (f : Filter) (c : Connective) (g : Filter) :
    (f.link c g).holdsFrom v n =
      c.truth (f.holdsFrom v n) (g.holdsFrom v (n + f.walk.length)) := by
  obtain ⟨p, k, w, t, vi, ls⟩ := f
  show linksHoldFrom v (v n) (n + 1) (ls ++ [(c, g)]) = _
  rw [linksHoldFrom_append]
  simp only [linksHoldFrom, holdsFrom, walk, List.length_cons]
  rw [Nat.add_right_comm, Nat.add_assoc]

end Filter

end SearchDialect
