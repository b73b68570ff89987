import SearchDialect.Filter.Basic

/-!
# Formulas

Conditions joined by connectives, as a tree. The atoms of a formula are numbered from left to right
and its truth is told for every assignment of truth values to the numbers, so that two atoms of the
same text may differ.

A text without parentheses on the left side of a connective is not read as the tree it was written
from: `and` binds before `or`. `Formula.regroup` is the tree that such a text is read as, and
`holds_regroup_iff` says when it means the same as the one that was written: exactly when no
conjunction of the tree has a disjunction on its left side.
-/

namespace SearchDialect

/-- The truth of two joined conditions. -/
def Connective.truth : Connective → Bool → Bool → Bool
  | and, a, b => a && b
  | or, a, b => a || b

/-- Atoms joined by connectives. -/
inductive Formula (α : Type) where
  | atom (a : α)
  | join (c : Connective) (left right : Formula α)

namespace Formula

variable {α β : Type}

/-- The atoms of a formula from left to right. -/
def atoms : Formula α → List α
  | atom a => [a]
  | join _ l r => l.atoms ++ r.atoms

/-- The formula with other atoms in the same places. -/
def map (g : α → β) : Formula α → Formula β
  | atom a => atom (g a)
  | join c l r => join c (l.map g) (r.map g)

/-- The truth of a formula whose atoms are numbered from `n` on. -/
def holdsFrom (v : Nat → Bool) (n : Nat) : Formula α → Bool
  | atom _ => v n
  | join c l r => c.truth (l.holdsFrom v n) (r.holdsFrom v (n + l.atoms.length))

/-- The truth of a formula when its `i`-th atom from the left, counted from zero, is `v i`. -/
def holds (v : Nat → Bool) (φ : Formula α) : Bool := φ.holdsFrom v 0

/-- A disjunction at the top. -/
def isDisjunction : Formula α → Bool
  | join .or _ _ => true
  | _ => false

/-- No conjunction has a disjunction on its left side. -/
def NoLeftDisjunction : Formula α → Prop
  | atom _ => True
  | join .and l r => l.isDisjunction = false ∧ l.NoLeftDisjunction ∧ r.NoLeftDisjunction
  | join .or l r => l.NoLeftDisjunction ∧ r.NoLeftDisjunction

instance decidableNoLeftDisjunction : (φ : Formula α) → Decidable φ.NoLeftDisjunction
  | atom _ => isTrue trivial
  | join .and l r =>
    have := decidableNoLeftDisjunction l
    have := decidableNoLeftDisjunction r
    inferInstanceAs (Decidable (_ ∧ _ ∧ _))
  | join .or l r =>
    have := decidableNoLeftDisjunction l
    have := decidableNoLeftDisjunction r
    inferInstanceAs (Decidable (_ ∧ _))

/-! ## Groups -/

/-- A chain of conditions under precedence: the groups up to the last `or`, if there is one, and the
group after it. -/
structure Groups (α : Type) where
  before? : Option (Formula α)
  last : Formula α

/-- The formula of a chain: its groups joined by `or`. -/
def Groups.formula (s : Groups α) : Formula α :=
  match s.before? with
  | none => s.last
  | some φ => join .or φ s.last

/-- A chain with one more condition: `and` takes it into the last group, `or` opens a new one. -/
def Groups.extend (s : Groups α) : Connective → Formula α → Groups α
  | .and, φ => ⟨s.before?, join .and s.last φ⟩
  | .or, φ => ⟨some s.formula, φ⟩

/-- The chain of a formula whose right sides stand in parentheses and whose left sides do not. -/
def groups : Formula α → Groups α
  | atom a => ⟨none, atom a⟩
  | join c l r => l.groups.extend c r.groups.formula

/-- The formula as it is read when only right sides stand in parentheses. -/
def regroup (φ : Formula α) : Formula α := φ.groups.formula

theorem Groups.atoms_extend (s : Groups α) (c : Connective) (φ : Formula α) :
    (s.extend c φ).formula.atoms = s.formula.atoms ++ φ.atoms := by
  obtain ⟨before?, last⟩ := s
  cases before? <;> cases c <;> simp [extend, formula, atoms]

/-- Reading changes how the atoms are grouped, never which ones there are. -/
@[simp] theorem atoms_regroup (φ : Formula α) : φ.regroup.atoms = φ.atoms := by
  induction φ with
  | atom a => rfl
  | join c l r ihl ihr =>
    show (l.groups.extend c r.groups.formula).formula.atoms = l.atoms ++ r.atoms
    rw [Groups.atoms_extend]
    show l.regroup.atoms ++ r.regroup.atoms = l.atoms ++ r.atoms
    rw [ihl, ihr]

/-! ## Other atoms in the same places -/

@[simp] theorem atoms_map (g : α → β) (φ : Formula α) : (φ.map g).atoms = φ.atoms.map g := by
  induction φ with
  | atom a => rfl
  | join c l r ihl ihr => simp [map, atoms, ihl, ihr]

@[simp] theorem holdsFrom_map (g : α → β) (v : Nat → Bool) (φ : Formula α) (n : Nat) :
    (φ.map g).holdsFrom v n = φ.holdsFrom v n := by
  induction φ generalizing n with
  | atom a => rfl
  | join c l r ihl ihr => simp [map, holdsFrom, ihl, ihr]

/-- A chain with other atoms in the same places. -/
def Groups.map (g : α → β) (s : Groups α) : Groups β := ⟨s.before?.map (·.map g), s.last.map g⟩

theorem Groups.formula_map (g : α → β) (s : Groups α) : (s.map g).formula = s.formula.map g := by
  obtain ⟨before?, last⟩ := s
  cases before? <;> rfl

theorem Groups.extend_map (g : α → β) (s : Groups α) (c : Connective) (φ : Formula α) :
    (s.map g).extend c (φ.map g) = (s.extend c φ).map g := by
  cases c with
  | and => rfl
  | or =>
    simp only [extend, formula_map]
    rfl

theorem groups_map (g : α → β) (φ : Formula α) : (φ.map g).groups = φ.groups.map g := by
  induction φ with
  | atom a => rfl
  | join c l r ihl ihr =>
    simp only [map, groups, ihl, ihr, Groups.formula_map, Groups.extend_map]

/-- Reading does not look at the atoms. -/
theorem regroup_map (g : α → β) (φ : Formula α) : (φ.map g).regroup = φ.regroup.map g := by
  rw [regroup, groups_map, Groups.formula_map]
  rfl

/-! ## Assignments -/

/-- Only the numbers of a formula's own atoms matter. -/
theorem holdsFrom_congr {v w : Nat → Bool} (φ : Formula α) (n : Nat)
    (h : ∀ i, n ≤ i → i < n + φ.atoms.length → v i = w i) :
    φ.holdsFrom v n = φ.holdsFrom w n := by
  induction φ generalizing n with
  | atom a => exact h n (Nat.le_refl _) (by simp [atoms])
  | join c l r ihl ihr =>
    simp only [atoms, List.length_append] at h
    simp only [holdsFrom]
    rw [ihl n fun i hi hl => h i hi (by omega),
      ihr (n + l.atoms.length) fun i hi hr => h i (by omega) (by omega)]

/-- A formula whose atoms all have one truth value has that value itself. -/
@[simp] theorem holdsFrom_const (b : Bool) (φ : Formula α) (n : Nat) :
    φ.holdsFrom (fun _ => b) n = b := by
  induction φ generalizing n with
  | atom a => rfl
  | join c l r ihl ihr => cases c <;> simp [holdsFrom, Connective.truth, ihl, ihr]

/-- The first assignment below a number, the second one from there on. -/
def splice (k : Nat) (v w : Nat → Bool) (i : Nat) : Bool := if i < k then v i else w i

theorem holdsFrom_splice_left (v w : Nat → Bool) (φ : Formula α) {n k : Nat}
    (h : n + φ.atoms.length ≤ k) : φ.holdsFrom (splice k v w) n = φ.holdsFrom v n :=
  holdsFrom_congr φ n fun _ _ hi => if_pos (Nat.lt_of_lt_of_le hi h)

theorem holdsFrom_splice_right (v w : Nat → Bool) (φ : Formula α) {n k : Nat} (h : k ≤ n) :
    φ.holdsFrom (splice k v w) n = φ.holdsFrom w n :=
  holdsFrom_congr φ n fun _ hi _ => if_neg (Nat.not_lt.2 (Nat.le_trans h hi))

/-! ## When reading keeps the meaning -/

/-- A left side that is no disjunction is read as one group. -/
theorem before?_groups {φ : Formula α} (h : φ.NoLeftDisjunction) (hd : φ.isDisjunction = false) :
    φ.groups.before? = none := by
  induction φ with
  | atom a => rfl
  | join c l r ihl _ =>
    cases c with
    | and => exact ihl h.2.1 h.1
    | or => simp [isDisjunction] at hd

/-- Where no conjunction has a disjunction on its left side, the text is read as it was meant. -/
theorem regroup_eq {φ : Formula α} (h : φ.NoLeftDisjunction) : φ.regroup = φ := by
  induction φ with
  | atom a => rfl
  | join c l r ihl ihr =>
    cases c with
    | and =>
      have hl : l.regroup = l := ihl h.2.1
      have hr : r.regroup = r := ihr h.2.2
      have hb := before?_groups h.2.1 h.1
      have hlast : l.groups.last = l := by simpa [regroup, Groups.formula, hb] using hl
      simp only [regroup, groups, Groups.extend, Groups.formula, hb, hlast]
      exact congrArg _ hr
    | or =>
      show join .or l.regroup r.regroup = join .or l r
      rw [ihl h.1, ihr h.2]

/-- A disjunction is read as the disjunction of the two sides as they are read. -/
theorem holdsFrom_regroup_or (v : Nat → Bool) (n : Nat) (l r : Formula α) :
    (join .or l r).regroup.holdsFrom v n =
      (l.regroup.holdsFrom v n || r.regroup.holdsFrom v (n + l.atoms.length)) := by
  show (join .or l.regroup r.regroup).holdsFrom v n = _
  simp only [holdsFrom, Connective.truth, atoms_regroup]

/-- A conjunction is read as the groups before the last one of its left side, or that group and the
right side. -/
theorem holdsFrom_regroup_and (v : Nat → Bool) (n : Nat) (l r : Formula α) :
    (join .and l r).regroup.holdsFrom v n =
      match l.groups.before? with
      | none => l.regroup.holdsFrom v n && r.regroup.holdsFrom v (n + l.atoms.length)
      | some φ => φ.holdsFrom v n || (l.groups.last.holdsFrom v (n + φ.atoms.length) &&
          r.regroup.holdsFrom v (n + l.atoms.length)) := by
  have hl : l.regroup.atoms = l.atoms := atoms_regroup l
  simp only [regroup, Groups.formula] at hl ⊢
  simp only [groups, Groups.extend]
  cases hb : l.groups.before? with
  | none =>
    simp only [hb] at hl ⊢
    simp [holdsFrom, Connective.truth, hl, Groups.formula]
  | some φ =>
    simp only [hb, atoms] at hl ⊢
    simp [holdsFrom, Connective.truth, ← hl, Groups.formula, Nat.add_assoc]

/-- If reading keeps what two sides say together, it does so with an assignment for each of them. -/
theorem holdsFrom_sides {f : Bool → Bool → Bool} {l r : Formula α} {n : Nat}
    (h : ∀ v, f (l.regroup.holdsFrom v n) (r.regroup.holdsFrom v (n + l.atoms.length)) =
      f (l.holdsFrom v n) (r.holdsFrom v (n + l.atoms.length))) (v w : Nat → Bool) :
    f (l.regroup.holdsFrom v n) (r.regroup.holdsFrom w (n + l.atoms.length)) =
      f (l.holdsFrom v n) (r.holdsFrom w (n + l.atoms.length)) := by
  have hlreg : n + l.regroup.atoms.length ≤ n + l.atoms.length :=
    Nat.le_of_eq (by rw [atoms_regroup])
  have hv := h (splice (n + l.atoms.length) v w)
  rwa [holdsFrom_splice_left _ _ l.regroup hlreg, holdsFrom_splice_left _ _ l (Nat.le_refl _),
    holdsFrom_splice_right _ _ r.regroup (Nat.le_refl _),
    holdsFrom_splice_right _ _ r (Nat.le_refl _)] at hv

/-- Under a conjunction that is read as it was meant, the left side is read as one group: with all
atoms true on the left and false on the right, a group before the last one would make the reading
true, but the conjunction is false. -/
theorem before?_groups_of_holdsFrom {l r : Formula α} {n : Nat}
    (h : ∀ v, (join .and l r).regroup.holdsFrom v n = (join .and l r).holdsFrom v n) :
    l.groups.before? = none := by
  cases hb : l.groups.before? with
  | none => rfl
  | some φ =>
    have hlen : φ.atoms.length ≤ l.atoms.length := by
      have := congrArg List.length (atoms_regroup l)
      simp only [regroup, Groups.formula, hb, atoms, List.length_append] at this
      omega
    have hv := h (splice (n + l.atoms.length) (fun _ => true) fun _ => false)
    rw [holdsFrom_regroup_and, hb] at hv
    simp only [holdsFrom, Connective.truth] at hv
    rw [holdsFrom_splice_left _ _ φ (by omega), holdsFrom_splice_right _ _ r (Nat.le_refl _)] at hv
    simp at hv

/-- If reading keeps the truth of a formula under every assignment, then no conjunction has a
disjunction on its left side. -/
theorem noLeftDisjunction_of_holdsFrom {φ : Formula α} (n : Nat)
    (h : ∀ v, φ.regroup.holdsFrom v n = φ.holdsFrom v n) : φ.NoLeftDisjunction := by
  induction φ generalizing n with
  | atom a => trivial
  | join c l r ihl ihr =>
    cases c with
    | and =>
      -- The left side is one group, so each side is read by itself. An assignment that makes the
      -- other side true then tells what the reading of this one is.
      have hb := before?_groups_of_holdsFrom h
      have hand := holdsFrom_sides (f := fun a b => a && b) (l := l) (r := r) (n := n) fun v => by
        have hv := h v
        simpa only [holdsFrom_regroup_and, hb, holdsFrom, Connective.truth] using hv
      have hl : l.NoLeftDisjunction := by
        apply ihl n
        intro v
        simpa using hand v fun _ => true
      have hr : r.NoLeftDisjunction := by
        apply ihr
        intro w
        simpa using hand (fun _ => true) w
      refine ⟨?_, hl, hr⟩
      -- A disjunction has a group before its last one.
      match l, hb with
      | atom _, _ => rfl
      | join .and _ _, _ => rfl
    | or =>
      -- The same with an assignment that makes the other side false.
      have hor := holdsFrom_sides (f := fun a b => a || b) (l := l) (r := r) (n := n) fun v => by
        have hv := h v
        simpa only [holdsFrom_regroup_or, holdsFrom, Connective.truth] using hv
      constructor
      · apply ihl n
        intro v
        simpa using hor v fun _ => false
      · apply ihr
        intro w
        simpa using hor (fun _ => false) w

/-- Reading a text without parentheses on left sides keeps the meaning of a formula exactly when no
conjunction of it has a disjunction on its left side. -/
theorem holds_regroup_iff {φ : Formula α} :
    (∀ v, φ.regroup.holds v = φ.holds v) ↔ φ.NoLeftDisjunction := by
  constructor
  · exact noLeftDisjunction_of_holdsFrom 0
  · intro h v
    rw [regroup_eq h]

end Formula

end SearchDialect
