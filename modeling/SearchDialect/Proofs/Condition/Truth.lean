import SearchDialect.Proofs.Condition.Chain

/-!
# Formulas with the same truth

Two formulas of as many atoms have the same truth if they are true under the same assignments. As
every atom has a number of its own, an assignment can make one side of a connective leave the truth
to the other, so formulas joined in the same way have the same truth only if their sides do
(`sameTruth_join_iff`). Two chains that take the same links go apart at one place only: where an
`and` comes and one of them has an open group after an `or` while the other has not
(`sameTruth_extendAll_iff`).
-/

namespace SearchDialect

/-- The truth value that leaves the truth to the other side. -/
def Connective.neutral : Connective → Bool
  | and => true
  | or => false

@[simp] theorem Connective.truth_neutral_left (c : Connective) (b : Bool) :
    c.truth c.neutral b = b := by
  cases c <;> rfl

@[simp] theorem Connective.truth_neutral_right (c : Connective) (b : Bool) :
    c.truth b c.neutral = b := by
  cases c <;> simp [truth, neutral]

namespace Formula

variable {α β : Type}

/-- Formulas of as many atoms, true under the same assignments whatever number comes first. -/
structure SameTruth (φ ψ : Formula α) : Prop where
  length_eq : φ.atoms.length = ψ.atoms.length
  holdsFrom_eq : ∀ v n, φ.holdsFrom v n = ψ.holdsFrom v n

theorem SameTruth.refl (φ : Formula α) : SameTruth φ φ := ⟨rfl, fun _ _ => rfl⟩

theorem holdsFrom_add (v : Nat → Bool) (φ : Formula α) (n k : Nat) :
    φ.holdsFrom v (n + k) = φ.holdsFrom (fun i => v (i + k)) n := by
  induction φ generalizing n with
  | atom a => rfl
  | join c l r ihl ihr =>
    rw [holdsFrom, holdsFrom, ihl, Nat.add_right_comm, ihr]

/-- It is enough to count from zero. -/
theorem sameTruth_iff {φ ψ : Formula α} (h : φ.atoms.length = ψ.atoms.length) :
    SameTruth φ ψ ↔ ∀ v, φ.holds v = ψ.holds v := by
  constructor
  · intro hsame v
    exact hsame.holdsFrom_eq v 0
  · intro hholds
    refine ⟨h, ?_⟩
    intro v n
    rw [← Nat.zero_add n, holdsFrom_add, holdsFrom_add]
    exact hholds _

/-- Formulas joined by the same connective have the same truth exactly if their sides do. -/
theorem sameTruth_join_iff {c : Connective} {l r l' r' : Formula α}
    (hl : l.atoms.length = l'.atoms.length) (hr : r.atoms.length = r'.atoms.length) :
    SameTruth (join c l r) (join c l' r') ↔ SameTruth l l' ∧ SameTruth r r' := by
  constructor
  · intro h
    rw [sameTruth_iff hl, sameTruth_iff hr]
    -- The atoms of the other side are set to what leaves the truth to this one.
    constructor
    · intro v
      have hv := h.holdsFrom_eq (splice l.atoms.length v fun _ => c.neutral) 0
      simp only [holdsFrom, ← hl] at hv
      rwa [holdsFrom_splice_left v _ l (by simp), holdsFrom_splice_left v _ l' (by simp [hl]),
        holdsFrom_splice_right v _ r (by simp), holdsFrom_splice_right v _ r' (by simp),
        holdsFrom_const, holdsFrom_const, Connective.truth_neutral_right,
        Connective.truth_neutral_right] at hv
    · intro v
      have hv := h.holdsFrom_eq
        (splice l.atoms.length (fun _ => c.neutral) fun i => v (i - l.atoms.length)) 0
      simp only [holdsFrom, ← hl] at hv
      rw [holdsFrom_splice_left _ _ l (by simp), holdsFrom_splice_left _ _ l' (by simp [hl]),
        holdsFrom_splice_right _ _ r (by simp), holdsFrom_splice_right _ _ r' (by simp),
        holdsFrom_const, holdsFrom_const, Connective.truth_neutral_left,
        Connective.truth_neutral_left, holdsFrom_add, holdsFrom_add] at hv
      simpa [holds] using hv
  · rintro ⟨hleft, hright⟩
    refine ⟨by simp [atoms, hl, hr], ?_⟩
    intro v n
    rw [holdsFrom, holdsFrom, hleft.holdsFrom_eq, hright.holdsFrom_eq, hl]

/-! ## Chains -/

/-- A chain has groups before its last once an `or` has come. -/
theorem Groups.isSome_before?_extendAll (s : Groups α)
    (us : List (Connective × Formula α)) :
    (s.extendAll us).before?.isSome = (s.before?.isSome || us.any fun u => u.1 == .or) := by
  induction us generalizing s with
  | nil => simp [Groups.extendAll]
  | cons u us ih =>
    obtain ⟨c, φ⟩ := u
    show ((s.extend c φ).extendAll us).before?.isSome = _
    rw [ih]
    cases c with
    | and => rfl
    | or => simp [Groups.extend]

/-- Chains of as many atoms, of which the second one has groups before its last wherever the first
one has. -/
structure Groups.Aligned (s t : Groups α) : Prop where
  length_eq : s.formula.atoms.length = t.formula.atoms.length
  before : ∀ φ, s.before? = some φ → ∃ ψ, t.before? = some ψ ∧ φ.atoms.length = ψ.atoms.length

theorem Groups.Aligned.extend {s t : Groups α} (h : s.Aligned t) (c : Connective)
    {φ ψ : Formula α} (hlength : φ.atoms.length = ψ.atoms.length) :
    (s.extend c φ).Aligned (t.extend c ψ) := by
  constructor
  · rw [atoms_extend, atoms_extend, List.length_append, List.length_append, h.length_eq, hlength]
  · cases c with
    | and => exact h.before
    | or =>
      intro χ hχ
      obtain rfl : s.formula = χ := Option.some.inj hχ
      exact ⟨t.formula, rfl, h.length_eq⟩

/-- One more link keeps chains at the same truth exactly if it adds the same truth to both and no
`and` meets groups of only one of them. -/
theorem sameTruth_extend_iff {s t : Groups α} (h : s.Aligned t) (c : Connective)
    {φ ψ : Formula α} (hlength : φ.atoms.length = ψ.atoms.length) :
    SameTruth (s.extend c φ).formula (t.extend c ψ).formula ↔
      SameTruth s.formula t.formula ∧ SameTruth φ ψ ∧
        (c = .and → t.before?.isSome = true → s.before?.isSome = true) := by
  cases c with
  | or =>
    show SameTruth (join .or s.formula φ) (join .or t.formula ψ) ↔ _
    rw [sameTruth_join_iff h.length_eq hlength]
    simp
  | and =>
    obtain ⟨sbefore?, slast⟩ := s
    obtain ⟨tbefore?, tlast⟩ := t
    obtain ⟨hatoms, hbefore⟩ := h
    cases sbefore? with
    | none =>
      cases tbefore? with
      | none =>
        have hlast : slast.atoms.length = tlast.atoms.length := hatoms
        show SameTruth (join .and slast φ) (join .and tlast ψ) ↔ SameTruth slast tlast ∧ _
        rw [sameTruth_join_iff hlast hlength]
        simp
      | some b =>
        -- With the chains true and the link false, the groups before the last stay true.
        have hlast : slast.atoms.length = b.atoms.length + tlast.atoms.length := by
          simpa [Groups.formula, atoms] using hatoms
        constructor
        · intro hsame
          have hv := hsame.holdsFrom_eq
            (splice slast.atoms.length (fun _ => true) fun _ => false) 0
          simp only [Groups.extend, Groups.formula, holdsFrom, Connective.truth] at hv
          rw [holdsFrom_splice_left _ _ slast (by simp), holdsFrom_splice_right _ _ φ (by simp),
            holdsFrom_splice_left _ _ b (by omega), holdsFrom_const, holdsFrom_const,
            holdsFrom_const] at hv
          simp at hv
        · rintro ⟨-, -, hand⟩
          simp at hand
    | some b =>
      obtain ⟨b', hb', hlen⟩ := hbefore b rfl
      obtain rfl : tbefore? = some b' := hb'
      have hlast : slast.atoms.length = tlast.atoms.length := by
        simpa [Groups.formula, atoms, hlen] using hatoms
      show SameTruth (join .or b (join .and slast φ)) (join .or b' (join .and tlast ψ)) ↔
        SameTruth (join .or b slast) (join .or b' tlast) ∧ _
      have hjoin : (join .and slast φ).atoms.length = (join .and tlast ψ).atoms.length := by
        simp [atoms, hlast, hlength]
      rw [sameTruth_join_iff hlen hjoin, sameTruth_join_iff hlast hlength,
        sameTruth_join_iff hlen hlast]
      simp [and_assoc]

/-- Chains that take the same links have the same truth in the end exactly if they had it before,
every link adds the same truth to both, and the first link is no `and` that meets groups of only one
of them. -/
theorem sameTruth_extendAll_iff {s t : Groups α} (h : s.Aligned t) (us : List (Connective × β))
    {f g : β → Formula α} (hlength : ∀ u ∈ us, (f u.2).atoms.length = (g u.2).atoms.length) :
    SameTruth (s.extendAll (us.map (Prod.map id f))).formula
        (t.extendAll (us.map (Prod.map id g))).formula ↔
      SameTruth s.formula t.formula ∧ (∀ u ∈ us, SameTruth (f u.2) (g u.2)) ∧
        ∀ u ∈ us.head?, u.1 = .and → t.before?.isSome = true → s.before?.isSome = true := by
  induction us generalizing s t with
  | nil => simp [Groups.extendAll]
  | cons u us ih =>
    obtain ⟨c, x⟩ := u
    rw [List.forall_mem_cons] at hlength
    -- Once a link has come, both chains have groups before their last or neither has.
    have hopen : (c = .and → t.before?.isSome = true → s.before?.isSome = true) →
        (t.extend c (g x)).before?.isSome = true → (s.extend c (f x)).before?.isSome = true := by
      intro hand ht
      cases c with
      | and => exact hand rfl ht
      | or => rfl
    show SameTruth ((s.extend c (f x)).extendAll _).formula
      ((t.extend c (g x)).extendAll _).formula ↔ _
    rw [ih (h.extend c hlength.1) hlength.2, sameTruth_extend_iff h c hlength.1,
      List.forall_mem_cons]
    constructor
    · rintro ⟨⟨hs, hx, hand⟩, hus, -⟩
      refine ⟨hs, ⟨hx, hus⟩, ?_⟩
      simpa using hand
    · rintro ⟨hs, ⟨hx, hus⟩, hand⟩
      have hand : c = .and → t.before?.isSome = true → s.before?.isSome = true := by
        simpa using hand
      exact ⟨⟨hs, hx, hand⟩, hus, fun _ _ _ => hopen hand⟩

end Formula

end SearchDialect
