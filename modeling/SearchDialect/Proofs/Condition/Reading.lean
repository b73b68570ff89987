import SearchDialect.Condition.Dialect
import SearchDialect.Proofs.Condition.Formula

/-!
# How a condition is read

The tokens of a condition are read with precedence: parentheses first, then `and`, then `or`, and
the text of a comparison as one atom. `Reads` is the grammar, `Reads.unique` says that no tokens are
read in two ways. `Dialect.tokens_link` and `Chained.extend` follow the writer: one more link on a
filter is one more condition at the end of its chain.
-/

namespace SearchDialect

/-- How tightly a part of a condition is joined. -/
inductive Tightness where
  /-- A comparison, or anything in parentheses. -/
  | unit
  /-- Units joined by `and`. -/
  | conjunction
  /-- Conjunctions joined by `or`. -/
  | disjunction

/-- `Reads p ts φ`: the tokens `ts` are read as `φ`, as a part of tightness `p`. -/
inductive Reads : Tightness → List Token → Formula String → Prop where
  | comparison (text : String) : Reads .unit [.comparison text] (.atom text)
  | parentheses {ts φ} : Reads .disjunction ts φ → Reads .unit (.opening :: (ts ++ [.closing])) φ
  | ofUnit {ts φ} : Reads .unit ts φ → Reads .conjunction ts φ
  | and {ts us φ ψ} : Reads .conjunction ts φ → Reads .unit us ψ →
      Reads .conjunction (ts ++ .connective .and :: us) (.join .and φ ψ)
  | ofConjunction {ts φ} : Reads .conjunction ts φ → Reads .disjunction ts φ
  | or {ts us φ ψ} : Reads .disjunction ts φ → Reads .conjunction us ψ →
      Reads .disjunction (ts ++ .connective .or :: us) (.join .or φ ψ)

/-- Nothing is not read as anything. -/
theorem Reads.ne_nil {p : Tightness} {ts : List Token} {φ : Formula String} (h : Reads p ts φ) :
    ts ≠ [] := by
  induction h with
  | comparison _ => simp
  | parentheses _ _ => simp
  | ofUnit _ ih => exact ih
  | and _ _ _ _ => simp
  | ofConjunction _ ih => exact ih
  | or _ _ _ _ => simp

/-! ## One reading at most -/

/-- What stands before the next unit inside the innermost parentheses: the groups up to the last
`or`, and the units of the group that has begun. -/
structure Pending where
  before? : Option (Formula String)
  begun? : Option (Formula String)

/-- A group with one more unit. -/
def Pending.take (p : Pending) (φ : Formula String) : Formula.Groups String :=
  match p.begun? with
  | none => ⟨p.before?, φ⟩
  | some ψ => ⟨p.before?, .join .and ψ φ⟩

/-- Where a reader from left to right stands: a unit is due, or one has just been read. Further out
wait what stands before each open parenthesis. -/
inductive Progress where
  | due (p : Pending) (outer : List Pending)
  | read (s : Formula.Groups String) (outer : List Pending)

/-- Takes one token. -/
def Progress.step : Progress → Token → Option Progress
  | due p outer, .comparison text => some (read (p.take (.atom text)) outer)
  | due p outer, .opening => some (due ⟨none, none⟩ (p :: outer))
  | due _ _, _ => none
  | read s outer, .connective .and => some (due ⟨s.before?, some s.last⟩ outer)
  | read s outer, .connective .or => some (due ⟨some s.formula, none⟩ outer)
  | read s outer, .closing =>
    match outer with
    | p :: outer => some (read (p.take s.formula) outer)
    | [] => none
  | read _ _, _ => none

/-- Takes tokens one after the other. -/
def Progress.run (s : Progress) (ts : List Token) : Option Progress := ts.foldlM step s

@[simp] theorem Progress.run_nil (s : Progress) : s.run [] = some s := rfl

theorem Progress.run_cons (s : Progress) (t : Token) (ts : List Token) :
    s.run (t :: ts) = (s.step t).bind fun s => s.run ts := rfl

theorem Progress.run_append (s : Progress) (ts us : List Token) :
    s.run (ts ++ us) = (s.run ts).bind fun s => s.run us := by
  simp [run, List.foldlM_append]

/-- What a part of each tightness does to the reader: a unit is taken wherever one is due, a
conjunction where a group begins, a disjunction where parentheses begin. -/
def Progress.Takes (ts : List Token) (φ : Formula String) : Tightness → Prop
  | .unit => ∀ p outer, (due p outer).run ts = some (read (p.take φ) outer)
  | .conjunction => ∀ before? outer,
      (due ⟨before?, none⟩ outer).run ts = some (read ⟨before?, φ⟩ outer)
  | .disjunction => ∀ outer, ∃ s, s.formula = φ ∧
      (due ⟨none, none⟩ outer).run ts = some (read s outer)

theorem Reads.takes {p : Tightness} {ts : List Token} {φ : Formula String} (h : Reads p ts φ) :
    Progress.Takes ts φ p := by
  induction h with
  | comparison text =>
    intro p outer
    rfl
  | @parentheses ts φ _ ih =>
    intro p outer
    -- What stands before the parenthesis waits until it is closed.
    obtain ⟨s, rfl, hs⟩ := ih (p :: outer)
    rw [Progress.run_cons]
    show (Progress.run (.due ⟨none, none⟩ (p :: outer)) (ts ++ [.closing])) = _
    rw [Progress.run_append, hs]
    rfl
  | ofUnit _ ih =>
    intro before? outer
    exact ih ⟨before?, none⟩ outer
  | @and ts us φ ψ _ _ ihl ihr =>
    intro before? outer
    rw [Progress.run_append, ihl]
    exact ihr ⟨before?, some φ⟩ outer
  | @ofConjunction ts φ _ ih =>
    intro outer
    exact ⟨⟨none, φ⟩, rfl, ih none outer⟩
  | @or ts us φ ψ _ _ ihl ihr =>
    intro outer
    obtain ⟨s, rfl, hs⟩ := ihl outer
    -- The disjunction so far becomes the groups before the last one.
    refine ⟨⟨some s.formula, ψ⟩, rfl, ?_⟩
    rw [Progress.run_append, hs]
    exact ihr (some s.formula) outer

/-- The formula of a whole text, if it is one. -/
def Progress.finish : Progress → Option (Formula String)
  | read s [] => some s.formula
  | _ => none

/-- The formula that tokens are read as, computed from left to right. -/
def readTokens? (ts : List Token) : Option (Formula String) :=
  ((Progress.due ⟨none, none⟩ []).run ts).bind Progress.finish

theorem Reads.readTokens? {ts : List Token} {φ : Formula String} (h : Reads .disjunction ts φ) :
    SearchDialect.readTokens? ts = some φ := by
  obtain ⟨s, rfl, hs⟩ := h.takes []
  simp [SearchDialect.readTokens?, hs, Progress.finish]

/-- Tokens are read in one way at most. -/
theorem Reads.unique {ts : List Token} {φ ψ : Formula String} (h : Reads .disjunction ts φ)
    (h' : Reads .disjunction ts ψ) : φ = ψ :=
  Option.some.inj (h.readTokens?.symm.trans h'.readTokens?)

/-! ## Chains -/

/-- Tokens read as a chain of conditions whose last group is still open. -/
def Chained (ts : List Token) (s : Formula.Groups String) : Prop :=
  match s.before? with
  | none => Reads .conjunction ts s.last
  | some φ => ∃ us vs, ts = us ++ .connective .or :: vs ∧ Reads .disjunction us φ ∧
      Reads .conjunction vs s.last

theorem Chained.reads {ts : List Token} {s : Formula.Groups String} (h : Chained ts s) :
    Reads .disjunction ts s.formula := by
  obtain ⟨before?, last⟩ := s
  cases before? with
  | none => exact .ofConjunction h
  | some φ =>
    obtain ⟨us, vs, rfl, hus, hvs⟩ := h
    exact .or hus hvs

/-- A connective and a unit at the end of a chain extend it. -/
theorem Chained.extend {ts us : List Token} {s : Formula.Groups String} {φ : Formula String}
    (h : Chained ts s) (c : Connective) (hu : Reads .unit us φ) :
    Chained (ts ++ .connective c :: us) (s.extend c φ) := by
  cases c with
  | or => exact ⟨ts, us, rfl, h.reads, .ofUnit hu⟩
  | and =>
    obtain ⟨before?, last⟩ := s
    cases before? with
    | none => exact Reads.and h hu
    | some φ =>
      obtain ⟨vs, ws, rfl, hvs, hws⟩ := h
      exact ⟨vs, ws ++ .connective .and :: us, by simp, hvs, .and hws hu⟩

/-! ## What the writer adds -/

namespace Dialect

variable {ι : Type} (d : Dialect) (family : Family ι) (m : Model ι)

/-- A linked filter extends the chain written before it: it stands in parentheses if it has links of
its own, and is a unit by itself if it has none. -/
theorem chained_linked {ts inner : List Token} {s s' : Formula.Groups String} (c : Connective)
    {hasLinks : Bool} (h : Chained ts s) (hi : Chained inner s')
    (hu : hasLinks = false → Reads .unit inner s'.formula) :
    Chained (d.linked ts c hasLinks inner) (s.extend c s'.formula) := by
  have hne : ts.isEmpty = false := List.isEmpty_eq_false_iff.2 h.reads.ne_nil
  cases hasLinks with
  | false => simpa [linked, hne] using h.extend c (hu rfl)
  | true => simpa [linked, hne] using h.extend c (.parentheses hi.reads)

variable {family m} in
theorem condition_of_tokens {f : Filter} {ts : List Token} (h : d.tokens family m f = .ok ts) :
    d.condition family m f = .ok (d.text ts) := by
  rw [condition, h]
  rfl

theorem linkTokens_append (written : List Token) (ls ks : List (Connective × Filter)) :
    d.linkTokens family m written (ls ++ ks) = (do
      let ts ← d.linkTokens family m written ls
      d.linkTokens family m ts ks) := by
  induction ls generalizing written with
  | nil => simp only [List.nil_append, linkTokens]; rfl
  | cons l ls ih =>
    obtain ⟨c, f⟩ := l
    simp only [List.cons_append, linkTokens]
    cases d.tokens family m f with
    | error e => rfl
    | ok inner => exact ih _

/-- One more link on a filter is written after everything else. -/
theorem tokens_link (f : Filter) (c : Connective) (g : Filter) :
    d.tokens family m (f.link c g) = (do
      let ts ← d.tokens family m f
      let inner ← d.tokens family m g
      return d.linked ts c (!g.links.isEmpty) inner) := by
  obtain ⟨p, k, v, t, vi, ls⟩ := f
  simp only [Filter.link, Filter.property, Filter.comparison, Filter.value, Filter.links, tokens]
  cases d.own family m p k v with
  | error e => rfl
  | ok written =>
    show d.linkTokens family m written (ls ++ [(c, g)]) = _
    rw [linkTokens_append]
    rfl

end Dialect

end SearchDialect
