import SearchDialect.Proofs.Literal.Conversion
import SearchDialect.Proofs.Outcome
import SearchDialect.Proofs.Predicate.LeftToRight

/-!
# The first fault of a predicate

`Expr.HasValue` says rule by rule which operands have which value, and `Expr.Fails` at which point an
operand has none. A predicate becomes a filter exactly if it joins comparisons of a member with an
operand that has a value (`Expr.Supported`), and if it does not, the fault of the first comparison
that is not of this kind is told (`toFilter_outcome_iff`).
-/

namespace SearchDialect

namespace Expr

/-! ## Operands -/

/-- The forms that a right operand may have. -/
def IsOperand : Expr → Prop
  | constant _ | convert _ _ | call _ _ _ _ => True
  | _ => False

mutual

/-- A right operand has a value. A function gets the value of the receiver first, then those of the
arguments in their order. -/
inductive HasValue : Expr → Literal → Prop where
  | constant (v : Literal) : HasValue (constant v) v
  | convert {operand : Expr} {target : Target} {v w : Literal} (h : HasValue operand v)
      (hw : v.convert? target = some w) : HasValue (convert operand target) w
  | call {name : String} {function : Function} {receiver? : Option Expr} {arguments : List Expr}
      {vs : List Literal} {v : Literal} (h : HaveValues (receiver?.toList ++ arguments) vs)
      (hv : function vs = .ok v) : HasValue (call name function receiver? arguments) v

/-- Operands have values, one for each. -/
inductive HaveValues : List Expr → List Literal → Prop where
  | nil : HaveValues [] []
  | cons {e : Expr} {es : List Expr} {v : Literal} {vs : List Literal} (h : HasValue e v)
      (hs : HaveValues es vs) : HaveValues (e :: es) (v :: vs)

end

/-- A right operand has no value, and why. The function of a call is only to blame if its receiver
and its arguments have values; else the first one of them that has none is. -/
inductive Fails : Expr → CompileError → Prop where
  | form {e : Expr} (h : ¬ e.IsOperand) : Fails e (.notAnOperand e.describe)
  | operand {operand : Expr} {target : Target} {err : CompileError} (h : Fails operand err) :
    Fails (convert operand target) err
  | convert {operand : Expr} {target : Target} {v : Literal} (h : HasValue operand v)
      (hv : v.convert? target = none) :
    Fails (convert operand target) (.noConversion v target.kind)
  | argument {name : String} {function : Function} {receiver? : Option Expr}
      {arguments before after : List Expr} {e : Expr} {err : CompileError}
      (hsplit : receiver?.toList ++ arguments = before ++ e :: after) (h : Fails e err)
      (hbefore : ∀ b ∈ before, ∃ v, HasValue b v) :
    Fails (call name function receiver? arguments) err
  | call {name : String} {function : Function} {receiver? : Option Expr} {arguments : List Expr}
      {vs : List Literal} {reason : String} (h : HaveValues (receiver?.toList ++ arguments) vs)
      (hreason : function vs = .error reason) :
    Fails (call name function receiver? arguments) (.callFailed name reason)

theorem evaluateAll_eq_mapM (es : List Expr) : evaluateAll es = es.mapM evaluate := by
  induction es with
  | nil => rfl
  | cons e es ih => rw [evaluateAll, ih, List.mapM_cons]

/-- The receiver of a call is the first one of its arguments. -/
theorem evaluate_call (name : String) (function : Function) (receiver? : Option Expr)
    (arguments : List Expr) : (call name function receiver? arguments).evaluate =
      ((receiver?.toList ++ arguments).mapM evaluate >>= applyFunction name function) := by
  cases receiver? with
  | none =>
    rw [evaluate, evaluateAll_eq_mapM]
    rfl
  | some receiver =>
    show _ = ((receiver :: arguments).mapM evaluate >>= _)
    rw [evaluate, evaluateAll_eq_mapM, List.mapM_cons]
    simp only [bind_assoc, pure_bind]

theorem sizeOf_operand (name : String) (function : Function) {receiver? : Option Expr}
    {arguments : List Expr} {e : Expr} (h : e ∈ receiver?.toList ++ arguments) :
    sizeOf e < sizeOf (call name function receiver? arguments) := by
  simp only [call.sizeOf_spec]
  rcases List.mem_append.1 h with h | h
  · obtain rfl : receiver? = some e := by simpa using h
    simp only [Option.some.sizeOf_spec]
    omega
  · have := List.sizeOf_lt_of_mem h
    omega

theorem applyFunction_eq_ok_iff {name : String} {function : Function} {vs : List Literal}
    {v : Literal} : applyFunction name function vs = .ok v ↔ function vs = .ok v :=
  mapError_eq_ok_iff

theorem applyFunction_eq_error_iff {name : String} {function : Function} {vs : List Literal}
    {err : CompileError} : applyFunction name function vs = .error err ↔
      ∃ reason, function vs = .error reason ∧ .callFailed name reason = err :=
  mapError_eq_error_iff

theorem evaluate_eq_error_of_not_isOperand {e : Expr} (h : ¬ e.IsOperand) :
    e.evaluate = .error (.notAnOperand e.describe) := by
  cases e with
  | member _ | compare _ _ _ | logical _ _ _ => rw [evaluate]
  | constant _ | convert _ _ | call _ _ _ _ => exact absurd trivial h

mutual

theorem HasValue.evaluate_eq {e : Expr} {v : Literal} (h : e.HasValue v) : e.evaluate = .ok v := by
  match h with
  | .constant v => rw [evaluate]
  | .convert h hw =>
    rw [evaluate, h.evaluate_eq, ok_bind]
    exact Literal.convert_eq_ok_iff.2 hw
  | .call h hv =>
    rw [evaluate_call, h.mapM_eq, ok_bind]
    exact applyFunction_eq_ok_iff.2 hv

theorem HaveValues.mapM_eq {es : List Expr} {vs : List Literal} (h : HaveValues es vs) :
    es.mapM evaluate = .ok vs := by
  match h with
  | .nil => rfl
  | .cons h hs =>
    rw [List.mapM_cons, h.evaluate_eq, hs.mapM_eq]
    rfl

end

theorem haveValues_of_mapM_eq {es : List Expr} {vs : List Literal}
    (ih : ∀ e ∈ es, ∀ v, e.evaluate = .ok v → e.HasValue v) (h : es.mapM evaluate = .ok vs) :
    HaveValues es vs := by
  induction es generalizing vs with
  | nil =>
    cases h
    exact .nil
  | cons e es ihs =>
    rw [List.mapM_cons] at h
    simp only [bind_eq_ok_iff] at h
    obtain ⟨v, hv, vs, hvs, hcons⟩ := h
    cases hcons
    rw [List.forall_mem_cons] at ih
    exact .cons (ih.1 v hv) (ihs ih.2 hvs)

theorem hasValue_of_evaluate_eq {e : Expr} {v : Literal} (h : e.evaluate = .ok v) :
    e.HasValue v := by
  match e with
  | constant w =>
    rw [evaluate] at h
    cases h
    exact .constant _
  | convert operand target =>
    rw [evaluate, bind_eq_ok_iff] at h
    obtain ⟨w, hw, hconvert⟩ := h
    exact .convert (hasValue_of_evaluate_eq hw) (Literal.convert_eq_ok_iff.1 hconvert)
  | call name function receiver? arguments =>
    rw [evaluate_call, bind_eq_ok_iff] at h
    obtain ⟨vs, hvs, happly⟩ := h
    have ih : ∀ e ∈ receiver?.toList ++ arguments, ∀ v, e.evaluate = .ok v → e.HasValue v := by
      intro e he v hv
      have hlt := sizeOf_operand name function he
      exact hasValue_of_evaluate_eq hv
    exact .call (haveValues_of_mapM_eq ih hvs) (applyFunction_eq_ok_iff.1 happly)
  | member _ | compare _ _ _ | logical _ _ _ => simp [evaluate] at h
termination_by sizeOf e
decreasing_by
  · simp only [convert.sizeOf_spec]
    omega
  · exact hlt

theorem fails_of_evaluate_eq {e : Expr} {err : CompileError} (h : e.evaluate = .error err) :
    e.Fails err := by
  match e with
  | constant w => simp [evaluate] at h
  | convert operand target =>
    rw [evaluate, bind_eq_error_iff] at h
    rcases h with h | ⟨w, hw, hconvert⟩
    · exact .operand (fails_of_evaluate_eq h)
    · obtain ⟨hnone, rfl⟩ := Literal.convert_eq_error_iff.1 hconvert
      exact .convert (hasValue_of_evaluate_eq hw) hnone
  | call name function receiver? arguments =>
    rw [evaluate_call, bind_eq_error_iff, mapM_eq_error_iff] at h
    rcases h with ⟨before, e, after, hsplit, he, hbefore⟩ | ⟨vs, hvs, happly⟩
    · have hlt : sizeOf e < sizeOf (call name function receiver? arguments) := by
        apply sizeOf_operand
        rw [hsplit]
        exact List.mem_append_right _ List.mem_cons_self
      refine .argument hsplit (fails_of_evaluate_eq he) fun b hb => ?_
      obtain ⟨v, hv⟩ := hbefore b hb
      exact ⟨v, hasValue_of_evaluate_eq hv⟩
    · obtain ⟨reason, hreason, rfl⟩ := applyFunction_eq_error_iff.1 happly
      exact .call (haveValues_of_mapM_eq (fun e _ v => hasValue_of_evaluate_eq) hvs) hreason
  | member _ | compare _ _ _ | logical _ _ _ =>
    rw [evaluate] at h
    cases h
    exact .form id
termination_by sizeOf e
decreasing_by
  · simp only [convert.sizeOf_spec]
    omega
  · exact hlt

theorem Fails.evaluate_eq {e : Expr} {err : CompileError} (h : e.Fails err) :
    e.evaluate = .error err := by
  induction h with
  | form h => exact evaluate_eq_error_of_not_isOperand h
  | operand _ ih => rw [evaluate, ih, error_bind]
  | convert h hv =>
    rw [evaluate, h.evaluate_eq, ok_bind]
    exact Literal.convert_eq_error_iff.2 ⟨hv, rfl⟩
  | argument hsplit _ hbefore ih =>
    rw [evaluate_call, bind_eq_error_iff, mapM_eq_error_iff]
    refine .inl ⟨_, _, _, hsplit, ih, fun b hb => ?_⟩
    obtain ⟨v, hv⟩ := hbefore b hb
    exact ⟨v, hv.evaluate_eq⟩
  | call h hreason =>
    rw [evaluate_call, h.mapM_eq, ok_bind]
    exact applyFunction_eq_error_iff.2 ⟨_, hreason, rfl⟩

theorem evaluate_eq_ok_iff {e : Expr} {v : Literal} : e.evaluate = .ok v ↔ e.HasValue v :=
  ⟨hasValue_of_evaluate_eq, HasValue.evaluate_eq⟩

theorem evaluate_eq_error_iff {e : Expr} {err : CompileError} :
    e.evaluate = .error err ↔ e.Fails err :=
  ⟨fails_of_evaluate_eq, Fails.evaluate_eq⟩

/-! ## Left operands -/

theorem path_eq_error_iff {e : Expr} {err : CompileError} : e.path = .error err ↔
    (∀ p, e.unconverted ≠ member p) ∧ .notAMember e.unconverted.describe = err := by
  match e with
  | member q => simp [path, unconverted]
  | convert operand target => exact path_eq_error_iff (e := operand)
  | constant _ | call _ _ _ _ | compare _ _ _ | logical _ _ _ => simp [path, unconverted]

/-! ## Conditions -/

variable {ι : Type}

/-- The forms that a condition may have. -/
def IsCondition : Expr → Prop
  | compare _ _ _ | logical _ _ _ => True
  | _ => False

/-- Predicates that become a filter: comparisons, joined by connectives, of a member whose path leads
to a value with an operand that has one. -/
inductive Supported (family : Family ι) (m : Model ι) : Expr → Prop where
  | compare {c : Comparison} {l r : Expr} {p : String} {k : Kind} {v : Literal}
      (hl : l.unconverted = member p) (hp : m.kindAt family p = .ok k) (hr : r.HasValue v) :
    Supported family m (compare c l r)
  | logical {c : Connective} {l r : Expr} (hl : Supported family m l)
      (hr : Supported family m r) : Supported family m (logical c l r)

/-- What is wrong with an expression that joins no others. Of a comparison the left side comes first,
then its path, then the right side. -/
inductive Faulty (family : Family ι) (m : Model ι) : Expr → CompileError → Prop where
  | form {e : Expr} (h : ¬ e.IsCondition) : Faulty family m e (.notACondition e.describe)
  | left {c : Comparison} {l r : Expr} (h : ∀ p, l.unconverted ≠ member p) :
    Faulty family m (compare c l r) (.notAMember l.unconverted.describe)
  | path {c : Comparison} {l r : Expr} {p : String} {err : ModelError}
      (hl : l.unconverted = member p) (h : m.kindAt family p = .error err) :
    Faulty family m (compare c l r) (.model err)
  | right {c : Comparison} {l r : Expr} {p : String} {k : Kind} {err : CompileError}
      (hl : l.unconverted = member p) (hp : m.kindAt family p = .ok k) (h : r.Fails err) :
    Faulty family m (compare c l r) err

variable {family : Family ι} {m : Model ι}

theorem exists_toFilter_eq_ok_iff {e : Expr} :
    (∃ f, e.toFilter family m = .ok f) ↔ e.Supported family m := by
  constructor
  · rintro ⟨f, h⟩
    match e, h with
    | compare c l r, h =>
      obtain ⟨p, k, v, hp, hk, hv, -⟩ := toFilter_compare h
      exact .compare (path_eq_ok_iff.1 hp) hk (hasValue_of_evaluate_eq hv)
    | logical c l r, h =>
      obtain ⟨g, g', hl, hr, -⟩ := toFilter_logical h
      exact .logical (exists_toFilter_eq_ok_iff.1 ⟨g, hl⟩) (exists_toFilter_eq_ok_iff.1 ⟨g', hr⟩)
    | member _, h | constant _, h | convert _ _, h | call _ _ _ _, h => simp [toFilter] at h
  · intro h
    induction h with
    | compare hl hp hr =>
      rw [toFilter, path_eq_ok_iff.2 hl, ok_bind, hp, hr.evaluate_eq]
      exact ⟨_, rfl⟩
    | logical _ _ ihl ihr =>
      obtain ⟨g, hg⟩ := ihl
      obtain ⟨g', hg'⟩ := ihr
      rw [toFilter, hg, hg']
      exact ⟨_, rfl⟩

theorem toFilter_compare_eq_error_iff {c : Comparison} {l r : Expr} {err : CompileError} :
    (compare c l r).toFilter family m = .error err ↔ (compare c l r).Faulty family m err := by
  simp only [toFilter, bind_eq_error_iff, path_eq_error_iff, path_eq_ok_iff, mapError_eq_error_iff,
    mapError_eq_ok_iff, evaluate_eq_error_iff]
  constructor
  · rintro (⟨h, rfl⟩ | ⟨p, hl, ⟨e, hp, rfl⟩ | ⟨k, hp, h | ⟨v, _, ⟨⟩⟩⟩⟩)
    · exact .left h
    · exact .path hl hp
    · exact .right hl hp h
  · intro h
    cases h with
    | form h => exact absurd trivial h
    | left h => exact .inl ⟨h, rfl⟩
    | path hl h => exact .inr ⟨_, hl, .inl ⟨_, h, rfl⟩⟩
    | right hl hp h => exact .inr ⟨_, hl, .inr ⟨_, hp, .inl h⟩⟩

theorem toFilter_eq_of_not_isCondition {e : Expr} (h : ¬ e.IsCondition) :
    e.toFilter family m = .error (.notACondition e.describe) := by
  cases e with
  | member _ | constant _ | convert _ _ | call _ _ _ _ => rfl
  | compare _ _ _ | logical _ _ _ => exact absurd trivial h

/-- An expression that is no condition has one fault. -/
theorem faulty_iff_of_not_isCondition {e : Expr} (h : ¬ e.IsCondition) {err : CompileError} :
    e.Faulty family m err ↔ .notACondition e.describe = err := by
  constructor
  · rintro (_ | _ | _ | _)
    · rfl
    all_goals exact absurd trivial h
  · rintro rfl
    exact .form h

theorem toFilter_eq_error_iff_of_mem_atoms {e : Expr} {err : CompileError} :
    ∀ leaf ∈ e.formula.atoms,
      leaf.toFilter family m = .error err ↔ leaf.Faulty family m err := by
  match e with
  | logical c l r =>
    intro leaf hleaf
    rcases List.mem_append.1 hleaf with hleaf | hleaf
    · exact toFilter_eq_error_iff_of_mem_atoms leaf hleaf
    · exact toFilter_eq_error_iff_of_mem_atoms leaf hleaf
  | compare c l r =>
    intro leaf hleaf
    obtain rfl := List.mem_singleton.1 hleaf
    exact toFilter_compare_eq_error_iff
  | member _ | constant _ | convert _ _ | call _ _ _ _ =>
    intro leaf hleaf
    obtain rfl := List.mem_singleton.1 hleaf
    rw [faulty_iff_of_not_isCondition id, toFilter_eq_of_not_isCondition id, Except.error.injEq]

/-- A predicate has the fault of the first of its comparisons that has one. -/
theorem fault?_toFilter (e : Expr) : fault? (e.toFilter family m) =
    e.formula.atoms.findSome? fun leaf => fault? (leaf.toFilter family m) := by
  match e with
  | logical c l r =>
    have hright (head : Filter) := fault?_bind_pure (r.toFilter family m) (head.link c)
    rw [toFilter, fault?_bind hright, fault?_toFilter l, fault?_toFilter r,
      ← List.findSome?_append]
    rfl
  | member _ | constant _ | convert _ _ | call _ _ _ _ | compare _ _ _ =>
    simp [formula, Formula.atoms]

/-- A predicate becomes a filter exactly if it is of the kind that is supported. Otherwise the fault
is told of the first comparison, from left to right, that is not of this kind. -/
theorem toFilter_outcome_iff (family : Family ι) (m : Model ι) (e : Expr) :
    ((∃ f, e.toFilter family m = .ok f) ↔ e.Supported family m) ∧
    ∀ err, e.toFilter family m = .error err ↔
      ∃ before leaf after, e.formula.atoms = before ++ leaf :: after ∧
        leaf.Faulty family m err ∧ ∀ b ∈ before, b.Supported family m := by
  refine ⟨exists_toFilter_eq_ok_iff, fun err => ?_⟩
  rw [← fault?_eq_some_iff, fault?_toFilter, List.findSome?_eq_some_iff]
  simp only [fault?_eq_some_iff, fault?_eq_none_iff, exists_toFilter_eq_ok_iff]
  refine exists_congr fun before => exists_congr fun leaf => exists_congr fun after =>
    and_congr_right fun hatoms => and_congr_left fun _ => ?_
  apply toFilter_eq_error_iff_of_mem_atoms
  rw [hatoms]
  exact List.mem_append_right _ List.mem_cons_self

/-- `Id == 'a' || Colour == mix('red')`: a product has no colour, and that is told before the call
fails, though the call is at fault too. -/
example : (logical .or (productIs "Id" (.text "a"))
    (compare .eq (member "Colour") (call "mix" (fun _ => .error "too few colours") none
      [constant (.text "red")]))).toFilter Storefront.family
      (Storefront.family .product) = .error (.model (.unknownMember "Colour" "Product")) := rfl

end Expr

end SearchDialect
