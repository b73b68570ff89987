import SearchDialect.Predicate.ToFilter
import SearchDialect.Proofs.Number.NearestInteger

/-!
# Conversions land in their kind

What a conversion gives is a literal of the kind that was asked for (`IsOf`), and such a literal is
left as it is by the next conversion to that kind; null goes through where it may
(`convert_settles`). A double becomes the integer that it is rounded to, if the kind reaches to it:
to a 32-bit integer always, and to a 64-bit integer for all doubles but one (`roundsInto_iff`), the
first one beyond them.
-/

namespace SearchDialect

open Number

/-- The integers of a kind of integers. -/
def Kind.Spans : Kind → Int → Prop
  | .int, n => -0x80000000 ≤ n ∧ n < 0x80000000
  | .long, n => -0x8000000000000000 ≤ n ∧ n < 0x8000000000000000
  | _, _ => False

theorem Kind.spans_int_iff {n : Int} : Kind.Spans .int n ↔ fitsInt32 n = true := by
  simp [Kind.Spans, fitsInt32]

theorem Kind.spans_long (i : Int64) : Kind.Spans .long i.toInt := ⟨i.le_toInt, i.toInt_lt⟩

namespace Literal

/-- A literal that holds a value of a kind. An integer may be one of either kind of integers. -/
def IsOf (kind : Kind) : Literal → Prop
  | null => False
  | bool _ => kind = .bool
  | int i => kind.Spans i.toInt
  | double _ => kind = .double
  | text _ => kind = .string
  | time _ => kind = .datetime
  | char _ => kind = .char

/-! ## The outcome of a conversion -/

theorem convert_eq_ok_iff {v w : Literal} {target : Target} :
    v.convert target = .ok w ↔ v.convert? target = some w := by
  rw [Literal.convert]
  cases v.convert? target <;> simp

theorem convert_eq_error_iff {v : Literal} {target : Target} {err : CompileError} :
    v.convert target = .error err ↔
      v.convert? target = none ∧ .noConversion v target.kind = err := by
  rw [Literal.convert]
  cases v.convert? target <;> simp

theorem isNull_iff {v : Literal} : v.isNull = true ↔ v = null := by
  cases v <;> simp [isNull]

theorem convert?_null_iff {target : Target} {r : Literal} :
    null.convert? target = some r ↔
      r = null ∧ (target.nullable = true ∨ target.kind = .string) := by
  rw [convert?, if_pos (isNull_iff.2 rfl), Option.ite_none_right_eq_some, Option.some.injEq,
    Bool.or_eq_true, beq_iff_eq, and_comm, eq_comm]

theorem convert?_eq {v : Literal} (h : v ≠ null) (target : Target) :
    v.convert? target = v.convertTo? target.kind := by
  rw [convert?, if_neg (mt isNull_iff.1 h)]

theorem convert_of_ne_null {v : Literal} (h : v ≠ null) {target : Target} {r : Literal} :
    v.convert target = .ok r ↔ v.convertTo? target.kind = some r := by
  rw [convert_eq_ok_iff, convert?_eq h]

/-! ## Literals of a kind -/

theorem ne_null_of_isOf {kind : Kind} {r : Literal} (h : r.IsOf kind) : r ≠ null := by
  rintro rfl
  exact h

/-- A conversion gives a literal of its kind. -/
theorem isOf_of_convertTo? {v r : Literal} {kind : Kind} (h : v.convertTo? kind = some r) :
    r.IsOf kind := by
  cases kind with
  | int =>
    obtain ⟨i, hi, rfl⟩ := Option.map_eq_some_iff.1 h
    exact Kind.spans_int_iff.2 (Option.filter_eq_some_iff.1 hi).2
  | long =>
    obtain ⟨i, -, rfl⟩ := Option.map_eq_some_iff.1 h
    exact Kind.spans_long i
  | double | bool | datetime | char =>
    obtain ⟨x, -, rfl⟩ := Option.map_eq_some_iff.1 h
    rfl
  | string =>
    cases h
    rfl

/-- A literal of a kind is left as it is. -/
theorem convertTo?_of_isOf {r : Literal} {kind : Kind} (h : r.IsOf kind) :
    r.convertTo? kind = some r := by
  cases r with
  | null => exact h.elim
  | int i =>
    cases kind with
    | int => simp [convertTo?, integer?, Kind.spans_int_iff.1 h]
    | long => rfl
    | double | bool | string | datetime | char => exact h.elim
  | bool _ | double _ | text _ | time _ | char _ =>
    obtain rfl : kind = _ := h
    rfl

theorem convert_of_isOf {r : Literal} {target : Target} (h : r.IsOf target.kind) :
    r.convert target = .ok r :=
  (convert_of_ne_null (ne_null_of_isOf h)).2 (convertTo?_of_isOf h)

/-- What a conversion gives is null if it was given null, which goes through where the target is
optional or a text, and else a literal of the kind of the target. Either is left as it is by the
next conversion to the same target. A conversion that fails tells the literal and the kind. -/
theorem convert_settles (v : Literal) (target : Target) :
    (∀ r, v.convert target = .ok r →
      (r = null ↔ v = null) ∧
      (v = null → target.nullable = true ∨ target.kind = .string) ∧
      (v ≠ null → r.IsOf target.kind) ∧
      r.convert target = .ok r) ∧
    ∀ err, v.convert target = .error err →
      err = .noConversion v target.kind ∧
      err.message =
        "Cannot convert " ++ v.typeName ++ " " ++ v.display ++ " to " ++ target.kind.name := by
  refine ⟨?_, ?_⟩
  · intro r h
    by_cases hv : v = null
    · subst hv
      obtain ⟨rfl, hnull⟩ := convert?_null_iff.1 (convert_eq_ok_iff.1 h)
      exact ⟨Iff.rfl, fun _ => hnull, fun hne => absurd rfl hne, h⟩
    · have hr : r.IsOf target.kind := isOf_of_convertTo? ((convert_of_ne_null hv).1 h)
      exact ⟨iff_of_false (ne_null_of_isOf hr) hv, fun hnull => absurd hnull hv, fun _ => hr,
        convert_of_isOf hr⟩
  · intro err h
    obtain ⟨-, rfl⟩ := convert_eq_error_iff.1 h
    exact ⟨rfl, rfl⟩

/-- The digits of a text between blanks, read once and then left as they are. -/
theorem convert_settles_paddedDigits :
    (text " +042 ").convert ⟨.int, false⟩ = .ok (int 42) ∧
    IsOf .int (int 42) ∧ (int 42).convert ⟨.int, false⟩ = .ok (int 42) := by
  have h : (text " +042 ").convert ⟨.int, false⟩ = .ok (int 42) := by decide
  obtain ⟨-, -, hof, hagain⟩ := (convert_settles (text " +042 ") ⟨.int, false⟩).1 _ h
  exact ⟨h, hof nofun, hagain⟩

/-! ## Doubles as integers -/

/-- The first double beyond the 64-bit integers, two to the power of sixty-three. -/
def firstBeyond : Double := Double.ofInt 0x8000000000000000

theorem roundsTo_firstBeyond_iff {d : Double} :
    d.RoundsTo 0x8000000000000000 ↔ d = firstBeyond := by
  constructor
  · intro h
    exact Double.eq_ofInt_of_roundsTo h (by decide)
  · rintro rfl
    decide +kernel

/-- A double is taken as the integer that it is rounded to. The first double beyond the 64-bit
integers is taken as the largest one of them. -/
theorem integerOfDouble?_eq_some_iff {d : Double} {i : Int64} :
    integerOfDouble? d = some i ↔
      d.RoundsTo i.toInt ∨ d = firstBeyond ∧ i.toInt = 0x7fffffffffffffff := by
  have hlo := i.le_toInt
  have hhi := i.toInt_lt
  rw [← roundsTo_firstBeyond_iff, Double.roundsTo_iff, Double.roundsTo_iff]
  unfold integerOfDouble?
  generalize d.roundTiesEven = n
  simp only
  constructor
  · intro h
    split at h
    · next hbounds =>
      cases h
      obtain ⟨hfinite, hlo, hhi⟩ := hbounds
      -- The bounds are tested inclusively, so one integer too many goes through and is cut down.
      by_cases hn : n = 0x8000000000000000
      · right
        subst hn
        exact ⟨⟨hfinite, rfl⟩, by decide⟩
      · left
        rw [min_eq_left (by omega), Int64.toInt_ofInt_of_le (by omega) (by omega)]
        exact ⟨hfinite, rfl⟩
    · cases h
  · rintro (⟨hfinite, rfl⟩ | ⟨⟨hfinite, rfl⟩, hi⟩)
    · rw [if_pos ⟨hfinite, by omega, by omega⟩, min_eq_left (by omega), Int64.ofInt_toInt]
    · rw [if_pos ⟨hfinite, by decide, by decide⟩, ← Int64.ofInt_toInt i, hi]
      rfl

theorem convert_double_long_iff {d : Double} {nullable : Bool} {r : Literal} :
    (double d).convert ⟨.long, nullable⟩ = .ok r ↔
      ∃ i, r = int i ∧ (d.RoundsTo i.toInt ∨ d = firstBeyond ∧ i.toInt = 0x7fffffffffffffff) := by
  have hnull : double d ≠ null := nofun
  rw [convert_of_ne_null hnull]
  simp only [convertTo?, integer?, Option.map_eq_some_iff, integerOfDouble?_eq_some_iff]
  exact exists_congr fun i => by rw [and_comm, eq_comm]

theorem convert_double_int_iff {d : Double} {nullable : Bool} {r : Literal} :
    (double d).convert ⟨.int, nullable⟩ = .ok r ↔
      ∃ i, r = int i ∧ d.RoundsTo i.toInt ∧ Kind.Spans .int i.toInt := by
  have hnull : double d ≠ null := nofun
  rw [convert_of_ne_null hnull]
  simp only [convertTo?, integer?, Option.map_eq_some_iff, Option.filter_eq_some_iff,
    integerOfDouble?_eq_some_iff, ← Kind.spans_int_iff]
  refine exists_congr fun i => ?_
  rw [and_comm, eq_comm]
  refine and_congr_right fun _ => and_congr_left fun hspans => or_iff_left ?_
  -- The largest 64-bit integer is no 32-bit integer.
  rintro ⟨-, hi⟩
  rw [hi] at hspans
  exact absurd hspans.2 (by decide)

/-- A double converted to a kind of integers becomes the integer that it is rounded to. Where it is
rounded to none, or to one to which the kind does not reach, the conversion fails. -/
def RoundsInto (d : Double) (target : Target) : Prop :=
  (∀ r, (double d).convert target = .ok r ↔
    ∃ i, r = int i ∧ d.RoundsTo i.toInt ∧ target.kind.Spans i.toInt) ∧
  ((∀ n, d.RoundsTo n → ¬target.kind.Spans n) →
    (double d).convert target = .error (.noConversion (double d) target.kind))

theorem roundsInto_of_forall {d : Double} {target : Target}
    (h : ∀ r, (double d).convert target = .ok r ↔
      ∃ i, r = int i ∧ d.RoundsTo i.toInt ∧ target.kind.Spans i.toInt) :
    RoundsInto d target := by
  refine ⟨h, ?_⟩
  intro hnone
  cases hout : (double d).convert target with
  | ok r =>
    obtain ⟨i, -, hrounds, hspans⟩ := (h r).1 hout
    exact absurd hspans (hnone _ hrounds)
  | error err =>
    obtain ⟨-, rfl⟩ := convert_eq_error_iff.1 hout
    rfl

theorem not_roundsInto_long (nullable : Bool) : ¬RoundsInto firstBeyond ⟨.long, nullable⟩ := by
  intro h
  have hmax : (double firstBeyond).convert ⟨.long, nullable⟩ = .ok (int 0x7fffffffffffffff) :=
    convert_double_long_iff.2 ⟨_, rfl, .inr ⟨rfl, rfl⟩⟩
  obtain ⟨i, hi, hrounds, -⟩ := (h.1 _).1 hmax
  cases hi
  revert hrounds
  decide +kernel

/-- The conversion of doubles to integers changes no number beyond rounding it, but for one: the
first double beyond the 64-bit integers is not refused. -/
theorem roundsInto_iff {target : Target} (htarget : target.kind = .int ∨ target.kind = .long)
    (d : Double) : RoundsInto d target ↔ ¬(target.kind = .long ∧ d = firstBeyond) := by
  obtain ⟨kind, nullable⟩ := target
  rcases htarget with rfl | rfl
  · apply iff_of_true
    · exact roundsInto_of_forall fun r => convert_double_int_iff
    · rintro ⟨⟨⟩, -⟩
  · constructor
    · rintro h ⟨-, rfl⟩
      exact not_roundsInto_long nullable h
    · intro hd
      apply roundsInto_of_forall
      intro r
      rw [convert_double_long_iff]
      refine exists_congr fun i => and_congr_right fun _ => ?_
      rw [or_iff_left fun hmax => hd ⟨rfl, hmax.1⟩, and_iff_left (Kind.spans_long i)]

/-- `-2147483648.5` lies below the 32-bit integers and is rounded to the least of them, the even one
of its two neighbours. -/
theorem roundsInto_halfBelowLeast :
    (Kind.int = .int ∨ Kind.int = .long) ∧
    RoundsInto (Double.nearest true 4294967297 2) ⟨.int, false⟩ ∧
    (double (Double.nearest true 4294967297 2)).convert ⟨.int, false⟩ =
      .ok (int (-0x80000000)) := by
  have hkind : Kind.int = .int ∨ Kind.int = .long := .inl rfl
  have h : RoundsInto (Double.nearest true 4294967297 2) ⟨.int, false⟩ :=
    (roundsInto_iff hkind _).2 (by rintro ⟨⟨⟩, -⟩)
  have hrounds : (Double.nearest true 4294967297 2).RoundsTo (-0x80000000) := by decide +kernel
  exact ⟨hkind, h, (h.1 _).2 ⟨-0x80000000, rfl, hrounds, by decide, by decide⟩⟩

/-- Two to the power of sixty-three is an integer to which the 64-bit integers do not reach, and it
is converted to another one. -/
theorem not_roundsInto_firstBeyond :
    firstBeyond.RoundsTo 0x8000000000000000 ∧ ¬Kind.Spans .long 0x8000000000000000 ∧
    (double firstBeyond).convert ⟨.long, false⟩ = .ok (int 0x7fffffffffffffff) ∧
    ¬RoundsInto firstBeyond ⟨.long, false⟩ :=
  ⟨roundsTo_firstBeyond_iff.2 rfl, fun h => absurd h.2 (by decide),
    convert_double_long_iff.2 ⟨_, rfl, .inr ⟨rfl, rfl⟩⟩, not_roundsInto_long false⟩

end Literal

end SearchDialect
