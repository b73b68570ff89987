import SearchDialect.Number.Double

/-!
# Shortest decimals

The decimal of fewest digits that is read back as a given double, and among those the one nearest
to it. A tie between two of them is the caller's choice. `readsBack_of_neighbour?` is the law of
the search: a decimal it finds is read back as the number it came from.
-/

namespace SearchDialect.Number

/-- A decimal magnitude `digits · 10 ^ exponent`. -/
structure Decimal where
  digits : Nat
  exponent : Int
deriving DecidableEq, Repr

/-- Which of two equally near decimals is taken. -/
inductive Tie where
  /-- The larger one. -/
  | up
  /-- The one whose last digit is even. -/
  | even
deriving DecidableEq, Repr

namespace Decimal

/-- Moves trailing zeros of the digits into the exponent. -/
def strip (fuel : Nat) (d : Decimal) : Decimal :=
  match fuel with
  | 0 => d
  | fuel + 1 =>
    if d.digits % 10 == 0 && d.digits != 0 then strip fuel ⟨d.digits / 10, d.exponent + 1⟩ else d

def width (n : Nat) : Nat := (Nat.toDigits 10 n).length

/-- The exponent of ten of the first digit of `num / den`. -/
def leadingExponent (num den : Nat) : Int :=
  if den ≤ num then (width (num / den) : Int) - 1
  else -(width ((den + num - 1) / num - 1) : Int)

/-- `num / den / 10 ^ k` as a quotient of whole numbers. -/
def scaledDown (num den : Nat) (k : Int) : Nat × Nat :=
  if 0 ≤ k then (num, den * Nat.pow 10 k.toNat) else (num * Nat.pow 10 (-k).toNat, den)

/-- Whether a decimal is read back as the double of the same sign. -/
def readsBack (d : Double) (c : Decimal) : Bool :=
  Double.ofDecimal d.negative c.digits c.exponent == d

/-- The better of a double's two neighbours among the decimals of `p` digits, if one of them is
read back. -/
def neighbour? (tie : Tie) (d : Double) (p : Nat) : Option Decimal :=
  let (num, den) := d.ratio
  let k := leadingExponent num den - p + 1
  let (n, m) := scaledDown num den k
  let below := n / m
  let lower : Decimal := ⟨below, k⟩
  let upper : Decimal := ⟨below + 1, k⟩
  let twice := 2 * (n % m)
  let preferUpper := m < twice || (m == twice && (tie == .up || below % 2 == 1))
  match readsBack d lower, readsBack d upper with
  | true, true => some (if preferUpper then upper else lower)
  | true, false => some lower
  | false, true => some upper
  | false, false => none

/-- A neighbour that is taken is read back. -/
theorem readsBack_of_neighbour? {tie : Tie} {d : Double} {p : Nat} {c : Decimal}
    (h : neighbour? tie d p = some c) : readsBack d c = true := by
  simp only [neighbour?] at h
  split at h
  · next hl hu =>
    split at h <;> (injection h with h; subst h; assumption)
  · next hl _ => injection h with h; subst h; exact hl
  · next _ hu => injection h with h; subst h; exact hu
  · cases h

/-- All digits of a finite double. -/
def exact (d : Double) : Decimal :=
  if 0 ≤ d.scale then ⟨d.significand * Nat.pow 2 d.scale.toNat, 0⟩
  else ⟨d.significand * Nat.pow 5 (-d.scale).toNat, d.scale⟩

/-- The shortest decimal of a finite double. Seventeen digits always suffice. -/
def shortest (tie : Tie) (d : Double) : Decimal :=
  if d.isZero then ⟨0, 0⟩
  else
    strip 17 (((List.range' 1 17).findSome? (neighbour? tie d)).getD (exact d))

end Decimal

end SearchDialect.Number
