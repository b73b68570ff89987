/-!
# Binary64 numbers

A double is its 64 bits: a sign, eleven bits of exponent and fifty-two of fraction. Every operation
is exact arithmetic on whole numbers followed by one rounding, so that it can be reasoned about:
a finite double stands for `significand · 2 ^ scale` under its sign, and `nearest` gives the double
closest to a quotient, a tie going to the even significand.
-/

namespace SearchDialect.Number

/-- A binary64 number, held as its bits. -/
structure Double where
  bits : UInt64
deriving DecidableEq, Inhabited

namespace Double

/-- The weight of the sign bit, two to the power of sixty-three. -/
def signBit : Nat := 0x8000000000000000

/-- The weight of the lowest bit of the exponent, and of the leading bit that a normal number does
not store: two to the power of fifty-two. -/
def hiddenBit : Nat := 0x10000000000000

/-- The double of a sign and a magnitude, the magnitude being exponent and fraction read as one
number below the sign bit. -/
def ofMagnitude (negative : Bool) (magnitude : Nat) : Double :=
  ⟨UInt64.ofNat ((if negative then signBit else 0) + magnitude)⟩

/-- Whether the sign bit is set. -/
def negative (d : Double) : Bool := signBit ≤ d.bits.toNat

/-- Exponent and fraction as one number. Among numbers it grows with the absolute value. -/
def magnitude (d : Double) : Nat := d.bits.toNat % signBit

/-- The magnitude of the infinities. -/
def infiniteMagnitude : Nat := 2047 * hiddenBit

/-- The magnitude of the quiet NaN. -/
def quietMagnitude : Nat := infiniteMagnitude + hiddenBit / 2

/-- Neither an infinity nor a NaN. -/
def isFinite (d : Double) : Bool := d.magnitude < infiniteMagnitude

def isNaN (d : Double) : Bool := infiniteMagnitude < d.magnitude

/-- Zero of either sign. -/
def isZero (d : Double) : Bool := d.magnitude == 0

/-- The whole number that a finite double scales by a power of two. -/
def significand (d : Double) : Nat :=
  if d.magnitude < hiddenBit then d.magnitude else hiddenBit + d.magnitude % hiddenBit

/-- The exponent of two that scales the significand of a finite double. -/
def scale (d : Double) : Int :=
  if d.magnitude < hiddenBit then -1074 else (d.magnitude / hiddenBit : Nat) - 1075

def zero : Double := ofMagnitude false 0

def infinity : Double := ofMagnitude false infiniteMagnitude

/-- The same number under the other sign. -/
def neg (d : Double) : Double := ofMagnitude (!d.negative) d.magnitude

/-- The sign of a number, applied to a whole number. -/
def applySign (negative : Bool) (n : Nat) : Int := if negative then -(n : Int) else n

/-! ## Rounding -/

/-- The whole number nearest to `num / den`, a tie going to the even one. -/
def roundDiv (num den : Nat) : Nat :=
  let q := num / den
  let r := num % den
  if 2 * r < den then q
  else if den < 2 * r then q + 1
  else if q % 2 == 0 then q else q + 1

/-- `num / den · 2 ^ shift` as a quotient of whole numbers. -/
def shifted (num den : Nat) (shift : Int) : Nat × Nat :=
  if 0 ≤ shift then (num * Nat.pow 2 shift.toNat, den) else (num, den * Nat.pow 2 (-shift).toNat)

/-- The exponent of two at which `num / den` has a significand of fifty-three bits; at least
`-1074`, the exponent of the smallest doubles. -/
def scaleOf (num den : Nat) : Int :=
  -- The logarithms tell the exponent up to one, and the quotient itself decides.
  let guess : Int := (Nat.log2 num : Int) - Nat.log2 den - 53
  let (n, d) := shifted num den (-guess)
  max (-1074) (if n / d < 2 * hiddenBit then guess else guess + 1)

/-- The magnitude nearest to `num / den`: the rounded significand and its scale as one number, so
that a significand rounded up to a power of two moves to the next scale by itself. -/
def nearestMagnitude (num den : Nat) : Nat :=
  if num = 0 then 0
  else
    let e := scaleOf num den
    let (n, d) := shifted num den (-e)
    min infiniteMagnitude ((e + 1074).toNat * hiddenBit + roundDiv n d)

/-- The double nearest to `± num / den`. -/
def nearest (negative : Bool) (num den : Nat) : Double :=
  ofMagnitude negative (nearestMagnitude num den)

def ofInt (i : Int) : Double := nearest (decide (i < 0)) i.natAbs 1

/-- The double nearest to `± digits · 10 ^ exponent`. Beyond the exponents at which every number is
infinite or zero the power of ten is not computed. -/
def ofDecimal (negative : Bool) (digits : Nat) (exponent : Int) : Double :=
  let width : Int := (Nat.toDigits 10 digits).length
  if digits = 0 then ofMagnitude negative 0
  else if 310 < width + exponent then ofMagnitude negative infiniteMagnitude
  else if width + exponent < -330 then ofMagnitude negative 0
  else if 0 ≤ exponent then nearest negative (digits * Nat.pow 10 exponent.toNat) 1
  else nearest negative digits (Nat.pow 10 (-exponent).toNat)

/-! ## Exact values -/

/-- The absolute value of a finite double as a quotient of whole numbers. -/
def ratio (d : Double) : Nat × Nat := shifted d.significand 1 d.scale

/-- The integer nearest to a finite double, a tie going to the even one. -/
def roundTiesEven (d : Double) : Int :=
  let (n, m) := d.ratio
  applySign d.negative (roundDiv n m)

/-- The product of two finite doubles, rounded once. -/
def mul (a b : Double) : Double :=
  nearest (a.negative != b.negative) (a.ratio.1 * b.ratio.1) (a.ratio.2 * b.ratio.2)

/-- The quotient of two finite doubles, of which the second is not zero, rounded once. -/
def div (a b : Double) : Double :=
  nearest (a.negative != b.negative) (a.ratio.1 * b.ratio.2) (a.ratio.2 * b.ratio.1)

/-- The order key of a number: both zeros have the same. -/
def key (d : Double) : Int := applySign d.negative d.magnitude

/-- `a < b` on numbers; false if either is a NaN. -/
def lt (a b : Double) : Bool := !a.isNaN && !b.isNaN && decide (a.key < b.key)

end Double

end SearchDialect.Number
