import SearchDialect.Number.Numeral

/-!
# Decimals in JSON

A decimal in a JSON text is not read as the double nearest to it. Its digits are gathered in an
integer of 64 bits, that integer is made a double, and the double is multiplied with a power of ten
or divided by one. The integer, the power and the result are rounded one after the other, so that a
neighbour of the nearest double may be read, and a double need not come back from its own numeral.
-/

namespace SearchDialect.Json

open Number

/-- The exponent of the largest power of ten that is used as a factor. -/
def maxPower : Nat := 308

/-- The double nearest to a power of ten. -/
def powerOfTen (k : Nat) : Double := Double.nearest false (Nat.pow 10 k) 1

/-- Digits put behind a significand as long as it has 64 bits, and the digits for which there is no
room. -/
def gather (significand : Nat) : List Char → Nat × List Char
  | [] => (significand, [])
  | c :: cs =>
    let next := 10 * significand + digitValue c
    if next < 0x10000000000000000 then gather next cs else (significand, c :: cs)

/-- `f · 10 ^ k`, none if it is infinite. -/
def scaledUp? (f : Double) (k : Nat) : Option Double :=
  if k ≤ maxPower then
    let product := f.mul (powerOfTen k)
    if product.isFinite then some product else none
  else if f.isZero then some f
  else none

/-- `f / 10 ^ k`, divided by the largest power first as long as something is left of it. -/
def scaledDown (f : Double) (k : Nat) : Double :=
  if k ≤ maxPower then f.div (powerOfTen k)
  else if f.isZero then f
  else scaledDown (f.div (powerOfTen maxPower)) (k - maxPower)
termination_by k
decreasing_by
  unfold maxPower at *
  omega

/-- `f · 10 ^ exponent`, none if it is infinite. -/
def scaled? (f : Double) (exponent : Int) : Option Double :=
  if 0 ≤ exponent then scaledUp? f exponent.toNat else some (scaledDown f (-exponent).toNat)

/-- The largest exponent that is counted. -/
def maxExponent : Nat := 0x7fffffff

/-- `significand · 10 ^ (own + written)`, the written exponent being counted only up to a bound. Beyond
the bound the number is zero or infinite whatever its own exponent is. -/
def magnitude? (significand : Nat) (own written : Int) : Option Double :=
  if maxExponent < written.natAbs then
    if 0 ≤ written ∧ significand ≠ 0 then none else some Double.zero
  else scaled? (Double.ofInt significand) (own + written)

/-- The double that a numeral is read as, none if it is too large. A digit before the point for which
there is no room raises the exponent, and one behind the point is left out. -/
def decimal? (n : Numeral) : Option Double :=
  let (head, dropped) := gather 0 n.whole
  let (significand, rest) := gather head n.fraction
  let own : Int := dropped.length + rest.length - n.fraction.length
  (magnitude? significand own (n.exponent.getD 0)).map fun d => if n.negative then d.neg else d

end SearchDialect.Json
