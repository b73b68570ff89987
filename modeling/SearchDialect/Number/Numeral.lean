import SearchDialect.Number.Integer
import SearchDialect.Number.Shortest

/-!
# Numerals

A numeral is a number as it is written: sign, digits before and after the point, exponent of ten.
A double has two written forms here: `display`, which never uses an exponent, and `numeral?`, which
always shows a point or an exponent and so tells doubles from integers.
-/

namespace SearchDialect.Number

/-- A written number. Without fraction digits no point is written. -/
structure Numeral where
  negative : Bool
  whole : List Char
  fraction : List Char
  exponent : Option Int
deriving DecidableEq, Repr

namespace Numeral

/-- The signed digits of an exponent, the plus written out. -/
def exponentText (e : Int) : List Char :=
  (if e < 0 then '-' else '+') :: toDigits e.natAbs

def text (n : Numeral) : List Char :=
  (if n.negative then ['-'] else []) ++ n.whole ++
    (if n.fraction.isEmpty then [] else '.' :: n.fraction) ++
    (match n.exponent with
      | none => []
      | some e => 'e' :: exponentText e)

def toDouble (n : Numeral) : Double :=
  Double.ofDecimal n.negative (ofDigits (n.whole ++ n.fraction))
    (n.exponent.getD 0 - n.fraction.length)

/-- A decimal written without an exponent. -/
def positional (negative : Bool) (d : Decimal) : Numeral :=
  let ds := toDigits d.digits
  let point : Int := ds.length + d.exponent
  if 0 ≤ d.exponent then ⟨negative, ds ++ List.replicate d.exponent.toNat '0', [], none⟩
  else if 0 < point then ⟨negative, ds.take point.toNat, ds.drop point.toNat, none⟩
  else ⟨negative, ['0'], List.replicate (-point).toNat '0' ++ ds, none⟩

/-- A decimal written with one digit before the point, and with an exponent. -/
def scientific (negative : Bool) (d : Decimal) : Numeral :=
  let ds := toDigits d.digits
  ⟨negative, ds.take 1, ds.drop 1, some (ds.length - 1 + d.exponent)⟩

/-- The same numeral with at least one digit after the point. -/
def pointed (n : Numeral) : Numeral :=
  if n.fraction.isEmpty && n.exponent.isNone then { n with fraction := ['0'] } else n

/-- Numerals are written with an exponent from the power of ten after this one up. -/
def largestPositional : Int := 16

/-- Numerals are written with an exponent below the power of ten that has this many zeros after
the point. -/
def smallestPositional : Int := -5

/-- The numeral of a finite double: its shortest decimal, without an exponent from `1e-5` up to
below `1e16`, and with one outside. A tie between two shortest decimals goes to the even digit. -/
def ofFinite (d : Double) : Numeral :=
  let s := Decimal.shortest .even d
  let point : Int := (toDigits s.digits).length + s.exponent
  if smallestPositional < point ∧ point ≤ largestPositional then
    (positional d.negative s).pointed
  else scientific d.negative s

def ofInt (i : Int) : Numeral := ⟨decide (i < 0), toDigits i.natAbs, [], none⟩

end Numeral

namespace Double

/-- The numeral of a double. The infinities and the NaNs have none. -/
def numeral? (d : Double) : Option Numeral :=
  if d.isFinite then some (Numeral.ofFinite d) else none

/-- A double for the reader's eye: its shortest decimal without an exponent, a whole number without
a point, and words for the infinities and the NaNs. A tie between two shortest decimals goes up. -/
def display (d : Double) : String :=
  if d.isNaN then "NaN"
  else if !d.isFinite then (if d.negative then "-inf" else "inf")
  else String.ofList (Numeral.positional d.negative (Decimal.shortest .up d)).text

end Double

/-! ## Reading a double -/

/-- Splits a text after its leading ASCII digits. -/
def spanDigits (cs : List Char) : List Char × List Char :=
  (cs.takeWhile Char.isDigit, cs.dropWhile Char.isDigit)

/-- Reads an exponent that takes up the whole text: nothing, or `e` with a signed number. -/
def readExponent? : List Char → Option (Option Int)
  | [] => some none
  | c :: cs => if c = 'e' ∨ c = 'E' then (readInt? cs).map some else none

/-- Reads an unsigned decimal: digits with a point before, among or after them, or none, and an
exponent. -/
def readUnsigned? (negative : Bool) (cs : List Char) : Option Numeral :=
  let (whole, rest) := spanDigits cs
  let (fraction, rest) := match rest with
    | '.' :: r => spanDigits r
    | r => ([], r)
  if whole.isEmpty && fraction.isEmpty then none
  else (readExponent? rest).map fun e => ⟨negative, whole, fraction, e⟩

/-- Reads a double: an optional sign, then a decimal or, in any case, `inf`, `infinity` or `nan`.
The whole text has to be used up. -/
def readDouble? (cs : List Char) : Option Double :=
  let (negative, body) := match cs with
    | '-' :: r => (true, r)
    | '+' :: r => (false, r)
    | r => (false, r)
  match readUnsigned? negative body with
  | some n => some n.toDouble
  | none =>
    let word := String.ofList (body.map Char.toLower)
    if word = "inf" ∨ word = "infinity" then
      some (Double.ofMagnitude negative Double.infiniteMagnitude)
    else if word = "nan" then some (Double.ofMagnitude negative Double.quietMagnitude)
    else none

end SearchDialect.Number
