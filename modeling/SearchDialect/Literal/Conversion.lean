import SearchDialect.Kind
import SearchDialect.Literal.Basic
import SearchDialect.Text.Blank

/-!
# Conversions between kinds

`Literal.convert` brings a literal to a kind. A text is read after its surrounding blanks are
trimmed, a double is rounded to the nearest integer, a tie going to the even one, and a character
stands for its code point.
-/

namespace SearchDialect

open Number Time

/-- What a literal is converted to: a kind, or an optional value of a kind. -/
structure Target where
  kind : Kind
  nullable : Bool := false
deriving DecidableEq, Repr

namespace Literal

/-- The integer of a finite double whose rounded value lies between the bounds of the 64-bit
integers, both included; the upper bound itself gives the largest of them. -/
def integerOfDouble? (d : Double) : Option Int64 :=
  let r := d.roundTiesEven
  if d.isFinite ∧ -0x8000000000000000 ≤ r ∧ r ≤ 0x8000000000000000 then
    some (Int64.ofInt (min r 0x7fffffffffffffff))
  else none

/-- The integer that a literal stands for. -/
def integer? : Literal → Option Int64
  | int i => some i
  | double d => integerOfDouble? d
  | bool b => some (if b then 1 else 0)
  | text s => readInt64? (Text.trim s.toList)
  | char c => some (Int64.ofInt c.toNat)
  | _ => none

/-- The double that a literal stands for. -/
def number? : Literal → Option Double
  | int i => some (Double.ofInt i.toInt)
  | double d => some d
  | bool b => some (Double.ofInt (if b then 1 else 0))
  | text s => readDouble? (Text.trim s.toList)
  | _ => none

/-- Reads a truth value, in any case of ASCII letters. -/
def readBool? (cs : List Char) : Option Bool :=
  let word := String.ofList (cs.map Char.toLower)
  if word = "true" then some true else if word = "false" then some false else none

/-- The truth value that a literal stands for: any number other than zero is true. -/
def truth? : Literal → Option Bool
  | bool b => some b
  | int i => some (i != 0)
  | double d => some (!d.isZero)
  | text s => readBool? (Text.trim s.toList)
  | _ => none

/-- The point in time that a literal stands for. -/
def time? : Literal → Option Timestamp
  | time t => some t
  | text s => readTimestamp? (Text.trim s.toList)
  | _ => none

/-- The character of a code point. -/
def charOfInt? (i : Int64) : Option Char :=
  let n := i.toInt
  if h : 0 ≤ n ∧ n.toNat.isValidChar then some (Char.ofNatAux n.toNat h.2) else none

/-- The character that a literal stands for. A text of one character is not trimmed. -/
def char? : Literal → Option Char
  | char c => some c
  | text s =>
    match s.toList with
    | [c] => some c
    | _ => none
  | int i => charOfInt? i
  | _ => none

/-- A literal that is not null, brought to a kind. -/
def convertTo? (v : Literal) : Kind → Option Literal
  | .int => (v.integer?.filter fun i => fitsInt32 i.toInt).map int
  | .long => v.integer?.map int
  | .double => v.number?.map double
  | .bool => v.truth?.map bool
  | .string => some (text v.display)
  | .datetime => v.time?.map time
  | .char => v.char?.map char

/-- A literal brought to a target. Null stays null where the target is optional or a text; the
result is missing where there is no conversion. -/
def convert? (v : Literal) (target : Target) : Option Literal :=
  if v.isNull then
    if target.nullable || target.kind == .string then some null else none
  else v.convertTo? target.kind

end Literal

end SearchDialect
