/-!
# Whole numbers as text

Runs of ASCII digits, and the signed and unsigned 64-bit integers they are read as.
-/

namespace SearchDialect.Number

/-- The value of an ASCII digit. -/
def digitValue (c : Char) : Nat := c.toNat - 48

/-- The value of a run of digits in base ten, the first digit weighing most. -/
def ofDigits (ds : List Char) : Nat := ds.foldl (fun n c => 10 * n + digitValue c) 0

/-- The decimal digits of a number, without leading zeros. -/
def toDigits (n : Nat) : List Char := Nat.toDigits 10 n

/-- A number in decimal digits, filled up with zeros on the left to a least width. -/
def padded (width n : Nat) : List Char :=
  List.replicate (width - (toDigits n).length) '0' ++ toDigits n

/-- The decimal digits of an integer, after a minus if it is negative. -/
def intDigits (i : Int) : List Char :=
  if i < 0 then '-' :: toDigits i.natAbs else toDigits i.natAbs

/-- Reads a nonempty run of ASCII digits. -/
def readNat? (cs : List Char) : Option Nat :=
  if cs.isEmpty || !cs.all Char.isDigit then none else some (ofDigits cs)

/-- Reads digits after an optional sign. -/
def readInt? : List Char → Option Int
  | '+' :: ds => (readNat? ds).map Int.ofNat
  | '-' :: ds => (readNat? ds).map fun n => -(n : Int)
  | ds => (readNat? ds).map Int.ofNat

/-- Whether a value is a signed 32-bit integer. -/
def fitsInt32 (i : Int) : Bool := -0x80000000 ≤ i && i < 0x80000000

/-- The 64-bit integer of a value, if it has one. -/
def int64? (i : Int) : Option Int64 :=
  if -0x8000000000000000 ≤ i ∧ i < 0x8000000000000000 then some (Int64.ofInt i) else none

/-- The unsigned 64-bit integer of a value, if it has one. -/
def uint64? (i : Int) : Option UInt64 :=
  if 0 ≤ i ∧ i < 0x10000000000000000 then some (UInt64.ofNat i.toNat) else none

/-- Reads a 64-bit integer: an optional sign and digits, within range. -/
def readInt64? (cs : List Char) : Option Int64 := (readInt? cs).bind int64?

/-- Reads an unsigned 64-bit integer: an optional plus and digits, within range. -/
def readUInt64? : List Char → Option UInt64
  | '+' :: ds => (readNat? ds).bind fun n => uint64? n
  | ds => (readNat? ds).bind fun n => uint64? n

def intText (i : Int) : String := String.ofList (intDigits i)

def natText (n : Nat) : String := String.ofList (toDigits n)

end SearchDialect.Number
