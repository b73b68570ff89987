import SearchDialect.Json.Quoted
import SearchDialect.Text.Replace
import SearchDialect.Text.Utf8

/-!
# URL encoding

Percent encoding keeps ASCII letters, digits and `- _ . ~` and writes every other byte of the UTF-8
form of a text as a percent sign with two hexadecimal digits. The value of a URL parameter spells a
few of these otherwise: a plus stands for a blank, `! * ( )` for themselves, and the tilde is written
in digits. The reader takes a plus for a blank first, and leaves alone a percent sign that two
hexadecimal digits do not follow.
-/

namespace SearchDialect.Text

/-! ## Writing -/

/-- The upper-case hexadecimal digit of a value below sixteen. -/
def upperHexDigit (n : Nat) : Char := if n < 10 then Char.ofNat (48 + n) else Char.ofNat (55 + n)

/-- A byte in digits. -/
def escapeByte (b : UInt8) : List Char :=
  ['%', upperHexDigit (b.toNat / 16), upperHexDigit (b.toNat % 16)]

/-- The bytes that percent encoding keeps. -/
def isUnreserved (b : UInt8) : Bool :=
  let c := Char.ofNat b.toNat
  b.toNat < 0x80 && (c.isAlphanum || c == '-' || c == '_' || c == '.' || c == '~')

def percentByte (b : UInt8) : List Char :=
  if isUnreserved b then [Char.ofNat b.toNat] else escapeByte b

/-- The percent encoding of a text. -/
def percentEncode (cs : List Char) : List Char := (toUtf8 cs).flatMap percentByte

/-- What a URL parameter spells otherwise than percent encoding, in the order in which it is
replaced. -/
def respellings : List (List Char × List Char) := [
  (['~'], ['%', '7', 'E']),
  (['%', '2', '0'], ['+']),
  (['%', '2', '1'], ['!']),
  (['%', '2', 'A'], ['*']),
  (['%', '2', '8'], ['(']),
  (['%', '2', '9'], [')'])]

/-- A text with some words replaced, one after the other, wherever they stand. -/
def respellAll (rs : List (List Char × List Char)) (cs : List Char) : List Char :=
  rs.foldl (fun text r => replace r.1 r.2 text) cs

/-- The URL encoding of a text. -/
def urlEncode (cs : List Char) : List Char := respellAll respellings (percentEncode cs)

/-! ## Reading -/

/-- The value of a hexadecimal digit given as a byte. -/
def hexByte? (b : UInt8) : Option Nat :=
  if b.toNat < 0x80 then Json.hexValue? (Char.ofNat b.toNat) else none

/-- The bytes that a percent-encoded sequence of bytes stands for. -/
def decodeBytes : List UInt8 → List UInt8
  | [] => []
  | b :: c :: d :: rest =>
    if b = 0x25 then
      match hexByte? c, hexByte? d with
      | some x, some y => UInt8.ofNat (16 * x + y) :: decodeBytes rest
      | _, _ => b :: decodeBytes (c :: d :: rest)
    else b :: decodeBytes (c :: d :: rest)
  | b :: rest => b :: decodeBytes rest

/-- The text that a URL encoding stands for. -/
def urlDecode (cs : List Char) : Except FormatError (List Char) :=
  (ofUtf8 (decodeBytes (toUtf8 (replace ['+'] [' '] cs)))).mapError .invalidEncoding

def urlEncodeString (s : String) : String := String.ofList (urlEncode s.toList)

def urlDecodeString (s : String) : Except FormatError String :=
  (urlDecode s.toList).map String.ofList

end SearchDialect.Text
