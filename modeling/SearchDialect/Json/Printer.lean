import SearchDialect.Json.Basic
import SearchDialect.Json.Quoted
import SearchDialect.Number.Numeral

/-!
# Printing JSON

The compact text of a value, members in the order in which they stand. Infinities and NaNs have no
numeral and are printed as null.
-/

namespace SearchDialect.Json

open Number

def quotedChars (cs : List Char) : List Char := '"' :: (escape cs ++ ['"'])

/-- The characters of a number, null for one without a numeral. -/
def doubleChars (d : Double) : List Char :=
  match d.numeral? with
  | some n => n.text
  | none => "null".toList

mutual

/-- The compact text of a value. -/
def chars : Json → List Char
  | .null => "null".toList
  | .bool true => "true".toList
  | .bool false => "false".toList
  | .int i => intDigits i
  | .double d => doubleChars d
  | .str s => quotedChars s.toList
  | .arr [] => ['[', ']']
  | .arr (v :: vs) => '[' :: (chars v ++ itemsChars vs)
  | .obj [] => ['\x7b', '\x7d']
  | .obj ((n, v) :: ms) => '\x7b' :: (quotedChars n.toList ++ ':' :: (chars v ++ membersChars ms))

/-- Further items and the closing bracket. -/
def itemsChars : List Json → List Char
  | [] => [']']
  | v :: vs => ',' :: (chars v ++ itemsChars vs)

/-- Further members and the closing brace. -/
def membersChars : List (String × Json) → List Char
  | [] => ['\x7d']
  | (n, v) :: ms => ',' :: (quotedChars n.toList ++ ':' :: (chars v ++ membersChars ms))

end

def text (j : Json) : String := String.ofList (chars j)

end SearchDialect.Json
