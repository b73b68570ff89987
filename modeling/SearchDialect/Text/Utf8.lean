import SearchDialect.FormatError

/-!
# UTF-8

Texts as bytes and back. A fault names the first byte that is not part of a character, and how many
bytes from there on belong together.
-/

namespace SearchDialect.Text

def charBytes (c : Char) : List UInt8 :=
  let n := c.toNat
  let tail (k : Nat) : UInt8 := UInt8.ofNat (0x80 + n / k % 0x40)
  if n < 0x80 then [UInt8.ofNat n]
  else if n < 0x800 then [UInt8.ofNat (0xC0 + n / 0x40), tail 1]
  else if n < 0x10000 then [UInt8.ofNat (0xE0 + n / 0x1000), tail 0x40, tail 1]
  else [UInt8.ofNat (0xF0 + n / 0x40000), tail 0x1000, tail 0x40, tail 1]

def toUtf8 (cs : List Char) : List UInt8 := cs.flatMap charBytes

/-- What the first bytes of a sequence are. -/
inductive Lead where
  | char (c : Char) (length : Nat)
  /-- This many bytes belong together and the next one does not continue them. -/
  | invalid (length : Nat)
  /-- The bytes end inside a character. -/
  | incomplete

/-- A byte that continues a character. -/
def isTail (b : UInt8) : Bool := 0x80 ≤ b.toNat && b.toNat < 0xC0

/-- Whether a byte can follow the first byte of a character of three or four bytes: the shortest
encoding is the only one, and surrogates and code points beyond the last have none. -/
def isSecond (first second : UInt8) : Bool :=
  let a := first.toNat
  let b := second.toNat
  let least := if a = 0xE0 then 0xA0 else if a = 0xF0 then 0x90 else 0x80
  let most := if a = 0xED then 0x9F else if a = 0xF4 then 0x8F else 0xBF
  least ≤ b && b ≤ most

/-- The six bits of a continuing byte. -/
def tailBits (b : UInt8) : Nat := b.toNat % 0x40

/-- Looks at the first character of a sequence that starts with a byte. -/
def lead (first : UInt8) (rest : List UInt8) : Lead :=
  let a := first.toNat
  if a < 0x80 then .char (Char.ofNat a) 1
  else if a < 0xC2 then .invalid 1
  else if a < 0xE0 then
    match rest with
    | [] => .incomplete
    | b :: _ =>
      if isTail b then .char (Char.ofNat ((a - 0xC0) * 0x40 + tailBits b)) 2 else .invalid 1
  else if a < 0xF0 then
    match rest with
    | [] => .incomplete
    | b :: rest =>
      if !isSecond first b then .invalid 1
      else
        match rest with
        | [] => .incomplete
        | c :: _ =>
          if isTail c then
            .char (Char.ofNat (((a - 0xE0) * 0x40 + tailBits b) * 0x40 + tailBits c)) 3
          else .invalid 2
  else if a < 0xF5 then
    match rest with
    | [] => .incomplete
    | b :: rest =>
      if !isSecond first b then .invalid 1
      else
        match rest with
        | [] => .incomplete
        | c :: rest =>
          if !isTail c then .invalid 2
          else
            match rest with
            | [] => .incomplete
            | d :: _ =>
              if isTail d then
                .char (Char.ofNat ((((a - 0xF0) * 0x40 + tailBits b) * 0x40 + tailBits c) * 0x40 +
                  tailBits d)) 4
              else .invalid 3
  else .invalid 1

/-- The text of bytes of which the first stands at an index. -/
def ofUtf8From (index : Nat) (bytes : List UInt8) : Except Utf8Fault (List Char) :=
  match bytes with
  | [] => .ok []
  | b :: rest =>
    match lead b rest with
    | .invalid n => .error (.invalid n index)
    | .incomplete => .error (.incomplete index)
    | .char c n => (ofUtf8From (index + n) (rest.drop (n - 1))).map (c :: ·)
termination_by bytes.length
decreasing_by
  simp only [List.length_drop, List.length_cons]
  omega

def ofUtf8 (bytes : List UInt8) : Except Utf8Fault (List Char) := ofUtf8From 0 bytes

end SearchDialect.Text
