/-!
# JSON strings

`escape` writes the characters of a string between quotes, `unescape?` reads them back. A quote, a
backslash and the control characters are escaped, all else stands for itself.
-/

namespace SearchDialect.Json

/-- The lower-case hexadecimal digit of a value below sixteen. -/
def hexDigit (n : Nat) : Char := if n < 10 then Char.ofNat (48 + n) else Char.ofNat (87 + n)

/-- The written form of one character. -/
def escapeChar (c : Char) : List Char :=
  if c = '"' then ['\\', '"']
  else if c = '\\' then ['\\', '\\']
  else if c = '\x08' then ['\\', 'b']
  else if c = '\x0c' then ['\\', 'f']
  else if c = '\n' then ['\\', 'n']
  else if c = '\r' then ['\\', 'r']
  else if c = '\t' then ['\\', 't']
  else if c.toNat < 32 then
    ['\\', 'u', '0', '0', hexDigit (c.toNat / 16), hexDigit (c.toNat % 16)]
  else [c]

/-- The written form of a text. -/
def escape (cs : List Char) : List Char := cs.flatMap escapeChar

/-- The value of a hexadecimal digit of either case. -/
def hexValue? (c : Char) : Option Nat :=
  let n := c.toNat
  if 48 ≤ n ∧ n ≤ 57 then some (n - 48)
  else if 97 ≤ n ∧ n ≤ 102 then some (n - 87)
  else if 65 ≤ n ∧ n ≤ 70 then some (n - 55)
  else none

/-- The value of four hexadecimal digits. -/
def hexUnit? (a b c d : Char) : Option Nat := do
  let a ← hexValue? a
  let b ← hexValue? b
  let c ← hexValue? c
  let d ← hexValue? d
  return ((a * 16 + b) * 16 + c) * 16 + d

/-- The character of a one-letter escape. -/
def shortEscape? (c : Char) : Option Char :=
  match c with
  | '"' => some '"'
  | '\\' => some '\\'
  | '/' => some '/'
  | 'b' => some '\x08'
  | 'f' => some '\x0c'
  | 'n' => some '\n'
  | 'r' => some '\r'
  | 't' => some '\t'
  | _ => none

/-- The first unit of a surrogate pair. -/
def isLeading (n : Nat) : Bool := 0xD800 ≤ n && n ≤ 0xDBFF

/-- The second unit of a surrogate pair. -/
def isTrailing (n : Nat) : Bool := 0xDC00 ≤ n && n ≤ 0xDFFF

/-- Reads the written form of a text. The two units of a surrogate pair have to stand together;
fails on either of them alone, and on an escape that does not exist. -/
def unescape? : List Char → Option (List Char)
  | [] => some []
  | '\\' :: 'u' :: a :: b :: c :: d :: rest =>
    match hexUnit? a b c d with
    | none => none
    | some n =>
      if isTrailing n then none
      else if isLeading n then
        match rest with
        | '\\' :: 'u' :: a' :: b' :: c' :: d' :: rest' =>
          match hexUnit? a' b' c' d' with
          | none => none
          | some m =>
            if isTrailing m then
              (unescape? rest').map
                (Char.ofNat (0x10000 + (n - 0xD800) * 0x400 + (m - 0xDC00)) :: ·)
            else none
        | _ => none
      else (unescape? rest).map (Char.ofNat n :: ·)
  | '\\' :: c :: rest =>
    match shortEscape? c with
    | none => none
    | some x => (unescape? rest).map (x :: ·)
  | ['\\'] => none
  | c :: rest => (unescape? rest).map (c :: ·)

/-- The written characters of a string after its opening quote, and what follows the closing one.
Escapes are only told apart here, not interpreted; control characters are refused. -/
def scanString? : List Char → Option (List Char × List Char)
  | [] => none
  | '"' :: rest => some ([], rest)
  | '\\' :: 'u' :: a :: b :: c :: d :: rest =>
    if (hexUnit? a b c d).isSome then
      (scanString? rest).map fun r => ('\\' :: 'u' :: a :: b :: c :: d :: r.1, r.2)
    else none
  | '\\' :: c :: rest =>
    if (shortEscape? c).isSome then (scanString? rest).map fun r => ('\\' :: c :: r.1, r.2)
    else none
  | c :: rest =>
    if c = '\\' ∨ c.toNat < 32 then none else (scanString? rest).map fun r => (c :: r.1, r.2)

theorem length_scanString? {cs body rest : List Char} (h : scanString? cs = some (body, rest)) :
    rest.length < cs.length := by
  fun_induction scanString? cs generalizing body rest with
  | case1 => simp at h
  | case2 r =>
    cases h
    simp
  | case3 a b c d r hx ih =>
    obtain ⟨⟨x, y⟩, hr, he⟩ := Option.map_eq_some_iff.1 h
    cases he
    have := ih hr
    simp only [List.length_cons]
    omega
  | case4 => simp at h
  | case5 c r _ hs ih =>
    obtain ⟨⟨x, y⟩, hr, he⟩ := Option.map_eq_some_iff.1 h
    cases he
    have := ih hr
    simp only [List.length_cons]
    omega
  | case6 => simp at h
  | case7 => simp at h
  | case8 c r _ _ _ hc ih =>
    obtain ⟨⟨x, y⟩, hr, he⟩ := Option.map_eq_some_iff.1 h
    cases he
    have := ih hr
    simp only [List.length_cons]
    omega

end SearchDialect.Json
