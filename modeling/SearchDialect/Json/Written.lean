import SearchDialect.Json.Basic
import SearchDialect.Json.Decimal
import SearchDialect.Json.Quoted
import SearchDialect.Number.Numeral
import SearchDialect.Text.After

/-!
# JSON as it is written

A JSON text is read in two steps. `Written.read?` checks the grammar of RFC 8259 and keeps numbers
and strings as they are written; `Written.toJson?` gives them their meaning. A reader of a text that
ignores some members looks only at the grammar of those. Meaning can be missing: a number may be too
large for a double, a surrogate may stand alone, and containers may be nested too deep.
-/

namespace SearchDialect.Json

open Number Text

/-- A JSON text as it is written: the grammar is checked, numbers and strings are not
interpreted. -/
inductive Written where
  | null
  | bool (b : Bool)
  | number (n : Numeral)
  | string (body : List Char)
  | array (items : List Written)
  | object (members : List (List Char × Written))
deriving Inhabited

/-! ## Grammar -/

/-- White space between tokens. -/
def isSpace (c : Char) : Bool := c == ' ' || c == '\n' || c == '\r' || c == '\t'

/-- What is left after leading white space. -/
def skipSpace (cs : List Char) : List Char := cs.dropWhile isSpace

theorem length_skipSpace_le (cs : List Char) : (skipSpace cs).length ≤ cs.length :=
  (List.dropWhile_sublist isSpace).length_le

/-- The digits before the point: a zero alone, or digits that do not start with one. -/
def scanWhole? : List Char → Option (List Char × List Char)
  | [] => none
  | c :: cs =>
    if c = '0' then some (['0'], cs)
    else if c.isDigit then
      let (ds, rest) := spanDigits cs
      some (c :: ds, rest)
    else none

/-- A point and at least one digit, or nothing. -/
def scanFraction? : List Char → Option (List Char × List Char)
  | '.' :: cs =>
    let (ds, rest) := spanDigits cs
    if ds.isEmpty then none else some (ds, rest)
  | cs => some ([], cs)

/-- The sign and the digits of an exponent. -/
def scanExponentDigits? (negative : Bool) (cs : List Char) : Option (Int × List Char) :=
  let (ds, rest) := spanDigits cs
  if ds.isEmpty then none else some (Double.applySign negative (ofDigits ds), rest)

/-- An `e` with a signed number, or nothing. -/
def scanExponent? : List Char → Option (Option Int × List Char)
  | [] => some (none, [])
  | c :: cs =>
    if c = 'e' ∨ c = 'E' then
      let scanned := match cs with
        | '+' :: r => scanExponentDigits? false r
        | '-' :: r => scanExponentDigits? true r
        | r => scanExponentDigits? false r
      scanned.map fun r => (some r.1, r.2)
    else some (none, c :: cs)

def scanUnsigned? (negative : Bool) (cs : List Char) : Option (Numeral × List Char) := do
  let (whole, cs) ← scanWhole? cs
  let (fraction, cs) ← scanFraction? cs
  let (exponent, cs) ← scanExponent? cs
  return (⟨negative, whole, fraction, exponent⟩, cs)

def scanNumber? : List Char → Option (Numeral × List Char)
  | '-' :: cs => scanUnsigned? true cs
  | cs => scanUnsigned? false cs

theorem length_spanDigits_le (cs : List Char) : (spanDigits cs).2.length ≤ cs.length :=
  (List.dropWhile_sublist _).length_le

theorem length_scanWhole? {cs ds r : List Char} (h : scanWhole? cs = some (ds, r)) :
    r.length < cs.length := by
  cases cs with
  | nil => simp [scanWhole?] at h
  | cons c cs =>
    simp only [scanWhole?] at h
    have := length_spanDigits_le cs
    split at h
    · cases h; simp
    · split at h
      · cases h; simp only [List.length_cons]; omega
      · cases h

theorem length_scanFraction? {cs ds r : List Char} (h : scanFraction? cs = some (ds, r)) :
    r.length ≤ cs.length := by
  simp only [scanFraction?] at h
  split at h
  · next cs =>
    have := length_spanDigits_le cs
    split at h
    · cases h
    · cases h; simp only [List.length_cons]; omega
  · cases h; exact Nat.le_refl _

theorem length_scanExponentDigits? {neg : Bool} {cs r : List Char} {e : Int}
    (h : scanExponentDigits? neg cs = some (e, r)) : r.length ≤ cs.length := by
  simp only [scanExponentDigits?] at h
  have := length_spanDigits_le cs
  split at h
  · cases h
  · cases h; exact this

theorem length_scanExponent? {cs r : List Char} {e : Option Int}
    (h : scanExponent? cs = some (e, r)) : r.length ≤ cs.length := by
  cases cs with
  | nil => cases h; simp
  | cons c cs =>
    simp only [scanExponent?] at h
    split at h
    · obtain ⟨⟨x, y⟩, hx, he⟩ := Option.map_eq_some_iff.1 h
      cases he
      simp only [List.length_cons]
      split at hx
      all_goals
        have := length_scanExponentDigits? hx
        simp only [List.length_cons] at *
        omega
    · cases h; simp

theorem length_scanUnsigned? {neg : Bool} {cs r : List Char} {n : Numeral}
    (h : scanUnsigned? neg cs = some (n, r)) : r.length < cs.length := by
  simp only [scanUnsigned?, Option.bind_eq_bind, Option.bind_eq_some_iff, Prod.exists] at h
  obtain ⟨w, r₁, h₁, f, r₂, h₂, e, r₃, h₃, h₄⟩ := h
  cases h₄
  have := length_scanWhole? h₁
  have := length_scanFraction? h₂
  have := length_scanExponent? h₃
  omega

theorem length_scanNumber? {cs r : List Char} {n : Numeral}
    (h : scanNumber? cs = some (n, r)) : r.length < cs.length := by
  simp only [scanNumber?] at h
  split at h
  · have := length_scanUnsigned? h
    simp only [List.length_cons]
    omega
  · exact length_scanUnsigned? h

namespace Written

/-- The rest of a text of which something has been read. -/
abbrev Rest (cs : List Char) := { r : List Char // r.length < cs.length }

/-- A value that is a single token. -/
def readScalar? (cs : List Char) : Option (Written × Rest cs) :=
  match h : cs with
  | [] => none
  | 'n' :: r =>
    match hw : afterWord? ['u', 'l', 'l'] r with
    | some r' => some (.null, ⟨r', by
        have := length_afterWord? hw
        simp only [List.length_cons] at *; omega⟩)
    | none => none
  | 't' :: r =>
    match hw : afterWord? ['r', 'u', 'e'] r with
    | some r' => some (.bool true, ⟨r', by
        have := length_afterWord? hw
        simp only [List.length_cons] at *; omega⟩)
    | none => none
  | 'f' :: r =>
    match hw : afterWord? ['a', 'l', 's', 'e'] r with
    | some r' => some (.bool false, ⟨r', by
        have := length_afterWord? hw
        simp only [List.length_cons] at *; omega⟩)
    | none => none
  | '"' :: r =>
    match hw : scanString? r with
    | some (body, r') => some (.string body, ⟨r', by
        have := length_scanString? hw
        simp only [List.length_cons]; omega⟩)
    | none => none
  | c :: r =>
    match hw : scanNumber? (c :: r) with
    | some (n, r') => some (.number n, ⟨r', length_scanNumber? hw⟩)
    | none => none

mutual

/-- A value after leading white space. -/
def readValue? (cs : List Char) : Option (Written × Rest cs) :=
  match h : skipSpace cs with
  | [] => none
  | '[' :: r =>
    match hs : skipSpace r with
    | ']' :: r' => some (.array [], ⟨r', by
        have := length_skipSpace_le cs
        have := length_skipSpace_le r
        simp only [h, hs, List.length_cons] at *; omega⟩)
    | _ =>
      match readItems? r with
      | some (items, ⟨r', hr⟩) => some (.array items, ⟨r', by
          have := length_skipSpace_le cs
          simp only [h, List.length_cons] at *; omega⟩)
      | none => none
  | '\x7b' :: r =>
    match hs : skipSpace r with
    | '\x7d' :: r' => some (.object [], ⟨r', by
        have := length_skipSpace_le cs
        have := length_skipSpace_le r
        simp only [h, hs, List.length_cons] at *; omega⟩)
    | _ =>
      match readMembers? r with
      | some (members, ⟨r', hr⟩) => some (.object members, ⟨r', by
          have := length_skipSpace_le cs
          simp only [h, List.length_cons] at *; omega⟩)
      | none => none
  | c :: r =>
    match readScalar? (c :: r) with
    | some (v, ⟨r', hr⟩) => some (v, ⟨r', by
        have := length_skipSpace_le cs
        simp only [h, List.length_cons] at *; omega⟩)
    | none => none
termination_by (cs.length, 0)
decreasing_by
  all_goals
    have := length_skipSpace_le cs
    simp only [h, List.length_cons] at *
    omega

/-- At least one item, up to the closing bracket. -/
def readItems? (cs : List Char) : Option (List Written × Rest cs) :=
  match readValue? cs with
  | none => none
  | some (v, ⟨r, hr⟩) =>
    match h : skipSpace r with
    | ']' :: r' => some ([v], ⟨r', by
        have := length_skipSpace_le r
        simp only [h, List.length_cons] at *; omega⟩)
    | ',' :: r' =>
      match readItems? r' with
      | some (vs, ⟨r'', hr''⟩) => some (v :: vs, ⟨r'', by
          have := length_skipSpace_le r
          simp only [h, List.length_cons] at *; omega⟩)
      | none => none
    | _ => none
termination_by (cs.length, 1)
decreasing_by
  · exact Prod.Lex.right _ Nat.zero_lt_one
  · have := length_skipSpace_le r
    simp only [h, List.length_cons] at *
    omega

/-- At least one member, up to the closing brace. -/
def readMembers? (cs : List Char) : Option (List (List Char × Written) × Rest cs) :=
  match hk : skipSpace cs with
  | '"' :: k =>
    match hn : scanString? k with
    | none => none
    | some (name, k') =>
      match hc : skipSpace k' with
      | ':' :: v =>
        match readValue? v with
        | none => none
        | some (value, ⟨r, hr⟩) =>
          match h : skipSpace r with
          | '\x7d' :: r' => some ([(name, value)], ⟨r', by
              have := length_skipSpace_le cs
              have := length_skipSpace_le k'
              have := length_skipSpace_le r
              have := length_scanString? hn
              simp only [hk, hc, h, List.length_cons] at *; omega⟩)
          | ',' :: r' =>
            match readMembers? r' with
            | some (ms, ⟨r'', hr''⟩) => some ((name, value) :: ms, ⟨r'', by
                have := length_skipSpace_le cs
                have := length_skipSpace_le k'
                have := length_skipSpace_le r
                have := length_scanString? hn
                simp only [hk, hc, h, List.length_cons] at *; omega⟩)
            | none => none
          | _ => none
      | _ => none
  | _ => none
termination_by (cs.length, 1)
decreasing_by
  all_goals
    have := length_skipSpace_le cs
    have := length_skipSpace_le k'
    have := length_scanString? hn
    try have := length_skipSpace_le r
    try simp only [h] at *
    simp only [hk, hc, List.length_cons] at *
    omega

end

/-- Reads a whole text: one value with white space around it. -/
def read? (cs : List Char) : Option Written :=
  match readValue? cs with
  | some (v, ⟨r, _⟩) => if (skipSpace r).isEmpty then some v else none
  | none => none

/-! ## Meaning -/

/-- The value of a number. A whole number is an integer if it has 64 bits, signed or not; minus
zero, a larger one, and one with a point or an exponent is a double, which has to be finite. -/
def numberToJson? (n : Numeral) : Option Json :=
  let double? := (decimal? n).map Json.double
  if n.fraction.isEmpty && n.exponent.isNone then
    let i := Double.applySign n.negative (ofDigits n.whole)
    if n.negative && i == 0 then double?
    else if -0x8000000000000000 ≤ i ∧ i < 0x10000000000000000 then some (.int i)
    else double?
  else double?

mutual

/-- The value of a written text in which at most `depth` containers lie inside each other. -/
def toJson? (depth : Nat) : Written → Option Json
  | .null => some .null
  | .bool b => some (.bool b)
  | .number n => numberToJson? n
  | .string body => (unescape? body).map fun cs => .str (String.ofList cs)
  | .array items =>
    match depth with
    | 0 => none
    | depth + 1 => (itemsToJson? depth items).map .arr
  | .object members =>
    match depth with
    | 0 => none
    | depth + 1 => (membersToJson? depth members).map Json.object

/-- The values of the items of an array. -/
def itemsToJson? (depth : Nat) : List Written → Option (List Json)
  | [] => some []
  | w :: ws =>
    match toJson? depth w with
    | none => none
    | some v => (itemsToJson? depth ws).map (v :: ·)

/-- The members of an object, in the order they are written. -/
def membersToJson? (depth : Nat) : List (List Char × Written) → Option (List (String × Json))
  | [] => some []
  | (name, w) :: ms =>
    match unescape? name, toJson? depth w with
    | some n, some v => (membersToJson? depth ms).map ((String.ofList n, v) :: ·)
    | _, _ => none

end

end Written

/-- How many containers may lie inside each other. -/
def maxDepth : Nat := 127

def read? (cs : List Char) : Option Json := (Written.read? cs).bind (Written.toJson? maxDepth)

end SearchDialect.Json
