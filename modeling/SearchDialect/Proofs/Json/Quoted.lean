import SearchDialect.Json.Printer

/-!
# Round trip of JSON strings

The written form of a string is found again after its opening quote (`scanString?_escape`), and it
stands for the string (`unescape?_escape`). Both go over the three forms a character can be written
in, which `Escaped` names: a letter after a backslash, four digits after `\u`, or the character
itself.
-/

namespace SearchDialect.Json

/-- The written forms of a character. -/
inductive Escaped (c : Char) : List Char → Prop where
  | short {e : Char} : shortEscape? e = some c → e ≠ 'u' → Escaped c ['\\', e]
  | unit {h l : Char} : hexUnit? '0' '0' h l = some c.toNat → c.toNat < 32 →
      Escaped c ['\\', 'u', '0', '0', h, l]
  | plain : c ≠ '"' → c ≠ '\\' → 32 ≤ c.toNat → Escaped c [c]

/-- The digits of a control character are read as its code point. -/
theorem hexUnit?_control : ∀ n < 32, hexUnit? '0' '0' (hexDigit (n / 16)) (hexDigit (n % 16)) =
    some n := by
  decide

theorem escaped_escapeChar (c : Char) : Escaped c (escapeChar c) := by
  unfold escapeChar
  split
  · next h => subst h; exact .short rfl (by decide)
  split
  · next h => subst h; exact .short rfl (by decide)
  split
  · next h => subst h; exact .short rfl (by decide)
  split
  · next h => subst h; exact .short rfl (by decide)
  split
  · next h => subst h; exact .short rfl (by decide)
  split
  · next h => subst h; exact .short rfl (by decide)
  split
  · next h => subst h; exact .short rfl (by decide)
  split
  · next h => exact .unit (hexUnit?_control _ h) h
  · next hq hb _ _ _ _ _ h => exact .plain hq hb (by omega)

theorem scanString?_plain {c : Char} (hq : c ≠ '"') (hb : c ≠ '\\') (hc : 32 ≤ c.toNat)
    (rest : List Char) :
    scanString? (c :: rest) = (scanString? rest).map fun r => (c :: r.1, r.2) := by
  rw [scanString?]
  · rw [if_neg]
    rintro (h | h)
    · exact hb h
    · omega
  · rintro rfl
    exact hq rfl
  · rintro _ _ _ _ _ rfl
    exact absurd rfl hb
  · rintro _ _ rfl
    exact absurd rfl hb

theorem unescape?_plain {c : Char} (hb : c ≠ '\\') (rest : List Char) :
    unescape? (c :: rest) = (unescape? rest).map (c :: ·) := by
  rw [unescape?]
  · rintro _ _ _ _ _ rfl
    exact absurd rfl hb
  · rintro _ _ rfl
    exact absurd rfl hb
  · rintro rfl
    exact absurd rfl hb

/-- The written form of a character is passed over as a whole. -/
theorem scanString?_escaped {c : Char} {w : List Char} (h : Escaped c w) (rest : List Char) :
    scanString? (w ++ rest) = (scanString? rest).map fun r => (w ++ r.1, r.2) := by
  cases h with
  | @short e he hu =>
    show scanString? ('\\' :: e :: rest) = _
    rw [scanString?, he]
    · rfl
    · rintro _ _ _ _ _ rfl
      exact absurd rfl hu
  | @unit h l hx hc =>
    show scanString? ('\\' :: 'u' :: '0' :: '0' :: h :: l :: rest) = _
    rw [scanString?, hx]
    rfl
  | plain hq hb hc => exact scanString?_plain hq hb hc rest

/-- The written form of a character is read as the character. -/
theorem unescape?_escaped {c : Char} {w : List Char} (h : Escaped c w) (rest : List Char) :
    unescape? (w ++ rest) = (unescape? rest).map (c :: ·) := by
  cases h with
  | @short e he hu =>
    show unescape? ('\\' :: e :: rest) = _
    rw [unescape?, he]
    rintro _ _ _ _ _ rfl
    exact absurd rfl hu
  | @unit h l hx hc =>
    show unescape? ('\\' :: 'u' :: '0' :: '0' :: h :: l :: rest) = _
    have htrailing : isTrailing c.toNat = false := by
      simp only [isTrailing, Bool.and_eq_false_iff, decide_eq_false_iff_not]
      omega
    have hleading : isLeading c.toNat = false := by
      simp only [isLeading, Bool.and_eq_false_iff, decide_eq_false_iff_not]
      omega
    rw [unescape?, hx]
    simp only [htrailing, hleading, Bool.false_eq_true, if_false, Char.ofNat_toNat]
  | plain hq hb hc => exact unescape?_plain hb rest

/-- The written form of a text ends at the quote after it. -/
theorem scanString?_escape (cs rest : List Char) :
    scanString? (escape cs ++ '"' :: rest) = some (escape cs, rest) := by
  induction cs with
  | nil => rfl
  | cons c cs ih =>
    show scanString? ((escapeChar c ++ escape cs) ++ '"' :: rest) =
      some (escapeChar c ++ escape cs, _)
    rw [List.append_assoc, scanString?_escaped (escaped_escapeChar c), ih]
    rfl

/-- The written form of a text stands for the text. -/
theorem unescape?_escape (cs : List Char) : unescape? (escape cs) = some cs := by
  induction cs with
  | nil => rfl
  | cons c cs ih =>
    show unescape? (escapeChar c ++ escape cs) = _
    rw [unescape?_escaped (escaped_escapeChar c), ih]
    rfl

end SearchDialect.Json
