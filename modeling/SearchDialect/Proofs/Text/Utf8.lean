import SearchDialect.Text.Utf8

/-!
# Texts as bytes

The bytes of a text are those in which a `String` holds it (`toUtf8_toList`), and reading them back
gives the text (`ofUtf8_toUtf8`): the first byte of a character tells how many belong to it.
-/

namespace SearchDialect.Text

theorem toNat_ofNat_of_lt {n : Nat} (h : n < 256) : (UInt8.ofNat n).toNat = n := by
  rw [UInt8.toNat_ofNat']
  exact Nat.mod_eq_of_lt h

/-- The code points of characters: below the surrogates, or above them up to the last one. -/
theorem toNat_bounds (c : Char) :
    c.toNat < 0xD800 ∨ (0xDFFF < c.toNat ∧ c.toNat < 0x110000) := c.valid

theorem toNat_lt (c : Char) : c.toNat < 0x110000 := by
  have hbounds := toNat_bounds c
  omega

/-- A byte that continues a character and holds six bits. -/
def tailByte (n : Nat) : UInt8 := UInt8.ofNat (0x80 + n % 0x40)

theorem toNat_tailByte (n : Nat) : (tailByte n).toNat = 0x80 + n % 0x40 :=
  toNat_ofNat_of_lt (by omega)

@[simp] theorem isTail_tailByte (n : Nat) : isTail (tailByte n) = true := by
  simp only [isTail, toNat_tailByte, Bool.and_eq_true, decide_eq_true_eq]
  omega

@[simp] theorem tailBits_tailByte (n : Nat) : tailBits (tailByte n) = n % 0x40 := by
  simp only [tailBits, toNat_tailByte]
  omega

/-- The bytes of a character, by the size of its code point. -/
theorem charBytes_eq (c : Char) : charBytes c =
    if c.toNat < 0x80 then [UInt8.ofNat c.toNat]
    else if c.toNat < 0x800 then [UInt8.ofNat (0xC0 + c.toNat / 0x40), tailByte c.toNat]
    else if c.toNat < 0x10000 then
      [UInt8.ofNat (0xE0 + c.toNat / 0x1000), tailByte (c.toNat / 0x40), tailByte c.toNat]
    else [UInt8.ofNat (0xF0 + c.toNat / 0x40000), tailByte (c.toNat / 0x1000),
      tailByte (c.toNat / 0x40), tailByte c.toNat] := by
  simp only [charBytes, tailByte, Nat.div_one]

/-- The second byte of a character lies in the range that its first byte allows. -/
theorem isSecond_tailByte {a n : Nat} (ha : a < 256) (h0 : a = 0xE0 → 0x20 ≤ n % 0x40)
    (h1 : a = 0xF0 → 0x10 ≤ n % 0x40) (h2 : a = 0xED → n % 0x40 < 0x20)
    (h3 : a = 0xF4 → n % 0x40 < 0x10) : isSecond (UInt8.ofNat a) (tailByte n) = true := by
  simp only [isSecond, toNat_tailByte, toNat_ofNat_of_lt ha, Bool.and_eq_true, decide_eq_true_eq]
  constructor
  · split
    · omega
    · split <;> omega
  · split
    · omega
    · split <;> omega

/-- The first byte of a character tells how many follow, and with them the character. -/
theorem lead_charBytes {c : Char} {b : UInt8} {bs : List UInt8} (h : charBytes c = b :: bs)
    (rest : List UInt8) : lead b (bs ++ rest) = .char c (bs.length + 1) := by
  have hc := toNat_bounds c
  have hchar : Char.ofNat c.toNat = c := Char.ofNat_toNat c
  rw [charBytes_eq] at h
  rw [← hchar]
  -- One case for each number of bytes; the range of the second byte rules out surrogates.
  split at h
  · cases h
    simp only [lead, toNat_ofNat_of_lt (show c.toNat < 256 by omega), if_pos, *]
    rfl
  split at h
  · cases h
    have ha := toNat_ofNat_of_lt (show 0xC0 + c.toNat / 0x40 < 256 by omega)
    simp only [lead, ha, List.cons_append, isTail_tailByte, tailBits_tailByte, if_true]
    rw [if_neg (by omega), if_neg (by omega), if_pos (by omega)]
    congr 2
    omega
  split at h
  · cases h
    have ha := toNat_ofNat_of_lt (show 0xE0 + c.toNat / 0x1000 < 256 by omega)
    have hs :
        isSecond (UInt8.ofNat (0xE0 + c.toNat / 0x1000)) (tailByte (c.toNat / 0x40)) = true :=
      isSecond_tailByte (by omega) (by omega) (by omega) (by omega) (by omega)
    simp only [lead, ha, hs, List.cons_append, isTail_tailByte, tailBits_tailByte, if_true,
      Bool.not_true, Bool.false_eq_true, if_false]
    rw [if_neg (by omega), if_neg (by omega), if_neg (by omega), if_pos (by omega)]
    congr 2
    omega
  · cases h
    have ha := toNat_ofNat_of_lt (show 0xF0 + c.toNat / 0x40000 < 256 by omega)
    have hs : isSecond (UInt8.ofNat (0xF0 + c.toNat / 0x40000)) (tailByte (c.toNat / 0x1000)) =
        true :=
      isSecond_tailByte (by omega) (by omega) (by omega) (by omega) (by omega)
    simp only [lead, ha, hs, List.cons_append, isTail_tailByte, tailBits_tailByte, if_true,
      Bool.not_true, Bool.false_eq_true, if_false]
    rw [if_neg (by omega), if_neg (by omega), if_neg (by omega), if_neg (by omega),
      if_pos (by omega)]
    congr 2
    omega

theorem charBytes_ne_nil (c : Char) : charBytes c ≠ [] := by
  rw [charBytes_eq]
  split
  · exact List.cons_ne_nil _ _
  split
  · exact List.cons_ne_nil _ _
  split <;> exact List.cons_ne_nil _ _

/-- The bytes of a character lead back to it, whatever follows them. -/
theorem ofUtf8From_charBytes (index : Nat) (c : Char) (rest : List UInt8) :
    ofUtf8From index (charBytes c ++ rest) =
      (ofUtf8From (index + (charBytes c).length) rest).map (c :: ·) := by
  obtain ⟨b, bs, h⟩ := List.exists_cons_of_ne_nil (charBytes_ne_nil c)
  rw [h, List.cons_append, ofUtf8From, lead_charBytes h]
  simp

/-- Reading back the bytes of a text gives the text. -/
theorem ofUtf8_toUtf8 (cs : List Char) : ofUtf8 (toUtf8 cs) = .ok cs := by
  have hfrom : ∀ index, ofUtf8From index (toUtf8 cs) = .ok cs := by
    induction cs with
    | nil => intro index; simp [toUtf8, ofUtf8From]
    | cons c cs ih =>
      intro index
      show ofUtf8From index (charBytes c ++ toUtf8 cs) = _
      rw [ofUtf8From_charBytes, ih]
      rfl
  exact hfrom 0

/-- The bytes of a character are those of the form that strings are kept in. -/
theorem charBytes_eq_utf8EncodeChar (c : Char) : charBytes c = String.utf8EncodeChar c := by
  have hc := toNat_bounds c
  have hval : c.val.toNat = c.toNat := rfl
  rw [charBytes_eq, String.utf8EncodeChar, hval]
  -- One case for each number of bytes: what is left for the first byte is below its limit.
  split
  · rw [if_pos (by omega)]
  split
  · rw [if_neg (by omega), if_pos (by omega),
      Nat.mod_eq_of_lt (show c.toNat / 64 < 32 by omega)]
    simp only [tailByte, Nat.add_comm]
  split
  · rw [if_neg (by omega), if_neg (by omega), if_pos (by omega),
      Nat.mod_eq_of_lt (show c.toNat / 4096 < 16 by omega)]
    simp only [tailByte, Nat.add_comm]
  · rw [if_neg (by omega), if_neg (by omega), if_neg (by omega),
      Nat.mod_eq_of_lt (show c.toNat / 262144 < 8 by omega)]
    simp only [tailByte, Nat.add_comm]

/-- The bytes of a text are those in which a string holds it. -/
theorem toUtf8_toList (s : String) : toUtf8 s.toList = s.toByteArray.data.toList := by
  have hbytes : charBytes = String.utf8EncodeChar := funext charBytes_eq_utf8EncodeChar
  calc toUtf8 s.toList
      = s.toList.flatMap String.utf8EncodeChar := by rw [toUtf8, hbytes]
    _ = s.toList.utf8Encode.data.toList := List.toList_data_toByteArray.symm
    _ = (String.ofList s.toList).toByteArray.data.toList := by rw [String.toByteArray_ofList]
    _ = s.toByteArray.data.toList := by rw [String.ofList_toList]

theorem toUtf8_append (cs ds : List Char) : toUtf8 (cs ++ ds) = toUtf8 cs ++ toUtf8 ds :=
  List.flatMap_append

end SearchDialect.Text
