import SearchDialect.Proofs.Text.Respelling
import SearchDialect.Proofs.Text.Utf8

/-!
# What URL encoding writes

The URL encoding of a text spells every byte on its own (`urlEncode_eq`): as itself, as a plus, or as
a percent sign with two digits. Reading it back gives the text (`urlDecode_urlEncode`), and the
characters that separate the parts of a URL do not show up in it (`urlEncodeString_exact`).
-/

namespace SearchDialect.Text

/-! ## Byte by byte -/

/-- The bytes that stand for themselves. -/
def isPlain (b : UInt8) : Bool :=
  let c := Char.ofNat b.toNat
  b.toNat < 0x80 && (c.isAlphanum || c == '-' || c == '_' || c == '.' || c == '!' || c == '*' ||
    c == '(' || c == ')')

/-- The encoded form of a byte. -/
def encodeByte (b : UInt8) : List Char :=
  if isPlain b then [Char.ofNat b.toNat]
  else if b = 0x20 then ['+']
  else escapeByte b

theorem forall_byte {p : UInt8 → Prop} (h : ∀ n < 256, p (UInt8.ofNat n)) (b : UInt8) : p b := by
  have hb := h b.toNat (UInt8.toNat_lt b)
  rwa [UInt8.ofNat_toNat] at hb

theorem spelled_percentByte (b : UInt8) : spelled respellings (percentByte b) = encodeByte b := by
  revert b
  apply forall_byte
  decide +kernel

/-- Every byte of a text is spelled on its own. -/
theorem urlEncode_eq (cs : List Char) : urlEncode cs = (toUtf8 cs).flatMap encodeByte := by
  rw [urlEncode, percentEncode,
    respellAll_flatMap isRespelling_respellings isSpelling_percentByte]
  exact congrArg (List.flatMap · (toUtf8 cs)) (funext spelled_percentByte)

theorem isSpelling_encodeByte (b : UInt8) : IsSpelling (encodeByte b) := by
  rw [encodeByte]
  split
  · next hb =>
    apply IsSpelling.single
    intro hpercent
    simp [isPlain, hpercent] at hb
  split
  · exact .single (by decide)
  · exact isSpelling_escapeByte b

/-! ## Reading back -/

theorem decodeBytes_cons {b : UInt8} (h : b ≠ 0x25) (rest : List UInt8) :
    decodeBytes (b :: rest) = b :: decodeBytes rest := by
  match rest with
  | [] | [_] => rfl
  | _ :: _ :: _ => rw [decodeBytes, if_neg h]

/-- An upper-case hexadecimal digit, as a byte, is read as its value. -/
theorem hexByte?_upperHexDigit : ∀ n < 16, hexByte? (UInt8.ofNat (upperHexDigit n).toNat) = some n
    ∧ charBytes (upperHexDigit n) = [UInt8.ofNat (upperHexDigit n).toNat] := by
  decide

/-- The digits of a byte are read as the byte, whatever follows them. -/
theorem decodeBytes_escapeByte (b : UInt8) (rest : List UInt8) :
    decodeBytes (toUtf8 (escapeByte b) ++ rest) = b :: decodeBytes rest := by
  have hlt : b.toNat < 256 := UInt8.toNat_lt b
  -- Both digits are one byte each, so that the reader sees a percent sign and two digits.
  obtain ⟨hx, hxb⟩ := hexByte?_upperHexDigit (b.toNat / 16) (by omega)
  obtain ⟨hy, hyb⟩ := hexByte?_upperHexDigit (b.toNat % 16) (by omega)
  have hpercent : charBytes '%' = [0x25] := by decide
  simp only [escapeByte, toUtf8, List.flatMap_cons, List.flatMap_nil, hxb, hyb, hpercent,
    List.append_nil, List.cons_append, List.nil_append]
  rw [decodeBytes, if_pos rfl, hx, hy]
  show UInt8.ofNat (16 * (b.toNat / 16) + b.toNat % 16) :: _ = _
  rw [Nat.div_add_mod, UInt8.ofNat_toNat]

/-- What the reader sees of an encoded byte, with a blank in place of a plus. -/
def spacedByte (b : UInt8) : List Char :=
  (encodeByte b).flatMap fun c => if c = '+' then [' '] else [c]

/-- A byte is seen as one byte that is no percent sign, or in digits. -/
theorem spacedByte_cases (b : UInt8) :
    (∃ c, spacedByte b = [c] ∧ charBytes c = [b] ∧ b ≠ 0x25) ∨ spacedByte b = escapeByte b := by
  have h : (toUtf8 (spacedByte b) = [b] ∧ (spacedByte b).length = 1 ∧ b ≠ 0x25) ∨
      spacedByte b = escapeByte b := by
    revert b
    apply forall_byte
    decide +kernel
  rcases h with ⟨hbytes, hlength, hb⟩ | h
  · obtain ⟨c, hc⟩ := List.length_eq_one_iff.1 hlength
    rw [hc, toUtf8, List.flatMap_singleton] at hbytes
    exact .inl ⟨c, hc, hbytes, hb⟩
  · exact .inr h

theorem decodeBytes_spacedByte (b : UInt8) (rest : List UInt8) :
    decodeBytes (toUtf8 (spacedByte b) ++ rest) = b :: decodeBytes rest := by
  rcases spacedByte_cases b with ⟨c, hc, hbytes, hb⟩ | hescape
  · rw [hc, toUtf8, List.flatMap_singleton, hbytes, List.singleton_append, decodeBytes_cons hb]
  · rw [hescape, decodeBytes_escapeByte]

theorem decodeBytes_spaced (bs : List UInt8) :
    decodeBytes (toUtf8 (bs.flatMap spacedByte)) = bs := by
  induction bs with
  | nil => rfl
  | cons b bs ih => rw [List.flatMap_cons, toUtf8_append, decodeBytes_spacedByte, ih]

/-- Reading back the URL encoding of a text gives the text. -/
theorem urlDecode_urlEncode (cs : List Char) : urlDecode (urlEncode cs) = .ok cs := by
  have hspaced : replace ['+'] [' '] (urlEncode cs) = (toUtf8 cs).flatMap spacedByte := by
    rw [replace_singleton, urlEncode_eq, List.flatMap_assoc]
    rfl
  rw [urlDecode, hspaced, decodeBytes_spaced, ofUtf8_toUtf8]
  rfl

/-- No text is encoded as no characters, but for the empty one. -/
theorem urlEncode_ne_nil {cs : List Char} (h : cs ≠ []) : urlEncode cs ≠ [] := by
  intro hnil
  obtain ⟨c, cs, rfl⟩ := List.exists_cons_of_ne_nil h
  rw [urlEncode_eq, List.flatMap_eq_nil_iff] at hnil
  obtain ⟨b, bs, hb⟩ := List.exists_cons_of_ne_nil (charBytes_ne_nil c)
  refine (isSpelling_encodeByte b).ne_nil (hnil b ?_)
  rw [toUtf8, List.flatMap_cons, hb]
  exact List.mem_cons_self

/-! ## Characters -/

/-- The characters that URL encodings consist of. -/
def isUrlChar (c : Char) : Bool :=
  c.isAlphanum || ['-', '_', '.', '!', '*', '(', ')', '+', '%'].contains c

theorem isUrlChar_encodeByte (b : UInt8) : (encodeByte b).all isUrlChar = true := by
  revert b
  apply forall_byte
  decide +kernel

/-- No other character shows up in a URL encoding. -/
theorem isUrlChar_of_mem_urlEncode {cs : List Char} {c : Char} (h : c ∈ urlEncode cs) :
    isUrlChar c = true := by
  rw [urlEncode_eq] at h
  obtain ⟨b, -, hc⟩ := List.mem_flatMap.1 h
  exact List.all_eq_true.1 (isUrlChar_encodeByte b) c hc

/-- The URL encoding of a text is exact. Each of the replacements that make it touches only the
spellings of single bytes that it is meant for; in the end every byte of the text, as a string holds
it, stands in its encoded form. No separator shows up, and no percent sign without its digits. The
text is read back. -/
theorem urlEncodeString_exact (s : String) :
    (∀ n, respellAll (respellings.take n) (percentEncode s.toList) =
      s.toByteArray.data.toList.flatMap fun b => spelled (respellings.take n) (percentByte b)) ∧
    (urlEncodeString s).toList = s.toByteArray.data.toList.flatMap encodeByte ∧
    (∀ c ∈ ['&', '=', '?', '#'], c ∉ (urlEncodeString s).toList) ∧
    (∀ before after, (urlEncodeString s).toList = before ++ '%' :: after →
      ∃ x y rest, after = x :: y :: rest ∧ isUpperHex x = true ∧ isUpperHex y = true) ∧
    urlDecodeString (urlEncodeString s) = .ok s := by
  have htoList : (urlEncodeString s).toList = urlEncode s.toList := String.toList_ofList
  rw [htoList, ← toUtf8_toList]
  refine ⟨fun n => ?_, urlEncode_eq s.toList, fun c hc hmem => ?_, fun before after h => ?_, ?_⟩
  · have htake : ∀ r ∈ respellings.take n, IsRespelling r :=
      fun r hr => isRespelling_respellings r (List.mem_of_mem_take hr)
    exact respellAll_flatMap htake isSpelling_percentByte (toUtf8 s.toList)
  · have hurl := isUrlChar_of_mem_urlEncode hmem
    simp only [List.mem_cons, List.not_mem_nil, or_false] at hc
    rcases hc with rfl | rfl | rfl | rfl <;> exact absurd hurl (by decide)
  · rw [urlEncode_eq] at h
    exact digits_of_percent isSpelling_encodeByte h
  · rw [urlDecodeString, htoList, urlDecode_urlEncode]
    exact congrArg Except.ok String.ofList_toList

/-- A tilde, a blank, a percent sign with digits behind it and a letter of two bytes. The first of
the percent signs has the digits of the tilde. -/
theorem urlEncodeString_exact_tildeBlankPercent :
    (urlEncodeString "~ %20é").toList = "%7E+%2520%C3%A9".toList ∧
    '&' ∉ (urlEncodeString "~ %20é").toList ∧
    (∃ x y rest, "7E+%2520%C3%A9".toList = x :: y :: rest ∧ isUpperHex x = true ∧
      isUpperHex y = true) ∧
    urlDecodeString (urlEncodeString "~ %20é") = .ok "~ %20é" := by
  obtain ⟨-, hbytes, hseparators, hdigits, hdecode⟩ := urlEncodeString_exact "~ %20é"
  have htext : (urlEncodeString "~ %20é").toList = "%7E+%2520%C3%A9".toList := by
    rw [hbytes, ← toUtf8_toList]
    decide +kernel
  refine ⟨htext, hseparators '&' List.mem_cons_self, ?_, hdecode⟩
  exact hdigits [] _ htext

end SearchDialect.Text
