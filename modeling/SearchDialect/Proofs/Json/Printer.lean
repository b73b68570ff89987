import SearchDialect.Json.Printer
import SearchDialect.Proofs.Json.Numeral
import SearchDialect.Proofs.Json.Quoted

/-!
# Round trip of JSON

The compact text of a value is read back, first as it is written and then with its meaning:

    read? (chars j) = if nesting j ≤ maxDepth then (reparsed? j).map sort else none

for every value that has a text of its own (`Plain`): its integers have 64 bits and its doubles are
finite. All that changes are its doubles, each of which is read again from its numeral (`reparsed?`).
The grammar is checked on a value with any text behind it (`readValue?_chars`), by recursion over the
value; the depth only matters for the meaning (`toJson?_written`).
-/

namespace SearchDialect.Json

open Number

mutual

/-- A value as it is written. -/
def written : Json → Written
  | .null => .null
  | .bool b => .bool b
  | .int i => .number (Numeral.ofInt i)
  | .double d =>
    match d.numeral? with
    | some n => .number n
    | none => .null
  | .str s => .string (escape s.toList)
  | .arr items => .array (writtenItems items)
  | .obj members => .object (writtenMembers members)

/-- Items as they are written. -/
def writtenItems : List Json → List Written
  | [] => []
  | j :: js => written j :: writtenItems js

/-- Members as they are written. -/
def writtenMembers : List (String × Json) → List (List Char × Written)
  | [] => []
  | (n, j) :: ms => (escape n.toList, written j) :: writtenMembers ms

end

/-! ## Grammar -/

namespace Written

theorem skipSpace_cons {c : Char} (h : isSpace c = false) (cs : List Char) :
    skipSpace (c :: cs) = c :: cs := List.dropWhile_cons_of_neg (by simp [h])

/-- One token is read as a value. -/
theorem readValue?_scalar {c : Char} {cs r : List Char} {v : Written} {hr}
    (hc : isSpace c = false ∧ c ≠ '[' ∧ c ≠ '\x7b')
    (h : readScalar? (c :: cs) = some (v, ⟨r, hr⟩)) :
    readValue? (c :: cs) = some (v, ⟨r, hr⟩) := by
  obtain ⟨hspace, hbracket, hbrace⟩ := hc
  have hskip := skipSpace_cons hspace cs
  rw [readValue?]
  split
  · next h' => rw [hskip] at h'; cases h'
  · next r' h' =>
    rw [hskip] at h'
    exact absurd (List.cons.inj h').1 hbracket
  · next r' h' =>
    rw [hskip] at h'
    exact absurd (List.cons.inj h').1 hbrace
  · next d r' _ _ h' =>
    rw [hskip] at h'
    cases h'
    rw [h]

theorem readValue?_array_nil (r : List Char) :
    ∃ hr, readValue? ('[' :: ']' :: r) = some (.array [], ⟨r, hr⟩) := by
  refine ⟨Nat.lt_succ_of_lt (Nat.lt_succ_self _), ?_⟩
  rw [readValue?]
  split
  · next h' => cases h'
  · next r' h' =>
    cases h'
    split
    · next r'' h'' => cases h''; rfl
    · next h'' => exact absurd rfl (h'' r)
  · next r' h' => cases h'
  · next d r' hbracket _ h' =>
    cases h'
    exact absurd rfl hbracket

theorem readValue?_array {c : Char} {cs r : List Char} {items : List Written} {hr}
    (hc : isSpace c = false ∧ c ≠ ']') (h : readItems? (c :: cs) = some (items, ⟨r, hr⟩)) :
    ∃ hr', readValue? ('[' :: c :: cs) = some (.array items, ⟨r, hr'⟩) := by
  refine ⟨Nat.lt_succ_of_lt hr, ?_⟩
  have hskip := skipSpace_cons hc.1 cs
  rw [readValue?]
  split
  · next h' => cases h'
  · next r' h' =>
    cases h'
    split
    · next r'' h'' =>
      rw [hskip] at h''
      exact absurd (List.cons.inj h'').1 hc.2
    · rw [h]
  · next r' h' => cases h'
  · next d r' hbracket _ h' =>
    cases h'
    exact absurd rfl hbracket

theorem readValue?_object_nil (r : List Char) :
    ∃ hr, readValue? ('\x7b' :: '\x7d' :: r) = some (.object [], ⟨r, hr⟩) := by
  refine ⟨Nat.lt_succ_of_lt (Nat.lt_succ_self _), ?_⟩
  rw [readValue?]
  split
  · next h' => cases h'
  · next r' h' => cases h'
  · next r' h' =>
    cases h'
    split
    · next r'' h'' => cases h''; rfl
    · next h'' => exact absurd rfl (h'' r)
  · next d r' _ hbrace h' =>
    cases h'
    exact absurd rfl hbrace

theorem readValue?_object {cs r : List Char} {members : List (List Char × Written)} {hr}
    (h : readMembers? ('"' :: cs) = some (members, ⟨r, hr⟩)) :
    ∃ hr', readValue? ('\x7b' :: '"' :: cs) = some (.object members, ⟨r, hr'⟩) := by
  refine ⟨Nat.lt_succ_of_lt hr, ?_⟩
  rw [readValue?]
  split
  · next h' => cases h'
  · next r' h' => cases h'
  · next r' h' =>
    cases h'
    split
    · next r'' h'' => cases h''
    · rw [h]
  · next d r' _ hbrace h' =>
    cases h'
    exact absurd rfl hbrace

/-- An item is read with the items behind it, after a comma, or without, before the bracket. -/
theorem readItems?_cons {cs s r : List Char} {v : Written} {vs : List Written} {hs}
    (h : readValue? cs = some (v, ⟨s, hs⟩))
    (hmore : (s = ']' :: r ∧ vs = []) ∨
      ∃ ds hr, s = ',' :: ds ∧ readItems? ds = some (vs, ⟨r, hr⟩)) :
    ∃ hr', readItems? cs = some (v :: vs, ⟨r, hr'⟩) := by
  rw [readItems?, h]
  simp only
  rcases hmore with ⟨rfl, rfl⟩ | ⟨ds, hr, rfl, hmore⟩
  · refine ⟨Nat.lt_of_succ_lt hs, ?_⟩
    split
    · next h' => cases h'; rfl
    · next h' => cases h'
    · next h' _ => exact absurd rfl (h' r)
  · refine ⟨Nat.lt_trans hr (Nat.lt_of_succ_lt hs), ?_⟩
    split
    · next h' => cases h'
    · next h' =>
      cases h'
      rw [hmore]
    · next _ h' => exact absurd rfl (h' ds)

/-- A member is read with the members behind it, after a comma, or without, before the brace. -/
theorem readMembers?_cons (name : List Char) {cs s r : List Char} {v : Written}
    {ms : List (List Char × Written)} {hs} (h : readValue? cs = some (v, ⟨s, hs⟩))
    (hmore : (s = '\x7d' :: r ∧ ms = []) ∨
      ∃ ds hr, s = ',' :: ds ∧ readMembers? ds = some (ms, ⟨r, hr⟩)) :
    ∃ hr', readMembers? (quotedChars name ++ ':' :: cs) =
      some ((escape name, v) :: ms, ⟨r, hr'⟩) := by
  have htext : quotedChars name ++ ':' :: cs = '"' :: (escape name ++ '"' :: ':' :: cs) := by
    rw [quotedChars, List.cons_append, List.append_assoc]
    rfl
  have hname := scanString?_escape name (':' :: cs)
  -- The reader also gives a proof that the rest is shorter.
  have hrest : r.length < cs.length := by
    rcases hmore with ⟨rfl, -⟩ | ⟨ds, hr, rfl, -⟩
    · exact Nat.lt_of_succ_lt hs
    · exact Nat.lt_trans hr (Nat.lt_of_succ_lt hs)
  rw [htext]
  refine ⟨?_, ?_⟩
  · have hlen := length_scanString? hname
    simp only [List.length_cons] at hlen ⊢
    omega
  rw [readMembers?]
  split
  · next k hk =>
    cases hk
    split
    · next hn => rw [hname] at hn; cases hn
    · next n k' hn =>
      rw [hname] at hn
      cases hn
      split
      · next v' hc =>
        cases hc
        rw [h]
        simp only
        rcases hmore with ⟨rfl, rfl⟩ | ⟨ds, hr, rfl, hmore⟩
        · split
          · next h' => cases h'; rfl
          · next h' => cases h'
          · next h' _ => exact absurd rfl (h' r)
        · split
          · next h' => cases h'
          · next h' =>
            cases h'
            rw [hmore]
          · next _ h' => exact absurd rfl (h' ds)
      · next hc => exact absurd rfl (hc cs)
  · next hk => exact absurd rfl (hk _)

/-- The first character of a number starts no other token. -/
theorem ne_of_numberHead {c d : Char} (hc : c = '-' ∨ c.isDigit = true)
    (hd : d ≠ '-' ∧ d.isDigit = false) : c ≠ d := by
  rintro rfl
  rcases hc with h | h
  · exact hd.1 h
  · rw [hd.2] at h
    cases h

theorem isSpace_numberHead {c : Char} (hc : c = '-' ∨ c.isDigit = true) : isSpace c = false := by
  unfold isSpace
  simp only [Bool.or_eq_false_iff, beq_eq_false_iff_ne]
  refine ⟨⟨⟨?_, ?_⟩, ?_⟩, ?_⟩ <;> exact ne_of_numberHead hc (by decide)

/-- A number is read as one token. -/
theorem readScalar?_number {cs r : List Char} {n : Numeral}
    (hc : ∀ c ∈ cs.head?, c = '-' ∨ c.isDigit = true) (h : scanNumber? cs = some (n, r)) :
    ∃ hr, readScalar? cs = some (.number n, ⟨r, hr⟩) := by
  refine ⟨length_scanNumber? h, ?_⟩
  unfold readScalar?
  split
  · cases h
  -- The words and the quote start with other characters than a number.
  · exact absurd rfl (ne_of_numberHead (hc 'n' rfl) (by decide))
  · exact absurd rfl (ne_of_numberHead (hc 't' rfl) (by decide))
  · exact absurd rfl (ne_of_numberHead (hc 'f' rfl) (by decide))
  · exact absurd rfl (ne_of_numberHead (hc '"' rfl) (by decide))
  · split
    · next h' =>
      rw [h] at h'
      cases h'
      rfl
    · next h' =>
      rw [h] at h'
      cases h'

theorem readValue?_text {n : Numeral} (hn : n.WellFormed) {r : List Char} (hr : EndsNumber r) :
    ∃ hr', readValue? (n.text ++ r) = some (.number n, ⟨r, hr'⟩) := by
  obtain ⟨c, cs, htext, hc⟩ := head_text hn
  have hscan := scanNumber?_text hn hr
  rw [htext, List.cons_append] at hscan ⊢
  obtain ⟨hr', h⟩ := readScalar?_number (fun d hd => by rwa [← Option.some.inj hd]) hscan
  exact ⟨_, readValue?_scalar ⟨isSpace_numberHead hc, ne_of_numberHead hc (by decide),
    ne_of_numberHead hc (by decide)⟩ h⟩

theorem readValue?_null (r : List Char) :
    ∃ hr, readValue? ("null".toList ++ r) = some (.null, ⟨r, hr⟩) :=
  ⟨by simp; omega, readValue?_scalar (by decide) rfl⟩

theorem readValue?_quotedChars (cs r : List Char) :
    ∃ hr, readValue? (quotedChars cs ++ r) = some (.string (escape cs), ⟨r, hr⟩) := by
  have htext : quotedChars cs ++ r = '"' :: (escape cs ++ '"' :: r) := by
    rw [quotedChars, List.cons_append, List.append_assoc]
    rfl
  have hscan := scanString?_escape cs r
  rw [htext]
  refine ⟨Nat.lt_succ_of_lt (length_scanString? hscan), readValue?_scalar (by decide) ?_⟩
  unfold readScalar?
  simp only
  split
  · next h =>
    rw [hscan] at h
    cases h
    rfl
  · next h =>
    rw [hscan] at h
    cases h

end Written

open Written

theorem doubleChars_cases (d : Double) :
    (∃ n, d.numeral? = some n ∧ n.WellFormed ∧ doubleChars d = n.text) ∨
      (d.numeral? = none ∧ doubleChars d = "null".toList) := by
  unfold doubleChars Double.numeral?
  by_cases h : d.isFinite = true
  · rw [if_pos h]
    exact .inl ⟨_, rfl, Numeral.wellFormed_ofFinite h, rfl⟩
  · rw [if_neg h]
    exact .inr ⟨rfl, rfl⟩

/-- The text of a value starts with neither white space nor a closing bracket. -/
theorem head_chars (j : Json) : ∃ c cs, chars j = c :: cs ∧ isSpace c = false ∧ c ≠ ']' := by
  have hnumeral : ∀ n : Numeral, n.WellFormed →
      ∃ c cs, n.text = c :: cs ∧ isSpace c = false ∧ c ≠ ']' := by
    intro n hn
    obtain ⟨c, cs, htext, hc⟩ := head_text hn
    exact ⟨c, cs, htext, isSpace_numberHead hc, ne_of_numberHead hc (by decide)⟩
  cases j with
  | null => exact ⟨_, _, rfl, by decide⟩
  | bool b => cases b <;> exact ⟨_, _, rfl, by decide⟩
  | int i =>
    rw [chars, Numeral.intDigits_eq]
    exact hnumeral _ (Numeral.wellFormed_ofInt i)
  | double d =>
    rw [chars]
    rcases doubleChars_cases d with ⟨n, -, hn, htext⟩ | ⟨-, htext⟩
    · rw [htext]
      exact hnumeral n hn
    · exact ⟨_, _, htext, by decide⟩
  | str s => exact ⟨_, _, rfl, by decide⟩
  | arr items => cases items <;> exact ⟨_, _, rfl, by decide⟩
  | obj members => rcases members with _ | ⟨⟨n, v⟩, ms⟩ <;> exact ⟨_, _, rfl, by decide⟩

mutual

/-- The text of a value, with anything behind it that does not continue a number, is read as the
value is written. -/
theorem readValue?_chars (j : Json) {r : List Char} (hr : EndsNumber r) :
    ∃ hr', readValue? (chars j ++ r) = some (written j, ⟨r, hr'⟩) := by
  match j with
  | .null => exact readValue?_null r
  | .bool true => exact ⟨by simp [chars]; omega, readValue?_scalar (by decide) rfl⟩
  | .bool false => exact ⟨by simp [chars]; omega, readValue?_scalar (by decide) rfl⟩
  | .int i =>
    rw [chars, Numeral.intDigits_eq]
    exact readValue?_text (Numeral.wellFormed_ofInt i) hr
  | .double d =>
    rw [chars, written]
    rcases doubleChars_cases d with ⟨n, hd, hn, htext⟩ | ⟨hd, htext⟩
    · rw [htext, hd]
      exact readValue?_text hn hr
    · rw [htext, hd]
      exact readValue?_null r
  | .str s => exact readValue?_quotedChars s.toList r
  | .arr [] => exact readValue?_array_nil r
  | .arr (v :: vs) =>
    obtain ⟨c, cs, hhead, hc⟩ := head_chars v
    -- Behind the first item stands a comma or the bracket, which ends it if it is a number.
    have hends : EndsNumber (itemsChars vs ++ r) := by
      cases vs <;> exact endsNumber_cons (by decide) _
    obtain ⟨hr₁, hv⟩ := readValue?_chars v hends
    have hitems := readItems?_itemsChars vs r hv
    have htext : chars (.arr (v :: vs)) ++ r = '[' :: (chars v ++ (itemsChars vs ++ r)) := by
      rw [chars, List.cons_append, List.append_assoc]
    rw [htext]
    -- The reader looks at the first character to tell the array from an empty one.
    rw [hhead, List.cons_append] at hitems ⊢
    obtain ⟨hr₂, hitems⟩ := hitems
    exact readValue?_array hc hitems
  | .obj [] => exact readValue?_object_nil r
  | .obj ((n, v) :: ms) =>
    have hends : EndsNumber (membersChars ms ++ r) := by
      rcases ms with _ | ⟨⟨n', v'⟩, ms⟩ <;> exact endsNumber_cons (by decide) _
    obtain ⟨hr₁, hv⟩ := readValue?_chars v hends
    obtain ⟨hr₂, hms⟩ := readMembers?_membersChars ms n.toList r hv
    have htext : chars (.obj ((n, v) :: ms)) ++ r =
        '\x7b' :: (quotedChars n.toList ++ ':' :: (chars v ++ (membersChars ms ++ r))) := by
      rw [chars, List.cons_append, List.append_assoc, List.cons_append, List.append_assoc]
    rw [htext]
    exact readValue?_object hms

/-- Behind an item, the text of further items is read up to the closing bracket. -/
theorem readItems?_itemsChars (vs : List Json) (r : List Char) {cs : List Char} {v : Written} {hv}
    (h : readValue? cs = some (v, ⟨itemsChars vs ++ r, hv⟩)) :
    ∃ hr, readItems? cs = some (v :: writtenItems vs, ⟨r, hr⟩) := by
  match vs with
  | [] => exact readItems?_cons h (.inl ⟨rfl, rfl⟩)
  | w :: ws =>
    have hends : EndsNumber (itemsChars ws ++ r) := by
      cases ws <;> exact endsNumber_cons (by decide) _
    obtain ⟨hr₁, hw⟩ := readValue?_chars w hends
    obtain ⟨hr₂, hws⟩ := readItems?_itemsChars ws r hw
    have htext : itemsChars (w :: ws) ++ r = ',' :: (chars w ++ (itemsChars ws ++ r)) := by
      rw [itemsChars, List.cons_append, List.append_assoc]
    simp only [htext] at h
    exact readItems?_cons h (.inr ⟨_, hr₂, rfl, hws⟩)

/-- Behind the value of a member, the text of further members is read up to the closing brace. -/
theorem readMembers?_membersChars (ms : List (String × Json)) (name r : List Char)
    {cs : List Char} {v : Written} {hv}
    (h : readValue? cs = some (v, ⟨membersChars ms ++ r, hv⟩)) :
    ∃ hr, readMembers? (quotedChars name ++ ':' :: cs) =
      some ((escape name, v) :: writtenMembers ms, ⟨r, hr⟩) := by
  match ms with
  | [] => exact readMembers?_cons name h (.inl ⟨rfl, rfl⟩)
  | (n, w) :: ms =>
    have hends : EndsNumber (membersChars ms ++ r) := by
      rcases ms with _ | ⟨⟨n', v'⟩, ms⟩ <;> exact endsNumber_cons (by decide) _
    obtain ⟨hr₁, hw⟩ := readValue?_chars w hends
    obtain ⟨hr₂, hms⟩ := readMembers?_membersChars ms n.toList r hw
    have htext : membersChars ((n, w) :: ms) ++ r =
        ',' :: (quotedChars n.toList ++ ':' :: (chars w ++ (membersChars ms ++ r))) := by
      rw [membersChars, List.cons_append, List.append_assoc, List.cons_append, List.append_assoc]
    simp only [htext] at h
    exact readMembers?_cons name h (.inr ⟨_, hr₂, rfl, hms⟩)

end

/-- The text of a value is read as the value is written. -/
theorem read?_written (j : Json) : Written.read? (chars j) = some (written j) := by
  have hends : EndsNumber [] := fun c hc => by cases hc
  have hread := readValue?_chars j hends
  rw [List.append_nil] at hread
  obtain ⟨hr, h⟩ := hread
  rw [Written.read?, h]
  rfl

/-! ## Meaning -/

mutual

/-- A value that has a text of its own: its integers have 64 bits and its doubles are finite. -/
def Plain : Json → Prop
  | .int i => IsWide i
  | .double d => d.isFinite = true
  | .arr items => PlainItems items
  | .obj members => PlainMembers members
  | _ => True

/-- Items that have texts of their own. -/
def PlainItems : List Json → Prop
  | [] => True
  | j :: js => Plain j ∧ PlainItems js

/-- Members that have texts of their own. -/
def PlainMembers : List (String × Json) → Prop
  | [] => True
  | (_, j) :: ms => Plain j ∧ PlainMembers ms

end

theorem plain_of_lookup {name : String} {ms : List (String × Json)} {j : Json}
    (h : PlainMembers ms) (hj : lookup name ms = some j) : j.Plain := by
  induction ms with
  | nil => cases hj
  | cons m ms ih =>
    rw [lookup] at hj
    split at hj
    · cases hj
      exact h.1
    · exact ih h.2 hj

theorem plain_of_get? {name : String} {i j : Json} (h : i.Plain) (hj : i.get? name = some j) :
    j.Plain := by
  cases i with
  | obj ms => exact plain_of_lookup h hj
  | _ => cases hj

mutual

/-- The largest number of containers of a value that lie inside each other. -/
def nesting : Json → Nat
  | .arr items => nestingItems items + 1
  | .obj members => nestingMembers members + 1
  | _ => 0

/-- The largest nesting of some items. -/
def nestingItems : List Json → Nat
  | [] => 0
  | j :: js => max (nesting j) (nestingItems js)

/-- The largest nesting of some members. -/
def nestingMembers : List (String × Json) → Nat
  | [] => 0
  | (_, j) :: ms => max (nesting j) (nestingMembers ms)

end

mutual

/-- A value with its doubles as they are read from their numerals, none if one of these is too
large. -/
def reparsed? : Json → Option Json
  | .double d => (reparsedDouble? d).map .double
  | .arr items => (reparsedItems? items).map .arr
  | .obj members => (reparsedMembers? members).map .obj
  | j => some j

/-- Items with their doubles as they are read. -/
def reparsedItems? : List Json → Option (List Json)
  | [] => some []
  | j :: js => (reparsed? j).bind fun k => (reparsedItems? js).map (k :: ·)

/-- Members with their doubles as they are read. -/
def reparsedMembers? : List (String × Json) → Option (List (String × Json))
  | [] => some []
  | (n, j) :: ms => (reparsed? j).bind fun k => (reparsedMembers? ms).map ((n, k) :: ·)

end

mutual

/-- A value as it is written means the value with its doubles read again and its members in order,
unless it is nested too deep. -/
theorem toJson?_written (depth : Nat) {j : Json} (hj : Plain j) :
    toJson? depth (written j) = if nesting j ≤ depth then (reparsed? j).map sort else none := by
  match j with
  | .null => rfl
  | .bool b => rfl
  | .int i => exact numberToJson?_ofInt hj
  | .double d =>
    have hd : d.numeral? = some (Numeral.ofFinite d) := if_pos hj
    rw [written, hd, reparsed?, Option.map_map]
    exact numberToJson?_ofFinite d
  | .str s =>
    show (unescape? (escape s.toList)).map _ = _
    rw [unescape?_escape, Option.map_some, String.ofList_toList]
    rfl
  | .arr items =>
    -- At depth zero no container is read, whatever it holds.
    cases depth with
    | zero => rfl
    | succ depth =>
      have hplain : PlainItems items := hj
      have hitems := itemsToJson?_written depth hplain
      rw [written, toJson?, hitems, nesting, reparsed?]
      by_cases h : nestingItems items ≤ depth
      · rw [if_pos h, if_pos (Nat.succ_le_succ h), Option.map_map, Option.map_map]
        rfl
      · rw [if_neg h, if_neg (by omega)]
        rfl
  | .obj members =>
    cases depth with
    | zero => rfl
    | succ depth =>
      have hplain : PlainMembers members := hj
      have hmembers := membersToJson?_written depth hplain
      rw [written, toJson?, hmembers, nesting, reparsed?]
      by_cases h : nestingMembers members ≤ depth
      · rw [if_pos h, if_pos (Nat.succ_le_succ h), Option.map_map, Option.map_map]
        rfl
      · rw [if_neg h, if_neg (by omega)]
        rfl

theorem itemsToJson?_written (depth : Nat) {items : List Json} (h : PlainItems items) :
    itemsToJson? depth (writtenItems items) =
      if nestingItems items ≤ depth then (reparsedItems? items).map sortItems else none := by
  match items with
  | [] => rfl
  | j :: js =>
    have hj := toJson?_written depth h.1
    have hjs := itemsToJson?_written depth h.2
    rw [writtenItems, itemsToJson?, hj, nestingItems, reparsedItems?]
    by_cases h₁ : nesting j ≤ depth
    · rw [if_pos h₁, hjs]
      cases reparsed? j with
      | none => simp
      | some k =>
        by_cases h₂ : nestingItems js ≤ depth
        · rw [if_pos h₂, if_pos (Nat.max_le.2 ⟨h₁, h₂⟩), Option.bind_some, Option.map_map]
          simp only [Option.map_some, Option.map_map]
          rfl
        · rw [if_neg h₂, if_neg (by omega)]
          rfl
    · rw [if_neg h₁, if_neg (by omega)]

theorem membersToJson?_written (depth : Nat) {members : List (String × Json)}
    (h : PlainMembers members) :
    membersToJson? depth (writtenMembers members) =
      if nestingMembers members ≤ depth then (reparsedMembers? members).map sortValues
      else none := by
  match members with
  | [] => rfl
  | (n, j) :: ms =>
    have hj := toJson?_written depth h.1
    have hms := membersToJson?_written depth h.2
    rw [writtenMembers, membersToJson?, unescape?_escape, hj, nestingMembers, reparsedMembers?]
    by_cases h₁ : nesting j ≤ depth
    · rw [if_pos h₁, hms]
      cases reparsed? j with
      | none => simp
      | some k =>
        by_cases h₂ : nestingMembers ms ≤ depth
        · rw [if_pos h₂, if_pos (Nat.max_le.2 ⟨h₁, h₂⟩), Option.bind_some, Option.map_map]
          simp only [Option.map_some, Option.map_map, String.ofList_toList]
          rfl
        · rw [if_neg h₂, if_neg (by omega)]
          rfl
    · rw [if_neg h₁, if_neg (by omega)]

end

/-- The text of a value is read as the value with its doubles read again and its members in order,
unless it is nested too deep. -/
theorem read?_chars {j : Json} (hj : Plain j) :
    read? (chars j) = if nesting j ≤ maxDepth then (reparsed? j).map sort else none := by
  rw [read?, read?_written, Option.bind_some, toJson?_written maxDepth hj]

end SearchDialect.Json
