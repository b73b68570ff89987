import Mathlib.Data.List.Forall2
import SearchDialect.Proofs.Text.Split
import SearchDialect.Request.OrderBy

/-!
# Orderings as text

A list of orderings is read back from its text exactly if a text can name each of its properties,
which are then neither empty nor hold a blank or a comma. From any text such orderings are read, one
for each entry `property direction` and in the order of the entries, and no other entry leaves a
trace (`listText_roundTrip`). Orderings of different properties are added to none as they stand
(`insertAll_nil`).
-/

namespace SearchDialect

/-! ## Words in any case -/

namespace Text

theorem toNat_toLower (c : Char) :
    c.toLower.toNat = if 0x41 ≤ c.toNat ∧ c.toNat ≤ 0x5A then c.toNat + 0x20 else c.toNat := by
  have hcapital : (c.val ≥ 'A'.val ∧ c.val ≤ 'Z'.val) ↔ 0x41 ≤ c.toNat ∧ c.toNat ≤ 0x5A := Iff.rfl
  unfold Char.toLower
  split
  · next h =>
    have hle := (hcapital.1 h).2
    rw [if_pos (hcapital.1 h)]
    show (c.val + 0x20).toNat = c.toNat + 0x20
    rw [UInt32.toNat_add]
    show (c.toNat + 0x20) % 2 ^ 32 = c.toNat + 0x20
    omega
  · next h => rw [if_neg (mt hcapital.2 h)]

theorem toNat_toUpper (c : Char) :
    c.toUpper.toNat = if 0x61 ≤ c.toNat ∧ c.toNat ≤ 0x7A then c.toNat - 0x20 else c.toNat := by
  have hsmall : ('a'.val ≤ c.val ∧ c.val ≤ 'z'.val) ↔ 0x61 ≤ c.toNat ∧ c.toNat ≤ 0x7A := Iff.rfl
  unfold Char.toUpper
  split
  · next h =>
    obtain ⟨hge, hle⟩ := hsmall.1 h
    rw [if_pos (hsmall.1 h)]
    show (c.val + 0xFFFFFFE0).toNat = c.toNat - 0x20
    rw [UInt32.toNat_add]
    show (c.toNat + 0xFFFFFFE0) % 2 ^ 32 = c.toNat - 0x20
    omega
  · next h => rw [if_neg (mt hsmall.2 h)]

/-- What becomes a small letter is the letter, small or capital. -/
theorem toLower_eq_iff {c l : Char} (hl : l.isLower = true) :
    c.toLower = l ↔ c = l ∨ c = l.toUpper := by
  have hsmall : 0x61 ≤ l.toNat ∧ l.toNat ≤ 0x7A := by
    obtain ⟨hge, hle⟩ := Bool.and_eq_true_iff.1 hl
    exact ⟨of_decide_eq_true hge, of_decide_eq_true hle⟩
  rw [← Char.toNat_inj, ← Char.toNat_inj, ← Char.toNat_inj, toNat_toLower, toNat_toUpper,
    if_pos hsmall]
  split <;> omega

/-- The texts that become a word of small letters are the word in any case. -/
theorem map_toLower_eq_iff {cs word : List Char} (hword : ∀ l ∈ word, l.isLower = true) :
    cs.map Char.toLower = word ↔ List.Forall₂ (fun c l => c = l ∨ c = l.toUpper) cs word := by
  induction word generalizing cs with
  | nil => rw [List.map_eq_nil_iff, List.forall₂_nil_right_iff]
  | cons l word ih =>
    rw [List.forall_mem_cons] at hword
    cases cs with
    | nil => exact iff_of_false nofun nofun
    | cons c cs =>
      rw [List.map_cons, List.cons.injEq, List.forall₂_cons, toLower_eq_iff hword.1, ih hword.2]

end Text

namespace Direction

/-- A word for a direction, in any case. -/
def IsWord (d : Direction) (cs : List Char) : Prop :=
  List.Forall₂ (fun c l => c = l ∨ c = l.toUpper) cs d.word.toList

theorem isWord_iff {d : Direction} {cs : List Char} :
    d.IsWord cs ↔ cs.map Char.toLower = d.word.toList := by
  have hsmall : d.word.toList.all Char.isLower = true := by
    cases d <;> decide
  exact (Text.map_toLower_eq_iff (List.all_eq_true.1 hsmall)).symm

theorem isWord_word (d : Direction) : d.IsWord d.word.toList := by
  rw [isWord_iff]
  cases d <;> decide

theorem ofChars?_eq_some_iff {d : Direction} {cs : List Char} :
    ofChars? cs = some d ↔ d.IsWord cs := by
  rw [isWord_iff]
  simp only [ofChars?]
  split
  · next h =>
    rw [h]
    cases d <;> decide
  split
  · next h =>
    rw [h]
    cases d <;> decide
  · next hasc hdesc =>
    cases d with
    | asc => exact iff_of_false nofun hasc
    | desc => exact iff_of_false nofun hdesc

theorem IsWord.not_mem {d : Direction} {cs : List Char} (h : d.IsWord cs) :
    ' ' ∉ cs ∧ ',' ∉ cs := by
  rw [isWord_iff] at h
  have hlower : ∀ c ∈ cs, c.toLower ∈ d.word.toList := by
    intro c hc
    rw [← h]
    exact List.mem_map_of_mem hc
  have hword : ' '.toLower ∉ d.word.toList ∧ ','.toLower ∉ d.word.toList := by
    cases d <;> decide
  exact ⟨mt (hlower _) hword.1, mt (hlower _) hword.2⟩

end Direction

namespace OrderBy

open Text

/-! ## Entries -/

/-- A property that the text of an ordering can name. -/
def Writable (o : OrderBy) : Prop :=
  o.property ≠ "" ∧ ' ' ∉ o.property.toList ∧ ',' ∉ o.property.toList

instance (o : OrderBy) : Decidable o.Writable := inferInstanceAs (Decidable (_ ∧ _ ∧ _))

/-- The entry `property direction` of an ordering, its direction in any case. -/
def IsEntry (o : OrderBy) (entry : List Char) : Prop :=
  o.property ≠ "" ∧ ' ' ∉ o.property.toList ∧
    ∃ word, o.direction.IsWord word ∧ entry = o.property.toList ++ ' ' :: word

theorem Writable.isEntry {o : OrderBy} (h : o.Writable) : o.IsEntry o.chars :=
  ⟨h.1, h.2.1, o.direction.word.toList, o.direction.isWord_word, rfl⟩

/-- A property is as free of commas as its entry. -/
theorem IsEntry.writable {o : OrderBy} {entry : List Char} (h : o.IsEntry entry)
    (hcomma : ',' ∉ entry) : o.Writable := by
  obtain ⟨hne, hblank, word, -, rfl⟩ := h
  rw [List.mem_append, not_or] at hcomma
  exact ⟨hne, hblank, hcomma.1⟩

theorem Writable.comma_not_mem {o : OrderBy} (h : o.Writable) : ',' ∉ o.chars := by
  rw [chars, List.mem_append, List.mem_cons, not_or, not_or]
  exact ⟨h.2.2, by decide, o.direction.isWord_word.not_mem.2⟩

/-- The reader finds the ordering that an entry is for. -/
theorem ofEntry?_eq_some_iff {o : OrderBy} {entry : List Char} :
    ofEntry? entry = some o ↔ o.IsEntry entry := by
  constructor
  · intro h
    unfold ofEntry? at h
    split at h
    · next property word hsplit =>
      obtain ⟨hblank, -, hentry⟩ := split_eq_pair_iff.1 hsplit
      split at h
      · cases h
      · next hempty =>
        obtain ⟨d, hd, rfl⟩ := Option.map_eq_some_iff.1 h
        have hne : String.ofList property ≠ "" := by
          rw [ne_eq, String.ofList_eq_empty_iff]
          exact mt List.isEmpty_iff.2 hempty
        have hname : (String.ofList property).toList = property := String.toList_ofList
        have hword := Direction.ofChars?_eq_some_iff.1 hd
        exact ⟨hne, by rwa [hname], word, hword, by rw [hname, hentry]⟩
    · cases h
  · rintro ⟨hne, hblank, word, hword, rfl⟩
    have hempty : o.property.toList.isEmpty = false := by
      rw [List.isEmpty_eq_false_iff, ne_eq, String.toList_eq_nil_iff]
      exact hne
    unfold ofEntry?
    rw [split_eq_pair_iff.2 ⟨hblank, hword.not_mem.1, rfl⟩]
    simp only [hempty, Bool.false_eq_true, if_false, Direction.ofChars?_eq_some_iff.2 hword,
      Option.map_some, String.ofList_toList]

/-- What is kept of entries: the ordering of each entry that is for one, in their order. -/
inductive Kept : List (List Char) → List OrderBy → Prop
  | nil : Kept [] []
  | keep {entry entries o os} : o.IsEntry entry → Kept entries os →
      Kept (entry :: entries) (o :: os)
  | drop {entry entries os} : (∀ o : OrderBy, ¬ o.IsEntry entry) → Kept entries os →
      Kept (entry :: entries) os

theorem kept_filterMap (entries : List (List Char)) :
    Kept entries (entries.filterMap ofEntry?) := by
  induction entries with
  | nil => exact Kept.nil
  | cons entry entries ih =>
    rw [List.filterMap_cons]
    cases h : ofEntry? entry with
    | none =>
      apply Kept.drop ?_ ih
      intro o ho
      rw [ofEntry?_eq_some_iff.2 ho] at h
      cases h
    | some o => exact Kept.keep (ofEntry?_eq_some_iff.1 h) ih

/-! ## Back from the text -/

/-- The text of orderings is read back. -/
theorem listOfChars_listChars {os : List OrderBy} (h : ∀ o ∈ os, o.Writable) :
    listOfChars (listChars os) = os := by
  cases os with
  | nil => rfl
  | cons o os =>
    have hcomma : ∀ part ∈ (o :: os).map chars, ',' ∉ part := by
      intro part hpart
      obtain ⟨p, hp, rfl⟩ := List.mem_map.1 hpart
      exact (h p hp).comma_not_mem
    have hentries : ∀ p ∈ o :: os, ofEntry? p.chars = some p := fun p hp =>
      ofEntry?_eq_some_iff.2 (h p hp).isEntry
    have hne : (o :: os).map chars ≠ [] := List.cons_ne_nil _ _
    rw [listOfChars, listChars, split_join hne hcomma, List.filterMap_map]
    exact (List.filterMap_congr hentries).trans List.filterMap_some

/-- Orderings are read back from their text exactly if each is writable. Of the entries between the
commas of a text those for an ordering are kept, which is writable, so that writing and reading what
was read changes nothing. -/
theorem listText_roundTrip :
    (∀ os : List OrderBy, listOfText (listText os) = os ↔ ∀ o ∈ os, o.Writable) ∧
    ∀ s : String,
      (∃ entries, entries ≠ [] ∧ (∀ entry ∈ entries, ',' ∉ entry) ∧ join [','] entries = s.toList ∧
        Kept entries (listOfText s)) ∧
      (∀ o ∈ listOfText s, o.Writable) ∧
      listOfText (listText (listOfText s)) = listOfText s := by
  have hback : ∀ os : List OrderBy, (∀ o ∈ os, o.Writable) → listOfText (listText os) = os := by
    intro os hos
    rw [listOfText, listText, String.toList_ofList, listOfChars_listChars hos]
  have hcomma : ∀ (s : String), ∀ entry ∈ split ',' s.toList, ',' ∉ entry := fun _ _ =>
    not_mem_of_mem_split
  have hread : ∀ s : String, ∀ o ∈ listOfText s, o.Writable := by
    intro s o ho
    obtain ⟨entry, hmem, hentry⟩ := List.mem_filterMap.1 ho
    exact (ofEntry?_eq_some_iff.1 hentry).writable (hcomma s entry hmem)
  refine ⟨?_, ?_⟩
  · intro os
    constructor
    · intro h
      rw [← h]
      exact hread _
    · exact hback os
  · intro s
    have hkept : Kept (split ',' s.toList) (listOfText s) := kept_filterMap _
    have hjoin := join_split ',' s.toList
    exact ⟨⟨_, split_ne_nil _ _, hcomma s, hjoin, hkept⟩, hread s, hback _ (hread s)⟩

example : listOfText "Price desc,Name,A b c,Size sideways, asc,Id ASC" =
    [⟨"Price", .desc⟩, ⟨"Id", .asc⟩] := by decide

/-! ## Adding -/

/-- An ordering of a property that is not there yet goes to the end. -/
theorem insert_of_forall_ne {o : OrderBy} {os : List OrderBy}
    (h : ∀ p ∈ os, p.property ≠ o.property) : insert o os = os ++ [o] := by
  induction os with
  | nil => rfl
  | cons p os ih =>
    rw [List.forall_mem_cons] at h
    rw [insert, if_neg h.1, ih h.2, List.cons_append]

/-- Orderings of different properties stay as they are when they are added one after the other. -/
theorem insertAll_nil {os : List OrderBy}
    (h : os.Pairwise fun p q => p.property ≠ q.property) : insertAll os [] = os := by
  have hfold : ∀ acc, (acc ++ os).Pairwise (fun p q => p.property ≠ q.property) →
      insertAll os acc = acc ++ os := by
    clear h
    induction os with
    | nil => intro acc _; exact (List.append_nil acc).symm
    | cons o os ih =>
      intro acc hacc
      have hnew : ∀ p ∈ acc, p.property ≠ o.property := fun p hp =>
        (List.pairwise_append.1 hacc).2.2 p hp o List.mem_cons_self
      have hstep : insertAll (o :: os) acc = insertAll os (acc ++ [o]) := by
        rw [insertAll, List.foldl_cons, insert_of_forall_ne hnew]
        rfl
      rw [List.append_cons] at hacc
      rw [hstep, ih (acc ++ [o]) hacc, List.append_assoc, List.singleton_append]
  exact hfold [] h

end OrderBy

end SearchDialect
