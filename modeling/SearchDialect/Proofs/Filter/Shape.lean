import SearchDialect.Proofs.Filter.Json

/-!
# The shape of filters in JSON

`Json.Describes` says rule by rule which filter a JSON value describes, every member by what its name
stands for or by its default, and `Json.WellShaped` which values describe one. The reader gives the
described filter where there is one and tells a fault of the shape where there is none
(`Filter.listOfText_shape`), in a list because of one malformed filter at whatever depth.
-/

namespace SearchDialect

open Number Time

namespace Json

/-! ## What members tell -/

/-- What the member of a name tells. A member that is absent or null tells a default. -/
inductive Tells {α : Type} (reads : Json → α → Prop) (default : α)
    (ms : List (String × Json)) (name : String) : α → Prop where
  | unset (h : lookup name ms = none ∨ lookup name ms = some .null) :
    Tells reads default ms name default
  | given {j : Json} {a : α} (h : lookup name ms = some j) (hj : reads j a) :
    Tells reads default ms name a

/-- The text that is described where there may be none. -/
def DescribesText (j : Json) (t : Option String) : Prop := ∃ s, j = .str s ∧ t = some s

/-- The literal that a scalar describes. A text that is a date-time describes that date-time. -/
inductive DescribesValue : Json → Literal → Prop where
  | null : DescribesValue .null .null
  | bool (b : Bool) : DescribesValue (.bool b) (.bool b)
  | int (n : Int64) : DescribesValue (.int n.toInt) (.int n)
  | large {i : Int} (h : i < -0x8000000000000000 ∨ 0x8000000000000000 ≤ i) :
    DescribesValue (.int i) (.double (Double.ofInt i))
  | double (d : Double) : DescribesValue (.double d) (.double d)
  | time {s : String} {t : Timestamp} (h : readTimestamp? s.toList = some t) :
    DescribesValue (.str s) (.time t)
  | text {s : String} (h : readTimestamp? s.toList = none) : DescribesValue (.str s) (.text s)

mutual

/-- A JSON value describes a filter. -/
inductive Describes : Json → Filter → Prop where
  | object {ms : List (String × Json)} {p : String} {c : Comparison} {v : Literal}
      {t : Option String} {vi : Bool} {ls : List (Connective × Filter)}
      (property : Tells (fun j p => j = .str p) "" ms "p" p)
      (comparison : Tells (fun j (c : Comparison) => j = .str c.word) .eq ms "o" c)
      (value : Tells DescribesValue .null ms "v" v)
      (visible : Tells (fun j vi => j = .bool vi) true ms "vi" vi)
      (tag : Tells DescribesText none ms "t" t)
      (links : MembersDescribe ms ls) : Describes (.obj ms) (.node p c v t vi ls)

/-- The member of the links describes them. -/
inductive MembersDescribe : List (String × Json) → List (Connective × Filter) → Prop where
  | unset {ms : List (String × Json)} (h : lookup "f" ms = none ∨ lookup "f" ms = some .null) :
    MembersDescribe ms []
  | given {ms : List (String × Json)} {items : List Json} {ls : List (Connective × Filter)}
      (h : lookup "f" ms = some (.arr items)) (hitems : ItemsDescribe items ls) :
    MembersDescribe ms ls

/-- Items describe links, one after the other. -/
inductive ItemsDescribe : List Json → List (Connective × Filter) → Prop where
  | nil : ItemsDescribe [] []
  | cons {j : Json} {js : List Json} {l : Connective × Filter} {ls : List (Connective × Filter)}
      (hj : DescribesLink j l) (hjs : ItemsDescribe js ls) : ItemsDescribe (j :: js) (l :: ls)

/-- A JSON value describes a link. -/
inductive DescribesLink : Json → Connective × Filter → Prop where
  | object {ms : List (String × Json)} {c : Connective} {inner : Json} {f : Filter}
      (connective : lookup "l" ms = some (.str c.word)) (h : lookup "f" ms = some inner)
      (filter : Describes inner f) : DescribesLink (.obj ms) (c, f)

end

/-! ## Shapes -/

/-- A value that is neither an array nor an object. -/
def IsScalar : Json → Prop
  | .arr _ | .obj _ => False
  | _ => True

mutual

/-- A JSON value of the shape of a filter. -/
inductive WellShaped : Json → Prop where
  | object {ms : List (String × Json)}
      (property : ∀ j ∈ lookup "p" ms, j = .null ∨ ∃ s, j = .str s)
      (comparison : ∀ j ∈ lookup "o" ms, j = .null ∨ ∃ c : Comparison, j = .str c.word)
      (value : ∀ j ∈ lookup "v" ms, j.IsScalar)
      (visible : ∀ j ∈ lookup "vi" ms, j = .null ∨ ∃ b, j = .bool b)
      (tag : ∀ j ∈ lookup "t" ms, j = .null ∨ ∃ s, j = .str s)
      (links : ∀ j ∈ lookup "f" ms, j = .null ∨ ∃ items, j = .arr items)
      (items : ∀ items, lookup "f" ms = some (.arr items) → ∀ item ∈ items, LinkShaped item) :
    WellShaped (.obj ms)

/-- A JSON value of the shape of a link. -/
inductive LinkShaped : Json → Prop where
  | object {ms : List (String × Json)} {c : Connective} {inner : Json}
      (connective : lookup "l" ms = some (.str c.word)) (h : lookup "f" ms = some inner)
      (filter : WellShaped inner) : LinkShaped (.obj ms)

end

/-- A JSON value stands in another one where a filter is due: it is that value, or it stands in the
filter of one of its links. -/
inductive StandsIn (n : Json) : Json → Prop where
  | self : StandsIn n n
  | inside {ms : List (String × Json)} {items : List Json} {item inner : Json}
      (h : lookup "f" ms = some (.arr items)) (hitem : item ∈ items)
      (hinner : item.get? "f" = some inner) (hn : StandsIn n inner) : StandsIn n (.obj ms)

theorem WellShaped.of_standsIn {n j : Json} (h : StandsIn n j) (hj : j.WellShaped) :
    n.WellShaped := by
  induction h with
  | self => exact hj
  | inside hf hitem hinner _ ih =>
    apply ih
    cases hj with
    | object _ _ _ _ _ _ items =>
      cases items _ hf _ hitem with
      | object _ hf' hfilter =>
        obtain rfl : _ = _ := Option.some.inj (hf'.symm.trans hinner)
        exact hfilter

/-! ## Shapes are what describes -/

variable {α : Type} {reads : Json → α → Prop} {default : α} {ms : List (String × Json)}
  {name : String}

/-- A member tells something if it is null or of the right kind. -/
theorem exists_tells_iff : (∃ a, Tells reads default ms name a) ↔
    ∀ j ∈ lookup name ms, j = .null ∨ ∃ a, reads j a := by
  constructor
  · rintro ⟨a, h | ⟨h, hj⟩⟩ j hlookup
    · rcases h with h | h
      · rw [h] at hlookup
        cases hlookup
      · rw [h] at hlookup
        cases hlookup
        exact .inl rfl
    · rw [h] at hlookup
      cases hlookup
      exact .inr ⟨a, hj⟩
  · intro h
    cases hlookup : lookup name ms with
    | none => exact ⟨default, .unset (.inl hlookup)⟩
    | some j =>
      rcases h j hlookup with rfl | ⟨a, hj⟩
      · exact ⟨default, .unset (.inr hlookup)⟩
      · exact ⟨a, .given hlookup hj⟩

theorem describesValue_int {i : Int} (h : -0x8000000000000000 ≤ i ∧ i < 0x8000000000000000) :
    (Json.int i).DescribesValue (.int (Int64.ofInt i)) := by
  have hdescribes := DescribesValue.int (Int64.ofInt i)
  rwa [Int64.toInt_ofInt_of_le h.1 h.2] at hdescribes

theorem exists_describesValue_iff {j : Json} : (∃ v, j.DescribesValue v) ↔ j.IsScalar := by
  constructor
  · rintro ⟨v, h⟩
    cases h <;> trivial
  · intro h
    cases j with
    | null => exact ⟨_, .null⟩
    | bool b => exact ⟨_, .bool b⟩
    | int i =>
      by_cases hi : i < -0x8000000000000000 ∨ 0x8000000000000000 ≤ i
      · exact ⟨_, .large hi⟩
      · rw [not_or, Int.not_lt, Int.not_le] at hi
        exact ⟨_, describesValue_int hi⟩
    | double d => exact ⟨_, .double d⟩
    | str s =>
      cases ht : readTimestamp? s.toList with
      | none => exact ⟨_, .text ht⟩
      | some t => exact ⟨_, .time ht⟩
    | arr items | obj ms => exact h.elim

theorem MembersDescribe.isArray {ls : List (Connective × Filter)} (h : MembersDescribe ms ls) :
    ∀ j ∈ lookup "f" ms, j = .null ∨ ∃ items, j = .arr items := by
  intro j hj
  cases h with
  | unset h =>
    rcases h with h | h <;> rw [h] at hj <;> cases hj
    exact .inl rfl
  | given h _ =>
    rw [h] at hj
    cases hj
    exact .inr ⟨_, rfl⟩

mutual

theorem Describes.wellShaped {j : Json} {f : Filter} (h : j.Describes f) : j.WellShaped := by
  match h with
  | .object hp hc hv hvi ht hls =>
    refine .object (exists_tells_iff.1 ⟨_, hp⟩) (exists_tells_iff.1 ⟨_, hc⟩) ?_
      (exists_tells_iff.1 ⟨_, hvi⟩) ?_ hls.isArray hls.linkShaped
    · intro j hj
      rcases exists_tells_iff.1 ⟨_, hv⟩ j hj with rfl | h
      · trivial
      · exact exists_describesValue_iff.1 h
    · intro j hj
      exact (exists_tells_iff.1 ⟨_, ht⟩ j hj).imp_right fun ⟨_, s, hs, _⟩ => ⟨s, hs⟩

theorem MembersDescribe.linkShaped {ms : List (String × Json)} {ls : List (Connective × Filter)}
    (h : MembersDescribe ms ls) :
    ∀ items, lookup "f" ms = some (.arr items) → ∀ item ∈ items, item.LinkShaped := by
  match h with
  | .unset h =>
    intro items hitems
    rcases h with h | h <;> rw [h] at hitems <;> cases hitems
  | .given h hls =>
    intro items hitems
    rw [h] at hitems
    cases hitems
    exact hls.linkShaped

theorem ItemsDescribe.linkShaped {items : List Json} {ls : List (Connective × Filter)}
    (h : ItemsDescribe items ls) : ∀ item ∈ items, item.LinkShaped := by
  match h with
  | .nil => exact fun item hitem => absurd hitem List.not_mem_nil
  | .cons hj hjs => exact List.forall_mem_cons.2 ⟨hj.linkShaped, hjs.linkShaped⟩

theorem DescribesLink.linkShaped {j : Json} {l : Connective × Filter} (h : j.DescribesLink l) :
    j.LinkShaped := by
  match h with
  | .object hc hf hfilter => exact .object hc hf hfilter.wellShaped

end

theorem exists_itemsDescribe {items : List Json}
    (h : ∀ item ∈ items, ∃ l, item.DescribesLink l) : ∃ ls, ItemsDescribe items ls := by
  induction items with
  | nil => exact ⟨[], .nil⟩
  | cons j js ih =>
    rw [List.forall_mem_cons] at h
    obtain ⟨⟨l, hl⟩, hjs⟩ := h
    obtain ⟨ls, hls⟩ := ih hjs
    exact ⟨l :: ls, .cons hl hls⟩

mutual

theorem WellShaped.exists_describes {j : Json} (h : j.WellShaped) : ∃ f, j.Describes f := by
  match j, h with
  | .obj ms, .object hp hc hv hvi ht hf hitems =>
    obtain ⟨p, hp⟩ := exists_tells_iff.2 hp
    obtain ⟨c, hc⟩ := exists_tells_iff.2 hc
    obtain ⟨v, hv⟩ := exists_tells_iff.2 fun j hj =>
      .inr (exists_describesValue_iff.2 (hv j hj))
    obtain ⟨vi, hvi⟩ := exists_tells_iff.2 hvi
    have ht : ∀ j ∈ lookup "t" ms, j = .null ∨ ∃ t, j.DescribesText t :=
      fun j hj => (ht j hj).imp_right fun ⟨s, hs⟩ => ⟨some s, s, hs, rfl⟩
    obtain ⟨t, ht⟩ := exists_tells_iff.2 ht
    have hls : ∃ ls, MembersDescribe ms ls := by
      cases hlookup : lookup "f" ms with
      | none => exact ⟨[], .unset (.inl hlookup)⟩
      | some j =>
        rcases hf j hlookup with rfl | ⟨items, rfl⟩
        · exact ⟨[], .unset (.inr hlookup)⟩
        · obtain ⟨ls, hls⟩ := exists_itemsDescribe fun item hitem =>
            (hitems items hlookup item hitem).exists_describesLink
          exact ⟨ls, .given hlookup hls⟩
    obtain ⟨ls, hls⟩ := hls
    exact ⟨_, .object hp hc hv hvi ht hls⟩

theorem LinkShaped.exists_describesLink {j : Json} (h : j.LinkShaped) :
    ∃ l, j.DescribesLink l := by
  match h with
  | .object hc hf hfilter =>
    obtain ⟨f, hf'⟩ := hfilter.exists_describes
    exact ⟨_, .object hc hf hf'⟩

end

/-- A value describes a filter exactly if it has the shape of one. -/
theorem exists_describes_iff {j : Json} : (∃ f, j.Describes f) ↔ j.WellShaped :=
  ⟨fun ⟨_, h⟩ => h.wellShaped, WellShaped.exists_describes⟩

end Json

namespace Filter

open Json

/-! ## The reader -/

/-- A reading gives something that fits, or it tells a fault of the shape. -/
inductive Reads {α : Type} (fits : α → Prop) : Except FormatError α → Prop where
  | ok {a : α} (h : fits a) : Reads fits (.ok a)
  | fault (fault : ShapeFault) : Reads fits (.error (.invalidShape fault))

theorem Reads.bind {α β : Type} {fits : α → Prop} {fits' : β → Prop} {x : Except FormatError α}
    {f : α → Except FormatError β} (hx : Reads fits x) (hf : ∀ a, fits a → Reads fits' (f a)) :
    Reads fits' (x >>= f) := by
  cases hx with
  | ok h => exact hf _ h
  | fault fault => exact .fault fault

theorem Reads.fits_of_eq_ok {α : Type} {fits : α → Prop} {x : Except FormatError α} {a : α}
    (hx : Reads fits x) (h : x = .ok a) : fits a := by
  cases hx with
  | ok ha =>
    cases h
    exact ha
  | fault fault => cases h

theorem Reads.eq_fault {α : Type} {fits : α → Prop} {x : Except FormatError α}
    (hx : Reads fits x) (h : ¬ ∃ a, x = .ok a) : ∃ fault, x = .error (.invalidShape fault) := by
  cases hx with
  | ok ha => exact absurd ⟨_, rfl⟩ h
  | fault fault => exact ⟨fault, rfl⟩

theorem Reads.mono {α : Type} {fits fits' : α → Prop} {x : Except FormatError α}
    (hx : Reads fits x) (h : ∀ a, fits a → fits' a) : Reads fits' x := by
  cases hx with
  | ok ha => exact .ok (h _ ha)
  | fault fault => exact .fault fault

variable {ms : List (String × Json)} {name : String}

theorem reads_textOfJson (name : String) (ms : List (String × Json)) :
    Reads (Tells DescribesText none ms name) (textOfJson name ms) := by
  rw [textOfJson]
  split
  · next h => exact .ok (.unset (.inl h))
  · next h => exact .ok (.unset (.inr h))
  · next s h => exact .ok (.given h ⟨s, rfl, rfl⟩)
  · exact .fault _

theorem textOfJson_of_tells {t : Option String} (h : Tells DescribesText none ms name t) :
    textOfJson name ms = .ok t := by
  rw [textOfJson]
  rcases h with (h | h) | ⟨h, s, rfl, rfl⟩ <;> rw [h]

/-- A property that is absent or null is the empty one. -/
theorem tells_getD {t : Option String} (h : Tells DescribesText none ms name t) :
    Tells (fun j p => j = .str p) "" ms name (t.getD "") := by
  rcases h with h | ⟨h, s, rfl, rfl⟩
  · exact .unset h
  · exact .given h rfl

theorem exists_textOfJson_of_tells {p : String} (h : Tells (fun j p => j = .str p) "" ms name p) :
    ∃ t, textOfJson name ms = .ok t ∧ t.getD "" = p := by
  rcases h with h | ⟨h, rfl⟩
  · exact ⟨none, textOfJson_of_tells (.unset h), rfl⟩
  · exact ⟨some p, textOfJson_of_tells (.given h ⟨p, rfl, rfl⟩), rfl⟩

theorem reads_comparisonOfJson (ms : List (String × Json)) :
    Reads (Tells (fun j (c : Comparison) => j = .str c.word) .eq ms "o") (comparisonOfJson ms) := by
  rw [comparisonOfJson]
  apply (reads_textOfJson "o" ms).bind
  rintro _ (h | ⟨h, w, rfl, rfl⟩)
  · exact .ok (.unset h)
  · show Reads _ (Comparison.ofWord w)
    rw [Comparison.ofWord]
    split
    · next c hfind =>
      obtain rfl : c.word = w := by simpa using List.find?_some hfind
      exact .ok (.given h rfl)
    · exact .fault _

theorem comparisonOfJson_of_tells {c : Comparison}
    (h : Tells (fun j (c : Comparison) => j = .str c.word) .eq ms "o" c) :
    comparisonOfJson ms = .ok c := by
  rw [comparisonOfJson]
  rcases h with h | ⟨h, rfl⟩
  · rw [textOfJson_of_tells (.unset h)]
    rfl
  · rw [textOfJson_of_tells (.given h ⟨_, rfl, rfl⟩), ok_bind]
    exact Comparison.ofWord_word c

theorem reads_literal (j : Json) : Reads j.DescribesValue (Literal.ofJson j) := by
  cases j with
  | null => exact .ok .null
  | bool b => exact .ok (.bool b)
  | int i =>
    rw [Literal.ofJson, int64?]
    split
    · next n hn =>
      split at hn
      · next hi =>
        cases hn
        exact .ok (describesValue_int hi)
      · cases hn
    · next hn =>
      split at hn
      · cases hn
      · next hi =>
        rw [not_and_or, Int.not_le, Int.not_lt] at hi
        exact .ok (.large hi)
  | double d => exact .ok (.double d)
  | str s =>
    rw [Literal.ofJson]
    split
    · next t ht => exact .ok (.time ht)
    · next ht => exact .ok (.text ht)
  | arr items | obj ms => exact .fault _

theorem literal_of_describesValue {j : Json} {v : Literal} (h : j.DescribesValue v) :
    Literal.ofJson j = .ok v := by
  cases h with
  | null | bool b | double d => rfl
  | int n =>
    rw [Literal.ofJson, int64?_toInt]
  | large h =>
    rw [Literal.ofJson, int64?, if_neg (by omega)]
  | time h => rw [Literal.ofJson, h]
  | text h => rw [Literal.ofJson, h]

theorem reads_valueOfJson (ms : List (String × Json)) :
    Reads (Tells DescribesValue .null ms "v") (valueOfJson ms) := by
  rw [valueOfJson]
  split
  · next h => exact .ok (.unset (.inl h))
  · next j h => exact (reads_literal j).mono fun _ hj => .given h hj

theorem valueOfJson_of_tells {v : Literal} (h : Tells DescribesValue .null ms "v" v) :
    valueOfJson ms = .ok v := by
  rw [valueOfJson]
  rcases h with (h | h) | ⟨h, hj⟩
  · rw [h]
  · rw [h]
    rfl
  · rw [h]
    exact literal_of_describesValue hj

theorem reads_visibleOfJson (ms : List (String × Json)) :
    Reads (Tells (fun j vi => j = .bool vi) true ms "vi") (visibleOfJson ms) := by
  rw [visibleOfJson]
  split
  · next h => exact .ok (.unset (.inl h))
  · next h => exact .ok (.unset (.inr h))
  · next b h => exact .ok (.given h rfl)
  · exact .fault _

theorem visibleOfJson_of_tells {vi : Bool}
    (h : Tells (fun j vi => j = .bool vi) true ms "vi" vi) : visibleOfJson ms = .ok vi := by
  rw [visibleOfJson]
  rcases h with (h | h) | ⟨h, rfl⟩ <;> rw [h]

theorem reads_connectiveOfJson (j : Json) :
    Reads (fun c => j.get? "l" = some (.str c.word)) (connectiveOfJson j) := by
  rw [connectiveOfJson]
  split
  · exact .fault _
  next w hw =>
  obtain ⟨k, hk, hstr⟩ := Option.bind_eq_some_iff.1 hw
  obtain rfl : k = .str w := by
    cases k with
    | str s => rw [Option.some.inj hstr]
    | _ => cases hstr
  rw [Connective.ofWord]
  split
  · next h =>
    rw [h] at hk
    exact .ok hk
  split
  · next h =>
    rw [h] at hk
    exact .ok hk
  · exact .fault _

mutual

/-- The reader gives a filter that the value describes, or it tells a fault of the shape. -/
theorem reads_ofJson (j : Json) : Reads j.Describes (ofJson j) := by
  match j with
  | .obj ms =>
    rw [ofJson]
    -- Every member has a reader of its own, and the first one that fails ends the reading.
    apply (reads_textOfJson "p" ms).bind
    intro p hp
    apply (reads_comparisonOfJson ms).bind
    intro c hc
    apply (reads_valueOfJson ms).bind
    intro v hv
    apply (reads_visibleOfJson ms).bind
    intro vi hvi
    apply (reads_textOfJson "t" ms).bind
    intro t ht
    apply (reads_linksOfMembers ms).bind
    intro ls hls
    exact .ok (.object (tells_getD hp) hc hv hvi ht hls)
  | .null | .bool _ | .int _ | .double _ | .str _ | .arr _ =>
    simp only [ofJson]
    exact .fault _
termination_by sizeOf j

theorem reads_linksOfMembers (ms : List (String × Json)) :
    Reads (MembersDescribe ms) (linksOfMembers ms) := by
  rw [linksOfMembers_eq]
  split
  · next h => exact .ok (.unset (.inl h))
  · next h => exact .ok (.unset (.inr h))
  · next items h =>
    have hlt := sizeOf_lookup h
    exact (reads_linksOfJson items).mono fun _ hls => .given h hls
  · exact .fault _
termination_by sizeOf ms
decreasing_by
  simp only [Json.arr.sizeOf_spec] at hlt
  omega

theorem reads_linksOfJson (items : List Json) :
    Reads (ItemsDescribe items) (linksOfJson items) := by
  match items with
  | [] =>
    rw [linksOfJson]
    exact .ok .nil
  | j :: js =>
    rw [linksOfJson]
    apply (reads_linkOfJson j).bind
    intro l hl
    apply (reads_linksOfJson js).bind
    intro ls hls
    exact .ok (.cons hl hls)
termination_by sizeOf items

theorem reads_linkOfJson (j : Json) : Reads j.DescribesLink (linkOfJson j) := by
  rw [linkOfJson_eq]
  apply (reads_connectiveOfJson j).bind
  intro c hc
  split
  · exact .fault _
  next inner hinner =>
  have hlt := sizeOf_get? hinner
  apply (reads_ofJson inner).bind
  intro f hf
  cases j with
  | obj ms => exact .ok (.object hc hinner hf)
  | _ => cases hinner
termination_by sizeOf j

end

mutual

/-- The reader gives every filter that a value describes. -/
theorem ofJson_of_describes {j : Json} {f : Filter} (h : j.Describes f) : ofJson j = .ok f := by
  match h with
  | .object hp hc hv hvi ht hls =>
    obtain ⟨p, hread, rfl⟩ := exists_textOfJson_of_tells hp
    rw [ofJson, hread, comparisonOfJson_of_tells hc, valueOfJson_of_tells hv,
      visibleOfJson_of_tells hvi, textOfJson_of_tells ht, linksOfMembers_of_describe hls]
    rfl

theorem linksOfMembers_of_describe {ms : List (String × Json)} {ls : List (Connective × Filter)}
    (h : MembersDescribe ms ls) : linksOfMembers ms = .ok ls := by
  rw [linksOfMembers_eq]
  match h with
  | .unset (.inl h) => rw [h]
  | .unset (.inr h) => rw [h]
  | .given h hls =>
    rw [h]
    exact linksOfJson_of_describe hls

theorem linksOfJson_of_describe {items : List Json} {ls : List (Connective × Filter)}
    (h : ItemsDescribe items ls) : linksOfJson items = .ok ls := by
  match h with
  | .nil => rw [linksOfJson]
  | .cons hl hls =>
    rw [linksOfJson, linkOfJson_of_describes hl, linksOfJson_of_describe hls]
    rfl

theorem linkOfJson_of_describes {j : Json} {l : Connective × Filter} (h : j.DescribesLink l) :
    linkOfJson j = .ok l := by
  match h with
  | .object hc hf hfilter => exact linkOfJson_obj hc hf (ofJson_of_describes hfilter)

end

theorem ofJson_eq_ok_iff {j : Json} {f : Filter} : ofJson j = .ok f ↔ j.Describes f := by
  constructor
  · exact (reads_ofJson j).fits_of_eq_ok
  · exact ofJson_of_describes

theorem exists_ofJson_eq_ok_iff {j : Json} : (∃ f, ofJson j = .ok f) ↔ j.WellShaped := by
  simp only [ofJson_eq_ok_iff, exists_describes_iff]

/-- The filter of an object depends on no other members than its own. -/
theorem ofJson_obj_congr {ms ms' : List (String × Json)}
    (h : ∀ name ∈ ["p", "o", "v", "vi", "t", "f"], lookup name ms = lookup name ms') :
    ofJson (.obj ms) = ofJson (.obj ms') := by
  simp only [List.forall_mem_cons] at h
  obtain ⟨hp, ho, hv, hvi, ht, hf, -⟩ := h
  simp only [ofJson, linksOfMembers_eq, textOfJson, comparisonOfJson, valueOfJson, visibleOfJson,
    hp, ho, hv, hvi, ht, hf]

/-! ## Lists -/

theorem Reads.mapM {α β : Type} {fits : α → β → Prop} {f : α → Except FormatError β}
    (h : ∀ a, Reads (fits a) (f a)) (xs : List α) :
    Reads (List.Forall₂ fits xs) (xs.mapM f) := by
  induction xs with
  | nil => exact .ok .nil
  | cons x xs ih =>
    rw [List.mapM_cons]
    apply (h x).bind
    intro y hy
    apply ih.bind
    intro ys hys
    exact .ok (.cons hy hys)

theorem reads_listOfJson (j : Json) :
    Reads (fun fs => ∃ items, j = .arr items ∧ List.Forall₂ Json.Describes items fs)
      (listOfJson j) := by
  cases j with
  | arr items => exact (Reads.mapM reads_ofJson items).mono fun _ h => ⟨items, rfl, h⟩
  | _ => exact .fault _

theorem listOfJson_eq_ok_iff {j : Json} {fs : List Filter} : listOfJson j = .ok fs ↔
    ∃ items, j = .arr items ∧ List.Forall₂ Json.Describes items fs := by
  constructor
  · exact (reads_listOfJson j).fits_of_eq_ok
  · rintro ⟨items, rfl, h⟩
    exact mapM_of_forall₂ (h.imp fun _ _ => ofJson_of_describes)

theorem exists_listOfJson_eq_ok_iff {j : Json} : (∃ fs, listOfJson j = .ok fs) ↔
    ∃ items, j = .arr items ∧ ∀ item ∈ items, item.WellShaped := by
  simp only [listOfJson_eq_ok_iff, ← exists_describes_iff, ← exists_forall₂_iff]
  rw [exists_comm]
  simp only [exists_and_left]

/-- The reader gives exactly the filters that values describe, so it accepts exactly the values of
the shape of a filter, and it tells a fault of the shape for all others. Members of other names make
no difference. A list is read if every value in it is; one filter of a wrong shape, at whatever
depth in it, is enough to reject the whole list. -/
theorem listOfText_shape :
    (∀ j : Json, ((∃ f, ofJson j = .ok f) ↔ j.WellShaped) ∧
      (∀ f, ofJson j = .ok f ↔ j.Describes f) ∧
      (¬ j.WellShaped → ∃ fault, ofJson j = .error (.invalidShape fault))) ∧
    (∀ ms ms' : List (String × Json),
      (∀ name ∈ ["p", "o", "v", "vi", "t", "f"], lookup name ms = lookup name ms') →
      ofJson (.obj ms) = ofJson (.obj ms')) ∧
    ∀ (cs : List Char) (j : Json), Json.read? cs = some j →
      ((∃ fs, listOfText cs = .ok fs) ↔
        ∃ items, j = .arr items ∧ ∀ item ∈ items, item.WellShaped) ∧
      (∀ fs, listOfText cs = .ok fs ↔
        ∃ items, j = .arr items ∧ List.Forall₂ Json.Describes items fs) ∧
      ((∃ fs, listOfText cs = .ok fs) ∨ ∃ fault, listOfText cs = .error (.invalidShape fault)) ∧
      ∀ items, j = .arr items → ∀ item ∈ items, ∀ n : Json, n.StandsIn item → ¬ n.WellShaped →
        ∃ fault, listOfText cs = .error (.invalidShape fault) := by
  refine ⟨fun j => ⟨exists_ofJson_eq_ok_iff, fun f => ofJson_eq_ok_iff, fun hj => ?_⟩,
    fun ms ms' => ofJson_obj_congr, fun cs j hread => ?_⟩
  · exact (reads_ofJson j).eq_fault (mt exists_ofJson_eq_ok_iff.1 hj)
  · have hlist : listOfText cs = listOfJson j := by rw [listOfText, hread]
    rw [hlist]
    refine ⟨exists_listOfJson_eq_ok_iff, fun fs => listOfJson_eq_ok_iff,
      or_iff_not_imp_left.2 (reads_listOfJson j).eq_fault, ?_⟩
    rintro items rfl item hitem n hn hshape
    apply (reads_listOfJson (.arr items)).eq_fault
    rw [exists_listOfJson_eq_ok_iff]
    rintro ⟨_, h, hitems⟩
    cases h
    exact hshape (.of_standsIn hn (hitems item hitem))

/-- A filter that compares in a way that is none. -/
def likeFilter : Json := .obj [("o", .str "like")]

/-- A filter that is linked to one that compares in a way that is none. -/
def linkedToLike : Json :=
  .obj [("f", .arr [.obj [("f", likeFilter), ("l", .str "or")]]), ("p", .str "City")]

theorem not_wellShaped_likeFilter : ¬ likeFilter.WellShaped := by
  rintro ⟨_, hcomparison⟩
  obtain h | ⟨c, h⟩ := hcomparison (.str "like") rfl
  · cases h
  · have hword : "like" = c.word := Json.str.inj h
    cases c <;> exact absurd hword (by decide)

theorem listOfText_shape_linkedToLike :
    Json.read? (Json.chars (.arr [linkedToLike])) = some (.arr [linkedToLike]) ∧
    likeFilter.StandsIn linkedToLike ∧ ¬ likeFilter.WellShaped ∧
    ∃ fault, listOfText (Json.chars (.arr [linkedToLike])) = .error (.invalidShape fault) := by
  have hread : Json.read? (Json.chars (.arr [linkedToLike])) = some (.arr [linkedToLike]) := by
    have hplain : (Json.arr [linkedToLike]).Plain :=
      ⟨⟨⟨⟨⟨trivial, trivial⟩, trivial, trivial⟩, trivial⟩, trivial, trivial⟩, trivial⟩
    rw [Json.read?_chars hplain, if_pos (by decide)]
    rfl
  have hstands : likeFilter.StandsIn linkedToLike := .inside rfl List.mem_cons_self rfl .self
  refine ⟨hread, hstands, not_wellShaped_likeFilter, ?_⟩
  obtain ⟨-, -, -, hreject⟩ := listOfText_shape.2.2 _ _ hread
  exact hreject [linkedToLike] rfl linkedToLike List.mem_cons_self likeFilter hstands
    not_wellShaped_likeFilter

end Filter

end SearchDialect
