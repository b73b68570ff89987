import SearchDialect.Filter.Json
import SearchDialect.Proofs.Json.Members
import SearchDialect.Proofs.Literal.Json
import SearchDialect.Proofs.Outcome

/-!
# Round trip of filters through JSON

The JSON of a filter is read as the filter with its literals read back, at every depth
(`ofJson_sort_toJson`). The reader of JSON gets the members of every object in order of their names,
so this is said of the sorted value. From a text the doubles come back as their numerals are read
(`rel_reparsed?_toJson`). A list of filters of which one is nested too deep has a text that is no JSON
to the reader (`listOfText_listToText`).
-/

namespace SearchDialect

namespace Comparison

theorem ofWord_word (c : Comparison) : ofWord c.word = .ok c := by
  cases c <;> rfl

end Comparison

namespace Connective

theorem ofWord_word (c : Connective) : ofWord c.word = .ok c := by
  cases c <;> rfl

end Connective

namespace Filter

/-! ## Reading back -/

mutual

/-- The filter that a filter is read back as: the same at every depth but for its literals. -/
def reread : Filter → Filter
  | node p c v t vi ls => node p c v.reread t vi (rereadLinks ls)

/-- The links that some links are read back as. -/
def rereadLinks : List (Connective × Filter) → List (Connective × Filter)
  | [] => []
  | (c, f) :: ls => (c, reread f) :: rereadLinks ls

end

/-- The JSON of a text that may be absent is read back. -/
theorem textOfJson_ofString? {name : String} {ms : List (String × Json)} {t : Option String}
    (h : Json.lookup name ms = some (Json.ofString? t)) : textOfJson name ms = .ok t := by
  rw [textOfJson, h]
  cases t <;> rfl

theorem linksOfMembers_eq (ms : List (String × Json)) : linksOfMembers ms =
    match Json.lookup "f" ms with
    | none | some .null => .ok []
    | some (.arr items) => linksOfJson items
    | some found => .error (.invalidShape (.wrongMember "f" "an array" found)) := by
  rw [linksOfMembers]
  split
  · next h => rw [h]
  · next h => rw [h]
  · next items h => rw [h]
  · next found hnull harr h =>
    rw [h]
    cases found with
    | null => exact absurd rfl hnull
    | arr items => exact absurd rfl (harr items)
    | _ => rfl

/-- The filter of an object is decided by the members that its names stand for. -/
theorem ofJson_obj {ms : List (String × Json)} {p : String} {c : Comparison} {j : Json}
    {v : Literal} {t : Option String} {vi : Bool} {items : List Json}
    {ls : List (Connective × Filter)}
    (hp : Json.lookup "p" ms = some (.str p)) (ho : Json.lookup "o" ms = some (.str c.word))
    (hv : Json.lookup "v" ms = some j) (hj : Literal.ofJson j = .ok v)
    (hvi : Json.lookup "vi" ms = some (.bool vi))
    (ht : Json.lookup "t" ms = some (Json.ofString? t))
    (hf : Json.lookup "f" ms = some (.arr items)) (hls : linksOfJson items = .ok ls) :
    ofJson (.obj ms) = .ok (node p c v t vi ls) := by
  have hproperty : textOfJson "p" ms = .ok (some p) := textOfJson_ofString? (t := some p) hp
  have hcomparison : comparisonOfJson ms = .ok c := by
    rw [comparisonOfJson, textOfJson_ofString? (t := some c.word) ho, ok_bind]
    exact Comparison.ofWord_word c
  have hvalue : valueOfJson ms = .ok v := by
    rw [valueOfJson, hv]
    exact hj
  have hvisible : visibleOfJson ms = .ok vi := by
    rw [visibleOfJson, hvi]
  have hlinks : linksOfMembers ms = .ok ls := by
    rw [linksOfMembers_eq, hf]
    exact hls
  rw [ofJson, hproperty, hcomparison, hvalue, hvisible, textOfJson_ofString? ht, hlinks]
  rfl

theorem linkOfJson_eq (j : Json) : linkOfJson j = connectiveOfJson j >>= fun c =>
    match j.get? "f" with
    | none => .error (.invalidShape .noFilter)
    | some inner => ofJson inner >>= fun f => .ok (c, f) := by
  rw [linkOfJson]
  split
  · next h => rw [h, error_bind]
  next c h =>
  rw [h, ok_bind]
  split
  · next hf => rw [hf]
  next inner hf =>
  rw [hf]
  show (ofJson inner).map (fun f => (c, f)) = (ofJson inner >>= fun f => .ok (c, f))
  cases ofJson inner <;> rfl

/-- The link of an object is decided by the members that its names stand for. -/
theorem linkOfJson_obj {ms : List (String × Json)} {c : Connective} {inner : Json} {f : Filter}
    (hl : Json.lookup "l" ms = some (.str c.word)) (hf : Json.lookup "f" ms = some inner)
    (hinner : ofJson inner = .ok f) : linkOfJson (.obj ms) = .ok (c, f) := by
  have hconnective : connectiveOfJson (.obj ms) = .ok c := by
    rw [connectiveOfJson, Json.get?, hl]
    exact Connective.ofWord_word c
  rw [linkOfJson_eq, hconnective, ok_bind, Json.get?, hf]
  show (ofJson inner >>= fun f => .ok (c, f)) = .ok (c, f)
  rw [hinner, ok_bind]

mutual

/-- The JSON of a filter, members in order, is read back. -/
theorem ofJson_sort_toJson (f : Filter) : ofJson f.toJson.sort = .ok f.reread := by
  match f with
  | node p c v t vi ls =>
    have hls := linksOfJson_sort_linksToJson ls
    have hsort : (toJson (node p c v t vi ls)).sort = .obj (Json.sortMembers [("p", .str p),
        ("o", .str c.word), ("v", v.toJson), ("vi", .bool vi), ("t", Json.ofString? t),
        ("f", .arr (Json.sortItems (linksToJson ls)))]) := by
      have ht : (Json.ofString? t).sort = Json.ofString? t := by cases t <;> rfl
      simp only [toJson, Json.sort, Json.sortValues, Json.object, Literal.sort_toJson, ht]
    rw [hsort, reread]
    -- Sorting the members does not change what a name stands for.
    refine ofJson_obj ?_ ?_ ?_ v.ofJson_toJson ?_ ?_ ?_ hls <;>
    · rw [Json.lookup_sortMembers]
      rfl

theorem linksOfJson_sort_linksToJson (ls : List (Connective × Filter)) :
    linksOfJson (Json.sortItems (linksToJson ls)) = .ok (rereadLinks ls) := by
  match ls with
  | [] => rw [linksToJson, Json.sortItems, linksOfJson]; rfl
  | (c, f) :: ls =>
    have hf := ofJson_sort_toJson f
    have hls := linksOfJson_sort_linksToJson ls
    have hlink : linkOfJson (Json.sort (.obj [("l", .str c.word), ("f", toJson f)])) =
        .ok (c, f.reread) := by
      refine linkOfJson_obj ?_ ?_ hf <;>
      · rw [Json.lookup_sortMembers]
        rfl
    rw [linksToJson, Json.sortItems, linksOfJson, hlink, hls]
    rfl

end

/-! ## Through a text -/

mutual

/-- The filter that a filter is read back as from the text of its JSON, none if the numeral of one of
its doubles is read as none. -/
def rereadText? : Filter → Option Filter
  | node p c v t vi ls =>
    v.rereadText?.bind fun w => (rereadTextLinks? ls).map fun ks => node p c w t vi ks

/-- The links that some links are read back as from their text. -/
def rereadTextLinks? : List (Connective × Filter) → Option (List (Connective × Filter))
  | [] => some []
  | (c, f) :: ls => (rereadText? f).bind fun g => (rereadTextLinks? ls).map ((c, g) :: ·)

end

mutual

/-- The JSON of a filter is read back from its text. -/
theorem rel_reparsed?_toJson (f : Filter) :
    Option.Rel (fun j g => ofJson j.sort = .ok g) f.toJson.reparsed? f.rereadText? := by
  match f with
  | node p c v t vi ls =>
    have hvalue := v.rel_reparsed?_toJson
    have hlinks := rel_reparsedItems?_linksToJson ls
    have htag : (Json.ofString? t).reparsed? = some (Json.ofString? t) := by cases t <;> rfl
    have hsort : (Json.ofString? t).sort = Json.ofString? t := by cases t <;> rfl
    simp only [toJson, Json.reparsed?, Json.reparsedMembers?, htag, Option.bind_some, rereadText?]
    generalize v.toJson.reparsed? = value?, v.rereadText? = v? at hvalue ⊢
    generalize Json.reparsedItems? (linksToJson ls) = items?, rereadTextLinks? ls = ls? at hlinks ⊢
    cases hvalue
    case none => exact .none
    case some value w hvalue =>
    cases hlinks
    case none => exact .none
    case some items ks hlinks =>
    apply Option.Rel.some
    simp only [Json.sort, Json.sortValues, Json.object, hsort]
    refine ofJson_obj ?_ ?_ ?_ hvalue ?_ ?_ ?_ hlinks <;>
    · rw [Json.lookup_sortMembers]
      rfl

theorem rel_reparsedItems?_linksToJson (ls : List (Connective × Filter)) :
    Option.Rel (fun js ks => linksOfJson (Json.sortItems js) = .ok ks)
      (Json.reparsedItems? (linksToJson ls)) (rereadTextLinks? ls) := by
  match ls with
  | [] => exact .some (by rw [Json.sortItems, linksOfJson])
  | (c, f) :: ls =>
    have hfilter := rel_reparsed?_toJson f
    have hlinks := rel_reparsedItems?_linksToJson ls
    simp only [linksToJson, Json.reparsedItems?, Json.reparsed?, Json.reparsedMembers?,
      Option.bind_some, rereadTextLinks?]
    generalize f.toJson.reparsed? = inner?, f.rereadText? = f? at hfilter ⊢
    generalize Json.reparsedItems? (linksToJson ls) = items?, rereadTextLinks? ls = ls? at hlinks ⊢
    cases hfilter
    case none => exact .none
    case some inner g hfilter =>
    cases hlinks
    case none => exact .none
    case some items ks hlinks =>
    have hlink : linkOfJson (Json.sort (.obj [("l", .str c.word), ("f", inner)])) =
        .ok (c, g) := by
      refine linkOfJson_obj ?_ ?_ hfilter <;>
      · rw [Json.lookup_sortMembers]
        rfl
    apply Option.Rel.some
    rw [Json.sortItems, linksOfJson, hlink, hlinks]
    rfl

end

/-- The doubles of a filter are read back from their numerals at every depth. -/
def Survives (f : Filter) : Prop := ∀ g ∈ f.walk, g.value.Survives

instance (f : Filter) : Decidable f.Survives := inferInstanceAs (Decidable (∀ _ ∈ _, _))

mutual

theorem rereadText?_of_survives {f : Filter} (h : f.Survives) :
    f.rereadText? = some f.reread := by
  match f with
  | node p c v t vi ls =>
    have hv : v.rereadText? = some v.reread :=
      Literal.rereadText?_of_survives (h _ List.mem_cons_self)
    have hls := rereadTextLinks?_of_survives fun g hg => h g (List.mem_cons_of_mem _ hg)
    rw [rereadText?, hv, hls, reread]
    rfl

theorem rereadTextLinks?_of_survives {ls : List (Connective × Filter)}
    (h : ∀ g ∈ walkLinks ls, g.value.Survives) : rereadTextLinks? ls = some (rereadLinks ls) := by
  match ls with
  | [] => rfl
  | (c, f) :: ls =>
    have hf := rereadText?_of_survives (f := f) fun g hg => h g (List.mem_append_left _ hg)
    have hls := rereadTextLinks?_of_survives fun g hg => h g (List.mem_append_right _ hg)
    rw [rereadTextLinks?, hf, hls, rereadLinks]
    rfl

end

theorem mapM_rereadText?_of_survives {fs : List Filter} (h : ∀ f ∈ fs, f.Survives) :
    fs.mapM rereadText? = some (fs.map reread) := by
  induction fs with
  | nil => rfl
  | cons f fs ih =>
    obtain ⟨hf, hfs⟩ := List.forall_mem_cons.1 h
    rw [List.mapM_cons, rereadText?_of_survives hf, ih hfs]
    rfl

/-! ## Depth -/

mutual

/-- The number of links on the longest way down from a filter. -/
def height : Filter → Nat
  | node _ _ _ _ _ ls => linksHeight ls

/-- The number of links on the longest way down that starts with one of some links. -/
def linksHeight : List (Connective × Filter) → Nat
  | [] => 0
  | (_, f) :: ls => max (height f + 1) (linksHeight ls)

end

mutual

/-- A filter takes two containers, and every link on the way down three more. -/
theorem nesting_toJson (f : Filter) : f.toJson.nesting = 3 * f.height + 2 := by
  match f with
  | node p c v t vi ls =>
    have hls := nestingItems_linksToJson ls
    have ht : (Json.ofString? t).nesting = 0 := by cases t <;> rfl
    rw [toJson, height]
    simp only [Json.nesting, Json.nestingMembers, Literal.nesting_toJson, ht, hls]
    omega

theorem nestingItems_linksToJson (ls : List (Connective × Filter)) :
    Json.nestingItems (linksToJson ls) = 3 * linksHeight ls := by
  match ls with
  | [] => rfl
  | (c, f) :: ls =>
    have hf := nesting_toJson f
    have hls := nestingItems_linksToJson ls
    rw [linksToJson, linksHeight]
    simp only [Json.nestingItems, Json.nesting, Json.nestingMembers, hf, hls]
    omega

end

mutual

theorem plain_toJson (f : Filter) : f.toJson.Plain := by
  match f with
  | node p c v t vi ls =>
    have ht : (Json.ofString? t).Plain := by cases t <;> trivial
    exact ⟨trivial, trivial, Literal.plain_toJson v, trivial, ht, plainItems_linksToJson ls,
      trivial⟩

theorem plainItems_linksToJson (ls : List (Connective × Filter)) :
    Json.PlainItems (linksToJson ls) := by
  match ls with
  | [] => trivial
  | (c, f) :: ls =>
    exact ⟨⟨trivial, plain_toJson f, trivial⟩, plainItems_linksToJson ls⟩

end

/-! ## Lists of filters -/

theorem rel_reparsedItems?_toJson (fs : List Filter) :
    Option.Rel (fun js gs => (Json.sortItems js).mapM ofJson = .ok gs)
      (Json.reparsedItems? (fs.map toJson)) (fs.mapM rereadText?) := by
  induction fs with
  | nil => exact .some rfl
  | cons f fs ih =>
    have hfilter := f.rel_reparsed?_toJson
    rw [List.map_cons, Json.reparsedItems?, List.mapM_cons]
    generalize f.toJson.reparsed? = inner?, f.rereadText? = f? at hfilter ⊢
    generalize Json.reparsedItems? (fs.map toJson) = items?, fs.mapM rereadText? = fs? at ih ⊢
    cases hfilter
    case none => exact .none
    case some inner g hfilter =>
    cases ih
    case none => exact .none
    case some items gs ih =>
    apply Option.Rel.some
    rw [Json.sortItems, List.mapM_cons, hfilter, ok_bind, ih]
    rfl

/-- Among 127 containers inside each other there is room for 41 links. -/
theorem nestingItems_toJson (fs : List Filter) :
    Json.nestingItems (fs.map toJson) + 1 ≤ Json.maxDepth ↔ ∀ f ∈ fs, f.height ≤ 41 := by
  induction fs with
  | nil => exact iff_of_true (by decide) fun f hf => absurd hf List.not_mem_nil
  | cons f fs ih =>
    rw [List.map_cons, Json.nestingItems, nesting_toJson, List.forall_mem_cons, ← ih]
    unfold Json.maxDepth
    omega

/-- The text of a list of filters is read back with its doubles as their numerals are read, unless one
of the filters is nested too deep or one of the numerals too large. -/
theorem listOfText_listToText (fs : List Filter) : listOfText (listToText fs) =
    if ∀ f ∈ fs, f.height ≤ 41 then (fs.mapM rereadText?).elim (.error .invalidJson) .ok
    else .error .invalidJson := by
  have hplain : ∀ gs : List Filter, Json.PlainItems (gs.map toJson) := by
    intro gs
    induction gs with
    | nil => trivial
    | cons g gs ih => exact ⟨plain_toJson g, ih⟩
  have hitems := rel_reparsedItems?_toJson fs
  rw [listOfText, listToText, Json.read?_chars (j := .arr (fs.map toJson)) (hplain fs),
    Json.nesting, Json.reparsed?]
  by_cases h : ∀ f ∈ fs, f.height ≤ 41
  · rw [if_pos ((nestingItems_toJson fs).2 h), if_pos h]
    generalize Json.reparsedItems? (fs.map toJson) = items?, fs.mapM rereadText? = fs? at hitems ⊢
    cases hitems
    case none => rfl
    case some items gs hitems => exact hitems
  · rw [if_neg (mt (nestingItems_toJson fs).1 h), if_neg h]

end Filter

end SearchDialect
