import SearchDialect.Filter.Parameter
import SearchDialect.Proofs.Json.Unmistakable
import SearchDialect.Proofs.Outcome
import SearchDialect.Proofs.Text.Percent
import SearchDialect.Proofs.Text.StandIn
import SearchDialect.Proofs.Time.Printer

/-!
# Filters and stand-ins

The JSON text of a list of filters comes back from its stand-ins exactly if the names, tags and texts
of all filters are unmistakable (`takeStandIns_listToText_iff`). Nothing else of a filter is written
with an underscore. So the reader of a parameter hands to the reader of JSON what was written exactly
for such lists (`standIns_reversed_iff`); a property may come back under another name
(`not_standIns_reversed_braceInName`).
-/

namespace SearchDialect

open Text Time

namespace Literal

/-- No point in time is written with an underscore. -/
theorem not_mem_timestamp (t : Timestamp) : '_' ∉ t.chars := by
  intro hmem
  exact absurd (t.isTimeChar_of_mem_chars _ hmem) (by decide)

/-- Of the literals only texts can be mistaken. -/
theorem unmistakableTexts_toJson_iff {v : Literal} :
    Json.UnmistakableTexts v.toJson ↔ ∀ s ∈ v.text?, Unmistakable s.toList := by
  have hnone : ∀ s ∈ (none : Option String), Unmistakable s.toList := nofun
  cases v with
  | text s =>
    show Unmistakable s.toList ↔ ∀ s' ∈ some s, Unmistakable s'.toList
    simp
  | time t =>
    refine iff_of_true ?_ hnone
    show Unmistakable (String.ofList t.chars).toList
    rw [String.toList_ofList]
    exact unmistakable_of_not_mem (not_mem_timestamp t)
  | char c =>
    refine iff_of_true ?_ hnone
    show Unmistakable (String.singleton c).toList
    rw [String.toList_singleton]
    intro ends _ a _ b _ hin
    have := hin.length_le
    simp at this
  | double d =>
    refine iff_of_true ?_ hnone
    rw [toJson, Json.ofDouble]
    split <;> trivial
  | null | bool _ | int _ => exact iff_of_true trivial hnone

end Literal

namespace Filter

/-- The property name, the tag and the text of a filter are unmistakable. -/
def UnmistakableNode (f : Filter) : Prop :=
  Unmistakable f.property.toList ∧ (∀ t ∈ f.tag?, Unmistakable t.toList) ∧
    ∀ s ∈ f.value.text?, Unmistakable s.toList

instance (f : Filter) : Decidable f.UnmistakableNode := inferInstanceAs (Decidable (_ ∧ _ ∧ _))

/-- The property names, tags and texts are unmistakable at every depth. -/
def IsUnmistakable (f : Filter) : Prop := ∀ g ∈ f.walk, g.UnmistakableNode

instance (f : Filter) : Decidable f.IsUnmistakable := inferInstanceAs (Decidable (∀ _ ∈ _, _))

mutual

theorem unmistakableTexts_toJson_iff (f : Filter) :
    Json.UnmistakableTexts f.toJson ↔ f.IsUnmistakable := by
  match f with
  | node p c v t vi ls =>
    have htag : Json.UnmistakableTexts (Json.ofString? t) ↔ ∀ s ∈ t, Unmistakable s.toList := by
      cases t with
      | none => exact iff_of_true trivial nofun
      | some t => simp [Json.ofString?, Json.UnmistakableTexts]
    have hls := unmistakableItems_linksToJson_iff ls
    have hnames : ∀ n ∈ ["p", "o", "v", "vi", "t", "f"], Unmistakable n.toList := by decide
    have hword : Unmistakable c.word.toList := by cases c <;> decide
    simp only [List.forall_mem_cons] at hnames
    simp only [toJson, Json.UnmistakableTexts, Json.UnmistakableMembers, hnames, htag, hls, hword,
      Literal.unmistakableTexts_toJson_iff, IsUnmistakable, walk, List.forall_mem_cons,
      UnmistakableNode, property, tag?, value, true_and, and_true]
    exact ⟨fun ⟨hp, hv, ht, hls⟩ => ⟨⟨hp, ht, hv⟩, hls⟩, fun ⟨⟨hp, ht, hv⟩, hls⟩ => ⟨hp, hv, ht, hls⟩⟩

theorem unmistakableItems_linksToJson_iff (ls : List (Connective × Filter)) :
    Json.UnmistakableItems (linksToJson ls) ↔ ∀ g ∈ walkLinks ls, g.UnmistakableNode := by
  match ls with
  | [] => exact iff_of_true trivial nofun
  | (c, f) :: ls =>
    have hf := unmistakableTexts_toJson_iff f
    have hls := unmistakableItems_linksToJson_iff ls
    have hnames : ∀ n ∈ ["l", "f"], Unmistakable n.toList := by decide
    have hword : Unmistakable c.word.toList := by cases c <;> decide
    simp only [List.forall_mem_cons] at hnames
    simp only [linksToJson, Json.UnmistakableItems, Json.UnmistakableTexts,
      Json.UnmistakableMembers, hnames, hword, hf, hls, walkLinks, List.forall_mem_append,
      IsUnmistakable, true_and, and_true]

end

/-- The text of a list of filters comes back from its stand-ins exactly if the filters are
unmistakable. -/
theorem takeStandIns_listToText_iff (fs : List Filter) :
    takeStandIns (putStandIns (listToText fs)) = listToText fs ↔ ∀ f ∈ fs, f.IsUnmistakable := by
  have hitems : Json.UnmistakableItems (fs.map toJson) ↔ ∀ f ∈ fs, f.IsUnmistakable := by
    induction fs with
    | nil => exact iff_of_true trivial nofun
    | cons f fs ih =>
      rw [List.map_cons, Json.UnmistakableItems, unmistakableTexts_toJson_iff, ih,
        List.forall_mem_cons]
  rw [takeStandIns_putStandIns_iff, ← hitems]
  exact (Json.unmistakableIff_chars (.arr (fs.map toJson))).iff

/-! ## The parameter -/

/-- The parameter is the text after the replacements of the table, one after the other, URL encoded.
The reader undoes the replacements in the order of the table as well. That gives back the text, also
behind the URL encoding, exactly if every filter is unmistakable. -/
theorem standIns_reversed_iff (fs : List Filter) :
    let written := standIns.foldl (fun acc p => replace [p.1] p.2 acc) (listToText fs)
    toParameter fs = urlEncode written ∧
      (takeStandIns written = listToText fs ↔ ∀ f ∈ fs, f.IsUnmistakable) ∧
      ((urlDecode (toParameter fs)).map takeStandIns = .ok (listToText fs) ↔
        ∀ f ∈ fs, f.IsUnmistakable) := by
  intro written
  have hwritten : written = putStandIns (listToText fs) :=
    foldl_replace_eq_putStandIns (listToText fs)
  have hread : (urlDecode (toParameter fs)).map takeStandIns = .ok (takeStandIns written) := by
    rw [toParameter, urlDecode_urlEncode, ok_map, hwritten]
  have hback : takeStandIns written = listToText fs ↔ ∀ f ∈ fs, f.IsUnmistakable := by
    rw [hwritten]
    exact takeStandIns_listToText_iff fs
  refine ⟨by rw [toParameter, hwritten], hback, ?_⟩
  rw [hread, Except.ok.injEq]
  exact hback

/-- A name with the token of a brace in it comes back as the name with the brace. -/
theorem not_standIns_reversed_braceInName :
    takeStandIns (putStandIns (listToText [condition "-_v" .eq (.int 1)])) =
      listToText [condition "\x7b" .eq (.int 1)] ∧
    takeStandIns (putStandIns (listToText [condition "-_v" .eq (.int 1)])) ≠
      listToText [condition "-_v" .eq (.int 1)] := by
  constructor
  · decide +kernel
  · decide +kernel

end Filter

end SearchDialect
