import SearchDialect.Proofs.Filter.Json
import SearchDialect.Proofs.Filter.StandIn

/-!
# Round trip of filters through a URL

The value of a URL parameter that is written from a list of filters is read as the list after its
revision, every filter as it is read back from JSON, exactly if no filter is nested more than 41
links deep (`readParameter_writeParameter`). All of this rests on the names, tags and texts being
separated: then the stand-ins are told from the text (`takeStandIns_listToText`), and the text is read
as it was written (`ofParameter_toParameter`). It also rests on the reader of JSON reading back the
numerals that the doubles are written as.
-/

namespace SearchDialect

open Text Number Time

/-! ## Separated filters -/

namespace Filter

/-- The property name, the tag and the text of a filter are separated. -/
def SeparatedNode (f : Filter) : Prop :=
  Separated f.property.toList ∧ (∀ t ∈ f.tag?, Separated t.toList) ∧
    ∀ s ∈ f.value.text?, Separated s.toList

instance (f : Filter) : Decidable f.SeparatedNode := inferInstanceAs (Decidable (_ ∧ _ ∧ _))

/-- The property names, tags and texts are separated at every depth. -/
def IsSeparated (f : Filter) : Prop := ∀ g ∈ f.walk, g.SeparatedNode

instance (f : Filter) : Decidable f.IsSeparated := inferInstanceAs (Decidable (∀ _ ∈ _, _))

/-- What is separated cannot be mistaken. -/
theorem IsSeparated.isUnmistakable {f : Filter} (h : f.IsSeparated) : f.IsUnmistakable := by
  intro g hg
  obtain ⟨hproperty, htag, htext⟩ := h g hg
  exact ⟨hproperty.unmistakable, fun t ht => (htag t ht).unmistakable,
    fun s hs => (htext s hs).unmistakable⟩

/-- The text of a list of filters comes back from its stand-ins. -/
theorem takeStandIns_listToText {fs : List Filter} (h : ∀ f ∈ fs, f.IsSeparated) :
    takeStandIns (putStandIns (listToText fs)) = listToText fs :=
  (takeStandIns_listToText_iff fs).2 fun f hf => (h f hf).isUnmistakable

/-! ## The parameter -/

theorem toParameter_ne_nil (fs : List Filter) : toParameter fs ≠ [] := by
  apply urlEncode_ne_nil
  -- The text of a list is never empty: it starts with a bracket.
  have hopen : ∃ cs, listToText fs = '[' :: cs := by
    unfold listToText
    cases fs <;> exact ⟨_, rfl⟩
  obtain ⟨cs, hcs⟩ := hopen
  rw [hcs]
  exact List.cons_ne_nil _ _

/-- The reader of JSON gets the text that was written. -/
theorem ofParameter_toParameter {fs : List Filter} (h : ∀ f ∈ fs, f.IsSeparated) :
    ofParameter (toParameter fs) = listOfText (listToText fs) := by
  have hne : (toParameter fs).isEmpty = false := List.isEmpty_eq_false_iff.2 (toParameter_ne_nil fs)
  rw [ofParameter, hne, if_neg (by decide), toParameter, urlDecode_urlEncode, ok_bind,
    takeStandIns_listToText h]

/-- Filters whose doubles are read back from their numerals come back as they are read from JSON. -/
theorem ofParameter_of_survives {fs : List Filter} (hseparated : ∀ f ∈ fs, f.IsSeparated)
    (hsurvives : ∀ f ∈ fs, f.Survives) : ofParameter (toParameter fs) =
      if ∀ f ∈ fs, f.height ≤ 41 then .ok (fs.map reread) else .error .invalidJson := by
  rw [ofParameter_toParameter hseparated, listOfText_listToText,
    mapM_rereadText?_of_survives hsurvives]
  rfl

/-- A lower bound of a price. -/
def priceFrom (d : Double) : Filter := condition "Price" .ge (.double d)

/-- A price comes back as another one if its numeral is read as another double. -/
theorem ofParameter_toParameter_uneven : ofParameter (toParameter [priceFrom Json.uneven]) =
    .ok [priceFrom (.ofDecimal false 5124817837550541 (-14))] := by
  have hseparated : ∀ f ∈ [priceFrom Json.uneven], f.IsSeparated := by decide
  have hfinite : Json.uneven.isFinite = true := by decide +kernel
  have hreread : (priceFrom Json.uneven).rereadText? =
      some (priceFrom (.ofDecimal false 5124817837550541 (-14))) := by
    rw [priceFrom, condition, rereadText?, Literal.rereadText?, if_pos hfinite,
      Json.reparsedDouble?_uneven.1]
    rfl
  rw [ofParameter_toParameter hseparated, listOfText_listToText, if_pos (by decide),
    List.mapM_cons, hreread]
  rfl

/-- The filters that do not carry a tag, in order, and one more at their end. -/
def carried (fs : List Filter) (add? : Option Filter) (removeTag? : Option String) : List Filter :=
  fs.filter (fun f => removeTag?.all fun tag => f.tag? != some tag) ++ add?.toList

theorem carried_none (fs : List Filter) : carried fs none none = fs := by
  have hall : fs.filter (fun f => Option.all (fun tag => f.tag? != some tag) none) = fs :=
    List.filter_eq_self.2 fun f _ => rfl
  rw [carried, hall, Option.toList_none, List.append_nil]

theorem revise_eq_carried (fs : List Filter) (add? : Option Filter) (removeTag? : Option String) :
    revise fs add? removeTag? = carried fs add? removeTag? := by
  cases removeTag? with
  | none =>
    have hall : carried fs add? none = carried fs none none ++ add?.toList := by
      rw [carried, carried, Option.toList_none, List.append_nil]
    rw [hall, carried_none]
    rfl
  | some tag => rfl

/-- What is read back is the parameter of the revised list. -/
theorem readParameter_eq (fs : List Filter) (add? : Option Filter) (removeTag? : Option String) :
    readParameter (writeParameter fs add? removeTag?) =
      ofParameter (toParameter (carried fs add? removeTag?)) := by
  rw [readParameter, writeParameter, String.toList_ofList, revise_eq_carried]

/-- A list of separated filters whose doubles are read back from their numerals survives the URL: what
is read back are the filters without the removed tag, in order, and the added one, equal at every
depth but for the literals that JSON has no form for. It fails, as no JSON, exactly if one of them has
links more than 41 deep. -/
theorem readParameter_writeParameter (fs : List Filter) (add? : Option Filter)
    (removeTag? : Option String)
    (hseparated : ∀ f ∈ carried fs add? removeTag?, f.IsSeparated)
    (hsurvives : ∀ f ∈ carried fs add? removeTag?, f.Survives) :
    readParameter (writeParameter fs add? removeTag?) =
      if ∀ f ∈ carried fs add? removeTag?, f.height ≤ 41 then
        .ok ((carried fs add? removeTag?).map reread)
      else .error .invalidJson := by
  rw [readParameter_eq, ofParameter_of_survives hseparated hsurvives]

/-- A color given by its letter, or the time of making given by its text and a price. -/
def redOrRecent : Filter :=
  .node "Color" .eq (.char 'r') (some "red_one") true
    [(.or, .condition "Made_at" .ge (.text "2020-01-02T03:04:05Z")),
      (.and, .condition "Price" .le (.double (Double.ofDecimal false 95 (-1))))]

/-- The letter comes back as a text, the text as a date-time and the price as itself; the tagged filter
is taken out and another one is added. -/
theorem readParameter_writeParameter_redOrRecent :
    (∀ f ∈ carried [redOrRecent, .node "Price" .lt (.int 3) (some "old") false []]
      (some (.condition "Name" .ne (.text "x_y, [z]: -"))) (some "old"),
      f.IsSeparated ∧ f.Survives) ∧
    readParameter (writeParameter [redOrRecent, .node "Price" .lt (.int 3) (some "old") false []]
      (some (.condition "Name" .ne (.text "x_y, [z]: -"))) (some "old")) =
        .ok [.node "Color" .eq (.text "r") (some "red_one") true [(.or, .condition "Made_at" .ge
          (.time ⟨⟨2020, 1, 2, by decide, by decide, by decide, by decide⟩, 184, 5, 0⟩)),
          (.and, .condition "Price" .le (.double (Double.ofDecimal false 95 (-1))))],
          .condition "Name" .ne (.text "x_y, [z]: -")] := by
  have hsep : ∀ f ∈ carried [redOrRecent, .node "Price" .lt (.int 3) (some "old") false []]
      (some (.condition "Name" .ne (.text "x_y, [z]: -"))) (some "old"), f.IsSeparated := by
    decide
  have hsurvives : ∀ f ∈ carried [redOrRecent, .node "Price" .lt (.int 3) (some "old") false []]
      (some (.condition "Name" .ne (.text "x_y, [z]: -"))) (some "old"), f.Survives := by
    decide +kernel
  have htime : readTimestamp? "2020-01-02T03:04:05Z".toList = some
      ⟨⟨2020, 1, 2, by decide, by decide, by decide, by decide⟩, 184, 5, 0⟩ := by
    decide +kernel
  have htext : readTimestamp? "x_y, [z]: -".toList = none := by decide +kernel
  have hprice : (Double.ofDecimal false 95 (-1)).isFinite = true := by decide +kernel
  refine ⟨fun f hf => ⟨hsep f hf, hsurvives f hf⟩, ?_⟩
  rw [readParameter_writeParameter _ _ _ hsep hsurvives, if_pos (by decide)]
  show Except.ok [reread _, reread _] = _
  simp only [redOrRecent, condition, reread, rereadLinks, Literal.reread, htime, htext, hprice,
    if_true]
  rfl

end Filter

end SearchDialect
