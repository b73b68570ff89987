import SearchDialect.Azure.Answer
import SearchDialect.Proofs.Text.Tagged

/-!
# Highlighted fields

A field with highlighted fragments is given as its whole text with tags in it. Each fragment is
looked for in the text as it stands after the fragments before it, tags included. As long as the
plain text of a fragment is found beside those tags only (`FoundApart`), the field keeps its text
(`expandField_keeps_text`): a fragment alone always is. A later fragment that is found inside a tag is
put into that tag, and the text is lost (`not_expandField_keeps_text_classInTag`).
-/

namespace SearchDialect.Azure

open Text Json

/-- The tags around highlighted text. -/
def tags (s : Settings) : List (List Char) := [s.preTag.toList, s.postTag.toList]

/-- A text without the tags around highlighted text. -/
def untagged (s : Settings) (text : String) : String :=
  replaceString s.postTag "" (replaceString s.preTag "" text)

/-- Fragments of which each is found beside the tags that are in the text by then. -/
def FoundApart (s : Settings) : String → List String → Prop
  | _, [] => True
  | text, fragment :: rest =>
    (untagged s fragment ≠ "" →
      ∀ w ∈ tags s, StandApart (untagged s fragment).toList w text.toList) ∧
    FoundApart s (highlightIn s.preTag s.postTag text fragment) rest

theorem preTag_mem (s : Settings) : s.preTag.toList ∈ tags s := List.mem_cons_self

theorem postTag_mem (s : Settings) : s.postTag.toList ∈ tags s :=
  List.mem_cons_of_mem _ List.mem_cons_self

variable {s : Settings}

theorem highlightIn_of_eq_empty {fragment : String} (h : untagged s fragment = "")
    (text : String) : highlightIn s.preTag s.postTag text fragment = text := by
  have hempty : (untagged s fragment).isEmpty = true := by
    rw [h]
    rfl
  exact if_pos hempty

theorem toList_highlightIn {fragment : String} (h : untagged s fragment ≠ "") (text : String) :
    (highlightIn s.preTag s.postTag text fragment).toList =
      replace (untagged s fragment).toList fragment.toList text.toList := by
  have hnonempty : ¬ (untagged s fragment).isEmpty = true := by simpa using h
  have heq : highlightIn s.preTag s.postTag text fragment =
      replaceString (untagged s fragment) fragment text := if_neg hnonempty
  rw [heq, toList_replaceString]

/-! ## One fragment after the other -/

/-- A fragment that is found beside the tags leaves the text as it is and puts tags into it. -/
theorem tagged_highlightIn (hne : [] ∉ tags s) {t : List Char} {text fragment : String}
    (htext : Tagged (tags s) text.toList t)
    (hfragment : Tagged (tags s) fragment.toList (untagged s fragment).toList)
    (hfound : untagged s fragment ≠ "" →
      ∀ w ∈ tags s, StandApart (untagged s fragment).toList w text.toList) :
    Tagged (tags s) (highlightIn s.preTag s.postTag text fragment).toList t := by
  by_cases hempty : untagged s fragment = ""
  · rw [highlightIn_of_eq_empty hempty]
    exact htext
  · have hplain : (untagged s fragment).toList ≠ [] := by simpa using hempty
    rw [toList_highlightIn hempty]
    exact htext.replace_part hne hplain hfragment (hfound hempty)

theorem tagged_foldl (hne : [] ∉ tags s) {t : List Char} {text : String} {fragments : List String}
    (htext : Tagged (tags s) text.toList t)
    (hfragments : ∀ f ∈ fragments, Tagged (tags s) f.toList (untagged s f).toList)
    (hfound : FoundApart s text fragments) :
    Tagged (tags s) (fragments.foldl (highlightIn s.preTag s.postTag) text).toList t := by
  induction fragments generalizing text with
  | nil => exact htext
  | cons fragment rest ih =>
    rw [List.forall_mem_cons] at hfragments
    exact ih (tagged_highlightIn hne htext hfragments.1 hfound.1) hfragments.2 hfound.2

/-- Fragments whose plain texts and the tags never start in each other are found beside the tags. -/
theorem foundApart_of_not_startsIn {fragments : List String}
    (h : ∀ f ∈ fragments, ∀ w ∈ tags s,
      ¬ StartsIn (untagged s f).toList w ∧ ¬ StartsIn w (untagged s f).toList) (text : String) :
    FoundApart s text fragments := by
  induction fragments generalizing text with
  | nil => trivial
  | cons fragment rest ih =>
    rw [List.forall_mem_cons] at h
    refine ⟨?_, ih h.2 _⟩
    intro _ w hw
    obtain ⟨hplain, htag⟩ := h.1 w hw
    exact standApart_of_not_startsIn hplain htag text.toList

/-- A single fragment is found in a text without tags. -/
theorem foundApart_singleton {text : String} (h : ∀ w ∈ tags s, ¬ w <:+: text.toList)
    (fragment : String) : FoundApart s text [fragment] := by
  refine ⟨?_, trivial⟩
  intro _ w hw i _ j _ _ hstands
  exact absurd (hstands.isInfix.trans (List.drop_suffix j text.toList).isInfix) (h w hw)

/-! ## The whole field -/

/-- A field keeps its text when its fragments are highlighted: with the tags taken out of the one
text that is given for it, in whichever order, it is as before. The tags must be told apart wherever
they stand, the text must hold none of them, a fragment must be its plain text with whole tags in
it, and the fragments must be found beside the tags. -/
theorem expandField_keeps_text {members : List (String × Json)} {field text : String}
    {fragments : List String} (happart : TagsApart (tags s))
    (htext : fieldText? members field = some text) (hfree : ∀ w ∈ tags s, ¬ w <:+: text.toList)
    (hfragments : ∀ f ∈ fragments, Tagged (tags s) f.toList (untagged s f).toList)
    (hfound : FoundApart s text fragments) :
    ∃ entry, expandField s members field fragments = pure (field, [entry]) ∧
      untagged s entry = text ∧
      replaceString s.preTag "" (replaceString s.postTag "" entry) = text := by
  have hne : [] ∉ tags s := fun hmem => hfree [] hmem List.nil_infix
  have hpre : ¬ s.preTag.toList <:+: text.toList := hfree _ (preTag_mem s)
  have hpost : ¬ s.postTag.toList <:+: text.toList := hfree _ (postTag_mem s)
  have htagged := tagged_foldl hne (.refl text.toList) hfragments hfound
  have hswap : [s.postTag.toList, s.preTag.toList] ⊆ tags s := by simp [tags]
  have hswap' : tags s ⊆ [s.postTag.toList, s.preTag.toList] := by simp [tags]
  refine ⟨fragments.foldl (highlightIn s.preTag s.postTag) text, ?_, ?_, ?_⟩
  · rw [expandField, htext]
  · apply String.toList_inj.1
    rw [untagged, toList_replaceString, toList_replaceString]
    exact htagged.eq_of_tagsApart happart hpre hpost
  · apply String.toList_inj.1
    rw [toList_replaceString, toList_replaceString]
    exact (htagged.mono hswap').eq_of_tagsApart (happart.mono hswap) hpost hpre

/-- A text with tags around a part of it. -/
def highlighted (s : Settings) (before part after : String) : String :=
  before ++ (s.preTag ++ (part ++ (s.postTag ++ after)))

theorem tagged_highlighted (s : Settings) (before part after : String) :
    Tagged (tags s) (highlighted s before part after).toList
      (before ++ part ++ after).toList := by
  simp only [highlighted, String.toList_append, List.append_assoc]
  have hpost := Tagged.tag (postTag_mem s) (.refl after.toList)
  have hpre := Tagged.tag (preTag_mem s) ((Tagged.refl part.toList).append hpost)
  exact (Tagged.refl before.toList).append hpre

/-- A document with a name. -/
def named (name : String) : List (String × Json) := [("Name", .str name)]

/-- Two fragments whose words the default tags do not hold. -/
theorem expandField_keeps_text_redShoe :
    TagsApart (tags {}) ∧
    fieldText? (named "A red shoe to run") "Name" = some "A red shoe to run" ∧
    (∀ w ∈ tags {}, ¬ w <:+: "A red shoe to run".toList) ∧
    ∃ entry, expandField {} (named "A red shoe to run") "Name"
        ["<span class=\"highlight\">red</span> shoe", "to <span class=\"highlight\">run</span>"] =
        pure ("Name", [entry]) ∧
      untagged {} entry = "A red shoe to run" ∧
      replaceString "<span class=\"highlight\">" "" (replaceString "</span>" "" entry) =
        "A red shoe to run" := by
  have happart : TagsApart (tags {}) := by decide +kernel
  have htext : fieldText? (named "A red shoe to run") "Name" = some "A red shoe to run" := by
    decide +kernel
  have hfree : ∀ w ∈ tags {}, ¬ w <:+: "A red shoe to run".toList := by decide +kernel
  refine ⟨happart, htext, hfree, expandField_keeps_text happart htext hfree ?_ ?_⟩
  · have hred : "<span class=\"highlight\">red</span> shoe" = highlighted {} "" "red" " shoe" ∧
        untagged {} "<span class=\"highlight\">red</span> shoe" = "" ++ "red" ++ " shoe" := by
      decide +kernel
    have hrun : "to <span class=\"highlight\">run</span>" = highlighted {} "to " "run" "" ∧
        untagged {} "to <span class=\"highlight\">run</span>" = "to " ++ "run" ++ "" := by
      decide +kernel
    rw [List.forall_mem_cons, List.forall_mem_singleton, hred.2, hrun.2, hred.1, hrun.1]
    exact ⟨tagged_highlighted {} "" "red" " shoe", tagged_highlighted {} "to " "run" ""⟩
  · apply foundApart_of_not_startsIn
    decide +kernel

/-- The second fragment is found inside the tag that the first one put in. The text holds no tag, and
the fragments without their tags are in it. -/
theorem not_expandField_keeps_text_classInTag :
    fieldText? (named "red class") "Name" = some "red class" ∧
    (∀ w ∈ tags {}, ¬ w <:+: "red class".toList) ∧
    (∀ f ∈ ["<span class=\"highlight\">red</span>", "<span class=\"highlight\">class</span>"],
      (untagged {} f).toList <:+: "red class".toList) ∧
    expandField {} (named "red class") "Name"
        ["<span class=\"highlight\">red</span>", "<span class=\"highlight\">class</span>"] =
      pure ("Name", ["<span <span class=\"highlight\">class</span>=\"highlight\">red</span> " ++
        "<span class=\"highlight\">class</span>"]) ∧
    untagged {} ("<span <span class=\"highlight\">class</span>=\"highlight\">red</span> " ++
      "<span class=\"highlight\">class</span>") ≠ "red class" := by
  have htext : fieldText? (named "red class") "Name" = some "red class" := by decide +kernel
  have hentry : ["<span class=\"highlight\">red</span>",
      "<span class=\"highlight\">class</span>"].foldl
        (highlightIn ({} : Settings).preTag ({} : Settings).postTag) "red class" =
      "<span <span class=\"highlight\">class</span>=\"highlight\">red</span> " ++
        "<span class=\"highlight\">class</span>" := by decide +kernel
  refine ⟨htext, by decide +kernel, by decide +kernel, ?_, by decide +kernel⟩
  rw [expandField, htext]
  simp only [hentry]

end SearchDialect.Azure
