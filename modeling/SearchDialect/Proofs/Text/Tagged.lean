import SearchDialect.Proofs.Text.Replace

/-!
# Texts with tags in them

Whole tags put anywhere into a text (`Tagged`) are taken out again by replacing them with nothing, one
tag after the other, if a tag starts in no other (`TagsApart`) and the text itself holds none
(`Tagged.eq_of_tagsApart`). A tagged text stays tagged when a part of the text is replaced by the same
part with tags in it, as long as the part is found beside the tags only (`Tagged.replace_part`).
-/

namespace SearchDialect.Text

/-! ## Words that meet -/

/-- A word can start at some character of another: what the other one is from there on goes on in
the word, or the word ends in it. -/
def StartsIn (w' w : List Char) : Prop :=
  ∃ part ∈ w.tails, part ≠ [] ∧ (part <+: w' ∨ w' <+: part)

/-- Two words of which no occurrences in a text share a character. -/
def StandApart (p w u : List Char) : Prop :=
  ∀ i < u.length, ∀ j < u.length, p <+: u.drop i → w <+: u.drop j →
    i + p.length ≤ j ∨ j + w.length ≤ i

instance (w' w : List Char) : Decidable (StartsIn w' w) :=
  inferInstanceAs (Decidable (∃ part ∈ w.tails, part ≠ [] ∧ (part <+: w' ∨ w' <+: part)))

instance (p w u : List Char) : Decidable (StandApart p w u) :=
  inferInstanceAs (Decidable (∀ i < u.length, ∀ j < u.length, p <+: u.drop i → w <+: u.drop j →
    i + p.length ≤ j ∨ j + w.length ≤ i))

theorem StandApart.of_append {p w x u : List Char} (h : StandApart p w (x ++ u)) :
    StandApart p w u := by
  intro i hi j hj hp hw
  have hdrop (k : Nat) : (x ++ u).drop (x.length + k) = u.drop k :=
    List.drop_length_add_append k
  have hlength : (x ++ u).length = x.length + u.length := List.length_append
  have hplaces := h (x.length + i) (by omega) (x.length + j) (by omega) (by rwa [hdrop])
    (by rwa [hdrop])
  omega

/-- A word that stands at a character of another word starts in it. -/
theorem startsIn_of_stands {w w' u : List Char} {i j : Nat} (hij : i ≤ j)
    (hj : j < i + w.length) (hw : w <+: u.drop i) (hw' : w' <+: u.drop j) : StartsIn w' w := by
  refine ⟨w.drop (j - i), (List.mem_tails _ _).2 (List.drop_suffix _ _), ?_, ?_⟩
  · rw [Ne, List.drop_eq_nil_iff]
    omega
  · have hpart : w.drop (j - i) <+: u.drop j := by
      have hdrop := List.IsPrefix.drop hw (j - i)
      rw [List.drop_drop] at hdrop
      rwa [show i + (j - i) = j by omega] at hdrop
    exact List.prefix_or_prefix_of_prefix hpart hw'

/-- Words that never start in each other stand apart in every text. -/
theorem standApart_of_not_startsIn {p w : List Char} (hp : ¬ StartsIn p w) (hw : ¬ StartsIn w p)
    (u : List Char) : StandApart p w u := by
  intro i _ j _ hi hj
  by_contra hoverlap
  rcases Nat.le_total i j with hij | hij
  · exact hw (startsIn_of_stands hij (by omega) hi hj)
  · exact hp (startsIn_of_stands hij (by omega) hj hi)

/-! ## Tags -/

/-- A text into which whole tags were put, and the text without them. -/
inductive Tagged (tags : List (List Char)) : List Char → List Char → Prop where
  | nil : Tagged tags [] []
  | char (c : Char) {u t : List Char} : Tagged tags u t → Tagged tags (c :: u) (c :: t)
  | tag {w u t : List Char} : w ∈ tags → Tagged tags u t → Tagged tags (w ++ u) t

/-- Tags that are told apart wherever they stand. A tag starts in no other one, and it starts in
itself only where the rest of it and what is before the rest can change places, as in a tag that
repeats one character. -/
def TagsApart (tags : List (List Char)) : Prop :=
  ∀ w ∈ tags, ∀ part ∈ w.tails, part ≠ [] → ∀ w' ∈ tags, part <+: w' ∨ w' <+: part →
    w' = w ∧ part ++ w.take (w.length - part.length) = w

instance (tags : List (List Char)) : Decidable (TagsApart tags) :=
  inferInstanceAs (Decidable (∀ w ∈ tags, ∀ part ∈ w.tails, part ≠ [] → ∀ w' ∈ tags,
    part <+: w' ∨ w' <+: part → w' = w ∧ part ++ w.take (w.length - part.length) = w))

variable {tags : List (List Char)}

theorem TagsApart.mono {tags' : List (List Char)} (hsub : tags' ⊆ tags) (h : TagsApart tags) :
    TagsApart tags' := by
  intro w hw part hpart hpartne w' hw' hmeets
  exact h w (hsub hw) part hpart hpartne w' (hsub hw') hmeets

/-- Where a tag starts in a tag, it is the same one with its parts in the other order. -/
theorem TagsApart.commute (h : TagsApart tags) {x part w' : List Char} (hw : x ++ part ∈ tags)
    (hpart : part ≠ []) (hw' : w' ∈ tags) (hmeets : part <+: w' ∨ w' <+: part) :
    w' = x ++ part ∧ part ++ x = x ++ part := by
  obtain ⟨hsame, hturned⟩ :=
    h _ hw part ((List.mem_tails _ _).2 (List.suffix_append x part)) hpart w' hw' hmeets
  rw [List.length_append, Nat.add_sub_cancel, List.take_left] at hturned
  exact ⟨hsame, hturned⟩

theorem length_pos_of_mem_tags (hne : [] ∉ tags) {w : List Char} (hw : w ∈ tags) :
    0 < w.length :=
  List.length_pos_iff.2 fun hnil => hne (hnil ▸ hw)

namespace Tagged

theorem refl (t : List Char) : Tagged tags t t := by
  induction t with
  | nil => exact .nil
  | cons c t ih => exact .char c ih

theorem append {u t u' t' : List Char} (h : Tagged tags u t) (h' : Tagged tags u' t') :
    Tagged tags (u ++ u') (t ++ t') := by
  induction h with
  | nil => exact h'
  | char c _ ih => exact .char c ih
  | tag hw _ ih =>
    rw [List.append_assoc]
    exact .tag hw ih

theorem mono {tags' : List (List Char)} (hsub : tags ⊆ tags') {u t : List Char}
    (h : Tagged tags u t) : Tagged tags' u t := by
  induction h with
  | nil => exact .nil
  | char c _ ih => exact .char c ih
  | tag hw _ ih => exact .tag (hsub hw) ih

theorem eq_of_no_tags {u t : List Char} (h : Tagged [] u t) : u = t := by
  induction h with
  | nil => rfl
  | char c _ ih => rw [ih]
  | tag hw _ _ => exact absurd hw List.not_mem_nil

/-! ## Taking tags out -/

/-- A word at the start of a tagged text stands there in the text itself, or the first tag starts in
the word. -/
theorem prefix_or_meets {w u t : List Char} (h : Tagged tags u t) (hw : w <+: u) :
    w <+: t ∨ ∃ x part w' u' t', w = x ++ part ∧ part ≠ [] ∧ w' ∈ tags ∧ u = x ++ (w' ++ u') ∧
      t = x ++ t' ∧ Tagged tags u' t' := by
  induction h generalizing w with
  | nil => exact .inl hw
  | char c _ ih =>
    cases w with
    | nil => exact .inl List.nil_prefix
    | cons x w =>
      obtain ⟨rfl, hrest⟩ := List.cons_prefix_cons.1 hw
      rcases ih hrest with htext | ⟨y, part, w', u', t', rfl, hpart, hw', rfl, rfl, htagged⟩
      · exact .inl (List.cons_prefix_cons.2 ⟨rfl, htext⟩)
      · exact .inr ⟨x :: y, part, w', u', t', rfl, hpart, hw', rfl, rfl, htagged⟩
  | @tag w' u t hw' htagged _ =>
    by_cases hne : w = []
    · exact .inl (hne ▸ List.nil_prefix)
    · exact .inr ⟨[], w, w', u, t, rfl, hne, hw', rfl, rfl, htagged⟩

/-- A tag that stands at the start of a tagged text can be taken off. -/
theorem of_append {w r t : List Char} (happart : TagsApart tags) (hw : w ∈ tags)
    (ht : ¬ w <:+: t) (h : Tagged tags (w ++ r) t) : Tagged tags r t := by
  rcases h.prefix_or_meets (List.prefix_append w r) with
    htext | ⟨x, part, w', u', t', rfl, hpart, hw', hu, rfl, htagged⟩
  · exact absurd htext.isInfix ht
  · have hrest : part ++ r = w' ++ u' := by
      rw [List.append_assoc] at hu
      exact List.append_cancel_left hu
    have hmeets : part <+: w' ∨ w' <+: part :=
      List.prefix_or_prefix_of_prefix ⟨r, hrest⟩ (List.prefix_append w' u')
    obtain ⟨rfl, hturned⟩ := happart.commute hw hpart hw' hmeets
    -- the characters before the tag can as well stand behind it
    have hr : r = x ++ u' := by
      rw [← hturned, List.append_assoc] at hrest
      exact List.append_cancel_left hrest
    rw [hr]
    exact (Tagged.refl x).append htagged

/-- The first of some tags is taken out of a text that does not hold it. -/
theorem replace_tag {w : List Char} (hne : [] ∉ w :: tags) (happart : TagsApart (w :: tags))
    {u t : List Char} (h : Tagged (w :: tags) u t) (ht : ¬ w <:+: t) :
    Tagged tags (replace w [] u) t := by
  have hw : 0 < w.length := length_pos_of_mem_tags hne List.mem_cons_self
  induction hk : u.length using Nat.strongRecOn generalizing u t with
  | _ k ih =>
    subst hk
    by_cases hfront : w <+: u
    · obtain ⟨r, rfl⟩ := hfront
      rw [replace_append (List.length_pos_iff.1 hw)]
      refine ih r.length ?_ (h.of_append happart List.mem_cons_self ht) ht rfl
      rw [List.length_append]
      omega
    cases h with
    | nil =>
      rw [replace]
      exact .nil
    | @char c u t h =>
      rw [replace_skip (afterWord?_eq_none_iff.2 hfront)]
      exact .char c (ih u.length (Nat.lt_succ_self _) h (fun hin => ht (List.infix_cons hin)) rfl)
    | @tag w' u t hw' h =>
      have hother : w' ≠ w := fun heq => hfront (heq ▸ List.prefix_append w' u)
      have hskip : ∀ part ∈ w'.tails, part ≠ [] → ¬ w <+: part ++ u := by
        intro part hpart hpartne hstart
        obtain ⟨x, rfl⟩ := (List.mem_tails _ _).1 hpart
        have hmeets := List.prefix_or_prefix_of_prefix (List.prefix_append part u) hstart
        exact hother (happart.commute hw' hpartne List.mem_cons_self hmeets).1.symm
      rw [replace_skip_word hskip]
      have hmem : w' ∈ tags := (List.mem_cons.1 hw').resolve_left hother
      refine .tag hmem (ih u.length ?_ h ht rfl)
      have := length_pos_of_mem_tags hne hw'
      rw [List.length_append]
      omega

/-- Two tags are taken out, one after the other. -/
theorem eq_of_tagsApart {w w' : List Char} (happart : TagsApart [w, w']) {u t : List Char}
    (h : Tagged [w, w'] u t) (ht : ¬ w <:+: t) (ht' : ¬ w' <:+: t) :
    replace w' [] (replace w [] u) = t := by
  have hne : [] ∉ [w, w'] := by
    intro hmem
    rcases List.mem_pair.1 hmem with rfl | rfl
    · exact ht List.nil_infix
    · exact ht' List.nil_infix
  have hsub : [w'] ⊆ [w, w'] := List.subset_cons_self w [w']
  have hfirst : Tagged [w'] (replace w [] u) t := h.replace_tag hne happart ht
  exact (hfirst.replace_tag (fun hmem => hne (hsub hmem)) (happart.mono hsub) ht').eq_of_no_tags

example : TagsApart ["<em>".toList, "</em>".toList] ∧ TagsApart ["[[".toList, "]]".toList] ∧
    ¬ TagsApart ["(x(".toList, "x)".toList] := by decide

/-! ## Putting tags in -/

/-- Characters at which no tag starts stand in the text itself. -/
theorem cut {p r t : List Char}
    (hstart : ∀ w ∈ tags, ∀ j < (p ++ r).length, w <+: (p ++ r).drop j → p.length ≤ j)
    (h : Tagged tags (p ++ r) t) : ∃ rest, t = p ++ rest ∧ Tagged tags r rest := by
  induction p generalizing t with
  | nil => exact ⟨t, rfl, h⟩
  | cons c p ih =>
    rw [List.cons_append] at h hstart
    generalize hu : c :: (p ++ r) = u at h
    cases h with
    | nil => cases hu
    | char c' h =>
      cases hu
      have hstart' : ∀ w ∈ tags, ∀ j < (p ++ r).length, w <+: (p ++ r).drop j →
          p.length ≤ j := by
        intro w hw j hj hstands
        exact Nat.le_of_succ_le_succ (hstart w hw (j + 1) (Nat.succ_lt_succ hj) hstands)
      obtain ⟨rest, rfl, hrest⟩ := ih hstart' h
      exact ⟨rest, rfl, hrest⟩
    | @tag w u' _ hw _ =>
      have hfront : w <+: (c :: (p ++ r)).drop 0 := hu ▸ List.prefix_append w u'
      exact absurd (hstart w hw 0 (Nat.succ_pos _) hfront) (Nat.not_succ_le_zero _)

/-- A part of a text is replaced by the same part with tags in it, wherever it is found beside the
tags. -/
theorem replace_part (hne : [] ∉ tags) {p f u t : List Char} (hp : p ≠ []) (h : Tagged tags u t)
    (hf : Tagged tags f p) (happart : ∀ w ∈ tags, StandApart p w u) :
    Tagged tags (replace p f u) t := by
  have hplength := List.length_pos_iff.2 hp
  induction hk : u.length using Nat.strongRecOn generalizing u t with
  | _ k ih =>
    subst hk
    cases h with
    | nil =>
      rw [replace]
      exact .nil
    | @char c u t h =>
      by_cases hfront : p <+: c :: u
      · obtain ⟨r, hr⟩ := hfront
        have hwhole : Tagged tags (c :: u) (c :: t) := .char c h
        rw [← hr] at happart ih hwhole ⊢
        have hstart : ∀ w ∈ tags, ∀ j < (p ++ r).length, w <+: (p ++ r).drop j →
            p.length ≤ j := by
          intro w hw j hj hstands
          have hplaces := happart w hw 0 (by omega) j hj (List.prefix_append p r) hstands
          have := length_pos_of_mem_tags hne hw
          omega
        obtain ⟨rest, hrest, htagged⟩ := hwhole.cut hstart
        rw [hrest, replace_append hp]
        refine hf.append (ih r.length ?_ htagged (fun w hw => (happart w hw).of_append) rfl)
        rw [List.length_append]
        omega
      · rw [replace_skip (afterWord?_eq_none_iff.2 hfront)]
        have happart' : ∀ w ∈ tags, StandApart p w u :=
          fun w hw => StandApart.of_append (x := [c]) (happart w hw)
        exact .char c (ih u.length (Nat.lt_succ_self _) h happart' rfl)
    | @tag w u t hw h =>
      have hskip : ∀ part ∈ w.tails, part ≠ [] → ¬ p <+: part ++ u := by
        intro part hpart hpartne hstands
        obtain ⟨x, rfl⟩ := (List.mem_tails _ _).1 hpart
        have hpartlength := List.length_pos_iff.2 hpartne
        have hpos : x.length < (x ++ part ++ u).length := by
          simp only [List.length_append]
          omega
        have hdrop : (x ++ part ++ u).drop x.length = part ++ u := by
          rw [List.append_assoc, List.drop_left]
        have hplaces := happart _ hw x.length hpos 0 (by omega) (by rwa [hdrop])
          (List.prefix_append _ u)
        rw [List.length_append] at hplaces
        omega
      rw [replace_skip_word hskip]
      refine .tag hw (ih u.length ?_ h (fun w hw => (happart w hw).of_append) rfl)
      have := length_pos_of_mem_tags hne hw
      rw [List.length_append]
      omega

end Tagged

end SearchDialect.Text
