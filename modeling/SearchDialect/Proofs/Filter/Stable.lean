import SearchDialect.Proofs.Filter.Tree
import SearchDialect.Proofs.Filter.Wire

/-!
# Filters that come back as themselves

A filter comes back from its JSON as itself if every literal in it does (`reread_eq_self_iff`). Of a
filter that was read from JSON this only asks that its date-times lie in the years 0 to 9999, and
whatever it comes back as stays as it is on all further trips (`afterTrips_eq_ok_iff`).
-/

namespace SearchDialect

open Time

namespace Filter

/-! ## Reading back -/

theorem rereadLinks_eq_map (ls : List (Connective × Filter)) :
    rereadLinks ls = ls.map (Prod.map id reread) := by
  induction ls with
  | nil => rfl
  | cons l ls ih =>
    obtain ⟨c, f⟩ := l
    rw [rereadLinks, ih]
    rfl

theorem walk_reread (f : Filter) : f.reread.walk = f.walk.map reread := by
  induction f with
  | node p c v t vi ls ih =>
    have hlinks : (ls.map (Prod.map id reread)).flatMap (fun l => l.2.walk) =
        (ls.flatMap fun l => l.2.walk).map reread := by
      rw [List.flatMap_map, List.map_flatMap]
      exact List.flatMap_congr fun l hl => ih l hl
    rw [walk, walkLinks_eq, List.map_cons, ← hlinks, ← rereadLinks_eq_map, ← walkLinks_eq, reread,
      walk]

theorem value_reread (f : Filter) : f.reread.value = f.value.reread := by
  obtain ⟨p, c, v, t, vi, ls⟩ := f
  rfl

/-- The values of a filter come back as themselves at every depth. -/
def IsStable (f : Filter) : Prop := ∀ g ∈ f.walk, g.value.Stable

instance (f : Filter) : Decidable f.IsStable := inferInstanceAs (Decidable (∀ _ ∈ _, _))

mutual

theorem reread_of_isStable {f : Filter} (h : f.IsStable) : f.reread = f := by
  match f with
  | node p c v t vi ls =>
    have hv : v.reread = v := Literal.reread_of_stable (h _ List.mem_cons_self)
    have hls := rereadLinks_of_isStable fun g hg => h g (List.mem_cons_of_mem _ hg)
    rw [reread, hv, hls]

theorem rereadLinks_of_isStable {ls : List (Connective × Filter)}
    (h : ∀ g ∈ walkLinks ls, g.value.Stable) : rereadLinks ls = ls := by
  match ls with
  | [] => rfl
  | (c, f) :: ls =>
    have hf := reread_of_isStable (f := f) fun g hg => h g (List.mem_append_left _ hg)
    have hls : rereadLinks ls = ls :=
      rereadLinks_of_isStable fun g hg => h g (List.mem_append_right _ hg)
    rw [rereadLinks, hf, hls]

end

theorem reread_eq_self_iff {f : Filter} : f.reread = f ↔ f.IsStable := by
  constructor
  · intro h g hg
    -- The walk stays as it is, and so does every filter on it.
    have hwalk : f.walk.map reread = f.walk.map id := by rw [← walk_reread, h, List.map_id]
    have hvalue : g.reread.value = g.value := congrArg value (List.map_inj_left.1 hwalk g hg)
    rw [value_reread] at hvalue
    exact Literal.reread_eq_self_iff.1 hvalue
  · exact reread_of_isStable

/-- Links that come back from a text as themselves lead to filters that do. -/
theorem rereadText?_of_mem {ls : List (Connective × Filter)} (h : rereadTextLinks? ls = some ls) :
    ∀ l ∈ ls, l.2.rereadText? = some l.2 := by
  induction ls with
  | nil => exact fun l hl => absurd hl List.not_mem_nil
  | cons l ls ih =>
    obtain ⟨c, f⟩ := l
    rw [rereadTextLinks?, Option.bind_eq_some_iff] at h
    obtain ⟨g, hf, h⟩ := h
    obtain ⟨ks, hls, h⟩ := Option.map_eq_some_iff.1 h
    cases h
    exact List.forall_mem_cons.2 ⟨hf, ih hls⟩

/-- A filter comes back from a text as itself if its values do from their JSON, and if its doubles
are read back from their numerals. -/
theorem rereadText?_eq_self_iff {f : Filter} :
    f.rereadText? = some f ↔ f.IsStable ∧ f.Survives := by
  constructor
  · intro h
    induction f with
    | node p c v t vi ls ih =>
      rw [rereadText?, Option.bind_eq_some_iff] at h
      obtain ⟨w, hv, h⟩ := h
      obtain ⟨ks, hls, h⟩ := Option.map_eq_some_iff.1 h
      cases h
      obtain ⟨hstable, hsurvives⟩ := Literal.rereadText?_eq_self_iff.1 hv
      have hlinks := rereadText?_of_mem hls
      exact ⟨forall_mem_walk_iff.2 ⟨hstable, fun l hl => (ih l hl (hlinks l hl)).1⟩,
        forall_mem_walk_iff.2 ⟨hsurvives, fun l hl => (ih l hl (hlinks l hl)).2⟩⟩
  · rintro ⟨hstable, hsurvives⟩
    rw [rereadText?_of_survives hsurvives, reread_of_isStable hstable]

theorem mapM_rereadText?_eq_self_iff {fs : List Filter} :
    fs.mapM rereadText? = some fs ↔ ∀ f ∈ fs, f.IsStable ∧ f.Survives := by
  induction fs with
  | nil => exact iff_of_true rfl fun f hf => absurd hf List.not_mem_nil
  | cons f fs ih =>
    rw [List.mapM_cons, List.forall_mem_cons, ← rereadText?_eq_self_iff, ← ih]
    simp [Option.bind_eq_some_iff]

/-! ## Filters that were read -/

theorem isDecoded_of_valueOfJson {ms : List (String × Json)} {v : Literal}
    (hms : Json.PlainMembers ms) (h : valueOfJson ms = .ok v) : v.IsDecoded := by
  rw [valueOfJson] at h
  split at h
  · cases h
    exact .inl trivial
  · next j hj => exact Literal.isDecoded_of_ofJson (Json.plain_of_lookup hms hj) h

mutual

theorem isDecoded_of_ofJson {j : Json} {f : Filter} (hj : j.Plain) (h : ofJson j = .ok f) :
    ∀ g ∈ f.walk, g.value.IsDecoded := by
  match j with
  | .obj ms =>
    rw [ofJson] at h
    simp only [bind_eq_ok_iff] at h
    obtain ⟨p, -, c, -, v, hv, vi, -, t, -, ls, hls, hf⟩ := h
    cases hf
    rw [walk, List.forall_mem_cons]
    exact ⟨isDecoded_of_valueOfJson hj hv, isDecoded_of_linksOfMembers hj hls⟩
  | .null | .bool _ | .int _ | .double _ | .str _ | .arr _ => simp [ofJson] at h
termination_by sizeOf j

theorem isDecoded_of_linksOfMembers {ms : List (String × Json)} {ls : List (Connective × Filter)}
    (hms : Json.PlainMembers ms) (h : linksOfMembers ms = .ok ls) :
    ∀ g ∈ walkLinks ls, g.value.IsDecoded := by
  rw [linksOfMembers] at h
  split at h
  · cases h
    exact fun g hg => absurd hg List.not_mem_nil
  · cases h
    exact fun g hg => absurd hg List.not_mem_nil
  · next items hitems =>
    have hlt := sizeOf_lookup hitems
    have hplain : Json.PlainItems items := Json.plain_of_lookup hms hitems
    exact isDecoded_of_linksOfJson hplain h
  · cases h
termination_by sizeOf ms
decreasing_by
  simp only [Json.arr.sizeOf_spec] at hlt
  omega

theorem isDecoded_of_linksOfJson {items : List Json} {ls : List (Connective × Filter)}
    (hitems : Json.PlainItems items) (h : linksOfJson items = .ok ls) :
    ∀ g ∈ walkLinks ls, g.value.IsDecoded := by
  match items with
  | [] =>
    rw [linksOfJson] at h
    cases h
    exact fun g hg => absurd hg List.not_mem_nil
  | j :: js =>
    rw [linksOfJson] at h
    simp only [bind_eq_ok_iff] at h
    obtain ⟨l, hl, ls, hls, hcons⟩ := h
    cases hcons
    intro g hg
    rw [walkLinks, List.mem_append] at hg
    rcases hg with hg | hg
    · exact isDecoded_of_linkOfJson hitems.1 hl g hg
    · exact isDecoded_of_linksOfJson hitems.2 hls g hg
termination_by sizeOf items

theorem isDecoded_of_linkOfJson {j : Json} {l : Connective × Filter} (hj : j.Plain)
    (h : linkOfJson j = .ok l) : ∀ g ∈ l.2.walk, g.value.IsDecoded := by
  rw [linkOfJson] at h
  split at h
  · cases h
  split at h
  · cases h
  next inner hinner =>
  have hlt := sizeOf_get? hinner
  cases hf : ofJson inner with
  | error e =>
    rw [hf] at h
    cases h
  | ok f =>
    rw [hf] at h
    cases h
    exact isDecoded_of_ofJson (Json.plain_of_get? hj hinner) hf
termination_by sizeOf j

end

/-- What a filter that was read comes back as comes back as itself. -/
theorem isStable_reread {f : Filter} (h : ∀ g ∈ f.walk, g.value.IsDecoded) :
    f.reread.IsStable := by
  intro g hg
  rw [walk_reread, List.mem_map] at hg
  obtain ⟨g, hg, rfl⟩ := hg
  rw [value_reread]
  exact (h g hg).stable_reread

/-! ## Trips through JSON -/

/-- A filter after it was written and read some times. -/
def afterTrips (f : Filter) : Nat → Except FormatError Filter
  | 0 => .ok f
  | n + 1 => f.afterTrips n >>= fun g => ofJson g.toJson

/-- All changes are made on the first trip. -/
theorem afterTrips_succ {f : Filter} (h : f.reread.IsStable) (n : Nat) :
    f.afterTrips (n + 1) = .ok f.reread := by
  induction n with
  | zero => exact ofJson_toJson f
  | succ n ih => rw [afterTrips, ih, ok_bind, ofJson_toJson, reread_of_isStable h]

/-- A filter that was read from JSON comes back as itself, on one trip or on many, exactly if none
of its date-times lies outside the years 0 to 9999. What it comes back as in any case is the same
after every number of trips, whether the members stand in the order of the printer or in the order
of their names. -/
theorem afterTrips_eq_ok_iff {j : Json} {f : Filter} (hj : j.Plain) (h : ofJson j = .ok f) :
    (∀ n, f.afterTrips (n + 1) = .ok f ↔
      ∀ g ∈ f.walk, ∀ t, g.value = .time t → 0 ≤ t.date.year ∧ t.date.year ≤ 9999) ∧
    (∃ g, ∀ n, f.afterTrips (n + 1) = .ok g) ∧ ofJson f.toJson.sort = ofJson f.toJson := by
  have hdecoded := isDecoded_of_ofJson hj h
  have htrips := afterTrips_succ (isStable_reread hdecoded)
  refine ⟨fun n => ?_, ⟨f.reread, htrips⟩, ?_⟩
  · rw [htrips, Except.ok.injEq, reread_eq_self_iff]
    exact forall₂_congr fun g hg => (hdecoded g hg).stable_iff
  · rw [ofJson_sort_toJson, ofJson_toJson]

/-- The members of a condition on a date-time two hours ahead of UTC, or on the largest negative
double. -/
def afternoonOrViews : List (String × Json) :=
  [("p", .str "Created"), ("o", .str "ge"), ("v", .str "2020-05-01t14:30:00.5+02:00"),
    ("f", .arr [.obj [("l", .str "or"),
      ("f", .obj [("p", .str "Views"), ("v", .double (Number.Double.ofMagnitude true 1))])]])]

def views : Filter := condition "Views" .eq (.double (Number.Double.ofMagnitude true 1))

/-- What reading has brought into another form stays in that form. -/
theorem afterTrips_eq_ok_noonOrViews : (Json.obj afternoonOrViews).Plain ∧ ∃ noon : Timestamp,
    noon.date.year = 2020 ∧
    ofJson (.obj afternoonOrViews) = .ok ((condition "Created" .ge (.time noon)).link .or views) ∧
    ∀ n, ((condition "Created" .ge (.time noon)).link .or views).afterTrips (n + 1) =
      .ok ((condition "Created" .ge (.time noon)).link .or views) := by
  have hplain : (Json.obj afternoonOrViews).Plain :=
    ⟨trivial, trivial, trivial,
      ⟨⟨trivial, ⟨trivial, show Number.Double.isFinite _ = true by decide, trivial⟩, trivial⟩,
        trivial⟩, trivial⟩
  obtain ⟨noon, hnoon, hyear⟩ : ∃ t, readTimestamp? "2020-05-01t14:30:00.5+02:00".toList = some t ∧
      t.date.year = 2020 :=
    ⟨⟨⟨2020, 5, 1, by decide, by decide, by decide, by decide⟩, 750, 0, 500000000⟩,
      by decide +kernel, rfl⟩
  have hread : ofJson (.obj afternoonOrViews) =
      .ok ((condition "Created" .ge (.time noon)).link .or views) := by
    have hvalue : valueOfJson afternoonOrViews = .ok (.time noon) := by
      show Literal.ofJson (.str "2020-05-01t14:30:00.5+02:00") = .ok (.time noon)
      rw [Literal.ofJson_str, hnoon]
    have hviews : ofJson (.obj [("p", .str "Views"),
        ("v", .double (Number.Double.ofMagnitude true 1))]) = .ok views := by
      rw [ofJson, linksOfMembers]
      rfl
    have hlinks : linksOfMembers afternoonOrViews = .ok [(.or, views)] := by
      rw [linksOfMembers]
      show linksOfJson [_] = _
      rw [linksOfJson, linkOfJson_obj (c := .or) rfl rfl hviews, linksOfJson]
      rfl
    rw [ofJson, hvalue, hlinks]
    rfl
  refine ⟨hplain, noon, hyear, hread, fun n => ?_⟩
  apply ((afterTrips_eq_ok_iff hplain hread).1 n).2
  intro g hg t ht
  rcases List.mem_pair.1 hg with rfl | rfl
  · cases ht
    rw [hyear]
    decide
  · cases ht

/-- A minute to midnight on the last day of the year 9999, at the largest offset behind UTC. -/
def lastDay : Json :=
  .obj [("p", .str "Created"), ("v", .str "9999-12-31T23:59:59-23:59")]

/-- A date-time whose year has five digits in UTC is read, but it comes back as a text. -/
theorem not_afterTrips_eq_ok_yearTenThousand : lastDay.Plain ∧ ∃ t : Timestamp,
    t.date.year = 10000 ∧ ofJson lastDay = .ok (condition "Created" .eq (.time t)) ∧
    ofJson (condition "Created" .eq (.time t)).toJson =
      .ok (condition "Created" .eq (.text "+10000-01-01T23:58:59Z")) ∧
    ofJson (condition "Created" .eq (.time t)).toJson ≠
      .ok (condition "Created" .eq (.time t)) := by
  obtain ⟨t, ht, hyear, htext⟩ : ∃ t, readTimestamp? "9999-12-31T23:59:59-23:59".toList = some t ∧
      t.date.year = 10000 ∧ t.text = "+10000-01-01T23:58:59Z" :=
    ⟨⟨⟨10000, 1, 1, by decide, by decide, by decide, by decide⟩, 1438, 59, 0⟩,
      by decide +kernel, rfl, by decide +kernel⟩
  have hvalue : valueOfJson [("p", .str "Created"), ("v", .str "9999-12-31T23:59:59-23:59")] =
      .ok (.time t) := by
    show Literal.ofJson (.str "9999-12-31T23:59:59-23:59") = .ok (.time t)
    rw [Literal.ofJson_str, ht]
  have hread : ofJson lastDay = .ok (condition "Created" .eq (.time t)) := by
    rw [lastDay, ofJson, hvalue, linksOfMembers]
    rfl
  have hback : ofJson (condition "Created" .eq (.time t)).toJson =
      .ok (condition "Created" .eq (.text "+10000-01-01T23:58:59Z")) := by
    have hyears : ¬ (0 ≤ t.date.year ∧ t.date.year ≤ 9999) := by
      rw [hyear]
      decide
    rw [ofJson_toJson, condition, reread, Literal.reread, if_neg hyears, htext]
    rfl
  refine ⟨⟨trivial, trivial, trivial⟩, t, hyear, hread, hback, ?_⟩
  rw [hback]
  intro h
  cases h

end Filter

end SearchDialect
