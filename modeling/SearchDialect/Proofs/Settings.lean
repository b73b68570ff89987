import SearchDialect.Proofs.Json.Fields
import SearchDialect.Proofs.Outcome
import SearchDialect.Settings

/-!
# Settings and their texts

A text describes settings if it gives each field what it holds, or nothing where the field has its
default (`Describes`). A text is accepted exactly if it describes settings without a fault
(`accepts_iff`), settings that were accepted are read again from each way in which they can be
written, and settings with a fault are told apart from a text that describes none
(`accepted_settings`).
-/

namespace SearchDialect.Settings

open Json Written

/-! ## Valid settings -/

/-- Settings that a session can work with. -/
structure Valid (s : Settings) : Prop where
  timeout : s.timeout ≠ 0
  suggestions : s.suggestions ≠ 0
  mapping : ∀ m ∈ s.mapping, m.2 ≠ ""

/-- A fault of settings, as it is told. -/
inductive HasFault (s : Settings) : SettingsError → Prop
  | noTimeout (h : s.timeout = 0) : HasFault s .noTimeout
  | noSuggestions (h : s.suggestions = 0) : HasFault s .noSuggestions
  | emptyIndex {name : String} (h : (name, "") ∈ s.mapping) : HasFault s (.emptyIndex name)

theorem validate_cases (s : Settings) :
    (s.validate = .ok () ∧ s.Valid) ∨ ∃ e, s.validate = .error e ∧ s.HasFault e := by
  unfold validate
  split
  · next h => exact .inr ⟨_, rfl, .noTimeout h⟩
  split
  · next h => exact .inr ⟨_, rfl, .noSuggestions h⟩
  next htimeout hsuggestions =>
  split
  · next name index h =>
    have hempty := List.find?_some h
    obtain rfl : index = "" := String.isEmpty_iff.1 hempty
    exact .inr ⟨_, rfl, .emptyIndex (List.mem_of_find?_eq_some h)⟩
  · next h =>
    refine .inl ⟨rfl, htimeout, hsuggestions, fun m hm hempty => ?_⟩
    exact List.find?_eq_none.1 h m hm (String.isEmpty_iff.2 hempty)

theorem HasFault.not_valid {s : Settings} {e : SettingsError} (h : s.HasFault e) : ¬s.Valid := by
  intro hvalid
  cases h with
  | noTimeout h => exact hvalid.timeout h
  | noSuggestions h => exact hvalid.suggestions h
  | emptyIndex h => exact hvalid.mapping _ h rfl

theorem validate_eq_ok_iff {s : Settings} : s.validate = .ok () ↔ s.Valid := by
  rcases s.validate_cases with ⟨hok, hvalid⟩ | ⟨e, herror, hfault⟩
  · exact iff_of_true hok hvalid
  · rw [herror]
    exact iff_of_false nofun hfault.not_valid

theorem exists_validate_error {s : Settings} (h : ¬s.Valid) :
    ∃ e, s.validate = .error e ∧ s.HasFault e :=
  s.validate_cases.resolve_left fun hok => h hok.2

/-! ## Described settings -/

/-- The fields of settings. -/
inductive Field where
  | mapping | timeout | preTag | postTag | suggestions | track
deriving DecidableEq

namespace Field

def all : List Field := [mapping, timeout, preTag, postTag, suggestions, track]

theorem mem_all (field : Field) : field ∈ all := by
  cases field <;> decide

/-- The name of a field in a text. -/
def key : Field → String
  | mapping => "index_mapping"
  | timeout => "request_timeout"
  | preTag => "highlight_pre_tag"
  | postTag => "highlight_post_tag"
  | suggestions => "suggestion_top"
  | track => "track_queries"

/-- Two settings agree in a field. -/
def Same (s t : Settings) : Field → Prop
  | mapping => s.mapping = t.mapping
  | timeout => s.timeout = t.timeout
  | preTag => s.preTag = t.preTag
  | postTag => s.postTag = t.postTag
  | suggestions => s.suggestions = t.suggestions
  | track => s.track = t.track

/-- A written value is what settings hold in a field. -/
def Holds (s : Settings) (w : Written) : Field → Prop
  | mapping => w.IsTextMap s.mapping
  | timeout => w.IsUnsigned s.timeout
  | preTag => w.IsText s.preTag
  | postTag => w.IsText s.postTag
  | suggestions => w.IsUnsigned s.suggestions
  | track => w = .bool s.track

theorem key_mem (field : Field) : field.key ∈ memberNames := by
  cases field <;> decide

end Field

/-- A written value describes settings: what it gives for a field is what they hold there, and
where it gives nothing they have the default. -/
structure Describes (w : Written) (s : Settings) : Prop where
  record : w.IsRecord memberNames
  given (field : Field) (v : Written) : w.Gives memberNames field.key v → field.Holds s v
  absent (field : Field) : (∀ v, ¬w.Gives memberNames field.key v) → field.Same s {}

theorem nodup_memberNames : memberNames.Nodup := by decide

theorem member?_eq_some_iff {α : Type} {name : String} {read? : Written → Option α} {default a : α}
    {members : List (String × Written)} :
    member? name read? default members = some a ↔
      (∀ v, lookup name members = some v → read? v = some a) ∧
        ((∀ v, lookup name members ≠ some v) → a = default) := by
  unfold member?
  cases lookup name members with
  | none =>
    simp only [Option.some_inj]
    exact ⟨fun h => ⟨nofun, fun _ => h.symm⟩, fun h => (h.2 nofun).symm⟩
  | some w =>
    constructor
    · intro h
      refine ⟨fun v hv => ?_, fun hnone => absurd rfl (hnone w)⟩
      rwa [← Option.some.inj hv]
    · exact fun h => h.1 w rfl

/-- A written value is read as the settings that it describes. -/
theorem ofWritten?_eq_some_iff {w : Written} {s : Settings} :
    ofWritten? w = some s ↔ Describes w s := by
  have hfields : ofWritten? w = some s ↔ ∃ members, w.fields? memberNames = some members ∧
      ∀ field : Field, (∀ v, lookup field.key members = some v → field.Holds s v) ∧
        ((∀ v, lookup field.key members ≠ some v) → field.Same s {}) := by
    obtain ⟨mapping, timeout, preTag, postTag, suggestions, track⟩ := s
    simp only [ofWritten?, Option.bind_eq_bind, Option.bind_eq_some_iff, member?_eq_some_iff,
      map?_eq_some_iff, unsigned?_eq_some_iff, text?_eq_some_iff, bool?_eq_some_iff]
    constructor
    · rintro ⟨members, hmembers, _, h₁, _, h₂, _, h₃, _, h₄, _, h₅, _, h₆, hs⟩
      cases hs
      refine ⟨members, hmembers, fun field => ?_⟩
      cases field
      exacts [h₁, h₂, h₃, h₄, h₅, h₆]
    · rintro ⟨members, hmembers, h⟩
      exact ⟨members, hmembers, _, h .mapping, _, h .timeout, _, h .preTag, _, h .postTag, _,
        h .suggestions, _, h .track, rfl⟩
  rw [hfields]
  constructor
  · rintro ⟨members, hmembers, h⟩
    obtain ⟨hrecord, hlookup⟩ := fields?_eq_some nodup_memberNames hmembers
    refine ⟨hrecord, fun field v hv => ?_, fun field hnone => ?_⟩
    · exact (h field).1 v ((hlookup _ field.key_mem v).2 hv)
    · exact (h field).2 fun v hv => hnone v ((hlookup _ field.key_mem v).1 hv)
  · rintro ⟨hrecord, hgiven, habsent⟩
    obtain ⟨members, hmembers⟩ := exists_fields? hrecord
    have hlookup := (fields?_eq_some nodup_memberNames hmembers).2
    refine ⟨members, hmembers, fun field => ⟨fun v hv => ?_, fun hnone => ?_⟩⟩
    · exact hgiven field v ((hlookup _ field.key_mem v).1 hv)
    · exact habsent field fun v hv => hnone v ((hlookup _ field.key_mem v).2 hv)

/-! ## Reading -/

theorem read_of_describes {cs : List Char} {w : Written} {s : Settings}
    (hread : Written.read? cs = some w) (h : Describes w s) :
    read cs = s.validate.map fun _ => s := by
  rw [read, hread, Option.bind_some, ofWritten?_eq_some_iff.2 h]
  show (s.validate >>= fun _ => .ok s) = _
  cases s.validate <;> rfl

/-- A text is accepted if it describes settings without a fault. -/
theorem accepts_iff {cs : List Char} {s : Settings} :
    read cs = .ok s ↔ (∃ w, Written.read? cs = some w ∧ Describes w s) ∧ s.Valid := by
  constructor
  · intro h
    have hsome : ∃ t, (Written.read? cs).bind ofWritten? = some t := by
      rw [read] at h
      split at h
      · cases h
      · next t ht => exact ⟨t, ht⟩
    obtain ⟨t, ht⟩ := hsome
    obtain ⟨w, hw, ht⟩ := Option.bind_eq_some_iff.1 ht
    rw [ofWritten?_eq_some_iff] at ht
    rw [read_of_describes hw ht, map_eq_ok_iff] at h
    obtain ⟨⟨⟩, hvalid, rfl⟩ := h
    exact ⟨⟨w, hw, ht⟩, validate_eq_ok_iff.1 hvalid⟩
  · rintro ⟨⟨w, hw, h⟩, hvalid⟩
    rw [read_of_describes hw h, validate_eq_ok_iff.2 hvalid]
    rfl

/-! ## Writing -/

/-- The JSON value of a field, the entries of the mapping in some order. -/
def Field.value (s : Settings) (entries : List (String × String)) : Field → Json
  | .mapping => .obj (entries.map fun e => (e.1, .str e.2))
  | .timeout => .ofUnsigned s.timeout
  | .preTag => .str s.preTag
  | .postTag => .str s.postTag
  | .suggestions => .ofUnsigned s.suggestions
  | .track => .bool s.track

/-- Settings are written as an object of all fields. Neither the order of the fields nor that of the
mapping is fixed. -/
def WrittenAs (s : Settings) (j : Json) : Prop :=
  ∃ entries members, entries.Perm s.mapping ∧
    members.Perm (Field.all.map fun field => (field.key, field.value s entries)) ∧ j = .obj members

theorem writtenAs_toJson (s : Settings) : s.WrittenAs s.toJson :=
  ⟨s.mapping, _, .refl _, perm_sortMembers nodup_memberNames, rfl⟩

theorem holds_value {s : Settings} (horder : InOrder s.mapping) {entries : List (String × String)}
    (hperm : entries.Perm s.mapping) (field : Field) :
    field.Holds s (written (field.value s entries)) := by
  cases field with
  | mapping => exact isTextMap_written horder hperm
  | timeout => exact isUnsigned_written s.timeout
  | preTag => exact isText_written s.preTag
  | postTag => exact isText_written s.postTag
  | suggestions => exact isUnsigned_written s.suggestions
  | track => rfl

theorem Field.key_injective {field field' : Field} (h : field.key = field'.key) :
    field = field' := by
  have hnodup : (Field.all.map Field.key).Nodup := nodup_memberNames
  exact List.inj_on_of_nodup_map hnodup field.mem_all field'.mem_all h

/-- What settings are written as describes them. -/
theorem WrittenAs.describes {s : Settings} {j : Json} (h : s.WrittenAs j)
    (horder : InOrder s.mapping) : Describes (written j) s := by
  obtain ⟨entries, members, hentries, hmembers, rfl⟩ := h
  have hmem : ∀ (field : Field) (j : Json),
      (field.key, j) ∈ members ↔ j = field.value s entries := by
    intro field j
    rw [hmembers.mem_iff, List.mem_map]
    constructor
    · rintro ⟨field', -, heq⟩
      obtain ⟨hkey, rfl⟩ := Prod.mk.inj heq
      rw [Field.key_injective hkey]
    · rintro rfl
      exact ⟨field, field.mem_all, rfl⟩
  have hnodup : (members.map (·.1)).Nodup := by
    rw [(hmembers.map _).nodup_iff]
    exact nodup_memberNames
  refine ⟨isRecord_written hnodup memberNames, fun field v hv => ?_, fun field hnone => ?_⟩
  · obtain ⟨j, hj, rfl⟩ := gives_written_iff.1 hv
    rw [(hmem field j).1 hj]
    exact holds_value horder hentries field
  · exact absurd (gives_written_iff.2 ⟨_, (hmem field _).2 rfl, rfl⟩) (hnone _)

/-- The mapping of described settings is in order. -/
theorem Describes.inOrder {w : Written} {s : Settings} (h : Describes w s) : InOrder s.mapping := by
  by_cases hgiven : ∃ v, w.Gives memberNames (Field.key .mapping) v
  · obtain ⟨v, hv⟩ := hgiven
    obtain ⟨_, _, _, _, horder, _⟩ := h.given .mapping v hv
    exact horder
  · have hdefault : s.mapping = [] := h.absent .mapping fun v hv => hgiven ⟨v, hv⟩
    rw [hdefault]
    exact inOrder_nil

/-- Accepted settings have no fault, they are what the text describes, and they are read again from
each way in which they can be written. A text that describes settings with a fault is refused with a
fault of theirs. -/
theorem accepted_settings :
    (∀ cs s, read cs = .ok s →
      s.validate = .ok () ∧ s.Valid ∧ (∃ w, Written.read? cs = some w ∧ Describes w s) ∧
        s.WrittenAs s.toJson ∧ ∀ j, s.WrittenAs j → read j.chars = .ok s) ∧
    ∀ cs w s, Written.read? cs = some w → Describes w s → ¬s.Valid →
      ∃ e, read cs = .error e ∧ s.HasFault e := by
  constructor
  · intro cs s h
    obtain ⟨⟨w, hw, hdescribes⟩, hvalid⟩ := accepts_iff.1 h
    refine ⟨validate_eq_ok_iff.2 hvalid, hvalid, ⟨w, hw, hdescribes⟩, s.writtenAs_toJson, ?_⟩
    intro j hj
    exact accepts_iff.2 ⟨⟨_, read?_written j, hj.describes hdescribes.inOrder⟩, hvalid⟩
  · intro cs w s hw hdescribes hinvalid
    obtain ⟨e, herror, hfault⟩ := exists_validate_error hinvalid
    refine ⟨e, ?_, hfault⟩
    rw [read_of_describes hw hdescribes, herror]
    rfl

/-- The longest time, and one of two index names is mapped twice. -/
def patient : Json :=
  .obj [("index_mapping", .obj [("b", .str "x"), ("a", .str "y"), ("b", .str "z")]),
    ("request_timeout", .int 0xffffffffffffffff)]

/-- No time at all. -/
def impatient : Json := .obj [("request_timeout", .int 0)]

theorem accepted_settings_patient :
    let s : Settings := { mapping := [("a", "y"), ("b", "z")], timeout := 0xffffffffffffffff }
    let t : Settings := { timeout := 0 }
    (read patient.chars = .ok s ∧ s.Valid ∧ read s.toJson.chars = .ok s) ∧
      Describes (written impatient) t ∧ ¬t.Valid ∧
        ∃ e, read impatient.chars = .error e ∧ t.HasFault e := by
  intro s t
  have hread : read patient.chars = .ok s := by
    rw [read, read?_written]
    rfl
  obtain ⟨-, hvalid, -, hwritten, hagain⟩ := accepted_settings.1 _ _ hread
  have hdescribes : Describes (written impatient) t := ofWritten?_eq_some_iff.1 rfl
  have hinvalid : ¬t.Valid := fun h => h.timeout rfl
  have hrefused := accepted_settings.2 _ _ _ (read?_written impatient) hdescribes hinvalid
  exact ⟨⟨hread, hvalid, hagain _ hwritten⟩, hdescribes, hinvalid, hrefused⟩

/-- A text may also list the values of the first fields, without the keys: then the key of the
timeout is absent, and the timeout is not the default. -/
theorem timeout_listed_without_key :
    ¬∀ cs s, read cs = .ok s → ∀ w, Written.read? cs = some w → ∀ field : Field,
      (∀ members m, w = .object members → m ∈ members → ¬Spells m.1 field.key) →
        field.Same s {} := by
  intro h
  have hread : read (chars (.arr [.obj [], .int 5])) = .ok { timeout := 5 } := by
    rw [read, read?_written]
    rfl
  have hsame : (5 : UInt64) = 30000 := h _ _ hread _ (read?_written _) .timeout nofun
  exact absurd hsame (by decide)

end SearchDialect.Settings
