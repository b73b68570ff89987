import SearchDialect.Proofs.Filter.Parameter
import SearchDialect.Proofs.Filter.Stable
import SearchDialect.Proofs.Request.OrderBy
import SearchDialect.Request.QueryString

/-!
# Round trip of requests through query strings

A request with overrides is written as a query string and read back. What comes back is its text,
limit, offset, orderings and filters with the overrides in place (`Request.effective`), on top of a
default request, exactly if the doubles of the filters are read back from their numerals
(`readQuery_writeQuery_iff`). The values are spliced into one text, so none of them may hold an
ampersand: they are digits or URL encodings.
-/

namespace SearchDialect

open Text Number

namespace Request

/-! ## Splicing -/

/-- A parameter of a key and a value. -/
def parameter (key value : List Char) : List Char := key ++ '=' :: value

theorem keyValue_parameter {key : List Char} (h : '=' ∉ key) (value : List Char) :
    keyValue (parameter key value) = (key, value) := by
  rw [keyValue, parameter, splitFirst?_append h]
  rfl

/-- A text that stands in a query string as one parameter, wherever it is put. -/
def IsParameter (p : List Char) : Prop := '&' ∉ p ∧ p.head? ≠ some '?'

instance decidableIsParameter (p : List Char) : Decidable (IsParameter p) :=
  inferInstanceAs (Decidable (_ ∧ _))

/-- The marks in front of a query string are passed over. -/
theorem parameters_marks {front : List Char} (hfront : ∀ c ∈ front, c = '?' ∨ c = '&')
    (cs : List Char) : parameters (front ++ cs) = parameters cs := by
  have hmark : ∀ c ∈ front, (c == '?' || c == '&') = true := by
    intro c hc
    rw [Bool.or_eq_true, beq_iff_eq, beq_iff_eq]
    exact hfront c hc
  rw [parameters, parameters, List.dropWhile_append_of_pos hmark]

/-- Joined parameters are found again, apart from the empty ones. -/
theorem parameters_join_eq_filter {ps : List (List Char)} (hps : ∀ p ∈ ps, IsParameter p) :
    parameters (join ['&'] ps) = ps.filter (!·.isEmpty) := by
  induction ps with
  | nil => rfl
  | cons p ps ih =>
    cases p with
    | nil =>
      -- An empty parameter in front leaves an ampersand, or nothing at all.
      cases ps with
      | nil => rfl
      | cons q ps =>
        have hjoin : join ['&'] ([] :: q :: ps) = ['&'] ++ join ['&'] (q :: ps) := rfl
        rw [hjoin, parameters_marks (List.forall_mem_singleton.2 (.inr rfl)),
          ih fun r hr => hps r (List.mem_cons_of_mem _ hr)]
        rfl
    | cons c p =>
      have hdrop (cs : List Char) :
          (c :: cs).dropWhile (fun c => c == '?' || c == '&') = c :: cs := by
        obtain ⟨hamp, hmark⟩ := hps (c :: p) List.mem_cons_self
        rw [List.mem_cons, not_or] at hamp
        rw [List.head?_cons, ne_eq, Option.some.injEq] at hmark
        exact List.dropWhile_cons_of_neg (by simp [hmark, Ne.symm hamp.1])
      have hhead : ∃ cs, join ['&'] ((c :: p) :: ps) = c :: cs := by
        cases ps <;> exact ⟨_, rfl⟩
      obtain ⟨cs, hcs⟩ := hhead
      rw [parameters, hcs, hdrop, ← hcs,
        split_join (List.cons_ne_nil _ _) fun q hq => (hps q hq).1]

theorem isParameter_parameter {key value : List Char} (hkey : IsParameter key)
    (hvalue : '&' ∉ value) : IsParameter (parameter key value) := by
  constructor
  · rw [parameter, List.mem_append, List.mem_cons, not_or, not_or]
    exact ⟨hkey.1, by decide, hvalue⟩
  · rw [parameter, List.head?_append, List.head?_cons]
    cases key with
    | nil => decide
    | cons c key => exact hkey.2

theorem not_mem_urlEncode (cs : List Char) : '&' ∉ urlEncode cs := fun h =>
  absurd (isUrlChar_of_mem_urlEncode h) (by decide)

theorem not_mem_toDigits (n : Nat) : '&' ∉ toDigits n := fun h =>
  absurd (allDigits_toDigits n '&' h) (by decide)

/-- The parameters of a request. -/
def written (r : Request) : List (List Char) :=
  [parameter "filters".toList (Filter.toParameter r.filters),
    parameter "limit".toList (toDigits r.limit.toNat),
    parameter "offset".toList (toDigits r.offset.toNat),
    parameter "orderBy".toList (urlEncode (OrderBy.listChars r.orderBy)),
    parameter "searchText".toList (urlEncode r.text.toList)]

theorem parameters_queryChars (r : Request) : parameters (queryChars r) = written r := by
  have htext : queryChars r = ['&'] ++ join ['&'] (written r) := by
    have hkey : "&filters=".toList = '&' :: ("filters".toList ++ ['=']) ∧
        "&limit=".toList = '&' :: ("limit".toList ++ ['=']) ∧
        "&offset=".toList = '&' :: ("offset".toList ++ ['=']) ∧
        "&orderBy=".toList = '&' :: ("orderBy".toList ++ ['=']) ∧
        "&searchText=".toList = '&' :: ("searchText".toList ++ ['=']) := by decide
    obtain ⟨h₁, h₂, h₃, h₄, h₅⟩ := hkey
    unfold queryChars written
    simp only [join, parameter, h₁, h₂, h₃, h₄, h₅, List.append_assoc, List.cons_append,
      List.nil_append]
  -- Values are digits or URL encodings, so no ampersand splits one of them.
  have hwritten : ∀ p ∈ written r, IsParameter p := by
    simp only [written, List.forall_mem_cons]
    exact ⟨isParameter_parameter (by decide) (not_mem_urlEncode _),
      isParameter_parameter (by decide) (not_mem_toDigits _),
      isParameter_parameter (by decide) (not_mem_toDigits _),
      isParameter_parameter (by decide) (not_mem_urlEncode _),
      isParameter_parameter (by decide) (not_mem_urlEncode _),
      fun _ h => absurd h List.not_mem_nil⟩
  rw [htext, parameters_marks (List.forall_mem_singleton.2 (.inr rfl)),
    parameters_join_eq_filter hwritten]
  rfl

/-! ## Taking parameters in -/

theorem readParameters_cons (r : Request) {key : List Char} (h : '=' ∉ key) (value : List Char)
    (ps : List (List Char)) : readParameters r (parameter key value :: ps) =
      r.readParameter key value >>= fun r => readParameters r ps := by
  rw [readParameters, keyValue_parameter h]

theorem readParameter_filters (r : Request) (fs : List Filter) :
    r.readParameter "filters".toList (Filter.toParameter fs) =
      (Filter.ofParameter (Filter.toParameter fs)).map fun gs => { r with filters := gs } := by
  have hne : (Filter.toParameter fs).isEmpty = false :=
    List.isEmpty_eq_false_iff.2 (Filter.toParameter_ne_nil fs)
  rw [readParameter, if_pos rfl, readFilters, hne, if_neg (by decide)]

theorem readCount_toDigits (name : String) (n : UInt64) :
    readCount name (toDigits n.toNat) = .ok n := by
  rw [readCount, readUInt64?_toDigits]

theorem readParameter_limit (r : Request) (n : UInt64) :
    r.readParameter "limit".toList (toDigits n.toNat) = .ok { r with limit := n } := by
  rw [readParameter, if_neg (by decide), if_pos rfl, readCount_toDigits, ok_map]

theorem readParameter_offset (r : Request) (n : UInt64) :
    r.readParameter "offset".toList (toDigits n.toNat) = .ok { r with offset := n } := by
  rw [readParameter, if_neg (by decide), if_neg (by decide), if_pos rfl, readCount_toDigits, ok_map]

theorem readParameter_orderBy {r : Request} (hr : r.orderBy = []) {os : List OrderBy}
    (hos : ∀ o ∈ os, o.Writable) (hne : os.Pairwise fun p q => p.property ≠ q.property) :
    r.readParameter "orderBy".toList (urlEncode (OrderBy.listChars os)) =
      .ok { r with orderBy := os } := by
  rw [readParameter, if_neg (by decide), if_neg (by decide), if_neg (by decide), if_pos rfl,
    urlDecode_urlEncode, ok_map, readOrderBy, OrderBy.listOfChars_listChars hos, withOrderings, hr,
    OrderBy.insertAll_nil hne]

theorem readParameter_text (r : Request) {s : String} (h : s ≠ "") :
    r.readParameter "searchText".toList (urlEncode s.toList) = .ok { r with text := s } := by
  have hne : s.toList.isEmpty = false := by
    rw [List.isEmpty_eq_false_iff, ne_eq, String.toList_eq_nil_iff]
    exact h
  rw [readParameter, if_neg (by decide), if_neg (by decide), if_neg (by decide), if_neg (by decide),
    if_pos rfl, urlDecode_urlEncode, ok_map, hne, if_neg (by decide), String.ofList_toList]

/-! ## The whole request -/

/-- What of a request with overrides is written: everything else is left at its default. -/
def effective (r : Request) (o : Overrides) : Request where
  text := o.text?.getD r.text
  limit := o.limit?.getD r.limit
  offset := o.offset?.getD r.offset
  orderBy := o.orderBy?.getD r.orderBy
  filters := Filter.carried r.filters o.add? o.removeTag?

/-- A request that a query string can hold, if its doubles are read back from their numerals. -/
structure Writable (r : Request) : Prop where
  text : r.text ≠ ""
  orderBy : ∀ o ∈ r.orderBy, o.Writable
  distinct : r.orderBy.Pairwise fun p q => p.property ≠ q.property
  separated : ∀ f ∈ r.filters, f.IsSeparated
  height : ∀ f ∈ r.filters, f.height ≤ 41
  stable : ∀ f ∈ r.filters, f.IsStable

/-- The query string of a request that it can hold is read as what of the request is written, with the
filters that are read. -/
theorem ofQueryChars_queryChars {r : Request} (h : r.Writable) : ofQueryChars (queryChars r) =
    (Filter.ofParameter (Filter.toParameter r.filters)).map fun fs =>
      { text := r.text, limit := r.limit, offset := r.offset, orderBy := r.orderBy,
        filters := fs } := by
  rw [ofQueryChars, parameters_queryChars, written]
  rw [readParameters_cons _ (by decide), readParameter_filters]
  cases Filter.ofParameter (Filter.toParameter r.filters) with
  | error e => rfl
  | ok fs =>
    rw [ok_map, ok_bind]
    rw [readParameters_cons _ (by decide), readParameter_limit, ok_bind]
    rw [readParameters_cons _ (by decide), readParameter_offset, ok_bind]
    rw [readParameters_cons _ (by decide), readParameter_orderBy rfl h.orderBy h.distinct, ok_bind]
    rw [readParameters_cons _ (by decide), readParameter_text _ h.text, ok_bind]
    rfl

/-- The query string of a request with overrides is read as the request with the overrides in place,
with the filters that are read. -/
theorem readQuery_writeQuery {r : Request} {o : Overrides} (h : (effective r o).Writable) :
    readQuery (writeQuery r o) =
      (Filter.ofParameter (Filter.toParameter (effective r o).filters)).map fun fs =>
        { effective r o with filters := fs } := by
  -- The two differ only in fields that no parameter is written from.
  have hsame : queryChars (r.override o) = queryChars (effective r o) := by
    have hfilters : (r.override o).filters = (effective r o).filters :=
      Filter.revise_eq_carried r.filters o.add? o.removeTag?
    unfold queryChars
    rw [hfilters]
    rfl
  rw [readQuery, writeQuery, String.toList_ofList, hsame, ofQueryChars_queryChars h]
  rfl

/-- The filters of a request come back as themselves exactly if their doubles are read back from their
numerals. -/
theorem ofParameter_toParameter_filters_iff {r : Request} (h : r.Writable) :
    Filter.ofParameter (Filter.toParameter r.filters) = .ok r.filters ↔
      ∀ f ∈ r.filters, f.Survives := by
  have hback : r.filters.mapM Filter.rereadText? = some r.filters ↔
      ∀ f ∈ r.filters, f.Survives := by
    rw [Filter.mapM_rereadText?_eq_self_iff]
    exact forall₂_congr fun f hf => and_iff_right (h.stable f hf)
  rw [← hback, Filter.ofParameter_toParameter h.separated, Filter.listOfText_listToText,
    if_pos h.height]
  cases r.filters.mapM Filter.rereadText? <;> simp

/-- The query string of a request with overrides is read as the request with the overrides in place
exactly if the doubles of its filters are read back from their numerals. -/
theorem readQuery_writeQuery_iff (r : Request) (o : Overrides) (h : (effective r o).Writable) :
    readQuery (writeQuery r o) = .ok (effective r o) ↔
      ∀ f ∈ (effective r o).filters, f.Survives := by
  rw [readQuery_writeQuery h, ← ofParameter_toParameter_filters_iff h, map_eq_ok_iff]
  constructor
  · rintro ⟨fs, hfs, hsame⟩
    rw [hfs, ← hsame]
  · exact fun hfs => ⟨_, hfs, rfl⟩

/-- A request with a filter to be taken out. -/
def cheapAndRed : Request where
  text := "red"
  offset := 7
  highlight := ["Name"]
  filters := [.node "Price" .lt (.int 3) (some "old") false [],
    .node "Color" .eq (.text "a_b") none true [(.or, .condition "Color" .eq .null)],
    .priceFrom (.ofDecimal false 95 (-1))]

/-- Another text and other orderings, a filter less and a filter more. -/
def withoutPrice : Overrides where
  text? := some "x&y = z?"
  orderBy? := some [⟨"Price", .desc⟩, ⟨"Name", .asc⟩]
  add? := some (.condition "Name" .ne (.text "=&"))
  removeTag? := some "old"

/-- What is not overridden is kept, but what is highlighted is not written. -/
theorem readQuery_writeQuery_withoutPrice : (effective cheapAndRed withoutPrice).Writable ∧
    readQuery (writeQuery cheapAndRed withoutPrice) =
      .ok { text := "x&y = z?", limit := 50, offset := 7,
            orderBy := [⟨"Price", .desc⟩, ⟨"Name", .asc⟩], filters := [
              .node "Color" .eq (.text "a_b") none true [(.or, .condition "Color" .eq .null)],
              .priceFrom (.ofDecimal false 95 (-1)), .condition "Name" .ne (.text "=&")] } := by
  have hwritable : (effective cheapAndRed withoutPrice).Writable :=
    ⟨by decide, by decide, by decide, by decide, by decide, by decide +kernel⟩
  have hsurvives : ∀ f ∈ (effective cheapAndRed withoutPrice).filters, f.Survives := by
    decide +kernel
  exact ⟨hwritable, (readQuery_writeQuery_iff _ _ hwritable).2 hsurvives⟩

/-- A request for what is at least at a price. -/
def priceFrom (d : Double) : Request where
  filters := [.priceFrom d]

/-- The request is written and read without a fault, but the price comes back as another one. -/
theorem not_readQuery_writeQuery_uneven : (effective (priceFrom Json.uneven) {}).Writable ∧
    readQuery (writeQuery (priceFrom Json.uneven) {}) =
      .ok (priceFrom (.ofDecimal false 5124817837550541 (-14))) ∧
    priceFrom (.ofDecimal false 5124817837550541 (-14)) ≠ effective (priceFrom Json.uneven) {} := by
  have hwritable : (effective (priceFrom Json.uneven) {}).Writable :=
    ⟨by decide, by decide, by decide, by decide, by decide, by decide +kernel⟩
  have hfilters : (effective (priceFrom Json.uneven) {}).filters = [.priceFrom Json.uneven] :=
    Filter.carried_none _
  refine ⟨hwritable, ?_, fun h => ?_⟩
  · rw [readQuery_writeQuery hwritable, hfilters, Filter.ofParameter_toParameter_uneven]
    rfl
  · have hsame := (congrArg filters h).trans hfilters
    injection hsame with hfilter
    injection hfilter with _ _ hvalue
    injection hvalue with hprice
    exact Json.reparsedDouble?_uneven.2 hprice.symm

end Request

end SearchDialect
