import SearchDialect.Proofs.Request.QueryString

/-!
# The order of parameters

The parameters of a query string may stand in any order, with parameters between them that say
nothing (`readQuery_arranged`). The reader takes one parameter after the other into a request. What a
parameter changes (`Change`) does not depend on the request that it meets, and parameters of
different keys change different fields, so that two of them may change places (`take_comm`). A
reader that fails stays failed, whichever parameter it fails at first.
-/

namespace SearchDialect

open Text

namespace Request

/-! ## What a parameter changes -/

/-- The fields of a request that a parameter changes. -/
structure Change where
  filters? : Option (List Filter) := none
  limit? : Option UInt64 := none
  offset? : Option UInt64 := none
  /-- The orderings to add. -/
  orderBy : List OrderBy := []
  text? : Option String := none

namespace Change

/-- A request after a change. -/
def apply (c : Change) (r : Request) : Request :=
  { r with
    filters := c.filters?.getD r.filters
    limit := c.limit?.getD r.limit
    offset := c.offset?.getD r.offset
    orderBy := OrderBy.insertAll c.orderBy r.orderBy
    text := c.text?.getD r.text }

/-- Two changes of which no field is changed by both. -/
structure Apart (c d : Change) : Prop where
  filters : c.filters? = none ∨ d.filters? = none
  limit : c.limit? = none ∨ d.limit? = none
  offset : c.offset? = none ∨ d.offset? = none
  orderBy : c.orderBy = [] ∨ d.orderBy = []
  text : c.text? = none ∨ d.text? = none

theorem getD_comm {α : Type} {x? y? : Option α} (h : x? = none ∨ y? = none) (a : α) :
    x?.getD (y?.getD a) = y?.getD (x?.getD a) := by
  rcases h with rfl | rfl <;> rfl

theorem insertAll_comm {os ps : List OrderBy} (h : os = [] ∨ ps = []) (into : List OrderBy) :
    OrderBy.insertAll os (OrderBy.insertAll ps into) =
      OrderBy.insertAll ps (OrderBy.insertAll os into) := by
  rcases h with rfl | rfl <;> rfl

/-- Changes of different fields may change places. -/
theorem Apart.apply_comm {c d : Change} (h : c.Apart d) (r : Request) :
    c.apply (d.apply r) = d.apply (c.apply r) := by
  unfold apply
  dsimp only
  rw [getD_comm h.filters, getD_comm h.limit, getD_comm h.offset, insertAll_comm h.orderBy,
    getD_comm h.text]

/-- The change that a parameter asks for. -/
def ofParameter (key value : List Char) : Except FormatError Change :=
  if key = "filters".toList then
    if value.isEmpty then .ok {}
    else (Filter.ofParameter value).map fun fs => { filters? := some fs }
  else if key = "limit".toList then (readCount "limit" value).map fun n => { limit? := some n }
  else if key = "offset".toList then (readCount "offset" value).map fun n => { offset? := some n }
  else if key = "orderBy".toList then
    (urlDecode value).map fun t => { orderBy := OrderBy.listOfChars t }
  else if key = "searchText".toList then
    (urlDecode value).map fun t => { text? := if t.isEmpty then none else some (String.ofList t) }
  else .ok {}

/-- A parameter changes at most the field of its key. -/
theorem ofParameter_owned {key value : List Char} {c : Change}
    (h : ofParameter key value = .ok c) :
    (c.filters? = none ∨ key = "filters".toList) ∧ (c.limit? = none ∨ key = "limit".toList) ∧
      (c.offset? = none ∨ key = "offset".toList) ∧ (c.orderBy = [] ∨ key = "orderBy".toList) ∧
        (c.text? = none ∨ key = "searchText".toList) := by
  unfold ofParameter at h
  split at h
  · next hkey =>
    refine ⟨.inr hkey, ?_⟩
    split at h
    · cases h
      exact ⟨.inl rfl, .inl rfl, .inl rfl, .inl rfl⟩
    · obtain ⟨fs, -, rfl⟩ := map_eq_ok_iff.1 h
      exact ⟨.inl rfl, .inl rfl, .inl rfl, .inl rfl⟩
  split at h
  · next hkey =>
    obtain ⟨n, -, rfl⟩ := map_eq_ok_iff.1 h
    exact ⟨.inl rfl, .inr hkey, .inl rfl, .inl rfl, .inl rfl⟩
  split at h
  · next hkey =>
    obtain ⟨n, -, rfl⟩ := map_eq_ok_iff.1 h
    exact ⟨.inl rfl, .inl rfl, .inr hkey, .inl rfl, .inl rfl⟩
  split at h
  · next hkey =>
    obtain ⟨t, -, rfl⟩ := map_eq_ok_iff.1 h
    exact ⟨.inl rfl, .inl rfl, .inl rfl, .inr hkey, .inl rfl⟩
  split at h
  · next hkey =>
    obtain ⟨t, -, rfl⟩ := map_eq_ok_iff.1 h
    exact ⟨.inl rfl, .inl rfl, .inl rfl, .inl rfl, .inr hkey⟩
  · cases h
    exact ⟨.inl rfl, .inl rfl, .inl rfl, .inl rfl, .inl rfl⟩

/-- Parameters of different keys change different fields. -/
theorem apart_of_ne {key key' value value' : List Char} {c d : Change} (hne : key ≠ key')
    (hc : ofParameter key value = .ok c) (hd : ofParameter key' value' = .ok d) : c.Apart d := by
  have hone {P Q : Prop} {owner : List Char} (hP : P ∨ key = owner) (hQ : Q ∨ key' = owner) :
      P ∨ Q := by
    rcases hP with hP | rfl
    · exact .inl hP
    · exact .inr (hQ.resolve_right (Ne.symm hne))
  obtain ⟨hc₁, hc₂, hc₃, hc₄, hc₅⟩ := ofParameter_owned hc
  obtain ⟨hd₁, hd₂, hd₃, hd₄, hd₅⟩ := ofParameter_owned hd
  exact ⟨hone hc₁ hd₁, hone hc₂ hd₂, hone hc₃ hd₃, hone hc₄ hd₄, hone hc₅ hd₅⟩

end Change

/-- A parameter is taken in by what it changes, whatever the request. -/
theorem readParameter_eq (r : Request) (key value : List Char) :
    r.readParameter key value = (Change.ofParameter key value).map fun c => c.apply r := by
  unfold readParameter Change.ofParameter
  split
  · rw [readFilters]
    split
    · rfl
    · cases Filter.ofParameter value <;> rfl
  split
  · cases readCount "limit" value <;> rfl
  split
  · cases readCount "offset" value <;> rfl
  split
  · cases urlDecode value <;> rfl
  split
  · cases urlDecode value with
    | error fault => rfl
    | ok t =>
      simp only [ok_map]
      split <;> rfl
  · rfl

/-! ## Taking parameters in, in any order -/

/-- The key of a parameter. -/
def keyOf (p : List Char) : List Char := (keyValue p).1

/-- The keys that mean something. -/
def knownKeys : List (List Char) :=
  ["filters".toList, "limit".toList, "offset".toList, "orderBy".toList, "searchText".toList]

/-- Takes a parameter into a request, if there still is one. -/
def take (r? : Option Request) (p : List Char) : Option Request :=
  r?.bind fun r => (r.readParameter (keyValue p).1 (keyValue p).2).toOption

theorem foldl_take_none (ps : List (List Char)) : ps.foldl take none = none := by
  induction ps with
  | nil => rfl
  | cons p ps ih => exact ih

theorem toOption_readParameters (r : Request) (ps : List (List Char)) :
    (readParameters r ps).toOption = ps.foldl take (some r) := by
  induction ps generalizing r with
  | nil => rfl
  | cons p ps ih =>
    show (r.readParameter (keyValue p).1 (keyValue p).2 >>= fun r' =>
      readParameters r' ps).toOption = ps.foldl take (take (some r) p)
    rw [take, Option.bind_some]
    cases r.readParameter (keyValue p).1 (keyValue p).2 with
    | error fault => exact (foldl_take_none ps).symm
    | ok r' => exact ih r'

/-- A parameter of an unknown key changes nothing. -/
theorem take_of_unknown {p : List Char} (h : keyOf p ∉ knownKeys) (r? : Option Request) :
    take r? p = r? := by
  simp only [keyOf, knownKeys, List.mem_cons, List.not_mem_nil, or_false, not_or] at h
  obtain ⟨h₁, h₂, h₃, h₄, h₅⟩ := h
  cases r? with
  | none => rfl
  | some r =>
    rw [take, Option.bind_some, readParameter, if_neg h₁, if_neg h₂, if_neg h₃, if_neg h₄,
      if_neg h₅]
    rfl

/-- Two parameters of different keys may change places. -/
theorem take_comm {p q : List Char} (h : keyOf p ≠ keyOf q) (r? : Option Request) :
    take (take r? p) q = take (take r? q) p := by
  cases r? with
  | none => rfl
  | some r =>
    simp only [take, Option.bind_some, readParameter_eq]
    cases hp : Change.ofParameter (keyValue p).1 (keyValue p).2 with
    | error fault =>
      cases Change.ofParameter (keyValue q).1 (keyValue q).2 <;> rfl
    | ok c =>
      cases hq : Change.ofParameter (keyValue q).1 (keyValue q).2 with
      | error fault => rfl
      | ok d => exact congrArg some ((Change.apart_of_ne (Ne.symm h) hq hp).apply_comm r)

/-- Two parameters that do not have the same known key. -/
def Compatible (p q : List Char) : Prop := keyOf p = keyOf q → keyOf p ∉ knownKeys

instance symmCompatible : Std.Symm Compatible where
  symm _ _ h heq := heq ▸ h heq.symm

/-- Each known key occurs at most once. -/
def OnceEach (ps : List (List Char)) : Prop := ∀ key ∈ knownKeys, (ps.map keyOf).count key ≤ 1

instance decidableOnceEach (ps : List (List Char)) : Decidable (OnceEach ps) :=
  inferInstanceAs (Decidable (∀ key ∈ knownKeys, (ps.map keyOf).count key ≤ 1))

theorem OnceEach.pairwise {ps : List (List Char)} (h : OnceEach ps) : ps.Pairwise Compatible := by
  induction ps with
  | nil => exact .nil
  | cons p ps ih =>
    rw [List.pairwise_cons]
    constructor
    · intro q hq hkey hknown
      have hcount := h (keyOf p) hknown
      rw [List.map_cons, List.count_cons_self] at hcount
      have hmem : keyOf p ∈ ps.map keyOf := by
        rw [hkey]
        exact List.mem_map_of_mem hq
      have hpos := List.count_pos_iff.2 hmem
      omega
    · refine ih fun key hkey => ?_
      exact (List.count_le_count_cons).trans (h key hkey)

/-- Compatible parameters may stand in any order. -/
theorem foldl_take_perm {ps qs : List (List Char)} (h : ps.Perm qs) (hps : ps.Pairwise Compatible)
    (r? : Option Request) : ps.foldl take r? = qs.foldl take r? := by
  refine h.foldl_eq' (fun p hp q hq r? => ?_) r?
  by_cases hkey : keyOf p = keyOf q
  · by_cases heq : p = q
    · rw [heq]
    · have hp' := hps.forall hp hq heq hkey
      have hq' := hkey ▸ hp'
      rw [take_of_unknown hp', take_of_unknown hq', take_of_unknown hp']
  · exact take_comm hkey r?

/-- A parameter that says nothing: it is empty, or its key is unknown. -/
def IsIdle (p : List Char) : Prop := p = [] ∨ keyOf p ∉ knownKeys

instance decidableIsIdle (p : List Char) : Decidable (IsIdle p) :=
  inferInstanceAs (Decidable (_ ∨ _))

theorem IsIdle.unknown {p : List Char} (h : IsIdle p) : keyOf p ∉ knownKeys := by
  rcases h with rfl | h
  · decide
  · exact h

theorem foldl_take_idle {ps : List (List Char)} (h : ∀ p ∈ ps, IsIdle p) (r? : Option Request) :
    ps.foldl take r? = r? := by
  induction ps generalizing r? with
  | nil => rfl
  | cons p ps ih =>
    rw [List.forall_mem_cons] at h
    rw [List.foldl_cons, take_of_unknown h.1.unknown, ih h.2]

/-- Parameters that say nothing may be left out. -/
theorem foldl_take_filter {keep : List Char → Bool} (h : ∀ p, keep p = false → IsIdle p)
    (ps : List (List Char)) (r? : Option Request) :
    (ps.filter keep).foldl take r? = ps.foldl take r? := by
  induction ps generalizing r? with
  | nil => rfl
  | cons p ps ih =>
    cases hp : keep p with
    | true => rw [List.filter_cons_of_pos hp, List.foldl_cons, List.foldl_cons, ih]
    | false =>
      rw [List.filter_cons_of_neg (by rw [hp]; decide), List.foldl_cons,
        take_of_unknown (h p hp).unknown, ih]

/-! ## The whole query string -/

/-- A query string that is made of some parameters: they stand in any order, parameters that say
nothing stand anywhere between them, and marks in front of all. -/
def IsMadeOf (s : String) (ps : List (List Char)) : Prop :=
  ∃ front qs idle, s.toList = front ++ join ['&'] qs ∧ qs.Perm (ps ++ idle) ∧
    (∀ p ∈ idle, IsParameter p ∧ IsIdle p) ∧ ∀ c ∈ front, c = '?' ∨ c = '&'

/-- What is read from a query string depends only on the parameters that it is made of. -/
theorem toOption_readQuery {s : String} {ps : List (List Char)} (hs : IsMadeOf s ps)
    (hps : ∀ p ∈ ps, IsParameter p) (honce : OnceEach ps) :
    (readQuery s).toOption = ps.foldl take (some {}) := by
  obtain ⟨front, qs, idle, hs, hperm, hidle, hfront⟩ := hs
  have hqs : ∀ q ∈ qs, IsParameter q := by
    intro q hq
    rcases List.mem_append.1 (hperm.mem_iff.1 hq) with h | h
    · exact hps q h
    · exact (hidle q h).1
  have hempty : ∀ p : List Char, (!p.isEmpty) = false → IsIdle p := by
    intro p hp
    rw [Bool.not_eq_false', List.isEmpty_iff] at hp
    exact .inl hp
  have hcompatible : (ps ++ idle).Pairwise Compatible := by
    have hrest : ∀ p ∈ idle, ∀ q, Compatible q p := fun p hp q heq =>
      heq ▸ (hidle p hp).2.unknown
    rw [List.pairwise_append]
    refine ⟨honce.pairwise, ?_, fun q _ p hp => hrest p hp q⟩
    exact List.pairwise_of_forall_mem_list fun q _ p hp => hrest p hp q
  calc (readQuery s).toOption
      = (parameters (join ['&'] qs)).foldl take (some {}) := by
        rw [readQuery, hs, ofQueryChars, parameters_marks hfront, toOption_readParameters]
    _ = qs.foldl take (some {}) := by
        rw [parameters_join_eq_filter hqs, foldl_take_filter hempty]
    _ = (ps ++ idle).foldl take (some {}) := (foldl_take_perm hperm.symm hcompatible _).symm
    _ = ps.foldl take (some {}) := by
        rw [List.foldl_append, foldl_take_idle fun p hp => (hidle p hp).2]

/-- Parameters of which none is there twice are read alike in any order, whatever else that says
nothing stands between them: from both texts the same request is read, or none. -/
theorem readQuery_arranged {ps : List (List Char)} {s t : String} (hps : ∀ p ∈ ps, IsParameter p)
    (honce : OnceEach ps) (hs : IsMadeOf s ps) (ht : IsMadeOf t ps) (r : Request) :
    readQuery s = .ok r ↔ readQuery t = .ok r := by
  rw [← toOption_eq_some_iff, ← toOption_eq_some_iff, toOption_readQuery hs hps honce,
    toOption_readQuery ht hps honce]

/-- A few parameters. -/
def fiveRedShoes : List (List Char) :=
  ["limit=5".toList, "searchText=red+shoe".toList, "orderBy=Price+desc".toList]

/-- Marks in front, a parameter that is unknown and empty ones change nothing. -/
theorem readQuery_arranged_marksAndPage :
    (∀ p ∈ fiveRedShoes, IsParameter p) ∧ OnceEach fiveRedShoes ∧
      IsMadeOf "limit=5&searchText=red+shoe&orderBy=Price+desc" fiveRedShoes ∧
      IsMadeOf "?&?orderBy=Price+desc&page=2&&limit=5&searchText=red+shoe&" fiveRedShoes ∧
      (readQuery "limit=5&searchText=red+shoe&orderBy=Price+desc" =
          .ok { limit := 5, text := "red shoe", orderBy := [⟨"Price", .desc⟩] } ↔
        readQuery "?&?orderBy=Price+desc&page=2&&limit=5&searchText=red+shoe&" =
          .ok { limit := 5, text := "red shoe", orderBy := [⟨"Price", .desc⟩] }) := by
  have hps : ∀ p ∈ fiveRedShoes, IsParameter p := by decide
  have honce : OnceEach fiveRedShoes := by decide
  have hs : IsMadeOf "limit=5&searchText=red+shoe&orderBy=Price+desc" fiveRedShoes :=
    ⟨[], fiveRedShoes, [], by decide, by decide, by decide, nofun⟩
  have ht : IsMadeOf "?&?orderBy=Price+desc&page=2&&limit=5&searchText=red+shoe&" fiveRedShoes :=
    ⟨"?&?".toList, ["orderBy=Price+desc".toList, "page=2".toList, [], "limit=5".toList,
        "searchText=red+shoe".toList, []], ["page=2".toList, [], []], by decide, by decide,
      by decide, by simp⟩
  exact ⟨hps, honce, hs, ht, readQuery_arranged hps honce hs ht _⟩

end Request

end SearchDialect
