import Mathlib.Data.List.Basic
import SearchDialect.Request.QueryString

/-!
# Orderings as an ordered map

The orderings of a request name a property once. They collect what was given to the request: the
properties that were named, in the order in which each was first named, each under the direction
that was named last (`Collects`). Adding one ordering keeps that of everything given so far
(`Collects.insert`), so any run of calls that add orderings, one by one or from texts, leaves what
was given in it (`orderBy_collects`).
-/

namespace SearchDialect

namespace OrderBy

/-! ## One ordering -/

/-- The properties of some orderings, as often as they are named. -/
def properties (os : List OrderBy) : List String := os.map (·.property)

theorem properties_cons (o : OrderBy) (os : List OrderBy) :
    properties (o :: os) = o.property :: properties os := rfl

/-- A property that is named already keeps its place, and another one goes to the end. -/
theorem properties_insert (o : OrderBy) (os : List OrderBy) :
    properties (o.insert os) =
      if o.property ∈ properties os then properties os else properties os ++ [o.property] := by
  induction os with
  | nil => rfl
  | cons p os ih =>
    rw [insert, properties_cons]
    by_cases h : p.property = o.property
    · rw [if_pos h, properties_cons, h, if_pos List.mem_cons_self]
    · rw [if_neg h, properties_cons, ih]
      simp only [List.mem_cons, Ne.symm h, false_or]
      by_cases hold : o.property ∈ properties os
      · rw [if_pos hold, if_pos hold]
      · rw [if_neg hold, if_neg hold, List.cons_append]

/-- An added ordering takes the place of the one of the same property. -/
theorem mem_insert {o p : OrderBy} {os : List OrderBy} (hnodup : (properties os).Nodup) :
    p ∈ o.insert os → p = o ∨ p ∈ os ∧ p.property ≠ o.property := by
  induction os with
  | nil => exact fun h => .inl (List.mem_singleton.1 h)
  | cons q os ih =>
    rw [properties_cons, List.nodup_cons] at hnodup
    obtain ⟨hq, hnodup⟩ := hnodup
    rw [insert]
    by_cases h : q.property = o.property
    · rw [if_pos h, List.mem_cons]
      rintro (rfl | hp)
      · exact .inl rfl
      · refine .inr ⟨List.mem_cons_of_mem q hp, ?_⟩
        intro heq
        exact hq (List.mem_map.2 ⟨p, hp, heq.trans h.symm⟩)
    · rw [if_neg h, List.mem_cons]
      rintro (rfl | hp)
      · exact .inr ⟨List.mem_cons_self, h⟩
      · rcases ih hnodup hp with rfl | ⟨hp, hne⟩
        · exact .inl rfl
        · exact .inr ⟨List.mem_cons_of_mem q hp, hne⟩

/-! ## Many orderings -/

/-- An ordering is the last of its property among some. -/
def IsLast (given : List OrderBy) (o : OrderBy) : Prop :=
  ∃ before after, given = before ++ o :: after ∧ o.property ∉ properties after

/-- Orderings that collect given ones: each property that was named once, in the order in which the
properties were first named, with the direction that was named last. -/
structure Collects (given os : List OrderBy) : Prop where
  named : ∀ p, p ∈ properties os ↔ p ∈ properties given
  firstNamed : (properties os).Pairwise fun p q =>
    (properties given).idxOf p < (properties given).idxOf q
  lastNamed : ∀ o ∈ os, IsLast given o

namespace Collects

variable {given os : List OrderBy}

theorem nil : Collects [] [] := ⟨fun _ => Iff.rfl, List.Pairwise.nil, nofun⟩

/-- A property that is first named before another one is another one. -/
theorem nodup (h : Collects given os) : (properties os).Nodup := by
  apply h.firstNamed.imp
  intro p q hlt heq
  rw [heq] at hlt
  exact Nat.lt_irrefl _ hlt

/-- What was named before stays in its place, and a new property is first named last. -/
theorem insert (h : Collects given os) (o : OrderBy) :
    Collects (given ++ [o]) (o.insert os) := by
  have hgiven : properties (given ++ [o]) = properties given ++ [o.property] := List.map_append
  have hos := properties_insert o os
  -- The place at which a property is first named does not change.
  have hplace : ∀ p ∈ properties os,
      (properties (given ++ [o])).idxOf p = (properties given).idxOf p := by
    intro p hp
    rw [hgiven, List.idxOf_append_of_mem ((h.named p).1 hp)]
  have hfirst : (properties os).Pairwise fun p q =>
      (properties (given ++ [o])).idxOf p < (properties (given ++ [o])).idxOf q := by
    apply h.firstNamed.imp_of_mem
    intro p q hp hq hlt
    rwa [hplace p hp, hplace q hq]
  refine ⟨?_, ?_, ?_⟩
  · intro p
    rw [hgiven, List.mem_append, List.mem_singleton, ← h.named p, hos]
    split
    · next hold => exact ⟨.inl, fun hp => hp.elim id fun heq => heq ▸ hold⟩
    · rw [List.mem_append, List.mem_singleton]
  · rw [hos]
    split
    · exact hfirst
    · next hnew =>
      rw [List.pairwise_append]
      refine ⟨hfirst, List.pairwise_singleton _ _, ?_⟩
      intro p hp q hq
      obtain rfl := List.mem_singleton.1 hq
      have hp' := (h.named p).1 hp
      have hlt := List.idxOf_lt_length_of_mem hp'
      rw [hplace p hp, hgiven, List.idxOf_append_of_notMem (mt (h.named o.property).2 hnew)]
      omega
  · intro p hp
    rcases mem_insert h.nodup hp with rfl | ⟨hp, hne⟩
    · exact ⟨given, [], rfl, List.not_mem_nil⟩
    · obtain ⟨before, after, rfl, hafter⟩ := h.lastNamed p hp
      refine ⟨before, after ++ [o], by simp, ?_⟩
      rw [properties, List.map_append, List.mem_append, not_or]
      exact ⟨hafter, fun hmem => hne (List.mem_singleton.1 hmem)⟩

theorem insertAll (h : Collects given os) (more : List OrderBy) :
    Collects (given ++ more) (insertAll more os) := by
  induction more generalizing given os with
  | nil => rwa [List.append_nil]
  | cons o more ih =>
    have hmore := ih (h.insert o)
    rw [List.append_assoc] at hmore
    exact hmore

end Collects

end OrderBy

namespace Request

open OrderBy

/-- A call that gives a request orderings. -/
inductive OrderCall where
  /-- One ordering. -/
  | one (o : OrderBy)
  /-- The text of some orderings. -/
  | text (cs : List Char)

namespace OrderCall

/-- The orderings that a call gives. -/
def given : OrderCall → List OrderBy
  | one o => [o]
  | text cs => listOfChars cs

/-- The request after a call. -/
def apply (r : Request) : OrderCall → Request
  | one o => r.withOrderBy o
  | text cs => r.readOrderBy cs

theorem orderBy_apply (r : Request) (call : OrderCall) :
    (apply r call).orderBy = insertAll call.given r.orderBy := by
  cases call <;> rfl

end OrderCall

/-- Each call adds to what the orderings of a request collect. -/
theorem collects_calls {given : List OrderBy} {r : Request} (h : Collects given r.orderBy)
    (calls : List OrderCall) :
    Collects (given ++ calls.flatMap OrderCall.given)
      (calls.foldl OrderCall.apply r).orderBy := by
  induction calls generalizing given r with
  | nil => rwa [List.flatMap_nil, List.append_nil]
  | cons call calls ih =>
    have hcall : Collects (given ++ call.given) (OrderCall.apply r call).orderBy := by
      rw [OrderCall.orderBy_apply]
      exact h.insertAll call.given
    rw [List.foldl_cons, List.flatMap_cons, ← List.append_assoc]
    exact ih hcall

/-- A request without orderings that is given some by any calls has each property that was named
once, in the order in which the properties were first named, with the direction named last. -/
theorem orderBy_collects {r : Request} (h : r.orderBy = []) (calls : List OrderCall) :
    (properties (calls.foldl OrderCall.apply r).orderBy).Nodup ∧
      Collects (calls.flatMap OrderCall.given) (calls.foldl OrderCall.apply r).orderBy := by
  have hnil : Collects [] r.orderBy := by
    rw [h]
    exact Collects.nil
  have hcollects := collects_calls hnil calls
  rw [List.nil_append] at hcollects
  exact ⟨hcollects.nodup, hcollects⟩

/-- The price is named three times, twice in one text, and keeps its place. -/
theorem orderBy_collects_priceThrice :
    ({} : Request).orderBy = [] ∧
      let calls : List OrderCall := [.text "Price desc,Name asc,Price asc,sideways".toList,
        .one ⟨"Id", .asc⟩, .text "Price DESC".toList]
      (calls.foldl OrderCall.apply {}).orderBy =
          [⟨"Price", .desc⟩, ⟨"Name", .asc⟩, ⟨"Id", .asc⟩] ∧
        Collects (calls.flatMap OrderCall.given) (calls.foldl OrderCall.apply {}).orderBy :=
  ⟨rfl, by decide, (orderBy_collects rfl _).2⟩

end Request

end SearchDialect
