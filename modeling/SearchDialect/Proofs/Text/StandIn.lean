import SearchDialect.Proofs.Text.Replace
import SearchDialect.Proofs.Text.Unmistakable

/-!
# Round trip of stand-ins

The reader of stand-ins makes one pass over the text for each kind of token. The texts that come back
are the unmistakable ones, and no others (`takeStandIns_putStandIns_iff`):

    takeStandIns (putStandIns cs) = cs ↔ Unmistakable cs.

The invariant between two passes is that the text is `cs` with the characters of the finished passes
written as themselves and the others as their tokens (`coded`). A pass that strays from it is not
made good by later ones, since these can be undone (`eq_of_foldl_replace`).
-/

namespace SearchDialect.Text

/-! ## One pass -/

/-- A character as it is written when the passes for some characters are done. -/
def coded (done : List Char) (c : Char) : List Char := if c ∈ done then [c] else standInOf c

/-- Every token has an underscore in its middle and nowhere else, and two different ends. -/
theorem shape_of_mem_standIns {p : Char × List Char} (h : p ∈ standIns) :
    ∃ a b, p.2 = [a, '_', b] ∧ a ≠ '_' ∧ b ≠ '_' ∧ a ≠ b := by
  have key : ∀ p ∈ standIns, p.2 = [p.2[0]!, '_', p.2[2]!] ∧ p.2[0]! ≠ '_' ∧ p.2[2]! ≠ '_' ∧
      p.2[0]! ≠ p.2[2]! := by decide
  exact ⟨_, _, key p h⟩

/-- No token holds a character that has one. -/
theorem not_mem_token : ∀ p ∈ standIns, ∀ q ∈ standIns, q.1 ∉ p.2 := by
  decide

theorem standInOf_of_mem_standIns : ∀ p ∈ standIns, standInOf p.1 = p.2 := by
  decide

theorem ne_nil_of_mem_standIns {p : Char × List Char} (h : p ∈ standIns) : p.2 ≠ [] := by
  obtain ⟨a, b, hab, -⟩ := shape_of_mem_standIns h
  rw [hab]
  exact List.cons_ne_nil _ _

/-- A character is written as itself or as its token. -/
theorem standInOf_cases (c : Char) : standInOf c = [c] ∨ (c, standInOf c) ∈ standIns := by
  unfold standInOf
  cases h : standIns.find? (·.1 = c) with
  | none => exact .inl rfl
  | some p =>
    have hc : p.1 = c := by simpa using List.find?_some h
    right
    rw [← hc]
    exact List.mem_of_find?_eq_some h

theorem coded_cases (done : List Char) (c : Char) :
    coded done c = [c] ∨ (c, coded done c) ∈ standIns := by
  unfold coded
  split
  · exact .inl rfl
  · exact standInOf_cases c

theorem exists_coded (done : List Char) (c : Char) : ∃ x w, coded done c = x :: w := by
  rcases coded_cases done c with hc | hc
  · exact ⟨_, _, hc⟩
  · obtain ⟨a, b, hab, -⟩ := shape_of_mem_standIns hc
    exact ⟨_, _, hab⟩

/-- Two characters of the same token are the same. -/
theorem eq_of_mem_standIns {c d : Char} {t : List Char} (hc : (c, t) ∈ standIns)
    (hd : (d, t) ∈ standIns) : c = d := by
  have key : ∀ p ∈ standIns, ∀ q ∈ standIns, p.2 = q.2 → p.1 = q.1 := by decide
  exact key _ hc _ hd rfl

/-- When all passes are done, all characters are written as themselves. -/
theorem flatMap_coded_of_forall {done : List Char} (h : ∀ p ∈ standIns, p.1 ∈ done)
    (cs : List Char) : cs.flatMap (coded done) = cs := by
  have hself : ∀ c, coded done c = [c] := by
    intro c
    rcases standInOf_cases c with hc | hc
    · rw [coded, hc, ite_self]
    · exact if_pos (h _ hc)
  rw [List.flatMap_congr fun c _ => hself c, List.flatMap_singleton']

theorem coded_cons_self (done : List Char) (c : Char) : coded (c :: done) c = [c] :=
  if_pos List.mem_cons_self

theorem coded_cons_of_ne {done : List Char} {c d : Char} (h : c ≠ d) :
    coded (d :: done) c = coded done c := by
  unfold coded
  simp only [List.mem_cons, h, false_or]

/-- A character that is written by its token is not done yet. -/
theorem coded_of_mem_standIns {done : List Char} {c : Char} (hc : (c, coded done c) ∈ standIns) :
    coded done c = standInOf c := by
  apply if_neg
  intro h
  obtain ⟨a, b, hab, -⟩ := shape_of_mem_standIns hc
  simp only [coded, if_pos h] at hab
  cases hab

/-- A written text that starts with an underscore starts with an underscore of the text. -/
theorem eq_underscore_of_flatMap {done cs r : List Char}
    (h : cs.flatMap (coded done) = '_' :: r) :
    ∃ cs', cs = '_' :: cs' ∧ r = cs'.flatMap (coded done) := by
  cases cs with
  | nil => simp at h
  | cons c cs =>
    rw [List.flatMap_cons] at h
    rcases coded_cases done c with hc | hc
    · rw [hc] at h
      simp only [List.cons_append, List.nil_append, List.cons.injEq] at h
      exact ⟨cs, by rw [h.1], h.2.symm⟩
    · obtain ⟨a, b, hab, ha, -⟩ := shape_of_mem_standIns hc
      simp only at hab
      rw [hab] at h
      simp only [List.cons_append, List.cons.injEq] at h
      exact absurd h.1 ha

/-- With an underscore between them, two characters are written so that a token shows up. -/
def LooksLike (done token : List Char) (a b : Char) : Prop :=
  ∃ x ∈ (coded done a).getLast?, ∃ y ∈ (coded done b).head?, token = [x, '_', y]

/-- A text in which no underscore makes a token show up. -/
def Lacks (done token cs : List Char) : Prop :=
  ∀ a b, [a, '_', b] <:+: cs → ¬ LooksLike done token a b

theorem Lacks.tail {done token cs : List Char} {c : Char} (h : Lacks done token (c :: cs)) :
    Lacks done token cs :=
  fun a b hab => h a b (hab.trans (List.suffix_cons c cs).isInfix)

/-- No token starts at the last character that stands for a character of a text that lacks it. -/
theorem afterWord?_last {done cs w : List Char} {c x : Char} {p : Char × List Char}
    (hp : p ∈ standIns) (hlacks : Lacks done p.2 (c :: cs)) (hx : coded done c = w ++ [x]) :
    afterWord? p.2 (x :: cs.flatMap (coded done)) = none := by
  cases hr : afterWord? p.2 (x :: cs.flatMap (coded done)) with
  | none => rfl
  | some r =>
    exfalso
    obtain ⟨a, b, hab, -⟩ := shape_of_mem_standIns hp
    have happ := eq_append_of_afterWord? hr
    rw [hab] at happ
    simp only [List.cons_append, List.nil_append, List.cons.injEq] at happ
    obtain ⟨rfl, hrest⟩ := happ
    -- The underscore of the token is one of the text, and the token ends in the character after it.
    obtain ⟨cs', rfl, hcs'⟩ := eq_underscore_of_flatMap hrest
    cases cs' with
    | nil => simp at hcs'
    | cons d cs' =>
      obtain ⟨y, v, hy⟩ := exists_coded done d
      rw [List.flatMap_cons, hy, List.cons_append] at hcs'
      obtain rfl := (List.cons.inj hcs').1
      refine hlacks c d ⟨[], cs', rfl⟩ ⟨x, ?_, b, ?_, hab⟩
      · rw [hx, List.getLast?_concat]
        rfl
      · rw [hy, List.head?_cons]
        rfl

/-- No token starts where the token of another character stands. -/
theorem afterWord?_token {c : Char} {t rest : List Char} {p : Char × List Char}
    (hc : (c, t) ∈ standIns) (hp : p ∈ standIns) (hcp : c ≠ p.1) :
    afterWord? p.2 (t ++ rest) = none := by
  obtain ⟨a, b, hab, -⟩ := shape_of_mem_standIns hc
  obtain ⟨a', b', hab', -⟩ := shape_of_mem_standIns hp
  simp only at hab
  rw [hab, hab']
  simp only [List.cons_append, List.nil_append, afterWord?]
  split
  · next ha =>
    split
    · next =>
      split
      · next hb =>
        refine absurd (eq_of_mem_standIns hc (d := p.1) ?_) hcp
        rw [hab, ← ha, ← hb, ← hab']
        exact hp
      · rfl
    · rfl
  · rfl

/-- A pass leaves the token of another character as it is. -/
theorem replace_token {done cs : List Char} {c : Char} {p : Char × List Char}
    (hlacks : Lacks done p.2 (c :: cs)) (hc : (c, coded done c) ∈ standIns) (hp : p ∈ standIns)
    (hcp : c ≠ p.1) : replace p.2 [p.1] (coded done c ++ cs.flatMap (coded done)) =
      coded done c ++ replace p.2 [p.1] (cs.flatMap (coded done)) := by
  have hfirst : afterWord? p.2 (coded done c ++ cs.flatMap (coded done)) = none :=
    afterWord?_token hc hp hcp
  obtain ⟨a, b, hab, -⟩ := shape_of_mem_standIns hc
  simp only at hab
  -- The pass looks at each of the three places of the token that is kept.
  have hmiddle : afterWord? p.2 ('_' :: b :: cs.flatMap (coded done)) = none := by
    obtain ⟨a', b', hab', ha', -⟩ := shape_of_mem_standIns hp
    rw [hab', afterWord?, if_neg ha']
  have hlast := afterWord?_last (w := [a, '_']) hp hlacks hab
  rw [hab] at hfirst ⊢
  simp only [List.cons_append, List.nil_append] at hfirst ⊢
  rw [replace_skip hfirst, replace_skip hmiddle, replace_skip hlast]

/-- A pass finds the tokens of its character and nothing else in a text that lacks others. -/
theorem replace_flatMap_coded {done cs : List Char} {p : Char × List Char} (hp : p ∈ standIns)
    (hlacks : Lacks done p.2 cs) :
    replace p.2 [p.1] (cs.flatMap (coded done)) = cs.flatMap (coded (p.1 :: done)) := by
  induction cs with
  | nil => simp [replace]
  | cons c cs ih =>
    have hrest := ih hlacks.tail
    rw [List.flatMap_cons, List.flatMap_cons]
    rcases coded_cases done c with hc | hc
    · -- The character stands for itself already, or it never has a token.
      have hnew : coded (p.1 :: done) c = [c] := by
        by_cases hcp : c = p.1
        · rw [hcp]
          exact coded_cons_self done p.1
        · rw [coded_cons_of_ne hcp, hc]
      have hlast := afterWord?_last (w := []) hp hlacks hc
      rw [hc, hnew, List.cons_append, List.nil_append, replace_skip hlast, hrest]
      rfl
    · by_cases hcp : c = p.1
      · subst hcp
        rw [coded_of_mem_standIns hc, standInOf_of_mem_standIns p hp, coded_cons_self,
          replace_append (ne_nil_of_mem_standIns hp), hrest]
      · rw [coded_cons_of_ne hcp, replace_token hlacks hc hp hcp, hrest]

theorem coded_underscore (done : List Char) : coded done '_' = ['_'] := by
  unfold coded
  split <;> rfl

/-- Characters between which a token shows up are not the one that the token stands for. -/
theorem LooksLike.ne {done : List Char} {a b : Char} {p : Char × List Char} (hp : p ∈ standIns)
    (h : LooksLike done p.2 a b) : a ≠ p.1 ∧ b ≠ p.1 := by
  obtain ⟨x, hx, y, hy, htoken⟩ := h
  obtain ⟨x', y', htoken', -, -, hends⟩ := shape_of_mem_standIns hp
  rw [htoken, List.cons.injEq, List.cons.injEq, List.cons.injEq] at htoken'
  obtain ⟨rfl, -, rfl, -⟩ := htoken'
  have hmem := not_mem_token p hp p hp
  rw [htoken] at hmem
  simp only [List.mem_cons, not_or] at hmem
  -- The character is written as the token or as itself, and neither brings the token's other end.
  have hform : coded done p.1 = [p.1] ∨ coded done p.1 = [x, '_', y] := by
    rcases coded_cases done p.1 with hc | hc
    · exact .inl hc
    · exact .inr (by rw [coded_of_mem_standIns hc, standInOf_of_mem_standIns p hp, htoken])
  constructor
  · rintro rfl
    rcases hform with hc | hc <;> rw [hc] at hx
    · exact hmem.1 (Option.some.inj hx)
    · exact hends (Option.some.inj hx).symm
  · rintro rfl
    rcases hform with hc | hc <;> rw [hc] at hy
    · exact hmem.2.2.1 (Option.some.inj hy)
    · exact hends (Option.some.inj hy)

/-- A pass that finds the tokens of its character and nothing else was made over a text that lacks
others. -/
theorem lacks_of_replace_flatMap_coded {done cs : List Char} {p : Char × List Char}
    (hp : p ∈ standIns)
    (h : replace p.2 [p.1] (cs.flatMap (coded done)) = cs.flatMap (coded (p.1 :: done))) :
    Lacks done p.2 cs := by
  intro a b hin hlooks
  refine not_infix_replace (ne_nil_of_mem_standIns hp) (not_mem_token p hp p hp)
    (cs.flatMap (coded done)) ?_
  obtain ⟨ha, hb⟩ := hlooks.ne hp
  obtain ⟨x, hx, y, hy, htoken⟩ := hlooks
  obtain ⟨v, hv⟩ := List.getLast?_eq_some_iff.1 hx
  obtain ⟨w, hw⟩ := List.head?_eq_some_iff.1 hy
  -- The pass has left what looks like its token.
  have hwritten : [a, '_', b].flatMap (coded (p.1 :: done)) = v ++ p.2 ++ w := by
    simp [coded_cons_of_ne ha, coded_cons_of_ne hb, coded_underscore, hv, hw, htoken]
  rw [h]
  refine List.IsInfix.trans ⟨v, w, rfl⟩ ?_
  rw [← hwritten]
  exact hin.flatMap _

/-! ## All passes -/

/-- A character that has a token is not written as itself before its pass is done. -/
theorem not_mem_coded {done : List Char} {p : Char × List Char} (hp : p ∈ standIns)
    (hdone : p.1 ∉ done) (c : Char) : p.1 ∉ coded done c := by
  intro hmem
  rcases coded_cases done c with hc | hc
  · rw [hc, List.mem_singleton] at hmem
    subst hmem
    obtain ⟨a, b, hab, -⟩ := shape_of_mem_standIns hp
    rw [coded, if_neg hdone, standInOf_of_mem_standIns p hp, hab] at hc
    cases hc
  · exact not_mem_token _ hc p hp hmem

/-- Putting the token back in place of its character undoes a pass on a written character. -/
theorem flatMap_coded {done : List Char} {p : Char × List Char} (hp : p ∈ standIns)
    (hdone : p.1 ∉ done) (c : Char) :
    (coded (p.1 :: done) c).flatMap (fun x => if x = p.1 then p.2 else [x]) = coded done c := by
  by_cases hc : c = p.1
  · subst hc
    rw [coded_cons_self, List.flatMap_singleton, if_pos rfl, coded, if_neg hdone,
      standInOf_of_mem_standIns p hp]
  · rw [coded_cons_of_ne hc]
    have hkeep : ∀ x ∈ coded done c, (if x = p.1 then p.2 else [x]) = [x] := by
      intro x hx
      refine if_neg ?_
      rintro rfl
      exact not_mem_coded hp hdone c hx
    rw [List.flatMap_congr hkeep, List.flatMap_singleton']

/-- Passes for different characters that have tokens, none of which is done. -/
structure Remaining (todo : List (Char × List Char)) (done : List Char) : Prop where
  standIns : ∀ p ∈ todo, p ∈ standIns
  nodup : (todo.map (·.1) ++ done).Nodup

namespace Remaining

variable {todo : List (Char × List Char)} {done : List Char} {p : Char × List Char}

theorem next (h : Remaining (p :: todo) done) : Remaining todo (p.1 :: done) where
  standIns := fun q hq => h.standIns q (List.mem_cons_of_mem p hq)
  nodup := List.perm_middle.nodup_iff.2 h.nodup

theorem tail (h : Remaining (p :: todo) done) : Remaining todo done where
  standIns := h.next.standIns
  nodup := (List.nodup_cons.1 h.nodup).2

theorem not_mem_done (h : Remaining todo done) (hp : p ∈ todo) : p.1 ∉ done := by
  intro hdone
  exact (List.nodup_append.1 h.nodup).2.2 _ (List.mem_map_of_mem hp) _ hdone rfl

/-- The next pass brings no character of the later ones. -/
theorem not_mem_replace (h : Remaining (p :: todo) done) {w : List Char}
    (hw : ∀ q ∈ p :: todo, q.1 ∉ w) : ∀ q ∈ todo, q.1 ∉ replace p.2 [p.1] w := by
  intro q hq hmem
  rcases mem_replace (ne_nil_of_mem_standIns (h.standIns p List.mem_cons_self)) hmem with
    hmem | hmem
  · refine h.next.not_mem_done hq ?_
    rw [List.mem_singleton.1 hmem]
    exact List.mem_cons_self
  · exact hw q (List.mem_cons_of_mem p hq) hmem

end Remaining

/-- If some passes lead to a text written by `coded`, they started from one. -/
theorem eq_of_foldl_replace {cs : List Char} {todo : List (Char × List Char)} :
    ∀ {done w : List Char}, Remaining todo done → (∀ p ∈ todo, p.1 ∉ w) →
      todo.foldl (fun acc p => replace p.2 [p.1] acc) w =
        cs.flatMap (coded ((todo.map (·.1)).reverse ++ done)) →
      w = cs.flatMap (coded done) := by
  induction todo with
  | nil => exact fun _ _ h => h
  | cons p todo ih =>
    intro done w hrem hw h
    have hp := hrem.standIns p List.mem_cons_self
    have hpass : replace p.2 [p.1] w = cs.flatMap (coded (p.1 :: done)) :=
      ih hrem.next (hrem.not_mem_replace hw) (by simpa using h)
    rw [← flatMap_replace (ne_nil_of_mem_standIns hp) (hw p List.mem_cons_self), hpass,
      List.flatMap_assoc]
    exact List.flatMap_congr fun c _ => flatMap_coded hp (hrem.not_mem_done List.mem_cons_self) c

/-- The tokens of some stand-ins, put into a text one kind after the other. -/
theorem foldl_replace_singleton {cs : List Char} {todo : List (Char × List Char)}
    {done : List Char} (hrem : Remaining todo done) :
    todo.foldl (fun acc p => replace [p.1] p.2 acc)
        (cs.flatMap (coded (todo.map (·.1) ++ done))) = cs.flatMap (coded done) := by
  induction todo with
  | nil => rfl
  | cons p todo ih =>
    have hp := hrem.standIns p List.mem_cons_self
    have hfirst : p.1 ∉ todo.map (·.1) ++ done := (List.nodup_cons.1 hrem.nodup).1
    rw [List.foldl_cons, List.map_cons, List.cons_append, replace_singleton, List.flatMap_assoc,
      List.flatMap_congr fun c _ => flatMap_coded hp hfirst c]
    exact ih hrem.tail

/-- Putting the tokens into a text one kind after the other is putting them all at once: no token
holds a character that has one. -/
theorem foldl_replace_eq_putStandIns (cs : List Char) :
    standIns.foldl (fun acc p => replace [p.1] p.2 acc) cs = putStandIns cs := by
  have hrem : Remaining standIns [] := ⟨fun _ hp => hp, by decide⟩
  have h : standIns.foldl (fun acc p => replace [p.1] p.2 acc)
      (cs.flatMap (coded (standIns.map (·.1) ++ []))) = cs.flatMap (coded []) :=
    foldl_replace_singleton hrem
  rwa [flatMap_coded_of_forall (by decide)] at h

/-- Some passes, each with the characters done before it and its token. -/
def passes (done : List Char) : List (Char × List Char) → List (List Char × List Char)
  | [] => []
  | p :: todo => (done, p.2) :: passes (p.1 :: done) todo

/-- Some passes write their characters as themselves exactly if no other tokens show up in any of
them. -/
theorem foldl_replace_iff {cs : List Char} {todo : List (Char × List Char)} :
    ∀ {done : List Char}, Remaining todo done →
      (todo.foldl (fun acc p => replace p.2 [p.1] acc) (cs.flatMap (coded done)) =
          cs.flatMap (coded ((todo.map (·.1)).reverse ++ done)) ↔
        ∀ pass ∈ passes done todo, Lacks pass.1 pass.2 cs) := by
  induction todo with
  | nil => exact fun _ => iff_of_true rfl fun _ h => absurd h List.not_mem_nil
  | cons p todo ih =>
    intro done hrem
    have hp := hrem.standIns p List.mem_cons_self
    have hreverse : ((p :: todo).map (·.1)).reverse ++ done =
        (todo.map (·.1)).reverse ++ p.1 :: done := by simp
    rw [passes, List.forall_mem_cons, ← ih hrem.next, hreverse, List.foldl_cons]
    constructor
    · intro h
      have hfree : ∀ q ∈ p :: todo, q.1 ∉ cs.flatMap (coded done) := by
        intro q hq hmem
        obtain ⟨c, -, hc⟩ := List.mem_flatMap.1 hmem
        exact not_mem_coded (hrem.standIns q hq) (hrem.not_mem_done hq) c hc
      have hpass := eq_of_foldl_replace hrem.next (hrem.not_mem_replace hfree) h
      rw [hpass] at h
      exact ⟨lacks_of_replace_flatMap_coded hp hpass, h⟩
    · rintro ⟨hlacks, h⟩
      rw [replace_flatMap_coded hp hlacks]
      exact h

/-! ## What looks like a token -/

/-- The characters with whose written form a text ends, or starts, as told by `e`. -/
def withEnd (done : List Char) (e : List Char → Option Char) (x : Char) : List Char :=
  x :: (standIns.filter fun p => p.1 ∉ done ∧ e p.2 = some x).map (·.1)

theorem mem_withEnd_iff {done : List Char} {e : List Char → Option Char} {x : Char}
    (he : ∀ c, e [c] = some c) (hx : x ∉ standIns.map (·.1)) (c : Char) :
    c ∈ withEnd done e x ↔ x ∈ e (coded done c) := by
  simp only [withEnd, List.mem_cons, List.mem_map, List.mem_filter, decide_eq_true_eq,
    Option.mem_def]
  constructor
  · rintro (rfl | ⟨p, ⟨hp, hdone, hend⟩, rfl⟩)
    · rcases coded_cases done c with hc | hc
      · rw [hc, he]
      · exact absurd (List.mem_map_of_mem hc) hx
    · rw [coded, if_neg hdone, standInOf_of_mem_standIns p hp, hend]
  · intro h
    rcases coded_cases done c with hc | hc
    · rw [hc, he] at h
      exact .inl (Option.some.inj h)
    · refine .inr ⟨_, ⟨hc, ?_, h⟩, rfl⟩
      intro hdone
      rw [coded, if_pos hdone] at hc
      obtain ⟨a, b, hab, -⟩ := shape_of_mem_standIns hc
      cases hab

theorem lookalikes_eq : lookalikes = (passes [] standIns).map fun pass =>
    (withEnd pass.1 List.getLast? pass.2[0]!, withEnd pass.1 List.head? pass.2[2]!) := by
  decide

theorem unmistakable_iff {cs : List Char} :
    Unmistakable cs ↔ ∀ pass ∈ passes [] standIns, Lacks pass.1 pass.2 cs := by
  have hshape : ∀ pass ∈ passes [] standIns, pass.2 = [pass.2[0]!, '_', pass.2[2]!] ∧
      pass.2[0]! ∉ standIns.map (·.1) ∧ pass.2[2]! ∉ standIns.map (·.1) := by decide
  rw [Unmistakable, lookalikes_eq, List.forall_mem_map]
  refine forall₂_congr fun pass hpass => ?_
  obtain ⟨htoken, hfirst, hlast⟩ := hshape pass hpass
  constructor
  · intro h a b hin ⟨x, hx, y, hy, hxy⟩
    rw [hxy] at h hfirst hlast
    exact h a ((mem_withEnd_iff (fun _ => rfl) hfirst a).2 hx) b
      ((mem_withEnd_iff (fun _ => rfl) hlast b).2 hy) hin
  · intro h a ha b hb hin
    exact h a b hin ⟨_, (mem_withEnd_iff (fun _ => rfl) hfirst a).1 ha, _,
      (mem_withEnd_iff (fun _ => rfl) hlast b).1 hb, htoken⟩

/-- Taking the stand-ins of a text gives back the text exactly if none of its underscores looks like
the middle of a token. -/
theorem takeStandIns_putStandIns_iff {cs : List Char} :
    takeStandIns (putStandIns cs) = cs ↔ Unmistakable cs := by
  have hrem : Remaining standIns [] := ⟨fun _ hp => hp, by decide⟩
  have hput : putStandIns cs = cs.flatMap (coded []) := rfl
  have hall : cs.flatMap (coded ((standIns.map (·.1)).reverse ++ [])) = cs :=
    flatMap_coded_of_forall (by decide) cs
  rw [unmistakable_iff, ← foldl_replace_iff hrem, hall, takeStandIns, hput]

end SearchDialect.Text
