import Mathlib.Algebra.Group.Nat.Defs
import SearchDialect.Number.Numeral
import SearchDialect.Proofs.Text.Split

/-!
# Digits

The decimal digits of a number and the value of a run of digits. Writing and reading are inverse
(`ofDigits_toDigits`, `readNat?_toDigits`), and the length of the written form tells the size of the
number (`pow_le_of_width`, `lt_pow_width`).
-/

namespace SearchDialect.Number

/-- A run of digits. -/
def AllDigits (cs : List Char) : Prop := ∀ c ∈ cs, c.isDigit = true

theorem AllDigits.append {as bs : List Char} (ha : AllDigits as) (hb : AllDigits bs) :
    AllDigits (as ++ bs) := by
  intro c hc
  rcases List.mem_append.1 hc with h | h
  · exact ha c h
  · exact hb c h

theorem allDigits_replicate (n : Nat) : AllDigits (List.replicate n '0') := by
  intro c hc
  rw [List.eq_of_mem_replicate hc]
  rfl

theorem allDigits_toDigits (n : Nat) : AllDigits (toDigits n) := fun _ hc =>
  Nat.isDigit_of_mem_toDigits (by decide) (by decide) hc

theorem AllDigits.take {cs : List Char} (h : AllDigits cs) (n : Nat) : AllDigits (cs.take n) :=
  fun c hc => h c (List.mem_of_mem_take hc)

theorem AllDigits.drop {cs : List Char} (h : AllDigits cs) (n : Nat) : AllDigits (cs.drop n) :=
  fun c hc => h c (List.mem_of_mem_drop hc)

theorem AllDigits.all {cs : List Char} (h : AllDigits cs) : cs.all Char.isDigit = true :=
  List.all_eq_true.2 h

/-! ## Values -/

theorem ofDigits_append (as bs : List Char) :
    ofDigits (as ++ bs) = 10 ^ bs.length * ofDigits as + ofDigits bs := by
  show Nat.ofDigitChars 10 (as ++ bs) 0 = _
  rw [Nat.ofDigitChars_append, Nat.ofDigitChars_eq_ofDigitChars_zero]
  rfl

theorem ofDigits_replicate (n : Nat) : ofDigits (List.replicate n '0') = 0 := by
  show Nat.ofDigitChars 10 (List.replicate n '0') 0 = 0
  rw [Nat.ofDigitChars_replicate_zero, Nat.mul_zero]

/-- Zeros in front do not count. -/
theorem ofDigits_leading (n : Nat) (ds : List Char) :
    ofDigits (List.replicate n '0' ++ ds) = ofDigits ds := by
  rw [ofDigits_append, ofDigits_replicate, Nat.mul_zero, Nat.zero_add]

/-- Zeros at the end multiply. -/
theorem ofDigits_trailing (ds : List Char) (n : Nat) :
    ofDigits (ds ++ List.replicate n '0') = 10 ^ n * ofDigits ds := by
  rw [ofDigits_append, ofDigits_replicate, Nat.add_zero, List.length_replicate]

theorem digitValue_lt {c : Char} (h : c.isDigit = true) : digitValue c < 10 := by
  simp only [Char.isDigit, Bool.and_eq_true, decide_eq_true_eq] at h
  have hle : c.toNat ≤ 57 := h.2
  unfold digitValue
  omega

/-- A run of digits is smaller than the power of ten of its length. -/
theorem ofDigits_lt {ds : List Char} (h : AllDigits ds) : ofDigits ds < 10 ^ ds.length := by
  induction ds with
  | nil => exact Nat.one_pos
  | cons c ds ih =>
    have hc : digitValue c < 10 := digitValue_lt (h c List.mem_cons_self)
    have hds := ih fun d hd => h d (List.mem_cons_of_mem _ hd)
    have happ : ofDigits (c :: ds) = 10 ^ ds.length * digitValue c + ofDigits ds := by
      rw [← List.singleton_append, ofDigits_append]
      simp [ofDigits]
    calc ofDigits (c :: ds)
        = 10 ^ ds.length * digitValue c + ofDigits ds := happ
      _ < 10 ^ ds.length * digitValue c + 10 ^ ds.length := Nat.add_lt_add_left hds _
      _ = 10 ^ ds.length * (digitValue c + 1) := by rw [Nat.mul_add, Nat.mul_one]
      _ ≤ 10 ^ ds.length * 10 := Nat.mul_le_mul_left _ (by omega)
      _ = 10 ^ (c :: ds).length := by rw [List.length_cons, Nat.pow_succ]

/-- Reading back the digits of a number gives the number. -/
@[simp] theorem ofDigits_toDigits (n : Nat) : ofDigits (toDigits n) = n :=
  Nat.ofDigitChars_ten_toDigits

theorem readNat?_of_allDigits {cs : List Char} (hne : cs ≠ []) (h : AllDigits cs) :
    readNat? cs = some (ofDigits cs) := by
  unfold readNat?
  rw [h.all, List.isEmpty_eq_false_iff.2 hne]
  rfl

theorem toDigits_ne_nil (n : Nat) : toDigits n ≠ [] := Nat.toDigits_ne_nil

theorem readNat?_toDigits (n : Nat) : readNat? (toDigits n) = some n := by
  rw [readNat?_of_allDigits (toDigits_ne_nil n) (allDigits_toDigits n), ofDigits_toDigits]

/-- The digits of a number start with no sign. -/
theorem readUInt64?_of_allDigits {cs : List Char} (h : AllDigits cs) :
    readUInt64? cs = (readNat? cs).bind fun n => uint64? n := by
  unfold readUInt64?
  split
  · next ds => cases h '+' List.mem_cons_self
  · rfl

/-- Reading back an unsigned 64-bit integer. -/
theorem readUInt64?_toDigits (n : UInt64) : readUInt64? (toDigits n.toNat) = some n := by
  have hn := n.toNat_lt
  rw [readUInt64?_of_allDigits (allDigits_toDigits _), readNat?_toDigits, Option.bind_some, uint64?,
    if_pos (by omega), Int.toNat_natCast, UInt64.ofNat_toNat]

/-- An integer is read back from its digits and its sign. -/
theorem readInt?_intDigits (i : Int) : readInt? (intDigits i) = some i := by
  unfold intDigits
  split
  · next hneg =>
    rw [readInt?, readNat?_toDigits]
    show some (-(i.natAbs : Int)) = some i
    rw [Option.some.injEq]
    omega
  · next hneg =>
    have hdigits := allDigits_toDigits i.natAbs
    have hnat : (readNat? (toDigits i.natAbs)).map Int.ofNat = some i := by
      rw [readNat?_toDigits, Option.map_some, Option.some.injEq, Int.ofNat_eq_natCast]
      omega
    unfold readInt?
    split
    -- A run of digits starts with no sign.
    · next heq =>
      rw [heq] at hdigits
      cases hdigits '+' List.mem_cons_self
    · next heq =>
      rw [heq] at hdigits
      cases hdigits '-' List.mem_cons_self
    · exact hnat

theorem int64?_toInt (i : Int64) : int64? i.toInt = some i := by
  rw [int64?, if_pos ⟨i.le_toInt, i.toInt_lt⟩, Int64.ofInt_toInt]

/-- Reading back a 64-bit integer. -/
theorem readInt64?_intDigits (i : Int64) : readInt64? (intDigits i.toInt) = some i := by
  rw [readInt64?, readInt?_intDigits, Option.bind_some, int64?_toInt]

/-! ## Widths -/

theorem width_pos (n : Nat) : 0 < (toDigits n).length := Nat.length_toDigits_pos

theorem lt_pow_width (n : Nat) : n < 10 ^ (toDigits n).length :=
  (Nat.length_toDigits_le_iff (by decide) (width_pos n)).1 (Nat.le_refl _)

theorem pow_le_of_width {n : Nat} (h : n ≠ 0) : 10 ^ ((toDigits n).length - 1) ≤ n := by
  by_cases hw : (toDigits n).length = 1
  · rw [hw]
    exact Nat.one_le_iff_ne_zero.2 h
  · have hpos := width_pos n
    apply Nat.le_of_not_lt
    intro hlt
    have := (Nat.length_toDigits_le_iff (k := (toDigits n).length - 1) (by decide) (by omega)).2 hlt
    unfold toDigits at *
    omega

/-- One more digit for ten times the number. -/
theorem width_mul_ten {n : Nat} (h : n ≠ 0) :
    (toDigits (10 * n)).length = (toDigits n).length + 1 := by
  have hlo := Nat.toDigits_append_toDigits (b := 10) (n := n) (d := 0) (by decide) (by omega)
    (by decide)
  show (Nat.toDigits 10 (10 * n)).length = (Nat.toDigits 10 n).length + 1
  rw [Nat.add_zero] at hlo
  rw [← hlo, List.length_append]
  rfl

/-- No number but zero starts with a zero. -/
theorem head_toDigits {n : Nat} (h : n ≠ 0) : ∀ ds, toDigits n ≠ '0' :: ds := by
  intro ds hds
  have hlo := pow_le_of_width h
  have hval : ofDigits ('0' :: ds) = n := by rw [← hds, ofDigits_toDigits]
  have hlead : ofDigits ('0' :: ds) = ofDigits ds := ofDigits_leading 1 ds
  -- Without the zero the digits would be too few for the number.
  have hlt : ofDigits ds < 10 ^ ds.length := by
    refine ofDigits_lt fun c hc => allDigits_toDigits n c ?_
    rw [hds]
    exact List.mem_cons_of_mem _ hc
  rw [hds, List.length_cons, Nat.add_sub_cancel] at hlo
  omega

/-! ## Padding -/

theorem allDigits_padded (w n : Nat) : AllDigits (padded w n) :=
  (allDigits_replicate _).append (allDigits_toDigits n)

@[simp] theorem ofDigits_padded (w n : Nat) : ofDigits (padded w n) = n := by
  rw [padded, ofDigits_leading, ofDigits_toDigits]

theorem length_padded {w n : Nat} (hw : 0 < w) (h : n < 10 ^ w) : (padded w n).length = w := by
  have hle : (toDigits n).length ≤ w := (Nat.length_toDigits_le_iff (by decide) hw).2 h
  rw [padded, List.length_append, List.length_replicate, Nat.sub_add_cancel hle]

/-! ## Runs at the front of a text -/

/-- A run of digits ends where something else follows. -/
theorem spanDigits_append {ds r : List Char} (h : AllDigits ds)
    (hr : ∀ c ∈ r.head?, c.isDigit = false) : spanDigits (ds ++ r) = (ds, r) := by
  obtain ⟨htake, hdrop⟩ := Text.takeWhile_run h hr
  rw [spanDigits, htake, hdrop]

end SearchDialect.Number
