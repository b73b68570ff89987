import SearchDialect.Proofs.Number.Digits
import SearchDialect.Proofs.Outcome
import SearchDialect.Time.Printer
import SearchDialect.Time.Reader

/-!
# Round trip of points in time

The text of a point in time of the years 0 to 9999 is read as the point in time, to the nanosecond
and with its leap seconds (`readTimestamp_chars`). A year outside of these is written with a sign,
which no date-time starts with (`readTimestamp?_outside`).
-/

namespace SearchDialect.Time

open Number

/-! ## Steps -/

theorem readDigits_padded {w n : Nat} (hw : 0 < w) (h : n < 10 ^ w) (r : List Char) :
    readDigits w (padded w n ++ r) = .ok (n, r) := by
  have hlen := length_padded hw h
  have htake : (padded w n ++ r).take w = padded w n := List.take_left' hlen
  have hdrop : (padded w n ++ r).drop w = r := List.drop_left' hlen
  unfold readDigits
  simp only [htake, hdrop, ofDigits_padded, (allDigits_padded w n).all, hlen, and_self, if_true]

theorem readChar_cons {p : Char → Bool} {c : Char} (h : p c = true) (r : List Char) :
    readChar p (c :: r) = .ok ((), r) := if_pos h

theorem Date.of?_eq (d : Date) : Date.of? d.year d.month d.day = some d :=
  dif_pos ⟨d.one_le_month, d.month_le, d.one_le_day, d.day_le⟩

/-- A date of the years 0 to 9999 is read back. -/
theorem readDate_text {d : Date} (h : 0 ≤ d.year ∧ d.year ≤ 9999) (r : List Char) :
    readDate (d.text ++ r) = .ok (d, r) := by
  have hyear : ((d.year.toNat : Nat) : Int) = d.year := Int.toNat_of_nonneg h.1
  have hmonth : d.month < 10 ^ 2 := Nat.lt_of_le_of_lt d.month_le (by decide)
  have hday : d.day < 10 ^ 2 := by
    apply Nat.lt_of_le_of_lt d.day_le
    unfold daysIn
    split
    · split <;> decide
    all_goals decide
  have htext : d.text ++ r =
      padded 4 d.year.toNat ++ '-' :: (padded 2 d.month ++ '-' :: (padded 2 d.day ++ r)) := by
    rw [Date.text, yearText, if_pos h]
    simp only [List.append_assoc, List.cons_append]
  rw [htext, readDate, readDigits_padded (by decide) (by omega), ok_bind]
  simp only
  rw [readChar_cons (by decide), ok_bind]
  simp only
  rw [readDigits_padded (by decide) hmonth, ok_bind]
  simp only
  rw [readChar_cons (by decide), ok_bind]
  simp only
  rw [readDigits_padded (by decide) hday, ok_bind]
  simp only
  rw [hyear, Date.of?_eq]

/-- Digits after the second are read in nanoseconds, however few of them are written. -/
theorem readFraction_digits {w n : Nat} (hw : 0 < w ∧ w ≤ 9) (h : n < 10 ^ w) {r : List Char}
    (hr : ∀ c ∈ r.head?, c.isDigit = false) :
    readFraction ('.' :: (padded w n ++ r)) = .ok (10 ^ (9 - w) * n, r) := by
  have hlen := length_padded hw.1 h
  have hspan := spanDigits_append (allDigits_padded w n) hr
  have htake := congrArg Prod.fst hspan
  have hdrop := congrArg Prod.snd hspan
  simp only [spanDigits] at htake hdrop
  cases hp : padded w n with
  | nil =>
    rw [hp] at hlen
    exact absurd hlen (by simp only [List.length_nil]; omega)
  | cons c ds =>
    have hc : c.isDigit = true := allDigits_padded w n c (by rw [hp]; exact List.mem_cons_self)
    have hnine : (c :: ds).take 9 = c :: ds := List.take_of_length_le (by rw [← hp]; omega)
    rw [hp] at htake hdrop hlen
    unfold readFraction
    simp only [List.cons_append] at htake hdrop ⊢
    simp only [hc, if_true, htake, hdrop, hnine, hlen]
    rw [ofDigits_trailing, ← hp, ofDigits_padded]

theorem readFraction_fractionText {n : Nat} (h : n < 1000000000) {r : List Char}
    (hr : ∀ c ∈ r.head?, c.isDigit = false ∧ c ≠ '.') :
    readFraction (Timestamp.fractionText n ++ r) = .ok (n, r) := by
  have hdigit : ∀ c ∈ r.head?, c.isDigit = false := fun c hc => (hr c hc).1
  unfold Timestamp.fractionText
  split
  · next hn =>
    subst hn
    show readFraction r = _
    unfold readFraction
    split
    · exact absurd rfl (hr '.' rfl).2
    · rfl
  split
  · next hn =>
    rw [List.cons_append, readFraction_digits (by decide) (by omega) hdigit]
    show Except.ok (10 ^ 6 * (n / 1000000), r) = _
    rw [show 10 ^ 6 * (n / 1000000) = n by omega]
  split
  · next hn =>
    rw [List.cons_append, readFraction_digits (by decide) (by omega) hdigit]
    show Except.ok (10 ^ 3 * (n / 1000), r) = _
    rw [show 10 ^ 3 * (n / 1000) = n by omega]
  · rw [List.cons_append, readFraction_digits (by decide) (by omega) hdigit]
    show Except.ok (10 ^ 0 * n, r) = _
    rw [Nat.pow_zero, Nat.one_mul]

/-- The time of day of a point in time. -/
def Timestamp.clock (t : Timestamp) : Clock := ⟨t.minute, t.second, t.nanosecond⟩

theorem Clock.of?_eq (t : Timestamp) :
    Clock.of? (t.minute.val / 60) (t.minute.val % 60) t.second.val t.nanosecond.val =
      some t.clock := by
  have hminute : t.minute.val < 1440 := t.minute.isLt
  have hfields : t.minute.val / 60 < 24 ∧ t.minute.val % 60 < 60 ∧ t.second.val < 61 ∧
      t.nanosecond.val < 1000000000 :=
    ⟨by omega, Nat.mod_lt _ (by decide), t.second.isLt, t.nanosecond.isLt⟩
  rw [Clock.of?, dif_pos hfields]
  simp only [Nat.div_add_mod', Timestamp.clock]

theorem readClock_text (t : Timestamp) {r : List Char}
    (hr : ∀ c ∈ r.head?, c.isDigit = false ∧ c ≠ '.') :
    readClock (t.clockText ++ (Timestamp.fractionText t.nanosecond.val ++ r)) =
      .ok (t.clock, r) := by
  have hminute : t.minute.val < 1440 := t.minute.isLt
  have hsecond : t.second.val < 61 := t.second.isLt
  rw [Timestamp.clockText, List.append_assoc, List.cons_append, List.append_assoc, List.cons_append,
    readClock, readDigits_padded (by decide) (by omega), ok_bind]
  simp only
  rw [readChar_cons (by decide), ok_bind]
  simp only
  rw [readDigits_padded (by decide) (by omega), ok_bind]
  simp only
  rw [readChar_cons (by decide), ok_bind]
  simp only
  rw [readDigits_padded (by decide) (by omega), ok_bind]
  simp only
  rw [readFraction_fractionText t.nanosecond.isLt hr, ok_bind]
  simp only
  rw [Clock.of?_eq]

/-- Without an offset the clock shows UTC. -/
theorem ofLocal_zero (t : Timestamp) :
    Timestamp.ofLocal t.date t.minute t.second t.nanosecond 0 = t := by
  have hminute : t.minute.val < minutesPerDay := t.minute.isLt
  have hwrap : Fin.ofNat minutesPerDay (((t.minute.val : Int) - 0) % minutesPerDay).toNat =
      t.minute := by
    apply Fin.ext
    show (((t.minute.val : Int) - 0) % minutesPerDay).toNat % minutesPerDay = t.minute.val
    unfold minutesPerDay at *
    omega
  unfold Timestamp.ofLocal
  simp only [hwrap]
  rw [if_neg (by omega), if_pos (by omega)]

/-! ## Whole texts -/

theorem length_le_byteCount (cs : List Char) : cs.length ≤ byteCount cs := by
  induction cs with
  | nil => exact Nat.le_refl 0
  | cons c cs ih =>
    have hc := c.utf8Size_pos
    show cs.length + 1 ≤ c.utf8Size + byteCount cs
    omega

/-- The text of a point in time of the years 0 to 9999 is read as the point in time. -/
theorem readTimestamp_chars {t : Timestamp} (h : 0 ≤ t.date.year ∧ t.date.year ≤ 9999) :
    readTimestamp t.chars = .ok t := by
  -- Four digits of the year, two of every other field and five signs between them.
  have hlong : ¬byteCount t.chars < 19 := by
    have hlen := length_le_byteCount t.chars
    have hyear := length_padded (w := 4) (n := t.date.year.toNat) (by decide) (by omega)
    have htwo : ∀ n, 2 ≤ (padded 2 n).length := by
      intro n
      simp only [padded, List.length_append, List.length_replicate]
      omega
    have h₁ := htwo t.date.month
    have h₂ := htwo t.date.day
    have h₃ := htwo (t.minute.val / 60)
    have h₄ := htwo (t.minute.val % 60)
    have h₅ := htwo t.second.val
    simp only [Timestamp.chars, Date.text, yearText, if_pos h, Timestamp.clockText,
      List.length_append, List.length_cons] at hlen ⊢
    omega
  have hz : ∀ c ∈ ['Z'].head?, c.isDigit = false ∧ c ≠ '.' := fun c hc => by
    cases hc
    decide
  rw [readTimestamp, if_neg hlong]
  simp only
  rw [Timestamp.chars, readDate_text h, ok_bind]
  simp only
  rw [readChar_cons (by decide), ok_bind]
  simp only
  rw [readClock_text t hz, ok_bind]
  simp only [Timestamp.clock]
  show Except.ok (Timestamp.ofLocal t.date t.minute t.second t.nanosecond 0) = _
  rw [ofLocal_zero]

/-- The text of any other point in time is no date-time. -/
theorem readTimestamp?_outside {t : Timestamp} (h : ¬(0 ≤ t.date.year ∧ t.date.year ≤ 9999)) :
    readTimestamp? t.chars = none := by
  -- Such a year is written with a sign in front.
  have hsign : ∃ c cs, t.chars = c :: cs ∧ c.isDigit = false := by
    rw [Timestamp.chars, Date.text, yearText, if_neg h]
    refine ⟨_, _, rfl, ?_⟩
    split <;> decide
  obtain ⟨c, cs, htext, hc⟩ := hsign
  have hyear : readDigits 4 (c :: cs) = .error .invalid := by
    unfold readDigits
    simp only [List.take_succ_cons, List.all_cons, hc, Bool.false_and, Bool.false_eq_true,
      and_false, if_false]
  unfold readTimestamp? readTimestamp
  rw [htext]
  split
  · rfl
  · simp only
    rw [readDate, hyear]
    rfl

end SearchDialect.Time
