/-!
# Points in time

A date of the Gregorian calendar, extended to all years, and a point in time to the nanosecond in
UTC. Second 60 of any minute exists: it is a leap second.
-/

namespace SearchDialect.Time

/-- A year with a 29th of February. -/
def isLeapYear (year : Int) : Bool := year % 4 == 0 && (year % 100 != 0 || year % 400 == 0)

def daysIn (year : Int) (month : Nat) : Nat :=
  match month with
  | 2 => if isLeapYear year then 29 else 28
  | 4 | 6 | 9 | 11 => 30
  | _ => 31

theorem daysIn_pos (year : Int) (month : Nat) : 1 ≤ daysIn year month := by
  unfold daysIn
  split <;> try omega
  split <;> omega

/-- A calendar date. -/
structure Date where
  year : Int
  month : Nat
  day : Nat
  one_le_month : 1 ≤ month
  month_le : month ≤ 12
  one_le_day : 1 ≤ day
  day_le : day ≤ daysIn year month
deriving DecidableEq

namespace Date

/-- The date of a year, a month and a day, if there is one. -/
def of? (year : Int) (month day : Nat) : Option Date :=
  if h : 1 ≤ month ∧ month ≤ 12 ∧ 1 ≤ day ∧ day ≤ daysIn year month then
    some ⟨year, month, day, h.1, h.2.1, h.2.2.1, h.2.2.2⟩
  else none

def next (d : Date) : Date :=
  if h : d.day < daysIn d.year d.month then
    ⟨d.year, d.month, d.day + 1, d.one_le_month, d.month_le, Nat.le_add_left _ _, h⟩
  else if h : d.month < 12 then
    ⟨d.year, d.month + 1, 1, Nat.le_add_left _ _, h, Nat.le_refl _, daysIn_pos _ _⟩
  else ⟨d.year + 1, 1, 1, by decide, by decide, Nat.le_refl _, daysIn_pos _ _⟩

def previous (d : Date) : Date :=
  if h : 1 < d.day then
    ⟨d.year, d.month, d.day - 1, d.one_le_month, d.month_le, Nat.le_sub_one_of_lt h,
      Nat.le_trans (Nat.sub_le _ _) d.day_le⟩
  else if h : 1 < d.month then
    ⟨d.year, d.month - 1, daysIn d.year (d.month - 1), Nat.le_sub_one_of_lt h,
      Nat.le_trans (Nat.sub_le _ _) d.month_le, daysIn_pos _ _, Nat.le_refl _⟩
  else ⟨d.year - 1, 12, 31, by decide, by decide, by decide, Nat.le_refl _⟩

end Date

/-- The minutes of a day. -/
abbrev minutesPerDay : Nat := 1440

/-- A point in time in UTC. -/
structure Timestamp where
  date : Date
  /-- The minute of the day. -/
  minute : Fin minutesPerDay
  /-- The second of the minute, 60 for a leap second. -/
  second : Fin 61
  nanosecond : Fin 1000000000
deriving DecidableEq

namespace Timestamp

/-- The point in time at which a clock shows a date and a time, when the clock runs `offset` minutes
ahead of UTC; the offset is less than a day. -/
def ofLocal (date : Date) (minute : Fin minutesPerDay) (second : Fin 61)
    (nanosecond : Fin 1000000000) (offset : Int) : Timestamp :=
  let m : Int := minute.val - offset
  let wrapped : Fin minutesPerDay := Fin.ofNat minutesPerDay (m % minutesPerDay).toNat
  if m < 0 then ⟨date.previous, wrapped, second, nanosecond⟩
  else if m < minutesPerDay then ⟨date, wrapped, second, nanosecond⟩
  else ⟨date.next, wrapped, second, nanosecond⟩

end Timestamp

end SearchDialect.Time
