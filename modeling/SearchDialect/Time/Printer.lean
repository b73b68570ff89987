import SearchDialect.Number.Integer
import SearchDialect.Time.Basic

/-!
# Writing points in time

Two written forms, both in UTC with a final `Z`: `text` has as many digits after the second as the
value needs, in steps of three, and `milliseconds` always has three.
-/

namespace SearchDialect.Time

open Number

/-- A year in four digits; outside 0 to 9999 with its sign. -/
def yearText (year : Int) : List Char :=
  if 0 ≤ year ∧ year ≤ 9999 then padded 4 year.toNat
  else (if year < 0 then '-' else '+') :: padded 4 year.natAbs

def Date.text (d : Date) : List Char :=
  yearText d.year ++ '-' :: (padded 2 d.month ++ '-' :: padded 2 d.day)

namespace Timestamp

def clockText (t : Timestamp) : List Char :=
  padded 2 (t.minute.val / 60) ++ ':' :: (padded 2 (t.minute.val % 60) ++
    ':' :: padded 2 t.second.val)

/-- The digits after the second: none, three, six or nine, the fewest that hold the value. -/
def fractionText (nanosecond : Nat) : List Char :=
  if nanosecond = 0 then []
  else if nanosecond % 1000000 = 0 then '.' :: padded 3 (nanosecond / 1000000)
  else if nanosecond % 1000 = 0 then '.' :: padded 6 (nanosecond / 1000)
  else '.' :: padded 9 nanosecond

def chars (t : Timestamp) : List Char :=
  t.date.text ++ 'T' :: (t.clockText ++ (fractionText t.nanosecond.val ++ ['Z']))

def text (t : Timestamp) : String := String.ofList t.chars

/-- The text of a point in time, cut to milliseconds. -/
def milliseconds (t : Timestamp) : String :=
  String.ofList <|
    t.date.text ++ 'T' :: (t.clockText ++ '.' :: (padded 3 (t.nanosecond.val / 1000000) ++ ['Z']))

end Timestamp

end SearchDialect.Time
