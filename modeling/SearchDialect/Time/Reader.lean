import SearchDialect.Number.Integer
import SearchDialect.Time.Basic

/-!
# Reading points in time

RFC 3339 date-times: a date, `T` or one blank, a time with any number of digits after the second,
and `Z` or an offset in hours and minutes. Digits beyond the nanosecond are cut off. The reader
works from left to right, each step giving a value and the rest of the text, and tells the first
fault it meets.
-/

namespace SearchDialect.Time

open Number

/-- Why a text is no date-time. -/
inductive Fault where
  | premature
  | invalid
  | outOfRange
  | trailing
deriving DecidableEq, Repr

def Fault.message : Fault → String
  | .premature => "premature end of input"
  | .invalid => "input contains invalid characters"
  | .outOfRange => "input is out of range"
  | .trailing => "trailing input"

/-- Reads exactly `n` digits. -/
def readDigits (n : Nat) (cs : List Char) : Except Fault (Nat × List Char) :=
  let ds := cs.take n
  if ds.length = n ∧ ds.all Char.isDigit then .ok (ofDigits ds, cs.drop n) else .error .invalid

def readChar (p : Char → Bool) : List Char → Except Fault (Unit × List Char)
  | c :: cs => if p c then .ok ((), cs) else .error .invalid
  | [] => .error .invalid

def readDate (cs : List Char) : Except Fault (Date × List Char) := do
  let (year, cs) ← readDigits 4 cs
  let (_, cs) ← readChar (· == '-') cs
  let (month, cs) ← readDigits 2 cs
  let (_, cs) ← readChar (· == '-') cs
  let (day, cs) ← readDigits 2 cs
  match Date.of? year month day with
  | some date => .ok (date, cs)
  | none => .error .outOfRange

/-- Reads the digits after the second, if there are any, in nanoseconds. -/
def readFraction : List Char → Except Fault (Nat × List Char)
  | '.' :: cs =>
    match cs with
    | [] => .error .premature
    | c :: _ =>
      if c.isDigit then
        let ds := cs.takeWhile Char.isDigit
        let kept := ds.take 9
        .ok (ofDigits (kept ++ List.replicate (9 - kept.length) '0'), cs.dropWhile Char.isDigit)
      else .error .invalid
  | cs => .ok (0, cs)

/-- A time of day: minute of the day, second and nanosecond. -/
structure Clock where
  minute : Fin minutesPerDay
  second : Fin 61
  nanosecond : Fin 1000000000

/-- The time of day of some numbers, if they are in range. -/
def Clock.of? (hour minute second nanosecond : Nat) : Option Clock :=
  if h : hour < 24 ∧ minute < 60 ∧ second < 61 ∧ nanosecond < 1000000000 then
    some ⟨⟨hour * 60 + minute, by unfold minutesPerDay; omega⟩, ⟨second, h.2.2.1⟩,
      ⟨nanosecond, h.2.2.2⟩⟩
  else none

/-- Reads hour, minute, second and fraction. The numbers are checked after all are read. -/
def readClock (cs : List Char) : Except Fault (Clock × List Char) := do
  let (hour, cs) ← readDigits 2 cs
  let (_, cs) ← readChar (· == ':') cs
  let (minute, cs) ← readDigits 2 cs
  let (_, cs) ← readChar (· == ':') cs
  let (second, cs) ← readDigits 2 cs
  let (nanosecond, cs) ← readFraction cs
  match Clock.of? hour minute second nanosecond with
  | some clock => .ok (clock, cs)
  | none => .error .outOfRange

/-- Reads two digits of an offset. A text that ends before them is premature. -/
def readTwoDigits : List Char → Except Fault ((Nat × Nat) × List Char)
  | [] => .error .premature
  | [c] => if c.utf8Size < 2 then .error .premature else .error .invalid
  | c :: d :: cs =>
    if c.isDigit ∧ d.isDigit then .ok ((digitValue c, digitValue d), cs) else .error .invalid

/-- Reads hours and minutes of an offset, in minutes. -/
def readOffsetDigits (cs : List Char) : Except Fault (Nat × List Char) := do
  let ((h, h'), cs) ← readTwoDigits cs
  let cs ← match cs with
    | [] => throw .premature
    | c :: cs => if c = ':' then pure cs else throw .invalid
  let ((m, m'), cs) ← readTwoDigits cs
  if 6 ≤ m then throw .outOfRange
  return ((10 * h + h') * 60 + (10 * m + m'), cs)

/-- Reads an offset in minutes. The minus sign may also be the mathematical one. -/
def readOffset : List Char → Except Fault (Int × List Char)
  | [] => .error .premature
  | c :: cs =>
    if c = 'Z' ∨ c = 'z' then .ok (0, cs)
    else if c = '+' then (readOffsetDigits cs).map fun r => ((r.1 : Int), r.2)
    else if c = '-' ∨ c = '\u2212' then (readOffsetDigits cs).map fun r => (-(r.1 : Int), r.2)
    else .error .invalid

/-- The size of a text in UTF-8. -/
def byteCount (cs : List Char) : Nat := cs.foldr (fun c n => c.utf8Size + n) 0

def readTimestamp (cs : List Char) : Except Fault Timestamp := do
  if byteCount cs < 19 then throw .premature
  let (date, cs) ← readDate cs
  let (_, cs) ← readChar (fun c => c == 'T' || c == 't' || c == ' ') cs
  let (clock, cs) ← readClock cs
  let (offset, cs) ← readOffset cs
  if !cs.isEmpty then throw .trailing
  if minutesPerDay ≤ offset.natAbs then throw .outOfRange
  return .ofLocal date clock.minute clock.second clock.nanosecond offset

/-- The point in time that a text denotes, if it is a date-time. -/
def readTimestamp? (cs : List Char) : Option Timestamp := (readTimestamp cs).toOption

end SearchDialect.Time
