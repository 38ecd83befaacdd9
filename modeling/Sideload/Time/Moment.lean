import Sideload.Time.Date

/-!
Moments of universal time, and how they are written.

A moment is a date, a second of that day, and nanoseconds. A leap second is written as second 60; it is
kept as second 59 of its minute with nanoseconds from one to two thousand million.
-/

namespace Sideload

/-- Whether a second and nanoseconds are a time of day. -/
def isTimeOfDay (second nanos : Nat) : Bool :=
  decide (second < 86400) && decide (nanos < 2000000000) &&
    (decide (nanos < 1000000000) || second % 60 == 59)

/-- A moment of universal time. -/
structure Moment where
  date : Date
  second : Nat
  nanos : Nat
  valid : isTimeOfDay second nanos = true
  deriving DecidableEq

namespace Moment

instance : Inhabited Moment := ⟨⟨default, 0, 0, by decide⟩⟩

def ofParts? (date : Date) (second nanos : Nat) : Option Moment :=
  if h : isTimeOfDay second nanos = true then some ⟨date, second, nanos, h⟩ else none

@[simp] theorem ofParts?_self (m : Moment) : ofParts? m.date m.second m.nanos = some m := by
  simp [ofParts?, m.valid]

def hour (m : Moment) : Nat := m.second / 3600

def minute (m : Moment) : Nat := m.second / 60 % 60

/-- The second of the minute as shown: 60 in a leap second. -/
def shownSecond (m : Moment) : Nat := m.second % 60 + m.nanos / 1000000000

def fraction (m : Moment) : Nat := m.nanos % 1000000000

/-- The universal time of a clock that runs `offset` seconds ahead of it and shows these parts. -/
def ofLocal? (date : Date) (second nanos : Nat) (offset : Int) : Option Moment :=
  let t := (second : Int) - offset
  let day? := if t < 0 then date.previous? else if t < 86400 then some date else date.next?
  day?.bind fun day => ofParts? day (t % 86400).toNat nanos

/-- The moment that many seconds and nanoseconds after the beginning of 1970. -/
def ofEpoch? (seconds nanos : Nat) : Option Moment := do
  let first ← Date.ofNumbers? 1970 1 1
  ofParts? (← Date.later? (seconds / 86400) first) (seconds % 86400) nanos

/-! ### Written forms -/

/-- `n` in decimal, with zeros in front up to `width` digits. -/
def padded (width n : Nat) : List Char :=
  let digits := Nat.toDigits 10 n
  List.replicate (width - digits.length) '0' ++ digits

/-- Four digits; a year that needs more, or comes before year 0, has a sign and at least four digits. -/
def yearText (y : Int) : List Char :=
  if 0 ≤ y ∧ y ≤ 9999 then padded 4 y.toNat
  else (if y < 0 then '-' else '+') :: padded 4 y.natAbs

/-- The shortest of no, three, six or nine digits that is exact. -/
def fractionText (n : Nat) : List Char :=
  if n = 0 then []
  else if n % 1000000 = 0 then '.' :: padded 3 (n / 1000000)
  else if n % 1000 = 0 then '.' :: padded 6 (n / 1000)
  else '.' :: padded 9 n

def dateText (m : Moment) : List Char :=
  yearText m.date.year ++ '-' :: padded 2 m.date.month ++ '-' :: padded 2 m.date.day

def clockText (m : Moment) : List Char :=
  padded 2 m.hour ++ ':' :: padded 2 m.minute ++ ':' :: padded 2 m.shownSecond

/-- The form of the registry: `2024-05-01T10:00:00.500Z`. -/
def text (m : Moment) : List Char :=
  m.dateText ++ 'T' :: m.clockText ++ fractionText m.fraction ++ ['Z']

/-- The form of tables: `2024-05-01 10:00:00 UTC`. -/
def tableText (m : Moment) : List Char :=
  m.dateText ++ ' ' :: m.clockText ++ " UTC".toList

end Moment

end Sideload
