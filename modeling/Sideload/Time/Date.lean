/-!
Dates of the Gregorian calendar, extended to all years.
-/

namespace Sideload

/-- Whether a year has a twenty-ninth of February. -/
def isLeapYear (y : Int) : Bool := y % 4 = 0 && (y % 100 ≠ 0 || y % 400 = 0)

def daysInMonth (y : Int) (m : Nat) : Nat :=
  if m = 2 then (if isLeapYear y then 29 else 28)
  else if m = 4 ∨ m = 6 ∨ m = 9 ∨ m = 11 then 30
  else 31

/-- The years a date can have. -/
def firstYear : Int := -262143

def lastYear : Int := 262142

/-- Whether the numbers make a date. -/
def isDate (y : Int) (m d : Nat) : Bool :=
  decide (firstYear ≤ y) && decide (y ≤ lastYear) && decide (1 ≤ m) && decide (m ≤ 12) &&
    decide (1 ≤ d) && decide (d ≤ daysInMonth y m)

/-- A calendar date. -/
structure Date where
  year : Int
  month : Nat
  day : Nat
  valid : isDate year month day = true
  deriving DecidableEq

namespace Date

def ofNumbers? (y : Int) (m d : Nat) : Option Date :=
  if h : isDate y m d = true then some ⟨y, m, d, h⟩ else none

@[simp] theorem ofNumbers?_self (d : Date) : ofNumbers? d.year d.month d.day = some d := by
  simp [ofNumbers?, d.valid]

theorem ofNumbers?_eq_some_iff {y : Int} {m d : Nat} {date : Date} :
    ofNumbers? y m d = some date ↔ date.year = y ∧ date.month = m ∧ date.day = d := by
  constructor
  · intro h
    unfold ofNumbers? at h
    split at h
    · cases h; exact ⟨rfl, rfl, rfl⟩
    · cases h
  · rintro ⟨rfl, rfl, rfl⟩
    exact ofNumbers?_self date

/-- The following day, if it is within the years. -/
def next? (d : Date) : Option Date :=
  if d.day < daysInMonth d.year d.month then ofNumbers? d.year d.month (d.day + 1)
  else if d.month < 12 then ofNumbers? d.year (d.month + 1) 1
  else ofNumbers? (d.year + 1) 1 1

/-- The date that many days later, if it is within the years. -/
def later? : (days : Nat) → Date → Option Date
  | 0, d => some d
  | days + 1, d => d.next?.bind (later? days)

/-- The day before, if it is within the years. -/
def previous? (d : Date) : Option Date :=
  if 1 < d.day then ofNumbers? d.year d.month (d.day - 1)
  else if 1 < d.month then ofNumbers? d.year (d.month - 1) (daysInMonth d.year (d.month - 1))
  else ofNumbers? (d.year - 1) 12 31

instance : Inhabited Date := ⟨⟨1970, 1, 1, by decide⟩⟩

end Date

end Sideload
