/-! Dates of the proleptic Gregorian calendar, and their count from the first of January 1970. -/
namespace TypedSql

def isLeapYear (year : Int) : Bool := year % 4 == 0 && (year % 100 != 0 || year % 400 == 0)

/-- The number of days in a month, zero for a month that does not exist. -/
def daysInMonth (year : Int) : Nat → Nat
  | 1 | 3 | 5 | 7 | 8 | 10 | 12 => 31
  | 4 | 6 | 9 | 11 => 30
  | 2 => if isLeapYear year then 29 else 28
  | _ => 0

/-- A date exists when its day is one of its month and its year lies in the supported range. -/
def IsDate (year : Int) (month day : Nat) : Prop :=
  -262143 ≤ year ∧ year ≤ 262142 ∧ 1 ≤ day ∧ day ≤ daysInMonth year month

instance (year : Int) (month day : Nat) : Decidable (IsDate year month day) :=
  inferInstanceAs (Decidable (_ ∧ _))

structure Date where
  year : Int
  month : Nat
  day : Nat
  exists_in_calendar : IsDate year month day
  deriving DecidableEq, Repr

namespace Date

def ofFields? (year : Int) (month day : Nat) : Option Date :=
  if h : IsDate year month day then some ⟨year, month, day, h⟩ else none

/-- The number of days from the first of January 1970 to the date. Years are counted from March,
so that the leap day ends one, and in eras of four hundred. -/
def toEpochDay (d : Date) : Int :=
  let year := if d.month ≤ 2 then d.year - 1 else d.year
  let month : Int := if d.month ≤ 2 then d.month + 9 else d.month - 3
  let inEra := year % 400
  let dayOfYear := (153 * month + 2) / 5 + d.day - 1
  year / 400 * 146097 + (inEra * 365 + inEra / 4 - inEra / 100 + dayOfYear) - 719468

/-- The date that lies the given number of days after the first of January 1970. -/
def ofEpochDay? (n : Int) : Option Date :=
  let shifted := n + 719468
  let dayOfEra := shifted % 146097
  let inEra := (dayOfEra - dayOfEra / 1460 + dayOfEra / 36524 - dayOfEra / 146096) / 365
  let dayOfYear := dayOfEra - (365 * inEra + inEra / 4 - inEra / 100)
  let shiftedMonth := (5 * dayOfYear + 2) / 153
  let day := dayOfYear - (153 * shiftedMonth + 2) / 5 + 1
  let month := if shiftedMonth < 10 then shiftedMonth + 3 else shiftedMonth - 9
  let year := shifted / 146097 * 400 + inEra + (if month ≤ 2 then 1 else 0)
  ofFields? year month.toNat day.toNat

end Date

end TypedSql
