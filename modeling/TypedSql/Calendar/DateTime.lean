import TypedSql.Calendar.Date

/-! Dates with a time of day, to the nanosecond. A leap second lengthens the second before it: its
nanoseconds run from one to two billion. -/
namespace TypedSql

/-- A time of day exists when each of its fields is in range. -/
def IsTime (hour minute second nanos : Nat) : Prop :=
  hour < 24 ∧ minute < 60 ∧ second < 60 ∧ nanos < 2000000000

instance (hour minute second nanos : Nat) : Decidable (IsTime hour minute second nanos) :=
  inferInstanceAs (Decidable (_ ∧ _))

structure TimeOfDay where
  hour : Nat
  minute : Nat
  second : Nat
  nanos : Nat
  exists_in_day : IsTime hour minute second nanos
  deriving DecidableEq, Repr

namespace TimeOfDay

def ofFields? (hour minute second nanos : Nat) : Option TimeOfDay :=
  if h : IsTime hour minute second nanos then some ⟨hour, minute, second, nanos, h⟩ else none

def midnight : TimeOfDay := ⟨0, 0, 0, 0, by decide⟩

/-- A nanosecond count of a billion or more belongs to a leap second. -/
def isLeapSecond (t : TimeOfDay) : Bool := 1000000000 ≤ t.nanos

/-- The second as a clock shows it: sixty in a leap second. -/
def shownSecond (t : TimeOfDay) : Nat := t.second + t.nanos / 1000000000

/-- The nanoseconds as a clock shows them. -/
def shownNanos (t : TimeOfDay) : Nat := t.nanos % 1000000000

end TimeOfDay

structure DateTime where
  date : Date
  time : TimeOfDay
  deriving DecidableEq, Repr

namespace DateTime

def atMidnight (date : Date) : DateTime := ⟨date, .midnight⟩

def ofFields? (year : Int) (month day hour minute second nanos : Nat) : Option DateTime := do
  let date ← Date.ofFields? year month day
  let time ← TimeOfDay.ofFields? hour minute second nanos
  some ⟨date, time⟩

/-- The date and time a number of seconds after an epoch day begins; a second before the day or
after it belongs to a neighbour. -/
def ofDaySecond? (day second : Int) (nanos : Nat) : Option DateTime := do
  let date ← Date.ofEpochDay? (day + second / 86400)
  let inDay := (second % 86400).toNat
  let time ← TimeOfDay.ofFields? (inDay / 3600) (inDay / 60 % 60) (inDay % 60) nanos
  some ⟨date, time⟩

def ofTimestamp? (seconds : Int) : Option DateTime := ofDaySecond? 0 seconds 0

/-- The clock of a zone `offset` seconds east, when this is the time in UTC. The nanoseconds stay,
those of a leap second too. -/
def shift? (t : DateTime) (offset : Int) : Option DateTime :=
  ofDaySecond? t.date.toEpochDay
    (t.time.hour * 3600 + t.time.minute * 60 + t.time.second + offset) t.time.nanos

end DateTime

/-- A moment in UTC together with the offset of the zone in which it is told, less than a day
either way. -/
structure ZonedDateTime where
  utc : DateTime
  offset : Int
  offset_lt : -86400 < offset ∧ offset < 86400
  deriving DecidableEq, Repr

namespace ZonedDateTime

def ofFields? (utc : DateTime) (offset : Int) : Option ZonedDateTime :=
  if h : -86400 < offset ∧ offset < 86400 then some ⟨utc, offset, h⟩ else none

def local? (t : ZonedDateTime) : Option DateTime := t.utc.shift? t.offset

end ZonedDateTime

end TypedSql
