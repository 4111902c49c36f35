import TypedSql.Numeric.MachineInt
import TypedSql.Text.Blank
import TypedSql.Calendar.DateTime

/-! Dates with times as text. The stored form has slashes and whole seconds; the display form has
dashes and as many of three, six or nine fraction digits as it needs. The reader takes the stored
form, and the display form with any fraction.

Writer and reader stand for those of the calendar library, with the formats `%Y/%m/%d %H:%M:%S` and
`%Y-%m-%d %H:%M:%S%.f`, and follow what it documents. A year below zero or above 9999 has a
sign, and a year may be read with one; months, days, hours, minutes and seconds are padded to two
digits and read from one or two, behind any blanks; a blank in a format stands for any number of
blanks. Second sixty is how a leap second is written and read. A fraction is written with as few of
0, 3, 6 or 9 digits as hold it, and of a longer one nine digits are read. -/
namespace TypedSql.DateTime

open Numeric Text

-- Powers of numbers are those of the core library.
attribute [local instance (high)] instPowNat

/-- A year of four digits, or with a sign and at least four digits when it is negative or has
more. -/
def yearText (year : Int) : List Char :=
  if 0 ≤ year ∧ year ≤ 9999 then paddedDigits 4 year.natAbs
  else (if year < 0 then '-' else '+') :: paddedDigits 4 year.natAbs

def timeText (t : TimeOfDay) : List Char :=
  paddedDigits 2 t.hour ++ ':' :: paddedDigits 2 t.minute ++ ':' :: paddedDigits 2 t.shownSecond

def dateText (separator : Char) (d : Date) : List Char :=
  yearText d.year ++ separator :: paddedDigits 2 d.month ++ separator :: paddedDigits 2 d.day

/-- The stored form, `yyyy/MM/dd HH:mm:ss`. -/
def storedChars (t : DateTime) : List Char := dateText '/' t.date ++ ' ' :: timeText t.time

def storedText (t : DateTime) : String := String.ofList t.storedChars

/-- The fraction of a second, in thousandths where that is exact, else in millionths, else in
full. -/
def fractionText (nanos : Nat) : List Char :=
  if nanos = 0 then []
  else if nanos % 1000000 = 0 then '.' :: paddedDigits 3 (nanos / 1000000)
  else if nanos % 1000 = 0 then '.' :: paddedDigits 6 (nanos / 1000)
  else '.' :: paddedDigits 9 nanos

def displayChars (t : DateTime) : List Char :=
  dateText '-' t.date ++ ' ' :: timeText t.time ++ fractionText t.time.shownNanos

def displayText (t : DateTime) : String := String.ofList t.displayChars

/-- Reads a number of one digit up to `width`, behind any blanks. -/
def number? (width : Nat) (cs : List Char) : Option (Nat × List Char) :=
  let body := cs.dropWhile isBlank
  let run := (body.takeWhile Char.isDigit).take width
  if run = [] then none else some (digitsValue run, body.drop run.length)

def run? (cs : List Char) : Option (Nat × List Char) :=
  let run := cs.takeWhile Char.isDigit
  if run = [] then none else some (digitsValue run, cs.dropWhile Char.isDigit)

/-- Reads a year behind any blanks: up to four digits, or any number of them after a sign. -/
def year? (cs : List Char) : Option (Int × List Char) :=
  match cs.dropWhile isBlank with
  | '-' :: rest => (run? rest).map fun (n, tail) => (-(n : Int), tail)
  | '+' :: rest => (run? rest).map fun (n, tail) => ((n : Int), tail)
  | _ => (number? 4 cs).map fun (n, tail) => ((n : Int), tail)

def expect? (c : Char) : List Char → Option (List Char)
  | [] => none
  | d :: rest => if d = c then some rest else none

/-- Reads a fraction of a second, if a point is next: its first nine digits count. -/
def fraction? : List Char → Option (Nat × List Char)
  | '.' :: rest =>
    let run := rest.takeWhile Char.isDigit
    if run = [] then none
    else
      let kept := run.take 9
      some (digitsValue kept * 10 ^ (9 - kept.length), rest.dropWhile Char.isDigit)
  | cs => some (0, cs)

/-- Reads a date and a time with blanks, or nothing, between them. Second sixty is a leap second;
nothing may follow. -/
def readForm? (separator : Char) (fraction : List Char → Option (Nat × List Char))
    (cs : List Char) : Option DateTime := do
  let (year, cs) ← year? cs
  let cs ← expect? separator cs
  let (month, cs) ← number? 2 cs
  let cs ← expect? separator cs
  let (day, cs) ← number? 2 cs
  let (hour, cs) ← number? 2 (cs.dropWhile isBlank)
  let cs ← expect? ':' cs
  let (minute, cs) ← number? 2 cs
  let cs ← expect? ':' cs
  let (second, cs) ← number? 2 cs
  let (nanos, cs) ← fraction cs
  if cs = [] then
    if second = 60 then ofFields? year month day hour minute 59 (1000000000 + nanos)
    else ofFields? year month day hour minute second nanos
  else none

def readStored? (cs : List Char) : Option DateTime := readForm? '/' (fun rest => some (0, rest)) cs

def readDisplayed? (cs : List Char) : Option DateTime := readForm? '-' fraction? cs

def read? (cs : List Char) : Option DateTime :=
  match readStored? cs with
  | some t => some t
  | none => readDisplayed? cs

end TypedSql.DateTime
