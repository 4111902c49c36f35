import TypedSql.Cell.Read
import TypedSql.Table.Column
import TypedSql.Value.Literal
import TypedSql.Value.Stored
import TypedSql.Proofs.Numeric.Digits
import TypedSql.Proofs.Text.Pieces
import TypedSql.Proofs.Text.Quoted

/-! A date with a time is read back from both of its texts: from the stored one to the second, from
that of a default in full. Behind the year, which both forms read alike, the separator tells one from
the other. Only a leap second inside a minute does not come back, since a clock shows it as the second
that follows. -/
namespace TypedSql

open Numeric Text

-- Powers of numbers are those of the core library.
attribute [local instance (high)] instPowNat

namespace Date

variable (d : Date)

theorem daysInMonth_le (year : Int) (month : Nat) : daysInMonth year month ≤ 31 := by
  unfold daysInMonth
  repeat' split
  all_goals decide

theorem month_lt : d.month < 100 := by
  obtain ⟨-, -, first, last⟩ := d.exists_in_calendar
  by_contra beyond
  have none : daysInMonth d.year d.month = 0 := by
    unfold daysInMonth
    split <;> omega
  omega

theorem day_lt : d.day < 100 := by
  obtain ⟨-, -, -, last⟩ := d.exists_in_calendar
  have most := daysInMonth_le d.year d.month
  omega

end Date

namespace TimeOfDay

variable (t : TimeOfDay)

/-- The time that a clock shows: a leap second inside a minute is shown as the second after it. -/
def asShown : TimeOfDay :=
  if h : t.shownSecond < 60 then
    ⟨t.hour, t.minute, t.shownSecond, t.shownNanos, t.exists_in_day.1, t.exists_in_day.2.1, h,
      Nat.lt_trans (Nat.mod_lt _ (by decide)) (by decide)⟩
  else t

/-- The beginning of the second, where a leap second is one of its own. -/
def withoutFraction : TimeOfDay :=
  ⟨t.hour, t.minute, t.second, t.nanos / 1000000000 * 1000000000, t.exists_in_day.1,
    t.exists_in_day.2.1, t.exists_in_day.2.2.1,
    Nat.lt_of_le_of_lt (Nat.div_mul_le_self _ _) t.exists_in_day.2.2.2⟩

theorem shownSecond_withoutFraction : t.withoutFraction.shownSecond = t.shownSecond :=
  congrArg (t.second + ·) (Nat.mul_div_cancel _ (by decide))

theorem shownSecond_le : t.shownSecond ≤ 60 := by
  obtain ⟨-, -, second, nanos⟩ := t.exists_in_day
  unfold shownSecond
  omega

/-- The time is told as what it is: a leap second, if it is one, as second sixty. -/
def ShowsLeapSecond : Prop := t.isLeapSecond = true → t.shownSecond = 60

theorem showsLeapSecond_withoutFraction_iff :
    t.withoutFraction.ShowsLeapSecond ↔ t.ShowsLeapSecond := by
  have leap : t.withoutFraction.isLeapSecond = true ↔ t.isLeapSecond = true := by
    have nanos : t.withoutFraction.nanos = t.nanos / 1000000000 * 1000000000 := rfl
    rw [isLeapSecond, isLeapSecond, decide_eq_true_eq, decide_eq_true_eq, nanos]
    omega
  rw [ShowsLeapSecond, ShowsLeapSecond, shownSecond_withoutFraction, leap]

theorem asShown_eq_self_iff : t.asShown = t ↔ t.ShowsLeapSecond := by
  unfold asShown ShowsLeapSecond
  split
  case isFalse late =>
    have last : t.shownSecond = 60 := Nat.le_antisymm t.shownSecond_le (Nat.le_of_not_lt late)
    exact iff_of_true rfl fun _ => last
  case isTrue early =>
    obtain ⟨hour, minute, second, nanos, valid⟩ := t
    simp only [shownSecond, shownNanos, isLeapSecond, mk.injEq, decide_eq_true_eq, true_and]
      at early ⊢
    constructor
    · rintro ⟨same, -⟩ leap
      omega
    · intro only
      have ordinary : ¬1000000000 ≤ nanos := fun leap => Nat.ne_of_lt early (only leap)
      omega

end TimeOfDay

namespace DateTime

def asShown (t : DateTime) : DateTime := ⟨t.date, t.time.asShown⟩

def withoutFraction (t : DateTime) : DateTime := ⟨t.date, t.time.withoutFraction⟩

section Numbers

variable {rest : List Char} {width n : Nat}

theorem isDigit_head?_nil : ∀ c ∈ ([] : List Char).head?, c.isDigit = false := nofun

theorem isDigit_head?_cons {c : Char} (other : c.isDigit = false) (rest : List Char) :
    ∀ x ∈ (c :: rest).head?, x.isDigit = false := fun _ first => Option.some.inj first ▸ other

theorem dropWhile_isBlank_paddedDigits :
    (paddedDigits width n ++ rest).dropWhile isBlank = paddedDigits width n ++ rest := by
  obtain ⟨c, cs, written, digit⟩ := exists_paddedDigits_eq_cons width n
  rw [written]
  exact List.dropWhile_cons_of_neg (by rw [isBlank_of_isDigit digit]; nofun)

variable (stop : ∀ c ∈ rest.head?, c.isDigit = false)

include stop in
theorem takeWhile_paddedDigits :
    (paddedDigits width n ++ rest).takeWhile Char.isDigit = paddedDigits width n :=
  takeWhile_append_eq (fun _ member => isDigit_of_mem_paddedDigits member) stop

include stop in
theorem dropWhile_paddedDigits :
    (paddedDigits width n ++ rest).dropWhile Char.isDigit = rest :=
  dropWhile_append_eq (fun _ member => isDigit_of_mem_paddedDigits member) stop

include stop in
/-- A number that fits is read from its padded digits, whatever ends them. -/
theorem number?_append (pos : 0 < width) (fits : n < 10 ^ width) :
    number? width (paddedDigits width n ++ rest) = some (n, rest) := by
  have whole : (paddedDigits width n).take width = paddedDigits width n :=
    List.take_of_length_le (Nat.le_of_eq (length_paddedDigits pos fits))
  rw [number?, dropWhile_isBlank_paddedDigits, takeWhile_paddedDigits stop, whole,
    if_neg (paddedDigits_ne_nil _ _), digitsValue_paddedDigits, List.drop_left]

include stop in
theorem run?_append : run? (paddedDigits width n ++ rest) = some (n, rest) := by
  rw [run?, takeWhile_paddedDigits stop, dropWhile_paddedDigits stop, if_neg (paddedDigits_ne_nil _ _),
    digitsValue_paddedDigits]

theorem year?_of_isDigit {c : Char} {cs : List Char} (digit : c.isDigit = true) :
    year? (c :: cs) = (number? 4 (c :: cs)).map fun (n, tail) => ((n : Int), tail) := by
  have kept : (c :: cs).dropWhile isBlank = c :: cs :=
    List.dropWhile_cons_of_neg (by rw [isBlank_of_isDigit digit]; nofun)
  unfold year?
  rw [kept]
  split
  case h_1 same =>
    cases same
    exact absurd digit (by decide)
  case h_2 same =>
    cases same
    exact absurd digit (by decide)
  case h_3 => rfl

include stop in
/-- A year is read from its text, with or without a sign. -/
theorem year?_append (year : Int) : year? (yearText year ++ rest) = some (year, rest) := by
  unfold yearText
  split
  case isTrue short =>
    have value : (year.natAbs : Int) = year := Int.natAbs_of_nonneg short.1
    obtain ⟨c, cs, written, digit⟩ := exists_paddedDigits_eq_cons 4 year.natAbs
    rw [written, List.cons_append, year?_of_isDigit digit, ← List.cons_append, ← written,
      number?_append stop (by decide) (by omega)]
    exact congrArg (fun n => some (n, rest)) value
  case isFalse =>
    split
    case isTrue negative =>
      have value : -(year.natAbs : Int) = year := by omega
      have read : year? ('-' :: paddedDigits 4 year.natAbs ++ rest) =
          (run? (paddedDigits 4 year.natAbs ++ rest)).map fun (n, tail) => (-(n : Int), tail) := rfl
      rw [read, run?_append stop]
      exact congrArg (fun n => some (n, rest)) value
    case isFalse nonneg =>
      have value : (year.natAbs : Int) = year := by omega
      have read : year? ('+' :: paddedDigits 4 year.natAbs ++ rest) =
          (run? (paddedDigits 4 year.natAbs ++ rest)).map fun (n, tail) => ((n : Int), tail) := rfl
      rw [read, run?_append stop]
      exact congrArg (fun n => some (n, rest)) value

/-- The digits of a fraction count from the first on. -/
theorem fraction?_paddedDigits (pos : 0 < width) (most : width ≤ 9) (fits : n < 10 ^ width) :
    fraction? ('.' :: paddedDigits width n) = some (n * 10 ^ (9 - width), []) := by
  have length := length_paddedDigits pos fits
  have run : (paddedDigits width n).takeWhile Char.isDigit = paddedDigits width n := by
    simpa using takeWhile_paddedDigits isDigit_head?_nil
  have behind : (paddedDigits width n).dropWhile Char.isDigit = [] := by
    simpa using dropWhile_paddedDigits isDigit_head?_nil
  have kept : (paddedDigits width n).take 9 = paddedDigits width n :=
    List.take_of_length_le (Nat.le_trans (Nat.le_of_eq length) most)
  rw [fraction?, run, behind]
  dsimp only
  rw [if_neg (paddedDigits_ne_nil _ _), kept, digitsValue_paddedDigits, length]

/-- A fraction is nothing, or a point and the digits that are left of nine without the last zeros. -/
theorem fractionText_cases (lt : n < 1000000000) :
    n = 0 ∧ fractionText n = [] ∨
      ∃ width m, 0 < width ∧ width ≤ 9 ∧ m < 10 ^ width ∧ m * 10 ^ (9 - width) = n ∧
        fractionText n = '.' :: paddedDigits width m := by
  unfold fractionText
  split
  case isTrue none => exact Or.inl ⟨none, rfl⟩
  case isFalse =>
    refine Or.inr ?_
    split
    case isTrue thousandths =>
      have same := Nat.div_mul_cancel (Nat.dvd_of_mod_eq_zero thousandths)
      exact ⟨3, n / 1000000, by decide, by decide, by omega, same, rfl⟩
    case isFalse =>
      split
      case isTrue millionths =>
        have same := Nat.div_mul_cancel (Nat.dvd_of_mod_eq_zero millionths)
        exact ⟨6, n / 1000, by decide, by decide, by omega, same, rfl⟩
      case isFalse => exact ⟨9, n, by decide, by decide, lt, Nat.mul_one n, rfl⟩

theorem fraction?_fractionText (lt : n < 1000000000) :
    fraction? (fractionText n) = some (n, []) := by
  rcases fractionText_cases lt with ⟨rfl, -⟩ | ⟨width, m, pos, most, fits, rfl, written⟩
  · rfl
  · rw [written, fraction?_paddedDigits pos most fits]

theorem isDigit_head?_fractionText (lt : n < 1000000000) :
    ∀ c ∈ (fractionText n).head?, c.isDigit = false := by
  rcases fractionText_cases lt with ⟨-, written⟩ | ⟨width, m, -, -, -, -, written⟩
  · rw [written]
    exact isDigit_head?_nil
  · rw [written]
    exact isDigit_head?_cons (by decide) _

end Numbers

section Forms

variable {separator : Char} {fraction : List Char → Option (Nat × List Char)} {tail : List Char}

theorem expect?_cons (c : Char) (rest : List Char) : expect? c (c :: rest) = some rest := if_pos rfl

theorem expect?_cons_of_ne {c d : Char} (other : d ≠ c) (rest : List Char) :
    expect? c (d :: rest) = none := if_neg other

/-- Behind a date with its own separator and the time, a form reads what its fraction reads. -/
theorem readForm?_written (other : separator.isDigit = false) (d : Date) (t : TimeOfDay)
    {nanos : Nat} (stop : ∀ c ∈ tail.head?, c.isDigit = false)
    (read : fraction tail = some (nanos, [])) :
    readForm? separator fraction (dateText separator d ++ ' ' :: timeText t ++ tail) =
      if t.shownSecond = 60 then
        ofFields? d.year d.month d.day t.hour t.minute 59 (1000000000 + nanos)
      else ofFields? d.year d.month d.day t.hour t.minute t.shownSecond nanos := by
  have field : ∀ {n c} rest, n < 100 → c.isDigit = false →
      number? 2 (paddedDigits 2 n ++ c :: rest) = some (n, c :: rest) :=
    fun rest fits ended => number?_append (isDigit_head?_cons ended rest) (by decide) fits
  obtain ⟨hour, minute, -, -⟩ := t.exists_in_day
  have second : number? 2 (paddedDigits 2 t.shownSecond ++ tail) = some (t.shownSecond, tail) :=
    number?_append stop (by decide) (Nat.lt_of_le_of_lt t.shownSecond_le (by decide))
  have gap : ∀ rest : List Char, (' ' :: (paddedDigits 2 t.hour ++ rest)).dropWhile isBlank =
      paddedDigits 2 t.hour ++ rest := fun _ => dropWhile_isBlank_paddedDigits
  simp only [readForm?, dateText, timeText, List.append_assoc, List.cons_append, bind, Option.bind,
    year?_append (isDigit_head?_cons other _), expect?_cons, field _ d.month_lt other,
    field _ d.day_lt (by decide : ' '.isDigit = false), gap,
    field _ (Nat.lt_trans hour (by decide)) (by decide : ':'.isDigit = false),
    field _ (Nat.lt_trans minute (by decide)) (by decide : ':'.isDigit = false), second, read,
    if_true]

/-- A form does not read behind a year that another separator follows. -/
theorem readForm?_of_ne {written : Char} (other : written.isDigit = false)
    (apart : written ≠ separator) (d : Date) (rest : List Char) :
    readForm? separator fraction (dateText written d ++ rest) = none := by
  simp only [readForm?, dateText, List.append_assoc, List.cons_append, bind, Option.bind,
    year?_append (isDigit_head?_cons other _), expect?_cons_of_ne apart]

end Forms

section Dates

theorem ofFields?_self (d : Date) (t : TimeOfDay) :
    ofFields? d.year d.month d.day t.hour t.minute t.second t.nanos = some ⟨d, t⟩ := by
  have date : Date.ofFields? d.year d.month d.day = some d := dif_pos d.exists_in_calendar
  have time : TimeOfDay.ofFields? t.hour t.minute t.second t.nanos = some t :=
    dif_pos t.exists_in_day
  rw [ofFields?, date, time]
  rfl

variable (t : DateTime)

/-- Second sixty is read as the leap second that it is. -/
theorem ofFields?_shown :
    (if t.time.shownSecond = 60 then
      ofFields? t.date.year t.date.month t.date.day t.time.hour t.time.minute 59
        (1000000000 + t.time.shownNanos)
    else ofFields? t.date.year t.date.month t.date.day t.time.hour t.time.minute t.time.shownSecond
      t.time.shownNanos) = some t.asShown := by
  by_cases early : t.time.shownSecond < 60
  · have told := ofFields?_self t.date t.time.asShown
    rw [TimeOfDay.asShown, dif_pos early] at told
    rw [if_neg (Nat.ne_of_lt early), told, asShown, TimeOfDay.asShown, dif_pos early]
  · obtain ⟨-, -, second, nanos⟩ := t.time.exists_in_day
    have last : t.time.shownSecond = 60 :=
      Nat.le_antisymm t.time.shownSecond_le (Nat.le_of_not_lt early)
    have parts : t.time.second = 59 ∧ t.time.nanos = 1000000000 + t.time.shownNanos := by
      unfold TimeOfDay.shownNanos
      unfold TimeOfDay.shownSecond at last
      omega
    have told := ofFields?_self t.date t.time
    rw [parts.1, parts.2] at told
    rw [if_pos last, told, asShown, TimeOfDay.asShown, dif_neg early]

theorem readDisplayed?_displayChars : readDisplayed? t.displayChars = some t.asShown := by
  have lt : t.time.shownNanos < 1000000000 := Nat.mod_lt _ (by decide)
  rw [readDisplayed?, displayChars, readForm?_written (by decide) t.date t.time
    (isDigit_head?_fractionText lt) (fraction?_fractionText lt), ofFields?_shown]

/-- The stored text is that of the beginning of the second. -/
theorem storedChars_withoutFraction : t.withoutFraction.storedChars = t.storedChars := by
  rw [storedChars, storedChars, timeText, timeText, withoutFraction,
    t.time.shownSecond_withoutFraction]
  rfl

theorem readStored?_storedChars : readStored? t.storedChars = some t.withoutFraction.asShown := by
  have whole : t.withoutFraction.time.shownNanos = 0 := Nat.mul_mod_left _ _
  have told := t.withoutFraction.ofFields?_shown
  rw [whole] at told
  rw [← storedChars_withoutFraction, readStored?, storedChars, ← List.append_nil (_ ++ _)]
  exact (readForm?_written (by decide) _ _ isDigit_head?_nil rfl).trans told

theorem quote_notMem_storedChars : '\x27' ∉ t.storedChars := by
  have digits : ∀ width n, '\x27' ∉ paddedDigits width n :=
    fun _ _ member => absurd (isDigit_of_mem_paddedDigits member) (by decide)
  have year : '\x27' ∉ yearText t.date.year := by
    unfold yearText
    split
    · exact digits _ _
    · split <;> simp [digits]
  simp [storedChars, dateText, timeText, digits, year]

theorem literal_eq : (Value.dateTime t).literal = "'" ++ t.storedText ++ "'" := by
  apply String.toList_injective
  have plain : doubleQuotes t.storedText.toList = t.storedChars := by
    rw [storedText, String.toList_ofList, doubleQuotes_of_notMem t.quote_notMem_storedChars]
  rw [Value.literal, toList_quote, plain]
  simp [storedText]

theorem asShown_eq_self_iff : t.asShown = t ↔ t.time.ShowsLeapSecond := by
  rw [← t.time.asShown_eq_self_iff, asShown]
  exact ⟨congrArg time, congrArg (mk t.date)⟩

theorem readDisplayed?_storedChars : readDisplayed? t.storedChars = none := by
  rw [readDisplayed?, storedChars, readForm?_of_ne (by decide) (by decide)]

theorem readStored?_displayChars : readStored? t.displayChars = none := by
  rw [readStored?, displayChars, List.append_assoc, readForm?_of_ne (by decide) (by decide)]

theorem read?_storedText : read? t.storedText.toList = some t.withoutFraction.asShown := by
  rw [storedText, String.toList_ofList, read?, t.readStored?_storedChars]

theorem read?_displayText : read? t.displayText.toList = some t.asShown := by
  rw [displayText, String.toList_ofList, read?, t.readStored?_displayChars,
    t.readDisplayed?_displayChars]

theorem readAs_text {s : String} {u : DateTime} (read : read? s.toList = some u) :
    Cell.readAs .dateTime (.text s) = .ok u := by
  rw [Cell.readAs, Cell.readDateTime, read]

/-- The text that is stored, which is also the one between the quotes of the literal, is read back as
the beginning of the second, and the text of a default as the whole time. Neither form reads the text
of the other. A time comes back as a clock shows it, which is the time itself unless it is a leap
second inside a minute. -/
theorem readAs_written (t : DateTime) :
    ((Value.dateTime t).stored = .ok (.text t.storedText) ∧
      (Value.dateTime t).literal = "'" ++ t.storedText ++ "'" ∧
      Cell.readAs .dateTime (.text t.storedText) = .ok t.withoutFraction.asShown) ∧
    (DefaultValue.ofScalar? .dateTime t = some ⟨t.displayText, .dateTime⟩ ∧
      Cell.readAs .dateTime (.text t.displayText) = .ok t.asShown) ∧
    (readDisplayed? t.storedChars = none ∧ readStored? t.displayChars = none) ∧
    (t.withoutFraction.asShown = t.withoutFraction ↔ t.time.ShowsLeapSecond) ∧
    (t.asShown = t ↔ t.time.ShowsLeapSecond) := by
  have whole : t.withoutFraction.asShown = t.withoutFraction ↔ t.time.ShowsLeapSecond :=
    t.withoutFraction.asShown_eq_self_iff.trans t.time.showsLeapSecond_withoutFraction_iff
  exact ⟨⟨rfl, t.literal_eq, readAs_text t.read?_storedText⟩, ⟨rfl, readAs_text t.read?_displayText⟩,
    ⟨t.readDisplayed?_storedChars, t.readStored?_displayChars⟩, whole, t.asShown_eq_self_iff⟩

/-- Half a leap second after second 30 comes back as half a second after second 31. -/
example :
    let t : DateTime := ⟨⟨2016, 12, 31, by decide⟩, ⟨23, 59, 30, 1500000000, by decide⟩⟩
    t.displayText = "2016-12-31 23:59:31.500" ∧ t.asShown ≠ t ∧
      Cell.readAs .dateTime (.text t.displayText) = .ok t.asShown := by decide

/-- A leap second at the end of a year before the first, with nine fraction digits. -/
example : read? "-0044-12-31 23:59:60.000000001".toList =
    some ⟨⟨-44, 12, 31, by decide⟩, ⟨23, 59, 59, 1000000001, by decide⟩⟩ := by decide

end Dates

end DateTime

end TypedSql
