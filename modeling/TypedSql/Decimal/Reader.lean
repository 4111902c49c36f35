import TypedSql.Decimal.Basic

/-! Reading decimal numbers. A plain numeral has an optional sign, digits with at most one point,
and underscores, called gaps, once a digit has been seen. Digits that no longer fit are rounded
away: the first of them decides, half up in magnitude, and the rest are only checked to be digits or
gaps. A numeral with an exponent moves the point of a plain one.

This stands for the readers of the library of decimal numbers, the plain one first and the
scientific one where it fails. What they document is followed: mantissas of 96 bits, up to 28
fraction digits, underscores between digits that are passed over, digits beyond the 28th rounded half
up, exponents that shift the scale. -/
namespace TypedSql.Decimal

open Numeric

-- Powers of numbers are those of the core library.
attribute [local instance (high)] instPowNat

/-- A number with its sign; a zero that is read is not negative. -/
def ofReading? (negative : Bool) (mantissa scale : Nat) : Option Decimal :=
  ofParts? (negative && mantissa != 0) mantissa scale

/-- The number rounded half up by the first digit that it lost. A mantissa that leaves the range on
the way loses its last digit too, which takes one fraction digit. -/
def roundReading? (negative : Bool) (mantissa scale digit : Nat) : Option Decimal :=
  if digit < 5 then ofReading? negative mantissa scale
  else if mantissa + 1 < 2 ^ (96 : Nat) then ofReading? negative (mantissa + 1) scale
  else
    match scale with
    | 0 => none
    | scale + 1 => ofReading? negative ((mantissa + 1 + 4) / 10) scale

/-- Digits and underscores. -/
def isDigitOrGap (c : Char) : Bool := c.isDigit || c == '_'

/-- Mantissas from here on are long: they may outgrow a word of 64 bits with the next digit. -/
def longMantissa : Nat := (2 ^ (64 : Nat) - 1) / 10 - 255

/-- The digit by which a number with all its fraction digits is rounded, from what follows them. A
gap in that place is passed over when the mantissa was long before its last digit, and otherwise
stands for a zero. -/
def decisiveDigit (mantissa : Nat) (rest : List Char) : Nat :=
  let rest := if longMantissa ≤ mantissa / 10 then rest.dropWhile (· == '_') else rest
  match rest with
  | [] => 0
  | c :: _ => if c = '_' then 0 else digitValue c

/-- Reads the fraction. `seen` tells whether a digit has occurred. -/
def readFraction? (negative : Bool) (mantissa scale : Nat) (seen : Bool) :
    List Char → Option Decimal
  | [] => if seen then ofReading? negative mantissa scale else none
  | c :: rest =>
    if scale = maxScale then
      if (c :: rest).all isDigitOrGap then
        roundReading? negative mantissa scale (decisiveDigit mantissa (c :: rest))
      else none
    else if c.isDigit then
      let next := 10 * mantissa + digitValue c
      if next < 2 ^ (96 : Nat) then readFraction? negative next (scale + 1) true rest
      else if rest.all isDigitOrGap then
        roundReading? negative mantissa scale (digitValue c)
      else none
    else if c = '_' ∧ seen then readFraction? negative mantissa scale seen rest
    else none

/-- Reads the whole part, and the fraction behind a point. -/
def readWhole? (negative : Bool) (mantissa : Nat) (seen : Bool) : List Char → Option Decimal
  | [] => if seen then ofReading? negative mantissa 0 else none
  | c :: rest =>
    if c.isDigit then
      let next := 10 * mantissa + digitValue c
      if next < 2 ^ (96 : Nat) then readWhole? negative next true rest else none
    else if c = '.' then readFraction? negative mantissa 0 seen rest
    else if c = '_' ∧ seen then readWhole? negative mantissa seen rest
    else none

def readPlain? : List Char → Option Decimal
  | '-' :: rest => readWhole? true 0 false rest
  | '+' :: rest => readWhole? false 0 false rest
  | cs => readWhole? false 0 false cs

/-- The number rounded half up in magnitude to fewer fraction digits. -/
def rescale (d : Decimal) (scale : Nat) : Nat :=
  if d.scale ≤ scale then d.mantissa * 10 ^ (scale - d.scale)
  else
    let unit := 10 ^ (d.scale - scale)
    d.mantissa / unit + (if unit ≤ 2 * (d.mantissa % unit) then 1 else 0)

/-- The number with the point `n` places further to the left. Where that takes too many fraction
digits, the number is first rounded to those that remain. -/
def shiftLeft? (d : Decimal) (n : Nat) : Option Decimal :=
  if maxScale < n then none
  else if d.scale + n ≤ maxScale then ofParts? d.negative d.mantissa (d.scale + n)
  else ofParts? d.negative (d.rescale (maxScale - n)) maxScale

/-- The number with the point `n` places further to the right. Beyond its own fraction digits the
mantissa grows, and at most `maxScale` places are allowed. -/
def shiftRight? (d : Decimal) (n : Nat) : Option Decimal :=
  if n ≤ d.scale then ofParts? d.negative d.mantissa (d.scale - n)
  else if maxScale < n then none
  else ofParts? d.negative (d.mantissa * 10 ^ (n - d.scale)) 0

/-- The digits of an exponent: a plus sign is allowed, and the number has at most 32 bits. -/
def readPlaces? (cs : List Char) : Option Nat :=
  let body := match cs with
    | '+' :: rest => rest
    | _ => cs
  if body ≠ [] ∧ body.all Char.isDigit then
    let n := digitsValue body
    if n < 2 ^ (32 : Nat) then some n else none
  else none

def isExponentMark (c : Char) : Bool := c == 'e' || c == 'E'

def readScientific? (cs : List Char) : Option Decimal := do
  let base ← readPlain? (cs.takeWhile (!isExponentMark ·))
  match cs.dropWhile (!isExponentMark ·) with
  | [] => none
  | _ :: '-' :: rest => base.shiftLeft? (← readPlaces? rest)
  | _ :: rest => base.shiftRight? (← readPlaces? rest)

def read? (cs : List Char) : Option Decimal :=
  match readPlain? cs with
  | some d => some d
  | none => readScientific? cs

end TypedSql.Decimal
