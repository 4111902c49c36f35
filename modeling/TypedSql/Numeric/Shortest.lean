import TypedSql.Numeric.MachineInt
import TypedSql.Numeric.Binary

/-! The fewest decimal digits that still name one floating-point number. The reals that round to a
number form an interval around it. On the decimal grids from coarse to fine, the two neighbours of
the number are tested against that interval, and the first grid with a hit gives the digits. All
comparisons are exact, between products of natural numbers. -/
namespace TypedSql.Numeric

-- Powers of numbers are those of the core library.
attribute [local instance (high)] instPowNat

/-- A finite positive number `num / den` and the interval of reals that round to it, whose ends are
`low / den` and `high / den`. The ends belong to the interval when `closed` holds. -/
structure RoundingInterval where
  low : Nat
  num : Nat
  high : Nat
  den : Nat
  closed : Bool
  deriving DecidableEq, Repr

namespace RoundingInterval

/-- The interval of `m * 2 ^ q` in a format, for positive `m`. Each end is half a place away, but
below a power of two the numbers lie twice as close. -/
def ofFinite (f : BinaryFormat) (m : Nat) (q : Int) : RoundingInterval :=
  let scale := 2 ^ q.toNat
  let below := if m = f.fractionCount ∧ f.leastExponent < q then 1 else 2
  { low := (4 * m - below) * scale
    num := 4 * m * scale
    high := (4 * m + 2) * scale
    den := 4 * 2 ^ (-q).toNat
    closed := m % 2 == 0 }

def contains (r : RoundingInterval) (d : Nat) (g : Int) : Bool :=
  let point := d * 10 ^ g.toNat * r.den
  let unit := 10 ^ (-g).toNat
  if r.closed then r.low * unit ≤ point && point ≤ r.high * unit
  else r.low * unit < point && point < r.high * unit

/-- How many digits stand before the decimal point of the number; not positive when it lies
below one tenth. -/
def leadingPlace (r : RoundingInterval) : Int :=
  if r.den ≤ r.num then (digits (r.num / r.den)).length
  else 1 - ((digits ((r.den - 1) / r.num)).length : Int)

/-- The digits that the number has above the place `10 ^ g`. -/
def floorAt (r : RoundingInterval) (g : Int) : Nat :=
  r.num * 10 ^ (-g).toNat / (r.den * 10 ^ g.toNat)

/-- Whether the number is nearer to `d * 10 ^ g` than to the next point of the grid. -/
def isNearerBelow (r : RoundingInterval) (d : Nat) (g : Int) : Bool :=
  2 * r.num * 10 ^ (-g).toNat < (2 * d + 1) * r.den * 10 ^ g.toNat

/-- The point of the grid `10 ^ g` that stands for the number, if one lies in its interval. Of two
the nearer is taken, and the greater when both are equally near. -/
def onGrid? (r : RoundingInterval) (g : Int) : Option Nat :=
  let d := r.floorAt g
  match r.contains d g, r.contains (d + 1) g with
  | true, true => some (if r.isNearerBelow d g then d else d + 1)
  | true, false => some d
  | false, true => some (d + 1)
  | false, false => none

/-- Tries at most `count` grids, each ten times finer than the one before. -/
def firstGrid (r : RoundingInterval) : Nat → Int → Nat × Int
  | 0, g => (r.floorAt g, g)
  | count + 1, g =>
    match r.onGrid? g with
    | some d => (d, g)
    | none => firstGrid r count (g - 1)

/-- Digits and place of the shortest decimal in the interval. Seventeen digits are enough for every
format up to double precision. -/
def shortest (r : RoundingInterval) : Nat × Int := r.firstGrid 17 (r.leadingPlace - 1)

end RoundingInterval

end TypedSql.Numeric
