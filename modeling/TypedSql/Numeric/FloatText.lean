import TypedSql.Numeric.MachineInt
import TypedSql.Numeric.Binary
import TypedSql.Numeric.Shortest

/-! Floating-point numbers as text. They are written in positional notation with the fewest digits
that read back, and are read from positional or exponent notation, rounded once to the nearest
number of the format. -/
namespace TypedSql.Numeric

-- Powers of numbers are those of the core library.
attribute [local instance (high)] instPowNat

def dropTrailingZeros (cs : List Char) : List Char := (cs.reverse.dropWhile (· == '0')).reverse

/-- The decimal `d * 10 ^ g` in positional notation, without a fraction when it has none. -/
def positional (d : Nat) (g : Int) : List Char :=
  if 0 ≤ g then digits (d * 10 ^ g.toNat)
  else
    let places := (-g).toNat
    let fraction := dropTrailingZeros (paddedDigits places (d % 10 ^ places))
    digits (d / 10 ^ places) ++ (if fraction = [] then [] else '.' :: fraction)

def finiteText (f : BinaryFormat) (m : Nat) (q : Int) : List Char :=
  if m = 0 then ['0']
  else
    let (d, g) := (RoundingInterval.ofFinite f m q).shortest
    positional d g

/-- The text of a floating-point number. Zero keeps its sign and a NaN has none. -/
def floatText {f : BinaryFormat} (x : Binary f) : String :=
  match x.datum with
  | .nan => "NaN"
  | .infinite negative => if negative then "-inf" else "inf"
  | .finite negative m q =>
    String.ofList ((if negative then ['-'] else []) ++ finiteText f m q)

inductive FloatTextFault where
  | empty
  | invalid
  deriving DecidableEq, Repr

def FloatTextFault.message : FloatTextFault → String
  | .empty => "cannot parse float from empty string"
  | .invalid => "invalid float literal"

def splitSign : List Char → Bool × List Char
  | '-' :: rest => (true, rest)
  | '+' :: rest => (false, rest)
  | cs => (false, cs)

/-- The value of exponent digits. It grows no further once it has five digits: whatever the other
digits are, the number is then zero or infinite. -/
def saturatedExponent (cs : List Char) : Nat :=
  cs.foldl (fun n c => if n < 0x10000 then 10 * n + digitValue c else n) 0

/-- The exponent part at the end of a numeral: none, or a letter with a signed number. -/
def readExponent? : List Char → Option Int
  | [] => some 0
  | c :: rest =>
    if c = 'e' ∨ c = 'E' then
      let (negative, magnitude) := splitSign rest
      if magnitude ≠ [] ∧ magnitude.all Char.isDigit then
        let n := saturatedExponent magnitude
        some (if negative then -n else n)
      else none
    else none

/-- A numeral without sign: the integer of its digits and the power of ten that it is multiplied
by. A point may stand first or last, not alone. -/
def readNumeral? (cs : List Char) : Option (Nat × Int) := do
  let whole := cs.takeWhile Char.isDigit
  let rest := cs.dropWhile Char.isDigit
  let (fraction, tail) := match rest with
    | '.' :: after => (after.takeWhile Char.isDigit, after.dropWhile Char.isDigit)
    | _ => ([], rest)
  if whole ++ fraction = [] then none
  else
    let exponent ← readExponent? tail
    some (digitsValue (whole ++ fraction), exponent - fraction.length)

/-- The names of the numbers that are not finite, in letters of either case. -/
def readSpecial? (f : BinaryFormat) (negative : Bool) (cs : List Char) : Option (Binary f) :=
  let name := String.ofList (cs.map Char.toLower)
  if name = "inf" ∨ name = "infinity" then some (.infinity negative)
  else if name = "nan" then some (.nan f)
  else none

/-- Reads a number, correctly rounded. -/
def readFloat (f : BinaryFormat) (cs : List Char) : Except FloatTextFault (Binary f) :=
  if cs = [] then .error .empty
  else
    let (negative, body) := splitSign cs
    match readNumeral? body with
    | some (m, e) => .ok (.ofRatio f negative (m * 10 ^ e.toNat) (10 ^ (-e).toNat))
    | none =>
      match readSpecial? f negative body with
      | some x => .ok x
      | none => .error .invalid

end TypedSql.Numeric
