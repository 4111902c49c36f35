import TypedSql.Text.Hex
import TypedSql.Numeric.FloatText

/-! The tokens of SQL conditions and how they are read from a text: strings between single quotes,
inside which a doubled quote stands for one, blobs in hexadecimal, signed decimal numbers, words,
and punctuation, with blanks anywhere between them. A text that is not made of such tokens is not
read at all. -/
namespace TypedSql.Sql

open Numeric Text

/-- The words with a meaning of their own. -/
inductive Keyword where
  | and
  | or
  | not
  | like
  | isIn
  | is
  | null
  | between
  deriving DecidableEq, Repr

namespace Keyword

def word : Keyword → String
  | .and => "AND"
  | .or => "OR"
  | .not => "NOT"
  | .like => "LIKE"
  | .isIn => "IN"
  | .is => "IS"
  | .null => "NULL"
  | .between => "BETWEEN"

def all : List Keyword := [.and, .or, .not, .like, .isIn, .is, .null, .between]

/-- The keyword that a word is, in letters of either case. -/
def ofWord? (cs : List Char) : Option Keyword := all.find? (·.word.toList == cs.map Char.toUpper)

theorem ofWord?_word (k : Keyword) : ofWord? k.word.toList = some k := by
  cases k <;> decide

end Keyword

/-- A number with a fraction of finitely many digits, `digits / 10 ^ places`. -/
structure Numeral where
  negative : Bool
  digits : Nat
  places : Nat
  deriving DecidableEq, Repr

inductive Relation where
  | equal
  | unequal
  | greater
  | greaterOrEqual
  | less
  | lessOrEqual
  deriving DecidableEq, Repr

def Relation.sign : Relation → String
  | .equal => "="
  | .unequal => "<>"
  | .greater => ">"
  | .greaterOrEqual => ">="
  | .less => "<"
  | .lessOrEqual => "<="

inductive Token where
  | keyword (k : Keyword)
  | name (s : String)
  | number (n : Numeral)
  | text (s : String)
  | blob (bytes : List UInt8)
  | relation (r : Relation)
  | opening
  | closing
  | comma
  deriving DecidableEq, Repr

def isWordStart (c : Char) : Bool := c.isAlpha || c == '_'

def isWordChar (c : Char) : Bool := c.isAlphanum || c == '_'

namespace Token

/-- A word is a keyword or a name. -/
def ofWord (cs : List Char) : Token :=
  match Keyword.ofWord? cs with
  | some k => .keyword k
  | none => .name (String.ofList cs)

/-- Reads a string behind its opening quote. -/
def quoted? : List Char → Option (List Char × List Char)
  | [] => none
  | c :: rest =>
    if c = '\x27' then
      match rest with
      | '\x27' :: more => (quoted? more).map fun (s, tail) => ('\x27' :: s, tail)
      | _ => some ([], rest)
    else (quoted? rest).map fun (s, tail) => (c :: s, tail)

/-- Reads the digits of a blob behind its opening quote. -/
def blob? (cs : List Char) : Option (List UInt8 × List Char) :=
  match cs.dropWhile (· != '\x27') with
  | [] => none
  | _ :: tail => (Hex.toBytes? (cs.takeWhile (· != '\x27'))).map (·, tail)

/-- Reads the fraction of a number, if a point is next. -/
def fraction : List Char → List Char × List Char
  | '.' :: rest => (rest.takeWhile Char.isDigit, rest.dropWhile Char.isDigit)
  | cs => ([], cs)

/-- Reads a number with at most one sign. It may not run into a word. -/
def number? (cs : List Char) : Option (Numeral × List Char) :=
  let (negative, body) := splitSign cs
  let whole := body.takeWhile Char.isDigit
  let (places, tail) := fraction (body.dropWhile Char.isDigit)
  if whole = [] ∨ tail.head?.any isWordChar then none
  else some (⟨negative, digitsValue (whole ++ places), places.length⟩, tail)

def punctuation? (c : Char) (rest : List Char) : Option (Token × List Char) :=
  if c = '(' then some (.opening, rest)
  else if c = ')' then some (.closing, rest)
  else if c = ',' then some (.comma, rest)
  else if c = '=' then some (.relation .equal, rest)
  else if c = '<' then
    match rest with
    | '>' :: tail => some (.relation .unequal, tail)
    | '=' :: tail => some (.relation .lessOrEqual, tail)
    | _ => some (.relation .less, rest)
  else if c = '>' then
    match rest with
    | '=' :: tail => some (.relation .greaterOrEqual, tail)
    | _ => some (.relation .greater, rest)
  else none

def next? (c : Char) (rest : List Char) : Option (Token × List Char) :=
  if c = '\x27' then (quoted? rest).map fun (s, tail) => (.text (String.ofList s), tail)
  else if (c = 'X' ∨ c = 'x') ∧ rest.head? = some '\x27' then
    (blob? rest.tail).map fun (bytes, tail) => (.blob bytes, tail)
  else if isWordStart c then
    some (ofWord (c :: rest.takeWhile isWordChar), rest.dropWhile isWordChar)
  else if c.isDigit ∨ c = '-' ∨ c = '+' then
    (number? (c :: rest)).map fun (n, tail) => (.number n, tail)
  else punctuation? c rest

end Token

def tokens? : List Char → Option (List Token)
  | [] => some []
  | c :: rest =>
    if c.isWhitespace then tokens? rest
    else
      match Token.next? c rest with
      | none => none
      | some (token, tail) =>
        if tail.length ≤ rest.length then (tokens? tail).map (token :: ·) else none
termination_by cs => cs.length

end TypedSql.Sql
