import TypedSql.Text.Blank

/-! Text between delimiters in SQL. Inside a string literal a single quote is written twice: the
text is cut at its quotes, and the pieces between them, taken as byte ranges of the text, are joined
by a doubled quote. A delimited identifier loses the delimiters that already stand on its edges and
is then put between a fresh pair, so delimiting twice is delimiting once. -/
namespace TypedSql.Text

/-- A range of byte positions in a text, the end excluded. -/
structure ByteRange where
  start : Nat
  stop : Nat
  deriving DecidableEq, Repr

def ByteRange.slice (r : ByteRange) (s : String) : String :=
  String.Pos.Raw.extract s ⟨r.start⟩ ⟨r.stop⟩

/-- The byte ranges between the single quotes of a text whose characters from byte `here` on are
given, the first of them open since byte `start`. -/
def unquotedRanges (start here : Nat) : List Char → List ByteRange
  | [] => [⟨start, here⟩]
  | c :: rest =>
    if c = '\x27' then ⟨start, here⟩ :: unquotedRanges (here + 1) (here + 1) rest
    else unquotedRanges start (here + c.utf8Size) rest

/-- The text between single quotes, with each quote inside it doubled. -/
def quote (s : String) : String :=
  "'" ++ String.intercalate "''" ((unquotedRanges 0 0 s.toList).map (·.slice s)) ++ "'"

/-- The pair of characters around a delimited identifier. -/
structure Delimiters where
  opening : Char
  closing : Char
  deriving DecidableEq, Repr

namespace Delimiters

def backtick : Delimiters := ⟨'\x60', '\x60'⟩

def doubleQuote : Delimiters := ⟨'\x22', '\x22'⟩

def brackets : Delimiters := ⟨'[', ']'⟩

def isEdge (d : Delimiters) (c : Char) : Bool := c == d.opening || c == d.closing

/-- The name without the delimiters on its edges. -/
def bare (d : Delimiters) (name : List Char) : List Char := trimBoth d.isEdge name

/-- The name between one pair of delimiters. Delimiters inside the name stay as they are. -/
def delimit (d : Delimiters) (name : String) : String :=
  String.ofList (d.opening :: (d.bare name.toList ++ [d.closing]))

end Delimiters

def identifier (name : String) : String := Delimiters.backtick.delimit name

def identifierList (names : List String) : String :=
  String.intercalate ", " (names.map identifier)

end TypedSql.Text
