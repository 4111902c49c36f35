/-! UTF-8 over byte lists. A byte string is cut into pieces from the left: scalar values, maximal
parts of ill-formed sequences, and at most one sequence that the end of the data cuts off. Strict
and lenient decoding are two readings of the same pieces. -/
namespace TypedSql.Text.Utf8

def encode (cs : List Char) : List UInt8 := cs.flatMap String.utf8EncodeChar

inductive Piece where
  | scalar (c : Char)
  /-- `length` bytes that begin a sequence which the byte after them does not continue. -/
  | damaged (length : Nat)
  /-- The data end inside a sequence that is well-formed so far. -/
  | cut (length : Nat)
  deriving DecidableEq, Repr

def isContinuation (b : Nat) : Bool := 0x80 ≤ b && b ≤ 0xBF

/-- The second bytes that a lead byte of three or four bytes admits: the others would spell an
overlong form, a surrogate, or a value beyond the last code point. -/
def admitsSecond (lead b : Nat) : Bool :=
  if lead = 0xE0 then 0xA0 ≤ b && b ≤ 0xBF
  else if lead = 0xED then 0x80 ≤ b && b ≤ 0x9F
  else if lead = 0xF0 then 0x90 ≤ b && b ≤ 0xBF
  else if lead = 0xF4 then 0x80 ≤ b && b ≤ 0x8F
  else isContinuation b

/-- The last six bits of a continuation byte. -/
def payload (b : Nat) : Nat := b % 64

def pieces : List UInt8 → List Piece
  | [] => []
  | a :: rest =>
    let lead := a.toNat
    if lead < 0x80 then .scalar (Char.ofNat lead) :: pieces rest
    else if 0xC2 ≤ lead ∧ lead ≤ 0xDF then
      match rest with
      | [] => [.cut 1]
      | b :: rest₁ =>
        if isContinuation b.toNat then
          .scalar (Char.ofNat (lead % 32 * 64 + payload b.toNat)) :: pieces rest₁
        else .damaged 1 :: pieces (b :: rest₁)
    else if 0xE0 ≤ lead ∧ lead ≤ 0xEF then
      match rest with
      | [] => [.cut 1]
      | b :: rest₁ =>
        if admitsSecond lead b.toNat then
          match rest₁ with
          | [] => [.cut 2]
          | c :: rest₂ =>
            if isContinuation c.toNat then
              .scalar (Char.ofNat (lead % 16 * 4096 + payload b.toNat * 64 + payload c.toNat)) ::
                pieces rest₂
            else .damaged 2 :: pieces (c :: rest₂)
        else .damaged 1 :: pieces (b :: rest₁)
    else if 0xF0 ≤ lead ∧ lead ≤ 0xF4 then
      match rest with
      | [] => [.cut 1]
      | b :: rest₁ =>
        if admitsSecond lead b.toNat then
          match rest₁ with
          | [] => [.cut 2]
          | c :: rest₂ =>
            if isContinuation c.toNat then
              match rest₂ with
              | [] => [.cut 3]
              | d :: rest₃ =>
                if isContinuation d.toNat then
                  .scalar (Char.ofNat (lead % 8 * 262144 + payload b.toNat * 4096 +
                    payload c.toNat * 64 + payload d.toNat)) :: pieces rest₃
                else .damaged 3 :: pieces (d :: rest₃)
            else .damaged 2 :: pieces (c :: rest₂)
        else .damaged 1 :: pieces (b :: rest₁)
    else .damaged 1 :: pieces rest

/-- Why a byte string is not UTF-8: the bytes before `index` are, and what starts there is either
a sequence of `length` bytes without a continuation or cut off by the end. -/
inductive Fault where
  | invalid (index length : Nat)
  | incomplete (index : Nat)
  deriving DecidableEq, Repr

def Fault.message : Fault → String
  | .invalid index length =>
    "invalid utf-8 sequence of " ++ toString length ++ " bytes from index " ++ toString index
  | .incomplete index => "incomplete utf-8 byte sequence from index " ++ toString index

/-- The characters of pieces that are all scalar values; `index` bytes precede them. -/
def joinStrict (index : Nat) : List Piece → Except Fault (List Char)
  | [] => .ok []
  | .scalar c :: rest => (joinStrict (index + c.utf8Size) rest).map (c :: ·)
  | .damaged length :: _ => .error (.invalid index length)
  | .cut _ :: _ => .error (.incomplete index)

/-- Decodes well-formed data only. -/
def decode (bytes : List UInt8) : Except Fault (List Char) := joinStrict 0 (pieces bytes)

/-- What a reader shows for a piece: the character, or U+FFFD once for all the bytes of a piece
that is none. -/
def Piece.shown : Piece → Char
  | .scalar c => c
  | .damaged _ | .cut _ => '\uFFFD'

/-- Decodes any data, with one replacement character for each ill-formed piece. -/
def decodeLenient (bytes : List UInt8) : List Char := (pieces bytes).map Piece.shown

end TypedSql.Text.Utf8
