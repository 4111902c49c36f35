import TypedSql.Text.Hex

/-! Universally unique identifiers: sixteen bytes, written as hexadecimal digits in five groups with
hyphens between them.

Text and reader stand for those of the library of identifiers, which documents four forms: simple,
hyphenated, in braces, and as a resource name behind `urn:uuid:`. It writes the hyphenated one in
lower case and reads all four in either case. -/
namespace TypedSql

structure Uuid where
  bytes : List UInt8
  length_eq : bytes.length = 16
  deriving DecidableEq, Repr

namespace Uuid

open Text

def ofBytes? (bytes : List UInt8) : Option Uuid :=
  if h : bytes.length = 16 then some ⟨bytes, h⟩ else none

/-- Hexadecimal digits with a hyphen after the 8th, 12th, 16th and 20th. -/
def hyphenate (cs : List Char) : List Char :=
  cs.take 8 ++ '-' :: ((cs.drop 8).take 4 ++ '-' :: ((cs.drop 12).take 4 ++ '-' ::
    ((cs.drop 16).take 4 ++ '-' :: cs.drop 20)))

def chars (u : Uuid) : List Char := hyphenate (Hex.ofBytes .lower u.bytes)

def text (u : Uuid) : String := String.ofList u.chars

def readPlain? (cs : List Char) : Option Uuid := (Hex.toBytes? cs).bind ofBytes?

/-- Reads the hyphenated form: hyphens stand exactly where `hyphenate` puts them. -/
def readHyphenated? (cs : List Char) : Option Uuid :=
  let bare := cs.filter (· != '-')
  if hyphenate bare = cs then readPlain? bare else none

/-- The characters that announce the hyphenated form as a resource name, in either case. -/
def resourceMark : List Char := "urn:uuid:".toList

/-- Reads thirty-two digits, or the hyphenated form by itself, between braces, or behind
`resourceMark`. -/
def read? (cs : List Char) : Option Uuid :=
  match readPlain? cs with
  | some u => some u
  | none =>
    match cs with
    | '\x7b' :: rest =>
      if rest.getLast? = some '\x7d' then readHyphenated? rest.dropLast else none
    | _ =>
      let mark := cs.take resourceMark.length
      if mark.map Char.toLower = resourceMark then readHyphenated? (cs.drop resourceMark.length)
      else readHyphenated? cs

theorem ofBytes?_bytes (u : Uuid) : ofBytes? u.bytes = some u := by
  rw [ofBytes?, dif_pos u.length_eq]

end Uuid

end TypedSql
