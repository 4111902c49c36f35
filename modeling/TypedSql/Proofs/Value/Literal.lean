import TypedSql.Value.Literal
import TypedSql.Proofs.Numeric.Digits
import TypedSql.Proofs.Numeric.Rounding
import TypedSql.Proofs.Sql.Lexing
import TypedSql.Proofs.Sql.Parsing

/-! The literal of a value is one token. Numbers keep all their digits, texts are what is read
between the quotes, and no content of a value reaches beyond its literal. -/
namespace TypedSql

open Numeric Text Sql

section Positional

def wholeDigits (d : Nat) (g : Int) : List Char :=
  if 0 ≤ g then digits (d * 10 ^ g.toNat) else digits (d / 10 ^ (-g).toNat)

/-- The digits behind the point of `d * 10 ^ g`, without the zeros at their end. -/
def fractionDigits (d : Nat) (g : Int) : List Char :=
  if 0 ≤ g then []
  else dropTrailingZeros (paddedDigits (-g).toNat (d % 10 ^ (-g).toNat))

theorem positional_eq (d : Nat) (g : Int) :
    positional d g = decimalChars false (wholeDigits d g) (fractionDigits d g) := by
  unfold positional wholeDigits fractionDigits
  split <;> simp [decimalChars]

theorem isDigit_of_mem_wholeDigits (d : Nat) (g : Int) :
    ∀ c ∈ wholeDigits d g, c.isDigit = true := by
  unfold wholeDigits
  split <;> exact fun c member => isDigit_of_mem_digits member

theorem isDigit_of_mem_fractionDigits (d : Nat) (g : Int) :
    ∀ c ∈ fractionDigits d g, c.isDigit = true := by
  unfold fractionDigits
  split
  · nofun
  · exact isDigit_of_mem_dropTrailingZeros fun c member => isDigit_of_mem_paddedDigits member

theorem wholeDigits_ne_nil (d : Nat) (g : Int) : wholeDigits d g ≠ [] := by
  unfold wholeDigits
  split <;> exact digits_ne_nil _

def Sql.Numeral.positional (negative : Bool) (d : Nat) (g : Int) : Numeral :=
  ⟨negative, digitsValue (wholeDigits d g ++ fractionDigits d g), (fractionDigits d g).length⟩

end Positional

def Sql.Numeral.ofInt (n : Int) : Numeral := ⟨n < 0, n.natAbs, 0⟩

/-- A finite number by its shortest digits. Other numbers have no numeral. -/
def Sql.Numeral.ofBinary {f : BinaryFormat} (x : Binary f) : Numeral :=
  match x.datum with
  | .finite negative m q =>
    if m = 0 then ⟨negative, 0, 0⟩
    else
      let (d, g) := (RoundingInterval.ofFinite f m q).shortest
      .positional negative d g
  | _ => ⟨false, 0, 0⟩

/-- The constant that a value is in SQL. A raw value is none. -/
def Value.constant : Value → Constant
  | .null => .null
  | .bool b => .number (.ofInt (if b then 1 else 0))
  | .char c => .number (.ofInt c.toNat)
  | .integer n => .number (.ofInt n.val)
  | .unsigned n => .number (.ofInt n.val)
  | .real x => .number (.ofBinary x)
  | .text s => .text s
  | .blob bytes => .blob bytes
  | .decimal d => .number ⟨d.negative, d.mantissa, d.scale⟩
  | .dateTime t => .text t.storedText
  | .uuid u => .text u.text
  | .raw _ => .null

/-- A value that SQL can denote by a literal of its own: not raw, and finite if it is a number. -/
def Value.IsPlain : Value → Prop
  | .raw _ => False
  | .real x => x.magnitude < BinaryFormat.double.infinityCode
  | _ => True

instance Value.instDecidableIsPlain : (v : Value) → Decidable v.IsPlain
  | .raw _ => .isFalse id
  | .real _ => inferInstanceAs (Decidable (_ < _))
  | .null | .bool _ | .char _ | .integer _ | .unsigned _ | .text _ | .blob _ | .decimal _
  | .dateTime _ | .uuid _ => .isTrue trivial

/-- How a constant stands in a text. -/
inductive Sql.Constant.WrittenAs : Constant → List Char → Prop
  | null : WrittenAs .null Keyword.null.word.toList
  | number (negative : Bool) {whole places : List Char} (nonempty : whole ≠ [])
      (digits : ∀ c ∈ whole, c.isDigit = true) (digits' : ∀ c ∈ places, c.isDigit = true) :
      WrittenAs (.number ⟨negative, digitsValue (whole ++ places), places.length⟩)
        (decimalChars negative whole places)
  | text (s : String) : WrittenAs (.text s) ('\x27' :: (doubleQuotes s.toList ++ ['\x27']))
  | blob {digits : List Char} {bytes : List UInt8} (inside : '\x27' ∉ digits)
      (value : Hex.toBytes? digits = some bytes) :
      WrittenAs (.blob bytes) ('X' :: '\x27' :: (digits ++ ['\x27']))

/-- A constant is read back from its text. -/
theorem Sql.Constant.WrittenAs.token {c : Constant} {cs : List Char} (h : c.WrittenAs cs) :
    c.token.WrittenAs cs := by
  cases h with
  | null => exact Token.written_keyword .null
  | number negative nonempty digits digits' =>
    exact Token.written_number negative nonempty digits digits'
  | text s => exact Token.written_text s
  | blob inside value => exact Token.written_blob inside value

theorem written_whole (negative : Bool) (n : Nat) :
    Constant.WrittenAs (.number ⟨negative, n, 0⟩) (decimalChars negative (digits n) []) := by
  have written : Constant.WrittenAs _ (decimalChars negative (digits n) []) :=
    .number negative (digits_ne_nil n) (fun _ member => isDigit_of_mem_digits member)
      (List.forall_mem_nil _)
  rwa [List.append_nil, digitsValue_digits] at written

theorem written_ofInt (n : Int) : Constant.WrittenAs (.number (.ofInt n)) (intText n) := by
  have shape : intText n = decimalChars (n < 0) (digits n.natAbs) [] := by
    unfold intText
    split <;> simp_all [decimalChars]
  rw [shape]
  exact written_whole _ n.natAbs

theorem written_quote (s : String) : Constant.WrittenAs (.text s) (quote s).toList := by
  rw [toList_quote]
  exact .text s

theorem quote_notMem_ofBytes (letters : Hex.LetterCase) (bytes : List UInt8) :
    '\x27' ∉ Hex.ofBytes letters bytes := by
  intro member
  have digit := Hex.isSome_value?_of_mem_ofBytes member
  exact absurd digit (by decide)

theorem written_blobLiteral (bytes : List UInt8) :
    Constant.WrittenAs (.blob bytes) (Value.blobLiteral bytes).toList := by
  have shape : (Value.blobLiteral bytes).toList =
      'X' :: '\x27' :: (Hex.ofBytes .upper bytes ++ ['\x27']) := by
    simp [Value.blobLiteral]
  rw [shape]
  exact .blob (quote_notMem_ofBytes _ _) (Hex.toBytes?_ofBytes _ _)

theorem written_decimal (d : Decimal) :
    Constant.WrittenAs (.number ⟨d.negative, d.mantissa, d.scale⟩) d.chars := by
  by_cases whole : d.scale = 0
  · have shape : d.chars = decimalChars d.negative (digits d.mantissa) [] := by
      simp [Decimal.chars, decimalChars, whole]
    rw [shape, whole]
    exact written_whole d.negative d.mantissa
  · have pos : 0 < d.scale := Nat.pos_of_ne_zero whole
    have length := length_paddedDigits pos
      (Nat.mod_lt d.mantissa (Nat.pow_pos (by decide) : 0 < 10 ^ d.scale))
    have nonempty := paddedDigits_ne_nil d.scale (d.mantissa % 10 ^ d.scale)
    have shape : d.chars = decimalChars d.negative (digits (d.mantissa / 10 ^ d.scale))
        (paddedDigits d.scale (d.mantissa % 10 ^ d.scale)) := by
      simp [Decimal.chars, decimalChars, whole, nonempty]
    have written : Constant.WrittenAs _ (decimalChars d.negative
        (digits (d.mantissa / 10 ^ d.scale)) (paddedDigits d.scale (d.mantissa % 10 ^ d.scale))) :=
      .number _ (digits_ne_nil _) (fun _ member => isDigit_of_mem_digits member)
        (fun _ member => isDigit_of_mem_paddedDigits member)
    rw [shape]
    rwa [digitsValue_parts pos, length] at written

theorem written_positional (negative : Bool) (d : Nat) (g : Int) :
    Constant.WrittenAs (.number (.positional negative d g))
      ((if negative then ['-'] else []) ++ positional d g) := by
  rw [positional_eq]
  exact .number negative (wholeDigits_ne_nil d g) (isDigit_of_mem_wholeDigits d g)
    (isDigit_of_mem_fractionDigits d g)

theorem written_floatText {f : BinaryFormat} {x : Binary f} (finite : x.magnitude < f.infinityCode) :
    Constant.WrittenAs (.number (.ofBinary x)) (floatText x).toList := by
  obtain ⟨negative, m, q, datum⟩ := Binary.datum_eq_finite finite
  unfold floatText Numeral.ofBinary
  simp only [datum, String.toList_ofList, finiteText]
  by_cases zero : m = 0
  · simp only [zero, if_true]
    have zeroDigits : digits 0 = ['0'] := rfl
    have written := written_whole negative 0
    rwa [decimalChars, if_pos rfl, List.append_nil, zeroDigits] at written
  · simp only [zero, if_false]
    exact written_positional negative _ _

/-- The literal of a plain value is the constant that the value is. -/
theorem written_literal {v : Value} (plain : v.IsPlain) :
    v.constant.WrittenAs v.literal.toList := by
  cases v with
  | null => exact .null
  | bool b =>
    cases b
    · exact written_ofInt 0
    · exact written_ofInt 1
  | char c =>
    have same : intText c.toNat = digits c.toNat := by simp [intText]
    change Constant.WrittenAs (.number (.ofInt c.toNat)) (String.ofList (digits c.toNat)).toList
    rw [String.toList_ofList, ← same]
    exact written_ofInt c.toNat
  | integer n | unsigned n =>
    change Constant.WrittenAs (.number (.ofInt n.val)) (String.ofList (intText n.val)).toList
    rw [String.toList_ofList]
    exact written_ofInt n.val
  | real x => exact written_floatText plain
  | text s => exact written_quote s
  | blob bytes => exact written_blobLiteral bytes
  | decimal d =>
    change Constant.WrittenAs (.number ⟨d.negative, d.mantissa, d.scale⟩)
      (String.ofList d.chars).toList
    rw [String.toList_ofList]
    exact written_decimal d
  | dateTime t => exact written_quote t.storedText
  | uuid u => exact written_quote u.text
  | raw sql => cases plain

/-- The literal of a plain value is read as the value. -/
theorem lexes_literal {v : Value} (plain : v.IsPlain) :
    Lexes Ends v.literal.toList [v.constant.token] :=
  (written_literal plain).token.lexes

end TypedSql
