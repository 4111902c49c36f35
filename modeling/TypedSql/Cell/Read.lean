import TypedSql.Text.Blank
import TypedSql.Numeric.FloatText
import TypedSql.Decimal.Reader
import TypedSql.Decimal.OfBinary
import TypedSql.Calendar.DateTimeText
import TypedSql.Uuid
import TypedSql.ScalarType
import TypedSql.Cell.ConversionError

/-! Reading a cell as a value of a given type. Integers are read exactly: a number out of range or
with a fraction is an error, never rounded or wrapped. Text is read without the blanks around it
where a number is asked for. -/
namespace TypedSql.Cell

open Numeric Text

-- Powers of numbers are those of the core library.
attribute [local instance (high)] instPowNat

/-- The integer that a real is, as a value of an integer type. -/
def realToInt (type : IntType) (target : String) (x : Double) :
    Except ConversionError (MachineInt type) :=
  match x.datum with
  | .finite _ _ _ =>
    match x.datum.toInt? with
    | none => .error (.notIntegral x target)
    | some n =>
      if n < -2 ^ (127 : Nat) ∨ 2 ^ (127 : Nat) < n then .error (.realOutOfRange x target none)
      else (MachineInt.ofInt type n).mapError fun fault => .realOutOfRange x target (some fault)
  | _ => .error (.notFinite x target)

def readInt (type : IntType) : Cell → Except ConversionError (MachineInt type)
  | .null => .error .unexpectedNull
  | .integer n =>
    (MachineInt.ofInt type n.val).mapError fun fault => .integerOutOfRange n type.name fault
  | .real x => realToInt type type.name x
  | .text s =>
    (Numeric.readInt type (trimBlanks s.toList)).mapError fun fault =>
      .integerText s type.name fault
  | .blob _ => .error (.storageClass .blob type.name)

def readBinary (f : BinaryFormat) (target : String) : Cell → Except ConversionError (Binary f)
  | .null => .error .unexpectedNull
  | .integer n => .ok (.ofInt f n.val)
  | .real x => .ok (x.convert f)
  | .text s =>
    (readFloat f (trimBlanks s.toList)).mapError fun fault => .floatText s target fault
  | .blob _ => .error (.storageClass .blob target)

/-- A double is read from a real as it is, so the payload of a NaN stays. -/
def readDouble : Cell → Except ConversionError Double
  | .real x => .ok x
  | c => readBinary .double "f64" c

def readSingle : Cell → Except ConversionError Single := readBinary .single "f32"

/-- A number is true unless it is zero. -/
def readBool : Cell → Except ConversionError Bool
  | .null => .error .unexpectedNull
  | .integer n => .ok (n.val != 0)
  | .real x => .ok x.isNonzero
  | .text s =>
    let word := String.ofList (s.toList.map Char.toLower)
    if word = "true" ∨ word = "1" then .ok true
    else if word = "false" ∨ word = "0" then .ok false
    else .error (.text s "bool")
  | .blob _ => .error (.storageClass .blob "bool")

def codePoint (n : MachineInt .i64) : Except ConversionError Char :=
  if 0 ≤ n.val ∧ n.val.toNat.isValidChar then .ok (Char.ofNat n.val.toNat)
  else .error (.notCodePoint n)

def readChar : Cell → Except ConversionError Char
  | .null => .error .unexpectedNull
  | .integer n => codePoint n
  | .real x => (realToInt .i64 "char" x).bind codePoint
  | .text s =>
    match s.toList with
    | [c] => .ok c
    | _ => .error (.notSingleChar s)
  | .blob _ => .error (.storageClass .blob "char")

def readText : Cell → Except ConversionError String
  | .null => .error .unexpectedNull
  | .integer n => .ok (String.ofList (intText n.val))
  | .real x => .ok (floatText x)
  | .text s => .ok s
  | .blob bytes =>
    match Utf8.decode bytes with
    | .ok cs => .ok (String.ofList cs)
    | .error fault => .error (.blobText fault)

/-- The `count` lowest bytes of a number, the lowest first. -/
def littleEndian : Nat → Nat → List UInt8
  | 0, _ => []
  | count + 1, n => UInt8.ofNat n :: littleEndian count (n / 256)

/-- Numbers are read as their eight bytes, texts as their encoding. -/
def readBytes : Cell → Except ConversionError (List UInt8)
  | .null => .error .unexpectedNull
  | .integer n => .ok (littleEndian 8 (n.val % 2 ^ (64 : Nat)).toNat)
  | .real x => .ok (littleEndian 8 x.code)
  | .text s => .ok (Utf8.encode s.toList)
  | .blob bytes => .ok bytes

def integerDecimal (n : MachineInt .i64) : Decimal :=
  ⟨n.val < 0, n.val.natAbs, 0, by
    have low : (-2 ^ (63 : Nat) : Int) ≤ n.val := n.least_le
    have high : n.val ≤ 2 ^ (63 : Nat) - 1 := n.le_greatest
    omega, by decide⟩

def readDecimal : Cell → Except ConversionError Decimal
  | .null => .error .unexpectedNull
  | .integer n => .ok (integerDecimal n)
  | .real x =>
    match Decimal.ofDouble? x with
    | some d => .ok d
    | none => .error (.realOutOfRange x "Decimal" none)
  | .text s =>
    match Decimal.read? (trimBlanks s.toList) with
    | some d => .ok d
    | none => .error (.text s "Decimal")
  | .blob _ => .error (.storageClass .blob "Decimal")

def timestamp (n : MachineInt .i64) : Except ConversionError DateTime :=
  match DateTime.ofTimestamp? n.val with
  | some t => .ok t
  | none => .error (.timestamp n)

def readDateTime : Cell → Except ConversionError DateTime
  | .null => .error .unexpectedNull
  | .integer n => timestamp n
  | .real x => (realToInt .i64 "NaiveDateTime" x).bind timestamp
  | .text s =>
    match DateTime.read? s.toList with
    | some t => .ok t
    | none => .error (.dateTimeText s)
  | .blob _ => .error (.storageClass .blob "NaiveDateTime")

def readUuid : Cell → Except ConversionError Uuid
  | .null => .error .unexpectedNull
  | .integer _ => .error (.storageClass .integer "Uuid")
  | .real _ => .error (.storageClass .real "Uuid")
  | .text s =>
    match Uuid.read? s.toList with
    | some u => .ok u
    | none => .error (.text s "Uuid")
  | .blob bytes =>
    match Uuid.ofBytes? bytes with
    | some u => .ok u
    | none => .error .uuidSize

def readAs : (type : ScalarType) → Cell → Except ConversionError type.Carrier
  | .bool, c => readBool c
  | .int type, c => readInt type c
  | .single, c => readSingle c
  | .double, c => readDouble c
  | .char, c => readChar c
  | .text, c => readText c
  | .bytes, c => readBytes c
  | .decimal, c => readDecimal c
  | .dateTime, c => readDateTime c
  | .uuid, c => readUuid c

/-- Reads a value that may be absent: NULL is the absent one. -/
def readOptional {α : Type} (read : Cell → Except ConversionError α) :
    Cell → Except ConversionError (Option α)
  | .null => .ok none
  | c => (read c).map some

end TypedSql.Cell
