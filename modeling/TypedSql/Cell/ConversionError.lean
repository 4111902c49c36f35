import TypedSql.Numeric.FloatText
import TypedSql.Text.Utf8
import TypedSql.Cell.Basic

/-! Why a cell does not read as a value of the type asked for. -/
namespace TypedSql

open Numeric Text

/-- The causes. `target` is the name of the type asked for. -/
inductive ConversionError where
  | unexpectedNull
  | storageClass (found : StorageClass) (target : String)
  | integerOutOfRange (n : MachineInt .i64) (target : String) (fault : RangeFault)
  | integerText (s : String) (target : String) (fault : IntTextFault)
  | floatText (s : String) (target : String) (fault : FloatTextFault)
  | text (s : String) (target : String)
  | notFinite (x : Double) (target : String)
  | notIntegral (x : Double) (target : String)
  /-- Without a fault the number lies beyond all integers of 128 bits. -/
  | realOutOfRange (x : Double) (target : String) (fault : Option RangeFault)
  | notCodePoint (n : MachineInt .i64)
  | notSingleChar (s : String)
  | blobText (fault : Utf8.Fault)
  | uuidSize
  | timestamp (n : MachineInt .i64)
  | dateTimeText (s : String)
  | inColumn (name : String) (cause : ConversionError)
  deriving DecidableEq, Repr

namespace ConversionError

private def shownInt (n : MachineInt .i64) : String := String.ofList (intText n.val)

def message : ConversionError → String
  | .unexpectedNull => "unexpected NULL value"
  | .storageClass found target => "cannot convert " ++ found.keyword ++ " to " ++ target
  | .integerOutOfRange n target fault =>
    "i64 " ++ shownInt n ++ " out of range for " ++ target ++ ": " ++ fault.message
  | .integerText s target fault =>
    "cannot parse '" ++ s ++ "' as " ++ target ++ ": " ++ fault.message
  | .floatText s target fault =>
    "cannot parse '" ++ s ++ "' as " ++ target ++ ": " ++ fault.message
  | .text s target => "cannot parse '" ++ s ++ "' as " ++ target
  | .notFinite x target =>
    "cannot convert non-finite REAL " ++ Numeric.floatText x ++ " to " ++ target
  | .notIntegral x target =>
    "cannot convert non-integer REAL " ++ Numeric.floatText x ++ " to " ++ target
  | .realOutOfRange x target none =>
    "REAL " ++ Numeric.floatText x ++ " out of range for " ++ target
  | .realOutOfRange x target (some fault) =>
    "REAL " ++ Numeric.floatText x ++ " out of range for " ++ target ++ ": " ++ fault.message
  | .notCodePoint n => shownInt n ++ " is not a valid char code point"
  | .notSingleChar s => "cannot read '" ++ s ++ "' as a single char"
  | .blobText fault => "invalid UTF-8 in BLOB: " ++ fault.message
  | .uuidSize => "invalid Uuid BLOB"
  | .timestamp n => "timestamp " ++ shownInt n ++ " out of range"
  | .dateTimeText s => "cannot parse '" ++ s ++ "' as a date/time"
  | .inColumn name cause => "column `" ++ name ++ "`: " ++ cause.message

end ConversionError

end TypedSql
