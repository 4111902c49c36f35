import TypedSql.Cell.Read
import TypedSql.Proofs.Decimal.Reading
import TypedSql.Proofs.Numeric.Widening
import TypedSql.Proofs.Uuid
import TypedSql.Value.Stored

/-! Values that are stored in a cell and read back as what they were. Every type but that of dates is
restored whole: dates are stored without their fractions of a second. -/
namespace TypedSql

open Numeric Text

-- Powers of numbers are those of the core library.
attribute [local instance (high)] instPowNat

namespace ScalarType

/-- Equality of the values of a type. All NaNs count as one, and so do the zeros of a decimal with
one scale. -/
def Same : (type : ScalarType) → type.Carrier → type.Carrier → Prop
  | .single, x, y => Binary.Same x y
  | .double, x, y => Binary.Same x y
  | .decimal, x, y => x.SameQuantity y ∧ x.scale = y.scale
  | .bool, x, y | .char, x, y | .text, x, y | .bytes, x, y | .dateTime, x, y | .uuid, x, y => x = y
  | .int _, x, y => x = y

/-- A value has a cell unless it is an unsigned number beyond the signed ones. -/
def Storable : (type : ScalarType) → type.Carrier → Prop
  | .int .u64, n => n.val ≤ IntType.greatest .i64
  | _, _ => True

end ScalarType

namespace Cell

/-- The cell is what a value is stored as, and the value is what is read from it. -/
structure Holds (c : Cell) (type : ScalarType) (x : type.Carrier) : Prop where
  stored : (Value.ofScalar type x).stored = .ok c
  present : c ≠ .null
  read : ∃ y, readAs type c = .ok y ∧ type.Same x y

section Integers

variable {type : IntType} (n : MachineInt type)

/-- Every integer goes into a signed cell, as far as it fits. -/
theorem stored_ofInt : (Value.ofInt type n).stored = (MachineInt.ofInt .i64 n.val).map .integer := by
  have signed : ∀ m : MachineInt .i64, (Value.integer m).stored =
      (MachineInt.ofInt .i64 m.val).map .integer := by
    intro m
    rw [MachineInt.ofInt_val]
    rfl
  cases type with
  | u64 => rfl
  | i64 => exact signed n
  | i8 | i16 | i32 | u8 | u16 | u32 => exact signed (n.widen _ _)

theorem greatest_le (narrow : type ≠ .u64) : type.greatest ≤ IntType.greatest .i64 := by
  cases type with
  | u64 => exact absurd rfl narrow
  | i8 | i16 | i32 | i64 | u8 | u16 | u32 => decide

theorem val_le_of_storable (storable : ScalarType.Storable (.int type) n) :
    n.val ≤ IntType.greatest .i64 := by
  by_cases wide : type = .u64
  · subst wide
    exact storable
  · exact Int.le_trans n.le_greatest (greatest_le wide)

theorem holds_int (m : MachineInt .i64) (same : m.val = n.val) :
    (Cell.integer m).Holds (.int type) n where
  stored := by
    change (Value.ofInt type n).stored = .ok (.integer m)
    rw [stored_ofInt, ← same, MachineInt.ofInt_val]
    rfl
  present := nofun
  read := by
    have read : MachineInt.ofInt type m.val = .ok n := MachineInt.ofInt_eq_ok_iff.mpr same.symm
    refine ⟨n, ?_, rfl⟩
    change readInt type (.integer m) = .ok n
    rw [readInt, read]
    rfl

theorem exists_holds_int (le : n.val ≤ IntType.greatest .i64) :
    ∃ c : Cell, c.Holds (.int type) n := by
  obtain ⟨m, same, -⟩ := n.exists_signed le
  exact ⟨.integer m, holds_int n m same⟩

/-- Only the widest unsigned numbers do not fit, on the large side. -/
theorem stored_of_not_storable {type : ScalarType} {x : type.Carrier} (h : ¬type.Storable x) :
    (Value.ofScalar type x).stored = .error .tooLarge := by
  unfold ScalarType.Storable at h
  split at h
  case h_1 n =>
    have low : ¬n.val < IntType.least .i64 := Int.not_lt.mpr (Int.le_trans (by decide) n.least_le)
    have high : IntType.greatest .i64 < n.val := Int.not_le.mp h
    change (MachineInt.ofInt .i64 n.val).map Cell.integer = .error .tooLarge
    rw [MachineInt.ofInt, dif_neg low, dif_pos high]
    rfl
  case h_2 => exact absurd trivial h

end Integers

theorem holds_bool (b : Bool) : (Cell.integer (Value.ofBool b)).Holds .bool b where
  stored := rfl
  present := nofun
  read := ⟨b, by cases b <;> rfl, rfl⟩

theorem holds_char (c : Char) : (Cell.integer (Value.ofChar c)).Holds .char c where
  stored := rfl
  present := nofun
  read := by
    have valid : c.toNat.isValidChar := c.valid
    have same : Char.ofNat c.toNat = c := Char.ofNat_toNat c
    refine ⟨c, ?_, rfl⟩
    change codePoint (Value.ofChar c) = .ok c
    have code : (Value.ofChar c).val = c.toNat := rfl
    rw [codePoint, code, Int.toNat_natCast, if_pos ⟨Int.natCast_nonneg _, valid⟩, same]

theorem holds_single (x : Single) : (Cell.real (x.convert .double)).Holds .single x where
  stored := rfl
  present := nofun
  read := ⟨_, rfl, Binary.same_convert_convert x⟩

theorem holds_double (x : Double) : (Cell.real x).Holds .double x where
  stored := rfl
  present := nofun
  read := ⟨x, rfl, Or.inl rfl⟩

theorem holds_decimal (d : Decimal) : (Cell.text d.text).Holds .decimal d where
  stored := rfl
  present := nofun
  read := by
    refine ⟨d.withoutSignOfZero, ?_, d.sameQuantity_withoutSignOfZero, rfl⟩
    change readDecimal (.text d.text) = .ok _
    rw [readDecimal, Decimal.text, String.toList_ofList, Decimal.trimBlanks_chars,
      Decimal.read?_chars]

theorem holds_uuid (u : Uuid) : (Cell.text u.text).Holds .uuid u where
  stored := rfl
  present := nofun
  read := by
    refine ⟨u, ?_, rfl⟩
    change readUuid (.text u.text) = .ok u
    rw [readUuid, Uuid.text, String.toList_ofList, Uuid.read?_chars]

/-- Whatever has a cell is read from it again. -/
theorem exists_holds {type : ScalarType} (undated : type ≠ .dateTime) {x : type.Carrier}
    (storable : type.Storable x) : ∃ c : Cell, c.Holds type x := by
  cases type with
  | bool => exact ⟨_, holds_bool x⟩
  | int type => exact exists_holds_int x (val_le_of_storable x storable)
  | single => exact ⟨_, holds_single x⟩
  | double => exact ⟨_, holds_double x⟩
  | char => exact ⟨_, holds_char x⟩
  | text => exact ⟨.text x, rfl, nofun, x, rfl, rfl⟩
  | bytes => exact ⟨.blob x, rfl, nofun, x, rfl, rfl⟩
  | decimal => exact ⟨_, holds_decimal x⟩
  | dateTime => exact absurd rfl undated
  | uuid => exact ⟨_, holds_uuid x⟩

theorem readOptional_of_ne_null {α : Type} {read : Cell → Except ConversionError α} {c : Cell}
    (present : c ≠ .null) : readOptional read c = (read c).map some := by
  cases c with
  | null => exact absurd rfl present
  | integer | real | text | blob => rfl

/-- What is stored for a value is read as that value, and so it is when the value may be absent. No
other value is without a cell than an unsigned number that is too large for one. -/
theorem readAs_inverts_stored (type : ScalarType) (undated : type ≠ .dateTime) :
    (∀ x : type.Carrier, type.Storable x →
      ∃ c, (Value.ofScalar type x).stored = .ok c ∧
        (Value.ofOptional type (some x)).stored = .ok c ∧
        ∃ y, readAs type c = .ok y ∧ readOptional (readAs type) c = .ok (some y) ∧
          type.Same x y) ∧
    (∀ x : type.Carrier, ¬type.Storable x →
      (Value.ofScalar type x).stored = .error .tooLarge ∧
        (Value.ofOptional type (some x)).stored = .error .tooLarge) ∧
    ∃ c, (Value.ofOptional type none).stored = .ok c ∧
      readOptional (readAs type) c = .ok none := by
  refine ⟨?_, ?_, .null, rfl, rfl⟩
  · intro x storable
    obtain ⟨c, stored, present, y, read, same⟩ := exists_holds undated storable
    refine ⟨c, stored, stored, y, read, ?_, same⟩
    rw [readOptional_of_ne_null present, read]
    rfl
  · intro x large
    exact ⟨stored_of_not_storable large, stored_of_not_storable large⟩

/-- The greatest unsigned number with a cell, and the one above it. -/
theorem readAs_inverts_stored_at_limit :
    ∃ greatest above : MachineInt .u64,
      greatest.val = 9223372036854775807 ∧ above.val = 9223372036854775808 ∧
        ScalarType.int .u64 ≠ .dateTime ∧
        (∃ c, (Value.ofInt .u64 greatest).stored = .ok c ∧
          readOptional (readAs (.int .u64)) c = .ok (some greatest)) ∧
        (Value.ofInt .u64 above).stored = .error .tooLarge := by
  have undated : ScalarType.int .u64 ≠ .dateTime := nofun
  obtain ⟨restored, refused, -⟩ := readAs_inverts_stored (.int .u64) undated
  let greatest : MachineInt .u64 := ⟨9223372036854775807, by decide, by decide⟩
  let above : MachineInt .u64 := ⟨9223372036854775808, by decide, by decide⟩
  have storable : ScalarType.Storable (.int .u64) greatest := by
    change greatest.val ≤ IntType.greatest .i64
    decide
  have large : ¬ScalarType.Storable (.int .u64) above := by
    change ¬above.val ≤ IntType.greatest .i64
    decide
  refine ⟨greatest, above, rfl, rfl, undated, ?_, (refused above large).1⟩
  obtain ⟨c, stored, -, y, -, read, same⟩ := restored greatest storable
  obtain rfl : greatest = y := same
  exact ⟨c, stored, read⟩

end Cell

end TypedSql
