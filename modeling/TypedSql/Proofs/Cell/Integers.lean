import TypedSql.Cell.Read
import TypedSql.Proofs.Numeric.Integers
import TypedSql.Proofs.Outcome
import TypedSql.Proofs.Text.Trim

/-! Integers read from cells. A cell is an integer by its text, by its number or by the exact value of
its real, and it reads as that integer if the type has it. No other cell reads: there is no wrapping,
no rounding and no nearest number at the end of a range. -/
namespace TypedSql

open Numeric Text

-- Powers of numbers are those of the core library.
attribute [local instance (high)] instPowNat

/-- The types whose values are integers in a cell: numbers, code points and seconds. -/
def ScalarType.IsIntegral : ScalarType → Prop
  | .int _ | .char | .dateTime => True
  | _ => False

namespace Cell

/-- The integer that a cell is. Its text counts without the blanks around it, and the signs that a
numeral may have are those of the type. -/
inductive IsInteger (type : IntType) : Cell → ℤ → Prop
  | integer (n : MachineInt .i64) : IsInteger type (.integer n) n.val
  | real {x : Double} {n : ℤ} (exact : x.datum.value? = some (n : ℚ)) : IsInteger type (.real x) n
  | text {s : String} {core : List Char} {n : ℤ} (trimmed : TrimsTo isBlank s.toList core)
      (numeral : type.IsNumeral core n) : IsInteger type (.text s) n

theorem isInteger_integer_iff {type : IntType} {i : MachineInt .i64} {n : ℤ} :
    IsInteger type (.integer i) n ↔ i.val = n :=
  ⟨fun | .integer _ => rfl, fun same => same ▸ .integer i⟩

theorem isInteger_real_iff {type : IntType} {x : Double} {n : ℤ} :
    IsInteger type (.real x) n ↔ x.datum.value? = some (n : ℚ) :=
  ⟨fun | .real exact => exact, .real⟩

section Reals

variable {type : IntType} {target : String} {x : Double}

/-- No type reaches as far as the numbers of 128 bits. -/
theorem not_beyond (n : MachineInt type) :
    ¬(n.val < -2 ^ (127 : Nat) ∨ 2 ^ (127 : Nat) < n.val) := by
  have least : -2 ^ (127 : Nat) ≤ type.least := by cases type <;> decide
  have greatest : type.greatest ≤ 2 ^ (127 : Nat) := by cases type <;> decide
  have low := n.least_le
  have high := n.le_greatest
  omega

/-- A real is read as the integer that its value is. -/
theorem realToInt_eq_ok_iff {n : MachineInt type} :
    realToInt type target x = .ok n ↔ x.datum.value? = some (n.val : ℚ) := by
  rw [← Datum.toInt?_eq_some_iff]
  unfold realToInt
  cases datum : x.datum with
  | nan | infinite => exact ⟨nofun, nofun⟩
  | finite negative m q =>
    cases value : (Datum.finite negative m q).toInt? with
    | none => exact ⟨nofun, nofun⟩
    | some k =>
      simp only [Option.some.injEq]
      constructor
      · intro read
        split at read
        · cases read
        · exact (MachineInt.ofInt_eq_ok_iff.mp (mapError_eq_ok_iff.mp read)).symm
      · rintro rfl
        rw [if_neg (not_beyond n), MachineInt.ofInt_val]
        rfl

theorem exists_realToInt_eq_error (other : ∀ n : MachineInt type, x.datum.value? ≠ some (n.val : ℚ)) :
    ∃ e, realToInt type target x = .error e := by
  cases read : realToInt type target x with
  | error e => exact ⟨e, rfl⟩
  | ok n => exact absurd (realToInt_eq_ok_iff.mp read) (other n)

end Reals

section Integers

variable {type : IntType} {n : MachineInt type} {c : Cell}

theorem readInt_eq_ok_iff : readInt type c = .ok n ↔ c.IsInteger type n.val := by
  cases c with
  | null | blob => exact ⟨nofun, nofun⟩
  | integer i =>
    rw [readInt, mapError_eq_ok_iff, MachineInt.ofInt_eq_ok_iff, isInteger_integer_iff, eq_comm]
  | real x => rw [readInt, realToInt_eq_ok_iff, isInteger_real_iff]
  | text s =>
    rw [readInt, mapError_eq_ok_iff, Numeric.readInt_eq_ok_iff]
    constructor
    · exact .text (trimBoth_eq_iff.mp rfl)
    · rintro (_ | _ | ⟨trimmed, numeral⟩)
      rwa [trimBlanks, trimBoth_eq_iff.mpr trimmed]

/-- A cell reads as the integer that it is, if the type has the integer. -/
theorem exists_readInt_iff {k : ℤ} :
    (∃ m : MachineInt type, m.val = k ∧ readInt type c = .ok m) ↔
      type.least ≤ k ∧ k ≤ type.greatest ∧ c.IsInteger type k := by
  simp only [readInt_eq_ok_iff]
  constructor
  · rintro ⟨m, rfl, is⟩
    exact ⟨m.least_le, m.le_greatest, is⟩
  · rintro ⟨low, high, is⟩
    exact ⟨⟨k, low, high⟩, rfl, is⟩

theorem exists_readInt_eq_error_iff :
    (∃ e, readInt type c = .error e) ↔
      ∀ k, type.least ≤ k → k ≤ type.greatest → ¬c.IsInteger type k := by
  constructor
  · rintro ⟨e, failed⟩ k low high is
    obtain ⟨m, -, read⟩ := exists_readInt_iff.mpr ⟨low, high, is⟩
    rw [failed] at read
    cases read
  · intro none
    cases read : readInt type c with
    | error e => exact ⟨e, rfl⟩
    | ok m => exact absurd (readInt_eq_ok_iff.mp read) (none m.val m.least_le m.le_greatest)

end Integers

section RealsAsIntegers

variable {type : ScalarType} {x : Double} {i : MachineInt .i64}

/-- A real reads as the integer of 64 bits that it is. -/
theorem readAs_real_eq_ok_iff (integral : type.IsIntegral) (exact : x.datum.value? = some (i.val : ℚ))
    {y : type.Carrier} : readAs type (.real x) = .ok y ↔ readAs type (.integer i) = .ok y := by
  have read : ∀ target, realToInt .i64 target x = .ok i := fun _ => realToInt_eq_ok_iff.mpr exact
  cases type with
  | int type =>
    rw [readAs, readAs, readInt_eq_ok_iff, readInt_eq_ok_iff, isInteger_real_iff,
      isInteger_integer_iff, exact, Option.some.injEq, Int.cast_inj]
  | char => rw [readAs, readAs, readChar, readChar, read]; rfl
  | dateTime => rw [readAs, readAs, readDateTime, readDateTime, read]; rfl
  | bool | single | double | text | bytes | decimal | uuid => exact integral.elim

/-- A real that is no integer of 64 bits is not read, but that an unsigned one of 64 bits may be
greater than the signed ones. -/
theorem readAs_real_eq_error (integral : type.IsIntegral)
    (other : ∀ i : MachineInt .i64, x.datum.value? ≠ some (i.val : ℚ)) :
    (∃ e, readAs type (.real x) = .error e) ∨
      type = .int .u64 ∧ ∃ n : ℤ, IntType.greatest .i64 < n ∧ n ≤ IntType.greatest .u64 ∧
        x.datum.value? = some (n : ℚ) := by
  have unread : ∀ target, ∃ e, realToInt .i64 target x = .error e :=
    fun _ => exists_realToInt_eq_error other
  cases type with
  | int type =>
    cases read : readInt type (.real x) with
    | error e => exact Or.inl ⟨e, read⟩
    | ok n =>
      have value : x.datum.value? = some (n.val : ℚ) := realToInt_eq_ok_iff.mp read
      have least : IntType.least .i64 ≤ type.least := by cases type <;> decide
      have greater : IntType.greatest .i64 < n.val := by
        by_contra le
        exact other ⟨n.val, Int.le_trans least n.least_le, Int.not_lt.mp le⟩ value
      have wide : type = .u64 := by
        by_contra narrow
        have le : type.greatest ≤ IntType.greatest .i64 := by
          cases type with
          | u64 => exact absurd rfl narrow
          | i8 | i16 | i32 | i64 | u8 | u16 | u32 => decide
        exact absurd (Int.le_trans n.le_greatest le) (Int.not_le.mpr greater)
      subst wide
      exact Or.inr ⟨rfl, n.val, greater, n.le_greatest, value⟩
  | char =>
    obtain ⟨e, failed⟩ := unread "char"
    exact Or.inl ⟨e, by rw [readAs, readChar, failed]; rfl⟩
  | dateTime =>
    obtain ⟨e, failed⟩ := unread "NaiveDateTime"
    exact Or.inl ⟨e, by rw [readAs, readDateTime, failed]; rfl⟩
  | bool | single | double | text | bytes | decimal | uuid => exact integral.elim

end RealsAsIntegers

/-- Integers are read exactly. A cell reads as an integer of a type if and only if the integer is in
the range of the type and is the one that the cell is; if there is none such, reading is an error.
Code points and seconds are integers of 64 bits: where they are asked for, or numbers, a real that is
such an integer is read if and only if the integer is, and as the same, and every other real is an
error. Only as an unsigned number of 64 bits can a real be read that is greater than the signed
ones. -/
theorem readAs_integer_exact :
    (∀ (type : IntType) (c : Cell),
      (∀ k, (∃ m : MachineInt type, m.val = k ∧ readAs (.int type) c = .ok m) ↔
        type.least ≤ k ∧ k ≤ type.greatest ∧ c.IsInteger type k) ∧
      ((∃ e, readAs (.int type) c = .error e) ↔
        ∀ k, type.least ≤ k → k ≤ type.greatest → ¬c.IsInteger type k)) ∧
    ∀ (type : ScalarType) (x : Double), type.IsIntegral →
      (∀ i : MachineInt .i64, x.datum.value? = some (i.val : ℚ) →
        ∀ y, readAs type (.real x) = .ok y ↔ readAs type (.integer i) = .ok y) ∧
      ((∀ i : MachineInt .i64, x.datum.value? ≠ some (i.val : ℚ)) →
        (∃ e, readAs type (.real x) = .error e) ∨
          type = .int .u64 ∧ ∃ n : ℤ, IntType.greatest .i64 < n ∧ n ≤ IntType.greatest .u64 ∧
            x.datum.value? = some (n : ℚ)) :=
  ⟨fun _ _ => ⟨fun _ => exists_readInt_iff, exists_readInt_eq_error_iff⟩,
    fun _ _ integral => ⟨fun _ exact _ => readAs_real_eq_ok_iff integral exact,
      readAs_real_eq_error integral⟩⟩

/-- A sign, zeros and blanks around them, the real that is the code point of a letter, and the real
just above the signed numbers of 64 bits. -/
theorem readAs_integer_exact_borders :
    let letter : Double := ⟨0x4050400000000000, by decide⟩
    let beyond : Double := ⟨0x43E0000000000000, by decide⟩
    (∃ m : MachineInt .u8, m.val = 42 ∧ readAs (.int .u8) (.text " +0042\t") = .ok m) ∧
      letter.datum.value? = some ((65 : ℤ) : ℚ) ∧ readAs .char (.real letter) = .ok 'A' ∧
      (∀ i : MachineInt .i64, beyond.datum.value? ≠ some (i.val : ℚ)) ∧
      ∃ e, readAs .dateTime (.real beyond) = .error e := by
  obtain ⟨cells, reals⟩ := readAs_integer_exact
  intro letter beyond
  let i : MachineInt .i64 := ⟨65, by decide, by decide⟩
  have trimmed : TrimsTo isBlank " +0042\t".toList "+0042".toList := trimBoth_eq_iff.mp rfl
  have numeral : IntType.IsNumeral .u8 "+0042".toList 42 :=
    .plus (List.cons_ne_nil _ _) (List.all_eq_true.mp rfl)
  have letterValue : letter.datum.value? = some ((65 : ℤ) : ℚ) :=
    Datum.toInt?_eq_some_iff.mp (by decide)
  have beyondValue : beyond.datum.value? = some ((2 ^ (63 : Nat) : ℤ) : ℚ) :=
    Datum.toInt?_eq_some_iff.mp (by decide)
  have other : ∀ i : MachineInt .i64, beyond.datum.value? ≠ some (i.val : ℚ) := by
    intro i same
    rw [beyondValue, Option.some.injEq, Int.cast_inj] at same
    have high : i.val ≤ 2 ^ (63 : Nat) - 1 := i.le_greatest
    omega
  refine ⟨?_, letterValue, ?_, other, ?_⟩
  · exact ((cells .u8 (.text " +0042\t")).1 42).mpr ⟨by decide, by decide, .text trimmed numeral⟩
  · exact ((reals .char letter trivial).1 i letterValue 'A').mpr rfl
  · exact ((reals .dateTime beyond trivial).2 other).resolve_right nofun

end Cell

end TypedSql
