import TypedSql.Proofs.Cell.WriteBack
import TypedSql.Proofs.Definition.Faults
import TypedSql.Proofs.Definition.Lines
import TypedSql.Proofs.Value.Stored

/-! Defaults that are made from a value. The text behind `DEFAULT` is read as SQL does: it is a signed
whole number, a truth word or a text in double quotes. A default stands for its value if a column of
the value's category reads the value from the cell of this constant, and all do but those of
characters: a character is written as it is, where its column holds code points. -/
namespace TypedSql

open Numeric Text

namespace Sql

/-- Reads a text behind the double quote that opens it, to the end. Two double quotes in a row stand
for one. -/
def doubleQuoted? : List Char → Option (List Char)
  | [] => none
  | c :: rest =>
    if c = '"' then
      match rest with
      | [] => some []
      | '"' :: more => (doubleQuoted? more).map ('"' :: ·)
      | _ => none
    else (doubleQuoted? rest).map (c :: ·)

/-- A number without a fraction, and with at most one sign. -/
def wholeNumeral? (cs : List Char) : Option Numeral :=
  let digits := (splitSign cs).2
  if digits ≠ [] ∧ digits.all Char.isDigit then some ⟨(splitSign cs).1, digitsValue digits, 0⟩
  else none

/-- Truth words in letters of either case. -/
def truth? (cs : List Char) : Option Bool :=
  if cs.map Char.toUpper = "TRUE".toList then some true
  else if cs.map Char.toUpper = "FALSE".toList then some false
  else none

def bareCell? (cs : List Char) : Option Cell :=
  match wholeNumeral? cs with
  | some n => n.integer?.map .integer
  | none => (truth? cs).map fun b => .integer (Value.ofBool b)

/-- The cell of the constant that the whole of a text is. -/
def constantCell? : List Char → Option Cell
  | '"' :: rest => (doubleQuoted? rest).map fun s => .text (String.ofList s)
  | cs => bareCell? cs

theorem doubleQuoted?_append {cs : List Char} (inside : '"' ∉ cs) :
    doubleQuoted? (cs ++ ['"']) = some cs := by
  induction cs with
  | nil => rfl
  | cons c cs ih =>
    obtain ⟨other, rest⟩ := not_or.mp (List.mem_cons.not.mp inside)
    rw [List.cons_append]
    unfold doubleQuoted?
    rw [if_neg (Ne.symm other), ih rest, Option.map_some]

theorem constantCell?_quoted {s : String} (inside : '"' ∉ s.toList) :
    constantCell? ('"' :: (s.toList ++ ['"'])) = some (.text s) := by
  rw [constantCell?, doubleQuoted?_append inside, Option.map_some, String.ofList_toList]

theorem constantCell?_of_ne {cs : List Char} (bare : cs.head? ≠ some '"') :
    constantCell? cs = bareCell? cs := by
  unfold constantCell?
  split
  · exact absurd rfl bare
  · rfl

theorem wholeNumeral?_intText (n : Int) : wholeNumeral? (intText n) = some (.ofInt n) := by
  have shape : intText n = (if decide (n < 0) then ['-'] else []) ++ (digits n.natAbs ++ []) := by
    unfold intText
    split <;> simp_all
  have all : (digits n.natAbs).all Char.isDigit = true :=
    List.all_eq_true.mpr fun _ member => isDigit_of_mem_digits member
  rw [wholeNumeral?, shape, splitSign_append _ _ (digits_ne_nil _)
    fun _ member => isDigit_of_mem_digits member, List.append_nil]
  dsimp only
  rw [if_pos ⟨digits_ne_nil _, all⟩, digitsValue_digits]
  rfl

theorem isDigit_or_sign_of_mem_intText {n : Int} {c : Char} (h : c ∈ intText n) :
    c.isDigit = true ∨ c = '-' := by
  unfold intText at h
  split at h
  · rcases List.mem_cons.mp h with sign | digit
    · exact Or.inr sign
    · exact Or.inl (isDigit_of_mem_digits digit)
  · exact Or.inl (isDigit_of_mem_digits h)

/-- A number without a fraction is read as itself. -/
theorem constantCell?_intText (n : MachineInt .i64) :
    constantCell? (intText n.val) = some (.integer n) := by
  have bare : (intText n.val).head? ≠ some '"' := by
    intro first
    have member := isDigit_or_sign_of_mem_intText (List.mem_of_head? first)
    exact absurd member (by decide)
  rw [constantCell?_of_ne bare, bareCell?, wholeNumeral?_intText]
  dsimp only
  rw [Numeral.integer?_ofInt, Option.map_some]

section Characters

variable {c : Char}

theorem wholeNumeral?_of_isDigit (digit : c.isDigit = true) :
    wholeNumeral? [c] = some ⟨false, digitValue c, 0⟩ := by
  have value : digitsValue [c] = digitValue c := by
    rw [digitsValue, ofDigitChars_cons, Nat.mul_zero, Nat.zero_add]
    rfl
  rw [wholeNumeral?, splitSign_of_isDigit digit]
  simp [digit, value]

theorem wholeNumeral?_of_not_isDigit (other : ¬c.isDigit = true) : wholeNumeral? [c] = none := by
  have tail : (splitSign [c]).2 = [] ∨ (splitSign [c]).2 = [c] := by
    unfold splitSign
    split <;> simp_all
  refine if_neg ?_
  rcases tail with empty | single
  · exact fun number => number.1 empty
  · rw [single]
    simp [other]

/-- The code of a digit lies beyond its value, so the column of a digit holds another character. -/
theorem digitValue_lt_of_isDigit (digit : c.isDigit = true) :
    digitValue c < 10 ∧ digitValue c < c.toNat := by
  obtain ⟨low, high⟩ := Char.isDigit_iff_toNat.mp digit
  have low : 48 ≤ c.toNat := low
  have high : c.toNat ≤ 57 := high
  have value : digitValue c = c.toNat - 48 := rfl
  omega

/-- A character in place of a constant: a digit is the number of that digit, and nothing else is a
constant. -/
theorem constantCell?_char (c : Char) :
    constantCell? [c] =
      if c.isDigit then (Numeral.integer? ⟨false, digitValue c, 0⟩).map .integer else none := by
  by_cases quote : c = '"'
  · subst quote
    rfl
  · have bare : [c].head? ≠ some '"' := fun same => quote (Option.some.inj same)
    have truth : truth? [c] = none := by simp [truth?]
    rw [constantCell?_of_ne bare, bareCell?, truth]
    by_cases digit : c.isDigit = true
    · rw [wholeNumeral?_of_isDigit digit, if_pos digit]
    · rw [wholeNumeral?_of_not_isDigit digit, if_neg digit]
      rfl

end Characters

theorem Numeral.val_of_integer? {n : Numeral} {m : MachineInt .i64} (h : n.integer? = some m) :
    m.val = if n.negative then -(n.digits : Int) else n.digits := by
  apply MachineInt.ofInt_eq_ok_iff.mp
  unfold integer? at h
  split at h
  · cases fits : MachineInt.ofInt .i64 (if n.negative then -n.digits else n.digits) with
    | ok k =>
      rw [fits] at h
      exact congrArg Except.ok (Option.some.inj h)
    | error fault =>
      rw [fits] at h
      cases h
  · cases h

end Sql

open Sql

/-- The types whose defaults are each written as one constant. -/
def ScalarType.constantTypes : List ScalarType :=
  [.bool, .int .i8, .int .i16, .int .i32, .int .i64, .char, .decimal, .text]

/-- A text stands for a value: it is a constant, and a column of the category of the value reads the
value from the cell of the constant. -/
def StandsFor (constant : String) (type : ScalarType) (x : type.Carrier) : Prop :=
  ∃ cell y, constantCell? constant.toList = some cell ∧
    Cell.read type.category cell = .ok (Value.ofScalar type y) ∧ type.Same x y

section Values

variable {constant : String} {cell : Cell}

theorem standsFor_of_holds {type : ScalarType} {x : type.Carrier}
    (typed : type.category.readType? = some type) (held : cell.Holds type x)
    (read : constantCell? constant.toList = some cell) : StandsFor constant type x := by
  obtain ⟨y, restored, same⟩ := held.read
  refine ⟨cell, y, read, ?_, same⟩
  rw [Cell.read_of_ne_null held.present, typed]
  dsimp only
  rw [restored]
  rfl

/-- Signed integers are constants as they are written. -/
theorem standsFor_int {type : IntType} (signed : type.isSigned = true) (n : MachineInt type) :
    StandsFor (String.ofList (intText n.val)) (.int type) n := by
  have narrow : n.val ≤ IntType.greatest .i64 := by
    refine Int.le_trans n.le_greatest (Cell.greatest_le ?_)
    rintro rfl
    cases signed
  obtain ⟨m, same, -⟩ := n.exists_signed narrow
  have read : constantCell? (String.ofList (intText n.val)).toList = some (.integer m) := by
    rw [String.toList_ofList, ← same]
    exact constantCell?_intText m
  cases type with
  | i8 =>
    -- A column of the narrowest integers is not read as any type: the cell is the value.
    obtain ⟨value, low, high⟩ := m
    subst same
    exact ⟨_, n, read, rfl, rfl⟩
  | i16 | i32 | i64 => exact standsFor_of_holds rfl (Cell.holds_int n m same) read
  | u8 | u16 | u32 | u64 => cases signed

theorem standsFor_bool (b : Bool) : StandsFor (if b then "true" else "false") .bool b := by
  apply standsFor_of_holds rfl (Cell.holds_bool b)
  cases b <;> decide

/-- No character is its own constant, not even a digit. -/
theorem not_standsFor_char (c : Char) : ¬StandsFor (String.ofList [c]) .char c := by
  rintro ⟨cell, y, constant, read, same⟩
  obtain rfl : c = y := same
  rw [String.toList_ofList, constantCell?_char] at constant
  split at constant
  case isFalse => cases constant
  case isTrue digit =>
    obtain ⟨n, value, rfl⟩ := Option.map_eq_some_iff.mp constant
    have value : n.val = digitValue c := Numeral.val_of_integer? value
    obtain ⟨small, less⟩ := digitValue_lt_of_isDigit digit
    have point : Cell.codePoint n = .ok c := by
      obtain ⟨d, point, same⟩ := map_eq_ok_iff.mp (read : (Cell.codePoint n).map Value.char = _)
      rwa [← Value.char.inj same]
    have code : Char.ofNat n.val.toNat = c := by
      unfold Cell.codePoint at point
      split at point
      · exact Except.ok.inj point
      · cases point
    have codes : ∀ k < 10, (Char.ofNat k).toNat = k := by decide
    have same := codes n.val.toNat (by omega)
    rw [code] at same
    omega

theorem toList_render_quoted (text : String) :
    (DefaultClause.render ⟨text, true⟩).toList = '"' :: (text.toList ++ ['"']) := by
  rw [DefaultClause.render, if_pos rfl, String.toList_append, String.toList_append]
  rfl

theorem standsFor_text {s : String} (inside : '"' ∉ s.toList) :
    StandsFor (DefaultClause.render ⟨s, true⟩) .text s := by
  refine ⟨.text s, s, ?_, rfl, rfl⟩
  rw [toList_render_quoted]
  exact constantCell?_quoted inside

theorem standsFor_decimal (d : Decimal) :
    StandsFor (DefaultClause.render ⟨d.text, true⟩) .decimal d := by
  apply standsFor_of_holds rfl (Cell.holds_decimal d)
  rw [toList_render_quoted]
  apply constantCell?_quoted
  rw [Decimal.text, String.toList_ofList]
  exact fun member => absurd (d.eq_sign_or_point_of_mem_chars _ member) (by decide)

/-- Of the defaults of these types only those of characters stand for something else. -/
theorem standsFor_form_iff {type : ScalarType} {x : type.Carrier} {d : DefaultValue}
    (listed : type ∈ ScalarType.constantTypes) (made : DefaultValue.ofScalar? type x = some d)
    (inside : type = .text → '"' ∉ d.text.toList) :
    StandsFor d.form.render type x ↔ type ≠ .char := by
  obtain ⟨text, shown, rfl⟩ := Option.map_eq_some_iff.mp made
  simp only [ScalarType.constantTypes, List.mem_cons, List.not_mem_nil, or_false] at listed
  rcases listed with rfl | rfl | rfl | rfl | rfl | rfl | rfl | rfl <;> cases shown
  · exact iff_of_true (standsFor_bool x) nofun
  · exact iff_of_true (standsFor_int rfl x) nofun
  · exact iff_of_true (standsFor_int rfl x) nofun
  · exact iff_of_true (standsFor_int rfl x) nofun
  · exact iff_of_true (standsFor_int rfl x) nofun
  · exact iff_of_false (not_standsFor_char x) fun other => other rfl
  · exact iff_of_true (standsFor_decimal x) nofun
  · exact iff_of_true (standsFor_text (inside rfl)) nofun

end Values

/-- The types of these values, as those of a column and of its default, can all be written. -/
theorem Column.fault?_of_ofScalar? {c : Column} {type : ScalarType} {x : type.Carrier}
    {d : DefaultValue} (listed : type ∈ ScalarType.constantTypes)
    (made : DefaultValue.ofScalar? type x = some d) (typed : c.category = type.category)
    (given : c.default = some d) : c.fault? = none := by
  have stored : ∀ type ∈ ScalarType.constantTypes, type.category.affinity? ≠ none := by decide
  have column : c.typeFault? false = none := by
    rw [typeFault?_eq_none_iff, typed]
    exact ⟨stored type listed, fun strict => absurd strict Bool.false_ne_true⟩
  have default : c.defaultFault? = none := by
    rw [defaultFault?_eq_none_iff, given]
    obtain ⟨_, -, rfl⟩ := Option.map_eq_some_iff.mp made
    exact fun _ same => Option.some.inj same ▸ stored type listed
  rw [fault?, column, default, Option.none_or]

namespace ColumnDefinition

/-- The definition ends in a default of this text. -/
def WritesDefault (line : ColumnDefinition) (constant : String) : Prop :=
  line.render = { line with default := none }.render ++ " DEFAULT " ++ constant

variable {c : Column} {isKey : Bool} {line : ColumnDefinition} {d : DefaultValue}

theorem writesDefault_of_ofColumn (given : c.default = some d) (made : ofColumn c isKey = .ok line) :
    line.WritesDefault d.form.render := by
  have written : line.default = c.default.map DefaultValue.form :=
    congrArg ColumnForm.default (ofColumn_eq_ok made).1
  rw [given, Option.map_some] at written
  simp [WritesDefault, render, written, String.append_assoc]

end ColumnDefinition

namespace Table

/-- Each column has a line in the statement. -/
theorem exists_line_of_createText {t : Table} {options : CreateOptions} {text : String} {c : Column}
    (member : c ∈ t.columns) (written : t.createText options = .ok text) :
    ∃ s line, CreateTable.ofSchema t options = .ok s ∧ s.render = text ∧
      .column line ∈ s.definitions ∧
      ColumnDefinition.ofColumn c (t.hasSingleKey && c.primaryKey) = .ok line := by
  obtain ⟨s, made, rfl⟩ := createText_eq_ok_iff.mp written
  obtain ⟨ds, defined, rfl⟩ := CreateTable.exists_columnDefinitions made
  have lines := CreateTable.defines_columnDefinitions defined
  obtain ⟨line, included, found⟩ := CreateTable.exists_line_of_mem lines member
  exact ⟨_, line, made, rfl, List.mem_append_left _ included, found⟩

variable {type : ScalarType} {x : type.Carrier} {d : DefaultValue} {c : Column}

/-- A column whose default is made from a value of its category has a definition, and every statement
that is written for a table with this column says the default. It stands for the value unless the
value is a character. -/
theorem createText_default_standsFor_iff (listed : type ∈ ScalarType.constantTypes)
    (made : DefaultValue.ofScalar? type x = some d) (inside : type = .text → '"' ∉ d.text.toList)
    (typed : c.category = type.category) (given : c.default = some d) :
    (∀ isKey, ∃ line, ColumnDefinition.ofColumn c isKey = .ok line) ∧
    (∀ (t : Table) (options : CreateOptions) (text : String), c ∈ t.columns →
      t.createText options = .ok text → ∃ s line, CreateTable.ofSchema t options = .ok s ∧
        s.render = text ∧ .column line ∈ s.definitions ∧
        ColumnDefinition.ofColumn c (t.hasSingleKey && c.primaryKey) = .ok line ∧
        line.WritesDefault d.form.render) ∧
    (StandsFor d.form.render type x ↔ type ≠ .char) := by
  have sound : c.fault? = none := Column.fault?_of_ofScalar? listed made typed given
  refine ⟨ColumnDefinition.exists_ofColumn sound, ?_, standsFor_form_iff listed made inside⟩
  intro t options text member written
  obtain ⟨s, line, created, same, included, found⟩ := exists_line_of_createText member written
  have default := ColumnDefinition.writesDefault_of_ofColumn given found
  exact ⟨s, line, created, same, included, found, default⟩

def refund : Decimal := ⟨true, 950, 2, by decide, by decide⟩

/-- Prices, refunds unless told otherwise. -/
def priceColumn : Column :=
  { Column.plain "price" ⟨.decimal, true⟩ with default := some ⟨"-9.50", .decimal⟩ }

theorem createText_default_standsFor_iff_price :
    StandsFor "\"-9.50\"" .decimal refund ∧
      ∀ (t : Table) (options : CreateOptions) (text : String), priceColumn ∈ t.columns →
        t.createText options = .ok text → ∃ (s : CreateTable) (line : ColumnDefinition),
          s.render = text ∧ .column line ∈ s.definitions ∧ line.WritesDefault "\"-9.50\"" := by
  have listed : .decimal ∈ ScalarType.constantTypes := by decide
  have made : DefaultValue.ofScalar? .decimal refund = some ⟨"-9.50", .decimal⟩ := by rfl
  have typed : priceColumn.category = ScalarType.decimal.category := rfl
  obtain ⟨-, written, stands⟩ := createText_default_standsFor_iff listed made nofun typed rfl
  refine ⟨stands.mpr nofun, fun t options text member created => ?_⟩
  obtain ⟨s, line, -, same, included, -, default⟩ := written t options text member created
  exact ⟨s, line, same, included, default⟩

/-- Grades are single characters, a seven unless told otherwise. -/
def gradeSteps : List TableStep :=
  [.column { Column.plain "grade" ⟨.char, false⟩ with default := some ⟨"7", .char⟩ }]

/-- A seven as a character has the number seven as its default, the code point of another. -/
theorem exists_built_default_not_standsFor :
    ∃ t, build "t" gradeSteps = .ok t ∧
      t.createText .none = .ok "CREATE TABLE `t` (\n\t`grade` INTEGER NOT NULL DEFAULT 7\n);" ∧
      DefaultValue.ofScalar? .char '7' = some ⟨"7", .char⟩ ∧
      (∃ cell, constantCell? "7".toList = some cell ∧ Cell.read .char cell = .ok (.char '\x07')) ∧
      ¬StandsFor "7" .char '7' :=
  ⟨described "t" gradeSteps, by rfl, by rfl, rfl, ⟨.integer ⟨7, by decide, by decide⟩, by rfl, by rfl⟩,
    not_standsFor_char '7'⟩

end Table

end TypedSql
