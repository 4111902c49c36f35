import TypedSql.Proofs.Value.Literal
import TypedSql.Value.Stored

/-! A value in the text of a statement and the same value as a parameter. SQL reads the literal as the
very cell that the parameter carries, so the two ways to give a value never differ. -/
namespace TypedSql

open Numeric Text

namespace Sql

/-- The signed integer that a numeral is. One with places behind a point is none. -/
def Numeral.integer? (n : Numeral) : Option (MachineInt .i64) :=
  if n.places = 0 then
    (MachineInt.ofInt .i64 (if n.negative then -n.digits else n.digits)).toOption
  else none

/-- The cell that a token is a literal of. -/
def Token.cell? : Token → Option Cell
  | .keyword .null => some .null
  | .number n => n.integer?.map .integer
  | .text s => some (.text s)
  | .blob bytes => some (.blob bytes)
  | _ => none

/-- Reads a literal from the front of a text: NULL, a signed integer, a quoted text or a blob. -/
def literal? (cs : List Char) : Option (Cell × List Char) :=
  (Token.first? cs).bind fun (t, rest) => t.cell?.map (·, rest)

theorem Token.WrittenAs.literal?_eq {t : Token} {cs rest : List Char} {c : Cell}
    (written : t.WrittenAs cs) (cell : t.cell? = some c) (after : Ends rest) :
    literal? (cs ++ rest) = some (c, rest) := by
  rw [literal?, written rest after, Option.bind_some]
  exact congrArg (Option.map (·, rest)) cell

theorem Numeral.integer?_ofInt (n : MachineInt .i64) : (ofInt n.val).integer? = some n := by
  have restored : (if decide (n.val < 0) = true then -(n.val.natAbs : Int) else n.val.natAbs) =
      n.val := by
    split
    case isTrue negative =>
      have : n.val < 0 := of_decide_eq_true negative
      omega
    case isFalse nonnegative =>
      have : ¬n.val < 0 := fun negative => nonnegative (decide_eq_true negative)
      omega
  rw [integer?, ofInt, if_pos rfl, restored, MachineInt.ofInt_val]
  rfl

end Sql

open Sql

namespace Value

/-- A value whose literal SQL reads as the cell of the value. A real without a fraction is written
like an integer, a decimal is stored as a text, a raw value is whatever it says, and the widest
unsigned numbers have no cell. -/
def IsExact : Value → Prop
  | .real _ | .decimal _ | .raw _ => False
  | .unsigned n => n.val ≤ IntType.greatest .i64
  | _ => True

/-- A value and its cell have the same literal. -/
theorem exists_stored {v : Value} (exact : v.IsExact) :
    ∃ c, v.stored = .ok c ∧ c.storageClass ≠ .real ∧ v.literal = (ofCell c).literal := by
  cases v with
  | bool b =>
    refine ⟨.integer (ofBool b), rfl, nofun, ?_⟩
    cases b <;> rfl
  | char c =>
    refine ⟨.integer (ofChar c), rfl, nofun, ?_⟩
    have same : intText (ofChar c).val = digits c.toNat :=
      if_neg (Int.not_lt.mpr (Int.natCast_nonneg c.toNat))
    exact congrArg String.ofList same.symm
  | unsigned n =>
    obtain ⟨m, same, signed⟩ := n.exists_signed exact
    refine ⟨.integer m, ?_, nofun, ?_⟩
    · rw [stored, signed]
      rfl
    · change String.ofList (intText n.val) = String.ofList (intText m.val)
      rw [same]
  | null => exact ⟨.null, rfl, nofun, rfl⟩
  | integer n => exact ⟨.integer n, rfl, nofun, rfl⟩
  | text s => exact ⟨.text s, rfl, nofun, rfl⟩
  | blob bytes => exact ⟨.blob bytes, rfl, nofun, rfl⟩
  | dateTime t => exact ⟨.text t.storedText, rfl, nofun, rfl⟩
  | uuid u => exact ⟨.text u.text, rfl, nofun, rfl⟩
  | real | decimal | raw => cases exact

theorem literal?_ofCell {c : Cell} (whole : c.storageClass ≠ .real) {rest : List Char}
    (after : Ends rest) : literal? ((ofCell c).literal.toList ++ rest) = some (c, rest) := by
  have plain : (ofCell c).IsPlain := by
    cases c with
    | real x => exact absurd rfl whole
    | null | integer | text | blob => trivial
  have cell : (ofCell c).constant.token.cell? = some c := by
    cases c with
    | real x => exact absurd rfl whole
    | integer n => exact congrArg (Option.map Cell.integer) (Numeral.integer?_ofInt n)
    | null | text | blob => rfl
  exact (written_literal plain).token.literal?_eq cell after

/-- A literal and a parameter are the same to SQL: what is read in front of a border is all of the
literal, and it is the cell that the value is stored as. The cell of a decimal number is the text of
its literal. Thus two values have one literal if and only if they have one cell, and but for decimals
their kinds need not be the same for that. -/
theorem literal_agrees_with_stored :
    (∀ v : Value, v.IsExact → ∃ c, v.stored = .ok c ∧
      ∀ rest, Ends rest → literal? (v.literal.toList ++ rest) = some (c, rest)) ∧
    (∀ d : Decimal, (decimal d).stored = .ok (.text (decimal d).literal)) ∧
    (∀ v w : Value, v.IsExact → w.IsExact → (v.literal = w.literal ↔ v.stored = w.stored)) ∧
    ∀ d e : Decimal, (decimal d).literal = (decimal e).literal ↔
      (decimal d).stored = (decimal e).stored := by
  have decimals : ∀ d : Decimal, (decimal d).stored = .ok (.text (decimal d).literal) :=
    fun _ => rfl
  refine ⟨?_, decimals, ?_, ?_⟩
  · intro v exact
    obtain ⟨c, stored, whole, same⟩ := exists_stored exact
    refine ⟨c, stored, ?_⟩
    intro rest after
    rw [same]
    exact literal?_ofCell whole after
  · intro v w exact exact'
    obtain ⟨c, stored, whole, same⟩ := exists_stored exact
    obtain ⟨d, stored', whole', same'⟩ := exists_stored exact'
    rw [stored, stored', same, same']
    constructor
    · intro literals
      have read := literal?_ofCell whole ends_nil
      rw [literals, literal?_ofCell whole' ends_nil] at read
      cases read
      rfl
    · rintro ⟨⟩
      rfl
  · intro d e
    rw [decimals d, decimals e, Except.ok.injEq, Cell.text.injEq]

/-- A text with a quote, and the smallest integer, in front of the rest of a statement. -/
theorem literal_agrees_with_stored_before_border :
    (text "it's").IsExact ∧ Ends ", 1)".toList ∧
      literal? ("'it''s'".toList ++ ", 1)".toList) = some (.text "it's", ", 1)".toList) ∧
      (∃ least : MachineInt .i64, least.val = -9223372036854775808 ∧ (integer least).IsExact ∧
        literal? ("-9223372036854775808".toList ++ ")".toList) =
          some (.integer least, ")".toList)) := by
  obtain ⟨reads, -⟩ := literal_agrees_with_stored
  have comma : Ends ", 1)".toList := ends_cons (Or.inr (Or.inl rfl))
  have closing : Ends ")".toList := ends_cons (Or.inr (Or.inr rfl))
  obtain ⟨c, stored, read⟩ := reads (text "it's") trivial
  let least : MachineInt .i64 := ⟨-9223372036854775808, by decide, by decide⟩
  obtain ⟨d, stored', read'⟩ := reads (integer least) trivial
  cases stored
  cases stored'
  have digits : (integer least).literal = "-9223372036854775808" := by decide +kernel
  have readLeast := read' _ closing
  rw [digits] at readLeast
  exact ⟨trivial, comma, read _ comma, least, rfl, trivial, readLeast⟩

end Value

end TypedSql
