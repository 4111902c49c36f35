import TypedSql.Proofs.Numeric.Shortest
import TypedSql.Proofs.Value.Literal

/-! What the constants of SQL denote. A numeral is an exact decimal. Where a floating-point number
is meant, it is the one nearest to the decimal, and the shortest digits of a number name just that
number. -/
namespace TypedSql

open Numeric Sql

namespace Sql.Numeral

def size (n : Numeral) : ℚ := n.digits / 10 ^ n.places

def value (n : Numeral) : ℚ := if n.negative then -n.size else n.size

/-- The floating-point number that the numeral is read as. -/
def nearest (f : BinaryFormat) (n : Numeral) : Binary f :=
  .ofRatio f n.negative n.digits (10 ^ n.places)

theorem value_ofInt (n : ℤ) : (ofInt n).value = n := by
  have size_eq : (ofInt n).size = |(n : ℚ)| := by
    rw [size, ofInt, pow_zero, div_one, Nat.cast_natAbs, Int.cast_abs]
  unfold value
  rw [size_eq]
  rcases lt_or_ge n 0 with negative | nonnegative
  · have sign : (n : ℚ) < 0 := by exact_mod_cast negative
    rw [if_pos (by simpa [ofInt] using negative), abs_of_neg sign, neg_neg]
  · have sign : (0 : ℚ) ≤ n := by exact_mod_cast nonnegative
    rw [if_neg (by simpa [ofInt] using nonnegative), abs_of_nonneg sign]

/-- The zeros that are dropped at the end of a fraction do not change the number. -/
theorem size_positional (negative : Bool) (d : ℕ) (g : ℤ) :
    (positional negative d g).size = d * 10 ^ g := by
  unfold size positional wholeDigits fractionDigits
  split_ifs with whole
  · obtain ⟨n, rfl⟩ := Int.eq_ofNat_of_zero_le whole
    simp [digitsValue_digits]
  · obtain ⟨n, rfl⟩ : ∃ n : ℕ, g = -n := ⟨(-g).toNat, by omega⟩
    have pos : 0 < n := by omega
    simp only [neg_neg, Int.toNat_natCast]
    obtain ⟨zeros, split⟩ := dropTrailingZeros_append (paddedDigits n (d % 10 ^ n))
    set kept := dropTrailingZeros (paddedDigits n (d % 10 ^ n))
    have length : kept.length + zeros = n := by
      have padded := length_paddedDigits pos (Nat.mod_lt d (Nat.pow_pos (by decide) : 0 < 10 ^ n))
      rwa [← split, List.length_append, List.length_replicate] at padded
    have all : digitsValue (Numeric.digits (d / 10 ^ n) ++ kept) * 10 ^ zeros = d := by
      have parts := digitsValue_parts (n := d) pos
      rwa [← split, ← List.append_assoc, digitsValue_append, digitsValue_replicate_zero,
        List.length_replicate, Nat.add_zero] at parts
    have scaled : (d : ℚ) = digitsValue (Numeric.digits (d / 10 ^ n) ++ kept) * 10 ^ zeros := by
      exact_mod_cast all.symm
    have power : (10 : ℚ) ^ n = 10 ^ kept.length * 10 ^ zeros := by rw [← pow_add, length]
    rw [zpow_neg, zpow_natCast, ← div_eq_mul_inv, div_eq_div_iff (by positivity) (by positivity),
      scaled, power]
    ring

/-- A finite number is the nearest one to its shortest digits. -/
theorem nearest_ofBinary {f : BinaryFormat} {x : Binary f} (bits : f.fractionBits ≤ 52)
    (finite : x.magnitude < f.infinityCode) : (ofBinary x).nearest f = x := by
  obtain ⟨negative, m, q, datum⟩ := Binary.datum_eq_finite finite
  have numeral : ofBinary x = if m = 0 then ⟨negative, 0, 0⟩ else
      positional negative (RoundingInterval.ofFinite f m q).shortest.1
        (RoundingInterval.ofFinite f m q).shortest.2 := by
    rw [ofBinary, datum]
  rw [numeral]
  split_ifs with zero
  · subst zero
    exact Binary.ofRatio_zero_eq datum _
  · have pos : 0 < m := Nat.pos_of_ne_zero zero
    obtain ⟨-, has, -⟩ := Binary.finite_of_datum datum
    have near := (RoundingInterval.contains_iff pos _ _).mp
      (RoundingInterval.contains_shortest has pos bits)
    rw [← size_positional negative] at near
    refine Binary.ofRatio_eq_of_roundsTo datum pos (Nat.pow_pos (by decide)) ?_
    rwa [Nat.cast_pow, Nat.cast_ofNat]

end Sql.Numeral

/-- The constant denotes the value. Truth values and characters are numbers, dates and UUIDs are
texts, and a decimal is known with all its places. -/
inductive Sql.Constant.Denotes : Constant → Value → Prop where
  | null : Denotes .null .null
  | bool {n : Numeral} {b : Bool} (same : n.value = if b then 1 else 0) :
      Denotes (.number n) (.bool b)
  | char {n : Numeral} {c : Char} (same : n.value = c.toNat) : Denotes (.number n) (.char c)
  | integer {n : Numeral} {i : MachineInt .i64} (same : n.value = i.val) :
      Denotes (.number n) (.integer i)
  | unsigned {n : Numeral} {i : MachineInt .u64} (same : n.value = i.val) :
      Denotes (.number n) (.unsigned i)
  | real {n : Numeral} {x : Double} (same : n.nearest .double = x) : Denotes (.number n) (.real x)
  | decimal (d : Decimal) : Denotes (.number ⟨d.negative, d.mantissa, d.scale⟩) (.decimal d)
  | text (s : String) : Denotes (.text s) (.text s)
  | blob (bytes : List UInt8) : Denotes (.blob bytes) (.blob bytes)
  | dateTime (t : DateTime) : Denotes (.text t.storedText) (.dateTime t)
  | uuid (u : Uuid) : Denotes (.text u.text) (.uuid u)

/-- The constant that a plain value is written as denotes it. -/
theorem Value.denotes_constant {v : Value} (plain : v.IsPlain) : v.constant.Denotes v := by
  cases v with
  | null => exact .null
  | bool b =>
    refine .bool ?_
    rw [Numeral.value_ofInt]
    cases b <;> rfl
  | char c => exact .char (Numeral.value_ofInt c.toNat)
  | integer i => exact .integer (Numeral.value_ofInt i.val)
  | unsigned i => exact .unsigned (Numeral.value_ofInt i.val)
  | real x => exact .real (Numeral.nearest_ofBinary (le_refl 52) plain)
  | text s => exact .text s
  | blob bytes => exact .blob bytes
  | decimal d => exact .decimal d
  | dateTime t => exact .dateTime t
  | uuid u => exact .uuid u
  | raw sql => cases plain

end TypedSql
