import TypedSql.Proofs.Numeric.Rounding

/-! Conversion between floating-point formats. A number that both formats can hold is converted
exactly, and double precision can hold every number of single precision, so a single that is
widened and narrowed again is the same number. -/
namespace TypedSql.Numeric

-- Powers of numbers are those of the core library.
attribute [local instance (high)] instPowNat

namespace Binary

variable {f g : BinaryFormat} {negative : Bool} {m m' : ℕ} {q q' : ℤ}

section Magnitudes

variable {k : ℕ} (lt : k < f.signPlace)

@[simp] theorem magnitude_ofMagnitude : (ofMagnitude negative k lt).magnitude = k := by
  cases negative with
  | false => exact Nat.mod_eq_of_lt lt
  | true =>
    change (f.signPlace + k) % f.signPlace = k
    rw [Nat.add_mod_left, Nat.mod_eq_of_lt lt]

@[simp] theorem isNegative_ofMagnitude : (ofMagnitude negative k lt).isNegative = negative := by
  cases negative with
  | false => exact decide_eq_false (Nat.not_le.mpr lt)
  | true => exact decide_eq_true (Nat.le_add_right f.signPlace k)

end Magnitudes

/-- What has a code below that of infinity is a number of the format. -/
theorem exists_datum_eq (negative : Bool) (has : f.Has m q)
    (finite : (q - f.leastExponent).toNat * f.fractionCount + m < f.infinityCode) :
    ∃ x : Binary f, x.datum = .finite negative m q := by
  have count : 0 < f.fractionCount := Nat.two_pow_pos _
  have least := has.least
  have lt := finite.trans f.infinityCode_lt
  refine ⟨ofMagnitude negative _ lt, ?_⟩
  unfold datum
  simp only [magnitude_ofMagnitude, isNegative_ofMagnitude]
  rw [if_neg (Nat.not_lt.mpr finite.le), if_neg finite.ne]
  by_cases normal : f.fractionCount ≤ m
  · obtain ⟨low, rfl⟩ := Nat.exists_eq_add_of_le normal
    have small : low < f.fractionCount := by
      have := has.lt
      omega
    have code : (q - f.leastExponent).toNat * f.fractionCount + (f.fractionCount + low) =
        low + f.fractionCount * ((q - f.leastExponent).toNat + 1) := by ring
    rw [code, Nat.add_mul_div_left _ _ count, Nat.add_mul_mod_self_left, Nat.div_eq_of_lt small,
      Nat.mod_eq_of_lt small, if_neg (by omega)]
    congr 1
    omega
  · have lowest : q = f.leastExponent := by
      by_contra other
      exact normal (has.normal (lt_of_le_of_ne least (Ne.symm other)))
    have small : m < f.fractionCount := Nat.lt_of_not_le normal
    rw [lowest, Int.sub_self, Int.toNat_zero, Nat.zero_mul, Nat.zero_add, Nat.div_eq_of_lt small,
      Nat.mod_eq_of_lt small, if_pos rfl]

/-- A number that has a datum of the same size in the other format becomes that one. -/
theorem convert_eq {x : Binary f} {y : Binary g} (source : x.datum = .finite negative m q)
    (target : y.datum = .finite negative m' q') (same : (m : ℚ) * 2 ^ q = m' * 2 ^ q') :
    x.convert g = y := by
  have unit : (0 : ℚ) < 2 ^ q' := by positivity
  rw [convert, source]
  dsimp only
  by_cases zero : m' = 0
  · subst zero
    rw [Nat.cast_zero, zero_mul, mul_eq_zero, or_iff_left (by positivity), Nat.cast_eq_zero] at same
    rw [same, Nat.zero_mul]
    exact ofRatio_zero_eq target _
  · have pos : 0 < m' := Nat.pos_of_ne_zero zero
    have ratio : ((m * 2 ^ q.toNat : ℕ) / (2 ^ (-q).toNat : ℕ) : ℚ) = m' * 2 ^ q' := by
      have power : (2 : ℚ) ^ q = (2 ^ q.toNat : ℕ) / (2 ^ (-q).toNat : ℕ) := by
        exact_mod_cast zpow_eq_div Nat.two_pos q
      rw [← same, power, Nat.cast_mul, mul_div_assoc]
    have reach : (0 : ℚ) < quartersBelow g m' q' := by exact_mod_cast quartersBelow_pos g m' q'
    refine ofRatio_eq_of_roundsTo target pos (Nat.two_pow_pos _) ?_
    rw [ratio]
    apply RoundsTo.ofStrict
    · nlinarith
    · nlinarith

theorem convert_nan {x : Binary f} (datum : x.datum = .nan) : x.convert g = nan g := by
  rw [convert, datum]

theorem eq_infinity {x : Binary f} (infinite : x.datum = .infinite negative) :
    x = infinity negative := by
  unfold datum at infinite
  dsimp only at infinite
  split_ifs at infinite with isNaN code
  injection infinite with sign
  have lt : x.magnitude < f.signPlace := code ▸ f.infinityCode_lt
  calc x = ofMagnitude x.isNegative x.magnitude lt := (x.ofMagnitude_magnitude lt).symm
    _ = infinity negative := by simp only [sign, code, infinity]

theorem datum_eq_nan_iff {x : Binary f} : x.datum = .nan ↔ x.isNaN = true := by
  constructor
  · intro isNaN
    unfold datum at isNaN
    dsimp only at isNaN
    split_ifs at isNaN with above
    exact decide_eq_true above
  · intro isNaN
    rw [datum]
    exact if_pos (of_decide_eq_true isNaN)

/-- NaNs are converted to one and the same. -/
theorem Same.convert_eq {x y : Binary f} (g : BinaryFormat) (same : x.Same y) : x.convert g = y.convert g := by
  rcases same with rfl | ⟨nan, nan'⟩
  · rfl
  · rw [convert_nan (datum_eq_nan_iff.mpr nan), convert_nan (datum_eq_nan_iff.mpr nan')]

/-- A mantissa with fewer digits than a format has is shifted up to its leading place. -/
theorem exists_shift (pos : m ≠ 0) {bits : ℕ} (lt : m < 2 ^ (bits + 1)) :
    ∃ shift ≤ bits, 2 ^ bits ≤ m * 2 ^ shift ∧ m * 2 ^ shift < 2 ^ (bits + 1) := by
  have log : m.log2 < bits + 1 := (Nat.log2_lt pos).mpr lt
  obtain ⟨shift, rfl⟩ := Nat.exists_eq_add_of_le (Nat.le_of_lt_succ log)
  refine ⟨shift, Nat.le_add_left _ _, ?_, ?_⟩
  · rw [Nat.pow_add]
    exact Nat.mul_le_mul_right _ (Nat.log2_self_le pos)
  · calc m * 2 ^ shift < 2 ^ (m.log2 + 1) * 2 ^ shift :=
          Nat.mul_lt_mul_of_pos_right Nat.lt_log2_self (Nat.two_pow_pos shift)
      _ = 2 ^ (m.log2 + shift + 1) := by rw [← Nat.pow_add, Nat.add_right_comm]

/-- Every finite single is the size of a double. -/
theorem exists_double {x : Single} (single : x.datum = .finite negative m q) :
    ∃ (y : Double) (m' : ℕ) (q' : ℤ),
      y.datum = .finite negative m' q' ∧ (m : ℚ) * 2 ^ q = m' * 2 ^ q' := by
  have least : BinaryFormat.double.leastExponent = -1074 := rfl
  have count : BinaryFormat.double.fractionCount = 2 ^ 52 := rfl
  have infinite : BinaryFormat.double.infinityCode = 2047 * 2 ^ 52 := rfl
  by_cases zero : m = 0
  · subst zero
    have has : BinaryFormat.double.Has 0 (-1074) :=
      ⟨Int.le_refl _, by decide, fun less => absurd less (by decide)⟩
    obtain ⟨y, datum⟩ := exists_datum_eq negative has (by decide)
    exact ⟨y, 0, -1074, datum, by simp⟩
  · obtain ⟨-, has, finite, code⟩ := finite_of_datum single
    have low : (-149 : ℤ) ≤ q := has.least
    have lt : m < 2 ^ 24 := has.lt
    have high : (q - -149).toNat * 2 ^ 23 + m < 255 * 2 ^ 23 := code.trans_lt finite
    have fewer : m < 2 ^ (52 + 1) := by omega
    obtain ⟨shift, le, leading, below⟩ := exists_shift zero fewer
    have wide : BinaryFormat.double.Has (m * 2 ^ shift) (q - shift) := by
      constructor
      · rw [least]
        omega
      · rw [count]
        omega
      · intro _
        exact leading
    have place : (q - shift - -1074).toNat ≤ 2044 := by omega
    have small : (q - shift - -1074).toNat * 2 ^ 52 + m * 2 ^ shift < 2047 * 2 ^ 52 :=
      calc (q - shift - -1074).toNat * 2 ^ 52 + m * 2 ^ shift < 2044 * 2 ^ 52 + 2 ^ 53 :=
            Nat.add_lt_add_of_le_of_lt (Nat.mul_le_mul_right _ place) below
        _ < 2047 * 2 ^ 52 := by decide
    obtain ⟨y, datum⟩ := exists_datum_eq negative wide small
    refine ⟨y, m * 2 ^ shift, q - shift, datum, ?_⟩
    rw [zpow_sub₀ two_ne_zero, zpow_natCast]
    push_cast
    field_simp

/-- Widening loses nothing but the payload of a NaN. -/
theorem same_convert_convert (x : Single) : x.Same ((x.convert .double).convert .single) := by
  cases datum : x.datum with
  | nan =>
    have wide : x.convert .double = nan .double := convert_nan datum
    have back : (nan .double).convert .single = nan .single := convert_nan (by decide)
    rw [wide, back]
    exact Or.inr ⟨datum_eq_nan_iff.mp datum, by decide⟩
  | infinite negative =>
    apply Or.inl
    rw [eq_infinity datum]
    cases negative <;> decide
  | finite negative m q =>
    obtain ⟨y, m', q', double, same⟩ := exists_double datum
    apply Or.inl
    rw [convert_eq datum double same, convert_eq double datum same.symm]

end Binary

end TypedSql.Numeric
