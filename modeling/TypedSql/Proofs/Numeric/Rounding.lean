import Mathlib.Algebra.Order.Field.Power
import Mathlib.Algebra.Order.Field.Rat
import Mathlib.Tactic.FieldSimp
import Mathlib.Tactic.GCongr
import Mathlib.Tactic.Linarith
import Mathlib.Tactic.NormNum
import Mathlib.Tactic.Positivity
import Mathlib.Tactic.Ring
import Mathlib.Tactic.SplitIfs
import TypedSql.Numeric.Binary

/-! Rounding a quotient to a floating-point number, in terms of the rational that the quotient is.
Every rational that lies in the interval of a finite number is rounded to that number. -/
namespace TypedSql.Numeric

/-- An integer power as a quotient of natural ones. -/
theorem zpow_eq_div {b : ℕ} (pos : 0 < b) (g : ℤ) :
    (b : ℚ) ^ g = (b ^ g.toNat : ℕ) / (b ^ (-g).toNat : ℕ) := by
  have nonzero : (b : ℚ) ≠ 0 := by exact_mod_cast pos.ne'
  rcases Int.eq_nat_or_neg g with ⟨n, rfl | rfl⟩
  · simp
  · simp

/-- A quotient within half a unit of a number is rounded to it; at half a unit it has to be even. -/
theorem roundHalfEven_eq {num den m : ℕ} (pos : 0 < den) (low : 2 * m * den ≤ 2 * num + den)
    (high : 2 * num ≤ (2 * m + 1) * den)
    (tie : m % 2 = 0 ∨ 2 * m * den < 2 * num + den ∧ 2 * num < (2 * m + 1) * den) :
    roundHalfEven num den = m := by
  have split := Nat.div_add_mod num den
  have small := Nat.mod_lt num pos
  unfold roundHalfEven
  dsimp only
  set quotient := num / den
  set rest := num % den
  have le : quotient ≤ m := by
    by_contra greater
    have : den * (m + 1) ≤ den * quotient := Nat.mul_le_mul_left den (by omega)
    nlinarith
  have ge : m ≤ quotient + 1 := by
    by_contra less
    have : den * (quotient + 2) ≤ den * m := Nat.mul_le_mul_left den (by omega)
    nlinarith
  have lowEnd : 2 * m * den = 2 * (den * m) := by ring
  have highEnd : (2 * m + 1) * den = 2 * (den * m) + den := by ring
  rw [lowEnd] at low
  rw [highEnd] at high
  rw [lowEnd, highEnd] at tie
  rcases Nat.eq_or_lt_of_le le with same | above
  · subst same
    split_ifs <;> omega
  · obtain rfl : m = quotient + 1 := by omega
    have next : den * (quotient + 1) = den * quotient + den := by ring
    rw [next] at low high tie
    split_ifs <;> omega

theorem roundHalfEven_eq_of_div {num den m : ℕ} (pos : 0 < den) (low : (m : ℚ) - 1 / 2 ≤ num / den)
    (high : (num / den : ℚ) ≤ m + 1 / 2)
    (tie : m % 2 = 0 ∨ (m : ℚ) - 1 / 2 < num / den ∧ (num / den : ℚ) < m + 1 / 2) :
    roundHalfEven num den = m := by
  have positive : (0 : ℚ) < den := by exact_mod_cast pos
  rw [le_div_iff₀ positive] at low
  rw [div_le_iff₀ positive] at high
  rw [lt_div_iff₀ positive, div_lt_iff₀ positive] at tie
  refine roundHalfEven_eq pos ?_ ?_ (tie.imp_right fun ⟨low, high⟩ => ⟨?_, ?_⟩)
  · have : (2 * m * den : ℚ) ≤ 2 * num + den := by linarith
    exact_mod_cast this
  · have : (2 * num : ℚ) ≤ (2 * m + 1) * den := by linarith
    exact_mod_cast this
  · have : (2 * m * den : ℚ) < 2 * num + den := by linarith
    exact_mod_cast this
  · have : (2 * num : ℚ) < (2 * m + 1) * den := by linarith
    exact_mod_cast this

theorem log2_bounds {n : ℕ} (pos : 0 < n) :
    (2 : ℚ) ^ (n.log2 : ℤ) ≤ n ∧ (n : ℚ) < 2 ^ (n.log2 + 1 : ℤ) := by
  constructor
  · exact_mod_cast Nat.log2_self_le pos.ne'
  · exact_mod_cast Nat.lt_log2_self

/-- The exponent of the leading bit of a quotient. -/
theorem log2Ratio_spec {num den : ℕ} (num_pos : 0 < num) (den_pos : 0 < den) :
    (2 : ℚ) ^ log2Ratio num den ≤ num / den ∧ (num / den : ℚ) < 2 ^ (log2Ratio num den + 1) := by
  obtain ⟨numLow, numHigh⟩ := log2_bounds num_pos
  obtain ⟨denLow, denHigh⟩ := log2_bounds den_pos
  have positive : (0 : ℚ) < den := by exact_mod_cast den_pos
  unfold log2Ratio
  dsimp only
  generalize shift : (num.log2 : ℤ) - den.log2 = k
  have high : (num / den : ℚ) < 2 ^ (k + 1) := by
    rw [div_lt_iff₀ positive]
    calc (num : ℚ) < 2 ^ (num.log2 + 1 : ℤ) := numHigh
      _ = 2 ^ (k + 1) * 2 ^ (den.log2 : ℤ) := by
        rw [← zpow_add₀ two_ne_zero]
        congr 1
        omega
      _ ≤ 2 ^ (k + 1) * den := by gcongr
  have low : (2 : ℚ) ^ (k - 1) ≤ num / den := by
    rw [le_div_iff₀ positive]
    calc (2 : ℚ) ^ (k - 1) * den ≤ 2 ^ (k - 1) * 2 ^ (den.log2 + 1 : ℤ) := by gcongr
      _ = 2 ^ (num.log2 : ℤ) := by
        rw [← zpow_add₀ two_ne_zero]
        congr 1
        omega
      _ ≤ num := numLow
  have test : den * 2 ^ k.toNat ≤ num * 2 ^ (-k).toNat ↔ (2 : ℚ) ^ k ≤ num / den := by
    have power : (2 : ℚ) ^ k = (2 ^ k.toNat : ℕ) / (2 ^ (-k).toNat : ℕ) := by
      exact_mod_cast zpow_eq_div Nat.two_pos k
    rw [power, div_le_div_iff₀ (by positivity) positive, mul_comm]
    exact_mod_cast Iff.rfl
  split_ifs with fits
  · exact ⟨test.mp fits, high⟩
  · refine ⟨low, ?_⟩
    rw [sub_add_cancel]
    exact lt_of_not_ge fun le => fits (test.mpr le)

variable {f : BinaryFormat} {m : ℕ} {q : ℤ}

/-- The number `m * 2 ^ q` has a code: its last place is the least one, or its leading bit is
set. -/
structure BinaryFormat.Has (f : BinaryFormat) (m : ℕ) (q : ℤ) : Prop where
  least : f.leastExponent ≤ q
  lt : m < 2 * f.fractionCount
  normal : f.leastExponent < q → f.fractionCount ≤ m

/-- How far the interval of a number reaches below it, in quarters of its last place. -/
def quartersBelow (f : BinaryFormat) (m : ℕ) (q : ℤ) : ℕ :=
  if m = f.fractionCount ∧ f.leastExponent < q then 1 else 2

theorem quartersBelow_pos (f : BinaryFormat) (m : ℕ) (q : ℤ) : 0 < quartersBelow f m q := by
  unfold quartersBelow
  split_ifs <;> decide

theorem quartersBelow_le (f : BinaryFormat) (m : ℕ) (q : ℤ) : quartersBelow f m q ≤ 2 := by
  unfold quartersBelow
  split_ifs <;> decide

/-- The rational lies in the interval of `m * 2 ^ q`. Its ends count when `m` is even. -/
structure RoundsTo (f : BinaryFormat) (m : ℕ) (q : ℤ) (w : ℚ) : Prop where
  low : (4 * m - quartersBelow f m q) * 2 ^ q ≤ 4 * w
  high : 4 * w ≤ (4 * m + 2) * 2 ^ q
  tie : m % 2 = 0 ∨
    (4 * m - quartersBelow f m q) * 2 ^ q < 4 * w ∧ 4 * w < (4 * m + 2) * 2 ^ q

theorem RoundsTo.ofStrict {w : ℚ} (low : (4 * m - quartersBelow f m q) * 2 ^ q < 4 * w)
    (high : 4 * w < (4 * m + 2) * 2 ^ q) : RoundsTo f m q w :=
  ⟨low.le, high.le, Or.inr ⟨low, high⟩⟩

theorem units_eq {num den units : ℕ} (den_pos : 0 < den) (place : ℤ)
    (low : ((units : ℚ) - 1 / 2) * 2 ^ place ≤ num / den)
    (high : (num / den : ℚ) ≤ (units + 1 / 2) * 2 ^ place)
    (tie : units % 2 = 0 ∨ ((units : ℚ) - 1 / 2) * 2 ^ place < num / den ∧
      (num / den : ℚ) < (units + 1 / 2) * 2 ^ place) :
    roundHalfEven (num * 2 ^ (-place).toNat) (den * 2 ^ place.toNat) = units := by
  have positive : (0 : ℚ) < 2 ^ place := by positivity
  have scaled : ((num * 2 ^ (-place).toNat : ℕ) / (den * 2 ^ place.toNat : ℕ) : ℚ) =
      num / den / 2 ^ place := by
    have power : (2 : ℚ) ^ place = (2 ^ place.toNat : ℕ) / (2 ^ (-place).toNat : ℕ) := by
      exact_mod_cast zpow_eq_div Nat.two_pos place
    rw [power]
    push_cast
    field_simp
  refine roundHalfEven_eq_of_div (by positivity) ?_ ?_ (tie.imp_right fun ⟨low, high⟩ => ⟨?_, ?_⟩)
  · rwa [scaled, le_div_iff₀ positive]
  · rwa [scaled, div_le_iff₀ positive]
  · rwa [scaled, lt_div_iff₀ positive]
  · rwa [scaled, div_lt_iff₀ positive]

/-- The place of a quotient, from the power of two below it. -/
theorem place_eq {num den : ℕ} (num_pos : 0 < num) (den_pos : 0 < den)
    (least : f.leastExponent ≤ q) (high : (num / den : ℚ) < 2 ^ (q + f.fractionBits + 1))
    (low : f.leastExponent < q → (2 : ℚ) ^ (q + f.fractionBits) ≤ num / den) :
    max f.leastExponent (log2Ratio num den - f.fractionBits) = q := by
  obtain ⟨below, above⟩ := log2Ratio_spec num_pos den_pos
  have notGreater : log2Ratio num den < q + f.fractionBits + 1 :=
    (zpow_lt_zpow_iff_right₀ one_lt_two).mp (below.trans_lt high)
  rcases least.eq_or_lt with same | greater
  · omega
  · have notLess : q + f.fractionBits < log2Ratio num den + 1 :=
      (zpow_lt_zpow_iff_right₀ one_lt_two).mp ((low greater).trans_lt above)
    omega

theorem fractionCount_mul_zpow (f : BinaryFormat) (q : ℤ) :
    (f.fractionCount : ℚ) * 2 ^ q = 2 ^ (q + f.fractionBits) := by
  rw [add_comm, zpow_add₀ two_ne_zero, zpow_natCast, BinaryFormat.fractionCount]
  push_cast
  rfl

section Codes

variable {num den : ℕ}

theorem roundRatio_eq_of_units {units : ℕ} (num_pos : 0 < num)
    (place : max f.leastExponent (log2Ratio num den - f.fractionBits) = q)
    (rounded : roundHalfEven (num * 2 ^ (-q).toNat) (den * 2 ^ q.toNat) = units)
    (finite : (q - f.leastExponent).toNat * f.fractionCount + units ≤ f.infinityCode) :
    Binary.roundRatio f num den = (q - f.leastExponent).toNat * f.fractionCount + units := by
  unfold Binary.roundRatio
  rw [if_neg num_pos.ne']
  dsimp only
  rw [place, rounded, min_eq_right finite]

/-- A quotient that has the place of the number is rounded to it there. -/
theorem roundRatio_of_leading (has : f.Has m q) (num_pos : 0 < num) (den_pos : 0 < den)
    (finite : (q - f.leastExponent).toNat * f.fractionCount + m ≤ f.infinityCode)
    (near : RoundsTo f m q (num / den))
    (leading : f.leastExponent < q → (2 : ℚ) ^ (q + f.fractionBits) ≤ num / den) :
    Binary.roundRatio f num den = (q - f.leastExponent).toNat * f.fractionCount + m := by
  obtain ⟨low, high, tie⟩ := near
  have unit : (0 : ℚ) < 2 ^ q := by positivity
  have below : (quartersBelow f m q : ℚ) ≤ 2 := by exact_mod_cast quartersBelow_le f m q
  have top : (num / den : ℚ) < 2 ^ (q + f.fractionBits + 1) := by
    have lt : (m : ℚ) + 1 ≤ 2 * f.fractionCount := by exact_mod_cast has.lt
    rw [zpow_add_one₀ two_ne_zero, ← fractionCount_mul_zpow]
    nlinarith
  refine roundRatio_eq_of_units num_pos (place_eq num_pos den_pos has.least top leading) ?_ finite
  refine units_eq den_pos q ?_ ?_ (tie.imp_right fun ⟨low, high⟩ => ⟨?_, ?_⟩)
  · nlinarith
  · linarith
  · nlinarith
  · linarith

/-- Just below a power of two a quotient has a smaller place, and twice as many units there. -/
theorem roundRatio_of_lt_power (num_pos : 0 < num) (den_pos : 0 < den)
    (greater : f.leastExponent < q)
    (finite : (q - f.leastExponent).toNat * f.fractionCount + f.fractionCount ≤ f.infinityCode)
    (low : (4 * f.fractionCount - 1) * (2 : ℚ) ^ q ≤ 4 * (num / den))
    (less : (num / den : ℚ) < f.fractionCount * 2 ^ q) :
    Binary.roundRatio f num den =
      (q - f.leastExponent).toNat * f.fractionCount + f.fractionCount := by
  have unit : (0 : ℚ) < 2 ^ q := by positivity
  have one_le : (1 : ℚ) ≤ f.fractionCount := by exact_mod_cast Nat.one_le_two_pow
  have half : (2 : ℚ) ^ q = 2 * 2 ^ (q - 1) := by
    rw [zpow_sub_one₀ two_ne_zero]
    ring
  have place : max f.leastExponent (log2Ratio num den - f.fractionBits) = q - 1 := by
    refine place_eq num_pos den_pos (by omega) ?_ fun _ => ?_
    · have next : q - 1 + f.fractionBits + 1 = q + f.fractionBits := by omega
      rwa [next, ← fractionCount_mul_zpow]
    · rw [← fractionCount_mul_zpow]
      nlinarith
  have units : roundHalfEven (num * 2 ^ (-(q - 1)).toNat) (den * 2 ^ (q - 1).toNat) =
      2 * f.fractionCount := by
    refine units_eq den_pos (q - 1) ?_ ?_ (Or.inl (Nat.mul_mod_right 2 _))
    · push_cast
      nlinarith
    · push_cast
      nlinarith
  have shift : (q - f.leastExponent).toNat = (q - 1 - f.leastExponent).toNat + 1 := by omega
  have code : (q - 1 - f.leastExponent).toNat * f.fractionCount + 2 * f.fractionCount =
      ((q - 1 - f.leastExponent).toNat + 1) * f.fractionCount + f.fractionCount := by ring
  rw [shift, ← code] at finite ⊢
  exact roundRatio_eq_of_units num_pos place units finite

/-- Every quotient in the interval of a finite number is rounded to its code. -/
theorem roundRatio_eq (has : f.Has m q) (pos : 0 < m)
    (finite : (q - f.leastExponent).toNat * f.fractionCount + m ≤ f.infinityCode)
    (den_pos : 0 < den) (near : RoundsTo f m q (num / den)) :
    Binary.roundRatio f num den = (q - f.leastExponent).toNat * f.fractionCount + m := by
  have unit : (0 : ℚ) < 2 ^ q := by positivity
  have one_le : (1 : ℚ) ≤ m := by exact_mod_cast pos
  have below : (quartersBelow f m q : ℚ) ≤ 2 := by exact_mod_cast quartersBelow_le f m q
  have low := near.low
  have num_pos : 0 < num := by
    have positive : (0 : ℚ) < num / den := by
      have : 0 < (4 * m - quartersBelow f m q) * (2 : ℚ) ^ q := mul_pos (by linarith) unit
      linarith
    have den_pos : (0 : ℚ) < den := by exact_mod_cast den_pos
    exact_mod_cast (div_pos_iff_of_pos_right den_pos).mp positive
  by_cases special : (m = f.fractionCount ∧ f.leastExponent < q) ∧ (num / den : ℚ) < m * 2 ^ q
  · obtain ⟨⟨rfl, greater⟩, less⟩ := special
    rw [quartersBelow, if_pos ⟨rfl, greater⟩, Nat.cast_one] at low
    exact roundRatio_of_lt_power num_pos den_pos greater finite low less
  · refine roundRatio_of_leading has num_pos den_pos finite near fun greater => ?_
    rw [← fractionCount_mul_zpow]
    rcases (has.normal greater).eq_or_lt with power | more
    · rw [power]
      exact not_lt.mp fun less => special ⟨⟨power.symm, greater⟩, less⟩
    · have le : (f.fractionCount : ℚ) + 1 ≤ m := by exact_mod_cast more
      nlinarith

end Codes

namespace Binary

variable {x : Binary f} {negative : Bool}

theorem ofMagnitude_magnitude (x : Binary f) (lt : x.magnitude < f.signPlace) :
    ofMagnitude x.isNegative x.magnitude lt = x := by
  have bound := x.code_lt
  have small : x.code < f.signPlace → x.magnitude = x.code := Nat.mod_eq_of_lt
  have large : f.signPlace ≤ x.code → x.magnitude = x.code - f.signPlace := fun le => by
    rw [magnitude, Nat.mod_eq_sub_mod le, Nat.mod_eq_of_lt (by omega)]
  unfold ofMagnitude isNegative
  congr 1
  split_ifs with sign <;> simp only [decide_eq_true_eq] at sign <;> omega

theorem ofRatio_eq (sign : x.isNegative = negative) {num den : ℕ}
    (code : roundRatio f num den = x.magnitude) : ofRatio f negative num den = x := by
  have lt : x.magnitude < f.signPlace := Nat.mod_lt _ f.signPlace_pos
  calc ofRatio f negative num den = ofMagnitude x.isNegative x.magnitude lt := by
        unfold ofRatio
        simp only [code, sign]
    _ = x := x.ofMagnitude_magnitude lt

theorem datum_eq_finite (finite : x.magnitude < f.infinityCode) :
    ∃ negative m q, x.datum = .finite negative m q := by
  unfold datum
  rw [if_neg (Nat.not_lt.mpr (Nat.le_of_lt finite)), if_neg (Nat.ne_of_lt finite)]
  split <;> exact ⟨_, _, _, rfl⟩

/-- What a finite number denotes tells its code. -/
theorem finite_of_datum (datum : x.datum = .finite negative m q) :
    x.isNegative = negative ∧ f.Has m q ∧ x.magnitude < f.infinityCode ∧
      (q - f.leastExponent).toNat * f.fractionCount + m = x.magnitude := by
  have count : 0 < f.fractionCount := Nat.two_pow_pos _
  have split := Nat.div_add_mod x.magnitude f.fractionCount
  have small := Nat.mod_lt x.magnitude count
  unfold Binary.datum at datum
  dsimp only at datum
  split_ifs at datum with isNaN infinite subnormal
  · injection datum with sign mantissa exponent
    rw [subnormal, Nat.mul_zero, Nat.zero_add] at split
    refine ⟨sign, ⟨exponent.le, by omega, fun greater => absurd exponent greater.ne⟩, by omega, ?_⟩
    rw [← exponent, Int.sub_self, Int.toNat_zero, Nat.zero_mul, Nat.zero_add, ← mantissa, split]
  · injection datum with sign mantissa exponent
    refine ⟨sign, ⟨by omega, by omega, fun _ => by omega⟩, by omega, ?_⟩
    have shift : (q - f.leastExponent).toNat = x.magnitude / f.fractionCount - 1 := by omega
    have place : (x.magnitude / f.fractionCount - 1) * f.fractionCount + f.fractionCount =
        f.fractionCount * (x.magnitude / f.fractionCount) := by
      rw [← Nat.succ_mul, Nat.succ_eq_add_one, Nat.sub_add_cancel (Nat.pos_of_ne_zero subnormal),
        Nat.mul_comm]
    rw [shift]
    omega

/-- Every quotient in the interval of a number is read as the number. -/
theorem ofRatio_eq_of_roundsTo (datum : x.datum = .finite negative m q) (pos : 0 < m) {num den : ℕ}
    (den_pos : 0 < den) (near : RoundsTo f m q (num / den)) : ofRatio f negative num den = x := by
  obtain ⟨sign, has, finite, code⟩ := finite_of_datum datum
  refine ofRatio_eq sign ?_
  rw [roundRatio_eq has pos (code.trans_le finite.le) den_pos near, code]

theorem ofRatio_zero_eq (datum : x.datum = .finite negative 0 q) (den : ℕ) :
    ofRatio f negative 0 den = x := by
  obtain ⟨sign, has, -, code⟩ := finite_of_datum datum
  have count : 0 < f.fractionCount := Nat.two_pow_pos _
  have least : q = f.leastExponent := by
    by_contra other
    have normal := has.normal (lt_of_le_of_ne has.least (Ne.symm other))
    omega
  refine ofRatio_eq sign ?_
  rw [← code, least, Int.sub_self, Int.toNat_zero, Nat.zero_mul]
  rfl

end Binary

end TypedSql.Numeric
