import TypedSql.Numeric.Shortest
import TypedSql.Proofs.Numeric.Digits
import TypedSql.Proofs.Numeric.Rounding

/-! The shortest digits of a finite number name it: they lie in the interval of the number, since
the last grid that is tried is finer than the interval is wide. -/
namespace TypedSql.Numeric

namespace RoundingInterval

variable {f : BinaryFormat} {m : ℕ} {q : ℤ}

section Comparisons

variable (a d : ℕ) (q g : ℤ)

/-- A multiple of a power of two and one of a power of ten, compared as natural numbers. -/
theorem scaled_eq : (a : ℚ) * 2 ^ q * (2 ^ (-q).toNat * 10 ^ (-g).toNat) =
    (a * 2 ^ q.toNat * 10 ^ (-g).toNat : ℕ) := by
  have power : (2 : ℚ) ^ q = (2 ^ q.toNat : ℕ) / (2 ^ (-q).toNat : ℕ) := by
    exact_mod_cast zpow_eq_div Nat.two_pos q
  rw [power]
  push_cast
  field_simp

theorem point_eq : 4 * (d * (10 : ℚ) ^ g) * (2 ^ (-q).toNat * 10 ^ (-g).toNat) =
    (d * 10 ^ g.toNat * (4 * 2 ^ (-q).toNat) : ℕ) := by
  have power : (10 : ℚ) ^ g = (10 ^ g.toNat : ℕ) / (10 ^ (-g).toNat : ℕ) := by
    exact_mod_cast zpow_eq_div (by decide : 0 < 10) g
  rw [power]
  push_cast
  field_simp

theorem le_point_iff : a * 2 ^ q.toNat * 10 ^ (-g).toNat ≤ d * 10 ^ g.toNat * (4 * 2 ^ (-q).toNat) ↔
    (a : ℚ) * 2 ^ q ≤ 4 * (d * 10 ^ g) := by
  have positive : (0 : ℚ) < 2 ^ (-q).toNat * 10 ^ (-g).toNat := by positivity
  rw [← mul_le_mul_iff_of_pos_right positive, scaled_eq, point_eq, Nat.cast_le]

theorem point_le_iff : d * 10 ^ g.toNat * (4 * 2 ^ (-q).toNat) ≤ a * 2 ^ q.toNat * 10 ^ (-g).toNat ↔
    4 * (d * (10 : ℚ) ^ g) ≤ a * 2 ^ q := by
  have positive : (0 : ℚ) < 2 ^ (-q).toNat * 10 ^ (-g).toNat := by positivity
  rw [← mul_le_mul_iff_of_pos_right positive, scaled_eq, point_eq, Nat.cast_le]

end Comparisons

/-- The interval in quarters of the last place. -/
theorem contains_iff (pos : 0 < m) (d : ℕ) (g : ℤ) :
    (ofFinite f m q).contains d g = true ↔ RoundsTo f m q (d * 10 ^ g) := by
  have low : ((4 * m - quartersBelow f m q : ℕ) : ℚ) = 4 * m - quartersBelow f m q := by
    have le : quartersBelow f m q ≤ 4 * m := (quartersBelow_le f m q).trans (by omega)
    push_cast [le]
    rfl
  have high : ((4 * m + 2 : ℕ) : ℚ) = 4 * m + 2 := by push_cast; rfl
  have shape : (ofFinite f m q).contains d g =
      if m % 2 == 0 then
        decide ((4 * m - quartersBelow f m q) * 2 ^ q.toNat * 10 ^ (-g).toNat ≤
          d * 10 ^ g.toNat * (4 * 2 ^ (-q).toNat)) &&
        decide (d * 10 ^ g.toNat * (4 * 2 ^ (-q).toNat) ≤
          (4 * m + 2) * 2 ^ q.toNat * 10 ^ (-g).toNat)
      else
        decide ((4 * m - quartersBelow f m q) * 2 ^ q.toNat * 10 ^ (-g).toNat <
          d * 10 ^ g.toNat * (4 * 2 ^ (-q).toNat)) &&
        decide (d * 10 ^ g.toNat * (4 * 2 ^ (-q).toNat) <
          (4 * m + 2) * 2 ^ q.toNat * 10 ^ (-g).toNat) := rfl
  rw [shape]
  split_ifs with even
  · rw [Bool.and_eq_true, decide_eq_true_eq, decide_eq_true_eq, le_point_iff, point_le_iff, low, high]
    constructor
    · rintro ⟨low, high⟩
      exact ⟨low, high, Or.inl (by simpa using even)⟩
    · rintro ⟨low, high, -⟩
      exact ⟨low, high⟩
  · rw [Bool.and_eq_true, decide_eq_true_eq, decide_eq_true_eq, ← not_le, ← not_le, le_point_iff,
      point_le_iff, low, high, not_le, not_le]
    constructor
    · rintro ⟨low, high⟩
      exact .ofStrict low high
    · rintro ⟨-, -, tie⟩
      exact tie.resolve_left (by simpa using even)

variable {r : RoundingInterval} {g : ℤ} {d : ℕ}

theorem contains_of_onGrid? (hit : r.onGrid? g = some d) : r.contains d g = true := by
  unfold onGrid? at hit
  dsimp only at hit
  split at hit
  case h_1 here next =>
    obtain rfl := Option.some.inj hit
    split
    · exact here
    · exact next
  case h_2 here _ =>
    obtain rfl := Option.some.inj hit
    exact here
  case h_3 _ next =>
    obtain rfl := Option.some.inj hit
    exact next
  case h_4 => cases hit

/-- Where one of the grids has a point in the interval, such a point is found. -/
theorem contains_firstGrid {count k : ℕ} (lt : k < count) :
    ∀ {g : ℤ}, (r.onGrid? (g - k)).isSome → r.contains (r.firstGrid count g).1 (r.firstGrid count g).2 := by
  induction count generalizing k with
  | zero => exact absurd lt k.not_lt_zero
  | succ count ih =>
    intro g hit
    unfold firstGrid
    cases here : r.onGrid? g with
    | some d => exact contains_of_onGrid? here
    | none =>
      cases k with
      | zero => simp [here] at hit
      | succ k =>
        refine ih (Nat.lt_of_succ_lt_succ lt) ?_
        have next : g - (k + 1 : ℕ) = g - 1 - k := by omega
        rwa [← next]

theorem num_div_den (f : BinaryFormat) (m : ℕ) (q : ℤ) :
    ((ofFinite f m q).num / (ofFinite f m q).den : ℚ) = m * 2 ^ q := by
  have power : (2 : ℚ) ^ q = (2 ^ q.toNat : ℕ) / (2 ^ (-q).toNat : ℕ) := by
    exact_mod_cast zpow_eq_div Nat.two_pos q
  rw [power]
  simp only [ofFinite]
  push_cast
  field_simp

theorem den_pos (f : BinaryFormat) (m : ℕ) (q : ℤ) : 0 < (ofFinite f m q).den := by
  simp only [ofFinite]
  positivity

/-- The number lies between two neighbours of a grid. -/
theorem floorAt_spec (pos : 0 < r.den) (g : ℤ) :
    (r.floorAt g : ℚ) * 10 ^ g ≤ r.num / r.den ∧
      (r.num / r.den : ℚ) < (r.floorAt g + 1 : ℕ) * 10 ^ g := by
  have positive : (0 : ℚ) < r.den := by exact_mod_cast pos
  have unit : 0 < r.den * 10 ^ g.toNat := by positivity
  have power : (10 : ℚ) ^ g = (10 ^ g.toNat : ℕ) / (10 ^ (-g).toNat : ℕ) := by
    exact_mod_cast zpow_eq_div (by decide : 0 < 10) g
  have low : r.floorAt g * (r.den * 10 ^ g.toNat) ≤ r.num * 10 ^ (-g).toNat :=
    Nat.div_mul_le_self _ _
  have high : r.num * 10 ^ (-g).toNat < (r.floorAt g + 1) * (r.den * 10 ^ g.toNat) := by
    rw [Nat.mul_comm (_ + 1)]
    exact Nat.lt_mul_div_succ _ unit
  constructor
  · rw [power, mul_div_assoc', div_le_div_iff₀ (by positivity) positive]
    have cast : (r.floorAt g : ℚ) * (r.den * (10 ^ g.toNat : ℕ)) ≤
        r.num * (10 ^ (-g).toNat : ℕ) := by exact_mod_cast low
    linarith
  · rw [power, mul_div_assoc', div_lt_div_iff₀ positive (by positivity)]
    have cast : (r.num : ℚ) * (10 ^ (-g).toNat : ℕ) <
        (r.floorAt g + 1 : ℕ) * (r.den * (10 ^ g.toNat : ℕ)) := by exact_mod_cast high
    linarith

/-- A grid that is finer than the interval is wide has a point in it. -/
theorem onGrid?_isSome (pos : 0 < m)
    (fine : 4 * (10 : ℚ) ^ g < (2 + quartersBelow f m q) * 2 ^ q) :
    ((ofFinite f m q).onGrid? g).isSome := by
  obtain ⟨below, above⟩ := floorAt_spec (den_pos f m q) g
  rw [num_div_den] at below above
  set d := (ofFinite f m q).floorAt g with floor
  have unit : (0 : ℚ) < 2 ^ q := by positivity
  have reach : (0 : ℚ) < quartersBelow f m q := by exact_mod_cast quartersBelow_pos f m q
  have hit : (ofFinite f m q).contains d g = true ∨
      (ofFinite f m q).contains (d + 1) g = true := by
    rw [contains_iff pos, contains_iff pos]
    by_cases near : (4 * m - quartersBelow f m q) * (2 : ℚ) ^ q < 4 * (d * 10 ^ g)
    · exact Or.inl (.ofStrict near (by nlinarith))
    · push_cast at above ⊢
      exact Or.inr (.ofStrict (by nlinarith) (by nlinarith))
  unfold onGrid?
  dsimp only
  rw [← floor]
  split
  case h_4 here next =>
    rw [here, next] at hit
    exact absurd hit (by decide)
  all_goals rfl

/-- The power of ten at the leading digit is at most the number. -/
theorem leadingPlace_spec (num_pos : 0 < r.num) (den_pos : 0 < r.den) :
    (10 : ℚ) ^ (r.leadingPlace - 1) ≤ r.num / r.den := by
  have positive : (0 : ℚ) < r.den := by exact_mod_cast den_pos
  unfold leadingPlace
  split_ifs with whole
  · set length := (digits (r.num / r.den)).length with digitCount
    have one_le : 1 ≤ length := List.length_pos_iff.mpr (digits_ne_nil _)
    have le : 10 ^ (length - 1) ≤ r.num / r.den := by
      rcases one_le.eq_or_lt with same | more
      · rw [← same]
        exact Nat.div_pos whole den_pos
      · exact Nat.le_of_not_lt fun less =>
          absurd ((length_digits_le_iff (by omega)).mpr less) (by omega)
    have exponent : (length : ℤ) - 1 = (length - 1 : ℕ) := by omega
    rw [exponent, zpow_natCast, le_div_iff₀ positive]
    have scaled : 10 ^ (length - 1) * r.den ≤ r.num :=
      (Nat.mul_le_mul_right _ le).trans (Nat.div_mul_le_self _ _)
    exact_mod_cast scaled
  · set length := (digits ((r.den - 1) / r.num)).length with digitCount
    have one_le : 1 ≤ length := List.length_pos_iff.mpr (digits_ne_nil _)
    have lt : (r.den - 1) / r.num < 10 ^ length := (length_digits_le_iff one_le).mp le_rfl
    have scaled : r.den ≤ r.num * 10 ^ length := by
      have := (Nat.div_lt_iff_lt_mul num_pos).mp lt
      rw [Nat.mul_comm]
      omega
    have exponent : 1 - (length : ℤ) - 1 = -length := by omega
    rw [exponent, zpow_neg, zpow_natCast, inv_le_iff_one_le_mul₀ (by positivity),
      div_mul_eq_mul_div, one_le_div positive]
    exact_mod_cast scaled

/-- Seventeen digits are enough up to double precision. -/
theorem contains_shortest (has : f.Has m q) (pos : 0 < m) (bits : f.fractionBits ≤ 52) :
    (ofFinite f m q).contains (ofFinite f m q).shortest.1 (ofFinite f m q).shortest.2 = true := by
  have num_pos : 0 < (ofFinite f m q).num := by
    simp only [ofFinite]
    positivity
  have leading := leadingPlace_spec num_pos (den_pos f m q)
  rw [num_div_den] at leading
  refine contains_firstGrid (by decide : 16 < 17) (onGrid?_isSome pos ?_)
  set place := (ofFinite f m q).leadingPlace - 1
  have unit : (0 : ℚ) < 2 ^ q := by positivity
  have last : (10 : ℚ) ^ (place - (16 : ℕ)) * 10 ^ 16 = 10 ^ place := by
    rw [← zpow_natCast, ← zpow_add₀ (by norm_num)]
    congr 1
    omega
  have count : f.fractionCount ≤ 2 ^ 52 := Nat.pow_le_pow_right (by decide) bits
  have width : 4 * (m : ℚ) < (2 + quartersBelow f m q) * 10 ^ 16 := by
    have lt := has.lt
    unfold quartersBelow
    split_ifs with power
    · have le : 4 * m < 3 * 10 ^ 16 := by omega
      exact_mod_cast le
    · have le : 4 * m < 4 * 10 ^ 16 := by omega
      exact_mod_cast le
  nlinarith

end RoundingInterval

end TypedSql.Numeric
