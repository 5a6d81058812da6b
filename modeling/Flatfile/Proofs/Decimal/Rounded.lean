import Flatfile.Decimal.Rounding
import Mathlib.Algebra.Order.Round
import Mathlib.Data.Rat.Floor
import Mathlib.Tactic.FieldSimp
import Mathlib.Tactic.Ring

/-!
# The numbers that decimals stand for

A decimal stands for a rational number, and rounding is first of all an operation on these. A
decimal counted in units of a smaller digit is the number rounded, as long as the count does not
come near the largest coefficient, where it stops growing (`unitsAt_eq_or`).
-/

namespace Flatfile

open Decimal (roundedQuotient)

-- ------------------------------------------------------------------
-- Rounding
-- ------------------------------------------------------------------

/-- The multiple of `1 / 10 ^ places` nearest to a number, the one away from zero if two are. -/
def roundAway (q : ℚ) (places : Nat) : ℚ :=
  let units : ℚ := round (|q| * 10 ^ places)
  (if q < 0 then -units else units) / 10 ^ places

theorem round_div_tenPow (n k : Nat) : round ((n : ℚ) / 10 ^ k) = roundedQuotient n k := by
  have hsum : (n : ℚ) / 10 ^ k + 1 / 2 = ((2 * n + 10 ^ k : ℕ) : ℚ) / ((2 * 10 ^ k : ℕ) : ℚ) := by
    push_cast
    field_simp
  rw [round_eq, hsum, Rat.floor_natCast_div_natCast]
  rfl

namespace Decimal

variable {d : Decimal} {places : Nat}

def toRat (d : Decimal) : ℚ :=
  d.mantissa / 10 ^ d.scale

theorem toRat_eq (d : Decimal) :
    d.toRat = if d.negative then -((d.coefficient : ℚ) / 10 ^ d.scale)
      else d.coefficient / 10 ^ d.scale := by
  rw [toRat, mantissa]
  split
  · rw [Int.cast_neg, Int.cast_natCast, neg_div]
  · rw [Int.cast_natCast]

theorem abs_toRat (d : Decimal) : |d.toRat| = d.coefficient / 10 ^ d.scale := by
  have hnonneg : (0 : ℚ) ≤ d.coefficient / 10 ^ d.scale := by positivity
  rw [toRat_eq]
  split
  · rw [abs_neg, abs_of_nonneg hnonneg]
  · exact abs_of_nonneg hnonneg

theorem toRat_eq_zero_iff : d.toRat = 0 ↔ d.coefficient = 0 := by
  have hpos : (10 : ℚ) ^ d.scale ≠ 0 := by positivity
  rw [← abs_eq_zero, abs_toRat, div_eq_zero_iff, or_iff_left hpos, Nat.cast_eq_zero]

theorem toRat_neg_iff : d.toRat < 0 ↔ d.negative = true ∧ d.coefficient ≠ 0 := by
  have hnonneg : (0 : ℚ) ≤ d.coefficient / 10 ^ d.scale := by positivity
  rw [ne_eq, ← toRat_eq_zero_iff, toRat_eq]
  cases d.negative with
  | false => simpa using hnonneg
  | true => simpa [lt_iff_le_and_ne, eq_comm] using fun _ => hnonneg

def roundedUnits (d : Decimal) (places : Nat) : Nat :=
  if d.scale ≤ places then d.coefficient * 10 ^ (places - d.scale)
  else roundedQuotient d.coefficient (d.scale - places)

end Decimal

theorem round_abs_toRat (d : Decimal) (places : Nat) :
    round (|d.toRat| * 10 ^ places) = d.roundedUnits places := by
  rw [Decimal.abs_toRat, Decimal.roundedUnits]
  split
  · rename_i hle
    have hunits : (d.coefficient : ℚ) / 10 ^ d.scale * 10 ^ places =
        ((d.coefficient * 10 ^ (places - d.scale) : ℕ) : ℚ) := by
      obtain ⟨more, rfl⟩ := Nat.exists_eq_add_of_le hle
      rw [Nat.add_sub_cancel_left, pow_add]
      push_cast
      field_simp
    rw [hunits, round_natCast]
  · rename_i hlt
    have hunits : (d.coefficient : ℚ) / 10 ^ d.scale * 10 ^ places =
        d.coefficient / 10 ^ (d.scale - places) := by
      obtain ⟨less, hscale⟩ := Nat.exists_eq_add_of_le (Nat.le_of_not_le hlt)
      rw [hscale, Nat.add_sub_cancel_left, pow_add]
      field_simp
    rw [hunits, round_div_tenPow]

namespace Decimal

variable {d : Decimal} {places : Nat}

theorem roundedUnits_of_zero (h : d.coefficient = 0) : d.roundedUnits places = 0 := by
  have habs : |d.toRat| = 0 := abs_eq_zero.2 (toRat_eq_zero_iff.2 h)
  have hround := round_abs_toRat d places
  rw [habs, zero_mul, round_zero] at hround
  exact (Int.natCast_eq_zero.1 hround.symm)

theorem roundAway_toRat (d : Decimal) (places : Nat) :
    roundAway d.toRat places =
      (if d.negative then -(d.roundedUnits places : ℚ) else d.roundedUnits places) /
        10 ^ places := by
  simp only [roundAway, round_abs_toRat, toRat_neg_iff, Int.cast_natCast]
  by_cases hzero : d.coefficient = 0
  · simp [roundedUnits_of_zero hzero]
  · simp [hzero]

theorem roundAway_neg_iff :
    roundAway d.toRat places < 0 ↔ d.negative = true ∧ d.roundedUnits places ≠ 0 := by
  have hpos : (0 : ℚ) < 10 ^ places := by positivity
  have hunits : (0 : ℚ) ≤ d.roundedUnits places := Nat.cast_nonneg _
  rw [roundAway_toRat, div_neg_iff, or_iff_right (fun h => absurd h.2 (not_lt.2 hpos.le)),
    and_iff_left hpos]
  cases d.negative with
  | false => simp
  | true => simp [Nat.pos_iff_ne_zero]

-- ------------------------------------------------------------------
-- Counting in units
-- ------------------------------------------------------------------

theorem timesTens_eq_or (n k : Nat) :
    timesTens n k = n * 10 ^ k ∨
      limit ≤ 10 * timesTens n k ∧ timesTens n k ≤ n * 10 ^ k := by
  induction k generalizing n with
  | zero => exact .inl (Nat.mul_one n).symm
  | succ k ih =>
    have hpow : 10 * n * 10 ^ k = n * 10 ^ (k + 1) := by ring
    rw [timesTens]
    split
    · rw [← hpow]
      exact ih (10 * n)
    · rename_i hstop
      by_cases hzero : n = 0
      · exact .inl (by simp [hzero])
      · refine .inr ⟨Nat.not_lt.1 fun hroom => hstop ⟨hzero, hroom⟩, ?_⟩
        exact Nat.le_mul_of_pos_right n (by positivity)

theorem isZero_iff : d.isZero = true ↔ d.coefficient = 0 :=
  beq_iff_eq

/-- The count is exact, unless it has no room for another digit. -/
theorem unitsAt_eq_or (d : Decimal) (places : Nat) :
    d.unitsAt places = d.roundedUnits places ∨
      limit ≤ 10 * d.unitsAt places ∧ d.unitsAt places ≤ d.roundedUnits places := by
  rw [unitsAt, round]
  split
  · rename_i hzero
    rw [isZero_iff] at hzero
    left
    simp only [roundedUnits_of_zero hzero, hzero]
    cases places - min places 28 <;> simp [timesTens]
  split
  · rename_i hle
    rw [roundedUnits, if_pos hle]
    exact timesTens_eq_or _ _
  · rename_i hlt
    have hplaces : min places 28 = places :=
      Nat.min_eq_left (Nat.le_trans (Nat.le_of_not_le hlt) d.scale_le)
    left
    simp only [roundedUnits, if_neg hlt, hplaces, Nat.sub_self, timesTens]

theorem unitsAt_eq (h : d.unitsAt places < 10 ^ 18) : d.unitsAt places = d.roundedUnits places := by
  have hlimit : 10 * 10 ^ 18 < limit := by decide
  exact (unitsAt_eq_or d places).resolve_right fun hfull => by omega

theorem unitsAt_of_lt (h : d.roundedUnits places < 10 ^ 18) :
    d.unitsAt places = d.roundedUnits places := by
  have hle : d.unitsAt places ≤ d.roundedUnits places :=
    (unitsAt_eq_or d places).elim Nat.le_of_eq And.right
  exact unitsAt_eq (Nat.lt_of_le_of_lt hle h)

end Decimal
end Flatfile
