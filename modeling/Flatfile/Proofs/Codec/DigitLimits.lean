import Flatfile.Proofs.Codec.Digits
import Mathlib.Data.Nat.Digits.Defs

/-!
# The numbers that a decimal field takes

A number is rounded to the scale of its field and counted in units of the last digit. A count of
more than 18 digits is refused, so is one for which the field has no room, and every other count is
written with as many digits as the field has (`ofDecimal_exact`). A count stops growing where a
coefficient of 96 bits is full. By then it has more than 18 digits, so that a count that stopped
short of the scale is never written.
-/

namespace Flatfile.DecimalDigits

variable {n k width scale capacity : Nat} {digits : List UInt8} {v : Decimal}

-- ------------------------------------------------------------------
-- Expansions
-- ------------------------------------------------------------------

structure Spells (digits : List UInt8) (width n : Nat) : Prop where
  length : digits.length = width
  le_nine : ∀ d ∈ digits, d ≤ 9
  value : Nat.ofDigits 10 (digits.reverse.map UInt8.toNat) = n

theorem ofDigits_reverse (digits : List UInt8) :
    Nat.ofDigits 10 (digits.reverse.map UInt8.toNat) = value digits := by
  induction digits using List.reverseRecOn with
  | nil => rfl
  | append_singleton digits d ih =>
    rw [List.map_reverse] at ih
    simp [Nat.ofDigits_cons, ih, value_concat, Nat.add_comm]

theorem spells_expand (h : n < 10 ^ width) : Spells (expand width n) width n where
  length := expand_length width n
  le_nine _ := le_nine_of_mem_expand
  value := (ofDigits_reverse _).trans (value_expand h)

theorem lt_count (hk : 0 < k) (h : 10 ^ k ≤ n) : k < count n := by
  have hn : n ≠ 0 := by
    rintro rfl
    exact absurd h (by simp)
  rw [count, if_neg hn]
  by_contra hfew
  exact absurd ((Nat.length_toDigits_le_iff (by decide) hk).1 (Nat.le_of_not_lt hfew)) (by omega)

-- ------------------------------------------------------------------
-- Limits
-- ------------------------------------------------------------------

/-- A count that stopped short still has more than 18 digits. -/
theorem le_unitsAt (h : 10 ^ 18 ≤ v.roundedUnits scale) : 10 ^ 18 ≤ v.unitsAt scale := by
  by_contra hfew
  have hexact := Decimal.unitsAt_eq (Nat.lt_of_not_le hfew)
  omega

theorem ofDecimal_tooMany (capacity : Nat) (h : 10 ^ 18 ≤ v.roundedUnits scale) :
    ofDecimal v scale capacity = .error (.tooManyDigits (count (v.unitsAt scale))) :=
  if_pos (le_unitsAt h)

theorem ofDecimal_full (hfew : v.roundedUnits scale < 10 ^ 18)
    (hfull : 10 ^ capacity ≤ v.roundedUnits scale) :
    ofDecimal v scale capacity = .error (.overflow v.toText capacity) := by
  have hunits := Decimal.unitsAt_of_lt hfew
  rw [← hunits] at hfew hfull
  exact (if_neg (Nat.not_le.2 hfew)).trans (if_pos hfull)

/-- The digits of a number in a field. Let `n` be the number without its sign, rounded to the scale
of the field, a half away from zero, and counted in units of the last digit. A count of more than 18
digits is refused, then one for which the field is too narrow, and every other one is written in
full width, with a minus exactly if the rounded number is below zero. -/
theorem ofDecimal_exact (v : Decimal) (scale capacity : Nat) :
    ∃ n : ℕ, (n : ℤ) = round (|v.toRat| * 10 ^ scale) ∧
      if 10 ^ 18 ≤ n then
        ∃ k, 18 < k ∧ ofDecimal v scale capacity = .error (.tooManyDigits k)
      else if 10 ^ capacity ≤ n then
        ofDecimal v scale capacity = .error (.overflow v.toText capacity)
      else
        ∃ negative digits, ofDecimal v scale capacity = .ok (negative, digits) ∧
          (negative = true ↔ roundAway v.toRat scale < 0) ∧ Spells digits capacity n := by
  refine ⟨v.roundedUnits scale, (round_abs_toRat v scale).symm, ?_⟩
  split
  next hmany => exact ⟨_, lt_count (by decide) (le_unitsAt hmany), ofDecimal_tooMany capacity hmany⟩
  next hfew =>
    replace hfew := Nat.lt_of_not_le hfew
    split
    next hfull => exact ofDecimal_full hfew hfull
    next hroom =>
      replace hroom := Nat.lt_of_not_le hroom
      refine ⟨_, _, ofDecimal_eq hfew hroom, ?_, spells_expand hroom⟩
      rw [Decimal.roundAway_neg_iff]
      simp

/-- With 18 digits after the point this number has 29 digits, one more than a coefficient of 96 bits
has room for; the 28 that there is room for are too many as well. -/
example : ofDecimal { negative := false, coefficient := 79228162515, scale := 0 } 18 28 =
    .error (.tooManyDigits 28) := by
  decide +kernel

end Flatfile.DecimalDigits
