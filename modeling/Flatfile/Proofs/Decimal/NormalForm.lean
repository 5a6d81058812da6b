import Flatfile.Proofs.Decimal.Spelling

/-!
# Normal forms of decimals

Normalising leaves no zero at the end of a fraction, and one zero. Two decimals of that form that
stand for one number are the same, so that normal forms, and their texts with them, are equal
exactly if the numbers are (`toText_normalize_eq_iff`).
-/

namespace Flatfile.Decimal

variable {d e : Decimal}

/-- The fraction does not end in a zero, and there is one zero only. -/
structure IsNormal (d : Decimal) : Prop where
  zero : d.coefficient = 0 → d = .zero
  fraction : d.scale ≠ 0 → d.coefficient % 10 ≠ 0

theorem stripZeros_fraction (n scale : Nat) (h : (stripZeros n scale).2 ≠ 0) :
    (stripZeros n scale).1 % 10 ≠ 0 := by
  induction scale generalizing n with
  | zero => simp [stripZeros] at h
  | succ scale ih =>
    rw [stripZeros] at h ⊢
    split at h
    next hten =>
      rw [if_pos hten]
      exact ih (n / 10) h
    next hten =>
      rw [if_neg hten]
      exact hten

theorem isNormal_normalize (d : Decimal) : d.normalize.IsNormal := by
  constructor
  · intro h
    have hzero : d.coefficient = 0 := by
      rw [← toRat_eq_zero_iff, toRat_normalize, toRat_eq_zero_iff] at h
      exact h
    rw [normalize, if_pos (isZero_iff.2 hzero)]
  · rw [normalize]
    split
    next => exact fun h => absurd rfl h
    next => exact stripZeros_fraction d.coefficient d.scale

theorem coefficient_mul_eq (h : d.toRat = e.toRat) :
    d.coefficient * 10 ^ e.scale = e.coefficient * 10 ^ d.scale := by
  have habs := congrArg abs h
  rw [abs_toRat, abs_toRat, div_eq_div_iff (by positivity) (by positivity)] at habs
  exact_mod_cast habs

theorem IsNormal.scale_le (hd : d.IsNormal) (h : d.toRat = e.toRat) : d.scale ≤ e.scale := by
  by_contra hlt
  obtain ⟨k, hk⟩ := Nat.exists_eq_add_of_lt (Nat.not_le.1 hlt)
  have hpos : 0 < 10 ^ e.scale := by positivity
  have hunits : d.coefficient = e.coefficient * 10 ^ (k + 1) := by
    have hmul := coefficient_mul_eq h
    rw [hk, Nat.add_assoc, Nat.pow_add, Nat.mul_comm (10 ^ e.scale), ← Nat.mul_assoc] at hmul
    exact Nat.eq_of_mul_eq_mul_right hpos hmul
  refine hd.fraction (by omega) ?_
  rw [hunits, Nat.pow_succ, ← Nat.mul_assoc, Nat.mul_mod_left]

theorem IsNormal.eq_of_toRat (hd : d.IsNormal) (he : e.IsNormal) (h : d.toRat = e.toRat) :
    d = e := by
  have hscale : d.scale = e.scale := Nat.le_antisymm (hd.scale_le h) (he.scale_le h.symm)
  have hcoefficient : d.coefficient = e.coefficient := by
    have hmul := coefficient_mul_eq h
    rw [hscale] at hmul
    exact Nat.eq_of_mul_eq_mul_right (by positivity) hmul
  by_cases hzero : d.coefficient = 0
  · rw [hd.zero hzero, he.zero (hcoefficient ▸ hzero)]
  · -- The sign of a number that is not zero is that of its decimal.
    have hnegative : d.negative = true ↔ e.negative = true := by
      have hsign := toRat_neg_iff (d := d)
      rw [h, toRat_neg_iff, and_iff_left hzero, and_iff_left (hcoefficient ▸ hzero)] at hsign
      exact hsign.symm
    cases d
    cases e
    simp only [mk.injEq]
    exact ⟨Bool.eq_iff_iff.2 hnegative, hcoefficient, hscale⟩

theorem normalize_eq_iff : d.normalize = e.normalize ↔ d.toRat = e.toRat := by
  constructor
  · intro h
    rw [← toRat_normalize d, h, toRat_normalize]
  · intro h
    refine (isNormal_normalize d).eq_of_toRat (isNormal_normalize e) ?_
    rw [toRat_normalize, toRat_normalize, h]

/-- The texts of two normal forms are equal exactly if the numbers are. -/
theorem toText_normalize_eq_iff : d.normalize.toText = e.normalize.toText ↔ d.toRat = e.toRat := by
  rw [← normalize_eq_iff]
  constructor
  · intro h
    have hread := ofText_normalize d
    rw [h, ofText_normalize] at hread
    exact (Except.ok.inj hread).symm
  · exact congrArg toText

end Flatfile.Decimal
