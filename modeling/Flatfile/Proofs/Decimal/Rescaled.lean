import Flatfile.Proofs.Decimal.Rounded

/-!
# Decimals of a given scale

A decimal is brought to a scale by rounding it, or by appending zeros. Where its coefficient has no
room for all of them some are missing. The decimal still denotes the number, with fewer digits after
the point than were asked for; but whoever takes its coefficient for the number in units of the last
digit asked for has a number that is too small by a power of ten (`Rescaled.toRat_eq`).
-/

namespace Flatfile.Decimal

variable {d r w : Decimal} {places n k : Nat}

-- ------------------------------------------------------------------
-- Appending zeros
-- ------------------------------------------------------------------

/-- The decimal `r` is `d` with `n` zeros appended, all but the last `missing` of them. -/
structure ZerosAppended (d : Decimal) (n : Nat) (r : Decimal) (missing : Nat) : Prop where
  negative : r.negative = d.negative
  scale : r.scale + missing = d.scale + n
  units : r.coefficient * 10 ^ missing = d.coefficient * 10 ^ n
  full : 0 < missing → limit ≤ 10 * r.coefficient

theorem exists_zerosAppended (d : Decimal) (n : Nat) (hscale : d.scale + n ≤ 28) :
    ∃ missing, ZerosAppended d n (d.appendZeros n) missing := by
  induction n generalizing d with
  | zero => exact ⟨0, rfl, rfl, rfl, nofun⟩
  | succ n ih =>
    rw [appendZeros]
    split
    next hroom =>
      obtain ⟨missing, happended⟩ :=
        ih ⟨d.negative, 10 * d.coefficient, d.scale + 1, hroom.1, hroom.2⟩ (by simp only; omega)
      refine ⟨missing, happended.negative, ?_, ?_, happended.full⟩
      · exact happended.scale.trans (Nat.add_right_comm d.scale 1 n)
      · exact happended.units.trans (by ring)
    next hroom => exact ⟨n + 1, rfl, rfl, rfl, fun _ => by omega⟩

/-- Of the zeros no more are missing than have to be. -/
theorem mul_tenPow_lt_iff (hlt : n < limit) (hfull : 0 < k → limit ≤ 10 * n) (j : Nat) :
    n * 10 ^ k < limit * 10 ^ j ↔ k ≤ j := by
  constructor
  · intro h
    by_contra hlt
    obtain ⟨more, rfl⟩ := Nat.exists_eq_add_of_lt (Nat.lt_of_not_le hlt)
    have hle : limit * 10 ^ j ≤ n * 10 ^ (j + more + 1) := by
      calc limit * 10 ^ j
          ≤ limit * 10 ^ (j + more) :=
            Nat.mul_le_mul_left _ (Nat.pow_le_pow_right (by decide) (Nat.le_add_right j more))
        _ ≤ 10 * n * 10 ^ (j + more) := Nat.mul_le_mul_right _ (hfull (Nat.succ_pos _))
        _ = n * 10 ^ (j + more + 1) := by ring
    omega
  · intro h
    calc n * 10 ^ k
        < limit * 10 ^ k := Nat.mul_lt_mul_of_pos_right hlt (by positivity)
      _ ≤ limit * 10 ^ j := Nat.mul_le_mul_left _ (Nat.pow_le_pow_right (by decide) h)

-- ------------------------------------------------------------------
-- Rounding
-- ------------------------------------------------------------------

/-- The decimal `r` has the sign of `d`, and `n` more digits of it are wanted to have the number in
units of the last of `places` digits after the point. -/
structure RoundedShort (d : Decimal) (places : Nat) (r : Decimal) (n : Nat) : Prop where
  negative : r.coefficient ≠ 0 → r.negative = d.negative
  scale : r.scale + n = places
  units : r.coefficient * 10 ^ n = d.roundedUnits places

theorem roundedShort_round (d : Decimal) (hplaces : places ≤ 28) :
    RoundedShort d places (d.round places) (places - (d.round places).scale) := by
  rw [round]
  split
  next hzero =>
    rw [isZero_iff] at hzero
    refine ⟨fun _ => rfl, Nat.add_sub_cancel' (Nat.min_le_left _ _), ?_⟩
    simp only [hzero, roundedUnits_of_zero hzero, Nat.zero_mul]
  next =>
    split
    next hle => exact ⟨fun _ => rfl, Nat.add_sub_cancel' hle, (if_pos hle).symm⟩
    next hlt =>
      refine ⟨fun hsome => ?_, Nat.add_sub_cancel' (Nat.min_le_left _ _), ?_⟩
      · simp only at hsome ⊢
        rw [bne_iff_ne.2 hsome, Bool.and_true]
      · simp only [roundedUnits, if_neg hlt, Nat.min_eq_left hplaces, Nat.sub_self, pow_zero,
          Nat.mul_one]

-- ------------------------------------------------------------------
-- Counts with a sign
-- ------------------------------------------------------------------

def roundedInt (d : Decimal) (places : Nat) : ℤ :=
  if d.negative then -(d.roundedUnits places : ℤ) else d.roundedUnits places

theorem roundAway_eq (d : Decimal) (places : Nat) :
    roundAway d.toRat places = d.roundedInt places / 10 ^ places := by
  rw [roundAway_toRat, roundedInt]
  cases d.negative <;> simp

@[simp] theorem natAbs_roundedInt (d : Decimal) (places : Nat) :
    (d.roundedInt places).natAbs = d.roundedUnits places := by
  rw [roundedInt]
  cases d.negative <;> simp

@[simp] theorem natAbs_mantissa (d : Decimal) : d.mantissa.natAbs = d.coefficient := by
  rw [mantissa]
  cases d.negative <;> simp

theorem roundedInt_scale (d : Decimal) : d.roundedInt d.scale = d.mantissa := by
  simp [roundedInt, roundedUnits, mantissa]

-- ------------------------------------------------------------------
-- Rescaling
-- ------------------------------------------------------------------

/-- The decimal `r` is `d` rounded to `places` digits after the point, less the last `missing` of
them, which are zeros that the coefficient has no room for. -/
structure Rescaled (d : Decimal) (places : Nat) (r : Decimal) (missing : Nat) : Prop
    extends RoundedShort d places r missing where
  least : ∀ j, d.roundedUnits places < limit * 10 ^ j ↔ missing ≤ j

theorem exists_rescaled (d : Decimal) (hplaces : places ≤ 28) :
    ∃ missing, Rescaled d places (d.rescale places) missing := by
  have hround := roundedShort_round d hplaces
  obtain ⟨missing, happended⟩ := exists_zerosAppended (d.round places)
    (places - (d.round places).scale) (hround.scale.symm ▸ hplaces)
  have hunits := happended.units.trans hround.units
  refine ⟨missing, ⟨fun hsome => happended.negative.trans (hround.negative fun hzero => ?_),
    happended.scale.trans hround.scale, hunits⟩, fun j => ?_⟩
  · have hnone := happended.units
    rw [hzero, Nat.zero_mul, Nat.mul_eq_zero, or_iff_left (by positivity)] at hnone
    exact hsome hnone
  · rw [← hunits]
    exact mul_tenPow_lt_iff (d.rescale places).coefficient_lt happended.full j

namespace Rescaled

variable {missing : Nat}

theorem toRat_eq (h : Rescaled d places r missing) (hcoefficient : w.coefficient = r.coefficient)
    (hscale : w.scale = places) (hsign : r.coefficient ≠ 0 → w.negative = r.negative) :
    w.toRat = roundAway d.toRat places / 10 ^ missing := by
  have hunits : (d.roundedUnits places : ℚ) = r.coefficient * 10 ^ missing := by
    exact_mod_cast h.units.symm
  have hcancel : (r.coefficient : ℚ) * 10 ^ missing / 10 ^ places / 10 ^ missing =
      r.coefficient / 10 ^ places := by
    field_simp
  rw [Decimal.toRat_eq, roundAway_toRat, hunits, hcoefficient, hscale]
  by_cases hzero : r.coefficient = 0
  · simp [hzero]
  · rw [hsign hzero, h.negative hzero]
    cases d.negative with
    | false => simp [hcancel]
    | true => simp [neg_div, hcancel]

/-- Nothing is missing exactly if a coefficient has room for the number in units of the last of
`places` digits. -/
theorem eq_roundAway_iff (h : Rescaled d places r missing) :
    roundAway d.toRat places / 10 ^ missing = roundAway d.toRat places ↔
      d.roundedUnits places < limit := by
  have hfits := h.least 0
  rw [pow_zero, Nat.mul_one, Nat.le_zero] at hfits
  rw [hfits]
  constructor
  · intro heq
    by_contra hmissing
    have hunits : (d.roundedUnits places : ℚ) ≠ 0 := by
      have hpos : 0 < limit := by decide
      have hlarge : limit ≤ d.roundedUnits places := Nat.le_of_not_lt (mt hfits.1 hmissing)
      exact_mod_cast (by omega : d.roundedUnits places ≠ 0)
    have hsome : roundAway d.toRat places ≠ 0 := by
      rw [roundAway_toRat]
      split <;> simp [hunits]
    have hone : (10 : ℚ) ^ missing ≠ 1 := (pow_eq_one_iff_of_nonneg (by norm_num) hmissing).not.2
      (by norm_num)
    rw [div_eq_iff (by positivity), eq_comm, mul_eq_left₀ hsome] at heq
    exact hone heq
  · rintro rfl
    simp

/-- Rescaling gives the count, unless there is no room for it; then what it gives is large too. -/
theorem mantissa_eq_or (h : Rescaled d places r missing) :
    r.mantissa = d.roundedInt places ∨
      limit ≤ 10 * r.coefficient ∧ limit ≤ d.roundedUnits places := by
  cases missing with
  | zero =>
    have hunits : r.coefficient = d.roundedUnits places := by simpa using h.units
    left
    by_cases hzero : r.coefficient = 0
    · simp [mantissa, roundedInt, ← hunits, hzero]
    · rw [mantissa, roundedInt, h.negative hzero, hunits]
  | succ missing =>
    have hlarge : limit * 10 ^ missing ≤ d.roundedUnits places := by
      simpa using (h.least missing).not
    have hpow : 0 < 10 ^ missing := by positivity
    refine .inr ⟨?_, Nat.le_trans (Nat.le_mul_of_pos_right limit hpow) hlarge⟩
    rw [← h.units, pow_succ, ← Nat.mul_assoc, Nat.mul_right_comm] at hlarge
    simpa [Nat.mul_comm] using Nat.le_of_mul_le_mul_right hlarge hpow

end Rescaled
end Flatfile.Decimal
