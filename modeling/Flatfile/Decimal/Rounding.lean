import Flatfile.Decimal.Basic

/-!
# Rounding and rescaling

Rounding goes to the nearest neighbour, a half away from zero. Raising the scale appends zeros as
long as the coefficient stays within 96 bits, and stops short where it would not. A decimal has at
most 28 digits after the point; a number counted in units of a smaller digit may have more.

This is what is documented of rounding to some places with the midpoint away from zero, and of
`rescale`, which saturates at the largest scale that the coefficient has room for.
-/

namespace Flatfile.Decimal

def roundedQuotient (n k : Nat) : Nat :=
  (2 * n + tenPow k) / (2 * tenPow k)

theorem roundedQuotient_zero (n : Nat) : roundedQuotient n 0 = n := by
  simp only [roundedQuotient, tenPow_zero]
  omega

theorem roundedQuotient_succ_le (n k : Nat) : roundedQuotient n (k + 1) ≤ n / 10 + 1 := by
  have hpos : 0 < tenPow k := tenPow_pos k
  have hscale : n / 10 ≤ tenPow k * (n / 10) := Nat.le_mul_of_pos_left _ hpos
  have hprod : 2 * tenPow (k + 1) * (n / 10 + 2) = 20 * (tenPow k * (n / 10)) + 40 * tenPow k := by
    rw [tenPow_succ, ← Nat.mul_assoc]
    simp only [Nat.mul_add, Nat.mul_assoc]
    omega
  have hten := tenPow_succ k
  have hlt : roundedQuotient n (k + 1) < n / 10 + 2 := Nat.div_lt_of_lt_mul (by omega)
  omega

theorem roundedQuotient_lt {n k : Nat} (hn : n < limit) : roundedQuotient n k < limit := by
  cases k with
  | zero => simpa [roundedQuotient_zero] using hn
  | succ k =>
    have h := roundedQuotient_succ_le n k
    have hlimit : 2 < limit := by decide
    omega

/-- The decimal rounded to at most `places` digits after the point, of which there are never more
than 28. A decimal with fewer digits is left alone, except that zero always takes the scale asked
for; what becomes zero by rounding loses its sign. -/
def round (d : Decimal) (places : Nat) : Decimal :=
  if d.isZero then { d with scale := min places 28, scale_le := Nat.min_le_right _ _ }
  else if d.scale ≤ places then d
  else
    { negative := d.negative && roundedQuotient d.coefficient (d.scale - places) != 0
      coefficient := roundedQuotient d.coefficient (d.scale - places)
      scale := min places 28
      coefficient_lt := roundedQuotient_lt d.coefficient_lt
      scale_le := Nat.min_le_right _ _ }

def appendZeros (d : Decimal) : Nat → Decimal
  | 0 => d
  | n + 1 =>
    if h : 10 * d.coefficient < limit ∧ d.scale + 1 ≤ 28 then
      appendZeros ⟨d.negative, 10 * d.coefficient, d.scale + 1, h.1, h.2⟩ n
    else d

/-- The decimal rounded to `places` digits after the point and filled up with zeros to that scale,
or to the largest scale that its coefficient leaves room for. -/
def rescale (d : Decimal) (places : Nat) : Decimal :=
  (d.round places).appendZeros (places - (d.round places).scale)

def timesTens (coefficient : Nat) : Nat → Nat
  | 0 => coefficient
  | n + 1 =>
    if coefficient ≠ 0 ∧ 10 * coefficient < limit then timesTens (10 * coefficient) n
    else coefficient

/-- The decimal as a whole number of units of the last of `places` digits after the point, rounded.
The places may be more than a decimal can have itself; the number stops growing where its
coefficient has no room for another digit. -/
def unitsAt (d : Decimal) (places : Nat) : Nat :=
  timesTens (d.round places).coefficient (places - (d.round places).scale)

end Flatfile.Decimal
