/-!
# Decimal numbers

A decimal is a sign, a coefficient of at most 96 bits and a scale of at most 28 digits; it stands
for `± coefficient / 10 ^ scale`. The scale is part of the value, so that `1.50` and `1.5` are
printed differently though they denote one number, and zero has a sign.

The formatter takes its decimals from a library. This is the type as the library documents it, with
its `mantissa`, `normalize` and conversions to whole numbers; the modules beside this one have the
rest of what is used of it.
-/

namespace Flatfile

abbrev Decimal.limit : Nat := 0x1000000000000000000000000

structure Decimal where
  negative : Bool
  coefficient : Nat
  scale : Nat
  coefficient_lt : coefficient < Decimal.limit := by decide
  scale_le : scale ≤ 28 := by decide
  deriving DecidableEq

namespace Decimal

def tenPow (n : Nat) : Nat :=
  Nat.pow 10 n

theorem tenPow_zero : tenPow 0 = 1 := rfl

theorem tenPow_succ (n : Nat) : tenPow (n + 1) = 10 * tenPow n :=
  Nat.mul_comm _ _

theorem tenPow_pos (n : Nat) : 0 < tenPow n :=
  Nat.pow_pos (by decide)

def maxScale : Nat := 28

def zero : Decimal := { negative := false, coefficient := 0, scale := 0 }

instance : Inhabited Decimal := ⟨zero⟩

def ofParts? (negative : Bool) (coefficient scale : Nat) : Option Decimal :=
  if h : coefficient < limit ∧ scale ≤ 28 then some ⟨negative, coefficient, scale, h.1, h.2⟩
  else none

def ofInt? (n : Int) (scale : Nat) : Option Decimal :=
  ofParts? (n < 0) n.natAbs scale

def mantissa (d : Decimal) : Int :=
  if d.negative then -(d.coefficient : Int) else d.coefficient

def isZero (d : Decimal) : Bool :=
  d.coefficient == 0

def neg (d : Decimal) : Decimal :=
  { d with negative := !d.negative }

def wholeMagnitude? (d : Decimal) : Option Nat :=
  if d.coefficient % tenPow d.scale = 0 then some (d.coefficient / tenPow d.scale) else none

/-- The decimal as a natural number of 64 bits; one with a minus sign, zero included, is none. -/
def toWord? (d : Decimal) : Option Nat :=
  match d.wholeMagnitude? with
  | some n => if d.negative = false ∧ n < 0x10000000000000000 then some n else none
  | none => none

def truncated? (d : Decimal) : Option Int :=
  let whole := d.coefficient / tenPow d.scale
  let n : Int := if d.negative then -(whole : Int) else whole
  if -0x8000000000000000 ≤ n ∧ n < 0x8000000000000000 then some n else none

def stripZeros (coefficient : Nat) : Nat → Nat × Nat
  | 0 => (coefficient, 0)
  | scale + 1 =>
    if coefficient % 10 = 0 then stripZeros (coefficient / 10) scale else (coefficient, scale + 1)

theorem stripZeros_le (coefficient scale : Nat) :
    (stripZeros coefficient scale).1 ≤ coefficient ∧ (stripZeros coefficient scale).2 ≤ scale := by
  induction scale generalizing coefficient with
  | zero => simp [stripZeros]
  | succ scale ih =>
    simp only [stripZeros]
    split
    · have h := ih (coefficient / 10)
      omega
    · simp

def normalize (d : Decimal) : Decimal :=
  if d.isZero then zero
  else
    { negative := d.negative
      coefficient := (stripZeros d.coefficient d.scale).1
      scale := (stripZeros d.coefficient d.scale).2
      coefficient_lt := Nat.lt_of_le_of_lt (stripZeros_le _ _).1 d.coefficient_lt
      scale_le := Nat.le_trans (stripZeros_le _ _).2 d.scale_le }

end Decimal
end Flatfile
