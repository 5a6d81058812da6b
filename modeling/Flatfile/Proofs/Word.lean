import Flatfile.Word
import Mathlib.Algebra.Ring.Nat

/-!
# Arithmetic of machine words

A word holds a number as it is as long as the number is small enough, and what has wrapped around
may go on in a sum.
-/

namespace Flatfile

variable {n m : Nat}

namespace Word64

theorem wrap_lt (n : Nat) : wrap n < 2 ^ 64 :=
  Nat.mod_lt _ (by decide)

theorem wrap_of_lt (h : n < 2 ^ 64) : wrap n = n :=
  Nat.mod_eq_of_lt h

theorem wrap_le (n : Nat) : wrap n ≤ n :=
  Nat.mod_le _ _

theorem sub_of_le (h : m ≤ n) (hn : n < 2 ^ 64) : sub n m = n - m := by
  rw [sub, wrap]
  omega

end Word64

namespace Word32

theorem wrap_lt (n : Nat) : wrap n < 2 ^ 32 :=
  Nat.mod_lt _ (by decide)

theorem wrap_of_lt (h : n < 2 ^ 32) : wrap n = n :=
  Nat.mod_eq_of_lt h

theorem wrap_wrap_add (n m : Nat) : wrap (wrap n + m) = wrap (n + m) :=
  Nat.mod_add_mod n _ m

/-- A sum still has its first summand for its value exactly if the second one wraps away. -/
theorem wrap_add_eq_left : wrap (n + m) = n ↔ n < 2 ^ 32 ∧ 2 ^ 32 ∣ m := by
  rw [wrap]
  omega

end Word32

end Flatfile
