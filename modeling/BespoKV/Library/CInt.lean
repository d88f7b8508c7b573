import Mathlib.Algebra.Ring.Int.Defs

/-!
# Signed machine integers

The conversion of an integer to a 32-bit `int`, with which every operation on such numbers
ends.
-/

namespace CInt

/-- The 32-bit `int` with the same low bits. -/
def wrap (n : Int) : Int := (n + 2 ^ 31) % 2 ^ 32 - 2 ^ 31

/-- A number that fits is not changed. -/
theorem wrap_of_fits {n : Int} (low : -2 ^ 31 ≤ n) (high : n < 2 ^ 31) : wrap n = n := by
  unfold wrap
  omega

theorem wrap_range (n : Int) : -2 ^ 31 ≤ wrap n ∧ wrap n < 2 ^ 31 := by
  unfold wrap
  omega

/-- Only multiples of `2 ^ 32` are lost. -/
theorem exists_wrap_eq (n : Int) : ∃ k, wrap n = n + k * 2 ^ 32 := by
  refine ⟨-((n + 2 ^ 31) / 2 ^ 32), ?_⟩
  unfold wrap
  omega

/-- The conversion of an `int` to `size_t`. -/
def sizeT (n : Int) : Nat := (n % 2 ^ 64).toNat

theorem sizeT_of_fits {n : Int} (low : 0 ≤ n) (high : n < 2 ^ 31) : sizeT n = n.toNat := by
  unfold sizeT
  omega

end CInt
