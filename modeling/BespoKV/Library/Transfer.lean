import Mathlib.Data.Nat.Basic

/-!
# Transfers in several writes

A writer offers what is left of a message to a sink, again and again, until the sink has
taken all of it, has no room or fails.
-/

namespace Transfer

/-- What one write does. -/
inductive Write where
  /-- the sink takes as much as it has room for -/
  | accepts (room : Nat)
  | interrupted
  | wouldBlock
  | failed
  deriving DecidableEq, Repr

/-- How much of `size` is taken before the writer stops.  A sink whose writes are used up has
no room. -/
def taken : List Write → Nat → Nat
  | .accepts room :: writes, size =>
      if min room size = 0 then 0 else min room size + taken writes (size - min room size)
  | .interrupted :: writes, size => taken writes size
  | _, _ => 0

/-- The writer stops because of a failure. -/
def fails : List Write → Nat → Bool
  | .accepts room :: writes, size =>
      if min room size = 0 then false else fails writes (size - min room size)
  | .interrupted :: writes, size => fails writes size
  | .failed :: _, size => decide (0 < size)
  | _, _ => false

theorem taken_le (writes : List Write) (size : Nat) : taken writes size ≤ size := by
  induction writes generalizing size with
  | nil => exact Nat.zero_le size
  | cons write writes ih =>
      cases write with
      | accepts room =>
          have rest := ih (size - min room size)
          rw [taken]
          split <;> omega
      | interrupted => exact ih size
      | wouldBlock | failed => exact Nat.zero_le size

/-- A writer that fails has not got rid of everything. -/
theorem taken_lt_of_fails {writes : List Write} {size : Nat} (failed : fails writes size = true) :
    taken writes size < size := by
  induction writes generalizing size with
  | nil => cases failed
  | cons write writes ih =>
      cases write with
      | accepts room =>
          rw [fails] at failed
          rw [taken]
          split at failed
          · cases failed
          next positive =>
            have rest := ih failed
            rw [if_neg positive]
            omega
      | interrupted => exact ih failed
      | wouldBlock => cases failed
      | failed => exact of_decide_eq_true failed

@[simp] theorem taken_zero (writes : List Write) : taken writes 0 = 0 :=
  Nat.le_zero.mp (taken_le writes 0)

@[simp] theorem fails_zero (writes : List Write) : fails writes 0 = false := by
  by_contra failed
  exact Nat.not_lt_zero _ (taken_lt_of_fails (Bool.not_eq_false _ ▸ failed))

end Transfer
