import Mathlib.Data.List.Basic
import Mathlib.Tactic.Ring

/-!
# Little-endian numbers and bounded reads

Numbers of a fixed width as bytes, least significant byte first, and reads from a buffer
that fail where the buffer ends.
-/

namespace Octets

/-- The `width` low bytes of a number. -/
def le : Nat → Nat → List UInt8
  | 0, _ => []
  | width + 1, n => UInt8.ofNat (n % 256) :: le width (n / 256)

/-- The number that bytes stand for. -/
def value : List UInt8 → Nat
  | [] => 0
  | byte :: rest => byte.toNat + 256 * value rest

@[simp] theorem le_length (width n : Nat) : (le width n).length = width := by
  induction width generalizing n with
  | zero => rfl
  | succ width ih => simp [le, ih]

theorem value_le {width n : Nat} (fits : n < 256 ^ width) : value (le width n) = n := by
  induction width generalizing n with
  | zero =>
      rw [Nat.pow_zero, Nat.lt_one_iff] at fits
      rw [fits]
      rfl
  | succ width ih =>
      have rest : n / 256 < 256 ^ width := by
        rw [Nat.div_lt_iff_lt_mul (by decide), ← Nat.pow_succ]
        exact fits
      rw [le, value, ih rest, UInt8.toNat_ofNat', Nat.mod_mod_of_dvd _ (by decide)]
      exact Nat.mod_add_div n 256

theorem value_lt (bytes : List UInt8) : value bytes < 256 ^ bytes.length := by
  induction bytes with
  | nil => exact Nat.one_pos
  | cons byte rest ih =>
      have small := byte.toNat_lt
      rw [value, List.length_cons, Nat.pow_succ]
      omega

/-- Read `size` bytes at `offset`, if the buffer holds them. -/
def read (data : List UInt8) (offset size : Nat) : Option (List UInt8) :=
  if offset + size ≤ data.length then some ((data.drop offset).take size) else none

variable {data middle : List UInt8} {offset size length : Nat}

/-- What stands at a place is read there. -/
theorem read_middle (before rest : List UInt8) (split : data = before ++ (middle ++ rest))
    (atOffset : before.length = offset) (ofSize : middle.length = size) :
    read data offset size = some middle := by
  subst atOffset ofSize split
  rw [read, if_pos (by simp), List.drop_left, List.take_left]

/-- Of a buffer cut short, a read sees what it sees of the whole or fails. -/
theorem read_take (cut : length ≤ data.length) :
    read (data.take length) offset size =
      if offset + size ≤ length then read data offset size else none := by
  rw [read, List.length_take, Nat.min_eq_left cut]
  split
  next fits =>
    rw [read, if_pos (fits.trans cut), List.drop_take, List.take_take,
      Nat.min_eq_left (Nat.le_sub_of_add_le' fits)]
  next => rfl

end Octets
