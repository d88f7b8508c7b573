import BespoKV.Library.CInt
import Mathlib.Data.List.TakeWhile
import Mathlib.Tactic.IntervalCases

/-!
# Decimal numbers

Numbers printed with leading zeros, and the C functions `atoi` and `strtol` that read them
back.
-/

namespace Decimal

/-- The last `width` decimal digits of a number, as `%0*d` prints them. -/
def digits : Nat → Nat → List Char
  | 0, _ => []
  | width + 1, n => digits width (n / 10) ++ [Nat.digitChar (n % 10)]

/-- `atoi` on a string without blanks and signs. -/
def atoi (text : List Char) : Nat :=
  (text.takeWhile Char.isDigit).foldl (fun value char => value * 10 + (char.toNat - '0'.toNat)) 0

@[simp] theorem digits_length (width n : Nat) : (digits width n).length = width := by
  induction width generalizing n with
  | zero => rfl
  | succ width ih => simp [digits, ih]

/-- The digits of a number are those of its high part followed by those of its low part. -/
theorem digits_add (high low n : Nat) :
    digits (high + low) n = digits high (n / 10 ^ low) ++ digits low n := by
  induction low generalizing n with
  | zero => simp [digits]
  | succ low ih =>
      rw [← Nat.add_assoc, digits, ih, digits, Nat.div_div_eq_div_mul, ← Nat.pow_succ',
        List.append_assoc]

private theorem digit_isDigit (n : Nat) : (Nat.digitChar (n % 10)).isDigit = true := by
  have small : n % 10 < 10 := Nat.mod_lt n (by decide)
  interval_cases n % 10 <;> rfl

private theorem digit_value (n : Nat) : (Nat.digitChar (n % 10)).toNat - '0'.toNat = n % 10 := by
  have small : n % 10 < 10 := Nat.mod_lt n (by decide)
  interval_cases n % 10 <;> rfl

private theorem takeWhile_digits (width n : Nat) :
    (digits width n).takeWhile Char.isDigit = digits width n := by
  refine List.takeWhile_eq_self_iff.mpr fun char member => ?_
  induction width generalizing n with
  | zero => cases member
  | succ width ih =>
      rw [digits, List.mem_append, List.mem_singleton] at member
      rcases member with high | rfl
      · exact ih _ high
      · exact digit_isDigit n

/-- What was printed is read back, as far as it was printed. -/
theorem atoi_digits_mod (width n : Nat) : atoi (digits width n) = n % 10 ^ width := by
  rw [atoi, takeWhile_digits]
  induction width generalizing n with
  | zero =>
      rw [Nat.pow_zero, Nat.mod_one]
      rfl
  | succ width ih =>
      rw [digits, List.foldl_append, ih, List.foldl_cons, List.foldl_nil, digit_value,
        Nat.pow_succ', Nat.mod_mul, Nat.mul_comm, Nat.add_comm]

theorem atoi_digits {width n : Nat} (small : n < 10 ^ width) : atoi (digits width n) = n := by
  rw [atoi_digits_mod, Nat.mod_eq_of_lt small]

/-! ## Any text -/

/-- `isspace`: a blank, or one of the characters from tab to carriage return. -/
def isSpace (char : Char) : Bool := char.toNat = 32 || (9 ≤ char.toNat && char.toNat ≤ 13)

/-- `strtol` in base ten; a number that is out of range becomes the nearest `long`. -/
def strtol (text : List Char) : Int :=
  match text.dropWhile isSpace with
  | '-' :: rest => max (-2 ^ 63) (-(atoi rest : Int))
  | '+' :: rest => min (2 ^ 63 - 1) (atoi rest : Int)
  | rest => min (2 ^ 63 - 1) (atoi rest : Int)

/-- `atoi` as the conversion of what `strtol` returns. -/
def toInt (text : List Char) : Int := CInt.wrap (strtol text)

/-- A numeral with leading zeros. -/
def numeral (zeros n : Nat) : List Char := List.replicate zeros '0' ++ Nat.toDigits 10 n

theorem isDigit_of_mem_numeral {zeros n : Nat} {char : Char} (member : char ∈ numeral zeros n) :
    char.isDigit = true := by
  rcases List.mem_append.mp member with zero | digit
  · rw [List.eq_of_mem_replicate zero]
    rfl
  · exact Nat.isDigit_of_mem_toDigits (by decide) (by decide) digit

theorem numeral_ne_nil (zeros n : Nat) : numeral zeros n ≠ [] := by
  have positive := Nat.length_toDigits_pos (b := 10) (n := n)
  exact fun empty => by simp_all [numeral]

/-- What stands behind a numeral is not read. -/
theorem atoi_numeral (zeros n : Nat) {rest : List Char}
    (stops : ∀ char ∈ rest.head?, char.isDigit = false) :
    atoi (numeral zeros n ++ rest) = n := by
  have taken : (numeral zeros n ++ rest).takeWhile Char.isDigit = numeral zeros n := by
    rw [List.takeWhile_append_of_pos fun _ => isDigit_of_mem_numeral]
    cases rest with
    | nil => simp
    | cons char rest => simp [stops char (by simp)]
  have fold : ∀ text : List Char, text.foldl (fun value char =>
      value * 10 + (char.toNat - '0'.toNat)) 0 = Nat.ofDigitChars 10 text 0 := by
    intro text
    simp only [Nat.ofDigitChars, Nat.mul_comm]
  rw [atoi, taken, fold, numeral, Nat.ofDigitChars_append, Nat.ofDigitChars_replicate_zero,
    Nat.mul_zero, Nat.ofDigitChars_toDigits (by decide) (by decide)]

/-- Different numbers are written differently. -/
theorem toString_injective : Function.Injective fun n : Nat => toString n := by
  intro m n same
  have digits : Nat.toDigits 10 m = Nat.toDigits 10 n := by
    rw [← Nat.toList_repr, ← Nat.toList_repr]
    exact congrArg String.toList same
  have values := congrArg (Nat.ofDigitChars 10 · 0) digits
  rwa [Nat.ofDigitChars_toDigits (by decide) (by decide),
    Nat.ofDigitChars_toDigits (by decide) (by decide)] at values

theorem digit_range {char : Char} (isDigit : char.isDigit = true) :
    48 ≤ char.toNat ∧ char.toNat ≤ 57 := by
  simpa [Char.isDigit, UInt32.le_iff_toNat_le] using isDigit

theorem strtol_of_digit {first : Char} {rest : List Char} (isDigit : first.isDigit = true) :
    strtol (first :: rest) = min (2 ^ 63 - 1) (atoi (first :: rest) : Int) := by
  have range := digit_range isDigit
  have notSpace : isSpace first = false := by
    simp [isSpace]
    omega
  rw [strtol, List.dropWhile_cons, if_neg (by simp [notSpace])]
  split
  next minus =>
    cases minus
    cases isDigit
  next plus =>
    cases plus
    cases isDigit
  next => rfl

/-- Numerals of numbers that fit are read back. -/
theorem toInt_numeral (zeros : Nat) {n : Nat} {rest : List Char} (fits : n < 2 ^ 31)
    (stops : ∀ char ∈ rest.head?, char.isDigit = false) :
    toInt (numeral zeros n ++ rest) = n := by
  obtain ⟨first, digits, split⟩ := List.exists_cons_of_ne_nil (numeral_ne_nil zeros n)
  have isDigit : first.isDigit = true :=
    isDigit_of_mem_numeral (show first ∈ numeral zeros n by simp [split])
  have value := atoi_numeral zeros n stops
  rw [split, List.cons_append] at value ⊢
  rw [toInt, strtol_of_digit isDigit, value, min_eq_right (by omega),
    CInt.wrap_of_fits (by omega) (by omega)]

end Decimal
