import BespoKV.Library.Block
import BespoKV.Library.CInt
import BespoKV.Library.Fallible
import BespoKV.Library.Transition
import BespoKV.Proxy.Types
import Mathlib.Tactic.Ring

/-!
# The buffers of a datalet

The class `String` of `str.h`: a block of memory, of which the bytes from `data_` on are in
use.  Bytes join at the end, where room is made with `realloc`, and leave at the front;
`nice` moves what is in use back to the start of the block.  The numbers are `int`s, and the
capacity grows until doubling it overflows.

The contents are a queue of bytes, whatever the sequence of operations.
-/

namespace BespoKV

open Fallible Transition

/-- `String`: the block `buf` and the distance `data_ - buf`, `size_` and `total_`. -/
structure Str where
  buf : Block UInt8
  data : Int
  size : Int
  total : Int

namespace Str

/-- Why an operation does not return. -/
inductive Fault where
  /-- an access to memory is wrong -/
  | memory (fault : Block.Fault)
  /-- an `assert` failed -/
  | check
  /-- a loop did not end in the rounds it was given -/
  | endless
  deriving DecidableEq, Repr

/-- What `realloc` does: it returns `NULL`, or a block whose new bytes hold anything. -/
abbrev Grant := Option (Int → UInt8)

/-- `String(int total)`, where `malloc` does not fail. -/
def new (total : Int) (fill : Int → UInt8) : Str where
  buf := ⟨total, fill⟩
  data := 0
  size := 0
  total := total

/-- `curr`, as a distance from `buf`. -/
def curr (str : Str) : Int := str.data + str.size

/-- `avail` -/
def avail (str : Str) : Int :=
  CInt.wrap (CInt.wrap (str.total - CInt.wrap str.data) - str.size)

/-- `incr` -/
def incr (str : Str) (num : Int) : Str := { str with size := CInt.wrap (str.size + num) }

/-- `discard` -/
def discard (str : Str) (num : Int) : Str :=
  { str with size := CInt.wrap (str.size - num), data := str.data + num }

/-- An access to the block. -/
def access (str : Str) (result : Except Block.Fault (Block UInt8)) : Except Fault Str :=
  match result with
  | .ok buf => .ok { str with buf }
  | .error fault => .error (.memory fault)

/-- `nice` -/
def nice (str : Str) : Except Fault Str :=
  if str.total.tdiv 2 < str.data then do
    let str ← str.access (str.buf.copy 0 str.data (CInt.sizeT str.size))
    return { str with data := 0 }
  else
    return str

/-- The `n` of `grow`. -/
def growth (total : Int) : Int :=
  if total < 8 * 1024 then 8 * 1024
  else if total < 512 * 1024 then CInt.wrap (8 * total)
  else CInt.wrap (2 * total)

/-- The capacity after a `grow` to which `realloc` grants what it can.  The classes `Buffer` of
the proxy and `String` of libckv have the same function. -/
def nextTotal (total : Nat) : Nat :=
  if growth total < 0 then total else (growth total).toNat

/-- `grow`.  A negative `n` is a `size_t` that `realloc` cannot satisfy. -/
def grow (str : Str) (grant : Grant) : Int × Str :=
  match grant with
  | none => (-1, str)
  | some fill =>
      let n := growth str.total
      if n < 0 then (-1, str) else (n, { str with buf := str.buf.extend n fill, total := n })

/-- The loop of the `append`s that make room: whether there is room, or `grow` returned -1. -/
def reserve : Nat → (Nat → Grant) → Int → Str → Except Fault (Bool × Str)
  | 0, _, _, _ => .error .endless
  | rounds + 1, grants, size, str =>
      if str.avail < size then
        let (total, grown) := str.grow (grants 0)
        if total = -1 then .ok (false, grown)
        else reserve rounds (fun i => grants (i + 1)) size grown
      else
        .ok (true, str)

/-- Storing at `curr` and counting what was stored, as every `append` ends. -/
def push (str : Str) (bytes : Bytes) : Except Fault Str := do
  let str ← str.access (str.buf.store str.curr bytes)
  return str.incr bytes.length

/-- `append(const void *, int)` -/
def append (str : Str) (bytes : Bytes) (grants : Nat → Grant) : Except Fault (Int × Str) := do
  let (room, str) ← reserve 32 grants bytes.length str
  if room then
    let str ← str.push bytes
    return (bytes.length, str)
  else
    return (-1, str)

/-- `append(char)` -/
def appendChar (str : Str) (c : UInt8) (grants : Nat → Grant) : Except Fault (Int × Str) :=
  str.append [c] grants

/-- The bytes in use. -/
def contents (str : Str) : Bytes := str.buf.slice str.data str.size.toNat

/-! ## What the numbers say -/

/-- What every operation keeps. -/
structure Valid (str : Str) : Prop where
  offset : 0 ≤ str.data
  size : 0 ≤ str.size
  within : str.data + str.size ≤ str.total
  positive : 0 < str.total
  int : str.total < 2 ^ 31
  block : str.buf.size = str.total

section Numbers

variable {str : Str} {total : Int}

theorem Valid.new {fill : Int → UInt8} (positive : 0 < total) (int : total < 2 ^ 31) :
    (Str.new total fill).Valid :=
  ⟨Int.le_refl 0, Int.le_refl 0, by simp only [Str.new]; omega, positive, int, rfl⟩

/-- Nothing overflows in `avail`. -/
theorem Valid.avail_eq (valid : str.Valid) : str.avail = str.total - str.data - str.size := by
  obtain ⟨offset, size, within, _, int, _⟩ := valid
  unfold avail
  rw [CInt.wrap_of_fits (n := str.data) (by omega) (by omega),
    CInt.wrap_of_fits (n := str.total - str.data) (by omega) (by omega),
    CInt.wrap_of_fits (by omega) (by omega)]

/-- Below a gigabyte the capacity grows, and at least doubles from 8 KiB on. -/
theorem growth_of_lt (positive : 0 < total) (small : total < 2 ^ 30) :
    total < growth total ∧ growth total < 2 ^ 31 ∧ 8 * 1024 ≤ growth total ∧
      (8 * 1024 ≤ total → 2 * total ≤ growth total) := by
  unfold growth CInt.wrap
  split
  · omega
  · split <;> omega

theorem nextTotal_of_lt {total : Nat} (small : total < 8 * 1024) : nextTotal total = 8 * 1024 := by
  have grown : growth total = 8 * 1024 := if_pos (by omega)
  rw [nextTotal, grown]
  rfl

/-- From a gigabyte on the new capacity overflows to a negative number. -/
theorem growth_neg (large : 2 ^ 30 ≤ total) (int : total < 2 ^ 31) : growth total < 0 := by
  unfold growth CInt.wrap
  rw [if_neg (by omega), if_neg (by omega)]
  omega

end Numbers

/-! ## Making room -/

/-- What making room leaves of a buffer: everything but the capacity, which does not shrink. -/
structure Grown (str after : Str) : Prop where
  valid : after.Valid
  data : after.data = str.data
  size : after.size = str.size
  total : str.total ≤ after.total
  contents : after.contents = str.contents

section Room

variable {str after middle : Str}

theorem Grown.refl (valid : str.Valid) : Grown str str :=
  ⟨valid, rfl, rfl, Int.le_refl _, rfl⟩

theorem Grown.trans (first : Grown str middle) (second : Grown middle after) :
    Grown str after where
  valid := second.valid
  data := second.data.trans first.data
  size := second.size.trans first.size
  total := first.total.trans second.total
  contents := second.contents.trans first.contents

/-- `grow` fails and changes nothing, or there is the new capacity. -/
theorem Valid.grow_cases (valid : str.Valid) (grant : Grant) :
    (str.grow grant = (-1, str) ∧ (grant = none ∨ 2 ^ 30 ≤ str.total)) ∨
      ∃ grown, str.grow grant = (growth str.total, grown) ∧ Grown str grown ∧
        grown.total = growth str.total ∧ str.total < 2 ^ 30 ∧ grant ≠ none := by
  cases grant with
  | none => exact .inl ⟨rfl, .inl rfl⟩
  | some fill =>
      by_cases small : str.total < 2 ^ 30
      · obtain ⟨larger, int, _, _⟩ := growth_of_lt valid.positive small
        have inside : str.data + (str.size.toNat : Int) ≤ str.buf.size := by
          rw [valid.block, Int.toNat_of_nonneg valid.size]
          exact valid.within
        have positive := valid.positive
        have within := valid.within
        refine .inr ⟨_, if_neg (by omega), ?_, rfl, small, Option.some_ne_none fill⟩
        exact ⟨⟨valid.offset, valid.size, by dsimp only; omega, by dsimp only; omega, int, rfl⟩,
          rfl, rfl, Int.le_of_lt larger, Block.slice_extend _ fill inside⟩
      · have large : 2 ^ 30 ≤ str.total := by omega
        exact .inl ⟨if_pos (growth_neg large valid.int), .inr large⟩

/-- A capacity grows to the first one that is not below the wanted one: `realloc` does not
fail, and no capacity in between has come to a gigabyte. -/
inductive Reaches (wanted : Int) : (Nat → Grant) → Int → Int → Prop where
  | enough {grants : Nat → Grant} {total : Int} (least : wanted ≤ total) :
      Reaches wanted grants total total
  | grows {grants : Nat → Grant} {total last : Int} (less : total < wanted)
      (small : total < 2 ^ 30) (granted : grants 0 ≠ none)
      (rest : Reaches wanted (fun i => grants (i + 1)) (growth total) last) :
      Reaches wanted grants total last

theorem Reaches.eq {wanted total first second : Int} {grants : Nat → Grant}
    (one : Reaches wanted grants total first) (other : Reaches wanted grants total second) :
    first = second := by
  induction one with
  | enough least =>
      cases other with
      | enough => rfl
      | grows less => omega
  | grows less _ _ _ ih =>
      cases other with
      | enough least => omega
      | grows _ _ _ rest => exact ih rest

/-- What the loop around `grow` ends with. -/
structure Reserved (size : Int) (grants : Nat → Grant) (str : Str) (room : Bool)
    (after : Str) : Prop where
  grown : Grown str after
  fits : room = true → size ≤ after.avail
  reaches : room = true → Reaches (str.curr + size) grants str.total after.total
  refused : room = false → after.avail < size
  /-- without room `realloc` failed, or the capacity had come to a gigabyte -/
  why : room = false → (∃ i, grants i = none) ∨ 2 ^ 30 ≤ after.total
  never : room = false → ∀ last, ¬Reaches (str.curr + size) grants str.total last

/-- One round of the loop around `grow`, if what remains after a successful `grow` ends. -/
theorem Valid.exists_reserve_round (valid : str.Valid) {rounds : Nat} {grants : Nat → Grant}
    {size : Int}
    (rest : ∀ grown, Grown str grown → grown.total = growth str.total → str.total < 2 ^ 30 →
      ∃ room after, reserve rounds (fun i => grants (i + 1)) size grown = .ok (room, after) ∧
        Reserved size (fun i => grants (i + 1)) grown room after) :
    ∃ room after, reserve (rounds + 1) grants size str = .ok (room, after) ∧
      Reserved size grants str room after := by
  unfold reserve
  have avail := valid.avail_eq
  by_cases full : str.avail < size
  case neg =>
    rw [if_neg full]
    refine ⟨true, str, rfl, .refl valid, fun _ => by omega, fun _ => .enough ?_, nofun, nofun,
      nofun⟩
    unfold curr
    omega
  have less : str.total < str.curr + size := by
    unfold curr
    omega
  rw [if_pos full]
  obtain ⟨failed, why⟩ | ⟨grown, succeeded, grew, total, small, granted⟩ :=
    valid.grow_cases (grants 0)
  · rw [failed]
    refine ⟨false, str, rfl, .refl valid, nofun, nofun, fun _ => full,
      fun _ => why.imp (⟨0, ·⟩) id, fun _ last reached => ?_⟩
    cases reached with
    | enough least => omega
    | grows _ small granted => exact why.elim granted (by omega)
  · obtain ⟨_, _, large, _⟩ := growth_of_lt valid.positive small
    obtain ⟨room, after, ended, reserved⟩ := rest grown grew total small
    have same : grown.curr = str.curr := by rw [curr, curr, grew.data, grew.size]
    have reaches := reserved.reaches
    have never := reserved.never
    rw [same, total] at reaches never
    rw [succeeded]
    refine ⟨room, after, (if_neg (by omega)).trans ended, grew.trans reserved.grown,
      reserved.fits, fun yes => .grows less small granted (reaches yes), reserved.refused,
      fun no => ?_, fun no last reached => ?_⟩
    · exact (reserved.why no).imp (fun ⟨i, null⟩ => ⟨i + 1, null⟩) id
    · cases reached with
      | enough least => omega
      | grows _ _ _ rest => exact never no last rest

/-- The loop ends: from 8 KiB on every round doubles the capacity, which is an `int`. -/
theorem Valid.exists_reserve_doubling (valid : str.Valid) (large : 8 * 1024 ≤ str.total)
    (rounds : Nat) (enough : 2 ^ 31 ≤ str.total * 2 ^ rounds) (grants : Nat → Grant)
    (size : Int) :
    ∃ room after, reserve rounds grants size str = .ok (room, after) ∧
      Reserved size grants str room after := by
  induction rounds generalizing str grants with
  | zero => exact absurd valid.int (by omega)
  | succ rounds ih =>
      refine valid.exists_reserve_round fun grown grew total small => ?_
      obtain ⟨_, _, _, doubled⟩ := growth_of_lt valid.positive small
      have twice : 2 * str.total ≤ grown.total := total ▸ doubled large
      refine ih grew.valid (by omega) ?_ _
      calc (2 : Int) ^ 31 ≤ str.total * 2 ^ (rounds + 1) := enough
        _ = 2 * str.total * 2 ^ rounds := by ring
        _ ≤ grown.total * 2 ^ rounds :=
            Int.mul_le_mul_of_nonneg_right twice (Int.le_of_lt (Int.pow_pos (by decide)))

/-- A smaller buffer comes to 8 KiB in one round. -/
theorem Valid.exists_reserve (valid : str.Valid) (grants : Nat → Grant) (size : Int) :
    ∃ room after, reserve 32 grants size str = .ok (room, after) ∧
      Reserved size grants str room after := by
  refine valid.exists_reserve_round fun grown grew total small => ?_
  obtain ⟨_, _, large, _⟩ := growth_of_lt valid.positive small
  exact grew.valid.exists_reserve_doubling (by omega) 31 (by omega) _ size

end Room

/-! ## One operation -/

section Operations

variable {str : Str} {bytes : Bytes}

theorem Valid.contents_length (valid : str.Valid) : (str.contents.length : Int) = str.size := by
  rw [contents, Block.slice_length, Int.toNat_of_nonneg valid.size]

/-- Bytes for which there is room are stored behind the contents. -/
theorem Valid.exists_push (valid : str.Valid) (room : (bytes.length : Int) ≤ str.avail) :
    ∃ after, str.push bytes = .ok after ∧ after.Valid ∧
      after.contents = str.contents ++ bytes ∧ after.data = str.data ∧
      after.size = str.size + bytes.length ∧ after.total = str.total := by
  rw [valid.avail_eq] at room
  obtain ⟨offset, size, within, positive, int, block⟩ := valid
  have inside : str.curr + bytes.length ≤ str.buf.size := by
    unfold curr
    omega
  obtain ⟨buf, stored, same, here, elsewhere⟩ :=
    Block.store_inside (show 0 ≤ str.curr by unfold curr; omega) inside
  have counted : CInt.wrap (str.size + bytes.length) = str.size + bytes.length :=
    CInt.wrap_of_fits (by omega) (by omega)
  refine ⟨{ str with buf, size := str.size + bytes.length }, ?_, ?_, ?_, rfl, rfl, rfl⟩
  · simp only [push, stored, access, ok_bind, incr, counted]
    rfl
  · exact ⟨offset, by dsimp only; omega, by dsimp only; omega, positive, int, same.trans block⟩
  · have split : (str.size + bytes.length).toNat = str.size.toNat + bytes.length := by omega
    have behind : str.data + (str.size.toNat : Int) = str.curr := by
      unfold curr
      omega
    simp only [contents]
    rw [split, Block.slice_add, behind, here, elsewhere _ _ (.inl (by omega))]

/-- What `append` returns and leaves: all of the bytes have joined the contents, or none. -/
inductive Appended (str : Str) (bytes : Bytes) (grants : Nat → Grant) : Int → Str → Prop where
  | stored {after : Str} (valid : after.Valid) (data : after.data = str.data)
      (size : after.size = str.size + bytes.length)
      (total : str.total ≤ after.total)
      (reaches : Reaches (str.curr + bytes.length) grants str.total after.total)
      (contents : after.contents = str.contents ++ bytes) :
      Appended str bytes grants bytes.length after
  | refused {after : Str} (grown : Grown str after) (full : after.avail < bytes.length)
      (why : (∃ i, grants i = none) ∨ 2 ^ 30 ≤ after.total)
      (never : ∀ last, ¬Reaches (str.curr + bytes.length) grants str.total last) :
      Appended str bytes grants (-1) after

theorem Appended.all_or_none {after : Str} {grants : Nat → Grant} {result : Int}
    (appended : Appended str bytes grants result after) :
    after.Valid ∧
      after.contents = if result = -1 then str.contents else str.contents ++ bytes := by
  cases appended with
  | stored valid _ _ _ _ contents =>
      rw [if_neg (by omega)]
      exact ⟨valid, contents⟩
  | refused grown _ _ _ =>
      rw [if_pos rfl]
      exact ⟨grown.valid, grown.contents⟩

/-- `append` returns. -/
theorem Valid.exists_append (valid : str.Valid) (bytes : Bytes) (grants : Nat → Grant) :
    ∃ result after, str.append bytes grants = .ok (result, after) ∧
      Appended str bytes grants result after := by
  obtain ⟨room, grown, ended, reserved⟩ := valid.exists_reserve grants bytes.length
  unfold append
  rw [ended, ok_bind]
  cases room with
  | true =>
      obtain ⟨after, stored, valid, contents, data, size, total⟩ :=
        reserved.grown.valid.exists_push (reserved.fits rfl)
      refine ⟨bytes.length, after, ?_, .stored valid (data.trans reserved.grown.data) ?_ ?_ ?_ ?_⟩
      · simp only [if_true, stored, ok_bind]
        rfl
      · rw [size, reserved.grown.size]
      · exact total ▸ reserved.grown.total
      · exact total ▸ reserved.reaches rfl
      · rw [contents, reserved.grown.contents]
  | false =>
      exact ⟨-1, grown, rfl, .refused reserved.grown (reserved.refused rfl) (reserved.why rfl)
        (reserved.never rfl)⟩

/-- An `append` that returns -1 has left the contents, and either `realloc` failed or the
capacity could not be doubled. -/
theorem Valid.refused (valid : str.Valid) {grants : Nat → Grant} {after : Str}
    (failed : str.append bytes grants = .ok (-1, after)) :
    after.contents = str.contents ∧
      (after.avail < bytes.length ∧ ((∃ i, grants i = none) ∨ 2 ^ 30 ≤ after.total)) := by
  obtain ⟨result, last, called, appended⟩ := valid.exists_append bytes grants
  rw [failed] at called
  cases called
  cases appended with
  | refused grown full why _ => exact ⟨grown.contents, full, why⟩

/-- Dropping bytes from the front. -/
theorem Valid.discard (valid : str.Valid) {n : Nat} (most : (n : Int) ≤ str.size) :
    (str.discard n).Valid ∧ (str.discard n).contents = str.contents.drop n := by
  obtain ⟨offset, size, within, positive, int, block⟩ := valid
  have counted : CInt.wrap (str.size - n) = str.size - n :=
    CInt.wrap_of_fits (by omega) (by omega)
  have rest : (str.size - n).toNat = str.size.toNat - n := by omega
  unfold Str.discard
  rw [counted]
  refine ⟨⟨by dsimp only; omega, by dsimp only; omega, by dsimp only; omega, positive, int,
    block⟩, ?_⟩
  simp only [contents]
  rw [rest, Block.slice_drop _ _ (by omega)]

/-- `nice` copies what is in use from the second half of the block to its start: the two
ranges do not overlap. -/
theorem Valid.exists_nice (valid : str.Valid) :
    ∃ after, str.nice = .ok after ∧ after.Valid ∧ after.contents = str.contents ∧
      after.size = str.size ∧ after.total = str.total ∧
      after.data = if str.total.tdiv 2 < str.data then 0 else str.data := by
  by_cases moved : str.total.tdiv 2 < str.data
  · obtain ⟨offset, size, within, positive, int, block⟩ := valid
    have half : str.total.tdiv 2 = str.total / 2 := Int.tdiv_eq_ediv_of_nonneg (by omega)
    have length : CInt.sizeT str.size = str.size.toNat := CInt.sizeT_of_fits size (by omega)
    have inside : (0 : Int) + (str.contents.length : Int) ≤ str.buf.size := by
      rw [contents, Block.slice_length]
      omega
    obtain ⟨buf, stored, same, here, -⟩ := Block.store_inside (Int.le_refl 0) inside
    rw [contents, Block.slice_length] at here
    refine ⟨{ str with buf, data := 0 }, ?_, ?_, here, rfl, rfl, (if_pos moved).symm⟩
    · have copied : str.buf.copy 0 str.data (CInt.sizeT str.size) = .ok buf := by
        unfold Block.copy
        rw [length, if_pos (.inl (by omega)), if_pos ⟨offset, by omega⟩]
        exact stored
      simp only [nice, if_pos moved, copied, access, ok_bind]
      rfl
    · exact ⟨Int.le_refl 0, size, by dsimp only; omega, positive, int, same.trans block⟩
  · exact ⟨str, if_neg moved, valid, rfl, rfl, rfl, (if_neg moved).symm⟩

end Operations

/-! ## The queue -/

/-- An operation of a user of the buffer, with what `realloc` does in it. -/
inductive Op where
  | appendChar (c : UInt8) (grants : Nat → Grant)
  | append (bytes : Bytes) (grants : Nat → Grant)
  /-- `incr`, after so many bytes were stored at `curr()` -/
  | incr (bytes : Bytes)
  | discard (n : Nat)
  | nice
  | grow (grant : Grant)

namespace Op

/-- What the user has to respect. -/
def Admissible (str : Str) : Op → Prop
  | .append bytes _ => bytes.length < 2 ^ 31
  | .incr bytes => (bytes.length : Int) ≤ str.avail
  | .discard n => (n : Int) ≤ str.size
  | _ => True

instance (str : Str) : (op : Op) → Decidable (op.Admissible str)
  | .appendChar _ _ => inferInstanceAs (Decidable True)
  | .append bytes _ => inferInstanceAs (Decidable (bytes.length < 2 ^ 31))
  | .incr bytes => inferInstanceAs (Decidable ((bytes.length : Int) ≤ str.avail))
  | .discard n => inferInstanceAs (Decidable ((n : Int) ≤ str.size))
  | .nice => inferInstanceAs (Decidable True)
  | .grow _ => inferInstanceAs (Decidable True)

/-- A call: the number it returns, zero where it returns nothing, and the buffer. -/
def call (str : Str) : Op → Except Fault (Int × Str)
  | .appendChar c grants => str.appendChar c grants
  | .append bytes grants => str.append bytes grants
  | .incr bytes => do
      let str ← str.push bytes
      return (0, str)
  | .discard n => return (0, str.discard n)
  | .nice => do
      let str ← str.nice
      return (0, str)
  | .grow grant => return str.grow grant

/-- The operation on a list of bytes: joining at the end and dropping from the front. -/
def onList (result : Int) (list : Bytes) : Op → Bytes
  | .appendChar c _ => if result = -1 then list else list ++ [c]
  | .append bytes _ => if result = -1 then list else list ++ bytes
  | .incr bytes => list ++ bytes
  | .discard n => list.drop n
  | .nice => list
  | .grow _ => list

/-- Every operation returns, keeps the bounds, and does to the contents what it does to a
list. -/
theorem exists_call {str : Str} (valid : str.Valid) {op : Op} (admissible : op.Admissible str) :
    ∃ result after, op.call str = .ok (result, after) ∧ after.Valid ∧
      after.contents = op.onList result str.contents := by
  cases op with
  | appendChar c grants =>
      obtain ⟨result, after, called, appended⟩ := valid.exists_append [c] grants
      exact ⟨result, after, called, appended.all_or_none⟩
  | append bytes grants =>
      obtain ⟨result, after, called, appended⟩ := valid.exists_append bytes grants
      exact ⟨result, after, called, appended.all_or_none⟩
  | incr bytes =>
      obtain ⟨after, pushed, valid, contents, -⟩ := valid.exists_push admissible
      exact ⟨0, after, by rw [call, pushed]; rfl, valid, contents⟩
  | discard n => exact ⟨0, str.discard n, rfl, valid.discard admissible⟩
  | nice =>
      obtain ⟨after, moved, valid, contents, -⟩ := valid.exists_nice
      exact ⟨0, after, by rw [call, moved]; rfl, valid, contents⟩
  | grow grant =>
      obtain ⟨failed, -⟩ | ⟨grown, succeeded, grew, -⟩ := valid.grow_cases grant
      · exact ⟨-1, str, congrArg Except.ok failed, valid, rfl⟩
      · exact ⟨_, grown, congrArg Except.ok succeeded, grew.valid, grew.contents⟩

end Op

/-- A buffer and the list of bytes that it stands for. -/
structure Queue where
  str : Str
  list : Bytes

namespace Queue

def step (queue : Queue) (op : Op) : Except Fault Queue := do
  let (result, str) ← op.call queue.str
  return ⟨str, op.onList result queue.list⟩

/-- What every step keeps. -/
structure Agrees (queue : Queue) : Prop where
  valid : queue.str.Valid
  contents : queue.str.contents = queue.list

theorem Agrees.step {queue after : Queue} {op : Op} (agrees : queue.Agrees)
    (admissible : op.Admissible queue.str) (moved : queue.step op = .ok after) :
    after.Agrees := by
  obtain ⟨result, str, called, valid, contents⟩ := Op.exists_call agrees.valid admissible
  rw [Queue.step, called] at moved
  cases moved
  exact ⟨valid, contents.trans (congrArg (op.onList result) agrees.contents)⟩

/-- The buffer is the queue, and stays it whatever operation comes next. -/
structure Faithful (queue : Queue) : Prop where
  offset : 0 ≤ queue.str.data
  within : queue.str.data + queue.str.size ≤ queue.str.total
  contents : queue.str.contents = queue.list
  /-- no memory outside the block is accessed, `nice` does not copy between ranges that
  overlap, and every loop ends -/
  returns : ∀ op : Op, op.Admissible queue.str →
    ∃ result after, op.call queue.str = .ok (result, after)
  /-- an `append` that fails leaves the contents; there is no room then, and `realloc` failed
  or the capacity has come to a gigabyte -/
  refused : ∀ (bytes : Bytes) (grants : Nat → Grant) (after : Str),
    queue.str.append bytes grants = .ok (-1, after) →
      after.contents = queue.str.contents ∧
        (after.avail < bytes.length ∧ ((∃ i, grants i = none) ∨ 2 ^ 30 ≤ after.total))
  refusedChar : ∀ (c : UInt8) (grants : Nat → Grant) (after : Str),
    queue.str.appendChar c grants = .ok (-1, after) →
      after.contents = queue.str.contents ∧
        (after.avail < 1 ∧ ((∃ i, grants i = none) ∨ 2 ^ 30 ≤ after.total))

theorem string_is_queue {capacity : Int} {fill : Int → UInt8} {queue : Queue}
    (positive : 0 < capacity) (int : capacity < 2 ^ 31)
    (run : Runs step (fun queue op => op.Admissible queue.str) ⟨Str.new capacity fill, []⟩
      queue) : queue.Faithful := by
  have start : Agrees ⟨Str.new capacity fill, []⟩ := ⟨Valid.new positive int, rfl⟩
  have agrees := run.invariant Agrees
    (fun _ _ _ agrees admissible moved => agrees.step admissible moved) start
  obtain ⟨valid, contents⟩ := agrees
  refine ⟨valid.offset, valid.within, contents, fun op admissible => ?_,
    fun _ _ _ => valid.refused, fun _ _ _ => valid.refused⟩
  obtain ⟨result, after, called, -⟩ := Op.exists_call valid admissible
  exact ⟨result, after, called⟩

/-- Eight bytes of capacity: `nice` makes room of what was discarded, an `append` for which
`realloc` fails is refused, and later the buffer grows. -/
theorem string_is_queue_sample :
    ∃ queue : Queue, (queue.list = [7, 8, 9] ∧ queue.str.total = 8192) ∧ queue.Faithful := by
  obtain ⟨queue, run, holds⟩ := Runs.exists_of_exec step
    (fun queue op => op.Admissible queue.str) ⟨Str.new 8 fun _ => 0, []⟩
    [.append [1, 2, 3, 4, 5, 6] fun _ => none, .discard 5, .nice, .incr [7],
      .append [8, 8, 8, 8, 8, 8, 8] fun _ => none, .append [8] fun _ => some fun _ => 1,
      .grow (some fun _ => 2), .discard 1, .appendChar 9 fun _ => none]
    (fun queue => queue.list == [7, 8, 9] && queue.str.total == 8192) (by decide +kernel)
  rw [Bool.and_eq_true, beq_iff_eq, beq_iff_eq] at holds
  exact ⟨queue, holds, string_is_queue (by decide) (by decide) run⟩

end Queue

end Str

end BespoKV
