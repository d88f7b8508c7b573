import Mathlib.Data.List.Basic

/-!
# Blocks of memory

What an allocator returns: a number of cells with some contents.  Storing checks that all
cells are inside the block, copying within a block also that the two ranges do not overlap,
as `memcpy` demands.  Cells are counted from the start of the block; a pointer before it has
a negative distance.
-/

/-- A block of memory; nothing is said about cells outside its size. -/
structure Block (α : Type) where
  size : Int
  cells : Int → α

namespace Block

variable {α : Type} {block after : Block α} {items : List α} {pos start : Int} {count : Nat}

/-- What an access to memory does wrong. -/
inductive Fault where
  /-- a cell outside the block is read or written -/
  | outside
  /-- the source and the target of a copy overlap -/
  | overlap
  deriving DecidableEq, Repr

/-- The contents of `len` cells. -/
def slice (block : Block α) (pos : Int) (len : Nat) : List α :=
  (List.range len).map fun (i : Nat) => block.cells (pos + i)

/-- Items are stored from a cell on. -/
def store (block : Block α) (pos : Int) (items : List α) : Except Fault (Block α) :=
  if 0 ≤ pos ∧ pos + items.length ≤ block.size then
    .ok { block with
      cells := fun i =>
        if pos ≤ i then items[(i - pos).toNat]?.getD (block.cells i) else block.cells i }
  else
    .error .outside

/-- `memcpy` within a block. -/
def copy (block : Block α) (target source : Int) (len : Nat) : Except Fault (Block α) :=
  if target + len ≤ source ∨ source + len ≤ target then
    if 0 ≤ source ∧ source + len ≤ block.size then
      block.store target (block.slice source len)
    else
      .error .outside
  else
    .error .overlap

/-- A larger block with the old contents in front; `fill` is what the new cells hold. -/
def extend (block : Block α) (size : Int) (fill : Int → α) : Block α where
  size := size
  cells := fun i => if i < block.size then block.cells i else fill i

@[simp] theorem slice_length (block : Block α) (pos : Int) (len : Nat) :
    (block.slice pos len).length = len := by
  simp [slice]

theorem slice_add (block : Block α) (pos : Int) (len more : Nat) :
    block.slice pos (len + more) = block.slice pos len ++ block.slice (pos + len) more := by
  simp [slice, List.range_add, Function.comp_def, Int.add_assoc]

theorem slice_drop (block : Block α) (pos : Int) {len n : Nat} (small : n ≤ len) :
    (block.slice pos len).drop n = block.slice (pos + n) (len - n) := by
  obtain ⟨rest, rfl⟩ := Nat.exists_eq_add_of_le small
  rw [slice_add, List.drop_left' (slice_length block pos n), Nat.add_sub_cancel_left]

/-- Storing inside the block: the items are there, and cells outside the range keep their
contents. -/
theorem store_inside (low : 0 ≤ pos) (high : pos + items.length ≤ block.size) :
    ∃ after, block.store pos items = .ok after ∧ after.size = block.size ∧
      after.slice pos items.length = items ∧
      ∀ start (count : Nat), start + count ≤ pos ∨ pos + items.length ≤ start →
        after.slice start count = block.slice start count := by
  refine ⟨_, if_pos ⟨low, high⟩, rfl, ?_, fun start count apart => ?_⟩
  · refine List.ext_getElem (slice_length _ _ _) fun i bound _ => ?_
    rw [slice_length] at bound
    have place : pos + (i : Int) - pos = i := by omega
    simp only [slice, List.getElem_map, List.getElem_range]
    rw [if_pos (by omega), place, Int.toNat_natCast, List.getElem?_eq_getElem bound,
      Option.getD_some]
  · refine List.map_congr_left fun i member => ?_
    rw [List.mem_range] at member
    dsimp only
    split
    next above =>
      rw [List.getElem?_eq_none (by omega), Option.getD_none]
    · rfl

theorem slice_extend (size : Int) (fill : Int → α) (inside : pos + count ≤ block.size) :
    (block.extend size fill).slice pos count = block.slice pos count := by
  refine List.map_congr_left fun i member => ?_
  rw [List.mem_range] at member
  exact if_pos (by omega)

end Block
