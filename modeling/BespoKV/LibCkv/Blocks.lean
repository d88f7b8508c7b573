import BespoKV.LibCkv.Reader

/-!
# Characters in blocks

The blocks from a cursor on stand for the characters that have not been read.  The loops of the
reader move the cursor past slices of the blocks: the slices are the characters in between, and
every block has as many characters fewer to be read as the slices take from it.
-/

namespace BespoKV.Memcached

/-! ## What the blocks hold -/

/-- The characters from a cursor to the end. -/
def unreadAt (blocks : List DataBlock) (cursor : Cursor) : List Char :=
  match cursor.iterator with
  | none => []
  | some i => ((blocks.drop i).flatMap DataBlock.data).drop cursor.offset

/-- The number of characters in a block. -/
def sizeAt (blocks : List DataBlock) (k : Nat) : Nat :=
  match blocks[k]? with
  | none => 0
  | some block => block.data.length

/-- The number of characters of one block from a cursor on. -/
def unreadIn (blocks : List DataBlock) (cursor : Cursor) (k : Nat) : Nat :=
  match cursor.iterator with
  | none => 0
  | some i => if k < i then 0 else sizeAt blocks k - if k = i then cursor.offset else 0

/-- The number of characters of one block in slices. -/
def held (slices : List Slice) (k : Nat) : Nat :=
  match slices with
  | [] => 0
  | slice :: slices => (if slice.block = k then slice.size else 0) + held slices k

theorem held_append (first second : List Slice) (k : Nat) :
    held (first ++ second) k = held first k + held second k := by
  induction first with
  | nil => simp [held]
  | cons slice first ih =>
      rw [List.cons_append, held, held, ih]
      omega

/-- A slice of characters that a block holds. -/
def Slice.InRange (blocks : List DataBlock) (slice : Slice) : Prop :=
  slice.block < blocks.length ∧ slice.offset + slice.size ≤ sizeAt blocks slice.block

/-- A cursor between two characters of a block, or at the end. -/
def Cursor.Valid (blocks : List DataBlock) (cursor : Cursor) : Prop :=
  ∀ i, cursor.iterator = some i → ∃ block, blocks[i]? = some block ∧
    cursor.offset ≤ block.data.length

theorem drop_eq_cons {blocks : List DataBlock} {i : Nat} {block : DataBlock}
    (present : blocks[i]? = some block) : blocks.drop i = block :: blocks.drop (i + 1) := by
  obtain ⟨inside, rfl⟩ := List.getElem?_eq_some_iff.mp present
  exact List.drop_eq_getElem_cons inside

theorem unreadAt_some {blocks : List DataBlock} {i offset : Nat} {block : DataBlock}
    (present : blocks[i]? = some block) (inside : offset ≤ block.data.length) :
    unreadAt blocks { iterator := some i, offset := offset } =
      block.data.drop offset ++ (blocks.drop (i + 1)).flatMap DataBlock.data := by
  unfold unreadAt
  dsimp only
  rw [drop_eq_cons present, List.flatMap_cons, List.drop_append_of_le_length inside]

theorem unreadAt_increment (blocks : List DataBlock) (i : Nat) :
    unreadAt blocks { iterator := increment blocks i, offset := 0 } =
      (blocks.drop (i + 1)).flatMap DataBlock.data := by
  unfold unreadAt increment
  by_cases more : i + 1 < blocks.length
  · simp [more]
  · rw [if_neg more, List.drop_eq_nil_of_le (Nat.not_lt.mp more)]
    rfl

/-! ## Moving the cursor -/

/-- The cursor moves past slices, which are the characters in between. -/
structure Moved (blocks : List DataBlock) (before after : Cursor) (slices : List Slice) :
    Prop where
  valid : after.Valid blocks
  text : slices.flatMap (Slice.chars blocks) ++ unreadAt blocks after = unreadAt blocks before
  size : (slices.flatMap (Slice.chars blocks)).length = BufferReader.total slices
  refs : ∀ k, unreadIn blocks before k = unreadIn blocks after k + held slices k
  inRange : ∀ slice ∈ slices, slice.InRange blocks

namespace Moved

variable {blocks : List DataBlock} {before middle after : Cursor} {first second : List Slice}
  {i offset count : Nat} {block : DataBlock}

theorem refl (valid : before.Valid blocks) : Moved blocks before before [] where
  valid := valid
  text := rfl
  size := rfl
  refs _ := rfl
  inRange := by simp

theorem trans (one : Moved blocks before middle first) (two : Moved blocks middle after second) :
    Moved blocks before after (first ++ second) where
  valid := two.valid
  text := by rw [List.flatMap_append, List.append_assoc, two.text, one.text]
  size := by
    rw [List.flatMap_append, List.length_append, one.size, two.size]
    simp [BufferReader.total]
  refs k := by
    rw [one.refs, two.refs, held_append]
    omega
  inRange slice member := by
    rcases List.mem_append.mp member with member | member
    · exact one.inRange slice member
    · exact two.inRange slice member

theorem chars_eq (present : blocks[i]? = some block) (offset count : Nat) :
    Slice.chars blocks { block := i, offset := offset, size := count } =
      (block.data.drop offset).take count := by
  simp [Slice.chars, present]

/-- Within a block. -/
theorem within (present : blocks[i]? = some block) (inside : offset + count ≤ block.data.length) :
    Moved blocks { iterator := some i, offset := offset }
      { iterator := some i, offset := offset + count }
      [{ block := i, offset := offset, size := count }] where
  valid j same := by
    cases same
    exact ⟨block, present, inside⟩
  text := by
    rw [unreadAt_some present inside, unreadAt_some present (by omega), List.flatMap_singleton,
      chars_eq present, ← List.append_assoc, ← List.drop_drop, List.take_append_drop]
  size := by
    rw [List.flatMap_singleton, chars_eq present]
    simp [BufferReader.total]
    omega
  refs k := by
    have size : sizeAt blocks i = block.data.length := by rw [sizeAt, present]
    unfold unreadIn held held
    by_cases same : k = i
    · subst k
      simp only [Nat.lt_irrefl, if_false, if_true]
      omega
    · simp [same, Ne.symm same]
  inRange slice member := by
    rw [List.mem_singleton] at member
    subst slice
    refine ⟨(List.getElem?_eq_some_iff.mp present).1, ?_⟩
    rw [sizeAt, present]
    exact inside

/-- To the next block. -/
theorem across (present : blocks[i]? = some block) (inside : offset ≤ block.data.length) :
    Moved blocks { iterator := some i, offset := offset }
      { iterator := increment blocks i, offset := 0 }
      [{ block := i, offset := offset, size := block.data.length - offset }] where
  valid j same := by
    unfold increment at same
    dsimp only at same
    split at same
    next more =>
      cases same
      exact ⟨_, List.getElem?_eq_getElem more, Nat.zero_le _⟩
    · cases same
  text := by
    rw [unreadAt_increment, unreadAt_some present inside, List.flatMap_singleton,
      chars_eq present, List.take_of_length_le (Nat.le_of_eq List.length_drop)]
  size := by
    rw [List.flatMap_singleton, chars_eq present]
    simp [BufferReader.total]
  refs k := by
    have size : sizeAt blocks i = block.data.length := by rw [sizeAt, present]
    unfold unreadIn held held increment
    by_cases more : i + 1 < blocks.length
    · simp only [if_pos more]
      rcases Nat.lt_trichotomy k i with below | rfl | above
      · simp [below, Nat.lt_succ_of_lt below, Nat.ne_of_gt below]
      · simp [size]
      · simp [show ¬k < i by omega, show ¬k < i + 1 by omega, Nat.ne_of_gt above,
          Nat.ne_of_lt above]
    · simp only [if_neg more]
      rcases Nat.lt_trichotomy k i with below | rfl | above
      · simp [below, Nat.ne_of_gt below]
      · simp [size]
      · have none : sizeAt blocks k = 0 := by
          rw [sizeAt, List.getElem?_eq_none (by omega)]
        simp [none, Nat.ne_of_lt above]
  inRange slice member := by
    rw [List.mem_singleton] at member
    subst slice
    refine ⟨(List.getElem?_eq_some_iff.mp present).1, ?_⟩
    rw [sizeAt, present]
    dsimp only
    omega

/-- A position behind the last block is the end of the list. -/
theorem of_increment (moved : Moved blocks { iterator := some (i + 1), offset := 0 } after second) :
    Moved blocks { iterator := increment blocks i, offset := 0 } after second where
  valid := moved.valid
  text := by
    rw [moved.text, unreadAt_increment]
    rfl
  size := moved.size
  refs k := by
    rw [← moved.refs k]
    unfold unreadIn increment
    by_cases more : i + 1 < blocks.length
    · rw [if_pos more]
    · rw [if_neg more]
      have none : i + 1 ≤ k → sizeAt blocks k = 0 := by
        intro beyond
        rw [sizeAt, List.getElem?_eq_none (by omega)]
      by_cases below : k < i + 1
      · simp [below]
      · simp [none (Nat.not_lt.mp below)]
  inRange := moved.inRange

theorem cons_across (present : blocks[i]? = some block) (inside : offset ≤ block.data.length)
    (rest : Moved blocks { iterator := some (i + 1), offset := 0 } after second) :
    Moved blocks { iterator := some i, offset := offset } after
      ({ block := i, offset := offset, size := block.data.length - offset } :: second) :=
  (across present inside).trans rest.of_increment

end Moved

theorem getElem?_of_drop {blocks rest : List DataBlock} {i : Nat} {block : DataBlock}
    (same : blocks.drop i = block :: rest) :
    blocks[i]? = some block ∧ blocks.drop (i + 1) = rest := by
  constructor
  · rw [← List.head?_drop, same]
    rfl
  · rw [← List.drop_drop, same]
    rfl

namespace BufferReader

variable {blocks : List DataBlock}

/-- What stands before the place that is found, and at it. -/
theorem findIdx_split (stop : Char → Bool) (text : List Char) :
    (∀ c ∈ text.take (text.findIdx stop), stop c = false) ∧
      (text.findIdx stop < text.length →
        ∃ c rest, text.drop (text.findIdx stop) = c :: rest ∧ stop c = true) := by
  constructor
  · intro c member
    obtain ⟨k, bound, rfl⟩ := List.mem_take_iff_getElem.mp member
    exact List.not_of_lt_findIdx (Nat.lt_of_lt_of_le bound (Nat.min_le_left _ _))
  · intro inside
    exact ⟨_, _, List.drop_eq_getElem_cons inside, List.findIdx_getElem⟩

/-- The search finds the first character that stops it, or none does. -/
theorem search_spec (stop : Char → Bool) (suffix : List DataBlock) (i offset : Nat)
    (same : blocks.drop i = suffix) (inside : offset ≤ sizeAt blocks i) :
    (search stop i offset suffix = {} ∧
        ∀ c ∈ unreadAt blocks { iterator := some i, offset := offset }, stop c = false) ∨
      ∃ j place, search stop i offset suffix = { iterator := some j, offset := place } ∧ i ≤ j ∧
        place < sizeAt blocks j ∧
        Moved blocks { iterator := some i, offset := offset }
          { iterator := some j, offset := place }
          (slices i offset { iterator := some j, offset := place } suffix) ∧
        (∀ c ∈ (slices i offset { iterator := some j, offset := place } suffix).flatMap
          (Slice.chars blocks), stop c = false) ∧
        ∃ c rest, unreadAt blocks { iterator := some j, offset := place } = c :: rest ∧
          stop c = true := by
  induction suffix generalizing i offset with
  | nil =>
      left
      refine ⟨rfl, ?_⟩
      intro c member
      simp [unreadAt, same] at member
  | cons block rest ih =>
      obtain ⟨present, tail⟩ := getElem?_of_drop same
      rw [sizeAt, present] at inside
      dsimp only at inside
      have bound : (block.data.drop offset).findIdx stop ≤ (block.data.drop offset).length :=
        List.findIdx_le_length
      rw [List.length_drop] at bound
      obtain ⟨before, at'⟩ := findIdx_split stop (block.data.drop offset)
      rw [List.length_drop] at at'
      rw [search]
      by_cases found : block.find stop offset ≠ block.data.length
      · rw [if_pos found]
        unfold DataBlock.find at found ⊢
        obtain ⟨c, later, here, stops⟩ := at' (by omega)
        right
        refine ⟨i, _, rfl, Nat.le_refl i, ?_, ?_, ?_, ?_⟩
        · rw [sizeAt, present]
          dsimp only
          omega
        · rw [slices, if_pos rfl, Nat.add_sub_cancel_left]
          exact .within present (by omega)
        · rw [slices, if_pos rfl, Nat.add_sub_cancel_left, List.flatMap_singleton,
            Moved.chars_eq present]
          exact before
        · rw [unreadAt_some present (by omega), ← List.drop_drop, here]
          exact ⟨c, _, rfl, stops⟩
      · rw [if_neg found]
        have none : ∀ c ∈ block.data.drop offset, stop c = false := by
          rw [← List.findIdx_eq_length, List.length_drop]
          unfold DataBlock.find at found
          omega
        have text := unreadAt_some present inside
        rcases ih (i + 1) 0 tail (Nat.zero_le _) with ⟨ended, all⟩ |
          ⟨j, place, ended, later, inBlock, moved, passed, stopped⟩
        · left
          refine ⟨ended, ?_⟩
          intro c member
          rw [text, List.mem_append] at member
          rcases member with member | member
          · exact none c member
          · exact all c member
        · right
          have notHere : some i ≠ some j := by
            intro equal
            cases equal
            omega
          refine ⟨j, place, ended, by omega, inBlock, ?_, ?_, stopped⟩
          · rw [slices, if_neg notHere]
            exact moved.cons_across present inside
          · rw [slices, if_neg notHere, List.flatMap_cons, Moved.chars_eq present,
              List.take_of_length_le (Nat.le_of_eq List.length_drop)]
            intro c member
            rcases List.mem_append.mp member with member | member
            · exact none c member
            · exact passed c member

/-- If only the last block may be empty, characters from a block on begin in this block. -/
theorem sizeAt_pos_of_flatMap (solid : ∀ k, k + 1 < blocks.length → 0 < sizeAt blocks k) {k : Nat}
    (some : 0 < ((blocks.drop k).flatMap DataBlock.data).length) : 0 < sizeAt blocks k := by
  by_cases middle : k + 1 < blocks.length
  · exact solid k middle
  · cases rest : blocks.drop k with
    | nil =>
        rw [rest] at some
        exact absurd some (Nat.lt_irrefl 0)
    | cons last behind =>
        obtain ⟨found, final⟩ := getElem?_of_drop rest
        rw [List.drop_eq_nil_of_le (by omega)] at final
        subst final
        rw [rest, List.flatMap_singleton] at some
        rw [sizeAt, found]
        exact some

/-- The next characters, as many as there are.  If only the last block may be empty, every slice
takes something. -/
theorem advance_spec (solid : ∀ k, k + 1 < blocks.length → 0 < sizeAt blocks k)
    (suffix : List DataBlock) (i offset len : Nat) (same : blocks.drop i = suffix)
    (inside : offset ≤ sizeAt blocks i)
    (start : if len = 0 then offset = 0 else offset < sizeAt blocks i)
    (enough : len ≤ (unreadAt blocks { iterator := some i, offset := offset }).length) :
    ∃ slices cursor, advance i offset len suffix = .ok (slices, cursor) ∧
      Moved blocks { iterator := some i, offset := offset } cursor slices ∧
      total slices = len ∧ (∀ slice ∈ slices, 0 < slice.size) ∧
      ∀ j, cursor.iterator = some j → cursor.offset < sizeAt blocks j ∨ cursor.offset = 0 := by
  induction suffix generalizing i offset len with
  | nil =>
      have nothing : unreadAt blocks { iterator := some i, offset := offset } = [] := by
        simp [unreadAt, same]
      rw [nothing, List.length_nil, Nat.le_zero] at enough
      subst enough
      have short : blocks.length ≤ i := List.drop_eq_nil_iff.mp same
      refine ⟨[], {}, rfl, ⟨by simp [Cursor.Valid], nothing.symm, rfl, ?_, by simp⟩, rfl, by simp,
        by simp⟩
      intro k
      have none : ¬k < i → sizeAt blocks k = 0 := by
        intro beyond
        rw [sizeAt, List.getElem?_eq_none (by omega)]
      by_cases below : k < i
      · simp [unreadIn, held, below]
      · simp [unreadIn, held, none below]
  | cons block rest ih =>
      obtain ⟨present, tail⟩ := getElem?_of_drop same
      have size : sizeAt blocks i = block.data.length := by rw [sizeAt, present]
      rw [size] at inside
      rw [advance]
      by_cases zero : len = 0
      · rw [if_pos zero] at start ⊢
        refine ⟨_, _, rfl, .refl ?_, by simp [total, zero], by simp, fun _ _ => .inr start⟩
        intro j same
        cases same
        exact ⟨block, present, inside⟩
      rw [if_neg zero] at start ⊢
      by_cases here : len < block.data.length - offset
      · rw [if_pos here]
        refine ⟨_, _, rfl, .within present (by omega), by simp [total], ?_, ?_⟩
        · intro slice member
          rw [List.mem_singleton] at member
          subst slice
          exact Nat.pos_of_ne_zero zero
        · intro j same
          cases same
          left
          rw [size]
          dsimp only
          omega
      · rw [if_neg here]
        rw [unreadAt_some present inside, List.length_append, List.length_drop] at enough
        have next : unreadAt blocks { iterator := some (i + 1), offset := 0 } =
            (blocks.drop (i + 1)).flatMap DataBlock.data := rfl
        -- more is wanted, so the next block holds something
        have begins : if len - (block.data.length - offset) = 0 then 0 = 0
            else 0 < sizeAt blocks (i + 1) := by
          split
          · rfl
          next wanted => exact sizeAt_pos_of_flatMap solid (by omega)
        obtain ⟨slices, cursor, advanced, moved, count, positive, settled⟩ :=
          ih (i + 1) 0 (len - (block.data.length - offset)) tail (Nat.zero_le _) begins
            (by rw [next]; omega)
        rw [advanced]
        refine ⟨_, _, rfl, moved.cons_across present inside, ?_, ?_, settled⟩
        · simp only [total, List.map_cons, List.sum_cons] at count ⊢
          omega
        · intro slice member
          rcases List.mem_cons.mp member with rfl | member
          · dsimp only
            omega
          · exact positive slice member

/-- A character further on. -/
theorem peekFrom_spec (solid : ∀ k, k + 1 < blocks.length → 0 < sizeAt blocks k)
    {writer : Option Nat} (last : ∀ i, writer = some i → i + 1 = blocks.length)
    (suffix : List DataBlock) (i place offset : Nat) (same : blocks.drop i = suffix)
    (inside : place < sizeAt blocks i)
    (enough : offset < (unreadAt blocks { iterator := some i, offset := place }).length) :
    ∃ c, peekFrom writer i place offset suffix = .ok (some c) ∧
      (unreadAt blocks { iterator := some i, offset := place })[offset]? = some c := by
  induction suffix generalizing i place offset with
  | nil => simp [unreadAt, same] at enough
  | cons block rest ih =>
      obtain ⟨present, tail⟩ := getElem?_of_drop same
      rw [sizeAt, present] at inside
      dsimp only at inside
      rw [unreadAt_some present (Nat.le_of_lt inside)] at enough ⊢
      rw [peekFrom]
      by_cases zero : offset = 0
      · subst offset
        rw [if_pos rfl, List.getElem?_eq_getElem inside,
          List.getElem?_append_left (by rw [List.length_drop]; omega), List.getElem?_drop,
          Nat.add_zero, List.getElem?_eq_getElem inside]
        exact ⟨_, rfl, rfl⟩
      rw [if_neg zero]
      by_cases here : offset < block.data.length - place
      · have within : place + offset < block.data.length := by omega
        rw [if_pos here, List.getElem?_eq_getElem within,
          List.getElem?_append_left (by rw [List.length_drop]; omega), List.getElem?_drop,
          List.getElem?_eq_getElem within]
        exact ⟨_, rfl, rfl⟩
      · rw [if_neg here]
        rw [List.length_append, List.length_drop] at enough
        have notLast : some i ≠ writer := by
          intro written
          have final := last i written.symm
          rw [List.drop_eq_nil_of_le (by omega)] at enough
          simp at enough
          omega
        rw [if_pos notLast, List.getElem?_append_right (by rw [List.length_drop]; omega),
          List.length_drop]
        exact ih (i + 1) 0 (offset - (block.data.length - place)) tail
          (sizeAt_pos_of_flatMap solid (by omega))
          (by
            have next : unreadAt blocks { iterator := some (i + 1), offset := 0 } =
                (blocks.drop (i + 1)).flatMap DataBlock.data := rfl
            rw [next]
            omega)

end BufferReader

end BespoKV.Memcached
