import Mathlib.Data.List.TakeWhile
import BespoKV.LibCkv.Blocks

/-!
# The reader is a queue

Every operation of the reader gives what the queue of the unread characters gives.  None of its
assertions fails and the end of the list is never dereferenced; every block counts exactly the
characters that are unread in it or held by a token, and a token keeps its characters whatever
is received or read later.
-/

namespace BespoKV.Memcached

/-! ## Blocks with the same characters -/

/-- The characters in use in a block. -/
def refsAt (blocks : List DataBlock) (k : Nat) : Nat :=
  match blocks[k]? with
  | none => 0
  | some block => block.nBytesRef

/-- A block without its counter. -/
def DataBlock.contents (block : DataBlock) : List Char × Nat := (block.data, block.capacity)

/-- Only the counters of the blocks differ. -/
def SameText (blocks blocks' : List DataBlock) : Prop :=
  blocks'.map DataBlock.contents = blocks.map DataBlock.contents

namespace SameText

variable {blocks blocks' : List DataBlock}

theorem refl (blocks : List DataBlock) : SameText blocks blocks := rfl

theorem symm (same : SameText blocks blocks') : SameText blocks' blocks := Eq.symm same

theorem trans {blocks'' : List DataBlock} (one : SameText blocks blocks')
    (two : SameText blocks' blocks'') : SameText blocks blocks'' :=
  Eq.trans two one

theorem exists_of_some (same : SameText blocks blocks') {k : Nat} {block : DataBlock}
    (present : blocks[k]? = some block) :
    ∃ block', blocks'[k]? = some block' ∧ block'.data = block.data ∧
      block'.capacity = block.capacity := by
  have equal := congrArg (fun contents => contents[k]?) same
  rw [List.getElem?_map, List.getElem?_map, present, Option.map_some,
    Option.map_eq_some_iff] at equal
  obtain ⟨block', present', pair⟩ := equal
  exact ⟨block', present', congrArg Prod.fst pair, congrArg Prod.snd pair⟩

theorem sizeAt_eq (same : SameText blocks blocks') (k : Nat) :
    sizeAt blocks' k = sizeAt blocks k := by
  unfold sizeAt
  cases present : blocks[k]? with
  | some block =>
      obtain ⟨block', present', data, _⟩ := same.exists_of_some present
      rw [present']
      dsimp only
      rw [data]
  | none =>
      cases present' : blocks'[k]? with
      | none => rfl
      | some block' =>
          obtain ⟨block, found, _⟩ := same.symm.exists_of_some present'
          rw [present] at found
          cases found

theorem length_eq (same : SameText blocks blocks') : blocks'.length = blocks.length := by
  have lengths := congrArg List.length same
  rwa [List.length_map, List.length_map] at lengths

theorem unreadAt_eq (same : SameText blocks blocks') (cursor : Cursor) :
    unreadAt blocks' cursor = unreadAt blocks cursor := by
  have texts : blocks'.map DataBlock.data = blocks.map DataBlock.data := by
    have maps := congrArg (List.map Prod.fst) same
    rwa [List.map_map, List.map_map] at maps
  unfold unreadAt
  cases cursor.iterator with
  | none => rfl
  | some i =>
      dsimp only
      rw [List.flatMap_def, List.flatMap_def, List.map_drop, List.map_drop, texts]

theorem unreadIn_eq (same : SameText blocks blocks') (cursor : Cursor) (k : Nat) :
    unreadIn blocks' cursor k = unreadIn blocks cursor k := by
  unfold unreadIn
  rw [same.sizeAt_eq]

theorem inRange (same : SameText blocks blocks') {slice : Slice} (inRange : slice.InRange blocks) :
    slice.InRange blocks' := by
  unfold Slice.InRange
  rw [same.length_eq, same.sizeAt_eq]
  exact inRange

end SameText

/-! ## The invariant of the reader -/

namespace BufferReader

/-- The characters that have not been read. -/
def unread (reader : BufferReader) : List Char := unreadAt reader.blocks reader.cursor

/-- The reader between two calls, with the slices that tokens hold. -/
structure Sane (reader : BufferReader) (tokens : List Slice) : Prop where
  valid : reader.cursor.Valid reader.blocks
  left : reader.readLeft = reader.unread.length
  /-- the cursor is at a character if there is one -/
  poised : reader.unread ≠ [] → ∃ i, reader.cursor.iterator = some i ∧
    reader.cursor.offset < sizeAt reader.blocks i
  last : ∀ i, reader.writer = some i → i + 1 = reader.blocks.length
  /-- only the last block may be empty, and only while it is written to -/
  solid : ∀ k, k + 1 < reader.blocks.length → 0 < sizeAt reader.blocks k
  written : reader.writer = none → ∀ k, k + 1 = reader.blocks.length → 0 < sizeAt reader.blocks k
  roomy : ∀ block ∈ reader.blocks, 0 < block.capacity
  refs : ∀ k, refsAt reader.blocks k = unreadIn reader.blocks reader.cursor k + held tokens k
  inRange : ∀ slice ∈ tokens, slice.InRange reader.blocks

variable {reader : BufferReader} {tokens passed : List Slice} {cursor : Cursor}

/-- A reader that has just been constructed. -/
theorem Sane.initial : Sane {} [] where
  valid := by simp [Cursor.Valid]
  left := rfl
  poised impossible := absurd rfl impossible
  last := by simp
  solid := by simp
  written := by simp
  roomy := by simp
  refs _ := rfl
  inRange := by simp

/-- Moving the cursor past slices, which become tokens. -/
theorem Sane.moveTo (sane : reader.Sane tokens)
    (moved : Moved reader.blocks reader.cursor cursor passed)
    (settled : ∀ j, cursor.iterator = some j →
      cursor.offset < sizeAt reader.blocks j ∨ cursor.offset = 0) :
    (reader.moveTo cursor passed).Sane (passed ++ tokens) where
  valid := moved.valid
  left := by
    have text := congrArg List.length moved.text
    rw [List.length_append, moved.size] at text
    have left := sane.left
    unfold BufferReader.unread at left
    dsimp only [BufferReader.moveTo, BufferReader.unread]
    omega
  poised some := by
    dsimp only [BufferReader.moveTo, BufferReader.unread] at some ⊢
    cases here : cursor.iterator with
    | none => simp [unreadAt, here] at some
    | some j =>
        refine ⟨j, rfl, ?_⟩
        rcases settled j here with inside | start
        · exact inside
        · rw [start]
          -- an empty block is the last one, with nothing behind it
          apply Nat.pos_of_ne_zero
          intro empty
          obtain ⟨block, present, _⟩ := moved.valid j here
          have inside : j < reader.blocks.length := (List.getElem?_eq_some_iff.mp present).1
          have final : ¬j + 1 < reader.blocks.length := by
            intro more
            have positive := sane.solid j more
            omega
          rw [sizeAt, present] at empty
          dsimp only at empty
          have behind : reader.blocks.drop (j + 1) = [] := List.drop_eq_nil_of_le (by omega)
          apply some
          unfold unreadAt
          rw [here]
          dsimp only
          rw [start, drop_eq_cons present, behind, List.flatMap_singleton,
            List.length_eq_zero_iff.mp empty]
          rfl
  last := sane.last
  solid := sane.solid
  written := sane.written
  roomy := sane.roomy
  refs k := by
    have refs := sane.refs k
    have moved := moved.refs k
    dsimp only [BufferReader.moveTo]
    rw [held_append]
    omega
  inRange slice member := by
    rcases List.mem_append.mp member with member | member
    · exact moved.inRange slice member
    · exact sane.inRange slice member

end BufferReader

/-- One block counts fewer characters. -/
theorem Slice.release_ok {blocks : List DataBlock} {slice : Slice}
    (inside : slice.block < blocks.length) (counted : slice.size ≤ refsAt blocks slice.block) :
    ∃ blocks', slice.release blocks = .ok blocks' ∧ SameText blocks blocks' ∧
      ∀ k, refsAt blocks' k + (if slice.block = k then slice.size else 0) = refsAt blocks k := by
  have present := List.getElem?_eq_getElem inside
  generalize blocks[slice.block] = block at present
  rw [refsAt, present] at counted
  dsimp only at counted
  unfold Slice.release
  rw [present]
  dsimp only
  rw [if_neg (Nat.not_lt.mpr counted)]
  refine ⟨_, rfl, ?_, ?_⟩
  · apply List.ext_getElem?
    intro k
    rw [List.getElem?_map, List.getElem?_map]
    by_cases same : slice.block = k
    · subst k
      rw [List.getElem?_set_self inside, present]
      rfl
    · rw [List.getElem?_set_ne same]
  · intro k
    unfold refsAt
    by_cases same : slice.block = k
    · subst k
      rw [List.getElem?_set_self inside, present, if_pos rfl]
      dsimp only
      omega
    · rw [List.getElem?_set_ne same, if_neg same]
      rfl

/-- Releasing slices that are counted does not fail. -/
theorem release_ok {blocks : List DataBlock} {slices : List Slice}
    (inside : ∀ slice ∈ slices, slice.block < blocks.length)
    (counted : ∀ k, held slices k ≤ refsAt blocks k) :
    ∃ blocks', release blocks slices = .ok blocks' ∧ SameText blocks blocks' ∧
      ∀ k, refsAt blocks' k + held slices k = refsAt blocks k := by
  induction slices generalizing blocks with
  | nil => exact ⟨blocks, rfl, .refl blocks, fun _ => rfl⟩
  | cons slice slices ih =>
      have first := counted slice.block
      rw [held, if_pos rfl] at first
      obtain ⟨blocks₁, released, same, fewer⟩ :=
        Slice.release_ok (inside slice List.mem_cons_self) (by omega)
      obtain ⟨blocks₂, rest, same', fewer'⟩ := ih
        (by
          intro other member
          rw [same.length_eq]
          exact inside other (List.mem_cons_of_mem _ member))
        (by
          intro k
          have all := counted k
          have one := fewer k
          rw [held] at all
          omega)
      refine ⟨blocks₂, ?_, same.trans same', ?_⟩
      · rw [release, released]
        exact rest
      · intro k
        have one := fewer k
        have others := fewer' k
        rw [held]
        omega

namespace BufferReader

variable {reader : BufferReader} {tokens passed : List Slice}

/-- Freeing a token. -/
theorem Sane.released {α : Type} (sane : reader.Sane (passed ++ tokens)) (value : α) :
    ∃ after : BufferReader, reader.released passed value = .ok value after ∧
      after.Sane tokens ∧ after.unread = reader.unread ∧ SameText reader.blocks after.blocks := by
  obtain ⟨blocks, released, same, fewer⟩ := release_ok
    (fun slice member => (sane.inRange slice (List.mem_append_left _ member)).1)
    (fun k => by
      have refs := sane.refs k
      rw [held_append] at refs
      omega)
  refine ⟨{ reader with blocks := blocks }, ?_, ?_, same.unreadAt_eq _, same⟩
  · unfold BufferReader.released
    rw [released]
  · refine ⟨?_, ?_, ?_, ?_, ?_, ?_, ?_, ?_, ?_⟩
    · intro i here
      obtain ⟨block, present, inside⟩ := sane.valid i here
      obtain ⟨block', present', data, _⟩ := same.exists_of_some present
      exact ⟨block', present', by rw [data]; exact inside⟩
    · exact sane.left.trans (congrArg List.length (same.unreadAt_eq reader.cursor)).symm
    · intro some
      obtain ⟨i, here, inside⟩ := sane.poised
        (by rw [BufferReader.unread, ← same.unreadAt_eq]; exact some)
      exact ⟨i, here, by rw [same.sizeAt_eq]; exact inside⟩
    · intro i here
      rw [same.length_eq]
      exact sane.last i here
    · intro k more
      rw [same.length_eq] at more
      rw [same.sizeAt_eq]
      exact sane.solid k more
    · intro none k final
      rw [same.length_eq] at final
      rw [same.sizeAt_eq]
      exact sane.written none k final
    · intro block member
      obtain ⟨k, inside, rfl⟩ := List.getElem_of_mem member
      obtain ⟨block', present', _, capacity⟩ :=
        same.symm.exists_of_some (List.getElem?_eq_getElem inside)
      rw [← capacity]
      exact sane.roomy block' (List.mem_of_getElem? present')
    · intro k
      have refs := sane.refs k
      have counted := fewer k
      rw [held_append] at refs
      dsimp only
      rw [same.unreadIn_eq]
      omega
    · intro slice member
      exact same.inRange (sane.inRange slice (List.mem_append_right _ member))

/-- A reader that is not at its end stands in a block. -/
theorem at_block (reader : BufferReader) {i : Nat} (here : reader.cursor.iterator = some i) :
    reader.cursor = { iterator := some i, offset := reader.cursor.offset } ∧
      reader.unread =
        unreadAt reader.blocks { iterator := some i, offset := reader.cursor.offset } := by
  rw [← here]
  exact ⟨rfl, rfl⟩

/-- `endCur`: where a search stops, and what it passes. -/
theorem Sane.endCursor_spec (sane : reader.Sane tokens) (stop go : Char → Bool)
    (opposite : ∀ c, go c = !stop c) :
    ((reader.endCursor stop).iterator = none ∧ ∀ c ∈ reader.unread, go c = true) ∨
      ∃ j place, reader.endCursor stop = { iterator := some j, offset := place } ∧
        place < sizeAt reader.blocks j ∧
        Moved reader.blocks reader.cursor { iterator := some j, offset := place }
          (reader.passed { iterator := some j, offset := place }) ∧
        (reader.passed { iterator := some j, offset := place }).flatMap
          (Slice.chars reader.blocks) = reader.unread.takeWhile go ∧
        unreadAt reader.blocks { iterator := some j, offset := place } =
          reader.unread.dropWhile go ∧
        reader.unread.dropWhile go ≠ [] := by
  unfold BufferReader.endCursor BufferReader.passed
  cases here : reader.cursor.iterator with
  | none =>
      left
      refine ⟨here, ?_⟩
      intro c member
      simp [BufferReader.unread, unreadAt, here] at member
  | some i =>
      obtain ⟨block, present, inside⟩ := sane.valid i here
      obtain ⟨shape, unread⟩ := reader.at_block here
      dsimp only
      rcases search_spec stop (reader.blocks.drop i) i reader.cursor.offset rfl
        (by rw [sizeAt, present]; exact inside) with ⟨ended, all⟩ |
        ⟨j, place, ended, _, inBlock, moved, passed, c, rest, next, stops⟩
      · left
        rw [ended]
        refine ⟨rfl, ?_⟩
        intro c member
        rw [opposite, all c (by rw [← unread]; exact member)]
        rfl
      · right
        have goes : ∀ d ∈ (slices i reader.cursor.offset { iterator := some j, offset := place }
            (reader.blocks.drop i)).flatMap (Slice.chars reader.blocks), go d = true := by
          intro d member
          rw [opposite, passed d member]
          rfl
        have halts : ¬go c = true := by
          rw [opposite, stops]
          simp
        refine ⟨j, place, ended, inBlock, ?_, ?_, ?_, ?_⟩
        · rw [shape]
          exact moved
        · rw [unread, ← moved.text, next, List.takeWhile_append_of_pos goes,
            List.takeWhile_cons_of_neg halts, List.append_nil]
        · rw [unread, ← moved.text, next, List.dropWhile_append_of_pos goes,
            List.dropWhile_cons_of_neg halts]
        · rw [unread, ← moved.text, next, List.dropWhile_append_of_pos goes,
            List.dropWhile_cons_of_neg halts]
          simp

/-- Empty slices stand for nothing. -/
theorem chars_of_filter (blocks : List DataBlock) (slices : List Slice) :
    (slices.filter fun slice => slice.size > 0).flatMap (Slice.chars blocks) =
      slices.flatMap (Slice.chars blocks) := by
  induction slices with
  | nil => rfl
  | cons slice slices ih =>
      by_cases some : slice.size > 0
      · rw [List.filter_cons_of_pos (by simpa using some), List.flatMap_cons, List.flatMap_cons, ih]
      · have empty : slice.chars blocks = [] := by
          unfold Slice.chars
          cases blocks[slice.block]? with
          | none => rfl
          | some block => simp [Nat.eq_zero_of_not_pos some]
        rw [List.filter_cons_of_neg (by simpa using some), List.flatMap_cons, empty, ih]
        rfl

theorem total_filter (slices : List Slice) :
    total (slices.filter fun slice => slice.size > 0) = total slices := by
  induction slices with
  | nil => rfl
  | cons slice slices ih =>
      unfold total at ih ⊢
      by_cases some : slice.size > 0
      · rw [List.filter_cons_of_pos (by simpa using some), List.map_cons, List.map_cons,
          List.sum_cons, List.sum_cons, ih]
      · rw [List.filter_cons_of_neg (by simpa using some), List.map_cons, List.sum_cons, ih]
        omega

theorem held_filter (slices : List Slice) (k : Nat) :
    held (slices.filter fun slice => slice.size > 0) k = held slices k := by
  induction slices with
  | nil => rfl
  | cons slice slices ih =>
      by_cases some : slice.size > 0
      · rw [List.filter_cons_of_pos (by simpa using some), held, held, ih]
      · rw [List.filter_cons_of_neg (by simpa using some), held, ih]
        split <;> omega

theorem moved_filter {blocks : List DataBlock} {before after : Cursor} {slices : List Slice}
    (moved : Moved blocks before after slices) :
    Moved blocks before after (slices.filter fun slice => slice.size > 0) where
  valid := moved.valid
  text := by rw [chars_of_filter, moved.text]
  size := by rw [chars_of_filter, total_filter, moved.size]
  refs k := by rw [held_filter, moved.refs]
  inRange slice member := moved.inRange slice (List.mem_filter.mp member).1

theorem mem_of_dropWhile_ne_nil {value : Char} {text : List Char}
    (found : text.dropWhile (fun c => c != value) ≠ []) : value ∈ text := by
  by_contra absent
  apply found
  rw [List.dropWhile_eq_nil_iff]
  intro c member
  rw [bne_iff_ne]
  rintro rfl
  exact absent member

/-- `readUntil` takes what stands before the delimiter. -/
theorem Sane.readUntil (sane : reader.Sane tokens) (value : Char) :
    (value ∉ reader.unread ∧ reader.readUntil value = .incomplete) ∨
      value ∈ reader.unread ∧ ∃ token after, reader.readUntil value = .ok token after ∧
        after.Sane (token ++ tokens) ∧ after.blocks = reader.blocks ∧
        token.flatMap (Slice.chars reader.blocks) =
          reader.unread.takeWhile (fun c => c != value) ∧
        after.unread = reader.unread.dropWhile fun c => c != value := by
  unfold BufferReader.readUntil
  dsimp only
  rcases sane.endCursor_spec (· == value) (fun c => c != value) (fun _ => rfl) with
    ⟨none, all⟩ | ⟨j, place, ended, inBlock, moved, taken, dropped, found⟩
  · left
    rw [none]
    refine ⟨?_, rfl⟩
    intro member
    have impossible := all value member
    simp at impossible
  · right
    rw [ended]
    refine ⟨?_, _, _, rfl, ?_, rfl, ?_, dropped⟩
    · exact mem_of_dropWhile_ne_nil found
    · apply sane.moveTo (moved_filter moved)
      intro k same
      cases same
      exact .inl inBlock
    · rw [chars_of_filter]
      exact taken

/-- `skipUntil` drops it. -/
theorem Sane.skipUntil (sane : reader.Sane tokens) (value : Char) :
    (value ∉ reader.unread ∧ reader.skipUntil value = .incomplete) ∨
      value ∈ reader.unread ∧ ∃ after, reader.skipUntil value = .ok () after ∧
        after.Sane tokens ∧ SameText reader.blocks after.blocks ∧
        after.unread = reader.unread.dropWhile fun c => c != value := by
  unfold BufferReader.skipUntil
  dsimp only
  rcases sane.endCursor_spec (· == value) (fun c => c != value) (fun _ => rfl) with
    ⟨none, all⟩ | ⟨j, place, ended, inBlock, moved, taken, dropped, found⟩
  · left
    rw [none]
    refine ⟨?_, rfl⟩
    intro member
    have impossible := all value member
    simp at impossible
  · right
    rw [ended]
    have after := sane.moveTo moved (by
      intro k same
      cases same
      exact .inl inBlock)
    obtain ⟨reader', released, kept, same, text⟩ := after.released ()
    exact ⟨mem_of_dropWhile_ne_nil found, reader', released, kept, text, same.trans dropped⟩

/-- A number: the digits are passed and released. -/
theorem Sane.readUnsigned (sane : reader.Sane tokens) :
    (Queue.readUnsigned reader.unread = .incomplete ∧ reader.readUnsigned = .incomplete) ∨
      (Queue.readUnsigned reader.unread = .failed .programming reader.unread ∧
        reader.readUnsigned = .failed .programming reader) ∨
      ∃ number after, Queue.readUnsigned reader.unread = .ok number after.unread ∧
        reader.readUnsigned = .ok number after ∧ after.Sane tokens ∧
        SameText reader.blocks after.blocks := by
  unfold BufferReader.readUnsigned Queue.readUnsigned
  rw [sane.left]
  by_cases short : reader.unread.length < 2
  · left
    rw [if_pos short, if_pos short]
    exact ⟨rfl, rfl⟩
  rw [if_neg short, if_neg short]
  dsimp only
  have nonempty : reader.unread ≠ [] := by
    intro empty
    simp [empty] at short
  obtain ⟨i, here, inBlock⟩ := sane.poised nonempty
  obtain ⟨block, present, inside⟩ := sane.valid i here
  rw [sizeAt, present] at inBlock
  dsimp only at inBlock
  have shape : reader.cursor = { iterator := some i, offset := reader.cursor.offset } := by
    rw [← here]
  have text : reader.unread = block.data.drop reader.cursor.offset ++
      (reader.blocks.drop (i + 1)).flatMap DataBlock.data := by
    rw [← unreadAt_some present inside, ← shape]
    rfl
  have first := List.drop_eq_getElem_cons inBlock
  generalize block.data[reader.cursor.offset] = c at first
  by_cases digit : c.isDigit = true
  · have begins : reader.unread.takeWhile Char.isDigit ≠ [] := by
      rw [text, first, List.cons_append, List.takeWhile_cons_of_pos digit]
      simp
    rw [if_neg begins]
    rcases sane.endCursor_spec (fun c => !c.isDigit) Char.isDigit (by simp) with
      ⟨none, all⟩ | ⟨j, place, ended, within, moved, taken, dropped, found⟩
    · left
      rw [if_pos (List.dropWhile_eq_nil_iff.mpr all), none, if_neg]
      · exact ⟨rfl, rfl⟩
      · intro same
        rw [← same, here] at none
        cases none
    · right
      right
      rw [if_neg found, ended, if_neg]
      · have after := sane.moveTo moved (by
          intro k same
          cases same
          exact .inl within)
        obtain ⟨reader', released, kept, same, stays⟩ := after.released
          (Queue.number ((reader.passed { iterator := some j, offset := place }).flatMap
            (Slice.chars reader.blocks)))
        refine ⟨_, reader', ?_, released, kept, stays⟩
        rw [taken, same]
        exact congrArg _ dropped.symm
      · intro same
        -- a cursor that did not move has read no digit
        apply begins
        have all : reader.unread.dropWhile Char.isDigit = reader.unread := by
          rw [← dropped, ← same]
          rfl
        have split := @List.takeWhile_append_dropWhile _ Char.isDigit reader.unread
        rw [all] at split
        exact List.append_left_eq_self.mp split
  · right
    left
    have none : reader.unread.takeWhile Char.isDigit = [] := by
      rw [text, first, List.cons_append, List.takeWhile_cons_of_neg digit]
    have stays : reader.endCursor (fun c => !c.isDigit) = reader.cursor := by
      have index : (block.data.drop reader.cursor.offset).findIdx (fun c => !c.isDigit) = 0 := by
        rw [first]
        simp [List.findIdx_cons, digit]
      unfold BufferReader.endCursor
      rw [here]
      dsimp only
      rw [drop_eq_cons present, search, DataBlock.find, index, Nat.add_zero,
        if_pos (Nat.ne_of_lt inBlock), ← shape]
    rw [if_pos none, stays, if_pos rfl]
    exact ⟨rfl, rfl⟩

/-- The slices that hold the next characters. -/
theorem Sane.next (sane : reader.Sane tokens) {len : Nat} (positive : 0 < len)
    (enough : len ≤ reader.unread.length) :
    ∃ slices cursor, reader.next len = .ok (slices, cursor) ∧
      (reader.moveTo cursor slices).Sane (slices ++ tokens) ∧
      (∀ slice ∈ slices, 0 < slice.size) ∧ total slices = len ∧
      slices.flatMap (Slice.chars reader.blocks) = reader.unread.take len ∧
      (reader.moveTo cursor slices).unread = reader.unread.drop len := by
  have nonempty : reader.unread ≠ [] := by
    intro empty
    rw [empty] at enough
    exact absurd enough (Nat.not_le.mpr positive)
  obtain ⟨i, here, inBlock⟩ := sane.poised nonempty
  obtain ⟨shape, unread⟩ := reader.at_block here
  obtain ⟨slices, cursor, advanced, moved, count, each, settled⟩ :=
    advance_spec sane.solid (reader.blocks.drop i) i reader.cursor.offset len rfl
      (Nat.le_of_lt inBlock) (by rw [if_neg (Nat.ne_of_gt positive)]; exact inBlock)
      (by rw [← unread]; exact enough)
  rw [← shape] at moved
  have length := moved.size
  rw [count] at length
  refine ⟨slices, cursor, ?_, sane.moveTo moved settled, each, count, ?_, ?_⟩
  · unfold BufferReader.next
    rw [here]
    exact advanced
  · rw [BufferReader.unread, ← moved.text, ← length, List.take_left]
  · have text : reader.unread = _ := moved.text.symm
    rw [text, ← length, List.drop_left]
    rfl

theorem Sane.readBytes (sane : reader.Sane tokens) (len : Nat) :
    (len > reader.unread.length ∧ reader.readBytes len = .incomplete) ∨
      ¬len > reader.unread.length ∧ ∃ token after, reader.readBytes len = .ok token after ∧
        after.Sane (token ++ tokens) ∧ after.blocks = reader.blocks ∧
        token.flatMap (Slice.chars reader.blocks) = reader.unread.take len ∧
        after.unread = reader.unread.drop len := by
  unfold BufferReader.readBytes
  by_cases zero : len = 0
  · right
    subst len
    exact ⟨by simp, [], reader, rfl, sane, rfl, by simp, by simp⟩
  rw [if_neg zero, sane.left]
  by_cases short : len > reader.unread.length
  · left
    rw [if_pos short]
    exact ⟨short, rfl⟩
  · right
    rw [if_neg short]
    obtain ⟨slices, cursor, found, moved, _, _, taken, dropped⟩ :=
      sane.next (Nat.pos_of_ne_zero zero) (Nat.not_lt.mp short)
    rw [found]
    exact ⟨short, slices, _, rfl, moved, rfl, taken, dropped⟩

theorem Sane.skipBytes (sane : reader.Sane tokens) {len : Nat} (positive : 0 < len) :
    (len > reader.unread.length ∧ reader.skipBytes len = .incomplete) ∨
      ¬len > reader.unread.length ∧ ∃ after, reader.skipBytes len = .ok () after ∧
        after.Sane tokens ∧ SameText reader.blocks after.blocks ∧
        after.unread = reader.unread.drop len := by
  unfold BufferReader.skipBytes
  rw [sane.left]
  by_cases short : len > reader.unread.length
  · left
    rw [if_pos short]
    exact ⟨short, rfl⟩
  · right
    rw [if_neg short]
    obtain ⟨slices, cursor, found, moved, _, _, _, dropped⟩ :=
      sane.next positive (Nat.not_lt.mp short)
    obtain ⟨after, released, kept, same, text⟩ := moved.released ()
    rw [found]
    exact ⟨short, after, released, kept, text, same.trans dropped⟩

/-- Without a NUL, `strncmp` compares all of it. -/
theorem sameText_iff {text other : List Char} (plain : Char.ofNat 0 ∉ other)
    (lengths : text.length = other.length) : sameText text other = decide (text = other) := by
  induction text generalizing other with
  | nil =>
      obtain rfl : other = [] := List.length_eq_zero_iff.mp lengths.symm
      rfl
  | cons c text ih =>
      cases other with
      | nil => simp at lengths
      | cons d other =>
          have notNul : d ≠ Char.ofNat 0 := by
            rintro rfl
            exact plain List.mem_cons_self
          rw [sameText, ih (fun member => plain (List.mem_cons_of_mem _ member))
            (by simpa using lengths)]
          by_cases same : c = d
          · subst d
            simp [notNul]
          · simp [same]

theorem length_chars {blocks : List DataBlock} {slice : Slice}
    (inRange : slice.InRange blocks) : (slice.chars blocks).length = slice.size := by
  obtain ⟨inside, fits⟩ := inRange
  rw [sizeAt, List.getElem?_eq_getElem inside] at fits
  dsimp only at fits
  rw [Slice.chars, List.getElem?_eq_getElem inside]
  simp
  omega

/-- The comparisons end at the end of the slices exactly if these hold the text. -/
theorem agreeing_eq {blocks : List DataBlock} {slices : List Slice} {text : List Char}
    (positive : ∀ slice ∈ slices, 0 < slice.size)
    (inRange : ∀ slice ∈ slices, slice.InRange blocks) (plain : Char.ofNat 0 ∉ text)
    (count : total slices = text.length) :
    ∃ same rest, slices = same ++ rest ∧ agreeing blocks slices text = .ok (same, rest.head?) ∧
      (rest = [] ↔ slices.flatMap (Slice.chars blocks) = text) := by
  induction slices generalizing text with
  | nil =>
      obtain rfl : text = [] := List.length_eq_zero_iff.mp count.symm
      exact ⟨[], [], rfl, rfl, by simp⟩
  | cons slice slices ih =>
      simp only [total, List.map_cons, List.sum_cons] at count
      have size := length_chars (inRange slice List.mem_cons_self)
      have parts := List.take_append_drop slice.size text
      have plainTake : Char.ofNat 0 ∉ text.take slice.size :=
        fun member => plain (List.mem_of_mem_take member)
      have plainDrop : Char.ofNat 0 ∉ text.drop slice.size :=
        fun member => plain (List.mem_of_mem_drop member)
      rw [agreeing, if_neg (Nat.ne_of_gt (positive slice List.mem_cons_self)),
        sameText_iff plainTake (by rw [size, List.length_take]; omega), List.flatMap_cons]
      by_cases agrees : slice.chars blocks = text.take slice.size
      · obtain ⟨same, rest, cut, found, whole⟩ :=
          ih (fun other member => positive other (List.mem_cons_of_mem _ member))
            (fun other member => inRange other (List.mem_cons_of_mem _ member)) plainDrop
            (by rw [List.length_drop]; unfold total; omega)
        refine ⟨slice :: same, rest, by rw [cut, List.cons_append], ?_, whole.trans ?_⟩
        · rw [decide_eq_true agrees, if_pos rfl, found]
        · rw [agrees]
          constructor
          · intro equal
            rw [equal]
            exact parts
          · intro equal
            exact List.append_cancel_left (equal.trans parts.symm)
      · refine ⟨[], slice :: slices, rfl, by rw [decide_eq_false agrees, if_neg (by simp)]; rfl,
          by simp, fun whole => absurd ?_ agrees⟩
        rw [← whole, ← size, List.take_left]

/-- Slices of which all can be released can be released up to any of them. -/
theorem release_append_ok {blocks after : List DataBlock} {first second : List Slice}
    (released : release blocks (first ++ second) = .ok after) :
    ∃ middle, release blocks first = .ok middle := by
  induction first generalizing blocks with
  | nil => exact ⟨blocks, rfl⟩
  | cons slice first ih =>
      rw [List.cons_append, release] at released
      rw [release]
      split at released
      · cases released
      · exact ih released

theorem Sane.expectBytes (sane : reader.Sane tokens) {text : List Char}
    (plain : Char.ofNat 0 ∉ text) (positive : 0 < text.length) :
    (text.length > reader.unread.length ∧ reader.expectBytes text = .incomplete) ∨
      (¬text.length > reader.unread.length ∧ reader.unread.take text.length ≠ text ∧
        ∃ left, reader.expectBytes text = .failed .programming left) ∨
      ¬text.length > reader.unread.length ∧ reader.unread.take text.length = text ∧
        ∃ after, reader.expectBytes text = .ok () after ∧ after.Sane tokens ∧
          SameText reader.blocks after.blocks ∧ after.unread = reader.unread.drop text.length := by
  unfold BufferReader.expectBytes
  rw [sane.left]
  by_cases short : text.length > reader.unread.length
  · left
    rw [if_pos short]
    exact ⟨short, rfl⟩
  right
  rw [if_neg short]
  obtain ⟨slices, cursor, found, moved, each, count, taken, dropped⟩ :=
    sane.next positive (Nat.not_lt.mp short)
  have inRange : ∀ slice ∈ slices, slice.InRange reader.blocks :=
    fun slice member => moved.inRange slice (List.mem_append_left _ member)
  obtain ⟨after, freed, kept, equal, stays⟩ := moved.released ()
  obtain ⟨same, rest, cut, compared, whole⟩ := agreeing_eq each inRange plain count
  rw [found]
  dsimp only
  rw [compared]
  rw [taken] at whole
  cases rest with
  | nil =>
      right
      exact ⟨short, whole.mp rfl, after, freed, kept, stays, equal.trans dropped⟩
  | cons slice rest =>
      left
      have differs : reader.unread.take text.length ≠ text := by
        intro equal
        cases whole.mpr equal
      refine ⟨short, differs, ?_⟩
      unfold BufferReader.released at freed
      split at freed
      · cases freed
      next blocks all =>
        rw [cut] at all
        obtain ⟨middle, some⟩ : ∃ middle, release reader.blocks same = .ok middle :=
          release_append_ok all
        dsimp only [List.head?]
        rw [some]
        exact ⟨_, rfl⟩

theorem Sane.peek (sane : reader.Sane tokens) (offset : Nat) :
    (reader.unread[offset]? = none ∧ reader.peek offset = .incomplete) ∨
      ∃ c, reader.unread[offset]? = some c ∧ reader.peek offset = .ok c reader := by
  unfold BufferReader.peek
  rw [sane.left]
  by_cases short : offset ≥ reader.unread.length
  · left
    rw [if_pos short]
    exact ⟨List.getElem?_eq_none short, rfl⟩
  right
  rw [if_neg short]
  have nonempty : reader.unread ≠ [] := by
    intro empty
    simp [empty] at short
  obtain ⟨i, here, inBlock⟩ := sane.poised nonempty
  obtain ⟨shape, unread⟩ := reader.at_block here
  obtain ⟨c, peeked, found⟩ := peekFrom_spec sane.solid sane.last (reader.blocks.drop i) i
    reader.cursor.offset offset rfl inBlock (by rw [← unread]; omega)
  rw [here]
  dsimp only
  rw [peeked]
  exact ⟨c, by rw [unread]; exact found, rfl⟩

end BufferReader

end BespoKV.Memcached
