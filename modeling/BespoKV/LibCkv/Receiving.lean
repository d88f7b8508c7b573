import BespoKV.LibCkv.ReaderQueue

/-!
# Receiving into the reader

What a connection receives joins the unread characters at their end, whatever block it is written
to, and the tokens that are held keep theirs.
-/

namespace BespoKV.Memcached

/-! ## Blocks that grow -/

/-- Blocks keep their characters, and more may follow them. -/
def Grows (blocks blocks' : List DataBlock) : Prop :=
  ∀ (k : Nat) (block : DataBlock), blocks[k]? = some block →
    ∃ block', blocks'[k]? = some block' ∧ block.data <+: block'.data

namespace Grows

variable {blocks blocks' : List DataBlock}

theorem refl (blocks : List DataBlock) : Grows blocks blocks :=
  fun _ block present => ⟨block, present, List.prefix_rfl⟩

theorem trans {blocks'' : List DataBlock} (one : Grows blocks blocks')
    (two : Grows blocks' blocks'') : Grows blocks blocks'' := by
  intro k block present
  obtain ⟨block', present', starts⟩ := one k block present
  obtain ⟨block'', present'', starts'⟩ := two k block' present'
  exact ⟨block'', present'', starts.trans starts'⟩

theorem of_sameText (same : SameText blocks blocks') : Grows blocks blocks' := by
  intro k block present
  obtain ⟨block', present', data, _⟩ := same.exists_of_some present
  exact ⟨block', present', data ▸ List.prefix_rfl⟩

theorem sizeAt_le (grows : Grows blocks blocks') (k : Nat) :
    sizeAt blocks k ≤ sizeAt blocks' k := by
  unfold sizeAt
  cases present : blocks[k]? with
  | none => exact Nat.zero_le _
  | some block =>
      obtain ⟨block', present', starts⟩ := grows k block present
      rw [present']
      exact starts.length_le

theorem inRange (grows : Grows blocks blocks') {slice : Slice} (inRange : slice.InRange blocks) :
    slice.InRange blocks' := by
  obtain ⟨inside, fits⟩ := inRange
  obtain ⟨_, present, _⟩ := grows slice.block _ (List.getElem?_eq_getElem inside)
  exact ⟨(List.getElem?_eq_some_iff.mp present).1, Nat.le_trans fits (grows.sizeAt_le _)⟩

/-- A token keeps its characters. -/
theorem chars_eq (grows : Grows blocks blocks') {slice : Slice} (inRange : slice.InRange blocks) :
    slice.chars blocks' = slice.chars blocks := by
  obtain ⟨inside, fits⟩ := inRange
  have present := List.getElem?_eq_getElem inside
  generalize blocks[slice.block] = block at present
  obtain ⟨block', present', more, data⟩ := grows slice.block block present
  rw [sizeAt, present] at fits
  dsimp only at fits
  unfold Slice.chars
  rw [present, present']
  dsimp only
  rw [← data, List.drop_append_of_le_length (by omega),
    List.take_append_of_le_length (by rw [List.length_drop]; omega)]

end Grows

/-- At the end nothing is unread, in any block. -/
theorem unreadIn_eq_zero {blocks : List DataBlock} {cursor : Cursor} (valid : cursor.Valid blocks)
    (empty : unreadAt blocks cursor = []) (k : Nat) : unreadIn blocks cursor k = 0 := by
  unfold unreadIn
  cases here : cursor.iterator with
  | none => rfl
  | some i =>
      obtain ⟨block, present, inside⟩ := valid i here
      have shape : cursor = { iterator := some i, offset := cursor.offset } := by
        rw [← here]
      rw [shape, unreadAt_some present inside, List.append_eq_nil_iff,
        List.drop_eq_nil_iff, List.flatMap_eq_nil_iff] at empty
      dsimp only
      rcases Nat.lt_trichotomy k i with below | rfl | above
      · rw [if_pos below]
      · rw [if_neg (Nat.lt_irrefl k), if_pos rfl, sizeAt, present]
        exact Nat.sub_eq_zero_of_le empty.1
      · rw [if_neg (Nat.not_lt.mpr (Nat.le_of_lt above)), if_neg (Nat.ne_of_gt above), sizeAt]
        cases later : blocks[k]? with
        | none => rfl
        | some other =>
            have member : other ∈ blocks.drop (i + 1) := by
              apply List.mem_of_getElem? (i := k - (i + 1))
              rw [List.getElem?_drop, ← later]
              congr 1
              omega
            dsimp only
            rw [empty.2 other member]
            rfl

namespace BufferReader

variable {reader : BufferReader} {tokens : List Slice}

/-! ## A block to write to -/

theorem sizeAt_append_empty (blocks : List DataBlock) {fresh : DataBlock} (empty : fresh.data = [])
    (k : Nat) : sizeAt (blocks ++ [fresh]) k = sizeAt blocks k := by
  unfold sizeAt
  rcases Nat.lt_trichotomy k blocks.length with inside | rfl | beyond
  · rw [List.getElem?_append_left inside]
  · simp [empty]
  · rw [List.getElem?_eq_none (by simp; omega), List.getElem?_eq_none (by omega)]

theorem refsAt_append_unused (blocks : List DataBlock) {fresh : DataBlock}
    (unused : fresh.nBytesRef = 0) (k : Nat) :
    refsAt (blocks ++ [fresh]) k = refsAt blocks k := by
  unfold refsAt
  rcases Nat.lt_trichotomy k blocks.length with inside | rfl | beyond
  · rw [List.getElem?_append_left inside]
  · simp [unused]
  · rw [List.getElem?_eq_none (by simp; omega), List.getElem?_eq_none (by omega)]

theorem grows_append (blocks : List DataBlock) (fresh : DataBlock) :
    Grows blocks (blocks ++ [fresh]) := by
  intro k block present
  have inside := (List.getElem?_eq_some_iff.mp present).1
  exact ⟨block, by rw [List.getElem?_append_left inside, present], List.prefix_rfl⟩

theorem unreadAt_append_empty {blocks : List DataBlock} {cursor : Cursor}
    (valid : cursor.Valid blocks) {fresh : DataBlock} (empty : fresh.data = []) :
    unreadAt (blocks ++ [fresh]) cursor = unreadAt blocks cursor := by
  unfold unreadAt
  cases here : cursor.iterator with
  | none => rfl
  | some i =>
      obtain ⟨block, present, _⟩ := valid i here
      have inside := (List.getElem?_eq_some_iff.mp present).1
      dsimp only
      rw [List.drop_append_of_le_length (Nat.le_of_lt inside), List.flatMap_append,
        List.flatMap_singleton, empty, List.append_nil]

/-- A new block, behind blocks that hold something. -/
theorem Sane.append (sane : reader.Sane tokens)
    (full : ∀ k, k + 1 = reader.blocks.length → 0 < sizeAt reader.blocks k)
    (fresh : DataBlock) (empty : fresh.data = []) (unused : fresh.nBytesRef = 0)
    (room : 0 < fresh.capacity) :
    Sane { reader with
      blocks := reader.blocks ++ [fresh], writer := some reader.blocks.length } tokens where
  valid i here := by
    obtain ⟨block, present, inside⟩ := sane.valid i here
    obtain ⟨block', present', starts⟩ := grows_append reader.blocks fresh i block present
    exact ⟨block', present', Nat.le_trans inside starts.length_le⟩
  left := sane.left.trans (congrArg List.length (unreadAt_append_empty sane.valid empty)).symm
  poised some := by
    dsimp only [BufferReader.unread] at some ⊢
    rw [unreadAt_append_empty sane.valid empty] at some
    obtain ⟨i, here, inside⟩ := sane.poised some
    exact ⟨i, here, by rw [sizeAt_append_empty _ empty]; exact inside⟩
  last i here := by
    cases here
    simp
  solid k more := by
    rw [sizeAt_append_empty _ empty]
    rw [List.length_append, List.length_singleton] at more
    by_cases before : k + 1 < reader.blocks.length
    · exact sane.solid k before
    · exact full k (by omega)
  written none := by cases none
  roomy block member := by
    rcases List.mem_append.mp member with member | member
    · exact sane.roomy block member
    · rw [List.mem_singleton] at member
      subst block
      exact room
  refs k := by
    dsimp only
    rw [refsAt_append_unused _ unused, sane.refs k]
    unfold unreadIn
    simp only [sizeAt_append_empty _ empty]
  inRange slice member := (grows_append _ _).inRange (sane.inRange slice member)

/-- Write on in the last block. -/
theorem Sane.aim (sane : reader.Sane tokens) {i : Nat} (final : i + 1 = reader.blocks.length) :
    Sane { reader with writer := some i } tokens where
  valid := sane.valid
  left := sane.left
  poised := sane.poised
  last j same := by
    cases same
    exact final
  solid := sane.solid
  written none := by cases none
  roomy := sane.roomy
  refs := sane.refs
  inRange := sane.inRange

/-- A reader with nothing unread goes to where it will be written. -/
theorem Sane.rewind (sane : reader.Sane tokens) {i : Nat} {block : DataBlock}
    (present : reader.blocks[i]? = some block) (final : i + 1 = reader.blocks.length)
    (empty : reader.unread = []) :
    unreadAt reader.blocks { iterator := some i, offset := block.data.length } = [] ∧
      Sane { reader with cursor := { iterator := some i, offset := block.data.length } }
        tokens := by
  have behind : reader.blocks.drop (i + 1) = [] := List.drop_eq_nil_of_le (by omega)
  have nothing : unreadAt reader.blocks { iterator := some i, offset := block.data.length } =
      [] := by
    rw [unreadAt_some present (Nat.le_refl _), behind]
    simp
  have valid : Cursor.Valid reader.blocks { iterator := some i, offset := block.data.length } := by
    intro j same
    cases same
    exact ⟨block, present, Nat.le_refl _⟩
  refine ⟨nothing, valid, ?_, ?_, sane.last, sane.solid, sane.written, sane.roomy, ?_,
    sane.inRange⟩
  · rw [sane.left, empty]
    exact (congrArg List.length nothing).symm
  · intro some
    exact absurd nothing some
  · intro k
    rw [sane.refs k, unreadIn_eq_zero sane.valid empty, unreadIn_eq_zero valid nothing]

/-- Ready to write to the last block, where an empty reader stands too. -/
structure Poised (reader : BufferReader) (i : Nat) (block : DataBlock) : Prop where
  writer : reader.writer = some i
  present : reader.blocks[i]? = some block
  final : i + 1 = reader.blocks.length
  empty : reader.unread = [] →
    reader.cursor = { iterator := some i, offset := block.data.length }

/-- The last lines of `prepareWriteBlock`. -/
theorem Sane.poise (sane : reader.Sane tokens) {i : Nat} {block : DataBlock}
    (writer : reader.writer = some i) (present : reader.blocks[i]? = some block) :
    let after := { reader with
      cursor := if reader.readLeft = 0 then { iterator := some i, offset := block.data.length }
        else reader.cursor }
    after.Sane tokens ∧ after.unread = reader.unread ∧ after.Poised i block := by
  have final := sane.last i writer
  by_cases none : reader.readLeft = 0
  · have empty : reader.unread = [] := List.length_eq_zero_iff.mp (sane.left ▸ none)
    obtain ⟨nothing, kept⟩ := sane.rewind present final empty
    rw [if_pos none]
    exact ⟨kept, nothing.trans empty.symm, writer, present, final, fun _ => rfl⟩
  · rw [if_neg none]
    refine ⟨sane, rfl, writer, present, final, ?_⟩
    intro empty
    rw [sane.left, show reader.unread = [] from empty] at none
    exact absurd rfl none

/-- A block that is left behind holds something. -/
theorem Sane.full_of_skipFull (sane : reader.Sane tokens) (skipped : reader.skipFull = none) :
    ∀ k, k + 1 = reader.blocks.length → 0 < sizeAt reader.blocks k := by
  intro k final
  unfold skipFull at skipped
  cases writing : reader.writer with
  | none => exact sane.written writing k final
  | some i =>
      have last := sane.last i writing
      obtain rfl : i = k := by omega
      have present := List.getElem?_eq_getElem (show i < reader.blocks.length by omega)
      generalize reader.blocks[i] = block at present
      rw [writing] at skipped
      dsimp only at skipped
      rw [present] at skipped
      dsimp only at skipped
      rw [sizeAt, present]
      have room := sane.roomy block (List.mem_of_getElem? present)
      split at skipped
      next full =>
        unfold DataBlock.getWriteLeft at full
        dsimp only
        omega
      · cases skipped

/-- Otherwise the block has room. -/
theorem Sane.writer_of_skipFull (sane : reader.Sane tokens) {i : Nat}
    (skipped : reader.skipFull = some i) :
    i + 1 = reader.blocks.length ∧ ∃ block, reader.blocks[i]? = some block ∧
      ¬block.getWriteLeft = 0 := by
  unfold skipFull at skipped
  cases writing : reader.writer with
  | none =>
      rw [writing] at skipped
      cases skipped
  | some j =>
      have last := sane.last j writing
      have present := List.getElem?_eq_getElem (show j < reader.blocks.length by omega)
      generalize reader.blocks[j] = block at present
      rw [writing] at skipped
      dsimp only at skipped
      rw [present] at skipped
      dsimp only at skipped
      split at skipped
      · rw [increment, if_neg (by omega)] at skipped
        cases skipped
      next room =>
        cases skipped
        exact ⟨last, block, present, room⟩

theorem Sane.prepareWriteBlock (sane : reader.Sane tokens) (len : Nat) :
    ∃ after i block, reader.prepareWriteBlock len = .ok (after, min len block.getWriteLeft) ∧
      after.Sane tokens ∧ after.unread = reader.unread ∧ Grows reader.blocks after.blocks ∧
      after.Poised i block ∧ 0 < block.getWriteLeft := by
  unfold BufferReader.prepareWriteBlock
  cases skipped : reader.skipFull with
  | none =>
      have positive : 0 < max len minCapacity :=
        Nat.lt_of_lt_of_le (by decide) (Nat.le_max_right _ _)
      have appended := sane.append (sane.full_of_skipFull skipped)
        { capacity := max len minCapacity, fits := by simp } rfl rfl positive
      obtain ⟨kept, same, poised⟩ := appended.poise rfl List.getElem?_concat_length
      refine ⟨_, _, _, rfl, kept, same.trans ?_, grows_append _ _, poised, positive⟩
      exact unreadAt_append_empty sane.valid rfl
  | some i =>
      obtain ⟨final, block, present, room⟩ := sane.writer_of_skipFull skipped
      obtain ⟨kept, same, poised⟩ := (sane.aim final).poise rfl present
      dsimp only
      rw [present]
      dsimp only
      rw [if_neg room]
      exact ⟨_, _, _, rfl, kept, same, .refl _, poised, Nat.pos_of_ne_zero room⟩

/-! ## Characters that arrive -/

section Commit

variable {i : Nat} {block : DataBlock} {chars : List Char}
  {room : block.data.length + chars.length ≤ block.capacity}

theorem Poised.grows (poised : reader.Poised i block) :
    Grows reader.blocks (reader.blocks.set i (block.push chars room)) := by
  intro k other present
  by_cases same : i = k
  · subst k
    rw [poised.present] at present
    cases present
    refine ⟨_, List.getElem?_set_self (by have := poised.final; omega), ?_⟩
    exact List.prefix_append _ _
  · exact ⟨other, by rw [List.getElem?_set_ne same, present], List.prefix_rfl⟩

theorem Poised.sizeAt_eq (poised : reader.Poised i block) (k : Nat) :
    sizeAt (reader.blocks.set i (block.push chars room)) k =
      sizeAt reader.blocks k + if k = i then chars.length else 0 := by
  unfold sizeAt
  by_cases same : i = k
  · subst k
    rw [List.getElem?_set_self (by have := poised.final; omega), poised.present, if_pos rfl]
    exact List.length_append
  · rw [List.getElem?_set_ne same, if_neg (Ne.symm same)]
    rfl

theorem Poised.refsAt_eq (poised : reader.Poised i block) (k : Nat) :
    refsAt (reader.blocks.set i (block.push chars room)) k =
      refsAt reader.blocks k + if k = i then chars.length else 0 := by
  unfold refsAt
  by_cases same : i = k
  · subst k
    rw [List.getElem?_set_self (by have := poised.final; omega), poised.present, if_pos rfl]
    rfl
  · rw [List.getElem?_set_ne same, if_neg (Ne.symm same)]
    rfl

/-- The cursor is in some block once there is one to write to. -/
theorem Poised.cursor_some (poised : reader.Poised i block) (sane : reader.Sane tokens) :
    ∃ j, reader.cursor.iterator = some j ∧ j ≤ i := by
  by_cases empty : reader.unread = []
  · exact ⟨i, by rw [poised.empty empty], Nat.le_refl i⟩
  · obtain ⟨j, here, _⟩ := sane.poised empty
    obtain ⟨_, present, _⟩ := sane.valid j here
    have inside := (List.getElem?_eq_some_iff.mp present).1
    have final := poised.final
    exact ⟨j, here, by omega⟩

/-- What is written to the last block joins the unread characters. -/
theorem Poised.unreadAt_eq (poised : reader.Poised i block) (sane : reader.Sane tokens) :
    unreadAt (reader.blocks.set i (block.push chars room)) reader.cursor =
      reader.unread ++ chars := by
  obtain ⟨j, here, before⟩ := poised.cursor_some sane
  obtain ⟨other, present, inside⟩ := sane.valid j here
  have final := poised.final
  have texts : ((reader.blocks.set i (block.push chars room)).drop j).flatMap DataBlock.data =
      (reader.blocks.drop j).flatMap DataBlock.data ++ chars := by
    have split : reader.blocks = reader.blocks.take i ++ [block] := by
      have whole := List.take_append_drop i reader.blocks
      rw [drop_eq_cons poised.present, List.drop_eq_nil_of_le (by omega)] at whole
      exact whole.symm
    have length : (reader.blocks.take i).length = i := by
      rw [List.length_take]
      omega
    rw [split, List.set_append_right _ _ (by omega), length, Nat.sub_self, List.set_cons_zero,
      List.drop_append_of_le_length (by omega), List.drop_append_of_le_length (by omega)]
    simp [DataBlock.push]
  unfold BufferReader.unread unreadAt
  rw [here]
  dsimp only
  rw [texts, List.drop_append_of_le_length]
  rw [drop_eq_cons present, List.flatMap_cons, List.length_append]
  omega

theorem Poised.unreadIn_eq (poised : reader.Poised i block) (sane : reader.Sane tokens) (k : Nat) :
    unreadIn (reader.blocks.set i (block.push chars room)) reader.cursor k =
      unreadIn reader.blocks reader.cursor k + if k = i then chars.length else 0 := by
  obtain ⟨j, here, before⟩ := poised.cursor_some sane
  obtain ⟨other, present, inside⟩ := sane.valid j here
  unfold unreadIn
  rw [here]
  dsimp only
  rw [poised.sizeAt_eq]
  have size : j = k → reader.cursor.offset ≤ sizeAt reader.blocks k := by
    rintro rfl
    rw [sizeAt, present]
    exact inside
  split_ifs <;> omega

end Commit

/-- `commitWrite` -/
theorem Sane.commitWrite (sane : reader.Sane tokens) {i : Nat} {block : DataBlock}
    (poised : reader.Poised i block) {chars : List Char} (some : chars ≠ [])
    (fits : chars.length ≤ block.getWriteLeft) :
    ∃ after, reader.commitWrite chars = .ok after ∧ after.Sane tokens ∧
      after.unread = reader.unread ++ chars ∧ Grows reader.blocks after.blocks := by
  have final := poised.final
  have positive := List.length_pos_iff.mpr some
  have room : block.data.length + chars.length ≤ block.capacity := by
    have bounded := block.fits
    unfold DataBlock.getWriteLeft at fits
    omega
  unfold BufferReader.commitWrite
  rw [poised.writer]
  dsimp only
  rw [poised.present]
  dsimp only
  rw [dif_pos room]
  refine ⟨_, rfl, ?_, poised.unreadAt_eq sane, poised.grows⟩
  refine ⟨?_, ?_, ?_, ?_, ?_, ?_, ?_, ?_, ?_⟩
  · intro j here
    obtain ⟨other, present, inside⟩ := sane.valid j here
    obtain ⟨other', present', starts⟩ := poised.grows j other present
    exact ⟨other', present', Nat.le_trans inside starts.length_le⟩
  · have text : (unreadAt (reader.blocks.set i (block.push chars room)) reader.cursor).length = _ :=
      congrArg List.length (poised.unreadAt_eq sane)
    rw [List.length_append, ← sane.left] at text
    exact text.symm
  · intro _
    by_cases empty : reader.unread = []
    · refine ⟨i, by rw [poised.empty empty], ?_⟩
      rw [poised.sizeAt_eq, if_pos rfl, poised.empty empty, sizeAt, poised.present]
      dsimp only
      omega
    · obtain ⟨j, here, inside⟩ := sane.poised empty
      exact ⟨j, here, Nat.lt_of_lt_of_le inside (poised.grows.sizeAt_le j)⟩
  · intro j writing
    dsimp only at writing
    rw [List.length_set]
    split at writing
    · rw [increment, if_neg (by omega)] at writing
      cases writing
    · cases writing
      exact final
  · intro k more
    rw [List.length_set] at more
    exact Nat.lt_of_lt_of_le (sane.solid k more) (poised.grows.sizeAt_le k)
  · intro _ k last
    rw [List.length_set] at last
    rw [poised.sizeAt_eq, if_pos (by omega)]
    omega
  · intro other member
    rcases List.mem_or_eq_of_mem_set member with member | rfl
    · exact sane.roomy other member
    · exact sane.roomy block (List.mem_of_getElem? poised.present)
  · intro k
    dsimp only
    rw [poised.refsAt_eq, poised.unreadIn_eq sane, sane.refs k]
    omega
  · intro slice member
    exact poised.grows.inRange (sane.inRange slice member)

theorem Sane.setNextPreferedDataBlockSize (sane : reader.Sane tokens) (n : Nat) :
    (reader.setNextPreferedDataBlockSize n).Sane tokens :=
  ⟨sane.valid, sane.left, sane.poised, sane.last, sane.solid, sane.written, sane.roomy, sane.refs,
    sane.inRange⟩

/-- `Connection::recv`: what arrives joins the unread characters, and no token changes.  It always
asks for something, and the only fault would be that the socket gives more than that. -/
theorem Sane.recv (sane : reader.Sane tokens) (chars : List Char) :
    0 < reader.room ∧
      (reader.room < chars.length ∧ reader.recv chars = .error .disabled ∨
        chars.length ≤ reader.room ∧ ∃ after, reader.recv chars = .ok after ∧ after.Sane tokens ∧
          after.unread = reader.unread ++ chars ∧ Grows reader.blocks after.blocks) := by
  unfold BufferReader.recv BufferReader.room BufferReader.getNextPreferedDataBlockSize
  dsimp only
  have asked : 0 < if reader.nextPrefered = 0 then minCapacity else reader.nextPrefered := by
    split
    · decide
    · omega
  generalize (if reader.nextPrefered = 0 then minCapacity else reader.nextPrefered) = size
    at asked ⊢
  obtain ⟨ready, i, block, prepared, kept, same, grows, poised, left⟩ :=
    (sane.setNextPreferedDataBlockSize minCapacity).prepareWriteBlock size
  rw [prepared]
  dsimp only
  refine ⟨by omega, ?_⟩
  by_cases tooMany : chars.length > min size block.getWriteLeft
  · rw [if_pos tooMany]
    exact .inl ⟨tooMany, rfl⟩
  right
  rw [if_neg tooMany]
  refine ⟨Nat.not_lt.mp tooMany, ?_⟩
  by_cases none : chars = []
  · rw [if_pos none]
    exact ⟨ready, rfl, kept, by rw [none, List.append_nil]; exact same, grows⟩
  · rw [if_neg none]
    obtain ⟨after, committed, kept, joined, grows'⟩ := kept.commitWrite poised none (by omega)
    exact ⟨after, committed, kept, by rw [joined, same]; rfl, grows.trans grows'⟩

/-- `reset`, when no token is left. -/
theorem Sane.reset (sane : reader.Sane []) : reader.reset.Sane [] ∧ reader.reset.unread = [] := by
  unfold BufferReader.reset
  cases held : reader.blocks with
  | nil =>
      refine ⟨⟨?_, rfl, ?_, ?_, ?_, ?_, ?_, fun _ => rfl, ?_⟩, rfl⟩
      · simp [Cursor.Valid]
      · intro impossible
        exact absurd rfl impossible
      all_goals simp
  | cons block blocks =>
      have room := sane.roomy block (by rw [held]; exact List.mem_cons_self)
      refine ⟨⟨?_, rfl, ?_, ?_, ?_, ?_, ?_, ?_, ?_⟩, rfl⟩
      · intro i here
        cases here
        exact ⟨block.reset, rfl, Nat.le_refl _⟩
      · intro impossible
        exact absurd rfl impossible
      · intro i writing
        cases writing
        rfl
      · intro k more
        simp at more
      · intro impossible
        cases impossible
      · intro other member
        simp only [List.map_cons, List.take_succ_cons, List.take_zero, List.mem_singleton] at member
        subst other
        exact room
      · intro k
        cases k with
        | zero => rfl
        | succ k => simp [refsAt, unreadIn, sizeAt, BespoKV.Memcached.held]
      · simp

end BufferReader

end BespoKV.Memcached
