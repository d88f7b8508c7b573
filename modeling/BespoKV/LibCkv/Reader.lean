import Mathlib.Algebra.Ring.Nat
import Mathlib.Data.List.Basic
import BespoKV.Proxy.Types

/-!
# The reader of the client library

`BufferReader` keeps what a connection has received in a list of blocks, with a place to write
and a cursor to read from.  Tokens are slices of the blocks; a block counts the characters that
are still unread or held by a token.  An iterator is a position in the list, `none` for its end.
-/

namespace BespoKV.Memcached

/-- Why a call fails, other than for want of characters. -/
inductive Halt where
  /-- `RET_PROGRAMMING_ERR` -/
  | programming
  /-- an assertion failed, or an empty container was accessed -/
  | fault (fault : Fault)
  deriving DecidableEq, Repr

/-- What a call on a reader gives; `RET_INCOMPLETE_BUFFER_ERR` leaves the reader as it was. -/
inductive Read (ρ α : Type) where
  | ok (value : α) (rest : ρ)
  | incomplete
  | failed (halt : Halt) (rest : ρ)

/-! ## The reader as a queue of characters -/

namespace Queue

def peek (queue : List Char) (offset : Nat) : Read (List Char) Char :=
  match queue[offset]? with
  | none => .incomplete
  | some c => .ok c queue

def readUntil (queue : List Char) (value : Char) : Read (List Char) (List Char) :=
  if value ∈ queue then
    .ok (queue.takeWhile fun c => c != value) (queue.dropWhile fun c => c != value)
  else .incomplete

def skipUntil (queue : List Char) (value : Char) : Read (List Char) Unit :=
  if value ∈ queue then .ok () (queue.dropWhile fun c => c != value) else .incomplete

/-- The number that digits stand for, as a `uint64_t`. -/
def number (digits : List Char) : Nat :=
  digits.foldl (fun value c => (value * 10 + (c.toNat - '0'.toNat)) % 2 ^ 64) 0

def readUnsigned (queue : List Char) : Read (List Char) Nat :=
  if queue.length < 2 then .incomplete
  else if queue.takeWhile Char.isDigit = [] then .failed .programming queue
  else if queue.dropWhile Char.isDigit = [] then .incomplete
  else .ok (number (queue.takeWhile Char.isDigit)) (queue.dropWhile Char.isDigit)

def readBytes (queue : List Char) (len : Nat) : Read (List Char) (List Char) :=
  if len > queue.length then .incomplete else .ok (queue.take len) (queue.drop len)

def expectBytes (queue text : List Char) : Read (List Char) Unit :=
  if text.length > queue.length then .incomplete
  else if queue.take text.length = text then .ok () (queue.drop text.length)
  else .failed .programming queue

def skipBytes (queue : List Char) (len : Nat) : Read (List Char) Unit :=
  if len > queue.length then .incomplete else .ok () (queue.drop len)

end Queue

/-! ## Blocks -/

/-- `DataBlock`: what has been written, the room there is, and the characters in use. -/
structure DataBlock where
  data : List Char := []
  capacity : Nat
  nBytesRef : Nat := 0
  fits : data.length ≤ capacity

/-- `MIN_DATABLOCK_CAPACITY` -/
def minCapacity : Nat := 8192

namespace DataBlock

/-- `DataBlock::getWriteLeft` -/
def getWriteLeft (block : DataBlock) : Nat := block.capacity - block.data.length

/-- `DataBlock::find` and `findNotNumeric`: the position of the first character that stops the
search, the size of the block if there is none. -/
def find (block : DataBlock) (stop : Char → Bool) (since : Nat) : Nat :=
  since + (block.data.drop since).findIdx stop

/-- `DataBlock::push`, with the characters that were received into the block. -/
def push (block : DataBlock) (chars : List Char)
    (room : block.data.length + chars.length ≤ block.capacity) : DataBlock where
  data := block.data ++ chars
  capacity := block.capacity
  nBytesRef := block.nBytesRef + chars.length
  fits := by rw [List.length_append]; exact room

/-- `DataBlock::reset` -/
def reset (block : DataBlock) : DataBlock where
  capacity := block.capacity
  fits := Nat.zero_le _

end DataBlock

structure Cursor where
  iterator : Option Nat := none
  offset : Nat := 0
  deriving DecidableEq, Repr

/-- `DataBlockSlice` -/
structure Slice where
  block : Nat
  offset : Nat
  size : Nat
  deriving DecidableEq, Repr

abbrev TokenData := List Slice

structure BufferReader where
  blocks : List DataBlock := []
  readLeft : Nat := 0
  cursor : Cursor := {}
  writer : Option Nat := none
  nextPrefered : Nat := 0

/-- `++iterator` -/
def increment (blocks : List DataBlock) (i : Nat) : Option Nat :=
  if i + 1 < blocks.length then some (i + 1) else none

/-- The characters a slice stands for. -/
def Slice.chars (blocks : List DataBlock) (slice : Slice) : List Char :=
  match blocks[slice.block]? with
  | none => []
  | some block => (block.data.drop slice.offset).take slice.size

/-- `DataBlock::release` for one slice, with its assertion. -/
def Slice.release (blocks : List DataBlock) (slice : Slice) : Except Fault (List DataBlock) :=
  match blocks[slice.block]? with
  | none => .error .undefined
  | some block =>
      if block.nBytesRef < slice.size then .error .check
      else .ok (blocks.set slice.block { block with nBytesRef := block.nBytesRef - slice.size })

/-- Release slice after slice, as `freeTokenData` does. -/
def release (blocks : List DataBlock) : List Slice → Except Fault (List DataBlock)
  | [] => .ok blocks
  | slice :: slices =>
      match slice.release blocks with
      | .error fault => .error fault
      | .ok blocks => release blocks slices

namespace BufferReader

/-! ## Writing -/

/-- The first lines of `prepareWriteBlock`: a full block is left. -/
def skipFull (reader : BufferReader) : Option Nat :=
  match reader.writer with
  | none => none
  | some i =>
      match reader.blocks[i]? with
      | none => none
      | some block => if block.getWriteLeft = 0 then increment reader.blocks i else some i

/-- `prepareWriteBlock`: the reader and the room it offers. -/
def prepareWriteBlock (reader : BufferReader) (len : Nat) : Except Fault (BufferReader × Nat) :=
  match reader.skipFull with
  | none =>
      let block : DataBlock := { capacity := max len minCapacity, fits := by simp }
      .ok ({ reader with
        blocks := reader.blocks ++ [block]
        writer := some reader.blocks.length
        cursor := if reader.readLeft = 0 then { iterator := some reader.blocks.length, offset := 0 }
          else reader.cursor }, min len block.getWriteLeft)
  | some i =>
      match reader.blocks[i]? with
      | none => .error .undefined
      | some block =>
          if block.getWriteLeft = 0 then .error .check
          else
            .ok ({ reader with
              writer := some i
              cursor := if reader.readLeft = 0 then
                  { iterator := some i, offset := block.data.length }
                else reader.cursor }, min len block.getWriteLeft)

/-- `commitWrite`.  The size it compares has already grown by the length, so a block that has
as much room left as was just written is given up. -/
def commitWrite (reader : BufferReader) (chars : List Char) : Except Fault BufferReader :=
  match reader.writer with
  | none => .error .undefined
  | some i =>
      match reader.blocks[i]? with
      | none => .error .undefined
      | some block =>
          if room : block.data.length + chars.length ≤ block.capacity then
            .ok { reader with
              blocks := reader.blocks.set i (block.push chars room)
              writer :=
                if (block.push chars room).data.length + chars.length = block.capacity then
                  increment reader.blocks i
                else some i
              readLeft := reader.readLeft + chars.length }
          else .error .check

def setNextPreferedDataBlockSize (reader : BufferReader) (n : Nat) : BufferReader :=
  { reader with nextPrefered := n }

/-- `getNextPreferedDataBlockSize` -/
def getNextPreferedDataBlockSize (reader : BufferReader) : Nat × BufferReader :=
  (if reader.nextPrefered = 0 then minCapacity else reader.nextPrefered,
    reader.setNextPreferedDataBlockSize minCapacity)

/-- The number of characters that `Connection::recv` asks the socket for. -/
def room (reader : BufferReader) : Nat :=
  let (bufferSize, reader) := reader.getNextPreferedDataBlockSize
  match reader.prepareWriteBlock bufferSize with
  | .error _ => 0
  | .ok (_, available) => available

/-- `Connection::recv`, when the socket has these characters: none if the call fails or the peer
has closed. -/
def recv (reader : BufferReader) (chars : List Char) : Except Fault BufferReader :=
  let (bufferSize, reader) := reader.getNextPreferedDataBlockSize
  match reader.prepareWriteBlock bufferSize with
  | .error fault => .error fault
  | .ok (reader, available) =>
      if chars.length > available then .error .disabled
      else if chars = [] then .ok reader
      else reader.commitWrite chars

/-- `reset`: one block is kept, the size that was preferred too. -/
def reset (reader : BufferReader) : BufferReader :=
  let front := if reader.blocks = [] then none else some 0
  { reader with
    blocks := (reader.blocks.map DataBlock.reset).take 1
    readLeft := 0
    writer := front
    cursor := { iterator := front, offset := 0 } }

/-! ## Reading -/

/-- The loop of `peek`. -/
def peekFrom (writer : Option Nat) (i place offset : Nat) :
    List DataBlock → Except Fault (Option Char)
  | [] => .error .undefined
  | block :: rest =>
      if offset = 0 then
        match block.data[place]? with
        | none => .error .check
        | some c => .ok (some c)
      else if offset < block.data.length - place then
        match block.data[place + offset]? with
        | none => .error .check
        | some c => .ok (some c)
      else if some i ≠ writer then
        peekFrom writer (i + 1) 0 (offset - (block.data.length - place)) rest
      else .ok none

/-- `peek` -/
def peek (reader : BufferReader) (offset : Nat) : Read BufferReader Char :=
  if offset ≥ reader.readLeft then .incomplete
  else
    match reader.cursor.iterator with
    | none => .failed (.fault .undefined) reader
    | some i =>
        match peekFrom reader.writer i reader.cursor.offset offset (reader.blocks.drop i) with
        | .error fault => .failed (.fault fault) reader
        | .ok none => .incomplete
        | .ok (some c) => .ok c reader

/-- The first loop of `readUntil`, `skipUntil` and `readUnsigned`: where the search stops. -/
def search (stop : Char → Bool) (i offset : Nat) : List DataBlock → Cursor
  | [] => {}
  | block :: rest =>
      if block.find stop offset ≠ block.data.length then
        { iterator := some i, offset := block.find stop offset }
      else search stop (i + 1) 0 rest

/-- `endCur` of these functions. -/
def endCursor (reader : BufferReader) (stop : Char → Bool) : Cursor :=
  match reader.cursor.iterator with
  | none => reader.cursor
  | some i => search stop i reader.cursor.offset (reader.blocks.drop i)

/-- Their second loop: the slices between the cursor and `endCur`. -/
def slices (i offset : Nat) (stopAt : Cursor) : List DataBlock → List Slice
  | [] => []
  | block :: rest =>
      if some i = stopAt.iterator then
        [{ block := i, offset := offset, size := stopAt.offset - offset }]
      else
        { block := i, offset := offset, size := block.data.length - offset } ::
          slices (i + 1) 0 stopAt rest

/-- The slices that are passed on the way to a cursor. -/
def passed (reader : BufferReader) (stopAt : Cursor) : List Slice :=
  match reader.cursor.iterator with
  | none => []
  | some i => slices i reader.cursor.offset stopAt (reader.blocks.drop i)

/-- The number of characters in slices. -/
def total (slices : List Slice) : Nat := (slices.map Slice.size).sum

/-- Move the cursor past slices. -/
def moveTo (reader : BufferReader) (cursor : Cursor) (slices : List Slice) : BufferReader :=
  { reader with cursor := cursor, readLeft := reader.readLeft - total slices }

/-- Release slices, where a function reads past them for good. -/
def released {α : Type} (reader : BufferReader) (slices : List Slice) (value : α) :
    Read BufferReader α :=
  match release reader.blocks slices with
  | .error fault => .failed (.fault fault) reader
  | .ok blocks => .ok value { reader with blocks := blocks }

/-- `readUntil`: an empty slice is not kept. -/
def readUntil (reader : BufferReader) (value : Char) : Read BufferReader TokenData :=
  let endCur := reader.endCursor (· == value)
  match endCur.iterator with
  | none => .incomplete
  | some _ =>
      let token := (reader.passed endCur).filter fun slice => slice.size > 0
      .ok token (reader.moveTo endCur token)

/-- `skipUntil` -/
def skipUntil (reader : BufferReader) (value : Char) : Read BufferReader Unit :=
  let endCur := reader.endCursor (· == value)
  match endCur.iterator with
  | none => .incomplete
  | some _ =>
      let passed := reader.passed endCur
      (reader.moveTo endCur passed).released passed ()

/-- `readUnsigned` -/
def readUnsigned (reader : BufferReader) : Read BufferReader Nat :=
  if reader.readLeft < 2 then .incomplete
  else
    let endCur := reader.endCursor fun c => !c.isDigit
    if reader.cursor = endCur then .failed .programming reader
    else
      match endCur.iterator with
      | none => .incomplete
      | some _ =>
          let passed := reader.passed endCur
          (reader.moveTo endCur passed).released passed
            (Queue.number (passed.flatMap (Slice.chars reader.blocks)))

/-- The loop of `readBytes`, `expectBytes` and `skipBytes`: the slices that hold the next `len`
characters, and the cursor after them. -/
def advance (i offset len : Nat) : List DataBlock → Except Fault (List Slice × Cursor)
  | [] => if len = 0 then .ok ([], {}) else .error .undefined
  | block :: rest =>
      if len = 0 then .ok ([], { iterator := some i, offset := offset })
      else if len < block.data.length - offset then
        .ok ([{ block := i, offset := offset, size := len }],
          { iterator := some i, offset := offset + len })
      else
        match advance (i + 1) 0 (len - (block.data.length - offset)) rest with
        | .error fault => .error fault
        | .ok (slices, cursor) =>
            .ok ({ block := i, offset := offset, size := block.data.length - offset } :: slices,
              cursor)

def next (reader : BufferReader) (len : Nat) : Except Fault (List Slice × Cursor) :=
  match reader.cursor.iterator with
  | none => .error .undefined
  | some i => advance i reader.cursor.offset len (reader.blocks.drop i)

/-- `readBytes` -/
def readBytes (reader : BufferReader) (len : Nat) : Read BufferReader TokenData :=
  if len = 0 then .ok [] reader
  else if len > reader.readLeft then .incomplete
  else
    match reader.next len with
    | .error fault => .failed (.fault fault) reader
    | .ok (token, cursor) => .ok token (reader.moveTo cursor token)

/-- `strncmp(text, other, n) == 0` for texts of `n` characters: a NUL in both ends it. -/
def sameText : List Char → List Char → Bool
  | [], _ => true
  | _ :: _, [] => false
  | c :: text, d :: other => c = d && (c = Char.ofNat 0 || sameText text other)

/-- The comparisons of `expectBytes`, block by block: the slices that agree, and the first one that
does not.  `at` asserts that something is left of a block. -/
def agreeing (blocks : List DataBlock) :
    List Slice → List Char → Except Fault (List Slice × Option Slice)
  | [], _ => .ok ([], none)
  | slice :: slices, text =>
      if slice.size = 0 then .error .check
      else if sameText (slice.chars blocks) (text.take slice.size) then
        match agreeing blocks slices (text.drop slice.size) with
        | .error fault => .error fault
        | .ok (same, differs) => .ok (slice :: same, differs)
      else .ok ([], some slice)

/-- `expectBytes`.  After a mismatch the slices that agree have been passed, while the whole text
has been taken from what is left to read. -/
def expectBytes (reader : BufferReader) (text : List Char) : Read BufferReader Unit :=
  if text.length > reader.readLeft then .incomplete
  else
    match reader.next text.length with
    | .error fault => .failed (.fault fault) reader
    | .ok (slices, cursor) =>
        match agreeing reader.blocks slices text with
        | .error fault => .failed (.fault fault) reader
        | .ok (_, none) => (reader.moveTo cursor slices).released slices ()
        | .ok (same, some slice) =>
            match release reader.blocks same with
            | .error fault => .failed (.fault fault) reader
            | .ok blocks =>
                .failed .programming { reader with
                  blocks := blocks
                  readLeft := reader.readLeft - text.length
                  cursor := { iterator := some slice.block, offset := slice.offset } }

/-- `skipBytes` -/
def skipBytes (reader : BufferReader) (len : Nat) : Read BufferReader Unit :=
  if len > reader.readLeft then .incomplete
  else
    match reader.next len with
    | .error fault => .failed (.fault fault) reader
    | .ok (slices, cursor) => (reader.moveTo cursor slices).released slices ()

/-- `parseTokenData`: the characters of a token of `reserved` characters, `none` for `NULL`. -/
def parseTokenData (reader : BufferReader) (token : TokenData) (reserved : Nat) :
    Except Fault (Option (List Char)) :=
  if reserved = 0 then .ok none
  else
    match token with
    | [slice] =>
        if slice.size = reserved then .ok (some (slice.chars reader.blocks)) else .error .check
    | token =>
        -- the copy is given up at the first slice for which there is no room
        if reserved < total token then .ok none
        else if total token = reserved then
          .ok (some (token.flatMap (Slice.chars reader.blocks)))
        else .error .check

/-- `freeTokenData` -/
def freeTokenData (reader : BufferReader) (token : TokenData) : Except Fault BufferReader :=
  match release reader.blocks token with
  | .error fault => .error fault
  | .ok blocks => .ok { reader with blocks := blocks }

end BufferReader

end BespoKV.Memcached
