import BespoKV.LibCkv.Connection
import Mathlib.Data.List.Forall2

/-!
# Reading from sockets

`Link::msg_read` of the proxy and of a datalet and `recv_msg` of libckv read until the socket
is drained or the buffer is full.  A datalet and libckv keep one input buffer for all read
events: its front is moved by what has been parsed, and `nice` moves the contents back only
when the front has passed the middle.

Every link is non-blocking: `noblock_` is set by the constructor and never cleared.
-/

namespace BespoKV.Sockets

open Fallible
open Wire
open LibCkv (ReadResult dataOf fails recvMsg)

/-! ## Input buffers -/

/-- A buffer, as reading uses it: the bytes in use, the distance `data_ - buf` and `total_`. -/
structure InBuffer where
  content : Bytes
  start : Nat
  total : Nat
  deriving DecidableEq, Repr

namespace InBuffer

/-- `new String(INIT_BUF_SIZE)` -/
def new : InBuffer := ⟨[], 0, 8⟩

/-- One past the last byte in use, counted from `buf`. -/
def used (input : InBuffer) : Nat := input.start + input.content.length

/-- `avail`, and `space` of the class `Buffer` -/
def avail (input : InBuffer) : Nat := input.total - input.used

/-- `nice` -/
def nice (input : InBuffer) : InBuffer :=
  if input.total / 2 < input.start then { input with start := 0 } else input

/-- Bytes are stored at `curr()`, and `incr`. -/
def incr (input : InBuffer) (bytes : Bytes) : InBuffer :=
  { input with content := input.content ++ bytes }

/-- `discard` -/
def discard (input : InBuffer) (num : Nat) : InBuffer :=
  { input with content := input.content.drop num, start := input.start + num }

/-- The buffer before the loop around `read`: it grows when it has its first size. -/
def prepare (initial : Nat) (input : InBuffer) : InBuffer :=
  nice (if input.total = initial then { input with total := Str.nextTotal input.total } else input)

/-- The buffer stands for a `String`, whose memory it leaves out. -/
structure Represents (input : InBuffer) (str : Str) : Prop where
  valid : str.Valid
  content : str.contents = input.content
  start : str.data = input.start
  total : str.total = input.total

namespace Represents

variable {input : InBuffer} {str : Str}

theorem avail (represents : input.Represents str) : str.avail = input.avail := by
  have length := represents.valid.contents_length
  have within := represents.valid.within
  have start := represents.start
  have total := represents.total
  rw [represents.content] at length
  rw [represents.valid.avail_eq, InBuffer.avail, used]
  omega

theorem nice (represents : input.Represents str) :
    ∃ after, str.nice = .ok after ∧ input.nice.Represents after := by
  have start := represents.start
  have total := represents.total
  have half : str.total.tdiv 2 = str.total / 2 :=
    Int.tdiv_eq_ediv_of_nonneg (Int.le_of_lt represents.valid.positive)
  obtain ⟨after, moved, valid, contents, size, same, front⟩ := represents.valid.exists_nice
  refine ⟨after, moved, ?_⟩
  by_cases behind : input.total / 2 < input.start
  · rw [if_pos (by omega)] at front
    rw [InBuffer.nice, if_pos behind]
    exact ⟨valid, contents.trans represents.content, front, same.trans total⟩
  · rw [if_neg (by omega)] at front
    rw [InBuffer.nice, if_neg behind]
    exact ⟨valid, contents.trans represents.content, front.trans start, same.trans total⟩

theorem push (represents : input.Represents str) {bytes : Bytes}
    (room : bytes.length ≤ input.avail) :
    ∃ after, str.push bytes = .ok after ∧ (input.incr bytes).Represents after := by
  have fits : (bytes.length : Int) ≤ str.avail := by
    rw [represents.avail]
    omega
  obtain ⟨after, pushed, valid, contents, data, -, total⟩ := represents.valid.exists_push fits
  refine ⟨after, pushed, valid, ?_, data.trans represents.start, total.trans represents.total⟩
  rw [contents, represents.content]
  rfl

theorem discard (represents : input.Represents str) {num : Nat}
    (most : num ≤ input.content.length) : (input.discard num).Represents (str.discard num) := by
  have length := represents.valid.contents_length
  rw [represents.content] at length
  obtain ⟨valid, contents⟩ := represents.valid.discard (n := num) (by omega)
  refine ⟨valid, contents.trans (congrArg (List.drop num) represents.content), ?_,
    represents.total⟩
  have start := represents.start
  simp only [Str.discard, InBuffer.discard]
  omega

theorem grow (represents : input.Represents str) (fill : Int → UInt8) :
    { input with total := Str.nextTotal input.total }.Represents (str.grow (some fill)).2 := by
  obtain ⟨failed, why⟩ | ⟨grown, succeeded, grew, total, small, -⟩ :=
    represents.valid.grow_cases (some fill)
  · have large : 2 ^ 30 ≤ str.total := why.resolve_left (Option.some_ne_none fill)
    have overflows := Str.growth_neg large represents.valid.int
    rw [represents.total] at overflows
    rw [failed, Str.nextTotal, if_pos overflows]
    exact represents
  · obtain ⟨larger, -⟩ := Str.growth_of_lt represents.valid.positive small
    have positive := represents.valid.positive
    rw [represents.total] at total larger positive
    rw [succeeded]
    refine ⟨grew.valid, grew.contents.trans represents.content,
      grew.data.trans represents.start, ?_⟩
    rw [total, Str.nextTotal, if_neg (by omega), Int.toNat_of_nonneg (by omega)]

/-- One read event on the memory of a `String`: the buffer is prepared, bytes for which there is
room are stored, and some of them are discarded. -/
theorem event {initial num : Nat} {bytes : Bytes} (represents : input.Represents str)
    (fill : Int → UInt8) (room : bytes.length ≤ (input.prepare initial).avail)
    (most : num ≤ ((input.prepare initial).incr bytes).content.length) :
    ∃ prepared filled,
      (if str.total = initial then (str.grow (some fill)).2 else str).nice = .ok prepared ∧
      prepared.push bytes = .ok filled ∧
      (((input.prepare initial).incr bytes).discard num).Represents (filled.discard num) := by
  have grown : (if input.total = initial then
      { input with total := Str.nextTotal input.total } else input).Represents
        (if str.total = initial then (str.grow (some fill)).2 else str) := by
    rw [represents.total]
    simp only [Int.natCast_inj]
    split
    · exact represents.grow fill
    · exact represents
  obtain ⟨prepared, moved, ready⟩ := grown.nice
  obtain ⟨filled, pushed, full⟩ := ready.push room
  exact ⟨prepared, filled, moved, pushed, full.discard most⟩

end Represents

end InBuffer

/-! ## The loop around `read` -/

/-- Why the loop ends. -/
inductive ReadEnd where
  /-- the socket has no data, or the buffer is full -/
  | drained
  | error
  | endOfStream
  deriving DecidableEq, Repr

/-- The end of the loop: the number of bytes read, the buffer, and what further calls of `read`
will return. -/
structure Read where
  stopped : ReadEnd
  ret : Nat
  input : InBuffer
  pending : List ReadResult
  deriving DecidableEq, Repr

/-- The return value of `msg_read` of a datalet and of `recv_msg`. -/
def Read.len (read : Read) : Int :=
  match read.stopped with
  | .drained => read.ret
  | .error => -1
  | .endOfStream => 0

/-- The loop around `read`, which returns no more bytes than there is room for. -/
def readLoop : List ReadResult → Nat → InBuffer → Read
  | [], ret, input => ⟨.drained, ret, input, []⟩
  | result :: reads, ret, input =>
      let wanted := input.avail
      if wanted = 0 then ⟨.drained, ret, input, result :: reads⟩
      else
        match result with
        | .interrupted => readLoop reads ret input
        | .wouldBlock => ⟨.drained, ret, input, reads⟩
        | .error => ⟨.error, ret, input, reads⟩
        | .endOfStream => ⟨.endOfStream, ret, input, reads⟩
        | .data bytes =>
            if bytes.length ≤ wanted then readLoop reads (ret + bytes.length) (input.incr bytes)
            else ⟨.drained, ret + wanted, input.incr (bytes.take wanted),
              .data (bytes.drop wanted) :: reads⟩

/-- The results of `read` that one call with room for `wanted` bytes gets. -/
def window : Nat → List ReadResult → List ReadResult
  | _, [] => []
  | wanted, result :: reads =>
      if wanted = 0 then []
      else
        match result with
        | .interrupted => .interrupted :: window wanted reads
        | .data bytes =>
            if bytes.length ≤ wanted then .data bytes :: window (wanted - bytes.length) reads
            else [.data (bytes.take wanted)]
        | .wouldBlock => [.wouldBlock]
        | .error => [.error]
        | .endOfStream => [.endOfStream]

/-- The results of `read` that such a call leaves to the next ones. -/
def beyond : Nat → List ReadResult → List ReadResult
  | _, [] => []
  | wanted, result :: reads =>
      if wanted = 0 then result :: reads
      else
        match result with
        | .interrupted => beyond wanted reads
        | .data bytes =>
            if bytes.length ≤ wanted then beyond (wanted - bytes.length) reads
            else .data (bytes.drop wanted) :: reads
        | .wouldBlock => reads
        | .error => reads
        | .endOfStream => reads

/-- How a call ends that gets these results. -/
def endOf : List ReadResult → ReadEnd
  | .data _ :: reads => endOf reads
  | .interrupted :: reads => endOf reads
  | .error :: _ => .error
  | .endOfStream :: _ => .endOfStream
  | _ => .drained

/-- The data a socket delivers before the end of the stream or an error. -/
def streamOf : List ReadResult → Bytes
  | .data bytes :: reads => bytes ++ streamOf reads
  | .interrupted :: reads => streamOf reads
  | .wouldBlock :: reads => streamOf reads
  | _ => []

theorem avail_incr (input : InBuffer) (bytes : Bytes) :
    (input.incr bytes).avail = input.avail - bytes.length := by
  simp [InBuffer.avail, InBuffer.incr, InBuffer.used, Nat.sub_sub, Nat.add_assoc]

theorem incr_incr (input : InBuffer) (bytes more : Bytes) :
    (input.incr bytes).incr more = input.incr (bytes ++ more) := by
  simp [InBuffer.incr]

@[simp] theorem incr_nil (input : InBuffer) : input.incr [] = input := by
  simp [InBuffer.incr]

/-- The loop stores the data of the results it gets. -/
theorem readLoop_eq (reads : List ReadResult) (ret : Nat) (input : InBuffer) :
    readLoop reads ret input = {
      stopped := endOf (window input.avail reads)
      ret := ret + (dataOf (window input.avail reads)).length
      input := input.incr (dataOf (window input.avail reads))
      pending := beyond input.avail reads } := by
  induction reads generalizing ret input with
  | nil => simp [readLoop, window, beyond, endOf, dataOf]
  | cons result reads ih =>
      rw [readLoop.eq_def, window.eq_def, beyond.eq_def]
      dsimp only
      by_cases full : input.avail = 0
      · simp [full, endOf, dataOf]
      rw [if_neg full, if_neg full, if_neg full]
      cases result with
      | interrupted => exact ih ret input
      | wouldBlock | error | endOfStream => simp [endOf, dataOf]
      | data bytes =>
          dsimp only
          by_cases fits : bytes.length ≤ input.avail
          · rw [if_pos fits, if_pos fits, if_pos fits, ih, avail_incr, incr_incr]
            simp [endOf, dataOf, Nat.add_assoc]
          · rw [if_neg fits, if_neg fits, if_neg fits]
            have cut : min input.avail bytes.length = input.avail := by omega
            simp [endOf, dataOf, cut]

theorem endOf_eq_drained {reads : List ReadResult} :
    endOf reads = .drained ↔ fails reads = false := by
  induction reads with
  | nil => simp [endOf, fails]
  | cons result reads ih =>
      cases result with
      | data | interrupted => exact ih
      | wouldBlock | error | endOfStream => simp [endOf, fails]

private theorem recvMsg_ret_eq (reads : List ReadResult) (ret : Nat) (content : Bytes) :
    (recvMsg reads ret content).1 =
      Read.len ⟨endOf reads, ret + (dataOf reads).length, .new, []⟩ := by
  induction reads generalizing ret content with
  | nil => rfl
  | cons result reads ih =>
      cases result with
      | data bytes =>
          have added : ((ret : Int) + bytes.length) = (ret + bytes.length : Nat) := by simp
          rw [recvMsg, added, ih, endOf, dataOf, List.length_append, Nat.add_assoc]
      | interrupted => exact ih ret content
      | wouldBlock | error | endOfStream => rfl

/-- The loop does what `recvMsg` does with the results it gets. -/
theorem readLoop_eq_recvMsg (reads : List ReadResult) (ret : Nat) (input : InBuffer) :
    ((readLoop reads ret input).len, (readLoop reads ret input).input.content) =
      recvMsg (window input.avail reads) ret input.content := by
  rw [readLoop_eq]
  refine Prod.ext ?_ ?_
  · rw [recvMsg_ret_eq]
    rfl
  · rw [LibCkv.recvMsg_input]
    rfl

/-- What a call reads and what it leaves make up the stream. -/
theorem streamOf_eq {reads : List ReadResult} {wanted : Nat}
    (succeeds : fails (window wanted reads) = false) :
    dataOf (window wanted reads) ++ streamOf (beyond wanted reads) = streamOf reads := by
  induction reads generalizing wanted with
  | nil => simp [window, beyond, dataOf, streamOf]
  | cons result reads ih =>
      rw [window.eq_def] at succeeds ⊢
      rw [beyond.eq_def]
      dsimp only at succeeds ⊢
      by_cases full : wanted = 0
      · simp [full, dataOf]
      rw [if_neg full] at succeeds ⊢
      rw [if_neg full]
      cases result with
      | interrupted => exact ih succeeds
      | wouldBlock => simp [dataOf, streamOf]
      | error | endOfStream => cases succeeds
      | data bytes =>
          dsimp only at succeeds ⊢
          by_cases fits : bytes.length ≤ wanted
          · rw [if_pos fits] at succeeds ⊢
            rw [if_pos fits]
            simp only [dataOf, streamOf, List.append_assoc]
            rw [ih succeeds]
          · rw [if_neg fits, if_neg fits]
            simp only [dataOf, streamOf, List.append_nil]
            rw [← List.append_assoc, List.take_append_drop]

/-- A call that fails has read everything before the failure. -/
theorem streamOf_of_fails {reads : List ReadResult} {wanted : Nat}
    (failed : fails (window wanted reads) = true) :
    dataOf (window wanted reads) = streamOf reads := by
  induction reads generalizing wanted with
  | nil => cases failed
  | cons result reads ih =>
      rw [window.eq_def] at failed ⊢
      dsimp only at failed ⊢
      by_cases full : wanted = 0
      · rw [if_pos full] at failed
        cases failed
      rw [if_neg full] at failed ⊢
      cases result with
      | interrupted => exact ih failed
      | wouldBlock => cases failed
      | error | endOfStream => rfl
      | data bytes =>
          dsimp only at failed ⊢
          by_cases fits : bytes.length ≤ wanted
          · rw [if_pos fits] at failed ⊢
            simp only [dataOf, streamOf]
            rw [ih failed]
          · rw [if_neg fits] at failed
            cases failed

/-! ## The proxy -/

/-- `Link::msg_read` of the proxy: the buffer, unless it returns `NULL`, and what is left on the
socket.  Each call makes a buffer of its own. -/
def msgRead (reads : List ReadResult) : Option Bytes × List ReadResult :=
  let read := readLoop reads 0 (InBuffer.new.prepare 8)
  match read.stopped with
  | .drained => (some read.input.content, read.pending)
  | .error => (none, read.pending)
  | .endOfStream => (none, read.pending)

/-- The room a buffer of the proxy has. -/
def room : Nat := 8192

theorem msgRead_eq (reads : List ReadResult) :
    msgRead reads =
      (if fails (window room reads) then none else some (dataOf (window room reads)),
        beyond room reads) := by
  have avail : (InBuffer.new.prepare 8).avail = room := rfl
  unfold msgRead
  rw [readLoop_eq, avail]
  cases failed : fails (window room reads) with
  | false =>
      rw [endOf_eq_drained.mpr failed]
      rfl
  | true =>
      have stopped : endOf (window room reads) ≠ .drained := by
        rw [ne_eq, endOf_eq_drained, failed]
        decide
      dsimp only
      split
      next drained => exact absurd drained stopped
      · rfl
      · rfl

/-- The receiving side of a link of the proxy: what `read` will return, the buffers that
`msg_read` has handed to the handler, and whether the link has been dropped. -/
structure Incoming where
  pending : List ReadResult
  handed : List Bytes := []
  closed : Bool := false
  deriving DecidableEq, Repr

namespace Incoming

/-- The handler is called and reads. -/
def step (incoming : Incoming) (_ : Unit) : Except BespoKV.Fault Incoming :=
  if incoming.closed then .error .disabled
  else
    match msgRead incoming.pending with
    | (some msg, pending) => .ok { incoming with pending, handed := incoming.handed ++ [msg] }
    | (none, pending) => .ok { incoming with pending, closed := true }

/-- The data the handler has still to get. -/
def left (incoming : Incoming) : Bytes :=
  if incoming.closed then [] else streamOf incoming.pending

/-- A call that meets the end of the stream or an error has not read data before. -/
def Clean (incoming : Incoming) (_ : Unit) : Prop :=
  fails (window room incoming.pending) = true → dataOf (window room incoming.pending) = []

instance (incoming : Incoming) : DecidablePred incoming.Clean :=
  fun _ => inferInstanceAs (Decidable (_ → _))

variable {incoming next : Incoming}

theorem step_stream (clean : incoming.Clean ()) (moved : incoming.step () = .ok next) :
    next.handed.flatten ++ next.left = incoming.handed.flatten ++ incoming.left := by
  unfold step at moved
  split at moved
  · cases moved
  next opened =>
    have left : incoming.left = streamOf incoming.pending := if_neg opened
    rw [msgRead_eq] at moved
    rw [left]
    cases failed : fails (window room incoming.pending) with
    | false =>
        rw [failed] at moved
        obtain rfl := Except.ok.inj moved
        have more : Incoming.left ⟨beyond room incoming.pending,
            incoming.handed ++ [dataOf (window room incoming.pending)], incoming.closed⟩ =
              streamOf (beyond room incoming.pending) := if_neg opened
        change (incoming.handed ++ [_]).flatten ++ Incoming.left ⟨_, _, _⟩ = _
        rw [more, List.flatten_append, List.append_assoc, List.flatten_singleton,
          streamOf_eq failed]
    | true =>
        rw [failed] at moved
        obtain rfl := Except.ok.inj moved
        have nothing := streamOf_of_fails failed
        rw [clean failed] at nothing
        rw [← nothing]
        rfl

end Incoming

/-! ## Datalets and libckv -/

/-- `Link::msg_parse` and the beginning of `handle_request`, which copies the type name and the
payload: one request is taken, whatever the buffer holds. -/
def takeRequest (input : InBuffer) : Except Wire.Fault ((Bytes × Bytes) × InBuffer) := do
  let (readBuf, parsed) ← Datalet.msgParse input.content
  let msg ← readBuf.mapM fun region => bytes input.content region.offset region.length
  match msg with
  | [type, payload] => return ((type, payload), input.discard parsed)
  | _ => .error .check

/-- `process` of a datalet on one read event: the request it takes, or `none` where it closes
the connection. -/
def process (input : InBuffer) (reads : List ReadResult) :
    Except Wire.Fault (Option (Bytes × Bytes) × InBuffer) := do
  let read := readLoop reads 0 (input.prepare 8)
  if read.len ≤ 0 then return (none, read.input)
  else
    let (request, input) ← takeRequest read.input
    return (some request, input)

/-- `recv_msg` and `parse_resp` of libckv on one read event, or `none` where the connection is
marked dead. -/
def receiveReply (proto : Protobuf) (input : InBuffer) (reads : List ReadResult) :
    Except Wire.Fault (Option Client.Outcome × InBuffer) := do
  let read := readLoop reads 0 (input.prepare 16)
  if read.len = -1 ∨ read.len = 0 then return (none, read.input)
  else
    let outcome ← Client.parseResp proto read.input.content
    let parsed := read.input.content.length - outcome.rest.length
    return (some outcome, read.input.discard parsed)

/-- Read events one after the other, each with the results its calls of `read` get. -/
def events {α : Type}
    (receive : InBuffer → List ReadResult → Except Wire.Fault (Option α × InBuffer)) :
    InBuffer → List (List ReadResult) → Except Wire.Fault (List (Option α) × InBuffer)
  | input, [] => return ([], input)
  | input, reads :: later => do
      let (result, input) ← receive input reads
      let (results, input) ← events receive input later
      return (result :: results, input)

section Frames

variable {input : InBuffer} {reads : List ReadResult} {type data : Bytes} {proto : Protobuf}

@[simp] theorem prepare_content (initial : Nat) (input : InBuffer) :
    (input.prepare initial).content = input.content := by
  unfold InBuffer.prepare InBuffer.nice
  split <;> split <;> rfl

theorem takeRequest_frame (wellFormed : WellFormed type data)
    (holds : input.content = frame type data) :
    takeRequest input =
      .ok ((type, data), input.discard (28 + type.length + data.length)) := by
  rw [← List.append_nil (frame type data)] at holds
  simp only [takeRequest, holds, Datalet.msgParse_frame wellFormed, ok_bind, List.mapM_cons,
    List.mapM_nil, bytes_type, bytes_data, pure_bind]
  rfl

theorem discard_frame (holds : input.content = frame type data) :
    (input.discard (28 + type.length + data.length)).content = [] := by
  rw [InBuffer.discard, holds, ← frame_length, List.drop_length]

/-- What a call gets of results without a failure, if it has room for their data. -/
theorem window_whole {wanted : Nat} (fits : (dataOf reads).length ≤ wanted)
    (succeeds : fails reads = false) :
    dataOf (window wanted reads) = dataOf reads ∧ fails (window wanted reads) = false := by
  induction reads generalizing wanted with
  | nil => exact ⟨rfl, rfl⟩
  | cons result reads ih =>
      rw [window.eq_def]
      dsimp only
      by_cases full : wanted = 0
      · have empty : dataOf (result :: reads) = [] := by
          rw [← List.length_eq_zero_iff]
          omega
        rw [if_pos full, empty]
        exact ⟨rfl, rfl⟩
      rw [if_neg full]
      cases result with
      | interrupted => exact ih fits succeeds
      | wouldBlock => exact ⟨rfl, rfl⟩
      | error | endOfStream => cases succeeds
      | data bytes =>
          rw [dataOf, List.length_append] at fits
          dsimp only
          rw [if_pos (by omega)]
          have room : (dataOf reads).length ≤ wanted - bytes.length := by omega
          obtain ⟨data, fails⟩ := ih room succeeds
          exact ⟨congrArg (bytes ++ ·) data, fails⟩

/-- A read event that brings one frame, with room for it. -/
theorem process_frame (wellFormed : WellFormed type data) (empty : input.content = [])
    (succeeds : fails (window (input.prepare 8).avail reads) = false)
    (brings : dataOf (window (input.prepare 8).avail reads) = frame type data) :
    ∃ after, process input reads = .ok (some (type, data), after) ∧ after.content = [] ∧
      after.start = (input.prepare 8).start + (frame type data).length ∧
      after.total = (input.prepare 8).total := by
  have holds : ((input.prepare 8).incr (frame type data)).content = frame type data := by
    rw [InBuffer.incr, prepare_content, empty, List.nil_append]
  have positive : ¬((frame type data).length : Int) ≤ 0 := by
    rw [frame_length]
    omega
  refine ⟨((input.prepare 8).incr (frame type data)).discard
    (28 + type.length + data.length), ?_, discard_frame holds, ?_, rfl⟩
  · simp only [process, readLoop_eq, brings, endOf_eq_drained.mpr succeeds, Read.len,
      Nat.zero_add, if_neg positive, takeRequest_frame wellFormed holds, ok_bind]
    rfl
  · rw [frame_length]
    rfl

/-- A read event that meets the end of the stream or an error closes the connection. -/
theorem process_fails (failed : fails (window (input.prepare 8).avail reads) = true) :
    process input reads =
      .ok (none, (input.prepare 8).incr (dataOf (window (input.prepare 8).avail reads))) := by
  have stopped : endOf (window (input.prepare 8).avail reads) ≠ .drained := by
    rw [ne_eq, endOf_eq_drained, failed]
    decide
  simp only [process, readLoop_eq, Read.len]
  cases ended : endOf (window (input.prepare 8).avail reads) with
  | drained => exact absurd ended stopped
  | error | endOfStream => rfl

end Frames

/-! ## Whole streams -/

/-- A connection of a datalet: its input buffer, what `read` will return, the type names and
payloads of the requests it has handled, and whether it has been closed. -/
structure Serving where
  input : InBuffer := .new
  pending : List ReadResult
  handled : List (Bytes × Bytes) := []
  closed : Bool := false
  deriving DecidableEq, Repr

namespace Serving

/-- The loop calls `process`. -/
def step (serving : Serving) (_ : Unit) : Except Wire.Fault Serving :=
  if serving.closed then .ok serving
  else
    let pending := (readLoop serving.pending 0 (serving.input.prepare 8)).pending
    match process serving.input serving.pending with
    | .error fault => .error fault
    | .ok (none, input) => .ok { serving with input, pending, closed := true }
    | .ok (some request, input) => .ok { serving with
        input, pending, handled := serving.handled ++ [request] }

/-- The frames that have been handled, as bytes. -/
def bytes (serving : Serving) : Bytes :=
  (serving.handled.map fun (type, payload) => frame type payload).flatten

/-- The data the datalet has still to get. -/
def left (serving : Serving) : Bytes :=
  if serving.closed then [] else streamOf serving.pending

/-- The results that the next call gets. -/
def upcoming (serving : Serving) : List ReadResult :=
  window (serving.input.prepare 8).avail serving.pending

/-- A read event brings one whole frame, or the end of the stream or an error and no data. -/
def OneFrame (serving : Serving) (_ : Unit) : Prop :=
  (fails serving.upcoming = true ∧ dataOf serving.upcoming = []) ∨
    fails serving.upcoming = false ∧ ∃ type payload, WellFormed type payload ∧
      dataOf serving.upcoming = frame type payload

variable {serving next : Serving}

theorem step_stream (empty : serving.input.content = []) (admitted : serving.OneFrame ())
    (moved : serving.step () = .ok next) :
    next.input.content = [] ∧ next.bytes ++ next.left = serving.bytes ++ serving.left := by
  unfold step at moved
  split at moved
  · cases moved
    exact ⟨empty, rfl⟩
  next opened =>
    have left : serving.left = streamOf serving.pending := if_neg opened
    rw [readLoop_eq] at moved
    rcases admitted with ⟨failed, nothing⟩ | ⟨succeeds, type, payload, wellFormed, brings⟩
    · rw [process_fails failed] at moved
      obtain rfl := Except.ok.inj moved
      refine ⟨?_, ?_⟩
      · change (InBuffer.incr _ (dataOf serving.upcoming)).content = []
        rw [nothing, incr_nil, prepare_content, empty]
      · have ended := streamOf_of_fails failed
        change dataOf serving.upcoming = _ at ended
        rw [left, ← ended, nothing]
        rfl
    · obtain ⟨after, processed, emptied, -⟩ := process_frame wellFormed empty succeeds brings
      rw [processed] at moved
      obtain rfl := Except.ok.inj moved
      refine ⟨emptied, ?_⟩
      have more : Serving.left ⟨after, beyond (serving.input.prepare 8).avail serving.pending,
          serving.handled ++ [(type, payload)], serving.closed⟩ =
            streamOf (beyond (serving.input.prepare 8).avail serving.pending) := if_neg opened
      have whole := streamOf_eq succeeds
      change dataOf serving.upcoming ++ _ = _ at whole
      rw [brings] at whole
      change Serving.bytes ⟨_, _, serving.handled ++ [(type, payload)], _⟩ ++ Serving.left _ = _
      rw [more, left, bytes, bytes, List.map_append, List.flatten_append, List.append_assoc,
        ← whole]
      simp

/-- An admitted call of `process` does not fail. -/
theorem exists_step (empty : serving.input.content = []) (admitted : serving.OneFrame ()) :
    ∃ next, serving.step () = .ok next := by
  by_cases closed : serving.closed = true
  · exact ⟨serving, if_pos closed⟩
  rcases admitted with ⟨failed, -⟩ | ⟨succeeds, type, payload, wellFormed, brings⟩
  · exact ⟨_, by rw [step, if_neg closed, process_fails failed]⟩
  · obtain ⟨after, processed, -⟩ := process_frame wellFormed empty succeeds brings
    exact ⟨_, by rw [step, if_neg closed, processed]⟩

end Serving

/-- Where the end of a stream or an error does not meet data in one call of `msg_read`, and a
datalet gets one frame with each read event, all data is handed over. -/
theorem streams_are_delivered (reads : List ReadResult) :
    (∀ incoming, Transition.Runs Incoming.step Incoming.Clean { pending := reads } incoming →
      incoming.handed.flatten ++ incoming.left = streamOf reads) ∧
    ∀ serving, Transition.Runs Serving.step Serving.OneFrame { pending := reads } serving →
      serving.bytes ++ serving.left = streamOf reads ∧
        (serving.OneFrame () → ∃ next, serving.step () = .ok next) := by
  refine ⟨fun incoming run => ?_, fun serving run => ?_⟩
  · apply run.invariant fun incoming =>
      incoming.handed.flatten ++ incoming.left = streamOf reads
    · intro incoming _ next holds clean moved
      exact (Incoming.step_stream clean moved).trans holds
    · rfl
  · have holds : serving.input.content = [] ∧ serving.bytes ++ serving.left = streamOf reads := by
      apply run.invariant fun serving =>
        serving.input.content = [] ∧ serving.bytes ++ serving.left = streamOf reads
      · intro serving _ next holds admitted moved
        obtain ⟨empty, stream⟩ := Serving.step_stream holds.1 admitted moved
        exact ⟨empty, stream.trans holds.2⟩
      · exact ⟨rfl, rfl⟩
    exact ⟨holds.2, Serving.exists_step holds.1⟩

/-- A frame for samples. -/
def sampleFrame : Bytes := frame [7] [9]

/-- A frame, and the end of the stream with the next read event. -/
def sampleReads : List ReadResult := [.data sampleFrame, .wouldBlock, .endOfStream]

theorem streams_are_delivered_sample : ∃ (incoming : Incoming) (serving : Serving),
    incoming.closed = true ∧ incoming.handed.flatten = sampleFrame ∧
      serving.closed = true ∧ serving.bytes = sampleFrame := by
  obtain ⟨incoming, read, post⟩ := Transition.Runs.exists_of_exec Incoming.step Incoming.Clean
    { pending := sampleReads } [(), ()] (fun incoming => incoming.closed) (by decide +kernel)
  have first : Serving.OneFrame { pending := sampleReads } () :=
    .inr ⟨by decide +kernel, [7], [9], ⟨by decide, by decide⟩, by decide +kernel⟩
  have second : Serving.OneFrame ⟨⟨[], 30, 8192⟩, [.endOfStream], [([7], [9])], false⟩ () :=
    .inl ⟨by decide +kernel, by decide +kernel⟩
  have run : Transition.Runs Serving.step Serving.OneFrame { pending := sampleReads }
      ⟨⟨[], 30, 8192⟩, [], [([7], [9])], true⟩ :=
    (Transition.Runs.single first (by decide +kernel)).tail second (by decide +kernel)
  have delivered := (streams_are_delivered sampleReads).1 incoming read
  have processed := ((streams_are_delivered sampleReads).2 _ run).1
  refine ⟨incoming, ⟨⟨[], 30, 8192⟩, [], [([7], [9])], true⟩, post, ?_, rfl, ?_⟩
  · have nothing : incoming.left = [] := if_pos post
    rw [nothing, List.append_nil] at delivered
    exact delivered
  · rw [Serving.left, if_pos rfl, List.append_nil] at processed
    exact processed

/-- A frame and the end of the stream in one call: the proxy and the datalet drop the frame.
Two frames in one call: the datalet handles only the first. -/
theorem end_of_stream_drops_data : ∃ (incoming : Incoming) (dropped waiting : Serving),
    Transition.Runs Incoming.step (fun _ _ => True)
        { pending := [.data sampleFrame, .endOfStream] } incoming ∧
      incoming.closed = true ∧ incoming.handed = [] ∧
    Transition.Runs Serving.step (fun _ _ => True)
        { pending := [.data sampleFrame, .endOfStream] } dropped ∧
      dropped.closed = true ∧ dropped.handled = [] ∧
    Transition.Runs Serving.step (fun _ _ => True)
        { pending := [.data (sampleFrame ++ sampleFrame), .wouldBlock, .endOfStream] } waiting ∧
      waiting.closed = true ∧ waiting.handled = [([7], [9])] := by
  obtain ⟨incoming, read, post⟩ := Transition.Runs.exists_of_exec Incoming.step
    (fun _ _ => True) { pending := [.data sampleFrame, .endOfStream] } [()]
    (fun incoming => incoming.closed = true ∧ incoming.handed = []) (by decide +kernel)
  obtain ⟨dropped, dropping, gone⟩ := Transition.Runs.exists_of_exec Serving.step
    (fun _ _ => True) { pending := [.data sampleFrame, .endOfStream] } [()]
    (fun serving => serving.closed = true ∧ serving.handled = []) (by decide +kernel)
  obtain ⟨waiting, serving, half⟩ := Transition.Runs.exists_of_exec Serving.step
    (fun _ _ => True)
    { pending := [.data (sampleFrame ++ sampleFrame), .wouldBlock, .endOfStream] } [(), ()]
    (fun serving => serving.closed = true ∧ serving.handled = [([7], [9])]) (by decide +kernel)
  simp only [decide_eq_true_eq] at post gone half
  exact ⟨incoming, dropped, waiting, read, post.1, post.2, dropping, gone.1, gone.2, serving,
    half.1, half.2⟩

/-! ## Frames in read events of their own -/

section History

variable {input : InBuffer} {reads : List ReadResult} {type data : Bytes} {proto : Protobuf}
variable {initial : Nat}

/-- An input buffer between read events: it holds nothing, and it has its first size or has
grown once. -/
structure Settled (initial : Nat) (input : InBuffer) : Prop where
  empty : input.content = []
  size : input.total = initial ∧ input.start = 0 ∨ input.total = 8192 ∧ input.start ≤ 8192

/-- The front is in the first half after `nice`, so that half of the buffer is free. -/
theorem Settled.prepare (settled : Settled initial input) (first : initial < 8192) :
    (input.prepare initial).total = 8192 ∧ (input.prepare initial).start ≤ 4096 ∧
      4096 ≤ (input.prepare initial).avail := by
  obtain ⟨content, start, total⟩ := input
  obtain ⟨empty, size⟩ := settled
  dsimp only at empty size
  subst empty
  rcases size with ⟨same, rfl⟩ | ⟨rfl, bounded⟩
  · have grown : Str.nextTotal initial = 8192 := Str.nextTotal_of_lt first
    simp [InBuffer.prepare, InBuffer.nice, same, grown, InBuffer.avail, InBuffer.used]
  · simp only [InBuffer.prepare, if_neg first.ne', InBuffer.nice]
    split
    · simp [InBuffer.avail, InBuffer.used]
    next front =>
      refine ⟨rfl, Nat.not_lt.mp front, ?_⟩
      change 4096 ≤ 8192 - (start + 0)
      omega

/-- The frame arrives whole, in any number of reads, and nothing else does. -/
def Arrives (reads : List ReadResult) (message : Bytes × Bytes) : Prop :=
  dataOf reads = frame message.1 message.2 ∧ fails reads = false

/-- A frame that always fits into the free half of a buffer. -/
def Fits (message : Bytes × Bytes) : Prop :=
  WellFormed message.1 message.2 ∧ (frame message.1 message.2).length ≤ 4096

/-- An event that brings a frame to a settled buffer decodes it and leaves the buffer settled. -/
def Decodes {α : Type} (initial : Nat)
    (receive : InBuffer → List ReadResult → Except Wire.Fault (Option α × InBuffer))
    (decoded : Bytes × Bytes → α) : Prop :=
  ∀ input reads message, Settled initial input → Fits message → Arrives reads message →
    ∃ after, receive input reads = .ok (some (decoded message), after) ∧ Settled initial after

/-- The run lemma: what holds for one event holds for any number of them. -/
theorem Decodes.events {α : Type}
    {receive : InBuffer → List ReadResult → Except Wire.Fault (Option α × InBuffer)}
    {decoded : Bytes × Bytes → α} (decodes : Decodes initial receive decoded)
    (settled : Settled initial input) {messages : List (Bytes × Bytes)}
    {arrivals : List (List ReadResult)} (fits : ∀ message ∈ messages, Fits message)
    (arrive : List.Forall₂ Arrives arrivals messages) :
    ∃ after, Sockets.events receive input arrivals =
        .ok (messages.map fun message => some (decoded message), after) ∧
      Settled initial after := by
  induction arrive generalizing input with
  | nil => exact ⟨input, rfl, settled⟩
  | @cons reads message arrivals messages arrives _ ih =>
      obtain ⟨middle, received, again⟩ :=
        decodes input reads message settled (fits message List.mem_cons_self) arrives
      obtain ⟨after, rest, last⟩ := ih again fun other member =>
        fits other (List.mem_cons_of_mem message member)
      refine ⟨after, ?_, last⟩
      simp only [Sockets.events, received, rest, ok_bind]
      rfl

/-- What a read event finds in a settled buffer when a frame has arrived. -/
theorem Settled.window (settled : Settled initial input) (first : initial < 8192)
    {message : Bytes × Bytes} (fits : Fits message) (arrives : Arrives reads message) :
    dataOf (Sockets.window (input.prepare initial).avail reads) = frame message.1 message.2 ∧
      fails (Sockets.window (input.prepare initial).avail reads) = false := by
  have room := (settled.prepare first).2.2
  have whole : (dataOf reads).length ≤ (input.prepare initial).avail := by
    rw [arrives.1]
    exact fits.2.trans room
  rw [← arrives.1]
  exact window_whole whole arrives.2

theorem process_decodes : Decodes 8 process id := by
  intro input reads message settled fits arrives
  have first : 8 < 8192 := by decide
  obtain ⟨brings, succeeds⟩ := settled.window first fits arrives
  obtain ⟨total, start, -⟩ := settled.prepare first
  obtain ⟨after, processed, empty, moved, size⟩ :=
    process_frame fits.1 settled.empty succeeds brings
  have short := fits.2
  exact ⟨after, processed, empty, .inr ⟨size.trans total, by omega⟩⟩

/-- `parse_resp` on a buffer with one frame leaves nothing. -/
theorem parseResp_whole (wellFormed : WellFormed type data) :
    Client.parseResp proto (frame type data) = .ok (Client.results proto type data []) := by
  have parsed : Client.parseResp proto (frame type data ++ []) = _ :=
    Client.parseResp_frame wellFormed
  rwa [List.append_nil] at parsed

theorem results_rest (proto : Protobuf) (op reply rest : Bytes) :
    (Client.results proto op reply rest).rest = rest := by
  unfold Client.results
  dsimp only
  split_ifs <;> rfl

theorem receiveReply_decodes (proto : Protobuf) :
    Decodes 16 (receiveReply proto)
      fun message => Client.results proto message.1 message.2 [] := by
  intro input reads message settled fits arrives
  have first : 16 < 8192 := by decide
  obtain ⟨brings, succeeds⟩ := settled.window first fits arrives
  obtain ⟨total, start, -⟩ := settled.prepare first
  have short := fits.2
  have positive : ¬(((frame message.1 message.2).length : Int) = -1 ∨
      ((frame message.1 message.2).length : Int) = 0) := by
    rw [frame_length]
    omega
  have holds : ((input.prepare 16).incr (frame message.1 message.2)).content =
      frame message.1 message.2 := by
    rw [InBuffer.incr, prepare_content, settled.empty, List.nil_append]
  refine ⟨((input.prepare 16).incr (frame message.1 message.2)).discard
    (frame message.1 message.2).length, ?_, ?_, .inr ⟨total, ?_⟩⟩
  · simp only [receiveReply, readLoop_eq, brings, endOf_eq_drained.mpr succeeds, Read.len,
      Nat.zero_add, if_neg positive, holds, parseResp_whole fits.1, ok_bind, results_rest,
      List.length_nil, Nat.sub_zero]
    rfl
  · rw [InBuffer.discard, holds, List.drop_length]
  · change (input.prepare 16).start + _ ≤ 8192
    omega

/-- Whatever frames have been received before, a frame of at most 4096 bytes that arrives in a
read event of its own is decoded, by a datalet and, where it holds a reply, by libckv, and the
buffer is empty then. -/
theorem decoding_ignores_history (proto : Protobuf) :
    (∀ (messages : List (Bytes × Bytes)) (arrivals : List (List ReadResult)),
      (∀ message ∈ messages, Fits message) → List.Forall₂ Arrives arrivals messages →
      ∃ after, events process .new arrivals = .ok (messages.map some, after) ∧
        after.content = []) ∧
    ∀ (replies : List (Bytes × Reply)) (arrivals : List (List ReadResult)),
      (∀ reply ∈ replies, reply.1 ∈ [getMessage, putMessage] ∧
        Fits (reply.1, proto.reply reply.2)) →
      List.Forall₂ Arrives arrivals (replies.map fun reply => (reply.1, proto.reply reply.2)) →
      ∃ outcomes after, events (receiveReply proto) ⟨[], 0, 16⟩ arrivals =
          .ok (outcomes.map some, after) ∧ after.content = [] ∧
        List.Forall₂ (fun outcome reply => Client.Decoded reply.1 reply.2 [] outcome)
          outcomes replies := by
  refine ⟨fun messages arrivals fits arrive => ?_, fun replies arrivals fits arrive => ?_⟩
  · obtain ⟨after, received, settled⟩ := process_decodes.events
      (⟨rfl, .inl ⟨rfl, rfl⟩⟩ : Settled 8 .new) fits arrive
    exact ⟨after, received, settled.empty⟩
  · obtain ⟨after, received, settled⟩ := (receiveReply_decodes proto).events
      (⟨rfl, .inl ⟨rfl, rfl⟩⟩ : Settled 16 ⟨[], 0, 16⟩)
      (List.forall_mem_map.mpr fun reply member => (fits reply member).2) arrive
    refine ⟨replies.map fun reply => Client.results proto reply.1 (proto.reply reply.2) [],
      after, ?_, settled.empty, ?_⟩
    · rw [received, List.map_map, List.map_map]
      rfl
    · rw [List.forall₂_map_left_iff, List.forall₂_same]
      exact fun reply member => Client.results_reply reply.2 (fits reply member).1

end History

/-- The reply to a `get`, as a frame. -/
def sampleReply : Bytes := frame getMessage (Protobuf.tagged.reply ⟨0, some [9]⟩)

/-- Two frames, the second one in two reads after an interruption, at a datalet; and two
replies at libckv. -/
theorem decoding_ignores_history_sample :
    (∃ after, events process .new [[.data sampleFrame, .wouldBlock],
      [.interrupted, .data (sampleFrame.take 9), .data (sampleFrame.drop 9), .wouldBlock]] =
        .ok ([some ([7], [9]), some ([7], [9])], after) ∧ after.content = []) ∧
    ∃ first second after, events (receiveReply .tagged) ⟨[], 0, 16⟩
        [[.data sampleReply, .wouldBlock], [.data sampleReply, .wouldBlock]] =
          .ok ([some first, some second], after) ∧
      first.response = some ⟨0, some [9]⟩ ∧ second.retrievalResults = [[9]] := by
  obtain ⟨requests, replies⟩ := decoding_ignores_history Protobuf.tagged
  constructor
  · have fits : Fits ([7], [9]) := ⟨⟨by decide, by decide⟩, by decide⟩
    have both : ∀ message ∈ [([7], [9]), ([7], [9])], Fits message := by simp [fits]
    exact requests _ _ both (.cons ⟨by decide, rfl⟩ (.cons ⟨by decide, rfl⟩ .nil))
  · have fits : getMessage ∈ [getMessage, putMessage] ∧
        Fits (getMessage, Protobuf.tagged.reply ⟨0, some [9]⟩) :=
      ⟨by simp, ⟨by decide, by decide⟩, by decide⟩
    obtain ⟨outcomes, after, received, -, decoded⟩ :=
      replies [(getMessage, ⟨0, some [9]⟩), (getMessage, ⟨0, some [9]⟩)]
        [[.data sampleReply, .wouldBlock], [.data sampleReply, .wouldBlock]]
        (by simp only [List.forall_mem_cons]; exact ⟨fits, fits, by simp⟩)
        (.cons ⟨by decide, rfl⟩ (.cons ⟨by decide, rfl⟩ .nil))
    cases decoded with
    | @cons first _ _ _ one rest =>
        cases rest with
        | @cons second _ _ _ two none =>
            cases none
            exact ⟨first, second, after, received, one.response, two.retrievalResults⟩

end BespoKV.Sockets
