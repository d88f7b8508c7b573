import BespoKV.Library.Transition
import BespoKV.Wire.RoundTrip

/-!
# Replies on a connection of libckv

Calls of `Client::get` and `Client::set` with one key, one after the other on one
`Connection`, each followed by the call that destroys its result.  Sockets fail and are
opened again while the receive buffer `input` stays: neither `markDead` nor `reset` empties
it.  A read that fails after it has put a reply there therefore leaves this reply to the
next call.
-/

namespace BespoKV.LibCkv

open Wire

/-- `err_code_t` -/
inductive ErrCode where
  | ok
  | incompleteBuffer
  | invalidKey
  | programming
  | server
  | poll
  | pollTimeout
  | connPoll
  | recv
  | send
  deriving DecidableEq, Repr

/-! ## One connection -/

/-- `Connection` with the results its parser has collected. -/
structure Connection where
  alive : Bool := false
  input : Bytes := []
  writeBuf : Option Request := none
  retrievalResults : List Value := []
  messageResults : List Client.MessageResult := []
  deriving DecidableEq, Repr

namespace Connection

/-- `markDead`: the socket is closed. -/
def markDead (conn : Connection) : Connection := { conn with alive := false }

/-- `tryReconnect`, where a new connection can be opened or not. -/
def tryReconnect (conn : Connection) (connects : Bool) : Connection :=
  if conn.alive then conn else { conn with alive := connects }

/-- `reset` -/
def reset (conn : Connection) : Connection :=
  { conn with writeBuf := none, retrievalResults := [], messageResults := [] }

end Connection

/-- What `::read` returns. -/
inductive ReadResult where
  | data (bytes : Bytes)
  | interrupted
  | wouldBlock
  | error
  | endOfStream
  deriving DecidableEq, Repr

/-- The loop of `recv_msg`: its return value and the buffer.  The loop ends without a
further read when the buffer is full. -/
def recvMsg : List ReadResult → Int → Bytes → Int × Bytes
  | [], ret, input => (ret, input)
  | .interrupted :: reads, ret, input => recvMsg reads ret input
  | .wouldBlock :: _, ret, input => (ret, input)
  | .error :: _, _, input => (-1, input)
  | .endOfStream :: _, _, input => (0, input)
  | .data bytes :: reads, ret, input => recvMsg reads (ret + bytes.length) (input ++ bytes)

/-- The bytes that the loop takes off the socket. -/
def dataOf : List ReadResult → Bytes
  | .data bytes :: reads => bytes ++ dataOf reads
  | .interrupted :: reads => dataOf reads
  | _ => []

/-- The loop ends with an error or at the end of the stream. -/
def fails : List ReadResult → Bool
  | .data _ :: reads => fails reads
  | .interrupted :: reads => fails reads
  | .error :: _ => true
  | .endOfStream :: _ => true
  | _ => false

theorem recvMsg_input (reads : List ReadResult) (ret : Int) (input : Bytes) :
    (recvMsg reads ret input).2 = input ++ dataOf reads := by
  induction reads generalizing ret input with
  | nil => simp [recvMsg, dataOf]
  | cons result reads ih =>
      cases result with
      | data bytes => simp [recvMsg, dataOf, ih]
      | interrupted => simp [recvMsg, dataOf, ih]
      | wouldBlock | error | endOfStream => simp [recvMsg, dataOf]

theorem recvMsg_ret {reads : List ReadResult} (ret : Int) (input : Bytes)
    (succeeds : fails reads = false) :
    (recvMsg reads ret input).1 = ret + (dataOf reads).length := by
  induction reads generalizing ret input with
  | nil => simp [recvMsg, dataOf]
  | cons result reads ih =>
      cases result with
      | data bytes =>
          rw [recvMsg, ih _ _ succeeds, dataOf, List.length_append]
          push_cast
          ring
      | interrupted => exact ih ret input succeeds
      | wouldBlock => simp [recvMsg, dataOf]
      | error | endOfStream => cases succeeds

theorem recvMsg_fails {reads : List ReadResult} (ret : Int) (input : Bytes)
    (failed : fails reads = true) :
    (recvMsg reads ret input).1 = -1 ∨ (recvMsg reads ret input).1 = 0 := by
  induction reads generalizing ret input with
  | nil => cases failed
  | cons result reads ih =>
      cases result with
      | data bytes => exact ih _ _ failed
      | interrupted => exact ih ret input failed
      | wouldBlock => cases failed
      | error => exact .inl rfl
      | endOfStream => exact .inr rfl

/-! ## Calls -/

/-- `MC_MAX_KEY_LENGTH` -/
def maxKeyLength : Nat := 250

/-- `isValidKey` -/
def isValidKey (key : Key) : Bool :=
  decide (key.length ≤ maxKeyLength) && key.all fun byte => byte ∉ [32, 13, 10, 0]

/-- The key of a request. -/
def keyOf : Request → Key
  | .get key | .put key _ | .del key => key

/-- Where the client is: between calls, in the loop of `waitPoll` with the events it waits
for, or after a call, with or without an active connection. -/
inductive Phase where
  | idle
  | polling (out inn : Bool)
  | returned (active : Bool)
  deriving DecidableEq, Repr

/-- A call that returned `RET_OK`: the reply it decoded and the results it handed out. -/
structure Returned where
  call : Nat
  response : Option Reply
  retrievalResults : List Value
  messageResults : List Client.MessageResult
  deriving DecidableEq, Repr

/-- A client and its server: the calls the server has still to answer and the reply frames
on the socket, the requests of all calls, and what the calls returned. -/
structure World where
  conn : Connection := {}
  unanswered : List Nat := []
  socket : List Bytes := []
  calls : List Request := []
  phase : Phase := .idle
  returned : List Returned := []
  deriving DecidableEq, Repr

namespace World

/-- The call in progress. -/
def current (world : World) : Nat := world.calls.length - 1

/-- `markDeadConn` and `markDeadAll`: the socket is closed and the call returns an error. -/
def fail (world : World) (conn : Connection) : World :=
  { world with
    conn := conn.markDead, unanswered := [], socket := [], phase := .returned true }

end World

/-- What `send` does with a request. -/
inductive SendResult where
  | whole
  | partly
  | failed
  deriving DecidableEq, Repr

/-- What the environment can choose. -/
inductive Event where
  /-- a call with one key; a new socket can be opened or not -/
  | call (request : Request) (connects : Bool)
  /-- `poll` fails, times out or reports an error of the socket -/
  | broken
  /-- the socket is writable -/
  | writable (sent : SendResult)
  /-- the socket is readable: the reads of `recv_msg`, which take `frames` reply frames off
  the socket, and the value of the uninitialised `err` -/
  | readable (reads : List ReadResult) (frames : Nat) (uninit : ErrCode)
  /-- the server answers the oldest request -/
  | answer
  /-- the result of the call is destroyed -/
  | destroy
  deriving DecidableEq, Repr

namespace World

/-- The frame of the reply to a call. -/
def replyFrame (proto : Protobuf) (answers : Nat → Reply) (world : World) (call : Nat) :
    Bytes :=
  frame ((world.calls[call]?).elim [] getOpType) (proto.reply (answers call))

/-- `dispatchRetrieval` and `dispatchStorage` with one key, up to the loop of `waitPoll`. -/
def call (world : World) (request : Request) (connects : Bool) : World :=
  let begun := { world with calls := world.calls ++ [request] }
  if isValidKey (keyOf request) then
    let conn := world.conn.tryReconnect connects
    if conn.alive then
      { begun with conn := { conn with writeBuf := some request }, phase := .polling true false }
    else { begun with conn, phase := .returned false }
  else { begun with phase := .returned false }

/-- `send_msg` and what `waitPoll` does with its result. -/
def write (proto : Protobuf) (world : World) (sent : SendResult) : Except BespoKV.Fault World :=
  match world.conn.writeBuf with
  -- The buffer has been cleared by a write that was not complete.
  | none => .error .check
  | some request =>
      match sendMsg proto request with
      | .error _ => .error .check
      | .ok _ =>
          let conn := { world.conn with writeBuf := none }
          match sent with
          | .whole => .ok { world with
              conn, unanswered := world.unanswered ++ [world.current]
              phase := .polling false true }
          | .partly => .ok { world with conn, phase := .polling true true }
          | .failed => .ok (world.fail conn)

/-- `process` and what `waitPoll` does with `err`. -/
def process (proto : Protobuf) (world : World) (uninit : ErrCode) :
    Except BespoKV.Fault World :=
  match Client.parseResp proto world.conn.input with
  -- A check fails or the parser reads past the end of the buffer.
  | .error _ => .error .undefined
  | .ok outcome =>
      let conn := { world.conn with
        input := outcome.rest
        retrievalResults := world.conn.retrievalResults ++ outcome.retrievalResults
        messageResults := world.conn.messageResults ++ outcome.messageResults }
      let err : ErrCode :=
        match outcome.err with
        | some .ok => .ok
        | some .incompleteBuffer => .incompleteBuffer
        | none => uninit
      match err with
      | .ok => .ok { world with
          conn, phase := .returned true
          returned := world.returned ++
            [⟨world.current, outcome.response, conn.retrievalResults, conn.messageResults⟩] }
      | .incompleteBuffer => .ok { world with conn }
      | .programming | .server => .ok (world.fail conn)
      | _ => .error .check

/-- `recv_msg` and `process` -/
def read (proto : Protobuf) (world : World) (reads : List ReadResult) (frames : Nat)
    (uninit : ErrCode) : Except BespoKV.Fault World :=
  let received := recvMsg reads 0 world.conn.input
  let world := { world with
    conn := { world.conn with input := received.2 }, socket := world.socket.drop frames }
  if received.1 = -1 ∨ received.1 = 0 then .ok (world.fail world.conn)
  else world.process proto uninit

/-- One step of a client and its server.  Every reply frame is read whole, and a buffer of
8192 bytes holds what is read. -/
def step (proto : Protobuf) (answers : Nat → Reply) (world : World) :
    Event → Except BespoKV.Fault World
  | .call request connects =>
      if world.phase = .idle ∧ request.Supported then .ok (world.call request connects)
      else .error .disabled
  | .broken =>
      match world.phase with
      | .polling _ _ => .ok (world.fail world.conn)
      | _ => .error .disabled
  | .writable sent =>
      match world.phase with
      | .polling true _ => world.write proto sent
      | _ => .error .disabled
  | .readable reads frames uninit =>
      match world.phase with
      | .polling _ true =>
          if dataOf reads = (world.socket.take frames).flatten ∧
              world.conn.input.length + (dataOf reads).length ≤ 8192 then
            world.read proto reads frames uninit
          else .error .disabled
      | _ => .error .disabled
  | .answer =>
      match world.unanswered with
      | [] => .error .disabled
      | call :: rest => .ok { world with
          unanswered := rest, socket := world.socket ++ [world.replyFrame proto answers call] }
  | .destroy =>
      match world.phase with
      | .returned true => .ok { world with conn := world.conn.reset, phase := .idle }
      | .returned false => .ok { world with phase := .idle }
      | _ => .error .disabled

end World

/-- A read that fails has not received data before, in the same call of `recv_msg`. -/
def Event.Clean : Event → Prop
  | .readable reads _ _ => fails reads = true → dataOf reads = []
  | _ => True

instance (event : Event) : Decidable event.Clean :=
  match event with
  | .readable reads _ _ => inferInstanceAs (Decidable (fails reads = true → dataOf reads = []))
  | .call _ _ | .broken | .writable _ | .answer | .destroy => .isTrue trivial

/-! ## Replies and calls -/

variable {proto : Protobuf} {answers : Nat → Reply} {world next : World} {conn : Connection}

/-- The call returned the server's answer to its own request, and the results that follow
from it. -/
def Returned.Own (proto : Protobuf) (answers : Nat → Reply) (calls : List Request)
    (entry : Returned) : Prop :=
  ∃ request, calls[entry.call]? = some request ∧
    entry.response = some (answers entry.call) ∧
    entry.retrievalResults = (Client.results proto (getOpType request)
      (proto.reply (answers entry.call)) []).retrievalResults ∧
    entry.messageResults = (Client.results proto (getOpType request)
      (proto.reply (answers entry.call)) []).messageResults

theorem Returned.Own.append {calls : List Request} {entry : Returned}
    (own : entry.Own proto answers calls) (request : Request) :
    entry.Own proto answers (calls ++ [request]) := by
  obtain ⟨issued, found, results⟩ := own
  refine ⟨issued, ?_, results⟩
  rw [List.getElem?_append_left (List.getElem?_eq_some_iff.mp found).1]
  exact found

/-- Where the request of the call in progress, or its answer, is. -/
inductive InFlight (proto : Protobuf) (answers : Nat → Reply) (world : World) : Prop where
  | unsent (buffered : world.conn.writeBuf ≠ none) (noRequest : world.unanswered = [])
      (noReply : world.socket = [])
  | sent (cleared : world.conn.writeBuf = none) (request : world.unanswered = [world.current])
      (noReply : world.socket = [])
  | answered (cleared : world.conn.writeBuf = none) (noRequest : world.unanswered = [])
      (reply : world.socket = [world.replyFrame proto answers world.current])
  | lost (cleared : world.conn.writeBuf = none) (noRequest : world.unanswered = [])
      (noReply : world.socket = [])

/-- The client's buffer is empty between two steps, and at most one request is on its way. -/
structure Tracked (proto : Protobuf) (answers : Nat → Reply) (world : World) : Prop where
  own : ∀ entry ∈ world.returned, entry.Own proto answers world.calls
  known : ∀ request ∈ world.calls, request.Supported
  drained : world.conn.input = []
  quiet : (∀ out inn, world.phase ≠ .polling out inn) →
    world.unanswered = [] ∧ world.socket = []
  flight : ∀ out inn, world.phase = .polling out inn →
    world.calls ≠ [] ∧ InFlight proto answers world
  cleared : world.phase = .returned true ∨
    (world.conn.retrievalResults = [] ∧ world.conn.messageResults = [])

theorem tracked_fail (own : ∀ entry ∈ world.returned, entry.Own proto answers world.calls)
    (known : ∀ request ∈ world.calls, request.Supported) (drained : conn.input = []) :
    Tracked proto answers (world.fail conn) where
  own := own
  known := known
  drained := drained
  quiet _ := ⟨rfl, rfl⟩
  flight _ _ polling := nomatch polling
  cleared := .inl rfl

namespace Tracked

theorem call (tracked : Tracked proto answers world) (idle : world.phase = .idle)
    {request : Request} (isKnown : request.Supported) (connects : Bool) :
    Tracked proto answers (world.call request connects) := by
  obtain ⟨noRequest, noReply⟩ := tracked.quiet (by simp [idle])
  have results := tracked.cleared.resolve_left (by simp [idle])
  have own : ∀ entry ∈ world.returned, entry.Own proto answers (world.calls ++ [request]) :=
    fun entry mem => (tracked.own entry mem).append request
  have known : ∀ issued ∈ world.calls ++ [request], issued.Supported := by
    simpa [or_imp, forall_and] using ⟨tracked.known, isKnown⟩
  have kept : (world.conn.tryReconnect connects).input = [] ∧
      (world.conn.tryReconnect connects).retrievalResults = [] ∧
      (world.conn.tryReconnect connects).messageResults = [] := by
    unfold Connection.tryReconnect
    split <;> exact ⟨tracked.drained, results⟩
  unfold World.call
  split
  · dsimp only
    split
    · exact ⟨own, known, kept.1, fun none => (none _ _ rfl).elim,
        fun _ _ _ => ⟨by simp, .unsent (by simp) noRequest noReply⟩, .inr kept.2⟩
    · exact ⟨own, known, kept.1, fun _ => ⟨noRequest, noReply⟩,
        fun _ _ polling => (nomatch polling), .inr kept.2⟩
  · exact ⟨own, known, tracked.drained, fun _ => ⟨noRequest, noReply⟩,
      fun _ _ polling => (nomatch polling), .inr results⟩

theorem write (tracked : Tracked proto answers world) {out inn : Bool}
    (polling : world.phase = .polling out inn) {sent : SendResult}
    (written : world.write proto sent = .ok next) : Tracked proto answers next := by
  obtain ⟨begun, flight⟩ := tracked.flight out inn polling
  have results := tracked.cleared.resolve_left (by simp [polling])
  unfold World.write at written
  cases buffered : world.conn.writeBuf with
  | none => simp [buffered] at written
  | some request =>
      -- Only a request that has not been sent is still in the buffer.
      have ⟨noRequest, noReply⟩ : world.unanswered = [] ∧ world.socket = [] := by
        cases flight with
        | unsent _ noRequest noReply => exact ⟨noRequest, noReply⟩
        | sent cleared | answered cleared | lost cleared => simp [buffered] at cleared
      simp only [buffered, sendMsg, if_neg (proto.request_ne_nil request)] at written
      cases sent with
      | whole =>
          cases written
          exact ⟨tracked.own, tracked.known, tracked.drained, fun none => (none _ _ rfl).elim,
            fun _ _ _ => ⟨begun, .sent rfl (by simp [noRequest, World.current]) noReply⟩,
            .inr results⟩
      | partly =>
          cases written
          exact ⟨tracked.own, tracked.known, tracked.drained, fun none => (none _ _ rfl).elim,
            fun _ _ _ => ⟨begun, .lost rfl noRequest noReply⟩, .inr results⟩
      | failed =>
          cases written
          exact tracked_fail tracked.own tracked.known tracked.drained

theorem answer (tracked : Tracked proto answers world) {call : Nat} {rest : List Nat}
    (oldest : world.unanswered = call :: rest) :
    Tracked proto answers { world with
      unanswered := rest
      socket := world.socket ++ [world.replyFrame proto answers call] } := by
  refine ⟨tracked.own, tracked.known, tracked.drained, fun none => ?_, fun out inn polling => ?_,
    tracked.cleared⟩
  · simp [tracked.quiet none] at oldest
  · obtain ⟨begun, flight⟩ := tracked.flight out inn polling
    cases flight with
    | sent cleared request noReply =>
        rw [request, List.cons.injEq] at oldest
        obtain ⟨rfl, rfl⟩ := oldest
        exact ⟨begun, .answered cleared rfl (by rw [noReply]; rfl)⟩
    | unsent _ noRequest | answered _ noRequest | lost _ noRequest =>
        simp [noRequest] at oldest

/-- `parse_resp` leaves `err` as it was only where it adds no result. -/
private theorem results_err (proto : Protobuf) (op reply rest : Bytes) :
    (Client.results proto op reply rest).err = some .ok ∨
      (Client.results proto op reply rest).err = none ∧
      (Client.results proto op reply rest).retrievalResults = [] ∧
      (Client.results proto op reply rest).messageResults = [] := by
  unfold Client.results
  dsimp only
  split_ifs <;> simp

/-- The reply to the call in progress is decoded and leaves the buffer empty. -/
theorem process {uninit : ErrCode} (processed : world.process proto uninit = .ok next)
    (own : ∀ entry ∈ world.returned, entry.Own proto answers world.calls)
    (known : ∀ request ∈ world.calls, request.Supported) (begun : world.calls ≠ [])
    (input : world.conn.input = world.replyFrame proto answers world.current)
    (sent : world.conn.writeBuf = none) (noRequest : world.unanswered = [])
    (noReply : world.socket = [])
    (cleared : world.conn.retrievalResults = [] ∧ world.conn.messageResults = [])
    (small : world.conn.input.length ≤ 8192) : Tracked proto answers next := by
  obtain ⟨request, current, issued⟩ :
      ∃ request, world.calls[world.current]? = some request ∧ request ∈ world.calls := by
    have inside : world.current < world.calls.length :=
      Nat.sub_lt (List.length_pos_of_ne_nil begun) one_pos
    exact ⟨_, List.getElem?_eq_getElem inside, List.getElem_mem inside⟩
  have type : getOpType request ∈ [getMessage, putMessage] := by
    have isKnown := known request issued
    cases request with
    | get key | put key value => simp [getOpType]
    | del key => exact isKnown.elim
  have framed : world.conn.input =
      frame (getOpType request) (proto.reply (answers world.current)) := by
    simp only [input, World.replyFrame, current, Option.elim]
  have wellFormed : WellFormed (getOpType request) (proto.reply (answers world.current)) := by
    refine ⟨proto.reply_ne_nil _, ?_⟩
    rw [framed, frame_length] at small
    omega
  have response : (Client.results proto (getOpType request)
      (proto.reply (answers world.current)) []).response = some (answers world.current) :=
    (Client.results_reply _ type).response
  have rest : (Client.results proto (getOpType request)
      (proto.reply (answers world.current)) []).rest = [] :=
    (Client.results_reply _ type).rest
  have parsed : Client.parseResp proto
      (frame (getOpType request) (proto.reply (answers world.current)) ++ []) = .ok _ :=
    Client.parseResp_frame wellFormed
  rw [List.append_nil] at parsed
  simp only [World.process, framed, parsed, cleared.1, cleared.2, List.nil_append] at processed
  split at processed
  · obtain rfl := Except.ok.inj processed
    refine ⟨?_, known, rest, fun _ => ⟨noRequest, noReply⟩,
      fun _ _ polling => (by cases polling), .inl rfl⟩
    intro entry mem
    rcases List.mem_append.mp mem with earlier | new
    · exact own entry earlier
    · rw [List.mem_singleton.mp new]
      exact ⟨request, current, response, rfl, rfl⟩
  · -- The reply is gone and the call waits on, with an error code that was never set.
    rename_i unset
    have noResults := ((results_err proto (getOpType request)
      (proto.reply (answers world.current)) []).resolve_left fun ok => by simp [ok] at unset).2
    obtain rfl := Except.ok.inj processed
    exact ⟨own, known, rest, fun _ => ⟨noRequest, noReply⟩,
      fun _ _ _ => ⟨begun, .lost sent noRequest noReply⟩, .inr noResults⟩
  · obtain rfl := Except.ok.inj processed
    exact tracked_fail own known rest
  · obtain rfl := Except.ok.inj processed
    exact tracked_fail own known rest
  · cases processed

theorem read (tracked : Tracked proto answers world) {out inn : Bool}
    (polling : world.phase = .polling out inn) {reads : List ReadResult} {frames : Nat}
    (taken : dataOf reads = (world.socket.take frames).flatten)
    (room : world.conn.input.length + (dataOf reads).length ≤ 8192)
    (clean : fails reads = true → dataOf reads = []) {uninit : ErrCode}
    (moved : world.read proto reads frames uninit = .ok next) : Tracked proto answers next := by
  obtain ⟨begun, flight⟩ := tracked.flight out inn polling
  have results := tracked.cleared.resolve_left (by simp [polling])
  have buffer : (recvMsg reads 0 world.conn.input).2 = dataOf reads := by
    rw [recvMsg_input, tracked.drained, List.nil_append]
  simp only [World.read, buffer] at moved
  by_cases nothing : dataOf reads = []
  · -- Nothing has been read: the call fails and the buffer is still empty.
    have ret : (recvMsg reads 0 world.conn.input).1 = -1 ∨
        (recvMsg reads 0 world.conn.input).1 = 0 := by
      cases failed : fails reads with
      | true => exact recvMsg_fails 0 _ failed
      | false => exact .inr (by rw [recvMsg_ret 0 _ failed, nothing]; rfl)
    rw [if_pos ret, nothing] at moved
    obtain rfl := Except.ok.inj moved
    exact tracked_fail tracked.own tracked.known rfl
  · have succeeds : fails reads = false := by
      cases failed : fails reads with
      | true => exact (nothing (clean failed)).elim
      | false => rfl
    have ret := recvMsg_ret 0 world.conn.input succeeds
    have received : 0 < (dataOf reads).length := List.length_pos_of_ne_nil nothing
    rw [if_neg (by omega)] at moved
    cases flight with
    | unsent _ _ noReply | sent _ _ noReply | lost _ _ noReply =>
        simp [taken, noReply] at nothing
    | answered sent noRequest reply =>
        -- The only frame on the socket is the reply to this call.
        cases frames with
        | zero => simp [taken] at nothing
        | succ count =>
            have data : dataOf reads = world.replyFrame proto answers world.current := by
              simp [taken, reply]
            rw [tracked.drained, List.length_nil, Nat.zero_add] at room
            exact process moved tracked.own tracked.known begun data sent noRequest
              (by simp [reply]) results room

theorem step (tracked : Tracked proto answers world) {event : Event}
    (clean : event.Clean) (moved : world.step proto answers event = .ok next) :
    Tracked proto answers next := by
  cases event with
  | call request connects =>
      simp only [World.step] at moved
      split at moved
      · rename_i allowed
        obtain rfl := Except.ok.inj moved
        exact tracked.call allowed.1 allowed.2 connects
      · cases moved
  | broken =>
      simp only [World.step] at moved
      split at moved
      · obtain rfl := Except.ok.inj moved
        exact tracked_fail tracked.own tracked.known tracked.drained
      · cases moved
  | writable sent =>
      simp only [World.step] at moved
      split at moved
      · rename_i polling
        exact tracked.write polling moved
      · cases moved
  | readable reads frames uninit =>
      simp only [World.step] at moved
      split at moved
      · rename_i polling
        split at moved
        · rename_i allowed
          exact tracked.read polling allowed.1 allowed.2 clean moved
        · cases moved
      · cases moved
  | answer =>
      simp only [World.step] at moved
      split at moved
      · cases moved
      · rename_i oldest
        obtain rfl := Except.ok.inj moved
        exact tracked.answer oldest
  | destroy =>
      simp only [World.step] at moved
      split at moved
      · rename_i returned
        obtain rfl := Except.ok.inj moved
        obtain ⟨noRequest, noReply⟩ := tracked.quiet (by simp [returned])
        exact ⟨tracked.own, tracked.known, tracked.drained, fun _ => ⟨noRequest, noReply⟩,
          fun _ _ polling => (nomatch polling), .inr ⟨rfl, rfl⟩⟩
      · rename_i returned
        obtain rfl := Except.ok.inj moved
        obtain ⟨noRequest, noReply⟩ := tracked.quiet (by simp [returned])
        exact ⟨tracked.own, tracked.known, tracked.drained, fun _ => ⟨noRequest, noReply⟩,
          fun _ _ polling => (nomatch polling),
          .inr (tracked.cleared.resolve_left (by simp [returned]))⟩
      · cases moved

end Tracked

/-- Answers that differ from call to call. -/
def numbered (call : Nat) : Reply := ⟨0, some [UInt8.ofNat call]⟩

end BespoKV.LibCkv
