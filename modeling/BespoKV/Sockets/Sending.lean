import BespoKV.Datalet.Strings
import BespoKV.Library.Transfer
import BespoKV.Wire.Format
import Mathlib.Data.List.Infix

/-!
# Writing to sockets

`Link::msg_send` and `Link::msg_write` of the proxy byte by byte, and the handlers that call
them with the message at the front of a queue.  One request buffer can be queued on several
links: `msg_send` consumes it while it writes and rewinds it afterwards.

Every link is non-blocking: `noblock_` is set by the constructor and never cleared.
-/

namespace BespoKV.Sockets

open Transfer Wire

/-! ## Buffers -/

/-- `Buffer`: the bytes stored from `buf` on, the distance `data_ - buf`, `size_`, `total_`
and `id`. -/
structure Buffer where
  stored : Bytes
  data : Nat
  size : Nat
  total : Nat
  id : Int
  deriving DecidableEq, Repr

namespace Buffer

/-- The `size_` bytes from `data_` on. -/
def content (buffer : Buffer) : Bytes := (buffer.stored.drop buffer.data).take buffer.size

/-- `Buffer(int total)` -/
def new (total : Nat) : Buffer := ⟨[], 0, 0, total, -1⟩

/-- `grow` -/
def grow (buffer : Buffer) : Buffer := { buffer with total := Str.nextTotal buffer.total }

/-- The loop of `append` around `grow`, which ends where the capacity does not grow. -/
def growUntil (wanted : Nat) : Nat → Nat → Nat
  | 0, total => total
  | rounds + 1, total =>
      if wanted ≤ total then total else growUntil wanted rounds (Str.nextTotal total)

/-- The bytes are stored at `slot()` and `size_` is increased. -/
def store (buffer : Buffer) (bytes : Bytes) : Buffer :=
  { buffer with
    stored := buffer.stored.take (buffer.data + buffer.size) ++ bytes
    size := buffer.size + bytes.length }

/-- `append(const void *, int)` -/
def append (buffer : Buffer) (bytes : Bytes) : Buffer :=
  let wanted := buffer.data + buffer.size + bytes.length
  let total := growUntil wanted wanted buffer.total
  if wanted ≤ total then { buffer.store bytes with total } else { buffer with total }

/-- `decr` -/
def decr (buffer : Buffer) (num : Nat) : Buffer :=
  { buffer with data := buffer.data + num, size := buffer.size - num }

/-- `rewind(int sz)` -/
def rewind (buffer : Buffer) (sz : Nat) : Buffer := { buffer with data := 0, size := sz }

/-- `nice` -/
def nice (buffer : Buffer) : Buffer :=
  if buffer.total / 2 < buffer.data then
    { buffer with stored := buffer.content ++ buffer.stored.drop buffer.size, data := 0 }
  else buffer

/-- The buffer `req_recv` makes for one frame. -/
def ofFrame (frame : Bytes) : Buffer := { (new frame.length).append frame with id := 1 }

/-- The buffer `msg_read` returns for what it has read. -/
def ofRead (bytes : Bytes) : Buffer := (new 8).grow.store bytes

@[simp] theorem grow_size (buffer : Buffer) : buffer.grow.size = buffer.size := by
  cases buffer
  rfl

@[simp] theorem grow_content (buffer : Buffer) : buffer.grow.content = buffer.content := by
  cases buffer
  rw [content, content]
  rfl

theorem growUntil_of_le {wanted total : Nat} (enough : wanted ≤ total) (rounds : Nat) :
    growUntil wanted rounds total = total := by
  cases rounds with
  | zero => rfl
  | succ rounds => exact if_pos enough

/-- The frame fits exactly. -/
theorem ofFrame_eq (frame : Bytes) : ofFrame frame = ⟨frame, 0, frame.length, frame.length, 1⟩ := by
  simp [ofFrame, append, growUntil_of_le, store, new]

@[simp] theorem ofFrame_data (frame : Bytes) : (ofFrame frame).data = 0 := by rw [ofFrame_eq]

@[simp] theorem ofFrame_size (frame : Bytes) : (ofFrame frame).size = frame.length := by
  rw [ofFrame_eq]

@[simp] theorem ofFrame_content (frame : Bytes) : (ofFrame frame).content = frame := by
  simp [content, ofFrame_eq]

@[simp] theorem ofRead_data (bytes : Bytes) : (ofRead bytes).data = 0 := rfl

@[simp] theorem ofRead_size (bytes : Bytes) : (ofRead bytes).size = bytes.length := by
  simp [ofRead, store, grow, new]

@[simp] theorem ofRead_content (bytes : Bytes) : (ofRead bytes).content = bytes := by
  simp [content, ofRead, store, grow, new]

@[simp] theorem decr_zero (buffer : Buffer) : buffer.decr 0 = buffer := rfl

@[simp] theorem decr_size (buffer : Buffer) (num : Nat) :
    (buffer.decr num).size = buffer.size - num := rfl

theorem decr_decr (buffer : Buffer) (num more : Nat) :
    (buffer.decr num).decr more = buffer.decr (num + more) := by
  simp [decr, Nat.add_assoc, Nat.sub_sub]

theorem content_decr (buffer : Buffer) (num : Nat) :
    (buffer.decr num).content = buffer.content.drop num := by
  rw [content, content, decr, List.drop_take, List.drop_drop]

/-- A buffer whose data begins at `buf` is what `rewind` makes of it. -/
theorem rewind_decr {buffer : Buffer} (begins : buffer.data = 0) (num : Nat) :
    (buffer.decr num).rewind buffer.size = buffer := by
  cases buffer
  cases begins
  rfl

end Buffer

/-! ## The loop around `write` -/

/-- A call of `msg_send` or `msg_write`: its return value, where `none` is -1, what becomes of
the buffer and the bytes that are written to the socket. -/
structure Sent where
  ret : Option Nat
  smsg : Buffer
  written : Bytes
  deriving DecidableEq, Repr

/-- The return value as an `int`. -/
def Sent.len (sent : Sent) : Int := sent.ret.elim (-1) Int.ofNat

/-- The loop of `msg_send` and `msg_write`. -/
def sendLoop : List Write → Nat → Buffer → Sent
  | [], ret, smsg => ⟨some ret, smsg, []⟩
  | write :: writes, ret, smsg =>
      let want := smsg.size
      if want = 0 then ⟨some ret, smsg, []⟩
      else
        match write with
        | .interrupted => sendLoop writes ret smsg
        | .wouldBlock => ⟨some ret, smsg, []⟩
        | .failed => ⟨none, smsg, []⟩
        | .accepts room =>
            let len := min room want
            if len = 0 then ⟨some ret, smsg, []⟩
            else
              let sent := sendLoop writes (ret + len) (smsg.decr len)
              { sent with written := smsg.content.take len ++ sent.written }

/-- The loop of a call writes the beginning of the buffer, as far as it is taken. -/
theorem sendLoop_eq (writes : List Write) (ret : Nat) (smsg : Buffer) :
    sendLoop writes ret smsg = {
      ret := if fails writes smsg.size then none else some (ret + taken writes smsg.size)
      smsg := smsg.decr (taken writes smsg.size)
      written := smsg.content.take (taken writes smsg.size) } := by
  induction writes generalizing ret smsg with
  | nil => rfl
  | cons write writes ih =>
      rw [sendLoop.eq_def]
      dsimp only
      by_cases done : smsg.size = 0
      · rw [if_pos done, done, taken_zero, fails_zero]
        rfl
      rw [if_neg done]
      cases write with
      | interrupted => exact ih ret smsg
      | wouldBlock => rfl
      | failed =>
          have more : 0 < smsg.size := Nat.pos_of_ne_zero done
          simp [fails, taken, more]
      | accepts room =>
          dsimp only
          rw [taken, fails]
          by_cases full : min room smsg.size = 0
          · rw [if_pos full, if_pos full, if_pos full]
            rfl
          · rw [if_neg full, if_neg full, if_neg full, ih, Buffer.decr_size, Buffer.content_decr,
              Buffer.decr_decr, List.take_add, Nat.add_assoc]

/-- `Link::msg_send` -/
def msgSend (smsg : Buffer) (writes : List Write) : Except Fault Sent :=
  let msgSz := smsg.size
  let sent := sendLoop writes 0 smsg
  match sent.ret with
  -- The call returns before the buffer is rewound.
  | none => .ok sent
  | some _ =>
      let smsg := sent.smsg.rewind msgSz
      if 0 < smsg.size then .ok { sent with smsg } else .error .check

/-- `Link::msg_write` -/
def msgWrite (smsg : Buffer) (writes : List Write) : Sent :=
  let smsg := if smsg.total = 8 then smsg.grow else smsg
  let sent := sendLoop writes 0 smsg
  match sent.ret with
  | none => sent
  | some _ => { sent with smsg := sent.smsg.nice }

/-! ## A request that several links send -/

/-- A hard error, if there is one, comes before any byte has been taken. -/
def FailsFirst (smsg : Buffer) (writes : List Write) : Prop :=
  fails writes smsg.size = true → taken writes smsg.size = 0

instance (smsg : Buffer) : DecidablePred (FailsFirst smsg) :=
  fun _ => inferInstanceAs (Decidable (_ → _))

variable {smsg : Buffer} {writes : List Write}

/-- Whatever happens to the buffer, its beginning is written. -/
theorem msgSend_written (nonempty : 0 < smsg.size) (writes : List Write) :
    ∃ sent, msgSend smsg writes = .ok sent ∧
      sent.written = smsg.content.take (taken writes smsg.size) := by
  unfold msgSend
  rw [sendLoop_eq]
  cases failed : fails writes smsg.size with
  | true => exact ⟨_, rfl, rfl⟩
  | false => exact ⟨_, if_pos nonempty, rfl⟩

/-- A call that does not fail midway leaves the buffer as it was. -/
theorem msgSend_eq (begins : smsg.data = 0) (nonempty : 0 < smsg.size)
    (first : FailsFirst smsg writes) :
    msgSend smsg writes = .ok {
      ret := if fails writes smsg.size then none else some (taken writes smsg.size)
      smsg
      written := smsg.content.take (taken writes smsg.size) } := by
  unfold msgSend
  rw [sendLoop_eq]
  cases failed : fails writes smsg.size with
  | true =>
      have nothing := first failed
      simp [nothing]
  | false =>
      dsimp only
      rw [Buffer.rewind_decr begins]
      simp [nonempty]

/-- `msg_send` on one of the links that share a request. -/
def sendShared (smsg : Buffer) (writes : List Write) : Except Fault Buffer :=
  (msgSend smsg writes).map Sent.smsg

/-- Calls of `msg_send` that do not fail midway leave a shared request as `req_recv` made it,
so that each link sends the same bytes. -/
theorem shared_request_intact {frame : Bytes} (nonempty : frame ≠ [])
    (run : Transition.Runs sendShared FailsFirst (Buffer.ofFrame frame) smsg) :
    smsg.content = frame ∧ smsg.size = frame.length ∧
      ∀ writes, ∃ sent, msgSend smsg writes = .ok sent ∧ sent.written <+: frame := by
  have positive : 0 < (Buffer.ofFrame frame).size := by
    rw [Buffer.ofFrame_size]
    exact List.length_pos_of_ne_nil nonempty
  have same : smsg = Buffer.ofFrame frame := by
    refine run.invariant (· = Buffer.ofFrame frame) ?_ rfl
    rintro _ writes after rfl first moved
    rw [sendShared, msgSend_eq (Buffer.ofFrame_data frame) positive first] at moved
    exact (Except.ok.inj moved).symm
  subst same
  refine ⟨Buffer.ofFrame_content frame, Buffer.ofFrame_size frame, fun writes => ?_⟩
  obtain ⟨sent, called, written⟩ := msgSend_written positive writes
  rw [Buffer.ofFrame_content] at written
  exact ⟨sent, called, written ▸ List.take_prefix _ frame⟩

/-- Two links send one request: the socket of the first takes one byte and then has no room,
the second one fails at once. -/
theorem shared_request_intact_sample : ∃ smsg,
    Transition.Runs sendShared FailsFirst (Buffer.ofFrame [1, 2, 3]) smsg ∧
      smsg.content = [1, 2, 3] := by
  obtain ⟨smsg, run, -⟩ := Transition.Runs.exists_of_exec sendShared FailsFirst
    (Buffer.ofFrame [1, 2, 3]) [[.interrupted, .accepts 1, .wouldBlock], [.failed]]
    (fun _ => true) (by decide)
  exact ⟨smsg, run, (shared_request_intact (by decide) run).1⟩

/-- A send that fails after its first byte leaves the buffer without this byte.  The next link
sends the rest, and what is left then lacks the last byte. -/
theorem failed_send_truncates_request : ∃ smsg sent,
    Transition.Runs sendShared (fun _ _ => True) (Buffer.ofFrame [1, 2, 3]) smsg ∧
      smsg.content = [2, 3] ∧ msgSend smsg [.accepts 3] = .ok sent ∧
      sent.written = [2, 3] ∧ sent.smsg.content = [1, 2] := by
  obtain ⟨smsg, run, post⟩ := Transition.Runs.exists_of_exec sendShared (fun _ _ => True)
    (Buffer.ofFrame [1, 2, 3]) [[.accepts 1, .failed]]
    (fun smsg => smsg = ⟨[1, 2, 3], 1, 2, 3, 1⟩) (by decide)
  obtain rfl := of_decide_eq_true post
  exact ⟨_, _, run, rfl, rfl, rfl, rfl⟩

/-! ## Queues of messages -/

/-- The sending side of a link: its role, its queues, the mark of an error, its subscription
to writability, and everything that has been written to the socket.  `queued` records the
messages that have ever been queued. -/
structure Outgoing where
  nwFunc : NwFunc
  isMaster : Bool := false
  imsgQ : List Buffer := []
  omsgQ : List Buffer := []
  error : Bool := false
  out : Bool := false
  socket : Bytes := []
  queued : List Bytes := []
  deriving DecidableEq, Repr

namespace Outgoing

/-- A message joins the queue. -/
def push (link : Outgoing) (content : Bytes) : Outgoing :=
  let message := if link.nwFunc = .request then Buffer.ofRead content else Buffer.ofFrame content
  { link with
    imsgQ := link.imsgQ ++ [message]
    out := if link.imsgQ = [] then true else link.out
    queued := link.queued ++ [content] }

/-- `clr`: there is nothing to send. -/
def clr (link : Outgoing) : Outgoing := { link with out := false }

/-- The front message has been popped and bytes of it have been written. -/
def wrote (link : Outgoing) (rest : List Buffer) (sent : Sent) : Outgoing :=
  { link with imsgQ := rest, socket := link.socket ++ sent.written }

/-- `mark_error` and `del` -/
def drop (link : Outgoing) : Outgoing := { link with error := true, out := false }

/-- The message waits for its answer. -/
def await (link : Outgoing) (smsg : Buffer) : Outgoing :=
  { link with omsgQ := link.omsgQ ++ [smsg] }

/-- `req_send` -/
def reqSend (link : Outgoing) (writes : List Write) : Except Fault Outgoing :=
  match link.imsgQ with
  | [] => .ok link.clr
  | smsg :: rest =>
      match msgSend smsg writes with
      | .error fault => .error fault
      | .ok sent =>
          if sent.len ≤ 0 then .ok (link.wrote rest sent).drop
          else if sent.smsg.id = 1 then .ok ((link.wrote rest sent).await sent.smsg)
          else .error .check

/-- `replica_req_send` -/
def replicaReqSend (link : Outgoing) (writes : List Write) : Except Fault Outgoing :=
  if link.isMaster then .error .check
  else
    match link.imsgQ with
    | [] => .ok link.clr
    | smsg :: rest =>
        if smsg.size = 0 then .error .check
        else
          match msgSend smsg writes with
          | .error fault => .error fault
          | .ok sent =>
              if sent.len ≤ 0 then .ok (link.wrote rest sent).drop
              else .ok ((link.wrote rest sent).await sent.smsg)

/-- `rsp_send` -/
def rspSend (link : Outgoing) (writes : List Write) : Outgoing :=
  match link.imsgQ with
  | [] => link.clr
  | smsg :: rest =>
      let sent := msgWrite smsg writes
      if sent.len ≤ 0 then (link.wrote rest sent).drop else link.wrote rest sent

end Outgoing

/-- What can happen on the sending side of a link. -/
inductive LinkEvent where
  | push (content : Bytes)
  /-- the loop calls the handler; the writes it makes end as given -/
  | writable (writes : List Write)
  deriving DecidableEq, Repr

namespace Outgoing

/-- One step of the sending side: links that are marked or not subscribed are not called. -/
def step (link : Outgoing) : LinkEvent → Except Fault Outgoing
  | .push content => .ok (link.push content)
  | .writable writes =>
      if link.error || !link.out then .error .disabled
      else
        match link.nwFunc with
        | .request => .ok (link.rspSend writes)
        | .response => link.reqSend writes
        | .replica => link.replicaReqSend writes
        | .unset => .error .undefined

/-- Messages are not empty, and each call of a handler finds a socket that takes the whole
message at the front of the queue before it has no more room. -/
def Roomy (link : Outgoing) : LinkEvent → Prop
  | .push content => content ≠ []
  | .writable writes => ∀ smsg ∈ link.imsgQ.head?, taken writes smsg.size = smsg.size

instance (link : Outgoing) : DecidablePred link.Roomy
  | .push content => inferInstanceAs (Decidable (content ≠ []))
  | .writable _ => inferInstanceAs (Decidable (∀ smsg ∈ link.imsgQ.head?, _))

end Outgoing

/-! ## Whole messages -/

theorem msgWrite_eq (smsg : Buffer) (writes : List Write) :
    (msgWrite smsg writes).ret =
        (if fails writes smsg.size then none else some (taken writes smsg.size)) ∧
      (msgWrite smsg writes).written = smsg.content.take (taken writes smsg.size) := by
  have same : ∀ grown : Buffer, grown.size = smsg.size → grown.content = smsg.content →
      (sendLoop writes 0 grown).ret =
          (if fails writes smsg.size then none else some (taken writes smsg.size)) ∧
        (sendLoop writes 0 grown).written = smsg.content.take (taken writes smsg.size) := by
    intro grown size content
    rw [sendLoop_eq, size, content, Nat.zero_add]
    exact ⟨rfl, rfl⟩
  obtain ⟨ret, written⟩ := same (if smsg.total = 8 then smsg.grow else smsg)
    (by split <;> simp) (by split <;> simp)
  unfold msgWrite
  dsimp only
  split
  · exact ⟨ret, written⟩
  · exact ⟨ret, written⟩

namespace Outgoing

variable {link next : Outgoing} {rest : List Buffer}

/-- A message as it was queued. -/
structure Fresh (link : Outgoing) (smsg : Buffer) : Prop where
  begins : smsg.data = 0
  nonempty : 0 < smsg.size
  id : link.nwFunc = .response → smsg.id = 1

/-- The message at the front of the queue is written as a whole. -/
theorem step_whole (role : link.nwFunc ≠ .unset)
    (slave : link.nwFunc = .replica → link.isMaster = false)
    (healthy : link.error = false) (subscribed : link.out = true)
    (front : link.imsgQ = smsg :: rest) (fresh : link.Fresh smsg)
    (room : taken writes smsg.size = smsg.size) :
    ∃ omsgQ, link.step (.writable writes) = .ok { link with
      imsgQ := rest, omsgQ, socket := link.socket ++ smsg.content } := by
  have unfailing : fails writes smsg.size = false := by
    by_contra failed
    have less := taken_lt_of_fails (Bool.not_eq_false _ ▸ failed)
    omega
  have all : smsg.content.take smsg.size = smsg.content :=
    List.take_of_length_le (by simp [Buffer.content])
  have positive : smsg.size ≠ 0 := fresh.nonempty.ne'
  have called : msgSend smsg writes = _ := msgSend_eq fresh.begins fresh.nonempty fun failed => by
    rw [unfailing] at failed
    cases failed
  rw [unfailing, room, all] at called
  cases func : link.nwFunc with
  | unset => exact absurd func role
  | request =>
      obtain ⟨ret, written⟩ := msgWrite_eq smsg writes
      rw [unfailing, room] at ret
      rw [room, all] at written
      refine ⟨link.omsgQ, ?_⟩
      simp [step, healthy, subscribed, func, rspSend, front, Sent.len, ret, written, wrote,
        positive]
  | response =>
      refine ⟨link.omsgQ ++ [smsg], ?_⟩
      simp [step, healthy, subscribed, func, reqSend, front, called, Sent.len, wrote, await,
        fresh.id func, positive]
  | replica =>
      refine ⟨link.omsgQ ++ [smsg], ?_⟩
      simp [step, healthy, subscribed, func, replicaReqSend, front, called, Sent.len, wrote,
        await, slave func, positive]

/-- Without a message, a call only ends the subscription. -/
theorem step_idle (empty : link.imsgQ = []) (moved : link.step (.writable writes) = .ok next) :
    next = link.clr := by
  simp only [step] at moved
  split at moved
  · cases moved
  split at moved
  · simp only [rspSend, empty] at moved
    exact (Except.ok.inj moved).symm
  · simp only [reqSend, empty] at moved
    exact (Except.ok.inj moved).symm
  · simp only [replicaReqSend, empty] at moved
    split at moved
    · cases moved
    · exact (Except.ok.inj moved).symm
  · cases moved

/-- What has been written is made of whole messages, and the link is still there. -/
structure Intact (link : Outgoing) : Prop where
  role : link.nwFunc ≠ .unset
  slave : link.nwFunc = .replica → link.isMaster = false
  kept : link.error = false
  subscribed : link.imsgQ ≠ [] → link.out = true
  fresh : ∀ smsg ∈ link.imsgQ, link.Fresh smsg
  whole : ∃ done, link.queued = done ++ link.imsgQ.map Buffer.content ∧
    link.socket = done.flatten

theorem Intact.push (intact : link.Intact) {content : Bytes} (nonempty : content ≠ []) :
    (link.push content).Intact := by
  obtain ⟨done, queued, socket⟩ := intact.whole
  refine ⟨intact.role, intact.slave, intact.kept, fun _ => ?_, fun smsg member => ?_, ?_⟩
  · change (if link.imsgQ = [] then true else link.out) = true
    split
    · rfl
    next more => exact intact.subscribed more
  · rcases List.mem_append.mp member with earlier | new
    · obtain ⟨begins, nonempty, id⟩ := intact.fresh smsg earlier
      exact ⟨begins, nonempty, id⟩
    · obtain rfl := List.mem_singleton.mp new
      have positive := List.length_pos_of_ne_nil nonempty
      by_cases client : link.nwFunc = .request
      · rw [if_pos client]
        refine ⟨rfl, by rwa [Buffer.ofRead_size], fun server => ?_⟩
        rw [show link.nwFunc = .response from server] at client
        cases client
      · rw [if_neg client]
        exact ⟨Buffer.ofFrame_data _, by rwa [Buffer.ofFrame_size], fun _ => by
          rw [Buffer.ofFrame_eq]⟩
  · refine ⟨done, ?_, socket⟩
    have stored : Buffer.content (if link.nwFunc = .request then Buffer.ofRead content
        else Buffer.ofFrame content) = content := by
      split
      · exact Buffer.ofRead_content content
      · exact Buffer.ofFrame_content content
    simp only [Outgoing.push, queued, List.map_append, List.map_cons, List.map_nil, stored,
      List.append_assoc]

theorem Intact.step {event : LinkEvent} (intact : link.Intact) (roomy : link.Roomy event)
    (moved : link.step event = .ok next) : next.Intact := by
  cases event with
  | push content =>
      cases moved
      exact intact.push roomy
  | writable writes =>
      obtain ⟨done, queued, socket⟩ := intact.whole
      cases queue : link.imsgQ with
      | nil =>
          obtain rfl := step_idle queue moved
          refine ⟨intact.role, intact.slave, intact.kept, fun more => absurd queue more,
            fun smsg member => ?_, done, queued, socket⟩
          obtain ⟨begins, nonempty, id⟩ := intact.fresh smsg member
          exact ⟨begins, nonempty, id⟩
      | cons smsg rest =>
          have subscribed := intact.subscribed (by simp [queue])
          obtain ⟨omsgQ, called⟩ := step_whole intact.role intact.slave intact.kept subscribed
            queue (intact.fresh smsg (by simp [queue])) (roomy smsg (by simp [queue]))
          obtain rfl := Except.ok.inj (called.symm.trans moved)
          refine ⟨intact.role, intact.slave, intact.kept, fun _ => subscribed,
            fun later member => ?_, done ++ [smsg.content], ?_, ?_⟩
          · obtain ⟨begins, nonempty, id⟩ := intact.fresh later (by simp [queue, member])
            exact ⟨begins, nonempty, id⟩
          · simp [queued, queue]
          · simp [socket]

/-- What a queue of messages is promised: the link stays, the socket has got whole messages
from the beginning of the queue on, all of them once the queue is empty, and each further
call adds the next one. -/
structure Complete (link : Outgoing) : Prop where
  kept : link.error = false
  whole : ∃ done, link.queued = done ++ link.imsgQ.map Buffer.content ∧
    link.socket = done.flatten
  begins : link.socket <+: link.queued.flatten
  ends : link.imsgQ = [] → link.socket = link.queued.flatten
  next : ∀ smsg rest, link.imsgQ = smsg :: rest → ∀ writes,
    taken writes smsg.size = smsg.size → ∃ next, link.step (.writable writes) = .ok next ∧
      next.imsgQ = rest ∧ next.socket = link.socket ++ smsg.content

theorem Intact.complete (intact : link.Intact) : link.Complete := by
  obtain ⟨done, queued, socket⟩ := intact.whole
  refine ⟨intact.kept, intact.whole, ?_, fun empty => ?_, fun smsg rest queue writes room => ?_⟩
  · rw [queued, socket, List.flatten_append]
    exact List.prefix_append _ _
  · rw [queued, socket, empty, List.map_nil, List.append_nil]
  · obtain ⟨omsgQ, called⟩ := step_whole intact.role intact.slave intact.kept
      (intact.subscribed (by simp [queue])) queue (intact.fresh smsg (by simp [queue])) room
    exact ⟨_, called, rfl, rfl⟩

end Outgoing

/-- Where each call finds a socket with room for the message at the front of the queue, short
writes lose nothing. -/
theorem roomy_sockets_lose_nothing {nwFunc : NwFunc} {isMaster : Bool} {link : Outgoing}
    (role : nwFunc ≠ .unset) (slave : nwFunc = .replica → isMaster = false)
    (run : Transition.Runs Outgoing.step Outgoing.Roomy { nwFunc, isMaster } link) :
    link.Complete := by
  refine (run.invariant Outgoing.Intact ?_ ?_).complete
  · intro link event next intact roomy moved
    exact intact.step roomy moved
  · exact ⟨role, slave, rfl, by simp, by simp, [], rfl, rfl⟩

/-- Two messages for a slave: the first in two short writes, the second still queued. -/
theorem roomy_sockets_lose_nothing_sample : ∃ link : Outgoing,
    link.socket = [1, 2] ∧ link.queued = [[1, 2], [3]] ∧ link.Complete := by
  obtain ⟨link, run, post⟩ := Transition.Runs.exists_of_exec Outgoing.step Outgoing.Roomy
    { nwFunc := .replica }
    [.push [1, 2], .push [3], .writable [.interrupted, .accepts 1, .accepts 5]]
    (fun link => link.socket = [1, 2] ∧ link.queued = [[1, 2], [3]]) (by decide)
  obtain ⟨socket, queued⟩ := of_decide_eq_true post
  exact ⟨link, socket, queued, roomy_sockets_lose_nothing (by decide) (by decide) run⟩

/-- A socket that has room for one byte of a request gets this byte and then the next request;
one that has no room at all is dropped. -/
theorem full_socket_loses_bytes : ∃ truncated dropped : Outgoing,
    Transition.Runs Outgoing.step (fun _ _ => True) { nwFunc := .response } truncated ∧
      truncated.imsgQ = [] ∧ truncated.queued = [[1, 2], [3]] ∧ truncated.socket = [1, 3] ∧
    Transition.Runs Outgoing.step (fun _ _ => True) { nwFunc := .response } dropped ∧
      dropped.error = true ∧ dropped.queued = [[1, 2]] ∧ dropped.socket = [] := by
  obtain ⟨truncated, cut, post⟩ := Transition.Runs.exists_of_exec Outgoing.step
    (fun _ _ => True) { nwFunc := .response }
    [.push [1, 2], .push [3], .writable [.accepts 1, .wouldBlock], .writable [.accepts 9]]
    (fun link => link.imsgQ = [] ∧ link.queued = [[1, 2], [3]] ∧ link.socket = [1, 3])
    (by decide)
  obtain ⟨empty, queued, socket⟩ := of_decide_eq_true post
  obtain ⟨dropped, gone, post⟩ := Transition.Runs.exists_of_exec Outgoing.step
    (fun _ _ => True) { nwFunc := .response } [.push [1, 2], .writable [.wouldBlock]]
    (fun link => link.error = true ∧ link.queued = [[1, 2]] ∧ link.socket = []) (by decide)
  obtain ⟨error, lost, nothing⟩ := of_decide_eq_true post
  exact ⟨truncated, dropped, cut, empty, queued, socket, gone, error, lost, nothing⟩

end BespoKV.Sockets
