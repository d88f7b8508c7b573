import BespoKV.LibCkv.Pool
import Mathlib.Algebra.Order.BigOperators.Group.List

/-!
# What a batched call has sent

A call returns `RET_OK` only after each active connection has sent the request in its buffer,
which is all that it sends, and received a reply.  Two different pairs for one connection are
the only way for a batched set to lose one: the buffer holds the later of them.
-/

namespace BespoKV.LibCkv

open Fallible
open Wire

/-- Two states of a connection between which nothing was sent. -/
structure PoolConn.SameBuffers (before after : PoolConn) : Prop where
  counter : after.counter = before.counter
  writeBuf : after.writeBuf = before.writeBuf
  sent : after.sent = before.sent

/-- The socket has taken the frame of a request. -/
def PoolConn.Sent (proto : Protobuf) (request : Request) (conn : PoolConn) : Prop :=
  ∃ frame, sendMsg proto request = .ok frame ∧ frame ∈ conn.sent

/-- The socket has taken nothing else. -/
def PoolConn.SentOnly (proto : Protobuf) (request : Request) (conn : PoolConn) : Prop :=
  ∃ frame, sendMsg proto request = .ok frame ∧ conn.sent = [frame]

theorem PoolConn.SentOnly.sent_iff {proto : Protobuf} {request other : Request} {conn : PoolConn}
    (only : conn.SentOnly proto request) :
    conn.Sent proto other ↔ sendMsg proto other = sendMsg proto request := by
  obtain ⟨frame, framed, all⟩ := only
  rw [framed, PoolConn.Sent, all]
  simp

/-- 1 while events are waited for, and then 0. -/
def PollFd.pending (fd : PollFd) : Int := if fd.out || fd.inn then 1 else 0

namespace Waiting

variable {proto : Protobuf} {waiting middle after : Waiting} {fd now last : PollFd}

/-! ## One file descriptor -/

@[simp] theorem setConn_self (waiting : Waiting) (id : ConnId) (conn : PoolConn) :
    (waiting.setConn id conn).conns id = conn := by
  simp [setConn]

theorem setConn_of_ne {id other : ConnId} (different : other ≠ id) (waiting : Waiting)
    (conn : PoolConn) : (waiting.setConn id conn).conns other = waiting.conns other := by
  simp [setConn, different]

theorem setConn_setConn (waiting : Waiting) (id : ConnId) (first second : PoolConn) :
    (waiting.setConn id first).setConn id second = waiting.setConn id second := by
  simp only [setConn, Function.update_idem]

/-- What `send_msg` and the statements after it can do. -/
inductive Wrote (proto : Protobuf) (waiting : Waiting) (fd : PollFd) :
    SendResult → PollFd → Waiting → Prop where
  | whole {request : Request} {frame : Bytes} {nActiveConn : Int}
      (buffered : (waiting.conns fd.conn).writeBuf = some request)
      (framed : sendMsg proto request = .ok frame)
      (replies : 0 < (waiting.conns fd.conn).counter → nActiveConn = waiting.nActiveConn) :
      Wrote proto waiting fd .whole { fd with out := false, inn := true }
        { waiting.setConn fd.conn { waiting.conns fd.conn with
            writeBuf := none, sent := (waiting.conns fd.conn).sent ++ [frame] } with nActiveConn }
  | partly (conn : PoolConn) :
      Wrote proto waiting fd .partly { fd with inn := true } (waiting.setConn fd.conn conn)
  | failed (conn : PoolConn) :
      Wrote proto waiting fd .failed ((waiting.setConn fd.conn conn).markDeadConn fd .send).1
        ((waiting.setConn fd.conn conn).markDeadConn fd .send).2

theorem wrote_of_pollOut {result : SendResult}
    (moved : waiting.pollOut proto fd result = .ok (now, after)) :
    Wrote proto waiting fd result now after := by
  unfold pollOut at moved
  dsimp only at moved
  split at moved
  · cases moved
  next request buffered =>
    split at moved
    · cases moved
    next frame framed =>
      cases result with
      | failed =>
          cases moved
          exact .failed _
      | partly =>
          cases moved
          exact .partly _
      | whole =>
          cases moved
          split
          next none =>
            exact .whole buffered framed fun positive => absurd none (Nat.ne_of_gt positive)
          · exact .whole buffered framed fun _ => rfl

/-- What `recv_msg`, `process` and the statements after them can do. -/
inductive Received (waiting : Waiting) (fd : PollFd) : PollFd → Waiting → Prop where
  | reply {conn : PoolConn} (err : ErrCode) (same : (waiting.conns fd.conn).SameBuffers conn) :
      Received waiting fd { fd with inn := false }
        { waiting.setConn fd.conn conn with err, nActiveConn := waiting.nActiveConn - 1 }
  | more {conn : PoolConn} (err : ErrCode) (same : (waiting.conns fd.conn).SameBuffers conn) :
      Received waiting fd fd { waiting.setConn fd.conn conn with err }
  | dead (conn : PoolConn) (err : ErrCode) {code : ErrCode} (failed : code ≠ .ok) :
      Received waiting fd
        ({ waiting.setConn fd.conn conn with err }.markDeadConn fd code).1
        ({ waiting.setConn fd.conn conn with err }.markDeadConn fd code).2

theorem received_of_branch {conn : PoolConn} {err : ErrCode}
    (same : (waiting.conns fd.conn).SameBuffers conn)
    (moved : branch { waiting.setConn fd.conn conn with err } fd = .ok (now, after)) :
    Received waiting fd now after := by
  cases err with
  | ok =>
      cases moved
      exact .reply .ok same
  | incompleteBuffer =>
      cases moved
      exact .more .incompleteBuffer same
  | programming =>
      cases moved
      exact .dead conn .programming nofun
  | server =>
      cases moved
      exact .dead conn .server nofun
  | invalidKey | poll | pollTimeout | connPoll | recv | send => cases moved

theorem received_of_pollIn {reads : List ReadResult}
    (moved : waiting.pollIn proto fd reads = .ok (now, after)) :
    Received waiting fd now after := by
  unfold pollIn at moved
  dsimp only at moved
  split at moved
  · cases moved
    exact .dead _ waiting.err nofun
  · unfold process at moved
    dsimp only at moved
    split at moved
    · cases moved
    · rw [setConn_setConn, setConn_self] at moved
      refine received_of_branch ?_ moved
      exact ⟨rfl, rfl, rfl⟩

/-- Work on one file descriptor touches one connection, and an error code is not taken back. -/
structure Local (waiting after : Waiting) (fd now : PollFd) : Prop where
  conn : now.conn = fd.conn
  frame : ∀ id, id ≠ fd.conn → after.conns id = waiting.conns id
  code : after.retCode = .ok → waiting.retCode = .ok

theorem Local.refl : Local waiting waiting fd fd := ⟨rfl, fun _ _ => rfl, id⟩

theorem Local.trans (first : Local waiting middle fd now) (second : Local middle after now last) :
    Local waiting after fd last where
  conn := second.conn.trans first.conn
  frame id other := (second.frame id (first.conn ▸ other)).trans (first.frame id other)
  code ok := first.code (second.code ok)

theorem Wrote.isLocal {result : SendResult} (wrote : Wrote proto waiting fd result now after) :
    Local waiting after fd now := by
  cases wrote with
  | whole => exact ⟨rfl, fun _ other => setConn_of_ne other waiting _, id⟩
  | partly => exact ⟨rfl, fun _ other => setConn_of_ne other waiting _, id⟩
  | failed => exact ⟨rfl, fun _ other => setConn_of_ne other waiting _, nofun⟩

theorem Received.isLocal (received : Received waiting fd now after) :
    Local waiting after fd now := by
  cases received with
  | reply => exact ⟨rfl, fun _ other => setConn_of_ne other waiting _, id⟩
  | more => exact ⟨rfl, fun _ other => setConn_of_ne other waiting _, id⟩
  | dead _ _ failed =>
      exact ⟨rfl, fun _ other => setConn_of_ne other waiting _, fun ok => absurd ok failed⟩

theorem received_of_pollReadable {inn : Bool} {reported : Option (List ReadResult)}
    (moved : waiting.pollReadable proto inn reported fd = .ok (now, after)) :
    (now = fd ∧ after = waiting) ∨ inn = true ∧ Received waiting fd now after := by
  unfold pollReadable at moved
  split at moved
  · exact .inr ⟨rfl, received_of_pollIn moved⟩
  · cases moved
    exact .inl ⟨rfl, rfl⟩

/-- What the body of the loop over file descriptors can do. -/
inductive Polled (proto : Protobuf) (revents : Revents) (waiting : Waiting) (fd : PollFd) :
    PollFd → Waiting → Prop where
  | none : Polled proto revents waiting fd fd waiting
  | broken : Polled proto revents waiting fd (waiting.markDeadConn fd .connPoll).1
      (waiting.markDeadConn fd .connPoll).2
  | wrote {result : SendResult} {now : PollFd} {after : Waiting} (out : fd.out = true)
      (reported : revents.out = some result) (done : Wrote proto waiting fd result now after) :
      Polled proto revents waiting fd now after
  | received {now : PollFd} {after : Waiting} (inn : fd.inn = true)
      (done : Received waiting fd now after) : Polled proto revents waiting fd now after
  | both {result : SendResult} {now last : PollFd} {middle after : Waiting} (out : fd.out = true)
      (inn : fd.inn = true) (first : Wrote proto waiting fd result now middle)
      (second : Received middle now last after) : Polled proto revents waiting fd last after

theorem polled_of_pollOne {revents : Revents}
    (moved : waiting.pollOne proto revents fd = .ok (now, after)) :
    Polled proto revents waiting fd now after := by
  unfold pollOne at moved
  split at moved
  · cases moved
    exact .broken
  split at moved
  next out reported => exact .wrote out reported (wrote_of_pollOut moved)
  next result _ out reported =>
    obtain ⟨⟨written, middle⟩, writes, reads⟩ := exists_of_bind moved
    have wrote := wrote_of_pollOut writes
    rcases received_of_pollReadable reads with ⟨rfl, rfl⟩ | ⟨inn, received⟩
    · exact .wrote out reported wrote
    · exact .both out inn wrote received
  next =>
    rcases received_of_pollReadable moved with ⟨rfl, rfl⟩ | ⟨inn, received⟩
    · exact .none
    · exact .received inn received

theorem Polled.isLocal {revents : Revents} (polled : Polled proto revents waiting fd now after) :
    Local waiting after fd now := by
  cases polled with
  | none => exact .refl
  | broken => exact ⟨rfl, fun _ _ => rfl, nofun⟩
  | wrote _ _ done => exact done.isLocal
  | received _ done => exact done.isLocal
  | both _ _ first second => exact first.isLocal.trans second.isLocal

/-! ## Rounds without an error -/

/-- The request of a connection is in its buffer until the socket is writable, and is all that
has been sent afterwards. -/
structure Loaded (proto : Protobuf) (request : ConnId → Request) (waiting : Waiting)
    (fd : PollFd) : Prop where
  counter : 0 < (waiting.conns fd.conn).counter
  buffered : fd.out = true → fd.inn = false ∧
    (waiting.conns fd.conn).writeBuf = some (request fd.conn) ∧ (waiting.conns fd.conn).sent = []
  sent : fd.out = false → (waiting.conns fd.conn).SentOnly proto (request fd.conn)

variable {request : ConnId → Request} {revents : ConnId → Revents} {fds nows : List PollFd}

theorem Loaded.congr (loaded : Loaded proto request waiting fd)
    (same : after.conns fd.conn = waiting.conns fd.conn) : Loaded proto request after fd := by
  obtain ⟨counter, buffered, sent⟩ := loaded
  rw [← same] at counter buffered sent
  exact ⟨counter, buffered, sent⟩

theorem Wrote.loaded {result : SendResult} (loaded : Loaded proto request waiting fd)
    (out : fd.out = true) (full : result ≠ .partly)
    (wrote : Wrote proto waiting fd result now after) (ok : after.retCode = .ok) :
    Loaded proto request after now ∧
      after.nActiveConn - now.pending = waiting.nActiveConn - fd.pending := by
  cases wrote with
  | @whole _ frame _ buffered framed replies =>
      obtain ⟨idle, own, unsent⟩ := loaded.buffered out
      cases own.symm.trans buffered
      refine ⟨⟨?_, nofun, fun _ => ⟨frame, framed, ?_⟩⟩, ?_⟩
      · simpa using loaded.counter
      · simp [unsent]
      · simp [PollFd.pending, out, replies loaded.counter]
  | partly => exact absurd rfl full
  | failed => cases ok

theorem Received.loaded (loaded : Loaded proto request waiting fd) (inn : fd.inn = true)
    (received : Received waiting fd now after) (ok : after.retCode = .ok) :
    Loaded proto request after now ∧
      after.nActiveConn - now.pending = waiting.nActiveConn - fd.pending := by
  have written : fd.out = false := by
    by_contra waits
    have idle := (loaded.buffered (Bool.not_eq_false _ ▸ waits)).1
    rw [inn] at idle
    cases idle
  have sent := loaded.sent written
  cases received with
  | reply err same =>
      refine ⟨⟨?_, fun out => ?_, fun _ => ?_⟩, ?_⟩
      · simpa [same.counter] using loaded.counter
      · cases written.symm.trans out
      · simpa [PoolConn.SentOnly, same.sent] using sent
      · simp [PollFd.pending, written, inn]
  | more err same =>
      refine ⟨⟨?_, fun out => ?_, fun _ => ?_⟩, rfl⟩
      · simpa [same.counter] using loaded.counter
      · cases written.symm.trans out
      · simpa [PoolConn.SentOnly, same.sent] using sent
  | dead _ _ failed => exact absurd ok failed

/-- Where every send is whole, one file descriptor stays loaded, and the connection is counted
until its reply has come. -/
theorem Polled.loaded {revents : Revents} (full : revents.out ≠ some .partly)
    (loaded : Loaded proto request waiting fd)
    (polled : Polled proto revents waiting fd now after) (ok : after.retCode = .ok) :
    Loaded proto request after now ∧
      after.nActiveConn - now.pending = waiting.nActiveConn - fd.pending := by
  cases polled with
  | none => exact ⟨loaded, rfl⟩
  | broken => cases ok
  | wrote out reported done =>
      refine done.loaded loaded out ?_ ok
      rintro rfl
      exact full reported
  | received inn done => exact done.loaded loaded inn ok
  | both out inn =>
      have idle := (loaded.buffered out).1
      rw [inn] at idle
      cases idle

/-- A round touches the connections of its file descriptors. -/
structure Round (waiting after : Waiting) (fds nows : List PollFd) : Prop where
  conns : nows.map PollFd.conn = fds.map PollFd.conn
  frame : ∀ id, id ∉ fds.map PollFd.conn → after.conns id = waiting.conns id
  code : after.retCode = .ok → waiting.retCode = .ok

theorem pollAll_cons (moved : pollAll proto revents waiting (fd :: fds) = .ok (nows, after)) :
    ∃ now rest middle, nows = now :: rest ∧
      Polled proto (revents fd.conn) waiting fd now middle ∧
      pollAll proto revents middle fds = .ok (rest, after) := by
  obtain ⟨⟨now, middle⟩, first, moved⟩ := exists_of_bind moved
  obtain ⟨⟨rest, last⟩, second, moved⟩ := exists_of_bind moved
  cases moved
  exact ⟨now, rest, middle, rfl, polled_of_pollOne first, second⟩

theorem round_of_pollAll (moved : pollAll proto revents waiting fds = .ok (nows, after)) :
    Round waiting after fds nows := by
  induction fds generalizing waiting nows with
  | nil =>
      cases moved
      exact ⟨rfl, fun _ _ => rfl, id⟩
  | cons fd fds ih =>
      obtain ⟨now, rest, middle, rfl, polled, moved⟩ := pollAll_cons moved
      obtain ⟨conns, frame, code⟩ := ih moved
      have first := polled.isLocal
      refine ⟨?_, fun id outside => ?_, fun ok => first.code (code ok)⟩
      · rw [List.map_cons, List.map_cons, conns, first.conn]
      · rw [List.map_cons, List.mem_cons, not_or] at outside
        rw [frame id outside.2, first.frame id outside.1]

theorem pollAll_loaded (full : ∀ id, (revents id).out ≠ some .partly)
    (distinct : (fds.map PollFd.conn).Nodup)
    (loaded : ∀ fd ∈ fds, Loaded proto request waiting fd)
    (moved : pollAll proto revents waiting fds = .ok (nows, after)) (ok : after.retCode = .ok) :
    (∀ now ∈ nows, Loaded proto request after now) ∧
      after.nActiveConn - (nows.map PollFd.pending).sum =
        waiting.nActiveConn - (fds.map PollFd.pending).sum := by
  induction fds generalizing waiting nows with
  | nil =>
      cases moved
      exact ⟨loaded, rfl⟩
  | cons fd fds ih =>
      obtain ⟨now, rest, middle, rfl, polled, moved⟩ := pollAll_cons moved
      have round := round_of_pollAll moved
      have first := polled.isLocal
      rw [List.map_cons, List.nodup_cons] at distinct
      have others : ∀ other ∈ fds, Loaded proto request middle other := by
        intro other member
        refine (loaded other (List.mem_cons_of_mem _ member)).congr (first.frame _ ?_)
        rintro same
        exact distinct.1 (same ▸ List.mem_map_of_mem member)
      obtain ⟨own, count⟩ :=
        polled.loaded (full fd.conn) (loaded fd List.mem_cons_self) (round.code ok)
      obtain ⟨rests, counts⟩ := ih distinct.2 others moved
      refine ⟨fun entry member => ?_, ?_⟩
      · rcases List.mem_cons.mp member with rfl | member
        · -- The rest of the round has left the first connection alone.
          exact own.congr (round.frame _ (first.conn ▸ distinct.1))
        · exact rests entry member
      · rw [List.map_cons, List.map_cons, List.sum_cons, List.sum_cons]
        omega

/-- A relation between the start of the loop and its result, for all three ends of the loop and
for one more round. -/
theorem loop_induction {polls : List Poll} {code : ErrCode}
    (Rel : Waiting → List PollFd → ErrCode → Waiting → Prop)
    (stop : ∀ waiting fds, waiting.nActiveConn = 0 → Rel waiting fds waiting.retCode waiting)
    (fail : ∀ waiting fds code, code ≠ .ok → Rel waiting fds code waiting)
    (round : ∀ waiting fds revents uninit nows middle,
      .ready revents uninit ∈ polls →
      pollAll proto revents { waiting with err := uninit } fds = .ok (nows, middle) →
      Rel middle nows code after → Rel waiting fds code after)
    (returned : loop proto polls waiting fds = .ok (some (code, after))) :
    Rel waiting fds code after := by
  induction polls generalizing waiting fds with
  | nil =>
      rw [loop.eq_def] at returned
      split at returned
      next ended =>
        cases returned
        exact stop _ fds ended
      · cases returned
  | cons poll polls ih =>
      rw [loop.eq_def] at returned
      split at returned
      next ended =>
        cases returned
        exact stop _ fds ended
      · cases poll with
        | failed | timeout =>
            cases returned
            exact fail _ fds _ nofun
        | ready revents uninit =>
            obtain ⟨⟨nows, middle⟩, moved, returned⟩ := exists_of_bind returned
            refine round waiting fds revents uninit nows middle List.mem_cons_self moved ?_
            refine ih (fun waiting fds revents uninit nows middle member => ?_) returned
            exact round waiting fds revents uninit nows middle (List.mem_cons_of_mem _ member)

theorem sum_pending_eq_zero (none : (fds.map PollFd.pending).sum = 0) (member : fd ∈ fds) :
    fd.out = false := by
  have nonneg : ∀ count ∈ fds.map PollFd.pending, 0 ≤ count := by
    intro count inside
    obtain ⟨other, -, rfl⟩ := List.mem_map.mp inside
    unfold PollFd.pending
    split <;> decide
  have bounded := List.single_le_sum nonneg _ (List.mem_map_of_mem member)
  rw [none, PollFd.pending] at bounded
  split at bounded
  · exact absurd bounded (by decide)
  next idle => exact (Bool.or_eq_false_iff.mp (Bool.not_eq_true _ ▸ idle)).1

/-- Where every send is whole and the loop returns `RET_OK`, each connection has sent its
request and nothing else: it is counted until a reply has come. -/
theorem loop_sent (request : ConnId → Request) {polls : List Poll} {code : ErrCode}
    (full : ∀ revents uninit, .ready revents uninit ∈ polls →
      ∀ id, (revents id).out ≠ some .partly)
    (returned : loop proto polls waiting fds = .ok (some (code, after))) (ok : code = .ok) :
    waiting.retCode = .ok ∧ ((fds.map PollFd.conn).Nodup →
      (∀ fd ∈ fds, Loaded proto request waiting fd) →
      waiting.nActiveConn = (fds.map PollFd.pending).sum →
      ∀ id ∈ fds.map PollFd.conn, (after.conns id).SentOnly proto (request id)) := by
  refine loop_induction (fun waiting fds code after => code = .ok →
    waiting.retCode = .ok ∧ ((fds.map PollFd.conn).Nodup →
      (∀ fd ∈ fds, Loaded proto request waiting fd) →
      waiting.nActiveConn = (fds.map PollFd.pending).sum →
      ∀ id ∈ fds.map PollFd.conn, (after.conns id).SentOnly proto (request id)))
    ?_ ?_ ?_ returned ok
  · intro waiting fds ended ok
    refine ⟨ok, fun _ loaded count id inside => ?_⟩
    obtain ⟨fd, member, rfl⟩ := List.mem_map.mp inside
    exact (loaded fd member).sent (sum_pending_eq_zero (count ▸ ended) member)
  · exact fun _ _ _ failed ok => absurd ok failed
  · intro waiting fds revents uninit nows middle member moved rest ok
    obtain ⟨still, sent⟩ := rest ok
    have round := round_of_pollAll moved
    refine ⟨round.code still, fun distinct loaded count => ?_⟩
    have unread : ∀ fd ∈ fds, Loaded proto request { waiting with err := uninit } fd :=
      fun fd inside => (loaded fd inside).congr rfl
    obtain ⟨reloaded, counts⟩ :=
      pollAll_loaded (full revents uninit member) distinct unread moved still
    rw [← round.conns]
    refine sent (round.conns ▸ distinct) reloaded ?_
    dsimp only at counts
    omega

theorem loop_frame {polls : List Poll} {code : ErrCode}
    (returned : loop proto polls waiting fds = .ok (some (code, after))) {id : ConnId}
    (outside : id ∉ fds.map PollFd.conn) : after.conns id = waiting.conns id := by
  refine loop_induction (fun waiting fds _ after =>
    id ∉ fds.map PollFd.conn → after.conns id = waiting.conns id) ?_ ?_ ?_ returned outside
  · exact fun _ _ _ _ => rfl
  · exact fun _ _ _ _ _ => rfl
  · intro waiting fds revents uninit nows middle _ moved rest outside
    have round := round_of_pollAll moved
    rw [rest (round.conns ▸ outside)]
    exact round.frame id outside

end Waiting

/-- `send` takes every frame as a whole, or fails. -/
def Poll.FullSends : Poll → Prop
  | .ready revents _ => ∀ id, (revents id).out ≠ some .partly
  | .failed | .timeout => True

/-! ## The connections of a pool -/

theorem ContinuumItem.mem_of_replica {C : Type} {item : ContinuumItem C} {target : Int} {conn : C}
    (found : item.replica target = .ok conn) : conn ∈ item.row.replicas := by
  unfold ContinuumItem.replica at found
  split at found
  · cases found
    exact List.mem_cons_self
  split at found
  · split at found
    next other at? =>
      cases found
      exact List.mem_cons_of_mem _ (List.mem_of_getElem? at?)
    · cases found
  · cases found

namespace KetamaSelector

variable {C : Type} [DecidableEq C] {selector : KetamaSelector C} {hashMd5 : Bytes → HashValue}
variable {live : Liveness C} {key : Key} {checkAlive : Bool} {conn : C}

/-- The connection that is chosen is one of a row. -/
theorem mem_of_getConnReplica {whichReplica : Int} {rand : Nat}
    (chosen : selector.getConnReplica hashMd5 live key whichReplica checkAlive rand =
      .ok (some conn)) : ∃ item ∈ selector.continuum, conn ∈ item.row.replicas := by
  unfold getConnReplica getServerConnReplica at chosen
  split at chosen
  · cases chosen
  dsimp only at chosen
  split at chosen
  · cases chosen
  next item located =>
    split at chosen
    · cases chosen
    next ret found =>
      have same : ret = conn := by
        split_ifs at chosen <;> cases chosen <;> rfl
      exact ⟨item, List.mem_of_getElem? located, same ▸ ContinuumItem.mem_of_replica found⟩

theorem mem_of_getConn (chosen : selector.getConn hashMd5 live key checkAlive = .ok (some conn)) :
    ∃ item ∈ selector.continuum, conn ∈ item.row.replicas := by
  unfold getConn at chosen
  split at chosen
  · cases chosen
  · cases chosen
  next it _ =>
    obtain ⟨item, located, rfl⟩ := Option.map_eq_some_iff.mp (Except.ok.inj chosen)
    exact ⟨item, List.mem_of_getElem? located, List.mem_cons_self⟩

/-- A connection that is alive is not refused. -/
theorem getConnReplica_ne_none {whichReplica : Int} {rand : Nat}
    (alive : ∀ conn, live.alive conn = true) (sorted : selector.sorted = true)
    (servers : selector.nServers ≠ 0) :
    selector.getConnReplica hashMd5 live key whichReplica true rand ≠ .ok none := by
  intro chosen
  unfold getConnReplica getServerConnReplica at chosen
  cases located : selector.continuum[selector.locate hashMd5 key]? with
  | none => simp [sorted, servers, located] at chosen
  | some item =>
      cases found : item.replica (item.readTarget whichReplica rand) with
      | error => simp [sorted, servers, located, found] at chosen
      | ok ret => simp [sorted, servers, located, found, alive] at chosen

theorem getConn_ne_none (alive : ∀ conn, live.alive conn = true) (sorted : selector.sorted = true)
    (servers : selector.nServers ≠ 0) : selector.getConn hashMd5 live key true ≠ .ok none := by
  intro chosen
  unfold getConn getServerIt at chosen
  cases located : selector.continuum[selector.locate hashMd5 key]? with
  | none => simp [sorted, servers, located] at chosen
  | some item => simp [sorted, servers, located, alive] at chosen

end KetamaSelector

namespace Routing

variable {address : ConnId → Address} {hashMd5 : Bytes → HashValue}
variable {selector : KetamaSelector ConnId} {live : Liveness ConnId} {nConns nReplicas : Nat}
variable {getFrom setTo whichReplica : Int} {key : Key} {rand : Nat} {id : ConnId}

theorem ids_nodup (routing : Routing) : routing.ids.Nodup :=
  List.Nodup.product List.nodup_range List.nodup_range

theorem mem_ids {routing : Routing} :
    id ∈ routing.ids ↔ id.1 < routing.nConns ∧ id.2 < routing.nReplicas := by
  obtain ⟨idx, iidx⟩ := id
  simp [ids]

/-- A connection that is chosen is one of `m_conns_replica`. -/
theorem mem_ids_of_choose (replicas : 0 < nReplicas)
    (chosen : (initReplica address hashMd5 selector nConns nReplicas getFrom setTo).choose hashMd5
      live key whichReplica rand = .ok (some id)) :
    id ∈ (initReplica address hashMd5 selector nConns nReplicas getFrom setTo).ids := by
  obtain ⟨item, member, inside⟩ :
      ∃ item ∈ (selector.withHosts address hashMd5 (rows nConns nReplicas)).continuum,
        id ∈ item.row.replicas := by
    unfold choose at chosen
    split at chosen
    · exact KetamaSelector.mem_of_getConnReplica chosen
    · exact KetamaSelector.mem_of_getConn chosen
  have row := List.mem_of_getElem? (KetamaSelector.row_of_mem_continuum member)
  obtain ⟨idx, bounded, made⟩ := List.mem_map.mp row
  rw [← made, HostRow.replicas, List.mem_cons, List.mem_map] at inside
  rw [mem_ids]
  rcases inside with rfl | ⟨iidx, small, rfl⟩
  · exact ⟨List.mem_range.mp bounded, replicas⟩
  · refine ⟨List.mem_range.mp bounded, ?_⟩
    have small := List.mem_range.mp small
    change iidx + 1 < nReplicas
    omega

theorem choose_ne_none (alive : ∀ conn, live.alive conn = true) (hosts : nConns ≠ 0) :
    (initReplica address hashMd5 selector nConns nReplicas getFrom setTo).choose hashMd5 live key
      whichReplica rand ≠ .ok none := by
  have servers : (selector.withHosts address hashMd5 (rows nConns nReplicas)).nServers ≠ 0 := by
    change (rows nConns nReplicas).length ≠ 0
    simpa [rows] using hosts
  unfold choose
  split
  · exact KetamaSelector.getConnReplica_ne_none alive rfl servers
  · exact KetamaSelector.getConn_ne_none alive rfl servers

end Routing

/-! ## Calls one after the other -/

/-- A call, with the connections that are alive and what `poll` returns. -/
inductive Call where
  | set (live : Liveness ConnId) (items : List StorageItem) (polls : List Poll)
  | get (live : Liveness ConnId) (items : List RetrievalItem) (polls : List Poll)

namespace Pool

variable {proto : Protobuf} {hashMd5 : Bytes → HashValue} {live : Liveness ConnId}
variable {pool middle after : Pool}

/-- A call -/
def perform (proto : Protobuf) (hashMd5 : Bytes → HashValue) (pool : Pool) :
    Call → Except BespoKV.Fault (Option (ErrCode × Pool))
  | .set live items polls => pool.set proto hashMd5 live items polls
  | .get live items polls => pool.get proto hashMd5 live items polls

/-- A call that returns, and the destruction of its results. -/
def call (proto : Protobuf) (hashMd5 : Bytes → HashValue) (pool : Pool) (call : Call) :
    Except BespoKV.Fault Pool := do
  match ← pool.perform proto hashMd5 call with
  | none => .error .disabled
  | some (_, pool) => return pool.reset

/-- Every connection that has been used is active. -/
def Covered (pool : Pool) : Prop :=
  ∀ id, id ∉ pool.activeConns → (pool.conns id).Clear

theorem waitPoll_covered {polls : List Poll} {code : ErrCode} (covered : pool.Covered)
    (returned : pool.waitPoll proto polls = .ok (some (code, after))) :
    after.toRouting = pool.toRouting ∧ after.Covered := by
  unfold waitPoll at returned
  split at returned
  · split at returned
    all_goals
      cases returned
      exact ⟨rfl, covered⟩
  obtain ⟨result, looped, returned⟩ := exists_of_bind returned
  cases result with
  | none => cases returned
  | some result =>
      obtain ⟨code, waiting⟩ := result
      cases returned
      refine ⟨rfl, fun id outside => ?_⟩
      have same : waiting.conns id = pool.conns id := by
        refine Waiting.loop_frame looped ?_
        simpa [Function.comp_def] using outside
      change (waiting.conns id).Clear
      rw [same]
      exact covered id outside

theorem Covered.reset (covered : pool.Covered) : pool.reset.Idle where
  clear id := by
    unfold Pool.reset
    dsimp only
    split
    · rfl
    next outside => exact covered id outside
  nActiveConn := rfl
  activeConns := rfl

/-- After a dispatch, every connection in use is active. -/
theorem Activated.covered {ι : Type} {Selects : ι → ConnId → Prop}
    {Picks : List ι → ConnId → ι → Prop} {Full : ι → PoolConn → Prop}
    {items : List ι} (activated : Activated middle after pool.ids)
    (dispatched : Dispatched Selects Picks Full pool items middle)
    (inside : ∀ id item, Picks items id item → id ∈ pool.ids)
    (positive : ∀ item conn, Full item conn → 0 < conn.counter) : after.Covered := by
  intro id outside
  rw [activated.conns]
  rcases dispatched.each id with ⟨clear, -⟩ | ⟨item, picked, full⟩
  · exact clear
  · refine absurd ?_ outside
    rw [activated.activeConns]
    refine List.mem_append_right _ (List.mem_filter.mpr ⟨inside id item picked, ?_⟩)
    exact decide_eq_true (positive item _ full)

section Calls

variable {address : ConnId → Address} {selector : KetamaSelector ConnId}
variable {nConns nReplicas : Nat} {getFrom setTo : Int}
variable (replicas : 0 < nReplicas)
variable (routing : pool.toRouting =
  .initReplica address hashMd5 selector nConns nReplicas getFrom setTo)
include replicas routing

theorem mem_ids_of_selects {key : KeyArg} {whichReplica : Int} {rand : Nat} {id : ConnId}
    (selects : pool.Selects hashMd5 live key whichReplica rand id) : id ∈ pool.ids := by
  have chosen := selects.2
  rw [routing] at chosen ⊢
  exact Routing.mem_ids_of_choose replicas chosen

/-- A call leaves an idle pool behind, with the same connections. -/
theorem Idle.call {call : Call} (idle : pool.Idle)
    (moved : pool.call proto hashMd5 call = .ok after) :
    after.Idle ∧ after.toRouting = pool.toRouting := by
  obtain ⟨result, called, moved⟩ := exists_of_bind moved
  cases result with
  | none => cases moved
  | some result =>
      obtain ⟨code, returned⟩ := result
      cases moved
      cases call with
      | set live items polls =>
          obtain ⟨dispatched, stores, waits⟩ := exists_of_bind called
          obtain ⟨middle, filled, activated⟩ := idle.dispatchStorage stores
          have covered := activated.covered filled
            (fun _ _ stores => mem_ids_of_selects replicas routing stores.2)
            (fun _ _ full => full.positive)
          obtain ⟨same, covered⟩ := waitPoll_covered covered waits
          exact ⟨covered.reset, same.trans (activated.routing.trans filled.routing)⟩
      | get live items polls =>
          obtain ⟨dispatched, retrieves, waits⟩ := exists_of_bind called
          obtain ⟨middle, filled, activated⟩ := idle.dispatchRetrieval retrieves
          have covered := activated.covered filled
            (fun _ _ first => mem_ids_of_selects replicas routing first.selects.2)
            (fun _ _ full => full.positive)
          obtain ⟨same, covered⟩ := waitPoll_covered covered waits
          exact ⟨covered.reset, same.trans (activated.routing.trans filled.routing)⟩

end Calls

/-- A pool that `init_replica` has made. -/
def init (routing : Routing) : Pool := { toRouting := routing }

/-- Between two calls, the pool is idle. -/
theorem idle_of_run {address : ConnId → Address} {selector : KetamaSelector ConnId}
    {nConns nReplicas : Nat} {getFrom setTo : Int} (replicas : 0 < nReplicas)
    (run : Transition.Runs (call proto hashMd5) (fun _ _ => True)
      (init (.initReplica address hashMd5 selector nConns nReplicas getFrom setTo)) pool) :
    pool.Idle ∧
      pool.toRouting = .initReplica address hashMd5 selector nConns nReplicas getFrom setTo := by
  refine run.invariant (fun pool => pool.Idle ∧
    pool.toRouting = .initReplica address hashMd5 selector nConns nReplicas getFrom setTo) ?_ ?_
  · rintro pool action after ⟨idle, routing⟩ - moved
    obtain ⟨idle, same⟩ := Idle.call replicas routing idle moved
    exact ⟨idle, same.trans routing⟩
  · exact ⟨⟨fun _ => rfl, rfl, rfl⟩, rfl⟩

/-- Every valid pair so far has been looked up. -/
structure LookedUp (pool : Pool) (hashMd5 : Bytes → HashValue) (live : Liveness ConnId)
    (done : List StorageItem) (state : Pool) : Prop where
  routing : state.toRouting = pool.toRouting
  each : ∀ item ∈ done, isValidKey item.key.bytes = true →
    (∃ id, pool.Stores hashMd5 live item id) ∨
      pool.choose hashMd5 live item.key.bytes pool.setToWhichReplica item.rand = .ok none

theorem LookedUp.storeItem {done : List StorageItem} {item : StorageItem}
    (looked : LookedUp pool hashMd5 live done middle)
    (moved : middle.storeItem hashMd5 live item = .ok after) :
    LookedUp pool hashMd5 live (done ++ [item]) after := by
  have which : middle.setToWhichReplica = pool.setToWhichReplica :=
    congrArg Routing.setToWhichReplica looked.routing
  rw [Pool.storeItem, which] at moved
  obtain ⟨routing, -, -, effect⟩ := dispatchKey_cases moved
  rw [looked.routing] at effect
  refine ⟨routing.trans looked.routing, fun entry member valid => ?_⟩
  rcases List.mem_append.mp member with old | new
  · exact looked.each entry old valid
  · cases List.mem_singleton.mp new
    rcases effect with ⟨-, unconnected⟩ | ⟨id, _, selected, -⟩
    · exact .inr (unconnected valid)
    · exact .inl ⟨id, selected⟩

theorem lookedUp_of_dispatchStorage {items : List StorageItem}
    (moved : pool.dispatchStorage hashMd5 live items = .ok after) :
    ∃ state, LookedUp pool hashMd5 live items state := by
  obtain ⟨middle, stored, -⟩ := exists_of_bind moved
  have start : LookedUp pool hashMd5 live [] pool := ⟨rfl, nofun⟩
  exact ⟨middle, foldlM_invariant (LookedUp pool hashMd5 live)
    (fun _ _ _ _ looked moved => looked.storeItem moved) start stored⟩

/-- `waitPoll` returns `RET_OK` only after every active connection has sent its request, and
nothing else. -/
theorem waitPoll_sent {polls : List Poll} (full : ∀ poll ∈ polls, poll.FullSends)
    (distinct : pool.activeConns.Nodup) (count : pool.nActiveConn = pool.activeConns.length)
    (ready : ∀ id ∈ pool.activeConns, 0 < (pool.conns id).counter ∧
      (pool.conns id).writeBuf ≠ none ∧ (pool.conns id).sent = [])
    (returned : pool.waitPoll proto polls = .ok (some (.ok, after))) :
    pool.activeConns ≠ [] ∧ ∀ id ∈ pool.activeConns, ∀ request,
      (pool.conns id).writeBuf = some request → (after.conns id).SentOnly proto request := by
  unfold waitPoll at returned
  split at returned
  · split at returned
    all_goals cases returned
  next active =>
    have nonempty : pool.activeConns ≠ [] := by
      intro none
      rw [none] at count
      exact active count
    refine ⟨nonempty, fun id member request buffered => ?_⟩
    obtain ⟨result, looped, returned⟩ := exists_of_bind returned
    cases result with
    | none => cases returned
    | some result =>
        obtain ⟨code, waiting⟩ := result
        cases returned
        have conns : (pool.activeConns.map fun conn => ({ conn } : PollFd)).map PollFd.conn =
            pool.activeConns := by simp [Function.comp_def]
        have pending : ((pool.activeConns.map fun conn => ({ conn } : PollFd)).map
            PollFd.pending).sum = pool.activeConns.length := by
          simp [Function.comp_def, PollFd.pending]
        have sent := (Waiting.loop_sent (fun id => ((pool.conns id).writeBuf).getD request)
          (fun revents uninit inside => full (.ready revents uninit) inside) looped rfl).2
        rw [conns, pending] at sent
        have loaded := sent distinct ?_ count id member
        · rwa [buffered] at loaded
        · intro fd inside
          obtain ⟨conn, active, rfl⟩ := List.mem_map.mp inside
          obtain ⟨positive, waits, unsent⟩ := ready conn active
          refine ⟨positive, fun _ => ⟨rfl, ?_, unsent⟩, nofun⟩
          obtain ⟨own, holds⟩ := Option.ne_none_iff_exists'.mp waits
          simp [holds]

/-- No connection is the one of two different pairs. -/
def Apart (pool : Pool) (hashMd5 : Bytes → HashValue) (live : Liveness ConnId)
    (items : List StorageItem) : Prop :=
  ∀ id, ∀ first ∈ items, ∀ second ∈ items, pool.Stores hashMd5 live first id →
    pool.Stores hashMd5 live second id → first.request = second.request

end Pool

/-- Different pairs have different frames. -/
theorem StorageItem.request_of_sendMsg {proto : Protobuf} {first second : StorageItem}
    (same : sendMsg proto first.request = sendMsg proto second.request) :
    first.request = second.request := by
  rw [sendMsg_eq, sendMsg_eq] at same
  have frames : first.request.framed proto = second.request.framed proto := Except.ok.inj same
  have type : getOpType first.request = getOpType second.request := rfl
  rw [Request.framed, Request.framed, type] at frames
  have payloads := Wire.frame_payload frames
  have parsed := congrArg proto.parseRequest payloads
  rw [proto.parse_request, proto.parse_request] at parsed
  exact Option.some.inj parsed

/-- Calls one after the other on a pool of connections that are all alive: a batched set that
returns `RET_OK` has sent every valid pair exactly if no connection is the one of two different
pairs. -/
theorem batched_set_sends_every_pair (proto : Protobuf) (address : ConnId → Address)
    (hashMd5 : Bytes → HashValue) (selector : KetamaSelector ConnId) {nConns nReplicas : Nat}
    (replicas : 0 < nReplicas) (getFrom setTo : Int) {pool after : Pool}
    (run : Transition.Runs (Pool.call proto hashMd5) (fun _ _ => True)
      (Pool.init (.initReplica address hashMd5 selector nConns nReplicas getFrom setTo)) pool)
    {live : Liveness ConnId} (alive : ∀ conn, live.alive conn = true)
    {items : List StorageItem} {polls : List Poll} (full : ∀ poll ∈ polls, poll.FullSends)
    (returned : pool.set proto hashMd5 live items polls = .ok (some (.ok, after))) :
    (∀ item ∈ items, isValidKey item.key.bytes = true → ∃ id,
      pool.Stores hashMd5 live item id ∧ (after.conns id).Sent proto item.request) ↔
    pool.Apart hashMd5 live items := by
  obtain ⟨idle, routing⟩ := Pool.idle_of_run replicas run
  obtain ⟨dispatched, stores, waits⟩ := exists_of_bind returned
  obtain ⟨middle, filled, activated⟩ := idle.dispatchStorage stores
  have active : dispatched.activeConns =
      pool.ids.filter fun id => 0 < (middle.conns id).counter := by
    rw [activated.activeConns, filled.activeConns, List.nil_append]
  have count : dispatched.nActiveConn = dispatched.activeConns.length := by
    rw [activated.nActiveConn, filled.nActiveConn, active, zero_add]
  have ready : ∀ id ∈ dispatched.activeConns, 0 < (dispatched.conns id).counter ∧
      (dispatched.conns id).writeBuf ≠ none ∧ (dispatched.conns id).sent = [] := by
    intro id inside
    rw [active, List.mem_filter, decide_eq_true_iff] at inside
    rw [activated.conns]
    rcases filled.each id with ⟨clear, -⟩ | ⟨other, -, loaded⟩
    · exact absurd clear.counter (Nat.ne_of_gt inside.2)
    · exact ⟨loaded.positive, by simp [loaded.writeBuf], loaded.sent⟩
  obtain ⟨nonempty, sent⟩ :=
    Pool.waitPoll_sent full (active ▸ pool.ids_nodup.filter _) count ready waits
  -- A connection that is selected has sent the frame of one of its pairs, and no other.
  have only : ∀ id item, item ∈ items → pool.Stores hashMd5 live item id →
      ∃ last ∈ items, pool.Stores hashMd5 live last id ∧
        (after.conns id).SentOnly proto last.request := by
    intro id item member selected
    rcases filled.each id with ⟨-, unselected⟩ | ⟨last, ⟨inside, chosen⟩, loaded⟩
    · exact absurd selected (unselected item member)
    · refine ⟨last, inside, chosen, sent id ?_ last.request ?_⟩
      · rw [active, List.mem_filter, decide_eq_true_iff]
        exact ⟨Pool.mem_ids_of_selects replicas routing selected, loaded.positive⟩
      · rw [activated.conns]
        exact loaded.writeBuf
  constructor
  · intro all id first inside second also selected selects
    obtain ⟨last, -, -, alone⟩ := only id first inside selected
    have same : ∀ item ∈ items, pool.Stores hashMd5 live item id →
        item.request = last.request := by
      intro item member here
      obtain ⟨other, chosen, whole⟩ := all item member here.1
      cases Option.some.inj (Except.ok.inj (chosen.2.symm.trans here.2))
      exact StorageItem.request_of_sendMsg (alone.sent_iff.mp whole)
    exact (same first inside selected).trans (same second also selects).symm
  · intro apart item member valid
    -- Some connection is active, so there are hosts, and the pair has its connection.
    obtain ⟨id, selected⟩ : ∃ id, pool.Stores hashMd5 live item id := by
      obtain ⟨state, looked⟩ := Pool.lookedUp_of_dispatchStorage stores
      refine (looked.each item member valid).resolve_right ?_
      have hosts : nConns ≠ 0 := by
        rintro rfl
        refine nonempty (active.trans ?_)
        rw [routing]
        rfl
      rw [routing]
      exact Routing.choose_ne_none alive hosts
    obtain ⟨last, inside, chosen, alone⟩ := only id item member selected
    refine ⟨id, selected, alone.sent_iff.mpr ?_⟩
    rw [apart id item member last inside selected chosen]

/-- A call has returned `RET_OK` and the pool passes a test. -/
def returnsOk (test : Pool → Bool) : Except BespoKV.Fault (Option (ErrCode × Pool)) → Bool
  | .ok (some (.ok, pool)) => test pool
  | _ => false

theorem exists_of_returnsOk {test : Pool → Bool}
    {result : Except BespoKV.Fault (Option (ErrCode × Pool))}
    (passes : returnsOk test result = true) :
    ∃ after, result = .ok (some (.ok, after)) ∧ test after = true := by
  unfold returnsOk at passes
  split at passes
  next after => exact ⟨after, rfl, passes⟩
  · cases passes

/-- One host with one connection. -/
def sampleRouting : Routing :=
  .initReplica (fun _ => ⟨[], [97], defaultPort, false⟩) (fun _ => 0) {} 1 1 0 0

/-- A reply to a PUT, in one read. -/
def sampleReads : List ReadResult :=
  [.data (frame putMessage (Protobuf.tagged.reply ⟨0, none⟩)), .wouldBlock]

/-- The request is sent, and then the reply is received. -/
def samplePolls : List Poll :=
  [.ready (fun _ => { out := some .whole }) .ok, .ready (fun _ => { inn := some sampleReads }) .ok]

theorem samplePolls_full : ∀ poll ∈ samplePolls, poll.FullSends := by
  simp [samplePolls, Poll.FullSends]

/-- Keys and points of the ring have the hash value of their first byte. -/
def firstByteHash (bytes : Bytes) : HashValue := Fin.ofNat (2 ^ 32) (bytes.headD 0).toNat

/-- Two hosts with one connection each. -/
def sampleHosts : Routing :=
  .initReplica (fun id => ⟨[], [if id.1 = 0 then 97 else 99], defaultPort, false⟩) firstByteHash {}
    2 1 0 0

/-- A pair for each of the hosts. -/
def sampleItems : List StorageItem :=
  [⟨sampleKey, [1], 0⟩, ⟨⟨[99, 0], 1, by decide⟩, [2], 0⟩]

theorem batched_set_sends_every_pair_sample :
    ∃ after, (Pool.init sampleHosts).set .tagged firstByteHash
        sampleLive sampleItems samplePolls = .ok (some (.ok, after)) ∧
      ∀ item ∈ sampleItems, isValidKey item.key.bytes = true → ∃ id,
        (Pool.init sampleHosts).Stores firstByteHash sampleLive item id ∧
          (after.conns id).Sent .tagged item.request := by
  have passes : returnsOk (fun _ => true) ((Pool.init sampleHosts).set .tagged
      firstByteHash sampleLive sampleItems samplePolls) = true := by
    decide +kernel
  obtain ⟨after, returned, -⟩ := exists_of_returnsOk passes
  have apart : (Pool.init sampleHosts).Apart firstByteHash sampleLive
      sampleItems := by
    have choices : sampleItems.map (fun item => (Pool.init sampleHosts).choose
        firstByteHash sampleLive item.key.bytes 0 item.rand) =
          [.ok (some (0, 0)), .ok (some (1, 0))] := by decide +kernel
    simp only [sampleItems, List.map_cons, List.map_nil, List.cons.injEq] at choices
    intro id first inside second also here there
    simp only [sampleItems, List.mem_cons, List.not_mem_nil, or_false] at inside also
    rcases inside with rfl | rfl <;> rcases also with rfl | rfl
    · rfl
    · cases choices.1.symm.trans here.2
      cases choices.2.1.symm.trans there.2
    · cases choices.1.symm.trans there.2
      cases choices.2.1.symm.trans here.2
    · rfl
  exact ⟨after, returned, (batched_set_sends_every_pair .tagged _ _ {} Nat.one_pos 0 0
    (.refl _) (fun _ => rfl) samplePolls_full returned).mpr apart⟩

/-- Two pairs for one connection: the call returns `RET_OK`, and only the second pair has been
sent. -/
theorem batched_set_loses_pair :
    ∃ after, (Pool.init sampleRouting).set .tagged (fun _ => 0) sampleLive sampleItems
        samplePolls = .ok (some (.ok, after)) ∧
      (∀ poll ∈ samplePolls, poll.FullSends) ∧
      (Pool.init sampleRouting).Stores (fun _ => 0) sampleLive ⟨sampleKey, [1], 0⟩ (0, 0) ∧
      ¬(after.conns (0, 0)).Sent .tagged (.put sampleKey.bytes [1]) := by
  have passes : returnsOk (fun after => decide ((after.conns (0, 0)).sent =
        [frame putMessage (Protobuf.tagged.request (.put [99] [2]))]))
      ((Pool.init sampleRouting).set .tagged (fun _ => 0) sampleLive sampleItems samplePolls) =
        true := by
    decide +kernel
  obtain ⟨after, returned, sent⟩ := exists_of_returnsOk passes
  refine ⟨after, returned, samplePolls_full, ⟨by decide, rfl⟩, ?_⟩
  rintro ⟨_, framed, inside⟩
  rw [of_decide_eq_true sent, List.mem_singleton] at inside
  subst inside
  exact absurd framed (by decide)

end BespoKV.LibCkv
