import BespoKV.LibCkv.Batches

/-!
# A call with one key

A client of one connection, with its server, has a small model of its own in
`BespoKV.LibCkv.Connection`.  It is the pool's: the loop of `waitPoll` over one file descriptor
does to the pool's connection what the events of the socket do to the client's, fault for fault,
and a call of the pool with one key is a call of the client.
-/

namespace BespoKV.LibCkv

open Fallible
open Wire

/-- The buffers of a connection of the pool. -/
def PoolConn.buffers (conn : PoolConn) : Connection where
  input := conn.input
  writeBuf := conn.writeBuf
  retrievalResults := conn.retrievalResults
  messageResults := conn.messageResults

/-- The call in progress has returned the results that its connection holds. -/
def World.HandsOut (world : World) : Prop :=
  ∃ entry ∈ world.returned, entry.call = world.current ∧
    entry.retrievalResults = world.conn.retrievalResults ∧
    entry.messageResults = world.conn.messageResults

/-- The client is where the loop of `waitPoll` over one file descriptor is: it has the same
buffers, waits for the same events, and has returned when no connection is active. -/
structure World.Follows (world : World) (fd : PollFd) (waiting : Waiting) : Prop where
  buffers : world.conn.markDead = (waiting.conns fd.conn).buffers
  awaited : (waiting.conns fd.conn).counter ≠ 0
  stage : (waiting.nActiveConn = 1 ∧ waiting.retCode = .ok ∧
      world.phase = .polling fd.out fd.inn) ∨
    (waiting.nActiveConn = 0 ∧ world.phase = .returned true ∧
      (waiting.retCode = .ok → world.HandsOut))

/-- The result of a part of the loop body, and the client after it. -/
def FollowsResult (result : PollFd × Waiting) (world : World) : Prop :=
  world.Follows result.1 result.2

namespace World.Follows

variable {proto : Protobuf} {answers : Nat → Reply} {world next : World} {waiting after : Waiting}
variable {fd now : PollFd} {out inn : Bool}

theorem writeBuf (follows : world.Follows fd waiting) :
    world.conn.writeBuf = (waiting.conns fd.conn).writeBuf :=
  congrArg Connection.writeBuf follows.buffers

theorem input (follows : world.Follows fd waiting) :
    world.conn.input = (waiting.conns fd.conn).input :=
  congrArg Connection.input follows.buffers

theorem polling (follows : world.Follows fd waiting) (polls : world.phase = .polling out inn) :
    waiting.nActiveConn = 1 ∧ waiting.retCode = .ok ∧ fd.out = out ∧ fd.inn = inn := by
  rcases follows.stage with ⟨active, ok, phase⟩ | ⟨-, phase, -⟩
  · cases polls.symm.trans phase
    exact ⟨active, ok, rfl, rfl⟩
  · cases polls.symm.trans phase

/-- The events of the client that are none of the socket's. -/
theorem congr (follows : world.Follows fd waiting) (conn : next.conn = world.conn)
    (phase : next.phase = world.phase) (calls : next.calls = world.calls)
    (returned : next.returned = world.returned) : next.Follows fd waiting := by
  obtain ⟨buffers, awaited, stage⟩ := follows
  refine ⟨conn ▸ buffers, awaited, ?_⟩
  simpa only [phase, HandsOut, World.current, conn, calls, returned] using stage

theorem withErr (follows : world.Follows fd waiting) (err : ErrCode) :
    world.Follows fd { waiting with err } :=
  ⟨follows.buffers, follows.awaited, follows.stage⟩

/-- The connection is closed and the call returns an error. -/
theorem fail {single : Connection} {conn : PoolConn} (own : waiting.conns fd.conn = conn)
    (buffers : single.markDead = conn.buffers) (awaited : conn.counter ≠ 0)
    (active : waiting.nActiveConn = 1) {code : ErrCode} (failed : code ≠ .ok) :
    FollowsResult (waiting.markDeadConn fd code) (world.fail single) := by
  subst own
  refine ⟨buffers, awaited, .inr ⟨?_, rfl, fun ok => absurd ok failed⟩⟩
  simp [Waiting.markDeadConn, active]

/-- A reply is there, and the call returns it. -/
theorem reply (world : World) {single : Connection} {conn : PoolConn}
    (own : waiting.conns fd.conn = conn) (buffers : single.markDead = conn.buffers)
    (awaited : conn.counter ≠ 0) (active : waiting.nActiveConn = 1) (response : Option Reply) :
    FollowsResult ({ fd with inn := false },
        { waiting with nActiveConn := waiting.nActiveConn - 1 })
      { world with
        conn := single, phase := .returned true
        returned := world.returned ++
          [⟨world.current, response, single.retrievalResults, single.messageResults⟩] } := by
  subst own
  refine ⟨buffers, awaited, .inr ⟨?_, rfl, fun _ => ?_⟩⟩
  · dsimp only
    rw [active]
    rfl
  · exact ⟨_, List.mem_append_right _ (List.mem_singleton_self _), rfl, rfl, rfl⟩

/-- The call waits on. -/
theorem more {single : Connection} {conn : PoolConn} (own : waiting.conns fd.conn = conn)
    (buffers : single.markDead = conn.buffers) (awaited : conn.counter ≠ 0)
    (stage : waiting.nActiveConn = 1 ∧ waiting.retCode = .ok ∧
      world.phase = .polling fd.out fd.inn) :
    FollowsResult (fd, waiting) { world with conn := single } := by
  subst own
  exact ⟨buffers, awaited, .inl stage⟩

/-- `send_msg` and what follows it. -/
theorem write (follows : world.Follows fd waiting) (polls : world.phase = .polling true inn)
    (sent : SendResult) :
    Agree FollowsResult (waiting.pollOut proto fd sent) (world.write proto sent) := by
  obtain ⟨active, ok, out, -⟩ := follows.polling polls
  have awaited := follows.awaited
  have cleared : ({ world.conn with writeBuf := none } : Connection).markDead =
      ({ waiting.conns fd.conn with writeBuf := none } : PoolConn).buffers :=
    congrArg (fun conn : Connection => { conn with writeBuf := none }) follows.buffers
  cases buffered : (waiting.conns fd.conn).writeBuf with
  | none =>
      simp only [Waiting.pollOut, World.write, follows.writeBuf, buffered]
      exact .error _
  | some request =>
      cases framed : sendMsg proto request with
      | error fault =>
          simp only [Waiting.pollOut, World.write, follows.writeBuf, buffered, framed]
          exact .error _
      | ok frame =>
          simp only [Waiting.pollOut, World.write, follows.writeBuf, buffered, framed,
            if_neg awaited]
          cases sent with
          | whole =>
              refine .ok ⟨?_, by simpa using awaited, .inl ⟨active, ok, rfl⟩⟩
              rw [Waiting.setConn_self]
              exact cleared
          | partly =>
              refine .ok ⟨?_, by simpa using awaited, .inl ⟨active, ok, by rw [out]⟩⟩
              rw [Waiting.setConn_self]
              exact cleared
          | failed =>
              exact .ok (fail (Waiting.setConn_self _ _ _) cleared awaited active (by decide))

/-- `process` and what follows it. -/
theorem process (follows : world.Follows fd waiting) (polls : world.phase = .polling out inn) :
    Agree FollowsResult (waiting.process proto fd) (world.process proto waiting.err) := by
  obtain ⟨active, ok, rfl, rfl⟩ := follows.polling polls
  have awaited := follows.awaited
  cases parses : Client.parseResp proto (waiting.conns fd.conn).input with
  | error fault =>
      simp only [Waiting.process, World.process, follows.input, parses]
      exact .error _
  | ok outcome =>
      have parsed : ({ world.conn with
          input := outcome.rest
          retrievalResults := world.conn.retrievalResults ++ outcome.retrievalResults
          messageResults := world.conn.messageResults ++ outcome.messageResults } :
            Connection).markDead = ((waiting.conns fd.conn).parsed outcome).buffers :=
        congrArg (fun conn : Connection => { conn with
          input := outcome.rest
          retrievalResults := conn.retrievalResults ++ outcome.retrievalResults
          messageResults := conn.messageResults ++ outcome.messageResults }) follows.buffers
      have own (err : ErrCode) : ({ waiting.setConn fd.conn
          ((waiting.conns fd.conn).parsed outcome) with err } : Waiting).conns fd.conn =
            (waiting.conns fd.conn).parsed outcome :=
        Waiting.setConn_self waiting fd.conn _
      simp only [Waiting.process, World.process, follows.input, parses, Waiting.branch,
        Waiting.errAfter]
      cases outcome.err with
      | some code =>
          cases code with
          | ok => exact .ok (reply world (own .ok) parsed awaited active outcome.response)
          | incompleteBuffer => exact .ok (more (own _) parsed awaited ⟨active, ok, polls⟩)
      | none =>
          -- The uninitialised code decides.
          cases waiting.err with
          | ok => exact .ok (reply world (own .ok) parsed awaited active outcome.response)
          | incompleteBuffer => exact .ok (more (own _) parsed awaited ⟨active, ok, polls⟩)
          | programming => exact .ok (fail (own .programming) parsed awaited active (by decide))
          | server => exact .ok (fail (own .server) parsed awaited active (by decide))
          | invalidKey | poll | pollTimeout | connPoll | recv | send => exact .error _

/-- `recv_msg` and what follows it. -/
theorem read (follows : world.Follows fd waiting) (polls : world.phase = .polling out inn)
    (reads : List ReadResult) (frames : Nat) :
    Agree FollowsResult (waiting.pollIn proto fd reads)
      (world.read proto reads frames waiting.err) := by
  obtain ⟨active, ok, rfl, rfl⟩ := follows.polling polls
  have awaited := follows.awaited
  have filled (input : Bytes) : ({ world.conn with input } : Connection).markDead =
      ((waiting.conns fd.conn).received input).buffers :=
    congrArg (fun conn : Connection => { conn with input }) follows.buffers
  unfold Waiting.pollIn World.read
  dsimp only
  rw [follows.input]
  split
  · refine .ok (fail ?_ (filled _) ?_ ?_ ?_)
    · exact Waiting.setConn_self _ _ _
    · exact awaited
    · exact active
    · decide
  · refine process ⟨?_, ?_, .inl ⟨active, ok, polls⟩⟩ polls
    · rw [Waiting.setConn_self]
      exact filled _
    · rw [Waiting.setConn_self]
      exact awaited

end World.Follows

/-! ## Rounds of the loop -/

/-- What `poll` reports where an event of the socket happens, with the uninitialised `err`. -/
def Event.revents : Event → Option (Revents × ErrCode)
  | .broken => some ({ broken := true }, .ok)
  | .writable sent => some ({ out := some sent }, .ok)
  | .readable reads _ uninit => some ({ inn := some reads }, uninit)
  | .call _ _ | .answer | .destroy => none

/-- The event is among those that `poll` reports. -/
def Revents.Reports (revents : Revents) : Event → Prop
  | .broken => revents.broken = true
  | .writable sent => revents.out = some sent
  | .readable reads _ _ => revents.inn = some reads
  | .call _ _ | .answer | .destroy => False

/-- What is read are reply frames on the socket, and there is room for them. -/
def World.Offers (world : World) (revents : Revents) : Prop :=
  ∀ reads, revents.inn = some reads →
    ∃ frames, dataOf reads = (world.socket.take frames).flatten ∧
      world.conn.input.length + (dataOf reads).length ≤ 8192

namespace World.Follows

variable {proto : Protobuf} {answers : Nat → Reply} {world next : World} {waiting after : Waiting}
variable {fd now : PollFd} {out inn : Bool} {revents : Revents}

/-- An event of the socket is a round of the loop in which `poll` reports just this event. -/
theorem step (follows : world.Follows fd waiting) {event : Event} (inside : event ≠ .destroy)
    (moved : world.step proto answers event = .ok next) :
    (event.revents = none ∧ next.Follows fd waiting) ∨
      ∃ revents uninit now after, event.revents = some (revents, uninit) ∧
        waiting.nActiveConn = 1 ∧
        Waiting.pollOne proto revents { waiting with err := uninit } fd = .ok (now, after) ∧
        next.Follows now after := by
  cases event with
  | call request connects =>
      simp only [World.step] at moved
      split at moved
      next allowed =>
        rcases follows.stage with ⟨-, -, phase⟩ | ⟨-, phase, -⟩ <;> cases allowed.1.symm.trans phase
      · cases moved
  | broken =>
      simp only [World.step] at moved
      split at moved
      next polls =>
        cases moved
        have active := (follows.polling polls).1
        have failed : FollowsResult
            (Waiting.markDeadConn { waiting with err := .ok } fd .connPoll)
            (world.fail world.conn) := by
          have kept := follows.withErr .ok
          exact fail rfl kept.buffers kept.awaited active (by decide)
        exact .inr ⟨_, _, _, _, rfl, active, rfl, failed⟩
      · cases moved
  | writable sent =>
      simp only [World.step] at moved
      split at moved
      next polls =>
        obtain ⟨active, -, out, -⟩ := follows.polling polls
        have agree : Agree _ _ (world.write proto sent) := (follows.withErr .ok).write polls sent
        rw [moved] at agree
        obtain ⟨⟨now, after⟩, wrote, kept⟩ := agree.of_ok
        refine .inr ⟨_, _, now, after, rfl, active, ?_, kept⟩
        cases sent with
        | failed => simpa [Waiting.pollOne, out] using wrote
        | whole | partly => simp [Waiting.pollOne, out, wrote, Waiting.pollReadable]
      · cases moved
  | readable reads frames uninit =>
      simp only [World.step] at moved
      split at moved
      next polls =>
        split at moved
        · obtain ⟨active, -, -, inn⟩ := follows.polling polls
          have agree : Agree _ _ (world.read proto reads frames uninit) :=
            (follows.withErr uninit).read polls reads frames
          rw [moved] at agree
          obtain ⟨⟨now, after⟩, received, kept⟩ := agree.of_ok
          refine .inr ⟨_, _, now, after, rfl, active, ?_, kept⟩
          simpa [Waiting.pollOne, Waiting.pollReadable, inn] using received
        · cases moved
      · cases moved
  | answer =>
      simp only [World.step] at moved
      split at moved
      · cases moved
      · cases moved
        exact .inl ⟨rfl, follows.congr rfl rfl rfl rfl⟩
  | destroy => exact absurd rfl inside

/-- After a write the client waits for a reply; what can be read is as it was. -/
theorem offers_of_write {sent : SendResult} (sends : sent ≠ .failed)
    (written : world.write proto sent = .ok next) (offers : world.Offers revents) :
    (∃ out, next.phase = .polling out true) ∧ next.Offers revents := by
  unfold World.write at written
  split at written
  · cases written
  split at written
  · cases written
  cases sent with
  | whole | partly =>
      cases written
      exact ⟨⟨_, rfl⟩, offers⟩
  | failed => exact absurd rfl sends

theorem pollReadable (follows : world.Follows fd waiting) {asked : Bool}
    (polls : asked = true → ∃ out, world.phase = .polling out true) (offers : world.Offers revents)
    (moved : waiting.pollReadable proto asked revents.inn fd = .ok (now, after)) :
    ∃ next, Transition.Runs (World.step proto answers) (fun _ event => revents.Reports event)
      world next ∧ next.Follows now after := by
  unfold Waiting.pollReadable at moved
  split at moved
  next _ _ reads reported =>
    obtain ⟨out, polls⟩ := polls rfl
    obtain ⟨frames, taken, room⟩ := offers reads reported
    have agree : Agree _ (waiting.pollIn proto fd reads) _ := follows.read polls reads frames
    rw [moved] at agree
    obtain ⟨next, received, kept⟩ := agree.of_ok_left
    have step : world.step proto answers (.readable reads frames waiting.err) = .ok next := by
      simpa only [World.step, polls, if_pos (And.intro taken room)] using received
    have admitted : revents.Reports (.readable reads frames waiting.err) := reported
    exact ⟨next, .single admitted step, kept⟩
  · cases moved
    exact ⟨world, .refl world, follows⟩

/-- One round of the loop is a run of the client through events that `poll` has reported. -/
theorem pollOne (follows : world.Follows fd waiting) (polls : world.phase = .polling out inn)
    (offers : world.Offers revents)
    (moved : waiting.pollOne proto revents fd = .ok (now, after)) :
    ∃ next, Transition.Runs (World.step proto answers) (fun _ event => revents.Reports event)
      world next ∧ next.Follows now after := by
  obtain ⟨active, ok, rfl, rfl⟩ := follows.polling polls
  have write {sent : SendResult} {result : PollFd × Waiting} (out : fd.out = true)
      (reported : revents.out = some sent)
      (wrote : waiting.pollOut proto fd sent = .ok result) :
      ∃ next, Transition.Runs (World.step proto answers) (fun _ event => revents.Reports event)
        world next ∧ world.write proto sent = .ok next ∧ next.Follows result.1 result.2 := by
    rw [out] at polls
    have agree : Agree _ _ (world.write proto sent) := follows.write polls sent
    rw [wrote] at agree
    obtain ⟨next, written, kept⟩ := agree.of_ok_left
    have step : world.step proto answers (.writable sent) = .ok next := by
      simpa only [World.step, polls] using written
    have admitted : revents.Reports (.writable sent) := reported
    exact ⟨next, .single admitted step, written, kept⟩
  unfold Waiting.pollOne at moved
  split at moved
  next broken =>
    cases moved
    have step : world.step proto answers .broken = .ok (world.fail world.conn) := by
      simp only [World.step, polls]
    have admitted : revents.Reports .broken := broken
    exact ⟨_, .single admitted step,
      fail rfl follows.buffers follows.awaited active (by decide)⟩
  split at moved
  next out reported =>
    obtain ⟨next, run, -, kept⟩ := write out reported moved
    exact ⟨next, run, kept⟩
  next result sends out reported =>
    obtain ⟨⟨written, middle⟩, writes, reads⟩ := exists_of_bind moved
    obtain ⟨between, first, wrote, kept⟩ := write out reported writes
    obtain ⟨polls, offers⟩ := offers_of_write sends wrote offers
    obtain ⟨next, second, kept⟩ := kept.pollReadable (fun _ => polls) offers reads
    exact ⟨next, first.trans second, kept⟩
  next =>
    exact follows.pollReadable (fun inn => ⟨_, inn ▸ polls⟩) offers moved

end World.Follows

/-! ## Calls -/

/-- What `poll` returns while these events happen, one at a time. -/
def pollsOf (events : List Event) : List Poll :=
  events.filterMap fun event =>
    event.revents.map fun (revents, uninit) => .ready (fun _ => revents) uninit

theorem pollsOf_none {event : Event} (silent : event.revents = none) (events : List Event) :
    pollsOf (event :: events) = pollsOf events :=
  List.filterMap_cons_none (by rw [silent]; rfl)

theorem pollsOf_some {event : Event} {revents : Revents} {uninit : ErrCode}
    (reported : event.revents = some (revents, uninit)) (events : List Event) :
    pollsOf (event :: events) = .ready (fun _ => revents) uninit :: pollsOf events :=
  List.filterMap_cons_some (by rw [reported]; rfl)

/-- How far the loop of `waitPoll` has come where the client is in this state: it waits, or it has
returned and the client follows what it has left. -/
def World.Returns (world : World) : Option (ErrCode × PoolConn) → Prop
  | none => ∃ out inn, world.phase = .polling out inn
  | some (code, conn) => world.phase = .returned true ∧
      world.conn.markDead = conn.buffers ∧ (code = .ok → world.HandsOut)

/-- Events of the client, up to the return of its call, are a loop of `waitPoll`. -/
theorem World.Follows.loop {proto : Protobuf} {answers : Nat → Reply} {world last : World}
    {fd : PollFd} {waiting : Waiting} (follows : world.Follows fd waiting) {events : List Event}
    (inside : .destroy ∉ events)
    (executed : Transition.exec (World.step proto answers) (fun _ _ => True) world events =
      some last) :
    ∃ result, Waiting.loop proto (pollsOf events) waiting [fd] = .ok result ∧
      last.Returns (result.map fun (code, after) => (code, after.conns fd.conn)) := by
  induction events generalizing world fd waiting with
  | nil =>
      cases executed
      rw [Waiting.loop.eq_def]
      rcases follows.stage with ⟨active, -, phase⟩ | ⟨ended, phase, handsOut⟩
      · rw [if_neg (by rw [active]; decide)]
        exact ⟨none, rfl, _, _, phase⟩
      · rw [if_pos ended]
        exact ⟨some (waiting.retCode, waiting), rfl, phase, follows.buffers, handsOut⟩
  | cons event events ih =>
      rw [List.mem_cons, not_or] at inside
      simp only [Transition.exec, if_true] at executed
      split at executed
      next next moved =>
        rcases follows.step (Ne.symm inside.1) moved with
          ⟨silent, kept⟩ | ⟨revents, uninit, now, after, reported, active, round, kept⟩
        · rw [pollsOf_none silent]
          exact ih kept inside.2 executed
        · have same : now.conn = fd.conn := (Waiting.polled_of_pollOne round).isLocal.conn
          rw [pollsOf_some reported, Waiting.loop.eq_def, if_neg (by rw [active]; decide), ← same]
          simp only [Waiting.pollAll, round, ok_bind]
          exact ih kept inside.2 executed
      · cases executed

/-- A pool that has one request to send. -/
structure Pool.Loaded (pool : Pool) (id : ConnId) (request : Request) (input : Bytes) : Prop where
  nActiveConn : pool.nActiveConn = 1
  activeConns : pool.activeConns = [id]
  counter : (pool.conns id).counter ≠ 0
  buffers : (pool.conns id).buffers = { input, writeBuf := some request }

/-- A call with one key, the request it makes and its connection. -/
inductive Pool.Single (pool : Pool) (hashMd5 : Bytes → HashValue) (id : ConnId)
    (polls : List Poll) : Request → Call → Prop where
  | set {live : Liveness ConnId} {item : StorageItem} (selects : pool.Stores hashMd5 live item id) :
      Single pool hashMd5 id polls (.put item.key.bytes item.value) (.set live [item] polls)
  | get {live : Liveness ConnId} {item : RetrievalItem}
      (selects : pool.Retrieves hashMd5 live item id) (terminated : item.key.Terminated) :
      Single pool hashMd5 id polls (.get item.key.bytes) (.get live [item] polls)

namespace Pool

variable {proto : Protobuf} {hashMd5 : Bytes → HashValue} {live : Liveness ConnId}
variable {pool after : Pool} {id : ConnId} {request : Request}

theorem dispatchKey_of_selects {key : KeyArg} {whichReplica : Int} {rand : Nat}
    {fill : PoolConn → Except BespoKV.Fault PoolConn} {conn : PoolConn}
    (selects : pool.Selects hashMd5 live key whichReplica rand id)
    (fills : fill (pool.conns id) = .ok conn) :
    pool.dispatchKey hashMd5 live key whichReplica rand fill =
      .ok { pool with conns := Function.update pool.conns id conn } := by
  simp only [dispatchKey, if_pos selects.1, selects.2, fills]

/-- The second loop of a dispatch activates the one connection that has been filled. -/
theorem Idle.loaded (idle : pool.Idle) (inside : id ∈ pool.ids) {conn : PoolConn} {input : Bytes}
    (counter : 0 < conn.counter) (buffers : conn.buffers = { input, writeBuf := some request })
    (activated : Activated { pool with conns := Function.update pool.conns id conn } after
      pool.ids) : after.Loaded id request input := by
  have filtered : (pool.ids.filter fun other =>
      decide (0 < (Function.update pool.conns id conn other).counter)) = [id] := by
    have only : ∀ other ∈ pool.ids,
        decide (0 < (Function.update pool.conns id conn other).counter) = (other == id) := by
      intro other _
      by_cases same : other = id
      · simp [same, counter]
      · simp [same, (idle.clear other).counter]
    rw [List.filter_congr only, List.filter_beq,
      List.count_eq_one_of_mem pool.ids_nodup inside, List.replicate_one]
  obtain ⟨-, conns, activeConns, nActiveConn⟩ := activated
  dsimp only at activeConns nActiveConn
  rw [filtered, idle.activeConns] at activeConns
  rw [filtered, idle.nActiveConn] at nActiveConn
  have own : after.conns id = conn := by
    rw [conns]
    exact Function.update_self _ _ _
  exact ⟨nActiveConn, activeConns, by rw [own]; omega, by rw [own, buffers]⟩

theorem Idle.buffers (idle : pool.Idle) (id : ConnId) :
    (pool.conns id).buffers = { input := (pool.conns id).input } :=
  congrArg PoolConn.buffers (idle.clear id).symm

theorem Idle.storeOne (idle : pool.Idle) (inside : id ∈ pool.ids) {item : StorageItem}
    (selects : pool.Stores hashMd5 live item id) :
    ∃ after, pool.dispatchStorage hashMd5 live [item] = .ok after ∧
      after.Loaded id (.put item.key.bytes item.value) (pool.conns id).input := by
  have clear := idle.clear id
  have stored : pool.storeItem hashMd5 live item = .ok { pool with
      conns := Function.update pool.conns id
        (((pool.conns id).setBufPut item.key item.value).addRequestKey item.key) } :=
    dispatchKey_of_selects selects rfl
  refine ⟨_, by rw [Pool.dispatchStorage, List.foldlM_cons, stored]; rfl, ?_⟩
  rw [foldl_recount]
  · refine idle.loaded inside (Nat.succ_pos _) ?_ (activated _ _)
    exact congrArg (fun conn : Connection =>
      { conn with writeBuf := some (.put item.key.bytes item.value) }) (idle.buffers id)
  · intro other
    by_cases same : other = id
    · simp [same, PoolConn.addRequestKey, PoolConn.setBufPut, clear.counter, clear.requestKeys]
    · simp [same, (idle.clear other).counter, (idle.clear other).requestKeys]

theorem Idle.retrieveOne (idle : pool.Idle) (inside : id ∈ pool.ids) {item : RetrievalItem}
    (selects : pool.Retrieves hashMd5 live item id) (terminated : item.key.Terminated) :
    ∃ after, pool.dispatchRetrieval hashMd5 live [item] = .ok after ∧
      after.Loaded id (.get item.key.bytes) (pool.conns id).input := by
  obtain ⟨zero, cString⟩ := (KeyArg.cString_eq_iff selects.1).mpr terminated
  have retrieved : pool.retrieveItem hashMd5 live item = .ok { pool with
      conns := Function.update pool.conns id { pool.conns id with
        counter := (pool.conns id).counter + 1, writeBuf := some (.get item.key.bytes) } } := by
    refine dispatchKey_of_selects selects ?_
    rw [if_pos (congrArg Nat.succ (idle.clear id).counter), PoolConn.setBufGet, if_pos zero,
      cString]
  refine ⟨_, by rw [Pool.dispatchRetrieval, List.foldlM_cons, retrieved]; rfl, ?_⟩
  refine idle.loaded inside (Nat.succ_pos _) ?_ (activated _ _)
  exact congrArg (fun conn : Connection =>
    { conn with writeBuf := some (.get item.key.bytes) }) (idle.buffers id)

/-- The events of a call of the client are a call of the pool with this key: it still waits where
the client does, and otherwise both have returned with the same buffers and results. -/
theorem Idle.perform_single (idle : pool.Idle) (inside : id ∈ pool.ids) {call : Call}
    {answers : Nat → Reply} {world last : World} {events : List Event}
    (single : pool.Single hashMd5 id (pollsOf events) request call)
    (conn : world.conn.markDead = { input := (pool.conns id).input })
    (within : .destroy ∉ events)
    (executed : Transition.exec (World.step proto answers) (fun _ _ => True)
      (world.call request true) events = some last) :
    ∃ result, pool.perform proto hashMd5 call = .ok result ∧
      last.Returns (result.map fun (code, after) => (code, after.conns id)) := by
  have valid : isValidKey (keyOf request) = true := by
    cases single with
    | set selects => exact selects.1
    | get selects => exact selects.1
  -- Both kinds of calls load the connection and then wait.
  obtain ⟨loaded, begun, waits⟩ : ∃ loaded : Pool, pool.perform proto hashMd5 call =
      loaded.waitPoll proto (pollsOf events) ∧
        loaded.Loaded id request (pool.conns id).input := by
    cases single with
    | set selects =>
        obtain ⟨loaded, stored, full⟩ := idle.storeOne inside selects
        exact ⟨loaded, by rw [perform, Pool.set, stored, ok_bind], full⟩
    | get selects terminated =>
        obtain ⟨loaded, retrieved, full⟩ := idle.retrieveOne inside selects terminated
        exact ⟨loaded, by rw [perform, Pool.get, retrieved, ok_bind], full⟩
  have follows : (world.call request true).Follows { conn := id }
      ⟨loaded.conns, loaded.nActiveConn, .ok, .ok⟩ := by
    have alive : (world.conn.tryReconnect true).alive = true := by
      unfold Connection.tryReconnect
      split
      next alive => exact alive
      · rfl
    have same : (world.conn.tryReconnect true).markDead = world.conn.markDead := by
      unfold Connection.tryReconnect
      split <;> rfl
    simp only [World.call, if_pos valid, if_pos alive]
    refine ⟨?_, waits.counter, .inl ⟨waits.nActiveConn, rfl, rfl⟩⟩
    rw [waits.buffers]
    exact congrArg (fun conn : Connection => { conn with writeBuf := some request })
      (same.trans conn)
  obtain ⟨result, looped, returns⟩ := follows.loop within executed
  rw [begun, waitPoll, if_neg (by rw [waits.nActiveConn]; decide), waits.activeConns,
    List.map_singleton, looped, ok_bind]
  refine ⟨_, rfl, ?_⟩
  cases result with
  | none => exact returns
  | some result => exact returns

end Pool

end BespoKV.LibCkv
