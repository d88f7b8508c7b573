import BespoKV.Datalet.Stores
import BespoKV.LibCkv.Connection
import BespoKV.LibCkv.Ketama

/-!
# Calls with many keys

`ConnectionPool` chooses a connection for every key of a call, writes the request into the one
`write_buf` of that connection, and then polls all connections that have something to send
until each of them has received a reply.  The pool is one made by `init_replica`.

A second request for a connection replaces the first one in its `write_buf`, and a GET takes
the key as a C string where a PUT takes it with its length.
-/

namespace BespoKV.LibCkv

open Fallible
open Wire

/-! ## The pool -/

/-- A key as a caller passes it: a pointer into a buffer, and a length. -/
structure KeyArg where
  buffer : Bytes
  len : Nat
  inside : len ≤ buffer.length

/-- The bytes up to the length: they are checked and hashed. -/
def KeyArg.bytes (key : KeyArg) : Key := key.buffer.take key.len

/-- The indices of a connection in `m_conns_replica`. -/
abbrev ConnId := Nat × Nat

/-- A `Connection` in a call, and the frames its socket has taken. -/
structure PoolConn where
  counter : Nat := 0
  requestKeys : List Key := []
  writeBuf : Option Request := none
  input : Bytes := []
  retrievalResults : List Value := []
  messageResults : List Client.MessageResult := []
  sent : List Bytes := []
  deriving DecidableEq, Repr

namespace PoolConn

/-- `setBufPut` -/
def setBufPut (conn : PoolConn) (key : KeyArg) (value : Value) : PoolConn :=
  { conn with writeBuf := some (.put key.bytes value) }

/-- `setBufGet`.  `std::string(key)` ends at the first zero, which is looked for past the end
of the buffer if there is none in it. -/
def setBufGet (conn : PoolConn) (key : KeyArg) : Except BespoKV.Fault PoolConn :=
  if 0 ∈ key.buffer then
    .ok { conn with writeBuf := some (.get (Datalet.cString key.buffer)) }
  else .error .undefined

/-- `addRequestKey` and the increment after it. -/
def addRequestKey (conn : PoolConn) (key : KeyArg) : PoolConn :=
  { conn with requestKeys := conn.requestKeys ++ [key.bytes], counter := conn.counter + 1 }

/-- The receive buffer after `recv_msg`. -/
def received (conn : PoolConn) (input : Bytes) : PoolConn := { conn with input }

/-- The results and the rest of the receive buffer after `parse_resp`. -/
def parsed (conn : PoolConn) (outcome : Client.Outcome) : PoolConn :=
  { conn with
    input := outcome.rest
    retrievalResults := conn.retrievalResults ++ outcome.retrievalResults
    messageResults := conn.messageResults ++ outcome.messageResults }

/-- `reset`, with which the record of one call ends; `input` stays. -/
def reset (conn : PoolConn) : PoolConn := { input := conn.input }

end PoolConn

/-- What `init_replica` sets. -/
structure Routing where
  nConns : Nat
  nReplicas : Nat
  connSelector : KetamaSelector ConnId
  getFromWhichReplica : Int
  setToWhichReplica : Int

/-- `ConnectionPool`.  `m_nActiveConn` is unsigned and only compared with zero. -/
structure Pool extends Routing where
  conns : ConnId → PoolConn := fun _ => {}
  nInvalidKey : Nat := 0
  nActiveConn : Int := 0
  activeConns : List ConnId := []

namespace Routing

/-- The rows of `m_conns_replica`. -/
def rows (nConns nReplicas : Nat) : List (HostRow ConnId) :=
  (List.range nConns).map fun idx =>
    ⟨(idx, 0), (List.range (nReplicas - 1)).map fun iidx => (idx, iidx + 1)⟩

/-- `init_replica` -/
def initReplica (address : ConnId → Address) (hashMd5 : Bytes → HashValue)
    (selector : KetamaSelector ConnId) (nConns nReplicas : Nat)
    (getFromWhichReplica setToWhichReplica : Int) : Routing :=
  { nConns, nReplicas, getFromWhichReplica, setToWhichReplica
    connSelector := selector.withHosts address hashMd5 (rows nConns nReplicas) }

/-- The order in which connections are visited. -/
def ids (routing : Routing) : List ConnId :=
  (List.range routing.nConns).flatMap fun idx =>
    (List.range routing.nReplicas).map fun iidx => (idx, iidx)

variable (hashMd5 : Bytes → HashValue) (live : Liveness ConnId)

/-- `conn` of a key -/
def choose (routing : Routing) (key : Key) (whichReplica : Int) (rand : Nat) :
    Except BespoKV.Fault (Option ConnId) :=
  if 1 < routing.nReplicas then
    routing.connSelector.getConnReplica hashMd5 live key whichReplica true rand
  else routing.connSelector.getConn hashMd5 live key true

end Routing

/-- A pair of a batched call, with the number `rand()` returns for it. -/
structure StorageItem where
  key : KeyArg
  value : Value
  rand : Nat

/-- A key of a call, with the number `rand()` returns for it. -/
structure RetrievalItem where
  key : KeyArg
  rand : Nat

namespace Pool

section Dispatch

variable (hashMd5 : Bytes → HashValue) (live : Liveness ConnId)

/-- One round of a loop over keys. -/
def dispatchKey (key : KeyArg) (whichReplica : Int) (rand : Nat)
    (fill : PoolConn → Except BespoKV.Fault PoolConn) (pool : Pool) :
    Except BespoKV.Fault Pool :=
  if isValidKey key.bytes then
    match pool.choose hashMd5 live key.bytes whichReplica rand with
    | .error fault => .error fault
    | .ok none => .ok pool
    | .ok (some id) =>
        match fill (pool.conns id) with
        | .error fault => .error fault
        | .ok conn => .ok { pool with conns := Function.update pool.conns id conn }
  else .ok { pool with nInvalidKey := pool.nInvalidKey + 1 }

/-- One round of the loop of `dispatchStorage`. -/
def storeItem (pool : Pool) (item : StorageItem) : Except BespoKV.Fault Pool :=
  pool.dispatchKey hashMd5 live item.key pool.setToWhichReplica item.rand fun conn =>
    .ok ((conn.setBufPut item.key item.value).addRequestKey item.key)

/-- One round of the loop of `dispatchRetrieval`: only the first key of a connection is
written into its buffer. -/
def retrieveItem (pool : Pool) (item : RetrievalItem) : Except BespoKV.Fault Pool :=
  pool.dispatchKey hashMd5 live item.key pool.getFromWhichReplica item.rand fun conn =>
    let conn := { conn with counter := conn.counter + 1 }
    if conn.counter = 1 then conn.setBufGet item.key else .ok conn

/-- A connection with something to send becomes active. -/
def activate (pool : Pool) (id : ConnId) : Pool :=
  if 0 < (pool.conns id).counter then
    { pool with
      nActiveConn := pool.nActiveConn + 1, activeConns := pool.activeConns ++ [id] }
  else pool

/-- The counter of a connection from now on is that of the replies. -/
def recount (pool : Pool) (id : ConnId) : Pool :=
  let conn := pool.conns id
  { pool with
    conns := Function.update pool.conns id { conn with counter := conn.requestKeys.length } }

/-- `dispatchStorage` -/
def dispatchStorage (pool : Pool) (items : List StorageItem) : Except BespoKV.Fault Pool := do
  let pool ← items.foldlM (storeItem hashMd5 live) pool
  return pool.ids.foldl (fun pool id => (pool.activate id).recount id) pool

/-- `dispatchRetrieval` -/
def dispatchRetrieval (pool : Pool) (items : List RetrievalItem) :
    Except BespoKV.Fault Pool := do
  let pool ← items.foldlM (retrieveItem hashMd5 live) pool
  return pool.ids.foldl activate pool

end Dispatch

/-- `reset` -/
def reset (pool : Pool) : Pool :=
  { pool with
    conns := fun id => if id ∈ pool.activeConns then (pool.conns id).reset else pool.conns id
    nActiveConn := 0, nInvalidKey := 0, activeConns := [] }

end Pool

/-! ## The loop of `waitPoll` -/

/-- A `pollfd_t` with its connection and the events it waits for. -/
structure PollFd where
  conn : ConnId
  out : Bool := true
  inn : Bool := false
  deriving DecidableEq, Repr

/-- What `poll` reports for a socket, and what `send` and `read` do there. -/
structure Revents where
  broken : Bool := false
  out : Option SendResult := none
  inn : Option (List ReadResult) := none
  deriving DecidableEq, Repr

/-- What `poll` returns.  With events comes the value of the uninitialised `err`. -/
inductive Poll where
  | failed
  | timeout
  | ready (revents : ConnId → Revents) (uninit : ErrCode)

/-- The variables of the loop. -/
structure Waiting where
  conns : ConnId → PoolConn
  nActiveConn : Int
  retCode : ErrCode := .ok
  err : ErrCode := .ok

namespace Waiting

/-- `markDeadConn` and the assignments after it. -/
def markDeadConn (waiting : Waiting) (fd : PollFd) (code : ErrCode) : PollFd × Waiting :=
  ({ fd with out := false, inn := false },
    { waiting with retCode := code, nActiveConn := waiting.nActiveConn - 1 })

/-- The state of one connection. -/
def setConn (waiting : Waiting) (id : ConnId) (conn : PoolConn) : Waiting :=
  { waiting with conns := Function.update waiting.conns id conn }

variable (proto : Protobuf)

/-- `send_msg` and what follows it. -/
def pollOut (waiting : Waiting) (fd : PollFd) (result : SendResult) :
    Except BespoKV.Fault (PollFd × Waiting) :=
  let conn := waiting.conns fd.conn
  match conn.writeBuf with
  -- The buffer has been cleared by a write that was not complete.
  | none => .error .check
  | some request =>
      match sendMsg proto request with
      | .error _ => .error .check
      | .ok frame =>
          match result with
          | .failed =>
              .ok ((waiting.setConn fd.conn { conn with writeBuf := none }).markDeadConn fd .send)
          | .partly =>
              .ok ({ fd with inn := true },
                waiting.setConn fd.conn { conn with writeBuf := none })
          | .whole =>
              let waiting := waiting.setConn fd.conn
                { conn with writeBuf := none, sent := conn.sent ++ [frame] }
              .ok ({ fd with out := false, inn := true },
                if conn.counter = 0 then
                  { waiting with nActiveConn := waiting.nActiveConn - 1 }
                else waiting)

/-- `err` after `process` -/
def errAfter (outcome : Client.Outcome) (err : ErrCode) : ErrCode :=
  match outcome.err with
  | some .ok => .ok
  | some .incompleteBuffer => .incompleteBuffer
  | none => err

/-- The branches on `err`. -/
def branch (waiting : Waiting) (fd : PollFd) : Except BespoKV.Fault (PollFd × Waiting) :=
  match waiting.err with
  | .ok => .ok ({ fd with inn := false },
      { waiting with nActiveConn := waiting.nActiveConn - 1 })
  | .incompleteBuffer => .ok (fd, waiting)
  | .programming | .server => .ok (waiting.markDeadConn fd waiting.err)
  | _ => .error .check

/-- `process` and what follows it. -/
def process (waiting : Waiting) (fd : PollFd) : Except BespoKV.Fault (PollFd × Waiting) :=
  let conn := waiting.conns fd.conn
  match Client.parseResp proto conn.input with
  | .error _ => .error .undefined
  | .ok outcome =>
      branch { waiting.setConn fd.conn (conn.parsed outcome) with
        err := errAfter outcome waiting.err } fd

/-- `recv_msg` and what follows it. -/
def pollIn (waiting : Waiting) (fd : PollFd) (reads : List ReadResult) :
    Except BespoKV.Fault (PollFd × Waiting) :=
  let conn := waiting.conns fd.conn
  let received := recvMsg reads 0 conn.input
  let waiting := waiting.setConn fd.conn (conn.received received.2)
  if received.1 = -1 ∨ received.1 = 0 then .ok (waiting.markDeadConn fd .recv)
  else waiting.process proto fd

/-- The part of the loop body for a socket that is reported as readable. -/
def pollReadable (inn : Bool) (reported : Option (List ReadResult)) (waiting : Waiting)
    (fd : PollFd) : Except BespoKV.Fault (PollFd × Waiting) :=
  match inn, reported with
  | true, some reads => waiting.pollIn proto fd reads
  | _, _ => .ok (fd, waiting)

/-- The body of the loop over file descriptors.  `poll` reports only what was asked for when
it was called. -/
def pollOne (revents : Revents) (waiting : Waiting) (fd : PollFd) :
    Except BespoKV.Fault (PollFd × Waiting) :=
  if revents.broken then .ok (waiting.markDeadConn fd .connPoll)
  else
    match fd.out, revents.out with
    | true, some .failed => waiting.pollOut proto fd .failed
    | true, some result => do
        let (now, waiting) ← waiting.pollOut proto fd result
        waiting.pollReadable proto fd.inn revents.inn now
    | _, _ => waiting.pollReadable proto fd.inn revents.inn fd

/-- The loop over file descriptors. -/
def pollAll (revents : ConnId → Revents) :
    Waiting → List PollFd → Except BespoKV.Fault (List PollFd × Waiting)
  | waiting, [] => .ok ([], waiting)
  | waiting, fd :: fds => do
      let (fd, waiting) ← waiting.pollOne proto (revents fd.conn) fd
      let (fds, waiting) ← pollAll revents waiting fds
      return (fd :: fds, waiting)

/-- The loop around `poll`, or `none` where it is still waiting. -/
def loop (polls : List Poll) (waiting : Waiting) (fds : List PollFd) :
    Except BespoKV.Fault (Option (ErrCode × Waiting)) :=
  if waiting.nActiveConn = 0 then .ok (some (waiting.retCode, waiting))
  else
    match polls with
    | [] => .ok none
    | .failed :: _ => .ok (some (.poll, waiting))
    | .timeout :: _ => .ok (some (.pollTimeout, waiting))
    | .ready revents uninit :: polls => do
        let (fds, waiting) ← pollAll proto revents { waiting with err := uninit } fds
        loop polls waiting fds

end Waiting

namespace Pool

variable (proto : Protobuf) (hashMd5 : Bytes → HashValue) (live : Liveness ConnId)

/-- `waitPoll` -/
def waitPoll (pool : Pool) (polls : List Poll) :
    Except BespoKV.Fault (Option (ErrCode × Pool)) :=
  if pool.nActiveConn = 0 then
    if 0 < pool.nInvalidKey then .ok (some (.invalidKey, pool))
    else .ok (some (.server, pool))
  else do
    let result ← Waiting.loop proto polls ⟨pool.conns, pool.nActiveConn, .ok, .ok⟩
      (pool.activeConns.map fun conn => { conn })
    return result.map fun (code, waiting) =>
      (code, { pool with conns := waiting.conns, nActiveConn := waiting.nActiveConn })

/-- `Client::set`, up to the results it hands out. -/
def set (pool : Pool) (items : List StorageItem) (polls : List Poll) :
    Except BespoKV.Fault (Option (ErrCode × Pool)) := do
  let pool ← pool.dispatchStorage hashMd5 live items
  pool.waitPoll proto polls

/-- `Client::get`, up to the results it hands out. -/
def get (pool : Pool) (items : List RetrievalItem) (polls : List Poll) :
    Except BespoKV.Fault (Option (ErrCode × Pool)) := do
  let pool ← pool.dispatchRetrieval hashMd5 live items
  pool.waitPoll proto polls

end Pool

/-! ## What a dispatch leaves in the buffers -/

/-- The key is valid, and this is its connection. -/
def Routing.Selects (routing : Routing) (hashMd5 : Bytes → HashValue) (live : Liveness ConnId)
    (key : KeyArg) (whichReplica : Int) (rand : Nat) (id : ConnId) : Prop :=
  isValidKey key.bytes = true ∧
    routing.choose hashMd5 live key.bytes whichReplica rand = .ok (some id)

/-- A connection that no call has used since the last `reset`. -/
def PoolConn.Clear (conn : PoolConn) : Prop := conn.reset = conn

/-- A pool between two calls. -/
structure Pool.Idle (pool : Pool) : Prop where
  clear : ∀ id, (pool.conns id).Clear
  nActiveConn : pool.nActiveConn = 0
  activeConns : pool.activeConns = []

/-- After some items of a call, the connections that none of them selects are clear, and each
of the others is full for the item, or one of the items, that is picked for it. -/
structure Pool.Dispatched {ι : Type} (Selects : ι → ConnId → Prop)
    (Picks : List ι → ConnId → ι → Prop) (Full : ι → PoolConn → Prop)
    (start : Pool) (done : List ι) (pool : Pool) : Prop where
  routing : pool.toRouting = start.toRouting
  nActiveConn : pool.nActiveConn = 0
  activeConns : pool.activeConns = []
  each : ∀ id, ((pool.conns id).Clear ∧ ∀ item ∈ done, ¬Selects item id) ∨
    ∃ item, Picks done id item ∧ Full item (pool.conns id)

namespace Pool

variable {hashMd5 : Bytes → HashValue} {live : Liveness ConnId} {pool start after : Pool}

/-- What one round of a loop over keys does. -/
theorem dispatchKey_cases {key : KeyArg} {whichReplica : Int} {rand : Nat}
    {fill : PoolConn → Except BespoKV.Fault PoolConn}
    (moved : pool.dispatchKey hashMd5 live key whichReplica rand fill = .ok after) :
    after.toRouting = pool.toRouting ∧ after.nActiveConn = pool.nActiveConn ∧
      after.activeConns = pool.activeConns ∧
      ((after.conns = pool.conns ∧ (isValidKey key.bytes = true →
          pool.choose hashMd5 live key.bytes whichReplica rand = .ok none)) ∨
        ∃ id conn, pool.Selects hashMd5 live key whichReplica rand id ∧
          fill (pool.conns id) = .ok conn ∧
          after.conns = Function.update pool.conns id conn) := by
  unfold dispatchKey at moved
  split at moved
  next valid =>
    split at moved
    · cases moved
    next unconnected =>
      cases moved
      exact ⟨rfl, rfl, rfl, .inl ⟨rfl, fun _ => unconnected⟩⟩
    next id chosen =>
      split at moved
      · cases moved
      next conn filled =>
        cases moved
        exact ⟨rfl, rfl, rfl, .inr ⟨id, conn, ⟨valid, chosen⟩, filled, rfl⟩⟩
  next invalid =>
    cases moved
    exact ⟨rfl, rfl, rfl, .inl ⟨rfl, fun valid => absurd valid invalid⟩⟩

theorem Idle.dispatched {ι : Type} {Selects : ι → ConnId → Prop}
    {Picks : List ι → ConnId → ι → Prop} {Full : ι → PoolConn → Prop}
    (idle : pool.Idle) : Dispatched Selects Picks Full pool [] pool where
  routing := rfl
  nActiveConn := idle.nActiveConn
  activeConns := idle.activeConns
  each id := .inl ⟨idle.clear id, fun _ member => (nomatch member)⟩

/-- One more item, where the first item of a connection is picked for it and fills it, and each
further one leaves it full for what was picked or for itself. -/
theorem Dispatched.dispatchKey {ι : Type} {Selects : ι → ConnId → Prop}
    {Picks : List ι → ConnId → ι → Prop} {Full : ι → PoolConn → Prop} {done : List ι} {item : ι}
    {key : KeyArg} {whichReplica : Int} {rand : Nat}
    {fill : PoolConn → Except BespoKV.Fault PoolConn}
    (dispatched : Dispatched Selects Picks Full start done pool)
    (selects : ∀ id, Selects item id ↔ start.Selects hashMd5 live key whichReplica rand id)
    (picked : ∀ id other, Picks done id other → Picks (done ++ [item]) id other)
    (first : ∀ id conn filled, Selects item id → (∀ other ∈ done, ¬Selects other id) →
      conn.Clear → fill conn = .ok filled → Picks (done ++ [item]) id item ∧ Full item filled)
    (again : ∀ id other conn filled, Selects item id → Full other conn →
      fill conn = .ok filled →
        Full other filled ∨ Picks (done ++ [item]) id item ∧ Full item filled)
    (moved : pool.dispatchKey hashMd5 live key whichReplica rand fill = .ok after) :
    Dispatched Selects Picks Full start (done ++ [item]) after := by
  obtain ⟨routing, nActiveConn, activeConns, effect⟩ := dispatchKey_cases moved
  rw [dispatched.routing] at effect
  refine ⟨routing.trans dispatched.routing, nActiveConn.trans dispatched.nActiveConn,
    activeConns.trans dispatched.activeConns, fun other => ?_⟩
  -- A connection the item does not select is as it was.
  have kept (same : after.conns other = pool.conns other)
      (unselected : ¬start.Selects hashMd5 live key whichReplica rand other) :
      ((after.conns other).Clear ∧ ∀ entry ∈ done ++ [item], ¬Selects entry other) ∨
        ∃ entry, Picks (done ++ [item]) other entry ∧ Full entry (after.conns other) := by
    rw [same]
    rcases dispatched.each other with ⟨clear, none⟩ | ⟨entry, chosen, full⟩
    · refine .inl ⟨clear, fun entry inside => ?_⟩
      rcases List.mem_append.mp inside with old | new
      · exact none entry old
      · rw [List.mem_singleton.mp new]
        exact mt (selects other).mp unselected
    · exact .inr ⟨entry, picked other entry chosen, full⟩
  rcases effect with ⟨conns, unconnected⟩ | ⟨id, filled, selected, fills, conns⟩
  · refine kept (congrFun conns other) fun selected => ?_
    cases (unconnected selected.1).symm.trans selected.2
  by_cases same : other = id
  · subst same
    have now : after.conns other = filled := by rw [conns, Function.update_self]
    rw [now]
    refine .inr ?_
    have chosen := (selects other).mpr selected
    rcases dispatched.each other with ⟨clear, none⟩ | ⟨entry, before, full⟩
    · exact ⟨item, first _ _ _ chosen none clear fills⟩
    · rcases again other entry _ _ chosen full fills with old | new
      · exact ⟨entry, picked other entry before, old⟩
      · exact ⟨item, new⟩
  · refine kept (by rw [conns, Function.update_of_ne same]) fun also => same ?_
    exact Option.some.inj (Except.ok.inj (also.2.symm.trans selected.2))

end Pool

/-- The request of a pair. -/
def StorageItem.request (item : StorageItem) : Request := .put item.key.bytes item.value

/-- The buffer holds the request of the pair, and nothing has been sent. -/
structure StorageItem.Full (item : StorageItem) (conn : PoolConn) : Prop where
  writeBuf : conn.writeBuf = some item.request
  counter : conn.counter = conn.requestKeys.length
  positive : 0 < conn.counter
  sent : conn.sent = []

/-- The buffer holds the key of the item, as far as a zero. -/
structure RetrievalItem.Full (item : RetrievalItem) (conn : PoolConn) : Prop where
  zero : 0 ∈ item.key.buffer
  writeBuf : conn.writeBuf = some (.get (Datalet.cString item.key.buffer))
  positive : 0 < conn.counter

namespace PoolConn.Clear

variable {conn : PoolConn} (clear : conn.Clear)
include clear

theorem counter : conn.counter = 0 := congrArg PoolConn.counter clear.symm

theorem requestKeys : conn.requestKeys = [] := congrArg PoolConn.requestKeys clear.symm

theorem sent : conn.sent = [] := congrArg PoolConn.sent clear.symm

end PoolConn.Clear

namespace Pool

variable {hashMd5 : Bytes → HashValue} {live : Liveness ConnId} {pool start after : Pool}

/-- The pair's connection. -/
def Stores (pool : Pool) (hashMd5 : Bytes → HashValue) (live : Liveness ConnId)
    (item : StorageItem) (id : ConnId) : Prop :=
  pool.Selects hashMd5 live item.key pool.setToWhichReplica item.rand id

/-- The key's connection. -/
def Retrieves (pool : Pool) (hashMd5 : Bytes → HashValue) (live : Liveness ConnId)
    (item : RetrievalItem) (id : ConnId) : Prop :=
  pool.Selects hashMd5 live item.key pool.getFromWhichReplica item.rand id

instance (pool : Pool) (hashMd5 : Bytes → HashValue) (live : Liveness ConnId)
    (item : RetrievalItem) (id : ConnId) : Decidable (pool.Retrieves hashMd5 live item id) :=
  inferInstanceAs (Decidable (_ ∧ _))

/-- A pair that selects the connection. -/
def StoresOne (pool : Pool) (hashMd5 : Bytes → HashValue) (live : Liveness ConnId)
    (items : List StorageItem) (id : ConnId) (item : StorageItem) : Prop :=
  item ∈ items ∧ pool.Stores hashMd5 live item id

/-- The first key of a call that selects the connection. -/
def RetrievesFirst (pool : Pool) (hashMd5 : Bytes → HashValue) (live : Liveness ConnId)
    (items : List RetrievalItem) (id : ConnId) (item : RetrievalItem) : Prop :=
  items.find? (fun item => pool.Retrieves hashMd5 live item id) = some item

theorem RetrievesFirst.append {items : List RetrievalItem} {id : ConnId} {item : RetrievalItem}
    (first : pool.RetrievesFirst hashMd5 live items id item) (later : List RetrievalItem) :
    pool.RetrievesFirst hashMd5 live (items ++ later) id item := by
  rw [RetrievesFirst, List.find?_append, first, Option.some_or]

theorem RetrievesFirst.of_none {items : List RetrievalItem} {id : ConnId} {item : RetrievalItem}
    (none : ∀ other ∈ items, ¬pool.Retrieves hashMd5 live other id)
    (selects : pool.Retrieves hashMd5 live item id) :
    pool.RetrievesFirst hashMd5 live (items ++ [item]) id item := by
  have before : items.find? (fun item => pool.Retrieves hashMd5 live item id) = Option.none :=
    List.find?_eq_none.mpr fun other member => by simpa using none other member
  rw [RetrievesFirst, List.find?_append, before, Option.none_or, List.find?_singleton,
    if_pos (decide_eq_true selects)]

theorem RetrievesFirst.selects {items : List RetrievalItem} {id : ConnId} {item : RetrievalItem}
    (first : pool.RetrievesFirst hashMd5 live items id item) :
    item ∈ items ∧ pool.Retrieves hashMd5 live item id :=
  ⟨List.mem_of_find?_eq_some first, by simpa using List.find?_some first⟩

/-- The loop of `dispatchStorage`: the last pair of a connection is in its buffer. -/
theorem Dispatched.storeItem {done : List StorageItem} {item : StorageItem}
    (dispatched : Dispatched (start.Stores hashMd5 live) (start.StoresOne hashMd5 live)
      StorageItem.Full start done pool)
    (moved : pool.storeItem hashMd5 live item = .ok after) :
    Dispatched (start.Stores hashMd5 live) (start.StoresOne hashMd5 live) StorageItem.Full start
      (done ++ [item]) after := by
  have which : pool.setToWhichReplica = start.setToWhichReplica :=
    congrArg Routing.setToWhichReplica dispatched.routing
  have member : item ∈ done ++ [item] := List.mem_append_right _ (List.mem_singleton_self _)
  rw [Pool.storeItem, which] at moved
  refine dispatched.dispatchKey (fun _ => Iff.rfl)
    (fun _ _ ⟨inside, selects⟩ => ⟨List.mem_append_left _ inside, selects⟩) ?_ ?_ moved
  · intro id conn filled selects _ clear fills
    cases fills
    exact ⟨⟨member, selects⟩, rfl, by simp [PoolConn.addRequestKey, PoolConn.setBufPut,
      clear.counter, clear.requestKeys], Nat.succ_pos _, clear.sent⟩
  · intro id other conn filled selects full fills
    cases fills
    exact .inr ⟨⟨member, selects⟩, rfl, by simp [PoolConn.addRequestKey, PoolConn.setBufPut,
      full.counter], Nat.succ_pos _, full.sent⟩

theorem Idle.stored {items : List StorageItem} (idle : pool.Idle)
    (moved : items.foldlM (storeItem hashMd5 live) pool = .ok after) :
    Dispatched (pool.Stores hashMd5 live) (pool.StoresOne hashMd5 live) StorageItem.Full pool
      items after :=
  foldlM_invariant (Dispatched (pool.Stores hashMd5 live) (pool.StoresOne hashMd5 live)
    StorageItem.Full pool) (fun _ _ _ _ dispatched moved => dispatched.storeItem moved)
    idle.dispatched moved

/-- The loop of `dispatchRetrieval`: the first key of a connection is in its buffer. -/
theorem Dispatched.retrieveItem {done : List RetrievalItem} {item : RetrievalItem}
    (dispatched : Dispatched (start.Retrieves hashMd5 live) (start.RetrievesFirst hashMd5 live)
      RetrievalItem.Full start done pool)
    (moved : pool.retrieveItem hashMd5 live item = .ok after) :
    Dispatched (start.Retrieves hashMd5 live) (start.RetrievesFirst hashMd5 live)
      RetrievalItem.Full start (done ++ [item]) after := by
  have which : pool.getFromWhichReplica = start.getFromWhichReplica :=
    congrArg Routing.getFromWhichReplica dispatched.routing
  rw [Pool.retrieveItem, which] at moved
  refine dispatched.dispatchKey (fun _ => Iff.rfl) (fun _ _ first => first.append _) ?_ ?_ moved
  · intro id conn filled selects none clear fills
    rw [if_pos (congrArg Nat.succ clear.counter), PoolConn.setBufGet] at fills
    split at fills
    next zero =>
      cases fills
      exact ⟨.of_none none selects, zero, rfl, Nat.succ_pos _⟩
    · cases fills
  · intro id other conn filled _ full fills
    have further : conn.counter + 1 ≠ 1 := by
      have positive := full.positive
      omega
    rw [if_neg further] at fills
    cases fills
    exact .inl ⟨full.zero, full.writeBuf, Nat.succ_pos _⟩

theorem Idle.retrieved {items : List RetrievalItem} (idle : pool.Idle)
    (moved : items.foldlM (retrieveItem hashMd5 live) pool = .ok after) :
    Dispatched (pool.Retrieves hashMd5 live) (pool.RetrievesFirst hashMd5 live)
      RetrievalItem.Full pool items after :=
  foldlM_invariant (Dispatched (pool.Retrieves hashMd5 live) (pool.RetrievesFirst hashMd5 live)
    RetrievalItem.Full pool) (fun _ _ _ _ dispatched moved => dispatched.retrieveItem moved)
    idle.dispatched moved

/-- What the second loop of a dispatch does to a pool. -/
structure Activated (pool after : Pool) (ids : List ConnId) : Prop where
  routing : after.toRouting = pool.toRouting
  conns : after.conns = pool.conns
  activeConns : after.activeConns =
    pool.activeConns ++ ids.filter fun id => 0 < (pool.conns id).counter
  nActiveConn : after.nActiveConn =
    pool.nActiveConn + (ids.filter fun id => 0 < (pool.conns id).counter).length

theorem activated (pool : Pool) (ids : List ConnId) :
    Activated pool (ids.foldl activate pool) ids := by
  induction ids generalizing pool with
  | nil => exact ⟨rfl, rfl, (List.append_nil _).symm, (add_zero _).symm⟩
  | cons id ids ih =>
      rw [List.foldl_cons, activate]
      split
      next positive =>
        obtain ⟨routing, conns, activeConns, nActiveConn⟩ := ih { pool with
          nActiveConn := pool.nActiveConn + 1, activeConns := pool.activeConns ++ [id] }
        refine ⟨routing, conns, ?_, ?_⟩
        · rw [activeConns, List.filter_cons_of_pos (by simpa using positive)]
          exact List.append_assoc _ [id] _
        · rw [nActiveConn, List.filter_cons_of_pos (by simpa using positive), List.length_cons]
          push_cast
          ring
      next none =>
        obtain ⟨routing, conns, activeConns, nActiveConn⟩ := ih pool
        refine ⟨routing, conns, ?_, ?_⟩
        · rw [activeConns, List.filter_cons_of_neg (by simpa using none)]
        · rw [nActiveConn, List.filter_cons_of_neg (by simpa using none)]

/-- Where every request has its key, the replies to wait for are as many as the requests. -/
theorem foldl_recount
    (balanced : ∀ id, (pool.conns id).counter = (pool.conns id).requestKeys.length)
    (ids : List ConnId) :
    ids.foldl (fun pool id => (pool.activate id).recount id) pool = ids.foldl activate pool := by
  induction ids generalizing pool with
  | nil => rfl
  | cons id ids ih =>
      have conns : (pool.activate id).conns = pool.conns := by
        unfold activate
        split <;> rfl
      have same : (pool.activate id).recount id = pool.activate id := by
        have conn : { pool.conns id with counter := (pool.conns id).requestKeys.length } =
            pool.conns id := by rw [← balanced id]
        simp only [recount, conns, conn, Function.update_eq_self]
        rw [← conns]
      rw [List.foldl_cons, List.foldl_cons, same]
      exact ih fun other => by rw [conns]; exact balanced other

theorem Idle.dispatchStorage {items : List StorageItem} (idle : pool.Idle)
    (moved : pool.dispatchStorage hashMd5 live items = .ok after) :
    ∃ middle, Dispatched (pool.Stores hashMd5 live) (pool.StoresOne hashMd5 live)
        StorageItem.Full pool items middle ∧ Activated middle after pool.ids := by
  obtain ⟨middle, stored, activates⟩ := exists_of_bind moved
  have dispatched := idle.stored stored
  have balanced : ∀ id, (middle.conns id).counter = (middle.conns id).requestKeys.length := by
    intro id
    rcases dispatched.each id with ⟨clear, -⟩ | ⟨item, -, full⟩
    · rw [clear.counter, clear.requestKeys]
      rfl
    · exact full.counter
  cases activates
  refine ⟨middle, dispatched, ?_⟩
  rw [foldl_recount balanced, ← dispatched.routing]
  exact activated middle middle.ids

theorem Idle.dispatchRetrieval {items : List RetrievalItem} (idle : pool.Idle)
    (moved : pool.dispatchRetrieval hashMd5 live items = .ok after) :
    ∃ middle, Dispatched (pool.Retrieves hashMd5 live) (pool.RetrievesFirst hashMd5 live)
        RetrievalItem.Full pool items middle ∧ Activated middle after pool.ids := by
  obtain ⟨middle, retrieved, activates⟩ := exists_of_bind moved
  have dispatched := idle.retrieved retrieved
  cases activates
  refine ⟨middle, dispatched, ?_⟩
  rw [← dispatched.routing]
  exact activated middle middle.ids

end Pool

/-! ## The keys of both kinds of requests -/

/-- A zero follows the key in the caller's buffer. -/
def KeyArg.Terminated (key : KeyArg) : Prop := key.buffer[key.len]? = some 0

instance (key : KeyArg) : Decidable key.Terminated :=
  inferInstanceAs (Decidable (key.buffer[key.len]? = some 0))

/-- A valid key has no zero, so a C string ends where the key does exactly if a zero follows. -/
theorem KeyArg.cString_eq_iff {key : KeyArg} (valid : isValidKey key.bytes = true) :
    0 ∈ key.buffer ∧ Datalet.cString key.buffer = key.bytes ↔ key.Terminated := by
  have nonzero : ∀ byte ∈ key.bytes, decide (byte ≠ 0) = true := by
    intro byte member
    have allowed := List.all_eq_true.mp (Bool.and_eq_true_iff.mp valid).2 byte member
    refine decide_eq_true ?_
    rintro rfl
    exact absurd allowed (by decide)
  -- The C string is the key and then what comes before a zero behind it.
  have split : Datalet.cString key.buffer =
      key.bytes ++ (key.buffer.drop key.len).takeWhile fun byte => decide (byte ≠ 0) := by
    conv_lhs => rw [Datalet.cString, ← List.take_append_drop key.len key.buffer]
    exact List.takeWhile_append_of_pos nonzero
  rw [split, List.append_right_eq_self, KeyArg.Terminated, ← List.head?_drop]
  constructor
  · rintro ⟨zero, none⟩
    rw [← List.take_append_drop key.len key.buffer, List.mem_append] at zero
    have behind : 0 ∈ key.buffer.drop key.len :=
      zero.resolve_left fun inside => absurd (nonzero 0 inside) (by decide)
    cases rest : key.buffer.drop key.len with
    | nil => simp [rest] at behind
    | cons byte rest' =>
        rw [rest] at none
        by_cases isZero : byte = 0
        · rw [isZero]
          rfl
        · simp [isZero] at none
  · intro zero
    have behind : 0 ∈ key.buffer.drop key.len := List.mem_of_head? zero
    refine ⟨List.mem_of_mem_drop behind, ?_⟩
    cases rest : key.buffer.drop key.len with
    | nil => rfl
    | cons byte rest' =>
        rw [rest] at zero
        cases zero
        rfl

namespace Pool

variable {hashMd5 : Bytes → HashValue} {live : Liveness ConnId} {pool : Pool}

/-- A key's connection can be looked for: the number of the replica is one of the row's. -/
def Routable (pool : Pool) (hashMd5 : Bytes → HashValue) (live : Liveness ConnId)
    (whichReplica : Int) (key : KeyArg) (rand : Nat) : Prop :=
  ∃ choice, pool.choose hashMd5 live key.bytes whichReplica rand = .ok choice

theorem exists_dispatchKey {key : KeyArg} {whichReplica : Int} {rand : Nat}
    {fill : PoolConn → Except BespoKV.Fault PoolConn}
    (routable : pool.Routable hashMd5 live whichReplica key rand)
    (fills : ∀ id, pool.Selects hashMd5 live key whichReplica rand id →
      ∃ filled, fill (pool.conns id) = .ok filled) :
    ∃ after, pool.dispatchKey hashMd5 live key whichReplica rand fill = .ok after := by
  obtain ⟨choice, chosen⟩ := routable
  unfold dispatchKey
  split
  next valid =>
    rw [chosen]
    cases choice with
    | none => exact ⟨_, rfl⟩
    | some id =>
        obtain ⟨filled, full⟩ := fills id ⟨valid, chosen⟩
        refine ⟨{ pool with conns := Function.update pool.conns id filled }, ?_⟩
        simp only [full]
  · exact ⟨_, rfl⟩

theorem exists_dispatchStorage {items : List StorageItem}
    (routable : ∀ item ∈ items,
      pool.Routable hashMd5 live pool.setToWhichReplica item.key item.rand) :
    ∃ after, pool.dispatchStorage hashMd5 live items = .ok after := by
  obtain ⟨middle, stored⟩ : ∃ middle, items.foldlM (storeItem hashMd5 live) pool = .ok middle := by
    refine exists_foldlM (fun _ state => state.toRouting = pool.toRouting) ?_ rfl
    intro before item later state whole same
    have member : item ∈ items := by simp [whole]
    obtain ⟨next, moved⟩ : ∃ next, state.storeItem hashMd5 live item = .ok next := by
      refine exists_dispatchKey ?_ fun id _ => ⟨_, rfl⟩
      rw [Routable, same]
      exact routable item member
    exact ⟨next, moved, (dispatchKey_cases moved).1.trans same⟩
  rw [dispatchStorage, stored]
  exact ⟨_, rfl⟩

/-- Only the first key of a connection is read as a C string. -/
theorem Idle.exists_dispatchRetrieval {items : List RetrievalItem} (idle : pool.Idle)
    (routable : ∀ item ∈ items,
      pool.Routable hashMd5 live pool.getFromWhichReplica item.key item.rand)
    (zero : ∀ id item, pool.RetrievesFirst hashMd5 live items id item → 0 ∈ item.key.buffer) :
    ∃ after, pool.dispatchRetrieval hashMd5 live items = .ok after := by
  obtain ⟨middle, retrieved⟩ :
      ∃ middle, items.foldlM (retrieveItem hashMd5 live) pool = .ok middle := by
    refine exists_foldlM (Dispatched (pool.Retrieves hashMd5 live)
      (pool.RetrievesFirst hashMd5 live) RetrievalItem.Full pool) ?_ idle.dispatched
    intro before item later state parts dispatched
    obtain ⟨next, moved⟩ : ∃ next, state.retrieveItem hashMd5 live item = .ok next := by
      refine exists_dispatchKey ?_ fun id selects => ?_
      · rw [Routable, dispatched.routing]
        exact routable item (by simp [parts])
      rw [dispatched.routing] at selects
      rcases dispatched.each id with ⟨clear, none⟩ | ⟨other, -, full⟩
      · have first : pool.RetrievesFirst hashMd5 live items id item := by
          have here := (RetrievesFirst.of_none none selects).append later
          rwa [List.append_assoc, List.singleton_append, ← parts] at here
        rw [if_pos (congrArg Nat.succ clear.counter)]
        exact ⟨_, if_pos (zero id item first)⟩
      · have further : (state.conns id).counter + 1 ≠ 1 := by
          have positive := full.positive
          omega
        exact ⟨_, if_neg further⟩
    exact ⟨next, moved, dispatched.retrieveItem moved⟩
  rw [Pool.dispatchRetrieval, retrieved]
  exact ⟨_, rfl⟩

end Pool

/-- Each request in a buffer carries the bytes that chose its connection, and a datalet that has
taken the PUT of a key finds the value for the GET of the same key, exactly if a zero follows each
key of which a GET is made: the first one that a call has for a connection. -/
theorem get_and_set_address_one_key (hashMd5 : Bytes → HashValue) (live : Liveness ConnId)
    {pool : Pool} (idle : pool.Idle) (gets : List RetrievalItem) (sets : List StorageItem)
    (getsRoutable : ∀ item ∈ gets,
      pool.Routable hashMd5 live pool.getFromWhichReplica item.key item.rand)
    (setsRoutable : ∀ item ∈ sets,
      pool.Routable hashMd5 live pool.setToWhichReplica item.key item.rand) :
    (∃ reading writing, pool.dispatchRetrieval hashMd5 live gets = .ok reading ∧
      pool.dispatchStorage hashMd5 live sets = .ok writing ∧
      (∀ id item, pool.RetrievesFirst hashMd5 live gets id item →
        (reading.conns id).writeBuf = some (.get item.key.bytes)) ∧
      (∀ id, (∃ item ∈ sets, pool.Stores hashMd5 live item id) →
        ∃ item ∈ sets, pool.Stores hashMd5 live item id ∧
          (writing.conns id).writeBuf = some (.put item.key.bytes item.value)) ∧
      ∀ reader writer item value, pool.RetrievesFirst hashMd5 live gets reader item →
        (writing.conns writer).writeBuf = some (.put item.key.bytes value) →
        ∃ get, (reading.conns reader).writeBuf = some get ∧
          ∀ store, (Datalet.IHT.handleRequest
            (Datalet.IHT.handleRequest store (.put item.key.bytes value)).1 get).2 =
              ⟨0, some value⟩) ↔
    ∀ id item, pool.RetrievesFirst hashMd5 live gets id item → item.key.Terminated := by
  constructor
  · rintro ⟨reading, -, retrieved, -, carried, -⟩ id item first
    obtain ⟨read, reads, activeReads⟩ := idle.dispatchRetrieval retrieved
    obtain ⟨inside, selects⟩ := first.selects
    rcases reads.each id with ⟨-, unselected⟩ | ⟨other, picked, full⟩
    · exact absurd selects (unselected item inside)
    · cases picked.symm.trans first
      have same := carried id item first
      rw [activeReads.conns, full.writeBuf] at same
      exact (KeyArg.cString_eq_iff selects.1).mp
        ⟨full.zero, Request.get.inj (Option.some.inj same)⟩
  · intro terminated
    have cString id item (first : pool.RetrievesFirst hashMd5 live gets id item) :=
      (KeyArg.cString_eq_iff first.selects.2.1).mpr (terminated id item first)
    obtain ⟨reading, retrieved⟩ :=
      idle.exists_dispatchRetrieval getsRoutable fun id item first => (cString id item first).1
    obtain ⟨writing, stored⟩ := Pool.exists_dispatchStorage setsRoutable
    obtain ⟨read, reads, activeReads⟩ := idle.dispatchRetrieval retrieved
    obtain ⟨write, writes, activeWrites⟩ := idle.dispatchStorage stored
    have carried : ∀ id item, pool.RetrievesFirst hashMd5 live gets id item →
        (reading.conns id).writeBuf = some (.get item.key.bytes) := by
      intro id item first
      obtain ⟨inside, selects⟩ := first.selects
      rw [activeReads.conns]
      rcases reads.each id with ⟨-, unselected⟩ | ⟨other, picked, full⟩
      · exact absurd selects (unselected item inside)
      · cases picked.symm.trans first
        rw [full.writeBuf, (cString id item first).2]
    refine ⟨reading, writing, retrieved, stored, carried, ?_, ?_⟩
    · rintro id ⟨item, member, selects⟩
      rw [activeWrites.conns]
      rcases writes.each id with ⟨-, unselected⟩ | ⟨last, ⟨inside, selected⟩, full⟩
      · exact absurd selects (unselected item member)
      · exact ⟨last, inside, selected, full.writeBuf⟩
    · intro reader writer item value first _
      refine ⟨_, carried reader item first, fun store => ?_⟩
      simp only [Datalet.IHT.handleRequest, Function.update_self]

/-- A pool of one connection. -/
def samplePool : Pool where
  nConns := 1
  nReplicas := 1
  connSelector := { continuum := [⟨0, 0, (0, 0), []⟩], nServers := 1, sorted := true }
  getFromWhichReplica := 0
  setToWhichReplica := 0

/-- Every connection is alive. -/
def sampleLive : Liveness ConnId := ⟨fun _ => true, fun _ => true⟩

/-- A key of two bytes with a zero after it. -/
def sampleKey : KeyArg := ⟨[97, 98, 0], 2, by decide⟩

theorem get_and_set_address_one_key_sample :
    samplePool.Idle ∧ isValidKey sampleKey.bytes = true ∧ sampleKey.Terminated ∧
      ∃ reading writing,
        samplePool.dispatchRetrieval (fun _ => 0) sampleLive [⟨sampleKey, 0⟩] = .ok reading ∧
        samplePool.dispatchStorage (fun _ => 0) sampleLive [⟨sampleKey, [1], 0⟩] = .ok writing ∧
        (reading.conns (0, 0)).writeBuf = some (.get [97, 98]) := by
  have idle : samplePool.Idle := ⟨fun _ => rfl, rfl, rfl⟩
  have terminated : ∀ id item,
      samplePool.RetrievesFirst (fun _ => 0) sampleLive [⟨sampleKey, 0⟩] id item →
        item.key.Terminated := by
    intro id item first
    rw [List.mem_singleton.mp first.selects.1]
    rfl
  obtain ⟨reading, writing, retrieved, stored, carried, -⟩ :=
    (get_and_set_address_one_key (fun _ => 0) sampleLive idle [⟨sampleKey, 0⟩]
      [⟨sampleKey, [1], 0⟩]
      (List.forall_mem_singleton.mpr ⟨some (0, 0), rfl⟩)
      (List.forall_mem_singleton.mpr ⟨some (0, 0), rfl⟩)).mpr terminated
  exact ⟨idle, by decide, rfl, reading, writing, retrieved, stored,
    carried (0, 0) ⟨sampleKey, 0⟩ rfl⟩

/-- The same key, where the buffer goes on with another byte. -/
def sampleLongKey : KeyArg := ⟨[97, 98, 99, 0], 2, by decide⟩

/-- The PUT carries two bytes and the GET three, and the value is not found. -/
theorem get_reads_past_the_key :
    isValidKey sampleLongKey.bytes = true ∧ ∃ reading writing,
      samplePool.dispatchRetrieval (fun _ => 0) sampleLive [⟨sampleLongKey, 0⟩] = .ok reading ∧
      samplePool.dispatchStorage (fun _ => 0) sampleLive [⟨sampleLongKey, [1], 0⟩] =
        .ok writing ∧
      (reading.conns (0, 0)).writeBuf = some (.get [97, 98, 99]) ∧
      (writing.conns (0, 0)).writeBuf = some (.put [97, 98] [1]) ∧
      (Datalet.IHT.handleRequest
        (Datalet.IHT.handleRequest (fun _ => none) (.put [97, 98] [1])).1
        (.get [97, 98, 99])).2 = ⟨-1, none⟩ := by
  exact ⟨by decide, _, _, rfl, rfl, by decide, by decide, by decide⟩

end BespoKV.LibCkv
