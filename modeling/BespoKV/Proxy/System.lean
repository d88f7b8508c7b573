import BespoKV.Library.Transition
import BespoKV.Library.Pipe
import BespoKV.Library.History
import BespoKV.Proxy.Handlers

/-!
# A proxy with its clients and datalets

One step is one handler invocation of the event loop or one request taken by a
datalet.  A datalet serves every connection in order, one request and one answer at
a time, and picks the connection freely; handlers fire in any order.
-/

namespace BespoKV

/-- A datalet's storage engine: what one request does to its contents. -/
structure Engine where
  State : Type
  empty : State
  serve : State → Frame → State × Reply

/-- A key-value map: `handle_request` of the hash-table datalet. -/
def mapEngine : Engine where
  State := Key → Option Value
  empty := fun _ => none
  serve := fun store frame =>
    match frame.cmd with
    | .get => (store, .ofLookup (store frame.key))
    | .set => (Function.update store frame.key (some frame.value), ⟨0, none⟩)
    | .del => (store, ⟨0, none⟩)

/-- Contents change by what a request writes. -/
theorem mapEngine_serve (store : Key → Option Value) {req : Buffer} {frame : Frame}
    (framed : req.frame? = some frame) :
    (mapEngine.serve store frame).1 = History.apply Buffer.write? store req := by
  obtain ⟨cmd, key, value⟩ := frame
  cases cmd <;> simp [mapEngine, History.apply, Buffer.write?, framed]

/-- A connection of a datalet: a link of a proxy, or a proxy's log consumer. -/
inductive Conn where
  | link (proxy : Nat) (ptr : LinkPtr)
  | consumer (proxy : Nat)
  deriving DecidableEq, Repr

/-- One request a datalet has handled. -/
structure Served where
  conn : Conn
  req : Buffer
  reply : Reply
  deriving DecidableEq, Repr

/-- A datalet: its contents and, as history, what it has handled. -/
structure Datalet (engine : Engine) where
  state : engine.State
  log : List Served

/-- A request read from a connection is handled. -/
def Datalet.handle {engine : Engine} (datalet : Datalet engine) (conn : Conn)
    (req : Buffer) (frame : Frame) : Datalet engine where
  state := (engine.serve datalet.state frame).1
  log := datalet.log ++ [⟨conn, req, (engine.serve datalet.state frame).2⟩]

/-- A proxy, the services it shares with other proxies, and the datalets. -/
structure State (engine : Engine) extends Ctx where
  datalets : AddrType → Datalet engine

namespace State

variable {engine : Engine}

/-- No client has connected; every datalet is empty. -/
def init (engine : Engine) : State engine where
  datalets := fun _ => ⟨engine.empty, []⟩

/-- Replace the part a handler works on. -/
def withCtx (state : State engine) (ctx : Ctx) : State engine :=
  { state with toCtx := ctx }

/-- Replace the proxy. -/
def withProxy (state : State engine) (proxy : Proxy) : State engine :=
  { state with proxy := proxy }

end State

/-- What the scheduler can choose. -/
inductive Event where
  /-- a client connects; new links hold the given uninitialised bits -/
  | accept (uninit : LinkPtr → Uninit)
  /-- a client link is readable; `msg` is what `msg_read` returns and `freed` what is read
  from messages that have been deleted -/
  | request (client : LinkPtr) (msg : Option (List Frame)) (freed : Nat → Key → Key)
  /-- a datalet link is readable and `msg_read` returns its next answer -/
  | response (link : LinkPtr)
  /-- a link is writable and a write succeeds or fails -/
  | writable (link : LinkPtr) (written : Bool)
  /-- the datalet behind a link takes the next request of that connection -/
  | serve (link : LinkPtr)

namespace Event

/-- No read or write on a link fails. -/
def Clean : Event → Prop
  | .request _ none _ => False
  | .writable _ false => False
  | _ => True

instance : DecidablePred Clean := fun event =>
  match event with
  | .request _ none _ => isFalse id
  | .writable _ false => isFalse id
  | .accept _ => isTrue trivial
  | .request _ (some _) _ => isTrue trivial
  | .response _ => isTrue trivial
  | .writable _ true => isTrue trivial
  | .serve _ => isTrue trivial

/-- What is read from clients is restricted to what `allowed` admits. -/
def Sends (allowed : LinkPtr → List Frame → Prop) : Event → Prop
  | .request client (some frames) _ => allowed client frames
  | _ => True

instance (allowed : LinkPtr → List Frame → Prop)
    [∀ client frames, Decidable (allowed client frames)] : DecidablePred (Sends allowed) :=
  fun event =>
    match event with
    | .request client (some frames) _ => inferInstanceAs (Decidable (allowed client frames))
    | .request _ none _ => isTrue trivial
    | .accept _ => isTrue trivial
    | .response _ => isTrue trivial
    | .writable _ _ => isTrue trivial
    | .serve _ => isTrue trivial

theorem Sends.mono {P Q : LinkPtr → List Frame → Prop} {event : Event}
    (implies : ∀ client frames, P client frames → Q client frames)
    (sends : event.Sends P) : event.Sends Q := by
  cases event with
  | request client msg freed =>
      cases msg with
      | none => trivial
      | some frames => exact implies client frames sends
  | accept | response | writable | serve => trivial

end Event

namespace State

variable {engine : Engine}

/-- `NetworkServer::recv` on a client link.  A dropped link is no longer
subscribed. -/
def recvRequest (cfg : Config) (state : State engine) (client : LinkPtr)
    (msg : Option (List Frame)) (freed : Nat → Key → Key) : Except Fault (State engine) :=
  if (state.proxy.links client).nwFunc ≠ .request ∨ client ∈ state.proxy.freeConnPool then
    .error .disabled
  else if (state.proxy.links client).error then
    .ok state
  else
    match state.toCtx.reqRecv cfg client msg freed with
    | .ok ctx => .ok (state.withCtx ctx)
    | .error fault => .error fault

/-- `msg_read` takes the oldest answer off the connection. -/
def takeReply (proxy : Proxy) (link : LinkPtr) : Proxy :=
  { proxy with
    wire := Function.update proxy.wire link
      { proxy.wire link with rsp := (proxy.wire link).rsp.tail } }

/-- `NetworkServer::recv` on a datalet link. -/
def recvResponse (cfg : Config) (state : State engine) (link : LinkPtr) :
    Except Fault (State engine) :=
  match (state.proxy.wire link).rsp with
  | [] => .error .disabled
  | reply :: _ =>
      if (state.proxy.links link).error then
        .ok state
      else
        let ctx : Ctx := { state.toCtx with proxy := takeReply state.proxy link }
        let msg : Buffer := { content := .reply reply }
        match (state.proxy.links link).nwFunc with
        | .response =>
            match ctx.rspRecv cfg link (some msg) with
            | .ok ctx => .ok (state.withCtx ctx)
            | .error fault => .error fault
        | .replica =>
            match ctx.proxy.replicaRspRecv cfg link (some msg) with
            | .ok proxy => .ok (state.withProxy proxy)
            | .error fault => .error fault
        | _ => .error .disabled

/-- `NetworkServer::send` -/
def sendOn (state : State engine) (link : LinkPtr) (written : Bool) :
    Except Fault (State engine) :=
  if (state.proxy.links link).error then
    .ok state
  else
    match (state.proxy.links link).nwFunc with
    | .request => .ok (state.withProxy (state.proxy.rspSend link written))
    | .response =>
        match state.proxy.reqSend link written with
        | .ok proxy => .ok (state.withProxy proxy)
        | .error fault => .error fault
    | .replica =>
        match state.proxy.replicaReqSend link written with
        | .ok proxy => .ok (state.withProxy proxy)
        | .error fault => .error fault
    | .unset => .error .disabled

/-- The connection of a link as its datalet sees it. -/
def connOf (state : State engine) (link : LinkPtr) : Conn := .link state.proxy.pid link

/-- The datalet behind a link takes the oldest request on that connection. -/
def serveOn (state : State engine) (link : LinkPtr) : Except Fault (State engine) :=
  match (state.proxy.links link).peer, (state.proxy.wire link).req with
  | some addr, req :: rest =>
      match req.frame? with
      | some frame =>
          let reply := (engine.serve (state.datalets addr).state frame).2
          .ok { state with
            proxy := { state.proxy with
              wire := Function.update state.proxy.wire link
                { req := rest, rsp := (state.proxy.wire link).rsp ++ [reply] } }
            datalets := Function.update state.datalets addr
              ((state.datalets addr).handle (state.connOf link) req frame) }
      | none => .error .undefined
  | _, _ => .error .disabled

/-- One step of a proxy, its clients and its datalets. -/
def step (cfg : Config) (state : State engine) : Event → Except Fault (State engine)
  | .accept uninit =>
      match state.proxy.acceptClient cfg uninit with
      | .ok proxy => .ok (state.withProxy proxy)
      | .error fault => .error fault
  | .request client msg freed => state.recvRequest cfg client msg freed
  | .response link => state.recvResponse cfg link
  | .writable link written => state.sendOn link written
  | .serve link => state.serveOn link

/-! ## What datalets have done -/

/-- The requests a datalet handled on the connection of a link, with its answers. -/
def servedOn (state : State engine) (link : LinkPtr) : List (Buffer × Content) :=
  match (state.proxy.links link).peer with
  | some addr =>
      ((state.datalets addr).log.filter fun entry => entry.conn = state.connOf link).map
        fun entry => (entry.req, .reply entry.reply)
  | none => []

/-- A datalet link as a request pipe. -/
def pipe (state : State engine) (link : LinkPtr) : Pipes.Pipe Buffer Content where
  queue := (state.proxy.links link).imsgQ
  sent := (state.proxy.links link).omsgQ
  req := (state.proxy.wire link).req
  rsp := (state.proxy.wire link).rsp.map .reply
  served := state.servedOn link

/-- The requests of a client that a datalet has handled, with its answers. -/
def answers (state : State engine) (addr : AddrType) (client : LinkPtr) :
    List (Buffer × Content) :=
  ((state.datalets addr).log.filter fun entry => entry.req.owner = some client).map
    fun entry => (entry.req, .reply entry.reply)

/-- The requests of a client that a datalet has applied, in the order it applied
them. -/
def applied (state : State engine) (addr : AddrType) (client : LinkPtr) : List Buffer :=
  (state.answers addr client).map Prod.fst

/-- The answers written to a client, followed by those queued for it. -/
def replies (state : State engine) (client : LinkPtr) : List Content :=
  (state.proxy.delivered client ++ (state.proxy.links client).imsgQ).map Buffer.content

/-- The requests of a client whose answers have been queued for it or written to it. -/
def acknowledged (state : State engine) (client : LinkPtr) : List Buffer :=
  (state.proxy.received client).take (state.replies client).length

end State

end BespoKV
