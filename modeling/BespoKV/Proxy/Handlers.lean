import BespoKV.Library.Locks
import BespoKV.Proxy.Connections

/-!
# Message handlers

The six handlers of `msg.cpp` and `get_mapped_server_conn` of `net.cpp`, for the
configuration the repository builds: `USE_SMART_PTR`, `USE_PROTOBUF` and `USE_KAFKA`
defined, `USE_KETAMA` not.  The outcomes of `msg_read` and of the write calls are
arguments; a null `msg_read` and a failed write take the source's error branches.
-/

namespace BespoKV

/-- What the lock server and the queues of datalet links see: a `set NX`, a request
queued for a datalet, a `del`. -/
abbrev Obs := Locks.Obs ReqId Key

/-- The services all proxies share: the lock server and the log.  A lock has no
owner in the source; `redis` keeps the request that acquired it as history. -/
structure Services where
  redis : Key → Option ReqId := fun _ => none
  kafka : List Buffer := []
  trace : List Obs := []

/-- The state a handler works on. -/
structure Ctx where
  proxy : Proxy := {}
  services : Services := {}

namespace Services

/-- `ConLock::lock` -/
def lock (services : Services) (req : ReqId) (isSet : Bool) (key : Key) :
    Bool × Services :=
  let granted := (services.redis key).isNone
  (granted,
    { services with
      redis := if granted then Function.update services.redis key (some req)
        else services.redis
      trace := services.trace ++ [.lock req isSet key granted] })

/-- `ConLock::unlock` -/
def unlock (services : Services) (req : Option ReqId) (key : Key) : Services :=
  { services with
    redis := Function.update services.redis key none
    trace := services.trace ++ [.unlock req key] }

/-- `COnKafka_Producer::produce` -/
def produce (services : Services) (req : Buffer) : Services :=
  { services with kafka := services.kafka ++ [req] }

end Services

namespace Proxy

/-- `get_mapped_server_conn` after a successful parse.  `key` is the text of its string
`key`: a copy of bytes that belonged to the message `msg_parse` has deleted.  The strings
`cmnd` and `key` are deleted before returning except in the active-active strong branch. -/
def getMappedServerConn (cfg : Config) (proxy : Proxy) (conn : LinkPtr) (frame : Frame)
    (key : Key) : Except Fault (Proxy × LinkPtr) :=
  match (proxy.links conn).dataletConn with
  | none => .error .undefined
  | some mapped =>
      if cfg.aaStrong then
        .ok (proxy.modify mapped fun link =>
          { link with
            key := some key
            fwdToReplicas := if frame.cmd = .set then true else link.fwdToReplicas },
          mapped)
      else
        let proxy := if cfg.consistencyModel.atLeastEventual then
            proxy.modify mapped fun link => { link with key := none }
          else
            proxy
        if frame.cmd = .set then
          .ok (proxy.modify mapped fun link =>
            { link with fwdToReplicas := true, tail := false }, mapped)
        else
          let proxy := proxy.modify mapped fun link => { link with fwdToReplicas := false }
          if cfg.msStrongCr then
            match proxy.getSlaveNumber mapped (cfg.replicas - 1) with
            | .ok (some tail) =>
                .ok (proxy.modify tail fun link =>
                  { link with fwdToReplicas := false, tail := true }, tail)
            | .ok none => .error .undefined
            | .error fault => .error fault
          else
            .ok (proxy, mapped)

/-- Queue a request on every slave link, arming each one. -/
def fanOut (proxy : Proxy) (req : Buffer) : List LinkPtr → Proxy
  | [] => proxy
  | slave :: slaves => ((proxy.armOut slave).pushImsg slave req).fanOut req slaves

/-- The branch of `req_recv` for a lock that was not granted: what is left of the
read goes to the front of the client's own queue. -/
def pushBack (proxy : Proxy) (conn : LinkPtr) (rest : List Frame) : Proxy :=
  (proxy.modify conn fun link =>
    { link with
      imsgQ := { owner := some conn, content := .frames rest } :: link.imsgQ }).setIn conn

/-- `msg_send` of a whole request. -/
def msgSend (proxy : Proxy) (conn : LinkPtr) (smsg : Buffer) : Proxy :=
  { proxy with
    wire := Function.update proxy.wire conn
      { proxy.wire conn with req := (proxy.wire conn).req ++ [smsg] } }

/-- `msg_write` of a whole buffer to a client. -/
def msgWrite (proxy : Proxy) (conn : LinkPtr) (smsg : Buffer) : Proxy :=
  { proxy with
    delivered := Function.update proxy.delivered conn (proxy.delivered conn ++ [smsg]) }

/-- `imsg_q.front()`, `imsg_q.pop_front()` and the common part of `req_send` and
`replica_req_send`. -/
def sendFront (proxy : Proxy) (conn : LinkPtr) (smsg : Buffer) (written : Bool) : Proxy :=
  let popped := proxy.modify conn fun link => { link with imsgQ := link.imsgQ.tail }
  if written then
    ((popped.msgSend conn smsg).modify conn fun link =>
      { link with omsgQ := link.omsgQ ++ [smsg] }).setIn conn
  else
    (popped.markError conn).fdDel conn

/-- `req_send` -/
def reqSend (proxy : Proxy) (conn : LinkPtr) (written : Bool) : Except Fault Proxy :=
  match (proxy.links conn).imsgQ with
  | [] => .ok (proxy.clrOut conn)
  | smsg :: _ =>
      if smsg.nonempty && (!written || smsg.id = 1) then
        .ok (proxy.sendFront conn smsg written)
      else
        .error .check

/-- `replica_req_send` -/
def replicaReqSend (proxy : Proxy) (conn : LinkPtr) (written : Bool) :
    Except Fault Proxy :=
  if (proxy.links conn).isMaster then
    .error .check
  else
    match (proxy.links conn).imsgQ with
    | [] => .ok (proxy.clrOut conn)
    | smsg :: _ =>
        if smsg.nonempty then
          .ok (proxy.sendFront conn smsg written)
        else
          .error .check

/-- `rsp_send`.  Writing an empty buffer returns `0`, which the source treats as a
failed write. -/
def rspSend (proxy : Proxy) (conn : LinkPtr) (written : Bool) : Proxy :=
  match (proxy.links conn).imsgQ with
  | [] => proxy.clrOut conn
  | smsg :: _ =>
      let popped := proxy.modify conn fun link => { link with imsgQ := link.imsgQ.tail }
      if written && smsg.nonempty then
        popped.msgWrite conn smsg
      else
        (popped.markError conn).fdDel conn

/-- The common end of the reply handlers: arm the client link and queue the reply. -/
def queueReply (proxy : Proxy) (client : LinkPtr) (msg : Buffer) : Proxy :=
  (proxy.armOut client).pushImsg client msg

/-- `rsp_mapped_forward` and the push of its callers. -/
def rspMappedForward (proxy : Proxy) (conn : LinkPtr) (msg : Buffer) :
    Except Fault Proxy :=
  match (proxy.links conn).omsgQ with
  | [] => .error .check
  | pmsg :: _ =>
      match pmsg.owner with
      | none => .error .check
      | some client =>
          if client = conn then
            .error .check
          else
            .ok ((proxy.popOmsg conn).queueReply client msg)

/-- The chain branches of `rsp_recv` and `replica_rsp_recv`: the oldest request of
`conn` moves to the queue of `slave`. -/
def passOn (proxy : Proxy) (conn slave : LinkPtr) (mustBeWrite : Bool) :
    Except Fault Proxy :=
  if (proxy.links slave).isMaster then
    .error .check
  else
    match (proxy.links conn).omsgQ with
    | [] => .error .check
    | pmsg :: _ =>
        match pmsg.owner with
        | none => if mustBeWrite then .error .check else .error .undefined
        | some owner =>
            if (proxy.links owner).isClient && (!mustBeWrite || pmsg.fwdToReplicas) then
              .ok (((proxy.armOut slave).popOmsg conn).pushImsg slave pmsg)
            else
              .error .check

/-- `replica_rsp_recv` -/
def replicaRspRecv (cfg : Config) (proxy : Proxy) (conn : LinkPtr) (msg : Option Buffer) :
    Except Fault Proxy :=
  if (proxy.links conn).isMaster then
    .error .check
  else
    match msg with
    | none => .ok ((proxy.markError conn).fdDel conn)
    | some msg =>
        match proxy.getMasterOfSlave conn with
        | none => .error .check
        | some master =>
            if !(proxy.links master).isServer || conn = master then
              .error .check
            else if cfg.msStrongCr && (proxy.links master).fwdToReplicas then
              if (proxy.links conn).slaveNumber < cfg.replicas - 1 then
                match proxy.getSlaveNumber master ((proxy.links conn).slaveNumber + 1) with
                | .ok (some slave) =>
                    if conn = slave then .error .check else proxy.passOn conn slave true
                | .ok none => .error .undefined
                | .error fault => .error fault
              else
                match (proxy.links conn).omsgQ with
                | [] => .error .check
                | pmsg :: _ =>
                    match pmsg.owner with
                    | none => .error .check
                    | some client => .ok ((proxy.popOmsg conn).queueReply client msg)
            else if cfg.msStrongCr && (proxy.links conn).tail then
              match proxy.rspMappedForward conn msg with
              | .ok forwarded =>
                  .ok (forwarded.modify conn fun link => { link with tail := false })
              | .error fault => .error fault
            else
              .ok (proxy.popOmsg conn)

end Proxy

namespace Ctx

/-- The buffer `req_recv` builds for one frame. -/
def segment (proxy : Proxy) (conn out : LinkPtr) (frame : Frame) : Buffer :=
  { owner := some conn
    id := 1
    fwdToReplicas := (proxy.links out).fwdToReplicas
    content := .frames [frame]
    tag := some ⟨proxy.pid, conn, (proxy.received conn).length⟩ }

/-- Record a segment in the history of its client. -/
def receive (proxy : Proxy) (conn : LinkPtr) (req : Buffer) : Proxy :=
  { proxy with
    received := Function.update proxy.received conn (proxy.received conn ++ [req]) }

/-- `kproducer->produce` is called for this segment. -/
def produces (cfg : Config) (proxy : Proxy) (out : LinkPtr) : Bool :=
  (cfg.topology = .ms || cfg.topology = .aa) && (proxy.links out).fwdToReplicas

/-- The request is copied to every slave after it has been queued. -/
def fansOutAfter (cfg : Config) (proxy : Proxy) (out : LinkPtr) : Bool :=
  ((cfg.topology = .no && 0 < cfg.replicas) ||
      (cfg.consistencyModel = .without && cfg.topology = .ms)) &&
    (proxy.links out).fwdToReplicas

/-- The last part of the loop of `req_recv`: the request is queued for `out` and, in
the modes without acknowledgements, for the slaves. -/
def forward (cfg : Config) (ctx : Ctx) (out : LinkPtr) (req : Buffer) (key : Key) : Ctx :=
  let queued := ctx.proxy.pushImsg out req
  { proxy := if fansOutAfter cfg queued out then queued.fanOut req (queued.getSlaves out)
      else queued
    services := match req.tag with
      | some tag =>
          { ctx.services with trace := ctx.services.trace ++ [.forward tag key] }
      | none => ctx.services }

/-- The locking part of the loop of `req_recv`; the flag says whether the request
may proceed.  In the master-slave mode the Redlock branch calls through `dlm`, which is
never assigned, and both it and the ZooKeeper branch read the key string deleted before. -/
def acquire (cfg : Config) (ctx : Ctx) (out : LinkPtr) (req : Buffer) (frame : Frame) :
    Except Fault (Bool × Ctx) :=
  let fwd := (ctx.proxy.links out).fwdToReplicas
  if cfg.aaStrong && cfg.consistencyTechnique = .rl then
    match (ctx.proxy.links out).key, req.tag with
    | some key, some tag =>
        let (granted, services) := ctx.services.lock tag (frame.cmd = .set) key
        -- a request that is not forwarded to replicas ignores the outcome
        if fwd then
          if granted then
            .ok (true, { proxy := ctx.proxy.fanOut req (ctx.proxy.getSlaves out), services })
          else
            .ok (false, { ctx with services })
        else
          .ok (true, { ctx with services })
    | _, _ => .error .undefined
  else if cfg.msStrong && fwd then
    match cfg.consistencyTechnique with
    | .rl | .zk => .error .undefined
    | _ => .ok (true, ctx)
  else
    .ok (true, ctx)

/-- The text of the string `key` for a frame, up to its first zero byte, as `lock` and `unlock`
take it; `freed` says what the memory of the deleted message holds, frame by frame. -/
def keyText (ctx : Ctx) (conn : LinkPtr) (frame : Frame) (freed : Nat → Key → Key) : Key :=
  freed (ctx.proxy.received conn).length frame.key

/-- One iteration of the loop of `req_recv`; the flag says whether the loop goes
on. -/
def reqSegment (cfg : Config) (ctx : Ctx) (conn : LinkPtr) (frame : Frame)
    (rest : List Frame) (freed : Nat → Key → Key) : Except Fault (Bool × Ctx) :=
  match ctx.proxy.getMappedServerConn cfg conn frame (ctx.keyText conn frame freed) with
  | .error fault => .error fault
  | .ok (mapped, out) =>
      let armed := mapped.armOut out
      let req := segment armed conn out frame
      let proxy := receive armed conn req
      if produces cfg proxy out && !(proxy.links out).kproducer then
        .error .check
      else
        let services := if produces cfg proxy out then ctx.services.produce req
          else ctx.services
        match acquire cfg { proxy, services } out req frame with
        | .error fault => .error fault
        | .ok (true, locked) => .ok (true, locked.forward cfg out req frame.key)
        | .ok (false, refused) =>
            .ok (false, { refused with proxy := refused.proxy.pushBack conn rest })

/-- The loop of `req_recv`. -/
def reqLoop (cfg : Config) (conn : LinkPtr) (freed : Nat → Key → Key) :
    Ctx → List Frame → Except Fault Ctx
  | ctx, [] => .ok ctx
  | ctx, frame :: rest =>
      match ctx.reqSegment cfg conn frame rest freed with
      | .error fault => .error fault
      | .ok (true, next) => reqLoop cfg conn freed next rest
      | .ok (false, next) => .ok next

/-- `req_recv` together with what `NetworkServer::recv` does with a dropped link. -/
def reqRecv (cfg : Config) (ctx : Ctx) (conn : LinkPtr) (msg : Option (List Frame))
    (freed : Nat → Key → Key) : Except Fault Ctx :=
  match msg with
  | none =>
      .ok { ctx with
        proxy := { ctx.proxy.fdDel conn with
          freeConnPool := ctx.proxy.freeConnPool ++ [conn] } }
  | some frames => reqLoop cfg conn freed ctx frames

/-- `rsp_recv` -/
def rspRecv (cfg : Config) (ctx : Ctx) (conn : LinkPtr) (msg : Option Buffer) :
    Except Fault Ctx :=
  match msg with
  | none => .ok { ctx with proxy := (ctx.proxy.markError conn).fdDel conn }
  | some msg =>
      let msg := { msg with id := 2 }
      let forwardTo (ctx : Ctx) : Except Fault Ctx :=
        match ctx.proxy.rspMappedForward conn msg with
        | .ok proxy => .ok { ctx with proxy }
        | .error fault => .error fault
      if cfg.msStrong && (ctx.proxy.links conn).fwdToReplicas then
        match cfg.consistencyTechnique with
        | .cr =>
            match ctx.proxy.getSlaveNumber conn 0 with
            | .ok (some slave) =>
                match ctx.proxy.passOn conn slave false with
                | .ok proxy => .ok { ctx with proxy }
                | .error fault => .error fault
            | .ok none => .error .check
            | .error fault => .error fault
        | .rl | .zk => .error .undefined
        | _ => forwardTo ctx
      else if cfg.aaStrong then
        match (ctx.proxy.links conn).key with
        | some key =>
            forwardTo
              { proxy := ctx.proxy.modify conn fun link => { link with key := none }
                services := ctx.services.unlock
                  ((ctx.proxy.links conn).omsgQ.head?.bind Buffer.tag) key }
        | none => .error .undefined
      else
        forwardTo ctx

end Ctx

end BespoKV
