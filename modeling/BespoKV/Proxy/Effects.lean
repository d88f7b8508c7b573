import Mathlib.Data.List.Infix
import BespoKV.Proxy.Sessions

/-!
# What the handlers do

One inversion lemma for each handler, in terms of traffic, shape and flags, with the
conditions of the branch that was taken.  Later modules do not unfold the handlers.
-/

namespace BespoKV

/-- Queue a request on every link of a list. -/
def Traffic.fan (traffic : Traffic) (req : Buffer) : List LinkPtr → Traffic
  | [] => traffic
  | ptr :: rest => (traffic.push ptr req).fan req rest

/-- Copies of a request are queued and nothing else happens. -/
private theorem Traffic.fan_eq (traffic : Traffic) (req : Buffer) (links : List LinkPtr) :
    traffic.fan req links = { traffic with imsgQ := (traffic.fan req links).imsgQ } := by
  induction links generalizing traffic with
  | nil => rfl
  | cons ptr rest ih => exact ih (traffic.push ptr req)

section Fan

variable (traffic : Traffic) (req : Buffer) (links : List LinkPtr)

@[simp] theorem Traffic.fan_omsgQ : (traffic.fan req links).omsgQ = traffic.omsgQ := by
  rw [fan_eq]

@[simp] theorem Traffic.fan_wire : (traffic.fan req links).wire = traffic.wire := by
  rw [fan_eq]

@[simp] theorem Traffic.fan_received : (traffic.fan req links).received = traffic.received := by
  rw [fan_eq]

@[simp] theorem Traffic.fan_delivered : (traffic.fan req links).delivered = traffic.delivered := by
  rw [fan_eq]

end Fan

theorem Traffic.fan_other (traffic : Traffic) (req : Buffer) {links : List LinkPtr}
    {ptr : LinkPtr} (outside : ptr ∉ links) :
    (traffic.fan req links).imsgQ ptr = traffic.imsgQ ptr := by
  induction links generalizing traffic with
  | nil => rfl
  | cons first rest ih =>
      obtain ⟨notFirst, notRest⟩ := not_or.mp (fun inside => outside (List.mem_cons.mpr inside))
      refine (ih (traffic.push first req) notRest).trans ?_
      simp [notFirst]

/-- What is left of a read goes back to the front of the client's own queue. -/
@[simps] def Traffic.pushBack (traffic : Traffic) (conn : LinkPtr) (rest : List Frame) :
    Traffic :=
  { traffic with
    imsgQ := Function.update traffic.imsgQ conn
      ({ owner := some conn, content := .frames rest } :: traffic.imsgQ conn) }

namespace Proxy

/-- A handler moved messages and touched nothing that routing depends on. -/
structure Becomes (before : Proxy) (traffic : Traffic) (after : Proxy) : Prop where
  traffic : after.traffic = traffic
  shape : after.shape = before.shape
  flags : after.flags = before.flags

variable {proxy after : Proxy} {conn : LinkPtr}

/-! ## Sending -/

theorem becomes_sendFront (proxy : Proxy) (conn : LinkPtr) (smsg : Buffer) :
    proxy.Becomes (proxy.traffic.transmit conn smsg) (proxy.sendFront conn smsg true) :=
  ⟨traffic_sendFront proxy conn smsg, shape_sendFront proxy conn smsg true,
    flags_sendFront proxy conn smsg⟩

theorem becomes_clrOut (proxy : Proxy) (conn : LinkPtr) :
    proxy.Becomes proxy.traffic (proxy.clrOut conn) := ⟨rfl, rfl, rfl⟩

/-- A write on a link failed: the message is lost and the link is marked. -/
structure Loses (before : Proxy) (conn : LinkPtr) (after : Proxy) : Prop where
  traffic : after.traffic = before.traffic.discard conn
  shape : after.shape = before.shape
  others : ∀ ptr, ptr ≠ conn → after.flags ptr = before.flags ptr
  marked : (after.flags conn).error = true

/-- The branches of `req_send` and `replica_req_send`. -/
inductive Sent (before : Proxy) (conn : LinkPtr) (written : Bool) (after : Proxy) : Prop where
  | idle (empty : (before.links conn).imsgQ = []) (still : before.Becomes before.traffic after)
  | sent {smsg : Buffer} {rest : List Buffer}
      (queued : (before.links conn).imsgQ = smsg :: rest) (complete : written = true)
      (moved : before.Becomes (before.traffic.transmit conn smsg) after)
  | lost {smsg : Buffer} {rest : List Buffer}
      (queued : (before.links conn).imsgQ = smsg :: rest) (incomplete : written = false)
      (lost : before.Loses conn after)

theorem sendFront_cases {smsg : Buffer} {rest : List Buffer} (written : Bool)
    (queued : (proxy.links conn).imsgQ = smsg :: rest) :
    proxy.Sent conn written (proxy.sendFront conn smsg written) := by
  cases written with
  | true => exact .sent queued rfl (becomes_sendFront proxy conn smsg)
  | false =>
      refine .lost queued rfl ⟨traffic_sendFront_lost proxy conn smsg, shape_sendFront _ _ _ _,
        fun ptr different => ?_, ?_⟩
      · simp [sendFront, markError, fdDel, modify, flags, different]
      · simp [sendFront, markError, fdDel, modify, flags]

theorem reqSend_cases {written : Bool} (handled : proxy.reqSend conn written = .ok after) :
    proxy.Sent conn written after := by
  unfold reqSend at handled
  split at handled
  next empty =>
    cases handled
    exact .idle empty (becomes_clrOut proxy conn)
  next smsg rest queued =>
    split at handled
    · cases handled
      exact sendFront_cases written queued
    · cases handled

theorem replicaReqSend_cases {written : Bool}
    (handled : proxy.replicaReqSend conn written = .ok after) :
    proxy.Sent conn written after := by
  unfold replicaReqSend at handled
  split at handled
  · cases handled
  · split at handled
    next empty =>
      cases handled
      exact .idle empty (becomes_clrOut proxy conn)
    next smsg rest queued =>
      split at handled
      · cases handled
        exact sendFront_cases written queued
      · cases handled

/-- Flags of all links but the one whose write failed. -/
theorem flags_rspSend (proxy : Proxy) {conn other : LinkPtr} (written : Bool)
    (different : other ≠ conn) :
    (proxy.rspSend conn written).flags other = proxy.flags other := by
  unfold rspSend
  split
  · rfl
  · split
    · simp [msgWrite, modify, flags, different]
    · simp [markError, fdDel, modify, flags, different]

/-- A successful write leaves all flags alone. -/
theorem flags_rspSend_written {smsg : Buffer} {rest : List Buffer}
    (queued : (proxy.links conn).imsgQ = smsg :: rest) (nonempty : smsg.nonempty = true) :
    (proxy.rspSend conn true).flags = proxy.flags := by
  rw [rspSend, queued]
  simp only [nonempty, Bool.and_self, if_true, flags_msgWrite]
  exact flags_modify _ _ fun _ => rfl

/-- A failed write marks the link. -/
theorem flags_rspSend_failed {smsg : Buffer} {rest : List Buffer} {written : Bool}
    (queued : (proxy.links conn).imsgQ = smsg :: rest)
    (failed : ¬(written = true ∧ smsg.nonempty = true)) :
    ((proxy.rspSend conn written).flags conn).error = true := by
  rw [rspSend, queued]
  simp [failed, markError, fdDel, modify, flags]

/-! ## Replies -/

/-- `rsp_mapped_forward` queues the answer for the owner of the oldest request. -/
theorem rspMappedForward_cases {msg : Buffer}
    (handled : proxy.rspMappedForward conn msg = .ok after) :
    ∃ pmsg rest client, (proxy.links conn).omsgQ = pmsg :: rest ∧
      pmsg.owner = some client ∧ client ≠ conn ∧
      proxy.Becomes ((proxy.traffic.pop conn).push client msg) after := by
  unfold rspMappedForward at handled
  split at handled
  · cases handled
  next pmsg rest sent =>
    split at handled
    · cases handled
    next client owner =>
      split at handled
      · cases handled
      next different =>
        cases handled
        exact ⟨pmsg, rest, client, sent, owner, different, by simp [queueReply],
          by simp [queueReply], by simp [queueReply]⟩

/-- The chain hands the oldest request to `slave`. -/
theorem passOn_cases {slave : LinkPtr} {mustBeWrite : Bool}
    (handled : proxy.passOn conn slave mustBeWrite = .ok after) :
    ∃ pmsg rest, (proxy.links conn).omsgQ = pmsg :: rest ∧
      proxy.Becomes ((proxy.traffic.pop conn).push slave pmsg) after := by
  unfold passOn at handled
  split at handled
  · cases handled
  · split at handled
    · cases handled
    next pmsg rest sent =>
      split at handled
      · split at handled <;> cases handled
      · split at handled
        · cases handled
          exact ⟨pmsg, rest, sent, by simp, by simp, by simp⟩
        · cases handled

/-- The branches of `replica_rsp_recv`. -/
inductive ReplicaReply (cfg : Config) (proxy : Proxy) (conn master : LinkPtr)
    (msg : Buffer) (after : Proxy) : Prop where
  /-- the chain goes on -/
  | next {slave : LinkPtr} {pmsg : Buffer} {rest : List Buffer}
      (chain : cfg.msStrongCr = true) (fwd : (proxy.links master).fwdToReplicas = true)
      (inner : (proxy.links conn).slaveNumber < cfg.replicas - 1)
      (found : proxy.getSlaveNumber master ((proxy.links conn).slaveNumber + 1) =
        .ok (some slave))
      (sent : (proxy.links conn).omsgQ = pmsg :: rest)
      (moved : proxy.Becomes ((proxy.traffic.pop conn).push slave pmsg) after)
  /-- the chain ends -/
  | last {client : LinkPtr} {pmsg : Buffer} {rest : List Buffer}
      (chain : cfg.msStrongCr = true) (fwd : (proxy.links master).fwdToReplicas = true)
      (tail : ¬(proxy.links conn).slaveNumber < cfg.replicas - 1)
      (sent : (proxy.links conn).omsgQ = pmsg :: rest) (owner : pmsg.owner = some client)
      (moved : proxy.Becomes ((proxy.traffic.pop conn).push client msg) after)
  /-- a read answered by the tail -/
  | read {client : LinkPtr} {pmsg : Buffer} {rest : List Buffer}
      (chain : cfg.msStrongCr = true) (fwd : (proxy.links master).fwdToReplicas = false)
      (tail : (proxy.links conn).tail = true)
      (sent : (proxy.links conn).omsgQ = pmsg :: rest) (owner : pmsg.owner = some client)
      (traffic : after.traffic = (proxy.traffic.pop conn).push client msg)
      (shape : after.shape = proxy.shape)
      (flags : after.flags =
        Function.update proxy.flags conn { proxy.flags conn with tail := false })
  /-- nobody waits for this answer -/
  | dropped
      (unused : cfg.msStrongCr = false ∨
        (proxy.links master).fwdToReplicas = false ∧ (proxy.links conn).tail = false)
      (moved : proxy.Becomes (proxy.traffic.pop conn) after)

theorem replicaRspRecv_cases {cfg : Config} {msg : Buffer}
    (handled : proxy.replicaRspRecv cfg conn (some msg) = .ok after) :
    ∃ master, proxy.getMasterOfSlave conn = some master ∧
      ReplicaReply cfg proxy conn master msg after := by
  unfold replicaRspRecv at handled
  split at handled
  · cases handled
  simp only at handled
  split at handled
  · cases handled
  next master found =>
    refine ⟨master, found, ?_⟩
    split at handled
    · cases handled
    split at handled
    next forwarding =>
      obtain ⟨chain, fwd⟩ := Bool.and_eq_true_iff.mp forwarding
      split at handled
      next inner =>
        split at handled
        next slave number =>
          split at handled
          · cases handled
          · obtain ⟨pmsg, rest, sent, moved⟩ := passOn_cases handled
            exact .next chain fwd inner number sent moved
        · cases handled
        · cases handled
      next tail =>
        split at handled
        · cases handled
        next pmsg rest sent =>
          split at handled
          · cases handled
          next client owner =>
            cases handled
            exact .last chain fwd tail sent owner
              ⟨by simp [queueReply], by simp [queueReply], by simp [queueReply]⟩
    next quiet =>
      split at handled
      next reading =>
        obtain ⟨chain, tail⟩ := Bool.and_eq_true_iff.mp reading
        have fwd : (proxy.links master).fwdToReplicas = false := by
          simpa [chain] using quiet
        split at handled
        next forwarded mapped =>
          cases handled
          obtain ⟨pmsg, rest, client, sent, owner, _, moved⟩ := rspMappedForward_cases mapped
          refine .read chain fwd tail sent owner ?_ ?_ ?_
          · rw [← moved.traffic]
            exact traffic_modify _ _ (fun _ => rfl) fun _ => rfl
          · rw [← moved.shape]
            exact shape_modify _ _ fun _ => rfl
          · rw [flags_modify_eq, moved.flags]
            congr 1
            have same := congrFun moved.flags conn
            simp only [flags, Link.flags, Flags.mk.injEq] at same ⊢
            simp [same]
        · cases handled
      next notReading =>
        cases handled
        refine .dropped ?_ ⟨by simp, by simp, by simp⟩
        cases chain : cfg.msStrongCr with
        | false => exact .inl rfl
        | true =>
            right
            simpa [chain] using And.intro quiet notReading

end Proxy

namespace Ctx

variable {cfg : Config} {ctx after : Ctx} {conn : LinkPtr} {msg : Buffer}

/-- The branches of `rsp_recv`. -/
inductive ServerReply (cfg : Config) (ctx : Ctx) (conn : LinkPtr) (msg : Buffer)
    (after : Ctx) : Prop where
  /-- the write goes on to the first slave -/
  | chain {slave : LinkPtr} {pmsg : Buffer} {rest : List Buffer}
      (chain : cfg.msStrongCr = true) (fwd : (ctx.proxy.links conn).fwdToReplicas = true)
      (found : ctx.proxy.getSlaveNumber conn 0 = .ok (some slave))
      (sent : (ctx.proxy.links conn).omsgQ = pmsg :: rest)
      (moved : ctx.proxy.Becomes ((ctx.proxy.traffic.pop conn).push slave pmsg) after.proxy)
      (services : after.services = ctx.services)
  /-- the answer goes to the client -/
  | direct {client : LinkPtr} {pmsg : Buffer} {rest : List Buffer}
      (notChain : ¬(cfg.msStrongCr = true ∧ (ctx.proxy.links conn).fwdToReplicas = true))
      (unlocked : cfg.aaStrong = false)
      (sent : (ctx.proxy.links conn).omsgQ = pmsg :: rest) (owner : pmsg.owner = some client)
      (moved : ctx.proxy.Becomes
        ((ctx.proxy.traffic.pop conn).push client { msg with id := 2 }) after.proxy)
      (services : after.services = ctx.services)
  /-- the lock is released and the answer goes to the client -/
  | unlock {key : Key} {client : LinkPtr} {pmsg : Buffer} {rest : List Buffer}
      (locked : cfg.aaStrong = true) (held : (ctx.proxy.links conn).key = some key)
      (sent : (ctx.proxy.links conn).omsgQ = pmsg :: rest) (owner : pmsg.owner = some client)
      (traffic : after.proxy.traffic =
        (ctx.proxy.traffic.pop conn).push client { msg with id := 2 })
      (shape : after.proxy.shape = ctx.proxy.shape)
      (flags : after.proxy.flags = Function.update ctx.proxy.flags conn
        { ctx.proxy.flags conn with key := none })
      (services : after.services = ctx.services.unlock pmsg.tag key)

theorem rspRecv_cases (handled : ctx.rspRecv cfg conn (some msg) = .ok after) :
    ServerReply cfg ctx conn msg after := by
  have direct : ∀ {proxy},
      (¬(cfg.msStrongCr = true ∧ (ctx.proxy.links conn).fwdToReplicas = true)) →
      cfg.aaStrong = false →
      ctx.proxy.rspMappedForward conn { msg with id := 2 } = .ok proxy →
      ServerReply cfg ctx conn msg { ctx with proxy } := by
    intro proxy notChain unlocked mapped
    obtain ⟨pmsg, rest, client, sent, owner, _, moved⟩ := Proxy.rspMappedForward_cases mapped
    exact .direct notChain unlocked sent owner moved rfl
  unfold rspRecv at handled
  simp only at handled
  split at handled
  next forwarding =>
    obtain ⟨strong, fwd⟩ := Bool.and_eq_true_iff.mp forwarding
    have notAa : cfg.aaStrong = false := by
      simp only [Config.msStrong, Bool.and_eq_true, decide_eq_true_eq] at strong
      simp [Config.aaStrong, strong.2]
    split at handled
    next technique =>
      split at handled
      next slave found =>
        split at handled
        next proxy passed =>
          cases handled
          obtain ⟨pmsg, rest, sent, moved⟩ := Proxy.passOn_cases passed
          exact .chain (by simp [Config.msStrongCr, strong, technique]) fwd found sent moved rfl
        · cases handled
      · cases handled
      · cases handled
    · cases handled
    · cases handled
    next notCr _ _ =>
      split at handled
      next proxy mapped =>
        cases handled
        refine direct (fun both => ?_) notAa mapped
        simp only [Config.msStrongCr, Bool.and_eq_true, decide_eq_true_eq] at both
        exact notCr both.1.2
      · cases handled
  next notForwarding =>
    have notChain :
        ¬(cfg.msStrongCr = true ∧ (ctx.proxy.links conn).fwdToReplicas = true) := by
      rintro ⟨chain, fwd⟩
      simp only [Config.msStrongCr, Bool.and_eq_true] at chain
      exact notForwarding (by simp [chain.1, fwd])
    split at handled
    next locked =>
      split at handled
      next key held =>
        split at handled
        next proxy mapped =>
          cases handled
          obtain ⟨pmsg, rest, client, sent, owner, _, moved⟩ :=
            Proxy.rspMappedForward_cases mapped
          have sentBefore : (ctx.proxy.links conn).omsgQ = pmsg :: rest := by
            simpa [Proxy.modify] using sent
          refine .unlock locked held sentBefore owner ?_ ?_ ?_ ?_
          · rw [moved.traffic]
            congr 2
            exact Proxy.traffic_modify _ _ (fun _ => rfl) fun _ => rfl
          · exact moved.shape.trans (Proxy.shape_modify _ _ fun _ => rfl)
          · rw [moved.flags]
            exact Proxy.flags_modify_eq _ _ _
          · simp [sentBefore]
        · cases handled
      · cases handled
    next notLocked =>
      split at handled
      next proxy mapped =>
        cases handled
        exact direct notChain (by simpa using notLocked) mapped
      · cases handled

end Ctx

/-! ## Requests -/

namespace Proxy

variable {cfg : Config} {proxy after : Proxy} {conn server out : LinkPtr} {frame : Frame}

/-- The branches of `get_mapped_server_conn`, for the datalet link `server` of the
client; the request goes to `out`. -/
inductive Routed (cfg : Config) (proxy : Proxy) (server : LinkPtr) (frame : Frame) (text : Key)
    (after : Proxy) : LinkPtr → Prop where
  | locked (active : cfg.aaStrong = true)
      (key : (after.flags server).key = some text)
      (fwd : (after.flags server).fwdToReplicas =
        (decide (frame.cmd = .set) || (proxy.flags server).fwdToReplicas)) :
      Routed cfg proxy server frame text after server
  | write (passive : cfg.aaStrong = false) (isSet : frame.cmd = .set)
      (fwd : (after.flags server).fwdToReplicas = true) :
      Routed cfg proxy server frame text after server
  | tailRead {tail : LinkPtr} (passive : cfg.aaStrong = false) (notSet : frame.cmd ≠ .set)
      (chain : cfg.msStrongCr = true)
      (found : proxy.getSlaveNumber server (cfg.replicas - 1) = .ok (some tail))
      (fwd : (after.flags server).fwdToReplicas = false)
      (tailFwd : (after.flags tail).fwdToReplicas = false)
      (isTail : (after.flags tail).tail = true) :
      Routed cfg proxy server frame text after tail
  | read (passive : cfg.aaStrong = false) (notSet : frame.cmd ≠ .set)
      (notChain : cfg.msStrongCr = false)
      (fwd : (after.flags server).fwdToReplicas = false) :
      Routed cfg proxy server frame text after server

theorem getSlaveNumber_congr {other : Proxy} (shape : other.shape = proxy.shape)
    (master : LinkPtr) (number : Int) :
    other.getSlaveNumber master number = proxy.getSlaveNumber master number := by
  have msMap : other.msMap = proxy.msMap := congrArg Shape.msMap shape
  simp only [getSlaveNumber, msMap]

/-- Routing changes flags of the links it concerns and nothing else. -/
structure Steers (proxy : Proxy) (server out : LinkPtr) (after : Proxy) : Prop where
  traffic : after.traffic = proxy.traffic
  shape : after.shape = proxy.shape
  others : ∀ ptr, ptr ≠ server → ptr ≠ out → after.flags ptr = proxy.flags ptr
  error : ∀ ptr, (after.flags ptr).error = (proxy.flags ptr).error

theorem steers_modify {change : Link → Link} (proxy : Proxy) (server out : LinkPtr)
    {target : LinkPtr} (aimed : target = server ∨ target = out)
    (imsgQ : ∀ link, (change link).imsgQ = link.imsgQ)
    (omsgQ : ∀ link, (change link).omsgQ = link.omsgQ)
    (info : ∀ link, (change link).toLinkInfo = link.toLinkInfo)
    (error : ∀ link, (change link).error = link.error) :
    proxy.Steers server out (proxy.modify target change) where
  traffic := traffic_modify proxy target imsgQ omsgQ
  shape := shape_modify proxy target info
  others := by
    intro ptr notServer notOut
    have different : ptr ≠ target := by
      rcases aimed with rfl | rfl <;> assumption
    rw [flags_modify_eq, Function.update_of_ne different]
  error := by
    intro ptr
    rw [flags_modify_eq]
    by_cases here : ptr = target
    · subst here
      simp [error, flags]
    · rw [Function.update_of_ne here]

theorem Steers.trans {middle : Proxy} (first : proxy.Steers server out middle)
    (second : middle.Steers server out after) : proxy.Steers server out after where
  traffic := second.traffic.trans first.traffic
  shape := second.shape.trans first.shape
  others := fun ptr notServer notOut =>
    (second.others ptr notServer notOut).trans (first.others ptr notServer notOut)
  error := fun ptr => (second.error ptr).trans (first.error ptr)

theorem Steers.refl (proxy : Proxy) (server out : LinkPtr) : proxy.Steers server out proxy :=
  ⟨rfl, rfl, fun _ _ _ => rfl, fun _ => rfl⟩

theorem getMappedServerConn_cases {text : Key}
    (mapped : proxy.getMappedServerConn cfg conn frame text = .ok (after, out)) :
    ∃ server, (proxy.links conn).dataletConn = some server ∧
      Routed cfg proxy server frame text after out ∧ proxy.Steers server out after := by
  unfold getMappedServerConn at mapped
  split at mapped
  · cases mapped
  next server assigned =>
    refine ⟨server, assigned, ?_⟩
    split at mapped
    next active =>
      cases mapped
      refine ⟨.locked active ?_ ?_, steers_modify proxy out out (.inl rfl) (fun _ => rfl)
        (fun _ => rfl) (fun _ => rfl) fun _ => rfl⟩
      · simp [flags_modify_eq]
      · by_cases isSet : frame.cmd = .set <;> simp [modify, isSet, flags]
    next active =>
      have passive : cfg.aaStrong = false := by simpa using active
      have keyed : ∀ target, proxy.Steers server target
          (if cfg.consistencyModel.atLeastEventual then
            proxy.modify server fun link => { link with key := none } else proxy) := by
        intro target
        split
        · exact steers_modify proxy server target (.inl rfl) (fun _ => rfl) (fun _ => rfl)
            (fun _ => rfl) fun _ => rfl
        · exact .refl proxy server target
      revert mapped
      generalize (if cfg.consistencyModel.atLeastEventual then
        proxy.modify server fun link => { link with key := none } else proxy) = cleared at keyed
      intro mapped
      split at mapped
      next isSet =>
        cases mapped
        refine ⟨.write passive isSet (by simp [flags_modify_eq]), (keyed out).trans ?_⟩
        exact steers_modify cleared out out (.inl rfl) (fun _ => rfl) (fun _ => rfl)
          (fun _ => rfl) fun _ => rfl
      next notSet =>
        have lowered : ∀ target, cleared.Steers server target
            (cleared.modify server fun link => { link with fwdToReplicas := false }) :=
          fun target => steers_modify cleared server target (.inl rfl) (fun _ => rfl)
            (fun _ => rfl) (fun _ => rfl) fun _ => rfl
        split at mapped
        next chain =>
          simp only at mapped
          split at mapped
          next tail found =>
            cases mapped
            have numbered := getSlaveNumber_congr
              ((lowered server).shape.trans (keyed server).shape) server (cfg.replicas - 1)
            refine ⟨.tailRead passive notSet chain (numbered.symm.trans found) ?_ ?_ ?_,
              ((keyed out).trans (lowered out)).trans ?_⟩
            · by_cases same : server = out <;> simp [modify, flags, same]
            · simp [modify, flags]
            · simp [modify, flags]
            · exact steers_modify _ server out (.inr rfl) (fun _ => rfl) (fun _ => rfl)
                (fun _ => rfl) fun _ => rfl
          · cases mapped
          · cases mapped
        next notChain =>
          cases mapped
          exact ⟨.read passive notSet (by simpa using notChain) (by simp [flags_modify_eq]),
            (keyed out).trans (lowered out)⟩

theorem Becomes.trans {traffic later : Traffic} {middle : Proxy}
    (first : proxy.Becomes traffic middle) (second : middle.Becomes later after) :
    proxy.Becomes later after :=
  ⟨second.traffic, second.shape.trans first.shape, second.flags.trans first.flags⟩

theorem becomes_push (proxy : Proxy) (ptr : LinkPtr) (req : Buffer) :
    proxy.Becomes (proxy.traffic.push ptr req) (proxy.pushImsg ptr req) :=
  ⟨traffic_pushImsg proxy ptr req, shape_pushImsg proxy ptr req, flags_pushImsg proxy ptr req⟩

theorem becomes_fanOut (proxy : Proxy) (req : Buffer) (slaves : List LinkPtr) :
    proxy.Becomes (proxy.traffic.fan req slaves) (proxy.fanOut req slaves) := by
  induction slaves generalizing proxy with
  | nil => exact ⟨rfl, rfl, rfl⟩
  | cons slave rest ih =>
      have queued : proxy.Becomes (proxy.traffic.push slave req)
          ((proxy.armOut slave).pushImsg slave req) := ⟨by simp, by simp, by simp⟩
      have fanned := ih ((proxy.armOut slave).pushImsg slave req)
      rw [queued.traffic] at fanned
      exact queued.trans fanned

end Proxy

namespace Ctx

variable {cfg : Config} {ctx after : Ctx} {conn out : LinkPtr} {frame : Frame}
variable {req : Buffer}

/-- The branches of the locking part of `req_recv`. -/
inductive Acquired (cfg : Config) (ctx : Ctx) (out : LinkPtr) (req : Buffer)
    (frame : Frame) : Bool → Ctx → Prop where
  /-- a write that got the lock is copied to the slaves -/
  | write {key : Key} {tag : ReqId} (active : cfg.aaStrong = true)
      (redlock : cfg.consistencyTechnique = .rl)
      (held : (ctx.proxy.links out).key = some key) (tagged : req.tag = some tag)
      (fwd : (ctx.proxy.links out).fwdToReplicas = true)
      (granted : (ctx.services.lock tag (frame.cmd = .set) key).1 = true) :
      Acquired cfg ctx out req frame true
        { proxy := ctx.proxy.fanOut req (ctx.proxy.getSlaves out)
          services := (ctx.services.lock tag (frame.cmd = .set) key).2 }
  /-- a write that did not get the lock -/
  | refused {key : Key} {tag : ReqId} (active : cfg.aaStrong = true)
      (redlock : cfg.consistencyTechnique = .rl)
      (held : (ctx.proxy.links out).key = some key) (tagged : req.tag = some tag)
      (fwd : (ctx.proxy.links out).fwdToReplicas = true)
      (granted : (ctx.services.lock tag (frame.cmd = .set) key).1 = false) :
      Acquired cfg ctx out req frame false
        { ctx with services := (ctx.services.lock tag (frame.cmd = .set) key).2 }
  /-- any other request asks for the lock and does not look at the outcome -/
  | read {key : Key} {tag : ReqId} (active : cfg.aaStrong = true)
      (redlock : cfg.consistencyTechnique = .rl)
      (held : (ctx.proxy.links out).key = some key) (tagged : req.tag = some tag)
      (fwd : (ctx.proxy.links out).fwdToReplicas = false) :
      Acquired cfg ctx out req frame true
        { ctx with services := (ctx.services.lock tag (frame.cmd = .set) key).2 }
  /-- no lock is needed -/
  | free (unlocked : ¬(cfg.aaStrong = true ∧ cfg.consistencyTechnique = .rl)) :
      Acquired cfg ctx out req frame true ctx

theorem acquire_cases {granted : Bool}
    (acquired : ctx.acquire cfg out req frame = .ok (granted, after)) :
    Acquired cfg ctx out req frame granted after := by
  unfold acquire at acquired
  simp only at acquired
  split at acquired
  next locking =>
    obtain ⟨active, redlock⟩ := Bool.and_eq_true_iff.mp locking
    have redlock := of_decide_eq_true redlock
    split at acquired
    next key tag held tagged =>
      split at acquired
      next fwd =>
        split at acquired
        next granted =>
          cases acquired
          exact .write active redlock held tagged fwd granted
        next refused =>
          cases acquired
          exact .refused active redlock held tagged fwd (by simpa using refused)
      next notFwd =>
        cases acquired
        exact .read active redlock held tagged (by simpa using notFwd)
    · cases acquired
  next notLocking =>
    have unlocked : ¬(cfg.aaStrong = true ∧ cfg.consistencyTechnique = .rl) := by
      simpa using notLocking
    split at acquired
    next strong =>
      split at acquired
      · cases acquired
      · cases acquired
      next =>
        cases acquired
        exact .free unlocked
    · cases acquired
      exact .free unlocked

/-- Locks do not concern the log. -/
theorem Acquired.kafka {granted : Bool} (acquired : Acquired cfg ctx out req frame granted after) :
    after.services.kafka = ctx.services.kafka := by
  cases acquired <;> rfl

theorem forward_kafka (ctx : Ctx) (key : Key) :
    (ctx.forward cfg out req key).services.kafka = ctx.services.kafka := by
  simp only [forward]
  split <;> rfl

/-- One iteration of the loop of `req_recv`, cut into routing, locking and
forwarding. -/
theorem reqSegment_acquire {rest : List Frame} {freed : Nat → Key → Key} {continues : Bool}
    (handled : ctx.reqSegment cfg conn frame rest freed = .ok (continues, after)) :
    ∃ mapped out locked,
      ctx.proxy.getMappedServerConn cfg conn frame (ctx.keyText conn frame freed) =
        .ok (mapped, out) ∧
      acquire cfg
        { proxy := receive (mapped.armOut out) conn (segment mapped conn out frame)
          services := if produces cfg mapped out then
              ctx.services.produce (segment mapped conn out frame)
            else ctx.services }
        out (segment mapped conn out frame) frame = .ok (continues, locked) ∧
      after = if continues then locked.forward cfg out (segment mapped conn out frame) frame.key
        else { locked with proxy := locked.proxy.pushBack conn rest } := by
  unfold reqSegment at handled
  split at handled
  · cases handled
  next mapped out routed =>
    simp only at handled
    split at handled
    · cases handled
    · split at handled
      · cases handled
      next locked acquired =>
        cases handled
        exact ⟨mapped, out, locked, routed, acquired, rfl⟩
      next locked acquired =>
        cases handled
        exact ⟨mapped, out, locked, routed, acquired, rfl⟩

theorem reqSegment_cases {rest : List Frame} {freed : Nat → Key → Key} {continues : Bool}
    (handled : ctx.reqSegment cfg conn frame rest freed = .ok (continues, after)) :
    ∃ mapped out locked,
      ctx.proxy.getMappedServerConn cfg conn frame (ctx.keyText conn frame freed) =
        .ok (mapped, out) ∧
      Acquired cfg
        { proxy := receive (mapped.armOut out) conn (segment mapped conn out frame)
          services := if produces cfg mapped out then
              ctx.services.produce (segment mapped conn out frame)
            else ctx.services }
        out (segment mapped conn out frame) frame continues locked ∧
      after = if continues then locked.forward cfg out (segment mapped conn out frame) frame.key
        else { locked with proxy := locked.proxy.pushBack conn rest } := by
  obtain ⟨mapped, out, locked, routed, acquired, result⟩ := reqSegment_acquire handled
  exact ⟨mapped, out, locked, routed, acquire_cases acquired, result⟩

/-- The request is copied to every slave before it is queued for the master. -/
def fansOutBefore (cfg : Config) (proxy : Proxy) (out : LinkPtr) : Bool :=
  cfg.aaStrong && cfg.consistencyTechnique = .rl && (proxy.links out).fwdToReplicas

/-- Traffic after a request was taken up and forwarded. -/
def forwarded (cfg : Config) (proxy : Proxy) (out : LinkPtr) (traffic : Traffic)
    (req : Buffer) : Traffic :=
  let first := if fansOutBefore cfg proxy out then proxy.getSlaves out else []
  let second := if fansOutAfter cfg proxy out then proxy.getSlaves out else []
  ((traffic.fan req first).push out req).fan req second

theorem getSlaves_congr {proxy other : Proxy} (shape : other.shape = proxy.shape)
    (master : LinkPtr) : other.getSlaves master = proxy.getSlaves master := by
  have msMap : other.msMap = proxy.msMap := congrArg Shape.msMap shape
  simp only [Proxy.getSlaves, msMap]

theorem fwd_congr {proxy other : Proxy} (flags : other.flags = proxy.flags) (ptr : LinkPtr) :
    (other.links ptr).fwdToReplicas = (proxy.links ptr).fwdToReplicas :=
  congrArg Flags.fwdToReplicas (congrFun flags ptr)

theorem forward_becomes (ctx : Ctx) (key : Key) :
    ctx.proxy.Becomes
      ((ctx.proxy.traffic.push out req).fan req
        (if fansOutAfter cfg ctx.proxy out then ctx.proxy.getSlaves out else []))
      (ctx.forward cfg out req key).proxy := by
  have queued := Proxy.becomes_push ctx.proxy out req
  have fans : fansOutAfter cfg (ctx.proxy.pushImsg out req) out =
      fansOutAfter cfg ctx.proxy out := by
    rw [fansOutAfter, fansOutAfter, fwd_congr queued.flags]
  simp only [forward, fans, getSlaves_congr queued.shape]
  by_cases fanned : fansOutAfter cfg ctx.proxy out = true
  · have after := Proxy.becomes_fanOut (ctx.proxy.pushImsg out req) req
      (ctx.proxy.getSlaves out)
    rw [queued.traffic] at after
    simpa [fanned] using queued.trans after
  · simpa [fanned, Traffic.fan] using queued

/-- Forwarding after steps that only moved messages. -/
theorem forward_becomes_of {mapped : Proxy} {traffic : Traffic} {locked : Ctx}
    (moved : mapped.Becomes traffic locked.proxy) (key : Key) :
    mapped.Becomes
      ((traffic.push out req).fan req
        (if fansOutAfter cfg mapped out then mapped.getSlaves out else []))
      (locked.forward cfg out req key).proxy := by
  have after : locked.proxy.Becomes _ (locked.forward cfg out req key).proxy :=
    forward_becomes locked key
  have fans : fansOutAfter cfg locked.proxy out = fansOutAfter cfg mapped out := by
    rw [fansOutAfter, fansOutAfter, fwd_congr moved.flags]
  rw [moved.traffic, fans, getSlaves_congr moved.shape] at after
  exact moved.trans after

theorem pushBack_becomes (proxy : Proxy) (rest : List Frame) :
    proxy.Becomes (proxy.traffic.pushBack conn rest) (proxy.pushBack conn rest) := by
  refine ⟨?_, ?_, ?_⟩
  · simp only [Proxy.pushBack, Proxy.traffic_setIn]
    rw [Proxy.traffic_modify_eq, Traffic.pushBack, ← Proxy.traffic_omsgQ,
      Function.update_eq_self, Proxy.traffic_imsgQ]
  · rw [Proxy.pushBack, Proxy.shape_setIn]
    exact Proxy.shape_modify _ _ fun _ => rfl
  · rw [Proxy.pushBack, Proxy.flags_setIn]
    exact Proxy.flags_modify _ _ fun _ => rfl

/-- A segment that was granted is received, copied and queued; a refused one stops
the loop. -/
theorem reqSegment_effect {rest : List Frame} {freed : Nat → Key → Key} {continues : Bool}
    (handled : ctx.reqSegment cfg conn frame rest freed = .ok (continues, after)) :
    ∃ mapped out server, (ctx.proxy.links conn).dataletConn = some server ∧
      Proxy.Routed cfg ctx.proxy server frame (ctx.keyText conn frame freed) mapped out ∧
      ctx.proxy.Steers server out mapped ∧
      mapped.Becomes
        (if continues then
          forwarded cfg mapped out
            (ctx.proxy.traffic.receive conn (segment mapped conn out frame))
            (segment mapped conn out frame)
        else
          (ctx.proxy.traffic.receive conn (segment mapped conn out frame)).pushBack conn rest)
        after.proxy ∧
      (continues = false → cfg.aaStrong = true ∧ cfg.consistencyTechnique = .rl) ∧
      after.services.kafka = ctx.services.kafka ++
        (if produces cfg mapped out then [segment mapped conn out frame] else []) := by
  obtain ⟨mapped, out, locked, routed, acquired, rfl⟩ := reqSegment_cases handled
  obtain ⟨server, assigned, route, steers⟩ := Proxy.getMappedServerConn_cases routed
  refine ⟨mapped, out, server, assigned, route, steers, ?_⟩
  rw [← steers.traffic]
  generalize segment mapped conn out frame = req at acquired ⊢
  have log : locked.services.kafka =
      ctx.services.kafka ++ (if produces cfg mapped out then [req] else []) := by
    rw [acquired.kafka]
    split
    · rfl
    · simp
  have produced : (if continues then locked.forward cfg out req frame.key
      else { locked with proxy := locked.proxy.pushBack conn rest }).services.kafka =
      ctx.services.kafka ++ (if produces cfg mapped out then [req] else []) := by
    cases continues with
    | true => exact (forward_kafka locked frame.key).trans log
    | false => exact log
  rw [← and_assoc]
  refine ⟨?_, produced⟩
  have received : mapped.Becomes (mapped.traffic.receive conn req)
      (receive (mapped.armOut out) conn req) := ⟨rfl, rfl, rfl⟩
  -- a request that is not copied first is queued as it was received
  have plain : ∀ services, fansOutBefore cfg mapped out = false →
      mapped.Becomes (forwarded cfg mapped out (mapped.traffic.receive conn req) req)
        (forward cfg ⟨receive (mapped.armOut out) conn req, services⟩ out req
          frame.key).proxy := by
    intro services notBefore
    simp only [forwarded, notBefore]
    exact forward_becomes_of received frame.key
  cases acquired with
  | write active redlock held tagged fwd granted =>
      have before : fansOutBefore cfg mapped out = true := by
        rw [fwd_congr received.flags] at fwd
        simp [fansOutBefore, active, redlock, fwd]
      have copied := Proxy.becomes_fanOut (receive (mapped.armOut out) conn req) req
        (mapped.getSlaves out)
      refine ⟨?_, by simp⟩
      simp only [forwarded, before, if_true]
      exact forward_becomes_of (received.trans copied) frame.key
  | refused active redlock held tagged fwd granted =>
      exact ⟨received.trans (pushBack_becomes _ rest), fun _ => ⟨active, redlock⟩⟩
  | read active redlock held tagged fwd =>
      rw [fwd_congr received.flags] at fwd
      exact ⟨plain _ (by simp [fansOutBefore, fwd]), by simp⟩
  | free unlocked =>
      refine ⟨plain _ ?_, by simp⟩
      by_contra fans
      simp only [fansOutBefore, Bool.and_eq_true, decide_eq_true_eq, Bool.not_eq_false] at fans
      exact unlocked fans.1

/-- A property of the state and of the frames still to be read that every iteration
preserves holds when the loop of `req_recv` ends. -/
theorem reqLoop_induction {freed : Nat → Key → Key} {P : Ctx → List Frame → Prop}
    {frames : List Frame} (start : P ctx frames)
    (advance : ∀ ctx frame rest continues after, P ctx (frame :: rest) →
      ctx.reqSegment cfg conn frame rest freed = .ok (continues, after) →
      P after (if continues then rest else []))
    (handled : reqLoop cfg conn freed ctx frames = .ok after) : P after [] := by
  induction frames generalizing ctx with
  | nil =>
      cases handled
      exact start
  | cons frame rest ih =>
      simp only [reqLoop] at handled
      split at handled
      · cases handled
      next next segment =>
        exact ih (by simpa using advance _ _ _ _ _ start segment) handled
      next next segment =>
        cases handled
        simpa using advance _ _ _ _ _ start segment

/-- The state in which the loop of `req_recv` goes on, if it does. -/
def goesOn : Except Fault (Bool × Ctx) → Option Ctx
  | .ok (true, next) => some next
  | _ => none

/-- Every frame of a read meets a condition, with the text its key is read as, when the loop of
`req_recv` reaches it. -/
def EachFrame (F : Ctx → LinkPtr → Frame → Key → Prop) (cfg : Config) (conn : LinkPtr)
    (freed : Nat → Key → Key) : Ctx → List Frame → Prop
  | _, [] => True
  | ctx, frame :: rest =>
      F ctx conn frame (ctx.keyText conn frame freed) ∧
        ∀ next ∈ goesOn (ctx.reqSegment cfg conn frame rest freed),
          EachFrame F cfg conn freed next rest

instance decidableEachFrame (F : Ctx → LinkPtr → Frame → Key → Prop)
    [∀ ctx conn frame key, Decidable (F ctx conn frame key)] (cfg : Config) (conn : LinkPtr)
    (freed : Nat → Key → Key) :
    (ctx : Ctx) → (frames : List Frame) → Decidable (EachFrame F cfg conn freed ctx frames)
  | _, [] => isTrue trivial
  | ctx, frame :: rest =>
      have (next : Ctx) : Decidable (EachFrame F cfg conn freed next rest) :=
        decidableEachFrame F cfg conn freed next rest
      inferInstanceAs (Decidable (F ctx conn frame (ctx.keyText conn frame freed) ∧
        ∀ next ∈ goesOn (ctx.reqSegment cfg conn frame rest freed),
          EachFrame F cfg conn freed next rest))

end Ctx

/-- Every frame that is read from a client meets a condition when it is parsed. -/
def Event.EachFrame {engine : Engine} (F : Ctx → LinkPtr → Frame → Key → Prop) (cfg : Config)
    (state : State engine) : Event → Prop
  | .request client (some frames) freed => Ctx.EachFrame F cfg client freed state.toCtx frames
  | _ => True

instance {engine : Engine} (F : Ctx → LinkPtr → Frame → Key → Prop)
    [∀ ctx conn frame key, Decidable (F ctx conn frame key)] (cfg : Config) (state : State engine) :
    DecidablePred (Event.EachFrame F cfg state) := fun event =>
  match event with
  | .request client (some frames) freed =>
      inferInstanceAs (Decidable (Ctx.EachFrame F cfg client freed state.toCtx frames))
  | .request _ none _ => isTrue trivial
  | .accept _ => isTrue trivial
  | .response _ => isTrue trivial
  | .writable _ _ => isTrue trivial
  | .serve _ => isTrue trivial

/-! ## Steps of the system -/

namespace State

variable {engine : Engine} {cfg : Config} {state after : State engine} {link : LinkPtr}

/-- What was served depends on the shape of the proxy and on the datalets only. -/
theorem servedOn_congr (shape : after.proxy.shape = state.proxy.shape)
    (datalets : after.datalets = state.datalets) : after.servedOn = state.servedOn := by
  funext ptr
  have pid : after.proxy.pid = state.proxy.pid := congrArg Shape.pid shape
  have peer : (after.proxy.links ptr).peer = (state.proxy.links ptr).peer :=
    congrArg LinkInfo.peer (congrFun (congrArg Shape.info shape) ptr)
  unfold servedOn connOf
  rw [peer, datalets, pid]

/-- The message `msg_read` returns for a datalet's answer. -/
def answer (reply : Reply) : Buffer := { content := .reply reply }

/-- The branches of `NetworkServer::recv` on a datalet link. -/
inductive Responded (cfg : Config) (state : State engine) (link : LinkPtr) (reply : Reply)
    (after : State engine) : Prop where
  | ignored (error : (state.proxy.links link).error = true) (same : after = state)
  | server (healthy : (state.proxy.links link).error = false)
      (isServer : (state.proxy.links link).nwFunc = .response) {ctx : Ctx}
      (handled : Ctx.ServerReply cfg
        { state.toCtx with proxy := takeReply state.proxy link } link (answer reply) ctx)
      (same : after = state.withCtx ctx)
  | replica (healthy : (state.proxy.links link).error = false)
      (isReplica : (state.proxy.links link).nwFunc = .replica) {master : LinkPtr}
      {proxy : Proxy}
      (found : (takeReply state.proxy link).getMasterOfSlave link = some master)
      (handled : Proxy.ReplicaReply cfg (takeReply state.proxy link) link master
        (answer reply) proxy)
      (same : after = state.withProxy proxy)

theorem recvResponse_cases (moved : state.recvResponse cfg link = .ok after) :
    ∃ reply replies, (state.proxy.wire link).rsp = reply :: replies ∧
      Responded cfg state link reply after := by
  unfold recvResponse at moved
  split at moved
  · cases moved
  next reply replies arrived =>
    refine ⟨reply, replies, arrived, ?_⟩
    split at moved
    next error =>
      cases moved
      exact .ignored error rfl
    next healthy =>
      have healthy : (state.proxy.links link).error = false := by simpa using healthy
      simp only at moved
      split at moved
      next isServer =>
        split at moved
        next ctx handled =>
          cases moved
          exact .server healthy isServer (Ctx.rspRecv_cases handled) rfl
        · cases moved
      next isReplica =>
        split at moved
        next proxy handled =>
          cases moved
          obtain ⟨master, found, reply⟩ := Proxy.replicaRspRecv_cases handled
          exact .replica healthy isReplica found reply rfl
        · cases moved
      · cases moved

/-- The branches of `NetworkServer::send`. -/
inductive Wrote (before : Proxy) (link : LinkPtr) (written : Bool) (after : Proxy) : Prop where
  | idle (nothing : (before.links link).error = true ∨ (before.links link).imsgQ = [])
      (moved : before.Becomes before.traffic after)
  | delivered {buffer : Buffer} {rest : List Buffer}
      (isClient : (before.links link).nwFunc = .request)
      (queued : (before.links link).imsgQ = buffer :: rest)
      (complete : written = true ∧ buffer.nonempty = true)
      (moved : before.Becomes (before.traffic.deliver link buffer) after)
  | failed {buffer : Buffer} {rest : List Buffer}
      (queued : (before.links link).imsgQ = buffer :: rest)
      (incomplete : written = false ∨
        (before.links link).nwFunc = .request ∧ buffer.nonempty = false)
      (lost : before.Loses link after)
  | sent {buffer : Buffer} {rest : List Buffer}
      (isDatalet : (before.links link).nwFunc = .response ∨
        (before.links link).nwFunc = .replica)
      (queued : (before.links link).imsgQ = buffer :: rest)
      (moved : before.Becomes (before.traffic.transmit link buffer) after)

theorem Wrote.shape {before after : Proxy} {written : Bool}
    (wrote : Wrote before link written after) : after.shape = before.shape := by
  cases wrote with
  | idle nothing moved => exact moved.shape
  | delivered isClient queued complete moved => exact moved.shape
  | failed queued incomplete lost => exact lost.shape
  | sent isDatalet queued moved => exact moved.shape

theorem rspSend_cases (proxy : Proxy) (link : LinkPtr) (written : Bool)
    (isClient : (proxy.links link).nwFunc = .request) :
    Wrote proxy link written (proxy.rspSend link written) := by
  cases queued : (proxy.links link).imsgQ with
  | nil =>
      refine .idle (.inr queued) ?_
      rw [Proxy.rspSend, queued]
      exact Proxy.becomes_clrOut proxy link
  | cons buffer rest =>
      have traffic := proxy.traffic_rspSend link buffer written queued
      by_cases complete : written = true ∧ buffer.nonempty = true
      · rw [if_pos (by simp [complete])] at traffic
        obtain ⟨rfl, nonempty⟩ := complete
        exact .delivered isClient queued ⟨rfl, nonempty⟩
          ⟨traffic, Proxy.shape_rspSend _ _ _, Proxy.flags_rspSend_written queued nonempty⟩
      · rw [if_neg (by simpa using complete)] at traffic
        refine .failed queued ?_ ⟨traffic, Proxy.shape_rspSend _ _ _, fun ptr different =>
          Proxy.flags_rspSend proxy written different, Proxy.flags_rspSend_failed queued complete⟩
        cases written with
        | false => exact .inl rfl
        | true => exact .inr ⟨isClient, by simpa using complete⟩

theorem sent_cases {proxy after : Proxy} {written : Bool}
    (isDatalet : (proxy.links link).nwFunc = .response ∨ (proxy.links link).nwFunc = .replica)
    (sent : proxy.Sent link written after) : Wrote proxy link written after := by
  cases sent with
  | idle empty still => exact .idle (.inr empty) still
  | sent queued complete moved => exact .sent isDatalet queued moved
  | lost queued incomplete lost => exact .failed queued (.inl incomplete) lost

theorem sendOn_cases {written : Bool} (moved : state.sendOn link written = .ok after) :
    ∃ proxy, after = state.withProxy proxy ∧ Wrote state.proxy link written proxy := by
  unfold sendOn at moved
  split at moved
  next error =>
    cases moved
    exact ⟨state.proxy, rfl, .idle (.inl error) ⟨rfl, rfl, rfl⟩⟩
  · split at moved
    next isClient =>
      cases moved
      exact ⟨_, rfl, rspSend_cases state.proxy link written isClient⟩
    next isServer =>
      split at moved
      next proxy handled =>
        cases moved
        exact ⟨proxy, rfl, sent_cases (.inl isServer) (Proxy.reqSend_cases handled)⟩
      · cases moved
    next isReplica =>
      split at moved
      next proxy handled =>
        cases moved
        exact ⟨proxy, rfl, sent_cases (.inr isReplica) (Proxy.replicaReqSend_cases handled)⟩
      · cases moved
    · cases moved

/-- A datalet serves the oldest request of a connection. -/
structure Handled (state : State engine) (link : LinkPtr) (addr : AddrType) (req : Buffer)
    (frame : Frame) (after : State engine) : Prop where
  peer : (state.proxy.links link).peer = some addr
  waiting : ∃ rest, (state.proxy.wire link).req = req :: rest
  framed : req.frame? = some frame
  moved : state.proxy.Becomes
    (state.proxy.traffic.serve link (engine.serve (state.datalets addr).state frame).2)
    after.proxy
  services : after.services = state.services
  datalets : after.datalets = Function.update state.datalets addr
    ((state.datalets addr).handle (state.connOf link) req frame)

namespace Handled

variable {addr : AddrType} {req : Buffer} {frame : Frame}

theorem pid (handled : Handled state link addr req frame after) :
    after.proxy.pid = state.proxy.pid := congrArg Shape.pid handled.moved.shape

theorem peer_eq (handled : Handled state link addr req frame after) (ptr : LinkPtr) :
    (after.proxy.links ptr).peer = (state.proxy.links ptr).peer :=
  congrArg LinkInfo.peer (congrFun (congrArg Shape.info handled.moved.shape) ptr)

theorem connOf_eq (handled : Handled state link addr req frame after) (ptr : LinkPtr) :
    after.connOf ptr = state.connOf ptr := by
  rw [connOf, connOf, handled.pid]

/-- The datalet's history on the connection grows by the request and its answer. -/
theorem servedOn_self (handled : Handled state link addr req frame after) :
    after.servedOn link = state.servedOn link ++
      [(req, .reply (engine.serve (state.datalets addr).state frame).2)] := by
  simp only [servedOn, handled.peer_eq, handled.peer, handled.connOf_eq, handled.datalets,
    Function.update_self, Datalet.handle, List.filter_append, List.map_append]
  simp

/-- Histories of other connections stay. -/
theorem servedOn_other (handled : Handled state link addr req frame after) {ptr : LinkPtr}
    (different : ptr ≠ link) : after.servedOn ptr = state.servedOn ptr := by
  have other : state.connOf link ≠ state.connOf ptr := by
    simp [connOf, different.symm]
  simp only [servedOn, handled.peer_eq, handled.connOf_eq]
  cases (state.proxy.links ptr).peer with
  | none => rfl
  | some place =>
      by_cases here : place = addr
      · subst here
        simp [handled.datalets, Datalet.handle, other]
      · simp [handled.datalets, here]

/-- The history of a datalet grows by the request at most. -/
theorem mem_log (handled : Handled state link addr req frame after) {place : AddrType}
    {entry : Served} (logged : entry ∈ (after.datalets place).log) :
    entry ∈ (state.datalets place).log ∨
      place = addr ∧
        entry = ⟨state.connOf link, req, (engine.serve (state.datalets addr).state frame).2⟩ := by
  rw [handled.datalets] at logged
  by_cases here : place = addr
  · subst here
    rw [Function.update_self, Datalet.handle, List.mem_append, List.mem_singleton] at logged
    exact logged.imp_right fun new => ⟨rfl, new⟩
  · rw [Function.update_of_ne here] at logged
    exact .inl logged

end Handled

theorem serveOn_cases (moved : state.serveOn link = .ok after) :
    ∃ addr req frame, Handled state link addr req frame after := by
  unfold serveOn at moved
  split at moved
  next addr req rest peer waiting =>
    split at moved
    next frame framed =>
      cases moved
      refine ⟨addr, req, frame, peer, ⟨rest, waiting⟩, framed, ⟨?_, rfl, rfl⟩, rfl, rfl⟩
      simp [Traffic.serve, Proxy.traffic, waiting]
    · cases moved
  · cases moved

/-- A client link whose read failed is dropped. -/
theorem recvRequest_none {client : LinkPtr} {freed : Nat → Key → Key}
    (moved : state.step cfg (.request client none freed) = .ok after) :
    after = state ∨ after = state.withProxy
      { state.proxy.fdDel client with
        freeConnPool := state.proxy.freeConnPool ++ [client] } := by
  simp only [step, recvRequest] at moved
  split at moved
  · cases moved
  split at moved
  · cases moved
    exact .inl rfl
  · cases moved
    exact .inr rfl

theorem request_datalets {client : LinkPtr} {msg : Option (List Frame)} {freed : Nat → Key → Key}
    (moved : state.step cfg (.request client msg freed) = .ok after) :
    after.datalets = state.datalets := by
  simp only [step, recvRequest] at moved
  repeat' split at moved
  all_goals cases moved
  all_goals rfl

/-- Proxies do not change datalets. -/
theorem step_datalets {event : Event} (notServe : ∀ link, event ≠ .serve link)
    (moved : state.step cfg event = .ok after) : after.datalets = state.datalets := by
  cases event with
  | accept uninit =>
      simp only [step] at moved
      split at moved
      · cases moved
        rfl
      · cases moved
  | request client msg freed => exact request_datalets moved
  | response link =>
      obtain ⟨_, _, _, responded⟩ := recvResponse_cases moved
      cases responded with
      | ignored error same => rw [same]
      | server healthy isServer handled same =>
          rw [same]
          rfl
      | replica healthy isReplica found handled same =>
          rw [same]
          rfl
  | writable link written =>
      obtain ⟨_, rfl, _⟩ := sendOn_cases moved
      rfl
  | serve link => exact absurd rfl (notServe link)

/-- Only a datalet that takes a request changes. -/
theorem step_served {event : Event} (moved : state.step cfg event = .ok after) :
    after.datalets = state.datalets ∨
      ∃ link addr req frame, Handled state link addr req frame after := by
  by_cases serves : ∃ link, event = .serve link
  · obtain ⟨link, rfl⟩ := serves
    exact .inr ⟨link, serveOn_cases moved⟩
  · exact .inl (step_datalets (fun link same => serves ⟨link, same⟩) moved)

/-- Only reads from clients add to the log. -/
theorem step_kafka {event : Event}
    (notRequest : ∀ client frames freed, event ≠ .request client (some frames) freed)
    (moved : state.step cfg event = .ok after) :
    after.services.kafka = state.services.kafka := by
  cases event with
  | accept uninit =>
      simp only [step] at moved
      split at moved
      · cases moved
        rfl
      · cases moved
  | request client msg freed =>
      cases msg with
      | none => rcases recvRequest_none moved with rfl | rfl <;> rfl
      | some frames => exact absurd rfl (notRequest client frames freed)
  | response link =>
      obtain ⟨_, _, _, responded⟩ := recvResponse_cases moved
      cases responded with
      | ignored error same => rw [same]
      | server healthy isServer handled same =>
          rw [same]
          cases handled with
          | chain _ _ _ _ _ services | direct _ _ _ _ _ services
          | unlock _ _ _ _ _ _ _ services =>
              have kafka := congrArg Services.kafka services
              exact kafka
      | replica healthy isReplica found handled same =>
          rw [same]
          rfl
  | writable link written =>
      obtain ⟨_, rfl, _⟩ := sendOn_cases moved
      rfl
  | serve link =>
      obtain ⟨_, _, _, handled⟩ := serveOn_cases moved
      rw [handled.services]

/-- Histories of datalets only grow. -/
theorem step_log {event : Event} (moved : state.step cfg event = .ok after)
    (addr : AddrType) : (state.datalets addr).log <+: (after.datalets addr).log := by
  rcases step_served moved with same | ⟨link, place, req, frame, handled⟩
  · rw [same]
  · rw [handled.datalets]
    by_cases here : addr = place
    · subst here
      rw [Function.update_self]
      exact List.prefix_append _ _
    · rw [Function.update_of_ne here]

end State

end BespoKV
