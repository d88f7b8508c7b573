import BespoKV.Active.Locking
import BespoKV.Proxy.Pending
import BespoKV.Single.Delivery

/-!
# Replication in active-active strong mode

A write that gets its lock is queued on every slave link and on the master link.  The
answer of the master alone acknowledges it and releases its lock.  At this moment it is
at every slave provided that no slave link still has it pending.
-/

namespace BespoKV

open Pipes

/-- A request that waits for its lock is granted it; `text` is what its key is read as. -/
def Ctx.Granted (ctx : Ctx) (conn : LinkPtr) (frame : Frame) (text : Key) : Prop :=
  ∀ server ∈ (ctx.proxy.links conn).dataletConn,
    frame.cmd = .set ∨ (ctx.proxy.links server).fwdToReplicas = true →
      ctx.services.redis text = none

instance (ctx : Ctx) (conn : LinkPtr) (frame : Frame) (text : Key) :
    Decidable (ctx.Granted conn frame text) :=
  inferInstanceAs (Decidable (∀ server ∈ (ctx.proxy.links conn).dataletConn, _))

variable {engine : Engine}

/-- The write whose answer `rsp_recv` is about to read is not pending on a slave link. -/
def Event.Drained (state : State engine) : Event → Prop
  | .response link => ∀ req ∈ (state.proxy.links link).omsgQ.head?, req.isSet = true →
      ∀ slave ∈ state.proxy.getSlaves link, req ∉ state.proxy.pending slave
  | _ => True

instance (state : State engine) : DecidablePred (Event.Drained state) := fun event =>
  match event with
  | .response link =>
      inferInstanceAs (Decidable (∀ req ∈ (state.proxy.links link).omsgQ.head?, _))
  | .request _ _ _ => isTrue trivial
  | .accept _ => isTrue trivial
  | .writable _ _ => isTrue trivial
  | .serve _ => isTrue trivial

/-- What an acknowledgement means to a client. -/
structure Replication (cfg : Config) (state : State engine) (client : LinkPtr) : Prop where
  /-- the client gets the master's answers to its first requests, in order -/
  replies : ∀ server ∈ (state.proxy.links client).dataletConn,
    state.replies client = (state.pipe server).answered.map Prod.snd ∧
      state.acknowledged client = (state.pipe server).answered.map Prod.fst
  /-- a write that was answered has been applied by every slave -/
  applied : ∀ req ∈ state.acknowledged client, req.isSet = true →
    ∀ addr ∈ cfg.addrs .slave, req ∈ state.applied addr client
  /-- so has a write that released its lock -/
  released : ∀ tag key, .unlock (some tag) key ∈ state.services.trace →
    ∀ req ∈ state.proxy.received client, req.tag = some tag → req.isSet = true →
      ∀ addr ∈ cfg.addrs .slave, req ∈ state.applied addr client

/-! ## The invariant of one client -/

/-- Every write is pending on a slave link or served there, and served if it was
acknowledged. -/
structure Replicating (state : State engine) (session : Session) (server : LinkPtr) :
    Prop where
  direct : ∀ lane, lane.To session server → Direct state lane
  copied : ∀ slave ∈ session.slaves, ∀ req ∈ state.proxy.received session.client,
    req.isSet = true →
      req ∈ state.proxy.pending slave ∨ req ∈ (state.servedOn slave).map Prod.fst
  safe : ∀ slave ∈ session.slaves, ∀ req ∈ state.acknowledged session.client,
    req.isSet = true → req ∈ (state.servedOn slave).map Prod.fst

/-- A link keeps what is pending, or its datalet takes the oldest pending request. -/
inductive State.Keeps (state after : State engine) (ptr : LinkPtr) : Prop where
  | still (pending : after.proxy.pending ptr = state.proxy.pending ptr)
      (served : after.servedOn ptr = state.servedOn ptr)
  | takes {req : Buffer} {reply : Content}
      (pending : state.proxy.pending ptr = req :: after.proxy.pending ptr)
      (served : after.servedOn ptr = state.servedOn ptr ++ [(req, reply)])

theorem State.Keeps.served {state after : State engine} {ptr : LinkPtr} {req : Buffer}
    (keeps : state.Keeps after ptr) (old : req ∈ (state.servedOn ptr).map Prod.fst) :
    req ∈ (after.servedOn ptr).map Prod.fst := by
  cases keeps with
  | still pending served => rwa [served]
  | takes pending served =>
      rw [served, List.map_append]
      exact List.mem_append_left _ old

theorem State.Keeps.copied {state after : State engine} {ptr : LinkPtr} {req : Buffer}
    (keeps : state.Keeps after ptr)
    (old : req ∈ state.proxy.pending ptr ∨ req ∈ (state.servedOn ptr).map Prod.fst) :
    req ∈ after.proxy.pending ptr ∨ req ∈ (after.servedOn ptr).map Prod.fst := by
  rcases old with waiting | served
  · cases keeps with
    | still pending served => exact .inl (pending ▸ waiting)
    | takes pending served =>
        rw [pending] at waiting
        rcases List.mem_cons.mp waiting with rfl | later
        · exact .inr (by simp [served])
        · exact .inl later
  · exact .inr (keeps.served served)

/-- What a handled request does to the links of the session. -/
theorem State.Handled.keeps {state after : State engine} {link ptr : LinkPtr}
    {addr : AddrType} {req : Buffer} {frame : Frame}
    (handled : state.Handled link addr req frame after) : state.Keeps after ptr := by
  by_cases here : ptr = link
  · subst here
    exact .takes handled.pending_self handled.servedOn_self
  · exact .still (handled.pending_other here) (handled.servedOn_other here)

section Steps

variable {cfg : Config} {state after : State engine} {session : Session}
variable {sessions : List Session} {server link : LinkPtr}

/-- Requests `new` arrive on the lane of a client and requests `done` leave it: they have been
acknowledged. -/
theorem Direct.acknowledged_append {lane : Lane} (direct : Direct state lane)
    (later : Direct after lane) (of : lane.To session server) (new done : List Buffer)
    (received : after.proxy.received session.client =
      state.proxy.received session.client ++ new)
    (outstanding : state.proxy.outstanding server ++ new =
      done ++ after.proxy.outstanding server) :
    after.acknowledged session.client = state.acknowledged session.client ++ done := by
  have before : state.proxy.received session.client =
    state.acknowledged session.client ++ state.proxy.outstanding server := direct.received of
  have whole : after.proxy.received session.client =
    after.acknowledged session.client ++ after.proxy.outstanding server := later.received of
  rw [received, before, List.append_assoc, outstanding, ← List.append_assoc] at whole
  exact (List.append_cancel_right whole).symm

variable (active : cfg.IsActive) (isServer : session.server = some server)

/-- Nothing is received or answered. -/
theorem Replicating.advance {lane : Lane} (replicating : Replicating state session server)
    (of : lane.To session server)
    (advances : ∀ lane, lane.To session server →
      (state.line lane).Advances (fun _ => true) (after.line lane))
    (keeps : ∀ slave ∈ session.slaves, state.Keeps after slave) :
    Replicating after session server ∧
      after.acknowledged session.client = state.acknowledged session.client := by
  have direct : ∀ lane, lane.To session server → Direct after lane :=
    fun lane of => (advances lane of).sound (replicating.direct lane of)
  have received : after.proxy.received session.client =
      state.proxy.received session.client := by
    rw [← of.client]
    exact (advances lane of).input_eq
  have same : after.acknowledged session.client = state.acknowledged session.client := by
    have flow := (advances lane of).flow_eq
    rw [of.flow_eq, of.flow_eq] at flow
    have grown := (replicating.direct lane of).acknowledged_append (direct lane of) of [] []
      (by rw [received, List.append_nil]) (by rw [List.append_nil]; exact flow.symm)
    rwa [List.append_nil] at grown
  refine ⟨⟨direct, fun slave listed req arrived isSet => ?_,
    fun slave listed req acked isSet => ?_⟩, same⟩
  · rw [received] at arrived
    exact (keeps slave listed).copied (replicating.copied slave listed req arrived isSet)
  · rw [same] at acked
    exact (keeps slave listed).served (replicating.safe slave listed req acked isSet)

include active in
/-- A frame that is granted its lock does not end the loop of `req_recv`. -/
theorem Ctx.Granted.goesOn {ctx next : Ctx} {client : LinkPtr} {frame : Frame}
    {rest : List Frame} {freed : Nat → Key → Key} {continues : Bool}
    (granted : ctx.Granted client frame (ctx.keyText client frame freed))
    (assigned : (ctx.proxy.links client).dataletConn = some server)
    (handled : ctx.reqSegment cfg client frame rest freed = .ok (continues, next)) :
    continues = true := by
  cases Ctx.reqSegment_asks active assigned handled with
  | granted | overlooked => rfl
  | refused taken waits => exact absurd (granted server assigned (by simpa using waits)) taken

include active isServer in
/-- A frame that is granted its lock is queued on the master link and, if it is a write,
on every slave link. -/
theorem Sane.segment_copies {ctx next : Ctx} {frame : Frame} {rest : List Frame}
    {freed : Nat → Key → Key} {continues : Bool} (sane : Sane cfg (state.withCtx ctx) sessions)
    (member : session ∈ sessions) (granted : ctx.Granted session.client frame
      (ctx.keyText session.client frame freed))
    (handled : ctx.reqSegment cfg session.client frame rest freed = .ok (continues, next)) :
    ∃ (req : Buffer) (copies : List LinkPtr), req.content = .frames [frame] ∧
      next.proxy.traffic =
        ((ctx.proxy.traffic.receive session.client req).fan req copies).push server req ∧
      copies ⊆ session.slaves ∧ (req.isSet = true → copies = session.slaves) ∧
      next.proxy.shape = ctx.proxy.shape := by
  have assigned : (ctx.proxy.links session.client).dataletConn = some server :=
    (congrArg LinkInfo.dataletConn (sane.client_info member)).trans isServer
  obtain rfl := granted.goesOn active assigned handled
  obtain ⟨mapped, out, mapping, isMapping, route, steers, moved, _⟩ :=
    Ctx.reqSegment_effect handled
  cases isMapping.symm.trans assigned
  have slaves : mapped.getSlaves server = session.slaves := by
    rw [Ctx.getSlaves_congr steers.shape]
    exact sane.wired.getSlaves_eq active.indexesSlaves member isServer
  cases route with
  | write passive | tailRead passive | read passive =>
      rw [active.aaStrong] at passive
      cases passive
  | locked _ keyed fwdFlag =>
      refine ⟨Ctx.segment mapped session.client server frame,
        if Ctx.fansOutBefore cfg mapped server then session.slaves else [], rfl, ?_, ?_, ?_,
        moved.shape.trans steers.shape⟩
      · rw [moved.traffic]
        simp [Ctx.forwarded, active.fansOutAfter, Traffic.fan, slaves]
      · split
        · exact List.Subset.refl _
        · exact List.nil_subset _
      · intro isSet
        have set : frame.cmd = .set := of_decide_eq_true isSet
        have fwd : (mapped.links server).fwdToReplicas = true :=
          fwdFlag.trans (by simp [set])
        simp [Ctx.fansOutBefore, active.aaStrong, active.technique, fwd]

/-- A request that is queued on the master link, and copied to slave links, enters the lane
from the client to the master. -/
theorem Direct.copied {ctx next : Ctx} {lane : Lane} {req : Buffer} {copies : List LinkPtr}
    (direct : Direct (state.withCtx ctx) lane) (of : lane.To session server)
    (sane : Sane cfg (state.withCtx ctx) sessions) (member : session ∈ sessions)
    (traffic : next.proxy.traffic =
      ((ctx.proxy.traffic.receive session.client req).fan req copies).push server req)
    (inside : copies ⊆ session.slaves) (shape : next.proxy.shape = ctx.proxy.shape) :
    Direct (state.withCtx next) lane := by
  obtain ⟨notSlave, notClient⟩ := sane.server_notSlave of.server member
  have line : (state.withCtx next).line lane = lane.line _ (state.withCtx ctx).servedOn :=
    State.line_eq lane traffic shape rfl
  refine Line.Sound.move direct ?_
  rw [line, Lane.line_copies ?_, ← of.client]
  · exact Lane.move_enter (by rw [of.backend]; rfl) rfl
  · intro ptr visited listed
    rw [of.client, of.backend, List.mem_cons, List.mem_singleton] at visited
    rcases visited with rfl | rfl
    · exact (List.nodup_cons.mp (sane.wired.links_nodup member)).1
        (List.mem_append_right _ (inside listed))
    · exact notSlave (inside listed)

include active isServer in
/-- One frame of a read. -/
theorem Replicating.segment {ctx next : Ctx} {frame : Frame} {rest : List Frame}
    {freed : Nat → Key → Key} {continues : Bool}
    (replicating : Replicating (state.withCtx ctx) session server)
    (sane : Sane cfg (state.withCtx ctx) sessions) (member : session ∈ sessions)
    (granted : ctx.Granted session.client frame
      (ctx.keyText session.client frame freed))
    (handled : ctx.reqSegment cfg session.client frame rest freed = .ok (continues, next)) :
    Replicating (state.withCtx next) session server ∧
      (state.withCtx next).acknowledged session.client =
        (state.withCtx ctx).acknowledged session.client := by
  obtain ⟨req, copies, _, traffic, inside, everywhere, shape⟩ :=
    sane.segment_copies active isServer member granted handled
  obtain ⟨notSlave, notClient⟩ := sane.server_notSlave isServer member
  obtain ⟨lane, of⟩ := sane.exists_laneTo member isServer
  have direct : ∀ lane, lane.To session server → Direct (state.withCtx next) lane :=
    fun lane of => (replicating.direct lane of).copied of sane member traffic inside shape
  have received : next.proxy.received session.client =
      ctx.proxy.received session.client ++ [req] := by
    have whole := congrFun (congrArg Traffic.received traffic) session.client
    simpa [Proxy.traffic] using whole
  have same : (state.withCtx next).acknowledged session.client =
      (state.withCtx ctx).acknowledged session.client := by
    have outstanding : next.proxy.outstanding server = ctx.proxy.outstanding server ++ [req] := by
      change next.proxy.traffic.omsgQ server ++ next.proxy.traffic.imsgQ server = _
      rw [traffic]
      have imsgQ := Traffic.fan_other (ctx.proxy.traffic.receive session.client req) req
        fun listed => notSlave (inside listed)
      simp [imsgQ, Proxy.outstanding, Proxy.traffic_imsgQ, Proxy.traffic_omsgQ]
    have grown := (replicating.direct lane of).acknowledged_append (direct lane of) of [req] []
      received outstanding.symm
    rwa [List.append_nil] at grown
  have served : (state.withCtx next).servedOn = (state.withCtx ctx).servedOn :=
    State.servedOn_congr shape rfl
  refine ⟨⟨direct, fun slave listed other arrived isSet => ?_,
    fun slave listed other acked isSet => ?_⟩, same⟩
  · have pending : next.proxy.pending slave =
        ctx.proxy.pending slave ++ List.replicate (copies.count slave) req := by
      have different : slave ≠ server := by
        rintro rfl
        exact notSlave listed
      rw [← Proxy.traffic_pending, traffic, Traffic.pending_push_other _ _ different,
        Traffic.pending_fan]
      rfl
    change other ∈ next.proxy.received session.client at arrived
    rw [served]
    change other ∈ next.proxy.pending slave ∨ _
    rw [pending, List.mem_append]
    rw [received, List.mem_append, List.mem_singleton] at arrived
    rcases arrived with old | rfl
    · exact (replicating.copied slave listed other old isSet).imp_left .inl
    · refine .inl (.inr (List.mem_replicate.mpr ⟨?_, rfl⟩))
      rw [everywhere isSet]
      exact Nat.ne_of_gt (List.count_pos_iff.mpr listed)
  · rw [same] at acked
    rw [served]
    exact replicating.safe slave listed other acked isSet

include active isServer in
/-- The master's answer acknowledges the oldest request and releases its lock. -/
theorem Replicating.unlock {ctx : Ctx} {reply : Reply} {replies : List Reply}
    (replicating : Replicating state session server) (sane : Sane cfg state sessions)
    (member : session ∈ sessions) (arrived : (state.proxy.wire server).rsp = reply :: replies)
    (drained : (Event.response server).Drained state)
    (handled : Ctx.ServerReply cfg
      { state.toCtx with proxy := State.takeReply state.proxy server } server
      (State.answer reply) ctx) :
    Replicating (state.withCtx ctx) session server ∧ ∃ (pmsg : Buffer) (key : Key),
      (state.withCtx ctx).acknowledged session.client =
        state.acknowledged session.client ++ [pmsg] ∧
      ctx.services.trace = state.services.trace ++ [.unlock pmsg.tag key] := by
  cases handled with
  | chain chain =>
      rw [active.msStrongCr] at chain
      cases chain
  | direct notChain unlocked =>
      rw [active.aaStrong] at unlocked
      cases unlocked
  | @unlock key client pmsg rest locked held sent owner traffic shape flags services =>
      change (state.proxy.links server).omsgQ = pmsg :: rest at sent
      change ctx.services = state.services.unlock pmsg.tag key at services
      have backend : server ∈ session.backend := List.mem_append_left _ (by simp [isServer])
      rw [sane.sent_owner member backend sent] at owner
      cases owner
      obtain ⟨notSlave, notClient⟩ := sane.server_notSlave isServer member
      obtain ⟨lane, of⟩ := sane.exists_laneTo member isServer
      have direct : ∀ lane, lane.To session server → Direct (state.withCtx ctx) lane := by
        intro lane of
        rw [← of.client] at traffic
        exact (replicating.direct lane of).finish of sent arrived rfl
          (State.line_eq lane traffic shape rfl)
      have received : ctx.proxy.received = state.proxy.received :=
        congrArg Traffic.received traffic
      have grown : (state.withCtx ctx).acknowledged session.client =
          state.acknowledged session.client ++ [pmsg] := by
        have omsgQ : (ctx.proxy.links server).omsgQ = rest := by
          have moved := congrFun (congrArg Traffic.omsgQ traffic) server
          simpa [Proxy.traffic, State.takeReply, sent] using moved
        have imsgQ : (ctx.proxy.links server).imsgQ = (state.proxy.links server).imsgQ := by
          have moved := congrFun (congrArg Traffic.imsgQ traffic) server
          simpa [Proxy.traffic, State.takeReply, notClient] using moved
        have outstanding : state.proxy.outstanding server =
            [pmsg] ++ ctx.proxy.outstanding server := by
          rw [Proxy.outstanding, Proxy.outstanding, sent, omsgQ, imsgQ]
          rfl
        refine (replicating.direct lane of).acknowledged_append (direct lane of) of [] [pmsg] ?_
          (by rw [List.append_nil]; exact outstanding)
        rw [List.append_nil]
        exact congrFun received session.client
      have served : (state.withCtx ctx).servedOn = state.servedOn :=
        State.servedOn_congr shape rfl
      have pending : ∀ slave ∈ session.slaves,
          (state.withCtx ctx).proxy.pending slave = state.proxy.pending slave := by
        intro slave listed
        have different : slave ≠ session.client := by
          rintro rfl
          exact (List.nodup_cons.mp (sane.wired.links_nodup member)).1
            (List.mem_append_right _ listed)
        change ctx.proxy.traffic.pending slave = _
        rw [traffic, Traffic.pending_push_other _ _ different]
        simp [Proxy.traffic_pending]
      refine ⟨⟨direct, fun slave listed req arrived isSet => ?_,
        fun slave listed req acked isSet => ?_⟩, pmsg, key, grown, by rw [services]; rfl⟩
      · rw [pending slave listed, served]
        exact replicating.copied slave listed req (received ▸ arrived) isSet
      · rw [served]
        rw [grown, List.mem_append, List.mem_singleton] at acked
        rcases acked with old | rfl
        · exact replicating.safe slave listed req old isSet
        · -- what is not pending has been served
          have known : req ∈ state.proxy.received session.client := by
            rw [(replicating.direct lane of).received of, sent]
            simp
          have gone : req ∉ state.proxy.pending slave := by
            refine drained req (by simp [sent]) isSet slave ?_
            rw [sane.wired.getSlaves_eq active.indexesSlaves member isServer]
            exact listed
          exact (replicating.copied slave listed req known isSet).resolve_left gone

/-- Acknowledgements last, and locks are released by acknowledged requests. -/
structure Acknowledges (state after : State engine) (client : LinkPtr) : Prop where
  grows : state.acknowledged client <+: after.acknowledged client
  released : ∀ tag key, .unlock (some tag) key ∈ after.services.trace →
    .unlock (some tag) key ∈ state.services.trace ∨
      ∃ req ∈ after.acknowledged client, req.tag = some tag

theorem Acknowledges.of_same {client : LinkPtr}
    (same : after.acknowledged client = state.acknowledged client)
    (trace : after.services.trace = state.services.trace) : Acknowledges state after client :=
  ⟨same ▸ List.prefix_refl _, fun _ _ released => .inl (trace ▸ released)⟩

theorem Acknowledges.trans {middle : State engine} {client : LinkPtr}
    (first : Acknowledges state middle client) (second : Acknowledges middle after client) :
    Acknowledges state after client := by
  refine ⟨first.grows.trans second.grows, fun tag key released => ?_⟩
  rcases second.released tag key released with before | acknowledged
  · exact (first.released tag key before).imp_right fun ⟨req, acked, tagged⟩ =>
      ⟨req, second.grows.subset acked, tagged⟩
  · exact .inr acknowledged

include active isServer in
/-- A client sends requests whose writes are all granted. -/
theorem Replicating.request {frames : List Frame} {freed : Nat → Key → Key}
    (replicating : Replicating state session server) (sane : Sane cfg state sessions)
    (member : session ∈ sessions)
    (granted : (Event.request session.client (some frames) freed).EachFrame Ctx.Granted cfg state)
    (moved : state.step cfg (.request session.client (some frames) freed) = .ok after) :
    Replicating after session server ∧ Acknowledges state after session.client := by
  refine sane.request_each (P := fun next => Replicating next session server ∧
    Acknowledges state next session.client) member granted
    ⟨replicating, .of_same rfl rfl⟩ ?_ moved
  rintro ctx frame rest continues next saneCtx ⟨before, acked⟩ free handled
  obtain ⟨copied, same⟩ := before.segment active isServer saneCtx member free handled
  refine ⟨copied, acked.trans ⟨same ▸ List.prefix_refl _, fun tag key released => .inl ?_⟩⟩
  have assigned : (ctx.proxy.links session.client).dataletConn = some server :=
    (congrArg LinkInfo.dataletConn (saneCtx.client_info member)).trans isServer
  change .unlock (some tag) key ∈ next.services.trace at released
  change .unlock (some tag) key ∈ ctx.services.trace
  cases Ctx.reqSegment_asks active assigned handled with
  | granted _ _ trace | refused _ _ _ trace | overlooked _ _ _ trace =>
      rw [trace] at released
      simpa using released

include active isServer in
/-- An answer of a datalet. -/
theorem Replicating.response (replicating : Replicating state session server)
    (sane : Sane cfg state sessions) (member : session ∈ sessions)
    (inside : link ∈ session.links) (drained : (Event.response link).Drained state)
    (moved : state.step cfg (.response link) = .ok after) :
    Replicating after session server ∧ Acknowledges state after session.client := by
  obtain ⟨reply, replies, arrived, responded⟩ := State.recvResponse_cases moved
  have backend := sane.response_backend member inside moved
  cases responded with
  | ignored error same =>
      rw [same]
      exact ⟨replicating, .of_same rfl rfl⟩
  | @server healthy isResponse ctx handled same =>
      subst same
      cases (sane.server_of_func member backend isResponse).symm.trans isServer
      obtain ⟨after, pmsg, key, grown, trace⟩ :=
        replicating.unlock active isServer sane member arrived drained handled
      refine ⟨after, grown ▸ List.prefix_append _ _, fun tag there released => ?_⟩
      change .unlock (some tag) there ∈ ctx.services.trace at released
      rw [trace, List.mem_append, List.mem_singleton] at released
      refine released.imp_right fun new => ⟨pmsg, ?_, ?_⟩
      · rw [grown]
        simp
      · simp only [Locks.Obs.unlock.injEq] at new
        exact new.1.symm
  | @replica healthy isReplica _ proxy found handled same =>
      obtain ⟨lane, of⟩ := sane.exists_laneTo member isServer
      have different : server ≠ link := by
        rintro rfl
        rw [sane.server_func member isServer] at isReplica
        cases isReplica
      have pending : ∀ slave ∈ session.slaves,
          after.proxy.pending slave = state.proxy.pending slave := by
        intro slave listed
        refine (sane.pending_response active.msStrongCr moved ?_).1
        simp [sane.slave_func member listed]
      subst same
      cases handled with
      | next chain | last chain | read chain =>
          rw [active.msStrongCr] at chain
          cases chain
      | dropped unused moved =>
          have served : (state.withProxy proxy).servedOn = state.servedOn :=
            State.servedOn_congr moved.shape rfl
          have line : ∀ lane, lane.To session server →
              (state.withProxy proxy).line lane = state.line lane := by
            intro lane of
            have moves : (state.withProxy proxy).line lane = lane.line _ state.servedOn :=
              State.line_eq lane moved.traffic moved.shape rfl
            rw [moves, Proxy.traffic_takeReply]
            exact of.line_elsewhere different
          obtain ⟨kept, same⟩ := replicating.advance of
            (fun lane of => .still (line lane of))
            fun slave listed => .still (pending slave listed) (congrFun served slave)
          exact ⟨kept, .of_same same rfl⟩

include isServer in
/-- A write that is complete. -/
theorem Replicating.wrote {proxy : Proxy} (replicating : Replicating state session server)
    (sane : Sane cfg state sessions) (member : session ∈ sessions)
    (inside : link ∈ session.links) (wrote : State.Wrote state.proxy link true proxy) :
    Replicating (state.withProxy proxy) session server ∧
      Acknowledges state (state.withProxy proxy) session.client := by
  obtain ⟨lane, of⟩ := sane.exists_laneTo member isServer
  have advanced := replicating.advance of
    (fun lane of => (of.through.wrote sane member inside (replicating.direct lane of)
      (fun _ => rfl) wrote).1) ?_
  · exact ⟨advanced.1, .of_same advanced.2 rfl⟩
  · intro slave listed
    have isDatalet : (state.proxy.links slave).nwFunc ≠ .request := by
      simp [sane.slave_func member listed]
    rcases State.pending_wrote wrote isDatalet with ⟨pending, _⟩ | ⟨_, failed, _⟩
    · have served : (state.withProxy proxy).servedOn = state.servedOn :=
        State.servedOn_congr wrote.shape rfl
      exact .still pending (congrFun served slave)
    · cases failed

include active isServer in
/-- A step on a link of the session. -/
theorem Replicating.own {event : Event} (replicating : Replicating state session server)
    (sane : Sane cfg state sessions) (member : session ∈ sessions)
    (concerns : event.link? = some link) (inside : link ∈ session.links)
    (clean : event.Clean) (granted : event.EachFrame Ctx.Granted cfg state)
    (drained : event.Drained state) (moved : state.step cfg event = .ok after) :
    Replicating after session server ∧ Acknowledges state after session.client := by
  cases event with
  | accept => cases concerns
  | request client msg freed =>
      cases concerns
      obtain rfl := sane.request_client member inside moved
      cases msg with
      | none => exact clean.elim
      | some frames => exact replicating.request active isServer sane member granted moved
  | response link =>
      cases concerns
      exact replicating.response active isServer sane member inside drained moved
  | writable link written =>
      cases concerns
      cases written with
      | false => exact clean.elim
      | true =>
          obtain ⟨proxy, rfl, wrote⟩ := State.sendOn_cases moved
          exact replicating.wrote isServer sane member inside wrote
  | serve link =>
      cases concerns
      obtain ⟨addr, req, frame, handled⟩ := State.serveOn_cases moved
      obtain ⟨lane, of⟩ := sane.exists_laneTo member isServer
      obtain ⟨kept, same⟩ := replicating.advance of
        (fun lane _ => handled.line_advances) fun slave _ => handled.keeps
      exact ⟨kept, .of_same same (by rw [handled.services])⟩

end Steps

/-! ## Runs -/

theorem Config.IsActive.serverAddrs {cfg : Config} (active : cfg.IsActive) :
    cfg.serverAddrs cfg.dumbMap.rows = cfg.addrs .master := by
  have isServer : cfg.isServer = fun row => decide (row.role = .master) := by
    funext row
    simp [Config.isServer, active.topology, active.model, ConsMod.atLeastEventual]
  rw [Config.serverAddrs, Config.addrs, isServer]

theorem Config.IsActive.slaveAddrs {cfg : Config} (active : cfg.IsActive) :
    cfg.slaveAddrs cfg.dumbMap.rows = cfg.addrs .slave := by
  have isSlave : cfg.isSlave = fun row => decide (row.role = .slave) := by
    funext row
    simp [Config.isSlave, active.indexesSlaves]
  rw [Config.slaveAddrs, Config.addrs, isSlave]

section Runs

variable {cfg : Config} {state after : State engine} {sessions later : List Session}
variable {session : Session} {client : LinkPtr}

theorem Sane.exists_server (sane : Sane cfg state sessions) (active : cfg.IsActive)
    (master : cfg.addrs .master ≠ []) (member : session ∈ sessions) :
    ∃ server, session.server = some server := by
  cases found : session.server with
  | some server => exact ⟨server, rfl⟩
  | none =>
      have nobody := (sane.wired.established session member).serverless found
      exact absurd (active.serverAddrs.symm.trans nobody) master

theorem Untouched.acknowledged (untouched : Untouched session state after) :
    after.acknowledged session.client = state.acknowledged session.client := by
  have same := untouched.sameAt session.client session.client_mem
  have received : after.proxy.received session.client =
    state.proxy.received session.client := same.received
  have delivered : after.proxy.delivered session.client =
    state.proxy.delivered session.client := same.delivered
  have imsgQ : (after.proxy.links session.client).imsgQ =
    (state.proxy.links session.client).imsgQ := same.imsgQ
  simp only [State.acknowledged, State.replies, received, delivered, imsgQ]

/-- Another client's steps do not matter. -/
theorem Replicating.untouched {server : LinkPtr}
    (replicating : Replicating state session server)
    (untouched : Untouched session state after) : Replicating after session server := by
  have received : after.proxy.received session.client = state.proxy.received session.client :=
    (untouched.sameAt session.client session.client_mem).received
  have slave : ∀ slave ∈ session.slaves,
      after.proxy.pending slave = state.proxy.pending slave ∧
        after.servedOn slave = state.servedOn slave := by
    intro slave listed
    have inside := Session.slave_mem listed
    have same := untouched.sameAt slave inside
    refine ⟨?_, untouched.servedOn slave inside⟩
    simp only [← Proxy.traffic_pending, Traffic.pending, same.wire, same.imsgQ]
  refine ⟨fun lane of => ?_, fun other listed req arrived isSet => ?_,
    fun other listed req acked isSet => ?_⟩
  · rw [Direct, untouched.line_eq of.through]
    exact replicating.direct lane of
  · rw [(slave other listed).1, (slave other listed).2]
    exact replicating.copied other listed req (received ▸ arrived) isSet
  · rw [untouched.acknowledged] at acked
    rw [(slave other listed).2]
    exact replicating.safe other listed req acked isSet

theorem Newborn.replicating {server : LinkPtr} (newborn : Newborn session state) :
    Replicating state session server := by
  have quiet := newborn.quiet session.client session.client_mem
  have received : state.proxy.received session.client = [] := quiet.received
  refine ⟨fun lane of => newborn.line_sound of.through, fun _ _ req arrived => ?_,
    fun _ _ req acked => ?_⟩
  · rw [received] at arrived
    cases arrived
  · rw [State.acknowledged, received] at acked
    simp at acked

/-- The invariant of a run. -/
structure AllReplicating (cfg : Config) (state : State engine) (sessions : List Session) :
    Prop where
  sane : Sane cfg state sessions
  replicating : ∀ session ∈ sessions, ∀ server, session.server = some server →
    Replicating state session server
  released : ∀ tag key, .unlock (some tag) key ∈ state.services.trace →
    ∃ client, ∃ req ∈ state.acknowledged client, req.tag = some tag

/-- An acknowledged request stays acknowledged. -/
theorem AllReplicating.acked {req : Buffer} (all : AllReplicating cfg state sessions)
    (grows : ∀ session ∈ sessions,
      state.acknowledged session.client <+: after.acknowledged session.client)
    (acked : req ∈ state.acknowledged client) : req ∈ after.acknowledged client := by
  obtain ⟨session, member, rfl⟩ := all.sane.client_of_received (List.mem_of_mem_take acked)
  exact (grows session member).subset acked

/-- One step of a run. -/
theorem AllReplicating.step {event : Event} (active : cfg.IsActive)
    (master : cfg.addrs .master ≠ []) (all : AllReplicating cfg state sessions)
    (clean : event.Clean) (granted : event.EachFrame Ctx.Granted cfg state)
    (drained : event.Drained state) (moved : state.step cfg event = .ok after) :
    ∃ later, AllReplicating cfg after later := by
  obtain ⟨later, steps⟩ := all.sane.step moved
  have newborn : ∀ session ∈ later, session ∉ sessions → ∀ server,
      session.server = some server → Replicating after session server :=
    fun session listed unlisted _ _ => (steps.newborn session listed unlisted).replicating
  by_cases concerned : ∃ session ∈ sessions, ∃ link, event.link? = some link ∧
      link ∈ session.links
  · obtain ⟨session, member, link, concerns, inside⟩ := concerned
    obtain ⟨server, isServer⟩ := all.sane.exists_server active master member
    obtain ⟨own, acknowledges⟩ := (all.replicating session member server isServer).own active
      isServer all.sane member concerns inside clean granted drained moved
    have untouched : ∀ other ∈ sessions, other ≠ session → Untouched other state after := by
      intro other old different
      refine steps.untouched other old fun ptr isLink otherInside => different ?_
      cases concerns.symm.trans isLink
      exact all.sane.wired.session_unique member old inside otherInside
    have grows : ∀ other ∈ sessions,
        state.acknowledged other.client <+: after.acknowledged other.client := by
      intro other old
      by_cases same : other = session
      · exact same ▸ acknowledges.grows
      · rw [(untouched other old same).acknowledged]
    refine ⟨later, steps.sane, fun other listed found isFound => ?_, fun tag key released => ?_⟩
    · by_cases old : other ∈ sessions
      · by_cases same : other = session
        · subst same
          cases isFound.symm.trans isServer
          exact own
        · exact (all.replicating other old found isFound).untouched
            (untouched other old same)
      · exact newborn other listed old found isFound
    · rcases acknowledges.released tag key released with before | ⟨req, acked, tagged⟩
      · obtain ⟨client, req, acked, tagged⟩ := all.released tag key before
        exact ⟨client, req, all.acked grows acked, tagged⟩
      · exact ⟨session.client, req, acked, tagged⟩
  · push Not at concerned
    have services := all.sane.services_elsewhere moved concerned
    have untouched := fun other old => steps.untouched other old (concerned other old)
    refine ⟨later, steps.sane, fun other listed found isFound => ?_, fun tag key released => ?_⟩
    · by_cases old : other ∈ sessions
      · exact (all.replicating other old found isFound).untouched (untouched other old)
      · exact newborn other listed old found isFound
    · rw [services] at released
      obtain ⟨client, req, acked, tagged⟩ := all.released tag key released
      refine ⟨client, req, all.acked (fun other old => ?_) acked, tagged⟩
      rw [(untouched other old).acknowledged]

/-- What was served on a slave link was applied by the slave. -/
theorem Sane.applied_of_served (sane : Sane cfg state sessions) (member : session ∈ sessions)
    {ptr : LinkPtr} {addr : AddrType} {req : Buffer} (inside : ptr ∈ session.links)
    (peer : (state.proxy.links ptr).peer = some addr)
    (served : req ∈ (state.servedOn ptr).map Prod.fst) :
    req ∈ state.applied addr session.client := by
  simp only [State.servedOn, peer, List.map_map, List.mem_map, List.mem_filter,
    decide_eq_true_eq] at served
  obtain ⟨entry, ⟨logged, conn⟩, rfl⟩ := served
  obtain ⟨owner, ownerMember, owns, _, owned⟩ := sane.logged addr entry logged ptr conn
  have same := sane.wired.session_unique member ownerMember inside (Session.backend_mem owns)
  subst same
  simp only [State.applied, State.answers, List.map_map, List.mem_map, List.mem_filter,
    decide_eq_true_eq]
  exact ⟨entry, ⟨logged, owned⟩, rfl⟩

/-- An acknowledged write is at every slave. -/
theorem AllReplicating.applied {req : Buffer} {addr : AddrType} {server : LinkPtr}
    (active : cfg.IsActive) (all : AllReplicating cfg state sessions)
    (member : session ∈ sessions) (isServer : session.server = some server)
    (acked : req ∈ state.acknowledged session.client) (isSet : req.isSet = true)
    (listed : addr ∈ cfg.addrs .slave) : req ∈ state.applied addr session.client := by
  rw [← active.slaveAddrs] at listed
  obtain ⟨j, place⟩ := List.getElem?_of_mem listed
  have established := all.sane.wired.established session member
  have bound : j < session.slaves.length := by
    rw [established.slaves]
    exact (List.getElem?_eq_some_iff.mp place).1
  obtain ⟨there, isThere, info⟩ := established.slave j _ (List.getElem?_eq_getElem bound)
  cases isThere.symm.trans place
  have inside := List.getElem_mem bound
  exact all.sane.applied_of_served member (Session.slave_mem inside)
    (congrArg LinkInfo.peer info)
    ((all.replicating session member server isServer).safe _ inside req acked isSet)

/-- **An acknowledged write is everywhere**, as long as the master's answers are read
after the slaves have taken the write. -/
theorem active_replication (active : cfg.IsActive) {home : AddrType}
    (master : cfg.addrs .master = [home])
    (run : Transition.Runs (State.step cfg)
      (fun state event => event.Clean ∧ event.EachFrame Ctx.Granted cfg state ∧
        event.Drained state) (State.init engine) state)
    (connected : (state.proxy.links client).nwFunc = .request) :
    Replication cfg state client := by
  have nonempty : cfg.addrs .master ≠ [] := by simp [master]
  have whole := run.invariant (fun state => ∃ sessions, AllReplicating cfg state sessions) ?_
    ⟨[], .init cfg, by simp, by simp [State.init]⟩
  · obtain ⟨sessions, all⟩ := whole
    obtain ⟨session, member, rfl⟩ := all.sane.wired.clients client connected
    have info := congrArg LinkInfo.dataletConn (all.sane.client_info member)
    change (state.proxy.links session.client).dataletConn = session.server at info
    obtain ⟨server, isServer⟩ := all.sane.exists_server active nonempty member
    have applied : ∀ req ∈ state.acknowledged session.client, req.isSet = true →
        ∀ addr ∈ cfg.addrs .slave, req ∈ state.applied addr session.client :=
      fun req acked isSet addr listed => all.applied active member isServer acked isSet listed
    refine ⟨fun found isFound => ?_, applied, fun tag key released req arrived tagged => ?_⟩
    · obtain ⟨lane, of⟩ := all.sane.exists_laneTo member (info.symm.trans isFound)
      have direct := (all.replicating session member found (info.symm.trans isFound)).direct lane of
      exact ⟨direct.replies of, direct.acknowledged of⟩
    · -- the tag tells which request released the lock
      obtain ⟨other, same, acked, otherTag⟩ := all.released tag key released
      obtain ⟨owner, ownerMember, rfl⟩ :=
        all.sane.client_of_received (List.mem_of_mem_take acked)
      obtain ⟨i, placeOther⟩ := List.getElem?_of_mem (List.mem_of_mem_take acked)
      obtain ⟨j, place⟩ := List.getElem?_of_mem arrived
      have stampOther := all.sane.stamped owner ownerMember i same placeOther
      have stamp := all.sane.stamped session member j req place
      have tags := stampOther.tag.symm.trans (otherTag.trans (tagged.symm.trans stamp.tag))
      simp only [Option.some.injEq, ReqId.mk.injEq, true_and] at tags
      obtain ⟨sameClient, rfl⟩ := tags
      rw [sameClient] at placeOther acked
      cases placeOther.symm.trans place
      exact applied req acked
  · rintro state event after ⟨sessions, all⟩ ⟨clean, granted, drained⟩ moved
    exact all.step active nonempty clean granted drained moved

end Runs

/-- A write that the slave takes before the master's answer is read. -/
def sampleReplication : List Event :=
  [.accept fun _ => ⟨false, false⟩, .request 0 (some [.set [7] [1]]) fun _ => id,
    .writable 1 true, .serve 1, .writable 2 true, .serve 2, .response 2, .writable 0 true]

theorem active_replication_sample : ∃ state : State mapEngine,
    (state.acknowledged 0).map Buffer.write? = [some ([7], [1])] ∧
      state.services.redis [7] = none ∧ Replication (Config.sampleActive 0) state 0 := by
  obtain ⟨state, run, post⟩ := Transition.Runs.exists_of_exec
    (State.step (Config.sampleActive 0))
    (fun state event => event.Clean ∧
      event.EachFrame Ctx.Granted (Config.sampleActive 0) state ∧ event.Drained state)
    (State.init mapEngine) sampleReplication
    (fun state => (state.proxy.links 0).nwFunc = .request ∧
      (state.acknowledged 0).map Buffer.write? = [some ([7], [1])] ∧
      state.services.redis [7] = none) (by decide)
  simp only [decide_eq_true_eq] at post
  have master : (Config.sampleActive 0).addrs .master = [[0]] := by decide
  exact ⟨state, post.2.1, post.2.2,
    active_replication (Config.sampleActive_isActive 0) master run post.1⟩

/-- The master answers before the slave has been sent the write: the client is answered,
the lock is free and the slave knows nothing. -/
theorem master_answers_first : ∃ state : State mapEngine,
    Transition.Runs (State.step (Config.sampleActive 0))
      (fun state event => event.Clean ∧
        event.EachFrame Ctx.Granted (Config.sampleActive 0) state) (State.init mapEngine) state ∧
    (state.proxy.links 0).nwFunc = .request ∧ (state.proxy.delivered 0).length = 1 ∧
    state.services.redis [7] = none ∧ (state.datalets [1]).state [7] = none ∧
    ¬Replication (Config.sampleActive 0) state 0 := by
  obtain ⟨state, run, post⟩ := Transition.Runs.exists_of_exec
    (State.step (Config.sampleActive 0))
    (fun state event => event.Clean ∧
      event.EachFrame Ctx.Granted (Config.sampleActive 0) state) (State.init mapEngine)
    [.accept fun _ => ⟨false, false⟩, .request 0 (some [.set [7] [1]]) fun _ => id,
      .writable 2 true, .serve 2, .response 2, .writable 0 true]
    (fun state => (state.proxy.links 0).nwFunc = .request ∧
      (state.proxy.delivered 0).length = 1 ∧ state.services.redis [7] = none ∧
      (state.datalets [1]).state [7] = none ∧
      ∃ req ∈ state.acknowledged 0, req.isSet = true ∧ req ∉ state.applied [1] 0) (by decide)
  simp only [decide_eq_true_eq] at post
  obtain ⟨connected, answered, free, nothing, req, acked, isSet, missing⟩ := post
  refine ⟨state, run, connected, answered, free, nothing, fun replication => missing ?_⟩
  exact replication.applied req acked isSet [1] (by decide)

end BespoKV
