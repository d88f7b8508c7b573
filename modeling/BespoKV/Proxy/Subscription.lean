import BespoKV.Proxy.Operations

/-!
# Subscriptions of the event loop

Whatever the order of events, no message is left behind for want of an event: as long as no
lock can be refused, every step is made of the operations that keep links subscribed.
-/

namespace BespoKV

/-! ## Runs -/

variable {engine : Engine} {cfg : Config} {state after : State engine}

/-- A link is as it was, or it is new and nothing has passed through it. -/
theorem Accepted.outside_or_empty {proxy after : Proxy} {session : Session}
    (accepted : Accepted cfg proxy after session) (ptr : LinkPtr) :
    (after.links ptr = proxy.links ptr ∧ after.fdes ptr = proxy.fdes ptr) ∨
      (after.links ptr).imsgQ = [] ∧ (after.links ptr).omsgQ = [] ∧
        (after.links ptr).error = false := by
  by_cases outside : ptr < proxy.next ∨ after.next ≤ ptr
  · have different : ptr ≠ proxy.next := by
      have grows := accepted.next
      have client := (accepted.range session.client session.client_mem).2
      rw [accepted.client] at client
      lia
    exact .inl ⟨accepted.same ptr outside, accepted.fdes ptr different⟩
  · have inside : proxy.next ≤ ptr ∧ ptr < after.next := by lia
    exact .inr (accepted.empty ptr inside.1 inside.2)

theorem Accepted.alert {proxy after : Proxy} {session : Session}
    (accepted : Accepted cfg proxy after session) (alert : proxy.Alert) : after.Alert := by
  intro ptr
  rcases accepted.outside_or_empty ptr with ⟨links, fdes⟩ | ⟨imsgQ, omsgQ, error⟩
  · obtain ⟨healthy, writing, reading, whole⟩ := alert ptr
    rw [← links, ← fdes] at *
    exact ⟨healthy, writing, reading, whole⟩
  · refine ⟨error, fun queued => absurd imsgQ queued, fun waits => absurd omsgQ waits, ?_⟩
    simp [imsgQ, omsgQ]

theorem Accepted.watchful {proxy after : Proxy} {session : Session}
    (accepted : Accepted cfg proxy after session) (watchful : proxy.Watchful) :
    after.Watchful := by
  have pool : after.freeConnPool = proxy.freeConnPool := by rw [accepted.frame]
  have old : ∀ ptr ∈ proxy.freeConnPool, after.links ptr = proxy.links ptr := fun ptr member =>
    accepted.same ptr (.inl (watchful.allocated ptr (watchful.dropped ptr member)))
  refine ⟨?_, ?_, ?_⟩
  · intro ptr healthy kept
    rcases accepted.outside_or_empty ptr with ⟨links, fdes⟩ | ⟨imsgQ, omsgQ, _⟩
    · rw [links] at healthy
      rw [pool] at kept
      exact (watchful.watches ptr healthy kept).congr (by rw [links]) (by rw [links]) fdes
    · exact ⟨fun queued => absurd imsgQ queued, fun waits => absurd omsgQ waits⟩
  · intro ptr member
    rw [pool] at member
    rw [old ptr member]
    exact watchful.dropped ptr member
  · intro ptr client
    by_cases beyond : after.next ≤ ptr
    · rw [accepted.same ptr (.inr beyond)] at client
      have before := watchful.allocated ptr client
      have grows := accepted.next
      lia
    · lia

section Steps

variable {lossy : Prop} {link : LinkPtr}

theorem State.recvRequest_ops {client : LinkPtr} {msg : Option (List Frame)}
    {freed : Nat → Key → Key} (lockFree : cfg.LockFree) (reason : msg = none → lossy)
    (moved : state.recvRequest cfg client msg freed = .ok after) :
    Proxy.Ops lossy state.proxy after.proxy := by
  unfold State.recvRequest at moved
  split at moved
  · cases moved
  next enabled =>
    split at moved
    · cases moved
      exact .refl
    split at moved
    next next handled =>
      cases moved
      cases msg with
      | none =>
          cases handled
          push Not at enabled
          exact .single (.drop enabled.1 (reason rfl))
      | some frames => exact Ctx.reqRecv_ops lockFree handled
    · cases moved

theorem State.recvResponse_ops (moved : state.recvResponse cfg link = .ok after) :
    Proxy.Ops lossy state.proxy after.proxy := by
  unfold State.recvResponse at moved
  split at moved
  · cases moved
  split at moved
  · cases moved
    exact .refl
  have taken : Proxy.Op lossy state.proxy (State.takeReply state.proxy link) :=
    .of_links rfl rfl rfl
  simp only at moved
  split at moved
  · split at moved
    next ctx handled =>
      cases moved
      exact .head taken (Ctx.rspRecv_ops rfl handled)
    · cases moved
  · split at moved
    next proxy handled =>
      cases moved
      exact .head taken (Proxy.replicaRspRecv_ops rfl handled)
    · cases moved
  · cases moved

theorem State.sendOn_ops {written : Bool} (reason : written = false → lossy)
    (moved : state.sendOn link written = .ok after) :
    Proxy.Ops lossy state.proxy after.proxy := by
  unfold State.sendOn at moved
  split at moved
  · cases moved
    exact .refl
  split at moved
  · cases moved
    exact .single (Proxy.rspSend_op state.proxy link reason)
  · split at moved
    next proxy handled =>
      cases moved
      exact .single (Proxy.reqSend_op reason handled)
    · cases moved
  · split at moved
    next proxy handled =>
      cases moved
      exact .single (Proxy.replicaReqSend_op reason handled)
    · cases moved
  · cases moved

theorem State.serveOn_ops (moved : state.serveOn link = .ok after) :
    Proxy.Ops lossy state.proxy after.proxy := by
  unfold State.serveOn at moved
  split at moved
  · split at moved
    · cases moved
      exact .single (.of_links rfl rfl rfl)
    · cases moved
  · cases moved

/-- A step that does not connect a client is made of operations, lossless ones unless a read
or a write fails. -/
theorem State.step_ops {event : Event} (lockFree : cfg.LockFree)
    (reason : ¬event.Clean → lossy) (moved : state.step cfg event = .ok after) :
    Proxy.Ops lossy state.proxy after.proxy ∨
      ∃ session, Accepted cfg state.proxy after.proxy session := by
  cases event with
  | accept uninit =>
      simp only [State.step] at moved
      split at moved
      next proxy connected =>
        cases moved
        exact .inr (acceptClient_accepted connected)
      · cases moved
  | request client msg freed =>
      refine .inl (State.recvRequest_ops lockFree ?_ moved)
      rintro rfl
      exact reason id
  | response link => exact .inl (State.recvResponse_ops moved)
  | writable link written =>
      refine .inl (State.sendOn_ops ?_ moved)
      rintro rfl
      exact reason id
  | serve link => exact .inl (State.serveOn_ops moved)

end Steps

/-- In every reachable state, no message waits on a link that is not subscribed. -/
theorem alert_of_run {guard : State engine → Event → Prop}
    (unlocked : cfg.consistencyTechnique ≠ .rl)
    (clean : ∀ state event, guard state event → event.Clean)
    (run : Transition.Runs (State.step cfg) guard (State.init engine) state) :
    state.proxy.Alert := by
  have lockFree : cfg.LockFree := fun redlock => absurd redlock unlocked
  apply run.invariant fun state => state.proxy.Alert
  · intro state event after alert admitted moved
    have clean := clean state event admitted
    have moves : Proxy.Ops False state.proxy after.proxy ∨
        ∃ session, Accepted cfg state.proxy after.proxy session :=
      State.step_ops lockFree (fun failed => failed clean) moved
    rcases moves with ops | ⟨session, accepted⟩
    · exact ops.alert alert
    · exact accepted.alert alert
  · intro ptr
    exact ⟨rfl, by simp [State.init], by simp [State.init], by simp [State.init]⟩

/-! ## Events the loop can take -/

/-- An event of the proxy or of a datalet that is due: no new connection, no new
request, and a handler only where its link is subscribed. -/
def Event.Ready (state : State engine) : Event → Prop
  | .accept _ | .request _ _ _ => False
  | .response link => (state.proxy.fdes link).inn = true
  | .writable link written => written = true ∧ (state.proxy.fdes link).out = true
  | .serve _ => True

theorem Event.Ready.clean {event : Event} (ready : event.Ready state) : event.Clean := by
  cases event with
  | accept | request => exact ready.elim
  | response | serve => trivial
  | writable link written =>
      obtain ⟨rfl, _⟩ := ready
      trivial

namespace Sane

variable {sessions : List Session} {session : Session} {link : LinkPtr}
variable (sane : Sane cfg state sessions) (member : session ∈ sessions)
include sane member

/-- A datalet link is the server link or a slave link of its session. -/
theorem backend_cases (inside : link ∈ session.backend) :
    (session.server = some link ∧
      ∃ addr, (state.proxy.links link).toLinkInfo = cfg.serverLink addr) ∨
    ∃ j : Nat, session.slaves[j]? = some link ∧
      ∃ addr, (state.proxy.links link).toLinkInfo = Proxy.slaveInfo addr j := by
  have established := sane.wired.established session member
  rcases List.mem_append.mp inside with server | slave
  · have server := Option.mem_toList.mp server
    obtain ⟨addr, _, info⟩ := established.server link server
    exact .inl ⟨server, addr, info⟩
  · obtain ⟨j, place⟩ := List.getElem?_of_mem slave
    obtain ⟨addr, _, info⟩ := established.slave j link place
    exact .inr ⟨j, place, addr, info⟩

/-- Whatever is queued for a datalet can be written to it. -/
theorem writable_enabled (alert : state.proxy.Alert) (inside : link ∈ session.backend)
    {smsg : Buffer} {rest : List Buffer}
    (queued : (state.proxy.links link).imsgQ = smsg :: rest) (id : smsg.id = 1) :
    ∃ after, state.step cfg (.writable link true) = .ok after := by
  have healthy := (alert link).healthy
  have nonempty := (alert link).whole smsg (.inl (by simp [queued]))
  rcases sane.backend_cases member inside with ⟨_, addr, info⟩ | ⟨j, _, addr, info⟩
  · have isServer : (state.proxy.links link).nwFunc = .response :=
      congrArg LinkInfo.nwFunc info
    simp [State.step, State.sendOn, healthy, isServer, Proxy.reqSend, queued, nonempty, id]
  · have isReplica : (state.proxy.links link).nwFunc = .replica :=
      congrArg LinkInfo.nwFunc info
    have notMaster : (state.proxy.links link).isMaster = false :=
      congrArg LinkInfo.isMaster info
    simp [State.step, State.sendOn, healthy, isReplica, Proxy.replicaReqSend, notMaster,
      queued, nonempty]

/-- Whatever is queued for a client can be written to it. -/
theorem deliver_enabled (alert : state.proxy.Alert) :
    ∃ after, state.step cfg (.writable session.client true) = .ok after := by
  have healthy := (alert session.client).healthy
  have isClient : (state.proxy.links session.client).nwFunc = .request :=
    congrArg LinkInfo.nwFunc (sane.client_info member)
  simp [State.step, State.sendOn, healthy, isClient]

/-- A datalet can take whatever was written to it. -/
theorem serve_enabled (inside : link ∈ session.backend) {req : Buffer} {rest : List Buffer}
    (waiting : (state.proxy.wire link).req = req :: rest)
    (framed : ∃ frame, req.content = .frames [frame]) :
    ∃ after, state.step cfg (.serve link) = .ok after := by
  obtain ⟨frame, content⟩ := framed
  have frame? : req.frame? = some frame := by simp [Buffer.frame?, content]
  obtain ⟨addr, peer⟩ : ∃ addr, (state.proxy.links link).peer = some addr := by
    rcases sane.backend_cases member inside with ⟨_, addr, info⟩ | ⟨_, _, addr, info⟩
    · exact ⟨addr, congrArg LinkInfo.peer info⟩
    · exact ⟨addr, congrArg LinkInfo.peer info⟩
  simp [State.step, State.serveOn, peer, waiting, frame?]

end Sane

end BespoKV
