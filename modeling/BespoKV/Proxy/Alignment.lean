import BespoKV.Proxy.Isolation
import BespoKV.Proxy.Lane

/-!
# Answers and outstanding requests

Where every read of a datalet link returns one answer, the answers on a link and the
requests in its `omsg_q` stay aligned: whatever the mode, the order of events and the
writes that fail, an answer on its way back belongs to the oldest outstanding request.
-/

namespace BespoKV

open Pipes

variable {engine : Engine}

theorem State.pipe_eq (state : State engine) (ptr : LinkPtr) :
    state.pipe ptr = state.proxy.traffic.pipe state.servedOn ptr := rfl

/-- The answers on every datalet link of a session belong to the oldest outstanding
requests. -/
def Aligned (session : Session) (state : State engine) : Prop :=
  ∀ ptr ∈ session.backend, (state.pipe ptr).Ordered

section Effects

variable {cfg : Config} {state after : State engine} {link : LinkPtr} {reply : Reply}

/-- Whatever becomes of an answer that was read, its request leaves `omsg_q`. -/
structure Popped (state : State engine) (link : LinkPtr) (after : State engine) : Prop where
  omsgQ : after.proxy.traffic.omsgQ = (state.proxy.traffic.pop link).omsgQ
  wire : after.proxy.traffic.wire = (state.proxy.traffic.read link).wire
  servedOn : after.servedOn = state.servedOn

/-- An answer that is read takes its request out of `omsg_q`, and at most one message is
queued for it. -/
theorem State.Responded.effect (responded : State.Responded cfg state link reply after)
    (healthy : (state.proxy.links link).error = false) :
    (after.proxy.traffic = (state.proxy.traffic.read link).pop link ∨
      ∃ target msg, after.proxy.traffic =
        ((state.proxy.traffic.read link).pop link).push target msg) ∧
      after.proxy.shape = state.proxy.shape ∧ after.datalets = state.datalets := by
  cases responded with
  | ignored error same =>
      rw [healthy] at error
      cases error
  | server healthy isServer handled same =>
      subst same
      cases handled with
      | chain chain fwd found sent moved services =>
          exact ⟨.inr ⟨_, _, moved.traffic⟩, moved.shape, rfl⟩
      | direct notChain unlocked sent owner moved services =>
          exact ⟨.inr ⟨_, _, moved.traffic⟩, moved.shape, rfl⟩
      | unlock locked held sent owner traffic shape flags services =>
          exact ⟨.inr ⟨_, _, traffic⟩, shape, rfl⟩
  | replica healthy isReplica found handled same =>
      subst same
      cases handled with
      | next chain fwd inner number sent moved =>
          exact ⟨.inr ⟨_, _, moved.traffic⟩, moved.shape, rfl⟩
      | last chain fwd tail sent owner moved =>
          exact ⟨.inr ⟨_, _, moved.traffic⟩, moved.shape, rfl⟩
      | read chain fwd tail sent owner traffic shape flags =>
          exact ⟨.inr ⟨_, _, traffic⟩, shape, rfl⟩
      | dropped unused moved => exact ⟨.inl moved.traffic, moved.shape, rfl⟩

theorem State.Responded.popped (responded : State.Responded cfg state link reply after)
    (healthy : (state.proxy.links link).error = false) : Popped state link after := by
  obtain ⟨effect, shape, datalets⟩ := responded.effect healthy
  have servedOn := State.servedOn_congr shape datalets
  rcases effect with traffic | ⟨target, msg, traffic⟩
  · exact ⟨by rw [traffic]; rfl, by rw [traffic]; rfl, servedOn⟩
  · exact ⟨by rw [traffic]; rfl, by rw [traffic]; rfl, servedOn⟩

/-- Nothing is received from a client with an answer, and no datalet takes a request. -/
theorem State.Responded.histories (responded : State.Responded cfg state link reply after) :
    after.proxy.received = state.proxy.received ∧ after.servedOn = state.servedOn := by
  cases error : (state.proxy.links link).error with
  | true =>
      cases responded with
      | ignored _ same => simp [same]
      | server healthy | replica healthy =>
          rw [healthy] at error
          cases error
  | false =>
      refine ⟨?_, (responded.popped error).servedOn⟩
      rcases (responded.effect error).1 with traffic | ⟨target, msg, traffic⟩
      · exact congrArg Traffic.received traffic
      · exact congrArg Traffic.received traffic

/-- A frame read from a client joins queues and touches no outstanding request. -/
theorem Ctx.segment_outstanding {ctx next : Ctx} {conn : LinkPtr} {frame : Frame}
    {rest : List Frame} {freed : Nat → Key → Key} {continues : Bool}
    (handled : ctx.reqSegment cfg conn frame rest freed = .ok (continues, next)) :
    next.proxy.traffic.omsgQ = ctx.proxy.traffic.omsgQ ∧
      next.proxy.traffic.wire = ctx.proxy.traffic.wire ∧
      next.proxy.shape = ctx.proxy.shape := by
  obtain ⟨mapped, out, server, assigned, route, steers, moved, _⟩ :=
    Ctx.reqSegment_effect handled
  refine ⟨?_, ?_, moved.shape.trans steers.shape⟩
  · funext ptr
    rw [moved.traffic]
    cases continues <;> simp [Ctx.forwarded]
  · funext ptr
    rw [moved.traffic]
    cases continues <;> simp [Ctx.forwarded]

end Effects

namespace Aligned

variable {cfg : Config} {state after : State engine} {session : Session}
variable {sessions : List Session} {link : LinkPtr}

theorem of_newborn (newborn : Newborn session state) : Aligned session state := by
  intro ptr inside
  have quiet := newborn.quiet ptr (Session.backend_mem inside)
  have served := newborn.servedOn ptr (Session.backend_mem inside)
  refine Pipe.empty_ordered.congr quiet.omsgQ ?_ ?_ served
  · simp [State.pipe_eq, quiet.wire, Pipe.empty]
  · simp [State.pipe_eq, quiet.wire, Pipe.empty]

/-- Nothing happened to outstanding requests, connections and histories. -/
theorem congr (aligned : Aligned session state)
    (omsgQ : ∀ ptr ∈ session.backend, after.proxy.traffic.omsgQ ptr =
      state.proxy.traffic.omsgQ ptr)
    (wire : ∀ ptr ∈ session.backend, after.proxy.traffic.wire ptr =
      state.proxy.traffic.wire ptr)
    (served : ∀ ptr ∈ session.backend, after.servedOn ptr = state.servedOn ptr) :
    Aligned session after := by
  intro ptr inside
  have same := wire ptr inside
  exact (aligned ptr inside).congr (omsgQ ptr inside)
    (by simp [State.pipe_eq, same]) (by simp [State.pipe_eq, same]) (served ptr inside)

/-- One pipe of the session moves and stays aligned; the others are as before. -/
theorem of_link (link : LinkPtr) (aligned : Aligned session state)
    (ordered : (after.pipe link).Ordered)
    (omsgQ : ∀ ptr, ptr ≠ link → after.proxy.traffic.omsgQ ptr = state.proxy.traffic.omsgQ ptr)
    (wire : ∀ ptr, ptr ≠ link → after.proxy.traffic.wire ptr = state.proxy.traffic.wire ptr)
    (served : ∀ ptr, ptr ≠ link → after.servedOn ptr = state.servedOn ptr) :
    Aligned session after := by
  intro ptr member
  by_cases here : ptr = link
  · rw [here]
    exact ordered
  · have same := wire ptr here
    exact (aligned ptr member).congr (omsgQ ptr here)
      (by simp [State.pipe_eq, same]) (by simp [State.pipe_eq, same]) (served ptr here)

/-- The oldest answer of a link is read. -/
theorem popped (aligned : Aligned session state) (inside : link ∈ session.backend)
    {reply : Reply} {replies : List Reply}
    (arrived : (state.proxy.wire link).rsp = reply :: replies)
    (popped : Popped state link after) : Aligned session after := by
  have ordered := aligned link inside
  have outstanding := ordered.sent_of_rsp (by simp [State.pipe, arrived])
  obtain ⟨pmsg, rest, sent⟩ := List.exists_cons_of_ne_nil outstanding
  have takes : (state.pipe link).Take pmsg (.reply reply) _ :=
    ⟨rest, replies.map .reply, sent, by simp [State.pipe, arrived], rfl⟩
  have taken := takes.ordered ordered
  have sentAfter := congrFun popped.omsgQ link
  have wireAfter := congrFun popped.wire link
  change (state.proxy.traffic.wire link).rsp = reply :: replies at arrived
  change state.proxy.traffic.omsgQ link = pmsg :: rest at sent
  refine aligned.of_link link (taken.congr ?_ ?_ ?_ ?_) ?_ ?_ ?_
  · simp [State.pipe_eq, sentAfter, sent]
  · simp [State.pipe_eq, wireAfter]
  · simp [State.pipe_eq, wireAfter, arrived]
  · exact congrFun popped.servedOn link
  · intro ptr different
    rw [popped.omsgQ]
    simp [different]
  · intro ptr different
    rw [popped.wire]
    simp [different]
  · exact fun ptr _ => congrFun popped.servedOn ptr

theorem response (aligned : Aligned session state) (sane : Sane cfg state sessions)
    (member : session ∈ sessions) (inside : link ∈ session.links)
    (moved : state.step cfg (.response link) = .ok after) : Aligned session after := by
  obtain ⟨reply, replies, arrived, responded⟩ := State.recvResponse_cases moved
  have backend := sane.response_backend member inside moved
  cases error : (state.proxy.links link).error with
  | true =>
      cases responded with
      | ignored _ same => exact same ▸ aligned
      | server healthy | replica healthy =>
          rw [healthy] at error
          cases error
  | false => exact aligned.popped backend arrived (responded.popped error)

/-- Writes queue nothing, and move a request to `omsg_q` as they put it on the
connection. -/
theorem wrote {written : Bool} {proxy : Proxy} (aligned : Aligned session state)
    (wrote : State.Wrote state.proxy link written proxy) :
    Aligned session (state.withProxy proxy) := by
  have served : (state.withProxy proxy).servedOn = state.servedOn :=
    State.servedOn_congr wrote.shape rfl
  have still : ∀ {traffic : Traffic}, proxy.traffic = traffic →
      (∀ ptr, traffic.omsgQ ptr = state.proxy.traffic.omsgQ ptr) →
      (∀ ptr, traffic.wire ptr = state.proxy.traffic.wire ptr) →
      Aligned session (state.withProxy proxy) := by
    rintro traffic rfl omsgQ wire
    exact aligned.congr (fun ptr _ => omsgQ ptr) (fun ptr _ => wire ptr)
      fun ptr _ => congrFun served ptr
  cases wrote with
  | idle nothing moved => exact still moved.traffic (fun _ => rfl) fun _ => rfl
  | delivered isClient queued complete moved =>
      exact still moved.traffic (fun _ => rfl) fun _ => rfl
  | failed queued incomplete lost => exact still lost.traffic (fun _ => rfl) fun _ => rfl
  | @sent buffer rest isDatalet queued moved =>
      have traffic : (state.withProxy proxy).proxy.traffic = _ := moved.traffic
      intro ptr member
      by_cases here : ptr = link
      · subst here
        have sends : (state.pipe ptr).Send buffer _ := ⟨rest, queued, rfl⟩
        refine (sends.ordered (aligned ptr member)).congr ?_ ?_ ?_ (congrFun served ptr)
        · simp [State.pipe_eq, traffic]
        · simp [State.pipe_eq, traffic]
        · simp [State.pipe_eq, traffic]
      · refine (aligned ptr member).congr ?_ ?_ ?_ (congrFun served ptr)
        · simp [State.pipe_eq, traffic, here]
        · simp [State.pipe_eq, traffic, here]
        · simp [State.pipe_eq, traffic, here]

/-- A datalet serves the oldest request of a connection. -/
theorem handled {addr : AddrType} {req : Buffer} {frame : Frame}
    (aligned : Aligned session state) (inside : link ∈ session.backend)
    (handled : state.Handled link addr req frame after) : Aligned session after := by
  obtain ⟨rest, waiting⟩ := handled.waiting
  change (state.proxy.traffic.wire link).req = req :: rest at waiting
  have traffic := handled.moved.traffic
  have serves : (state.pipe link).Serve req
      (.reply (engine.serve (state.datalets addr).state frame).2) _ := ⟨rest, waiting, rfl⟩
  have served := serves.ordered (aligned link inside)
  refine aligned.of_link link (served.congr ?_ ?_ ?_ handled.servedOn_self) ?_ ?_
    fun ptr different => handled.servedOn_other different
  · simp [State.pipe_eq, traffic]
  · simp [State.pipe_eq, traffic, waiting]
  · simp [State.pipe_eq, traffic]
  · intro ptr different
    simp [traffic]
  · intro ptr different
    simp [traffic, different]

theorem request {client : LinkPtr} {msg : Option (List Frame)} {freed : Nat → Key → Key}
    (aligned : Aligned session state) (sane : Sane cfg state sessions)
    (member : session ∈ sessions) (isClient : session.client = client)
    (moved : state.step cfg (.request client msg freed) = .ok after) : Aligned session after := by
  subst isClient
  cases msg with
  | none =>
      rcases State.recvRequest_none moved with rfl | rfl
      · exact aligned
      · exact aligned.congr (fun _ _ => rfl) (fun _ _ => rfl) fun _ _ => rfl
  | some frames =>
      obtain ⟨_, kept⟩ := sane.request_induction (P := fun state _ => Aligned session state)
        member aligned (fun ctx frame rest continues next _ aligned handled => by
          obtain ⟨omsgQ, wire, shape⟩ := Ctx.segment_outstanding handled
          have served : (state.withCtx next).servedOn = (state.withCtx ctx).servedOn :=
            State.servedOn_congr shape rfl
          exact aligned.congr (fun ptr _ => congrFun omsgQ ptr) (fun ptr _ => congrFun wire ptr)
            fun ptr _ => congrFun served ptr) moved
      exact kept

end Aligned

/-- Answers and outstanding requests are aligned in every reachable state. -/
theorem aligned_of_run {cfg : Config} {state : State engine}
    {guard : State engine → Event → Prop}
    (run : Transition.Runs (State.step cfg) guard (State.init engine) state) :
    ∃ sessions, Sane cfg state sessions ∧ ∀ session ∈ sessions, Aligned session state := by
  refine Sane.invariant (fun state sessions session _ _ newborn => .of_newborn newborn) ?_ ?_ run
  · intro before after session untouched aligned
    have same := fun ptr (inside : ptr ∈ session.backend) =>
      untouched.sameAt ptr (Session.backend_mem inside)
    exact aligned.congr (fun ptr inside => (same ptr inside).omsgQ)
      (fun ptr inside => (same ptr inside).wire)
      fun ptr inside => untouched.servedOn ptr (Session.backend_mem inside)
  · intro state sessions session event after link sane member concerns inside _ moved aligned
    cases event with
    | accept uninit => cases concerns
    | request client msg freed =>
        cases concerns
        exact aligned.request sane member (sane.request_client member inside moved) moved
    | response link =>
        cases concerns
        exact aligned.response sane member inside moved
    | writable link written =>
        cases concerns
        obtain ⟨proxy, rfl, wrote⟩ := State.sendOn_cases moved
        exact aligned.wrote wrote
    | serve link =>
        cases concerns
        obtain ⟨addr, req, frame, handled⟩ := State.serveOn_cases moved
        have backend := sane.serve_backend member inside moved
        exact aligned.handled backend handled

end BespoKV
