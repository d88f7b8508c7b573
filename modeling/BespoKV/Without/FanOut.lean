import BespoKV.Proxy.Alignment
import BespoKV.Proxy.Pending

/-!
# Fan-out without consistency

In the master-slave mode without consistency the proxy queues a request for the master and,
if it is a write, for every slave, and waits for the master only.  The queues are drained at
different speeds.  What has been queued on a slave link since the client connected is
nevertheless the client's writes, in its order.
-/

namespace BespoKV

variable {engine : Engine}

/-- The requests that have been written to the connection of a link. -/
def State.sentOn (state : State engine) (link : LinkPtr) : List Buffer :=
  (state.servedOn link).map Prod.fst ++ (state.proxy.wire link).req

/-- The requests sent on a link, followed by those queued for it. -/
def State.carried (state : State engine) (link : LinkPtr) : List Buffer :=
  state.sentOn link ++ (state.proxy.links link).imsgQ

theorem State.carried_eq (state : State engine) (link : LinkPtr) :
    state.carried link = (state.servedOn link).map Prod.fst ++ state.proxy.pending link :=
  List.append_assoc ..

/-- The master mode without consistency. -/
structure Config.Without (cfg : Config) : Prop where
  topology : cfg.topology = .ms
  model : cfg.consistencyModel = .without

namespace Config.Without

variable {cfg : Config}

theorem aaStrong (without : cfg.Without) : cfg.aaStrong = false := by
  simp [Config.aaStrong, without.model]

theorem msStrong (without : cfg.Without) : cfg.msStrong = false := by
  simp [Config.msStrong, without.model]

theorem msStrongCr (without : cfg.Without) : cfg.msStrongCr = false := by
  simp [Config.msStrongCr, without.msStrong]

theorem indexesSlaves (without : cfg.Without) : Proxy.indexesSlaves cfg = true := by
  simp [Proxy.indexesSlaves, without.topology]

end Config.Without

/-- The links of a session carry what its client has sent: the master all of it, the slaves
the writes. -/
structure Fanned (session : Session) (state : State engine) : Prop where
  server : ∀ ptr, session.server = some ptr →
    state.carried ptr = state.proxy.received session.client
  slave : ∀ ptr ∈ session.slaves,
    state.carried ptr = (state.proxy.received session.client).filter Buffer.isSet

namespace Fanned

variable {cfg : Config} {state after : State engine} {session : Session}
variable {sessions : List Session} {link : LinkPtr}

theorem of_newborn (newborn : Newborn session state) : Fanned session state := by
  have empty : ∀ ptr ∈ session.links, state.carried ptr = [] := by
    intro ptr inside
    have quiet := newborn.quiet ptr inside
    rw [State.carried_eq, newborn.servedOn ptr inside, ← Proxy.traffic_pending, Traffic.pending,
      quiet.wire, quiet.imsgQ]
    rfl
  have nothing : state.proxy.received session.client = [] :=
    (newborn.quiet _ session.client_mem).received
  refine ⟨fun ptr server => ?_, fun ptr slave => ?_⟩
  · rw [nothing, empty ptr (Session.server_mem server)]
  · rw [nothing, empty ptr (Session.slave_mem slave)]
    rfl

/-- Neither the requests of the client nor those on its links have changed. -/
theorem congr (fanned : Fanned session state)
    (received : after.proxy.received session.client = state.proxy.received session.client)
    (carried : ∀ ptr ∈ session.backend, after.carried ptr = state.carried ptr) :
    Fanned session after := by
  refine ⟨fun ptr server => ?_, fun ptr slave => ?_⟩
  · rw [received, carried ptr (by simp [Session.backend, server])]
    exact fanned.server ptr server
  · rw [received, carried ptr (by simp [Session.backend, slave])]
    exact fanned.slave ptr slave

/-- Where a request is queued in this mode. -/
theorem targets_eq (without : cfg.Without) {proxy mapped : Proxy} {server out : LinkPtr}
    {frame : Frame} {text : Key} (route : Proxy.Routed cfg proxy server frame text mapped out)
    (slaves : mapped.getSlaves server = session.slaves) :
    Ctx.targets cfg mapped out =
      server :: if frame.cmd = .set then session.slaves else [] := by
  have before : Ctx.fansOutBefore cfg mapped out = false := by
    simp [Ctx.fansOutBefore, without.aaStrong]
  cases route with
  | locked active =>
      rw [without.aaStrong] at active
      cases active
  | tailRead passive notSet chain =>
      rw [without.msStrongCr] at chain
      cases chain
  | write passive isSet fwd =>
      have fwd : (mapped.links server).fwdToReplicas = true := fwd
      have after : Ctx.fansOutAfter cfg mapped server = true := by
        simp [Ctx.fansOutAfter, without.topology, without.model, fwd]
      simp [Ctx.targets, before, after, isSet, slaves]
  | read passive notSet notChain fwd =>
      have fwd : (mapped.links server).fwdToReplicas = false := fwd
      have after : Ctx.fansOutAfter cfg mapped server = false := by
        simp [Ctx.fansOutAfter, fwd]
      simp [Ctx.targets, before, after, notSet]

/-- One frame from the client. -/
theorem segment (without : cfg.Without) {ctx next : Ctx} {frame : Frame} {rest : List Frame}
    {freed : Nat → Key → Key} {continues : Bool} (sane : Sane cfg (state.withCtx ctx) sessions)
    (member : session ∈ sessions) (fanned : Fanned session (state.withCtx ctx))
    (handled : ctx.reqSegment cfg session.client frame rest freed = .ok (continues, next)) :
    Fanned session (state.withCtx next) := by
  obtain ⟨mapped, out, server, assigned, route, steers, moved, refused, _⟩ :=
    Ctx.reqSegment_effect handled
  obtain rfl : continues = true := by
    cases continues with
    | true => rfl
    | false =>
        have strong := (refused rfl).1
        simp [without.aaStrong] at strong
  have isServer : session.server = some server :=
    (congrArg LinkInfo.dataletConn (sane.client_info member)).symm.trans assigned
  have slaves : mapped.getSlaves server = session.slaves :=
    (Ctx.getSlaves_congr steers.shape server).trans
      (sane.wired.getSlaves_eq without.indexesSlaves member isServer)
  have targets := targets_eq without route slaves
  generalize request : Ctx.segment mapped session.client out frame = req at moved
  have isSet : req.isSet = decide (frame.cmd = .set) := by rw [← request]; rfl
  have traffic : (state.withCtx next).proxy.traffic = Ctx.forwarded cfg mapped out
      (ctx.proxy.traffic.receive session.client req) req := moved.traffic
  have served : (state.withCtx next).servedOn = (state.withCtx ctx).servedOn :=
    State.servedOn_congr (moved.shape.trans steers.shape) rfl
  have received : (state.withCtx next).proxy.received session.client =
      (state.withCtx ctx).proxy.received session.client ++ [req] := by
    refine (congrFun (congrArg Traffic.received traffic) session.client).trans ?_
    simp [Ctx.forwarded, Proxy.traffic, State.withCtx]
  have carried : ∀ ptr, (state.withCtx next).carried ptr = (state.withCtx ctx).carried ptr ++
      List.replicate ((Ctx.targets cfg mapped out).count ptr) req := by
    intro ptr
    rw [State.carried_eq, State.carried_eq, served, ← Proxy.traffic_pending, traffic,
      Ctx.pending_forwarded, Traffic.pending_receive, List.append_assoc]
    rfl
  have nodup : (server :: session.slaves).Nodup := by
    simpa [Session.links, isServer] using (sane.wired.links_nodup member).tail
  obtain ⟨apart, distinct⟩ := List.nodup_cons.mp nodup
  refine ⟨fun ptr listed => ?_, fun ptr listed => ?_⟩
  · obtain rfl : server = ptr := Option.some.inj (isServer.symm.trans listed)
    have once : (Ctx.targets cfg mapped out).count server = 1 := by
      rw [targets, List.count_cons_self]
      split
      · rw [List.count_eq_zero_of_not_mem apart]
      · rfl
    rw [carried, received, once, fanned.server server isServer]
    rfl
  · have different : server ≠ ptr := by
      rintro rfl
      exact apart listed
    have writes : (Ctx.targets cfg mapped out).count ptr = if frame.cmd = .set then 1 else 0 := by
      rw [targets, List.count_cons_of_ne different]
      split
      · exact List.count_eq_one_of_mem distinct listed
      · rfl
    rw [carried, received, writes, List.filter_append, fanned.slave ptr listed]
    by_cases set : frame.cmd = .set <;> simp [set, isSet]

theorem request (without : cfg.Without) {client : LinkPtr} {msg : Option (List Frame)}
    {freed : Nat → Key → Key} (fanned : Fanned session state) (sane : Sane cfg state sessions)
    (member : session ∈ sessions) (isClient : session.client = client)
    (moved : state.step cfg (.request client msg freed) = .ok after) : Fanned session after := by
  subst isClient
  cases msg with
  | none =>
      rcases State.recvRequest_none moved with rfl | rfl
      · exact fanned
      · exact fanned.congr rfl fun _ _ => rfl
  | some frames =>
      obtain ⟨_, kept⟩ := sane.request_induction (P := fun state _ => Fanned session state)
        member fanned (fun ctx frame rest continues next sane fanned handled =>
          fanned.segment without sane member handled) moved
      exact kept

/-- An answer of a datalet. -/
theorem response (without : cfg.Without) (fanned : Fanned session state)
    (sane : Sane cfg state sessions) (member : session ∈ sessions)
    (moved : state.step cfg (.response link) = .ok after) : Fanned session after := by
  obtain ⟨reply, replies, arrived, responded⟩ := State.recvResponse_cases moved
  obtain ⟨received, served⟩ := responded.histories
  refine fanned.congr (congrFun received session.client) fun ptr inside => ?_
  have pending := (sane.pending_response without.msStrongCr moved
    (sane.backend_func member inside)).1
  rw [State.carried_eq, State.carried_eq, served, pending]

/-- A write that is complete. -/
theorem wrote {proxy : Proxy} (fanned : Fanned session state) (sane : Sane cfg state sessions)
    (member : session ∈ sessions) (wrote : State.Wrote state.proxy link true proxy) :
    Fanned session (state.withProxy proxy) := by
  refine fanned.congr (congrFun wrote.received session.client) fun ptr inside => ?_
  have served : (state.withProxy proxy).servedOn = state.servedOn :=
    State.servedOn_congr wrote.shape rfl
  have pending : proxy.pending ptr = state.proxy.pending ptr := by
    rcases State.pending_wrote wrote (sane.backend_func member inside) with same | failed
    · exact same.1
    · cases failed.2.1
  rw [State.carried_eq, State.carried_eq, served]
  exact congrArg _ pending

/-- A datalet takes a request: it has been sent before and after. -/
theorem handled {addr : AddrType} {req : Buffer} {frame : Frame} (fanned : Fanned session state)
    (handled : state.Handled link addr req frame after) : Fanned session after := by
  have received : after.proxy.received = state.proxy.received :=
    congrArg Traffic.received handled.moved.traffic
  refine fanned.congr (congrFun received session.client) fun ptr inside => ?_
  rw [State.carried_eq, State.carried_eq]
  by_cases here : ptr = link
  · subst here
    rw [handled.servedOn_self, handled.pending_self, List.map_append, List.append_assoc]
    rfl
  · rw [handled.servedOn_other here, handled.pending_other here]

end Fanned

theorem fanned_of_run {cfg : Config} (without : cfg.Without) {state : State engine}
    (run : Transition.Runs (State.step cfg) (fun _ event => event.Clean) (State.init engine)
      state) :
    ∃ sessions, Sane cfg state sessions ∧ ∀ session ∈ sessions, Fanned session state := by
  refine Sane.invariant (fun state sessions session _ _ newborn => .of_newborn newborn) ?_ ?_ run
  · intro before after session untouched fanned
    refine fanned.congr (untouched.sameAt _ session.client_mem).received fun ptr inside => ?_
    have same := untouched.sameAt ptr (Session.backend_mem inside)
    rw [State.carried_eq, State.carried_eq, untouched.servedOn ptr (Session.backend_mem inside),
      ← Proxy.traffic_pending, ← Proxy.traffic_pending, Traffic.pending, same.wire, same.imsgQ]
    rfl
  · intro state sessions session event after link sane member concerns inside clean moved fanned
    cases event with
    | accept uninit => cases concerns
    | request client msg freed =>
        cases concerns
        exact fanned.request without sane member (sane.request_client member inside moved) moved
    | response link => exact fanned.response without sane member moved
    | writable link written =>
        cases written with
        | false => exact clean.elim
        | true =>
            obtain ⟨proxy, rfl, wrote⟩ := State.sendOn_cases moved
            exact fanned.wrote sane member wrote
    | serve link =>
        obtain ⟨addr, req, frame, handled⟩ := State.serveOn_cases moved
        exact fanned.handled handled

/-- In every state of every run without failing links: what has been sent on a slave link of a
client and what is queued on it are together the writes among what has been sent and queued
on the master link, which is all the client has sent.  So a slave has received a first part of
the client's writes, each once and in its order. -/
theorem fan_out_keeps_order {cfg : Config} (without : cfg.Without) {state : State engine}
    (run : Transition.Runs (State.step cfg) (fun _ event => event.Clean) (State.init engine)
      state)
    {client master slave : LinkPtr} (isClient : (state.proxy.links client).nwFunc = .request)
    (mapped : (state.proxy.links client).dataletConn = some master)
    (listed : slave ∈ state.proxy.getSlaves master) :
    state.sentOn slave ++ (state.proxy.links slave).imsgQ =
        (state.sentOn master ++ (state.proxy.links master).imsgQ).filter Buffer.isSet ∧
      state.sentOn master ++ (state.proxy.links master).imsgQ = state.proxy.received client ∧
      state.sentOn slave <+: (state.proxy.received client).filter Buffer.isSet := by
  obtain ⟨sessions, sane, fanned⟩ := fanned_of_run without run
  obtain ⟨session, member, rfl⟩ := sane.wired.clients client isClient
  have server : session.server = some master :=
    (congrArg LinkInfo.dataletConn (sane.client_info member)).symm.trans mapped
  rw [sane.wired.getSlaves_eq without.indexesSlaves member server] at listed
  have atMaster := (fanned session member).server master server
  have atSlave := (fanned session member).slave slave listed
  refine ⟨?_, atMaster, ?_⟩
  · change state.carried slave = (state.carried master).filter Buffer.isSet
    rw [atMaster, atSlave]
  · rw [← atSlave]
    exact List.prefix_append _ _

/-- A master and two slaves. -/
def Config.sampleWithout : Config where
  topology := .ms
  consistencyModel := .without
  consistencyTechnique := .none
  replicas := 2
  dumbMap := .sampleTriple

/-- Two writes and a read in one batch; the first slave is ahead of the master. -/
theorem fan_out_keeps_order_sample :
    ∃ state : State mapEngine,
      Transition.Runs (State.step Config.sampleWithout) (fun _ event => event.Clean)
        (State.init mapEngine) state ∧
      ((state.sentOn 1).length = 2 ∧ (state.sentOn 2).length = 1 ∧
        (state.proxy.links 2).imsgQ.length = 2) ∧
      state.sentOn 1 ++ (state.proxy.links 1).imsgQ =
        (state.sentOn 2 ++ (state.proxy.links 2).imsgQ).filter Buffer.isSet := by
  obtain ⟨state, run, post⟩ := Transition.Runs.exists_of_exec
    (State.step Config.sampleWithout) (fun _ event => event.Clean) (State.init mapEngine)
    [.accept fun _ => ⟨false, false⟩,
      .request 0 (some [.set [7] [1], .get [7], .set [7] [2]]) fun _ => id,
      .writable 1 true, .serve 1, .response 1, .writable 2 true, .serve 2, .writable 1 true]
    (fun state => decide ((state.proxy.links 0).nwFunc = .request ∧
      (state.proxy.links 0).dataletConn = some 2 ∧ 1 ∈ state.proxy.getSlaves 2 ∧
      (state.sentOn 1).length = 2 ∧ (state.sentOn 2).length = 1 ∧
        (state.proxy.links 2).imsgQ.length = 2)) (by decide +kernel)
  obtain ⟨isClient, mapped, listed, depths⟩ := of_decide_eq_true post
  exact ⟨state, run, depths,
    (fan_out_keeps_order ⟨rfl, rfl⟩ run isClient mapped listed).1⟩

end BespoKV
