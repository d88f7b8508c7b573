import BespoKV.Proxy.Lines

/-!
# Delivery where a request goes to one datalet

Without chains and locks every request of a client goes to one datalet link and its
answer comes back to the client.  The link pairs answers with requests by order alone;
here is why no answer is lost, repeated or given to another client.
-/

namespace BespoKV

open Pipes

/-- The modes in which a request goes to one datalet. -/
def Config.IsSingle (cfg : Config) : Prop :=
  cfg.topology = .no ∨ cfg.topology = .slave ∨
    cfg.consistencyModel = .eventual ∧ (cfg.topology = .ms ∨ cfg.topology = .aa)

instance (cfg : Config) : Decidable cfg.IsSingle := inferInstanceAs (Decidable (_ ∨ _ ∨ _))

namespace Config.IsSingle

variable {cfg : Config} (single : cfg.IsSingle)
include single

theorem aaStrong : cfg.aaStrong = false := by
  rcases single with no | slave | ⟨eventual, _⟩
  · simp [Config.aaStrong, no]
  · simp [Config.aaStrong, slave]
  · simp [Config.aaStrong, eventual]

theorem msStrong : cfg.msStrong = false := by
  rcases single with no | slave | ⟨eventual, _⟩
  · simp [Config.msStrong, no]
  · simp [Config.msStrong, slave]
  · simp [Config.msStrong, eventual]

theorem msStrongCr : cfg.msStrongCr = false := by
  simp [Config.msStrongCr, single.msStrong]

theorem fansOutBefore (proxy : Proxy) (out : LinkPtr) :
    Ctx.fansOutBefore cfg proxy out = false := by
  simp [Ctx.fansOutBefore, single.aaStrong]

/-- Requests are copied only where no slaves are known. -/
theorem fansOutAfter {proxy : Proxy} {out : LinkPtr}
    (fans : Ctx.fansOutAfter cfg proxy out = true) : Proxy.indexesSlaves cfg = false := by
  have passive := single.aaStrong
  rcases single with no | slave | ⟨eventual, _⟩
  · simp [Proxy.indexesSlaves, no, passive]
  · simp [Ctx.fansOutAfter, slave] at fans
  · simp only [Ctx.fansOutAfter, eventual, Bool.and_eq_true, Bool.or_eq_true,
      decide_eq_true_eq] at fans
    rcases fans.1 with ⟨no, _⟩ | ⟨without, _⟩
    · simp [Proxy.indexesSlaves, no, passive]
    · cases without

end Config.IsSingle

variable {engine : Engine}

/-- What a client and its datalet link hold.  Requests and answers are those of this
client only. -/
structure InOrder (state : State engine) (client server : LinkPtr) : Prop where
  /-- the datalet answers what was sent, once and in order -/
  ordered : (state.pipe server).Ordered
  /-- the client gets the datalet's answers to its first requests, in order -/
  replies : state.replies client = (state.pipe server).answered.map Prod.snd
  /-- all other requests wait on the datalet link, in order -/
  requests : state.proxy.received client = (state.pipe server).answered.map Prod.fst ++
    ((state.proxy.links server).omsgQ ++ (state.proxy.links server).imsgQ)
  /-- no request is in two places -/
  once : (state.proxy.received client).Nodup
  /-- requests carry the link their answers go to -/
  owner : ∀ req ∈ state.proxy.received client, req.owner = some client
  /-- no other client uses the link -/
  exclusive : ∀ other, (state.proxy.links other).nwFunc = .request →
    (state.proxy.links other).dataletConn = some server → other = client

/-- A write is incomplete only when its client has disconnected. -/
def Event.Whole (state : State engine) : Event → Prop
  | .writable link false =>
      (state.proxy.links link).nwFunc = .request ∧ link ∈ state.proxy.freeConnPool
  | _ => True

instance (state : State engine) : DecidablePred (Event.Whole state) := fun event =>
  match event with
  | .writable _ false => inferInstanceAs (Decidable (_ ∧ _))
  | .writable _ true => isTrue trivial
  | .accept _ => isTrue trivial
  | .request _ _ _ => isTrue trivial
  | .response _ => isTrue trivial
  | .serve _ => isTrue trivial

/-- The lane from a client to the datalet its requests go to. -/
structure Lane.To (lane : Lane) (session : Session) (server : LinkPtr) : Prop where
  client : lane.client = session.client
  backend : lane.backend = [server]
  server : session.server = some server

theorem Lane.To.through {lane : Lane} {session : Session} {server : LinkPtr}
    (of : lane.To session server) : lane.Through session := by
  refine ⟨of.client, fun ptr member => ?_⟩
  rw [of.backend, List.mem_singleton] at member
  simp [Session.backend, of.server, member]

/-- Requests and answers of a client are in order: every request is carried by the
one link of the lane. -/
def Direct (state : State engine) (lane : Lane) : Prop :=
  (state.line lane).Sound fun _ => true

/-- A client and its datalet link form a lane. -/
theorem Sane.exists_laneTo {cfg : Config} {state : State engine} {sessions : List Session}
    {session : Session} {server : LinkPtr} (sane : Sane cfg state sessions)
    (member : session ∈ sessions) (isServer : session.server = some server) :
    ∃ lane : Lane, lane.To session server := by
  have nodup : [session.client, server].Nodup := by
    have links := sane.wired.links_nodup member
    rw [Session.links, isServer] at links
    exact links.sublist (by simp)
  exact ⟨⟨session.client, [server], by simp, nodup⟩, rfl, rfl, isServer⟩

section Reading

variable {state : State engine} {lane : Lane} {session : Session} {server : LinkPtr}

theorem Lane.To.stage_eq (of : lane.To session server) (state : State engine) :
    (state.line lane).stage (state.line lane).last = state.pipe server := by
  have place : lane.backend[lane.backend.length - 1]? = some server := by
    rw [of.backend]
    rfl
  exact Lane.stage_eq place

theorem Lane.To.flow_eq (of : lane.To session server) (state : State engine) :
    (state.line lane).flow =
      (state.proxy.links server).omsgQ ++ (state.proxy.links server).imsgQ := by
  have last : (state.line lane).last = 0 := by
    change lane.backend.length - 1 = 0
    rw [of.backend]
    rfl
  have stage := of.stage_eq state
  rw [last] at stage
  rw [Line.flow, last]
  change ((state.line lane).stage 0).held ++ [] = _
  rw [stage, List.append_nil]
  rfl

/-- An answer on another link that nobody waits for. -/
theorem Lane.To.line_elsewhere {link : LinkPtr} {traffic : Traffic}
    {served : LinkPtr → List (Buffer × Content)} (of : lane.To session server)
    (different : server ≠ link) :
    lane.line ((traffic.read link).pop link) served = lane.line traffic served := by
  refine Lane.line_congr (fun ptr listed => ?_) rfl rfl
  rw [of.backend, List.mem_singleton] at listed
  subst listed
  simp [Traffic.pipe, different]

/-- The client gets the datalet's answers to its first requests, in order. -/
theorem Direct.replies (direct : Direct state lane) (of : lane.To session server) :
    state.replies session.client = (state.pipe server).answered.map Prod.snd := by
  rw [← of.stage_eq state, ← of.client]
  exact direct.output

theorem Direct.acknowledged (direct : Direct state lane) (of : lane.To session server) :
    state.acknowledged session.client = (state.pipe server).answered.map Prod.fst := by
  rw [← of.stage_eq state, direct.answered_eq_take, State.acknowledged, ← of.client]
  rfl

/-- Requests have been answered or wait on the datalet link. -/
theorem Direct.received (direct : Direct state lane) (of : lane.To session server) :
    state.proxy.received session.client = state.acknowledged session.client ++
      ((state.proxy.links server).omsgQ ++ (state.proxy.links server).imsgQ) := by
  rw [direct.acknowledged of, ← of.stage_eq state, ← of.flow_eq state, ← of.client]
  exact direct.input

end Reading

section Steps

variable {cfg : Config} {state after : State engine} {lane : Lane} {session : Session}
variable {sessions : List Session} {server link : LinkPtr}
variable (direct : Direct state lane) (of : lane.To session server)
variable (single : cfg.IsSingle) (sane : Sane cfg state sessions) (member : session ∈ sessions)
include direct of single sane member

omit single sane member in
/-- The answer to the oldest request goes to the client. -/
theorem Direct.finish {pmsg msg : Buffer} {rest : List Buffer}
    (sent : (state.proxy.links server).omsgQ = pmsg :: rest) {reply : Reply}
    {replies : List Reply} (arrived : (state.proxy.wire server).rsp = reply :: replies)
    (content : msg.content = .reply reply)
    (line : after.line lane = lane.line
      (((state.proxy.traffic.read server).pop server).push lane.client msg) state.servedOn) :
    Direct after lane := by
  refine Line.Sound.move direct ?_
  rw [line]
  exact Lane.move_finish (by rw [of.backend]; rfl) sent arrived content

omit single sane member in
/-- What happens on another link does not matter. -/
theorem Direct.elsewhere (different : server ≠ link)
    (line : after.line lane =
      lane.line ((state.proxy.traffic.read link).pop link) state.servedOn) :
    Direct after lane := by
  rw [Direct, line, of.line_elsewhere different]
  exact direct

omit single in
/-- An answer arrives. -/
theorem Direct.response (notChain : cfg.msStrongCr = false) (inside : link ∈ session.links)
    (moved : state.step cfg (.response link) = .ok after) : Direct after lane := by
  obtain ⟨reply, replies, arrived, responded⟩ := State.recvResponse_cases moved
  have backend := sane.response_backend member inside moved
  cases responded with
  | ignored error same => exact same ▸ direct
  | server healthy isServer handled same =>
      subst same
      have isServerLink : link = server := by
        have found := sane.server_of_func member backend isServer
        exact Option.some.inj (found.symm.trans of.server)
      subst isServerLink
      cases handled with
      | chain strong =>
          rw [notChain] at strong
          cases strong
      | unlock locked held sent owner traffic shape =>
          rw [sane.sent_owner member backend sent, ← of.client] at owner
          cases owner
          exact direct.finish of sent arrived rfl (State.line_eq lane traffic shape rfl)
      | direct _ unlocked sent owner moved services =>
          rw [sane.sent_owner member backend sent, ← of.client] at owner
          cases owner
          exact direct.finish of sent arrived rfl
            (State.line_eq lane moved.traffic moved.shape rfl)
  | replica healthy isReplica found handled same =>
      subst same
      have different : server ≠ link := by
        rintro rfl
        rw [sane.server_func member of.server] at isReplica
        cases isReplica
      cases handled with
      | next strong | last strong | read strong =>
          rw [notChain] at strong
          cases strong
      | dropped unused moved =>
          exact direct.elsewhere of different
            (State.line_eq lane moved.traffic moved.shape rfl)

omit of single sane member in
/-- A client that disconnects is dropped. -/
theorem Direct.disconnect {client : LinkPtr} {freed : Nat → Key → Key}
    (present : client ∉ after.proxy.freeConnPool)
    (moved : state.step cfg (.request client none freed) = .ok after) : Direct after lane := by
  simp only [State.step, State.recvRequest] at moved
  split at moved
  · cases moved
  split at moved
  · cases moved
    exact direct
  · cases moved
    exact absurd (List.mem_append_right _ (List.mem_singleton_self client)) present

omit single in
/-- A step on a link of the client that reads no request. -/
theorem Direct.own {event : Event} (notChain : cfg.msStrongCr = false)
    (concerns : event.link? = some link) (inside : link ∈ session.links)
    (notRequest : ∀ client frames freed, event ≠ .request client (some frames) freed)
    (whole : event.Whole state) (present : session.client ∉ after.proxy.freeConnPool)
    (moved : state.step cfg event = .ok after) : Direct after lane := by
  obtain ⟨later, steps⟩ := sane.step moved
  cases event with
  | accept uninit => cases concerns
  | request client msg freed =>
      cases concerns
      obtain rfl := sane.request_client member inside moved
      cases msg with
      | none => exact direct.disconnect present moved
      | some frames => exact absurd rfl (notRequest _ frames freed)
  | response link =>
      cases concerns
      exact direct.response of sane member notChain inside moved
  | writable link written =>
      cases concerns
      have complete : link ∈ lane.client :: lane.backend → written = true := by
        intro here
        cases written with
        | true => rfl
        | false =>
            obtain ⟨isClient, dropped⟩ := whole
            rw [of.client, of.backend] at here
            rcases List.mem_cons.mp here with rfl | isServer
            · exact absurd (steps.pool.subset dropped) present
            · rw [List.mem_singleton.mp isServer, sane.server_func member of.server] at isClient
              cases isClient
      obtain ⟨proxy, rfl, wrote⟩ := State.sendOn_cases moved
      exact (of.through.wrote sane member inside direct complete wrote).1.sound direct
  | serve link =>
      cases concerns
      obtain ⟨addr, req, frame, handled⟩ := State.serveOn_cases moved
      exact handled.line_advances.sound direct

omit direct sane in
/-- One frame of a read joins the queue of the datalet link. -/
theorem Direct.segment {ctx next : Ctx} {frame : Frame} {rest : List Frame}
    {freed : Nat → Key → Key} {continues : Bool} (direct : Direct (state.withCtx ctx) lane)
    (sane : Sane cfg (state.withCtx ctx) sessions)
    (handled : ctx.reqSegment cfg session.client frame rest freed = .ok (continues, next)) :
    Direct (state.withCtx next) lane := by
  obtain ⟨mapped, out, mapping, assigned, route, steers, moved, refused, _⟩ :=
    Ctx.reqSegment_effect handled
  have granted : continues = true := by
    by_contra stopped
    obtain ⟨locks, _⟩ := refused (by simpa using stopped)
    simp [single.aaStrong] at locks
  subst granted
  have isServer : mapping = server := by
    have info := congrArg LinkInfo.dataletConn (sane.client_info member)
    have same := assigned.symm.trans (info.trans of.server)
    exact Option.some.inj same
  subst isServer
  have toServer : out = mapping := by
    cases route with
    | locked | write | read => rfl
    | tailRead passive notSet strong =>
        rw [single.msStrongCr] at strong
        cases strong
  subst toServer
  -- in the modes that copy requests no slave is known
  have copies : (if Ctx.fansOutAfter cfg mapped out then mapped.getSlaves out else []) = [] := by
    split
    next fans =>
      have entries := sane.wired.msMap
      rw [single.fansOutAfter fans] at entries
      change ctx.proxy.msMap = [] at entries
      rw [Ctx.getSlaves_congr steers.shape, Proxy.getSlaves, entries]
      rfl
    · rfl
  rw [← of.client] at moved
  have traffic : next.proxy.traffic = _ := moved.traffic
  simp only [Ctx.forwarded, single.fansOutBefore, copies, if_true, Traffic.fan] at traffic
  have line : (state.withCtx next).line lane = lane.line _ (state.withCtx ctx).servedOn :=
    State.line_eq lane traffic (moved.shape.trans steers.shape) rfl
  refine Line.Sound.move direct ?_
  rw [line]
  exact Lane.move_enter (by rw [of.backend]; rfl) rfl

end Steps

section Runs

variable {cfg : Config} {state : State engine} {client server : LinkPtr}

/-- The requests and answers of every client that has not disconnected are in order. -/
theorem direct_of_run (single : cfg.IsSingle)
    (run : Transition.Runs (State.step cfg) (fun state event => event.Whole state)
      (State.init engine) state) :
    ∃ sessions, Sane cfg state sessions ∧ ∀ session ∈ sessions,
      session.client ∉ state.proxy.freeConnPool → ∀ lane server,
      lane.To session server → Direct state lane := by
  refine Sane.invariant
    (P := fun session state => session.client ∉ state.proxy.freeConnPool → ∀ lane server,
      lane.To session server → Direct state lane)
    ?_ ?_ ?_ run
  · intro state sessions session _ _ newborn _ lane server of
    exact newborn.line_sound of.through
  · intro before after session untouched holds present lane server of
    rw [Direct, untouched.line_eq of.through]
    exact holds (fun dropped => present (untouched.pool.subset dropped)) lane server of
  · intro state sessions session event after link sane member concerns inside whole moved
      holds present lane server of
    obtain ⟨later, steps⟩ := sane.step moved
    have absent : session.client ∉ state.proxy.freeConnPool :=
      fun dropped => present (steps.pool.subset dropped)
    have direct := holds absent lane server of
    by_cases request : ∃ client frames freed, event = .request client (some frames) freed
    · obtain ⟨client, frames, freed, rfl⟩ := request
      cases concerns
      obtain rfl := sane.request_client member inside moved
      obtain ⟨_, kept⟩ := sane.request_induction (P := fun state _ => Direct state lane)
        member direct (fun ctx frame rest continues next sane direct handled =>
          Direct.segment of single member direct sane handled) moved
      exact kept
    · push Not at request
      exact direct.own of sane member single.msStrongCr concerns inside request whole present
        moved

/-- **Delivery exactly once, in order, to the right client.** -/
theorem single_delivery (single : cfg.IsSingle)
    (run : Transition.Runs (State.step cfg) (fun state event => event.Whole state)
      (State.init engine) state)
    (connected : (state.proxy.links client).nwFunc = .request)
    (present : client ∉ state.proxy.freeConnPool)
    (assigned : (state.proxy.links client).dataletConn = some server) :
    InOrder state client server := by
  obtain ⟨sessions, sane, holds⟩ := direct_of_run single run
  obtain ⟨session, member, rfl⟩ := sane.wired.clients client connected
  have isServer : session.server = some server := by
    rw [← assigned]
    exact (congrArg LinkInfo.dataletConn (sane.client_info member)).symm
  obtain ⟨lane, of⟩ := sane.exists_laneTo member isServer
  have direct := holds session member present lane server of
  refine ⟨?_, direct.replies of, ?_, ?_, ?_, ?_⟩
  · have ordered := direct.ordered _ le_rfl
    rwa [of.stage_eq] at ordered
  · rw [← direct.acknowledged of]
    exact direct.received of
  · exact (sane.stamped session member).nodup
  · intro req received
    obtain ⟨seq, place⟩ := List.getElem?_of_mem received
    exact (sane.stamped session member seq req place).owner
  · intro other isClient same
    obtain ⟨otherSession, otherMember, rfl⟩ := sane.wired.clients other isClient
    have otherServer : otherSession.server = some server := by
      rw [← same]
      exact (congrArg LinkInfo.dataletConn (sane.client_info otherMember)).symm
    rw [sane.wired.session_unique member otherMember (Session.server_mem isServer)
      (Session.server_mem otherServer)]

end Runs

/-- Eventual consistency with a master and a slave. -/
def Config.sampleEventual : Config where
  topology := .ms
  consistencyModel := .eventual
  consistencyTechnique := .none
  replicas := 1
  dumbMap := .samplePair

/-- Two clients send requests; the second disconnects before its answer is written. -/
def sampleRequests : List Event :=
  [.accept fun _ => ⟨false, false⟩, .accept fun _ => ⟨true, true⟩,
    .request 0 (some [.set [7] [1], .get [7]]) fun _ => id,
    .request 3 (some [.get [7]]) fun _ => id,
    .writable 2 true, .writable 5 true, .serve 2, .writable 2 true, .serve 5, .response 5,
    .request 3 none fun _ => id, .response 2, .writable 3 false, .writable 0 true]

theorem single_delivery_sample : Config.sampleEventual.IsSingle ∧
    ∃ state : State mapEngine, 3 ∈ state.proxy.freeConnPool ∧
      (state.proxy.delivered 0).length = 1 ∧ (state.proxy.received 0).length = 2 ∧
      InOrder state 0 2 := by
  obtain ⟨state, run, post⟩ := Transition.Runs.exists_of_exec
    (State.step Config.sampleEventual) (fun state event => event.Whole state)
    (State.init mapEngine) sampleRequests
    (fun state => (3 ∈ state.proxy.freeConnPool ∧ (state.proxy.delivered 0).length = 1 ∧
        (state.proxy.received 0).length = 2) ∧
      (state.proxy.links 0).nwFunc = .request ∧ 0 ∉ state.proxy.freeConnPool ∧
      (state.proxy.links 0).dataletConn = some 2) (by decide)
  simp only [decide_eq_true_eq] at post
  obtain ⟨shown, connected, present, assigned⟩ := post
  exact ⟨by decide, state, shown.1, shown.2.1, shown.2.2,
    single_delivery (by decide) run connected present assigned⟩

end BespoKV
