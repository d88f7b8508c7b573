import BespoKV.Chain.Agreement
import BespoKV.Chain.Index

/-!
# Assertions under chain replication

With one outstanding request for each client, no handler fails: whatever event the loop takes
next, no `CHECK` is violated and `get_slave_number` stays inside the chain.  When no event that
is due moves a message any more, every request has been answered once.
-/

namespace BespoKV

open Pipes

variable {engine : Engine} {cfg : Config} {state after : State engine}
variable {sessions : List Session} {session : Session} {lane : Lane} {link : LinkPtr}

/-! ## Connecting a client -/

section Accept

variable (uninit : LinkPtr → Uninit) (client : LinkPtr)

theorem establishRows_enabled (topology : cfg.topology = .ms) (rows : List DumbNode) :
    ∀ opening : Proxy.Opening,
      ∃ opened, Proxy.establishRows cfg uninit client opening rows = .ok opened := by
  induction rows with
  | nil => exact fun opening => ⟨opening, rfl⟩
  | cons row rows ih =>
      intro opening
      obtain ⟨addr, role⟩ := row
      cases role with
      | master => simpa [Proxy.establishRows, Proxy.establishRow, topology] using ih _
      | slave => simpa [Proxy.establishRows, Proxy.establishRow, topology] using ih _

theorem State.accept_enabled (topology : cfg.topology = .ms) :
    ∃ after, state.step cfg (.accept uninit) = .ok after := by
  obtain ⟨opened, established⟩ :=
    establishRows_enabled uninit state.proxy.next topology cfg.dumbMap.rows
      { proxy := state.proxy.alloc uninit { isServer := true, isClient := true } }
  simp [State.step, Proxy.acceptClient, Proxy.establishServerConnEach, established]

end Accept

/-! ## Links with the handlers of a slave -/

/-- A link with the handlers of a slave is not marked as a master. -/
def Proxy.Ranked (proxy : Proxy) : Prop :=
  ∀ ptr, (proxy.links ptr).nwFunc = .replica → (proxy.links ptr).isMaster = false

/-! ## Requests -/

/-- Chain replication takes no lock. -/
theorem Config.IsChain.acquire (chain : cfg.IsChain) (ctx : Ctx) (out : LinkPtr) (req : Buffer)
    (frame : Frame) : ctx.acquire cfg out req frame = .ok (true, ctx) := by
  simp [Ctx.acquire, chain.aaStrong, chain.technique]

section Requests

variable (sane : Sane cfg state sessions) (member : session ∈ sessions) (chain : cfg.IsChain)
include sane member chain

/-- `get_mapped_server_conn` finds a link, and a producer where one is needed. -/
theorem Sane.route_enabled (frame : Frame) (text : Key) : ∃ (mapped : Proxy) (out : LinkPtr),
    state.proxy.getMappedServerConn cfg session.client frame text = .ok (mapped, out) ∧
      ((mapped.links out).fwdToReplicas = true → (mapped.links out).kproducer = true) := by
  obtain ⟨master, links⟩ := sane.chainLinks chain member
  have datalet : (state.proxy.links session.client).dataletConn = some master :=
    (congrArg LinkInfo.dataletConn (sane.client_info member)).trans links.server
  have found : ∃ mapped out, state.proxy.getMappedServerConn cfg session.client frame text =
      .ok (mapped, out) := by
    have count := links.count
    have positive := links.positive
    -- the last slave is the one with the number `num_replicas - 1`
    obtain ⟨tail, place⟩ : ∃ tail, session.slaves[session.slaves.length - 1]? = some tail :=
      ⟨_, List.getElem?_eq_getElem (by omega)⟩
    have number : state.proxy.getSlaveNumber master (cfg.replicas - 1) = .ok (some tail) := by
      have last := sane.wired.getSlaveNumber_eq chain.indexesSlaves member links.server place
      rwa [← count, show ((session.slaves.length : Int) - 1) =
        ((session.slaves.length - 1 : Nat) : Int) by omega]
    by_cases isSet : frame.cmd = .set
    · simp [Proxy.getMappedServerConn, datalet, chain.aaStrong, isSet]
    · have atLeast : cfg.consistencyModel.atLeastEventual = true := by
        rw [chain.model]
        rfl
      have same : ∀ change : Link → Link, ((state.proxy.modify master fun link =>
          { link with key := none }).modify master change).getSlaveNumber master
            (cfg.replicas - 1) = .ok (some tail) := fun change => number
      simp [Proxy.getMappedServerConn, datalet, chain.aaStrong, isSet, atLeast,
        chain.msStrongCr, same]
  obtain ⟨mapped, out, mappedTo⟩ := found
  refine ⟨mapped, out, mappedTo, fun fwd => ?_⟩
  obtain ⟨server, assigned, routed, steers⟩ := Proxy.getMappedServerConn_cases mappedTo
  rw [datalet] at assigned
  cases assigned
  cases routed with
  | locked active => exact absurd active (by simp [chain.aaStrong])
  | write =>
      obtain ⟨addr, _, info⟩ :=
        (sane.wired.established session member).server master links.server
      have same : (mapped.links master).toLinkInfo = cfg.serverLink addr :=
        (congrFun (congrArg Shape.info steers.shape) master).trans info
      rw [same]
      simp [Config.serverLink, chain.topology]
  | tailRead passive notSet isChain found notFwd tailFwd isTail =>
      exact absurd (fwd.symm.trans tailFwd) (by simp)
  | read passive notSet notChain => exact absurd chain.msStrongCr (by simp [notChain])

theorem Sane.segment_enabled (frame : Frame) (rest : List Frame) (freed : Nat → Key → Key) :
    ∃ next, state.toCtx.reqSegment cfg session.client frame rest freed = .ok (true, next) := by
  obtain ⟨mapped, out, routed, producer⟩ := sane.route_enabled member chain frame
    (state.toCtx.keyText session.client frame freed)
  have checked : ∀ req,
      (Ctx.produces cfg (Ctx.receive (mapped.armOut out) session.client req) out &&
        !((Ctx.receive (mapped.armOut out) session.client req).links out).kproducer) = false := by
    intro req
    cases fwd : (mapped.links out).fwdToReplicas with
    | false => simp [Ctx.produces, Ctx.receive, Proxy.armOut, fwd]
    | true => simp [Ctx.receive, Proxy.armOut, producer fwd]
  simp [Ctx.reqSegment, routed, checked, chain.acquire]

/-- A request is taken from its client. -/
theorem Sane.request_enabled {frames : List Frame} (single : frames.length ≤ 1)
    (freed : Nat → Key → Key) (kept : session.client ∉ state.proxy.freeConnPool)
    (healthy : (state.proxy.links session.client).error = false) :
    ∃ after, state.step cfg (.request session.client (some frames) freed) = .ok after := by
  have isClient : (state.proxy.links session.client).nwFunc = .request :=
    congrArg LinkInfo.nwFunc (sane.client_info member)
  cases frames with
  | nil => simp [State.step, State.recvRequest, isClient, kept, healthy, Ctx.reqRecv, Ctx.reqLoop]
  | cons frame rest =>
      have alone : rest = [] := by simpa using single
      subst alone
      obtain ⟨next, handled⟩ := sane.segment_enabled member chain frame [] freed
      simp [State.step, State.recvRequest, isClient, kept, healthy, Ctx.reqRecv, Ctx.reqLoop,
        handled]

end Requests

/-! ## Every handler is safe -/

/-- The step takes place, or no such event can occur. -/
def State.Unfailing (cfg : Config) (state : State engine) (event : Event) : Prop :=
  ∀ fault, state.step cfg event = .error fault → fault = .disabled

theorem State.Unfailing.of_enabled {event : Event}
    (enabled : ∃ after, state.step cfg event = .ok after) : state.Unfailing cfg event := by
  obtain ⟨after, moved⟩ := enabled
  intro fault failed
  rw [moved] at failed
  cases failed

section Handlers

variable (sane : Sane cfg state sessions) (chain : cfg.IsChain) (alert : state.proxy.Alert)
variable (lines : ∀ session ∈ sessions, ∃ lane : Lane, lane.Of session ∧ Chained state lane)

include sane chain alert in
theorem Sane.request_unfailing {client : LinkPtr} {frames : List Frame} (freed : Nat → Key → Key)
    (single : frames.length ≤ 1) :
    state.Unfailing cfg (.request client (some frames) freed) := by
  by_cases refused : (state.proxy.links client).nwFunc ≠ .request ∨
      client ∈ state.proxy.freeConnPool
  · intro fault failed
    rw [State.step, State.recvRequest, if_pos refused] at failed
    cases failed
    rfl
  · push Not at refused
    obtain ⟨session, member, rfl⟩ := sane.wired.clients client refused.1
    exact .of_enabled (sane.request_enabled member chain single freed refused.2
      (alert session.client).healthy)

include sane chain alert lines in
theorem Sane.response_unfailing : state.Unfailing cfg (.response link) := by
  by_cases arrived : (state.proxy.wire link).rsp = []
  · intro fault failed
    simp only [State.step, State.recvResponse, arrived] at failed
    cases failed
    rfl
  · have busy : state.proxy.wire link ≠ {} := fun empty => arrived (by rw [empty])
    obtain ⟨session, member, inside⟩ := sane.backend_of_wire busy
    obtain ⟨lane, of, chained⟩ := lines session member
    obtain ⟨j, place⟩ := of.place inside
    have ordered := chained.sound.ordered j (Lane.place_le place)
    rw [State.line, Lane.stage_eq place] at ordered
    have waits : (state.proxy.links link).omsgQ ≠ [] :=
      ordered.sent_of_rsp (by simp [Traffic.pipe, Proxy.traffic, arrived])
    exact .of_enabled (chained.response_enabled of chain sane member alert inside arrived waits)

include sane alert lines in
theorem Sane.writable_unfailing (ranked : state.proxy.Ranked) :
    state.Unfailing cfg (.writable link true) := by
  cases queued : (state.proxy.links link).imsgQ with
  | nil =>
      intro fault failed
      have healthy := (alert link).healthy
      cases func : (state.proxy.links link).nwFunc with
      | unset =>
          simp only [State.step, State.sendOn, healthy, func] at failed
          cases failed
          rfl
      | request => simp [State.step, State.sendOn, healthy, func] at failed
      | response => simp [State.step, State.sendOn, healthy, func, Proxy.reqSend, queued] at failed
      | replica =>
          simp [State.step, State.sendOn, healthy, func, Proxy.replicaReqSend, queued,
            ranked link func] at failed
  | cons smsg rest =>
      obtain ⟨session, member, inside⟩ := sane.session_of_queued queued
      rcases List.mem_cons.mp inside with rfl | backend
      · exact .of_enabled (sane.deliver_enabled member alert)
      · obtain ⟨lane, of, chained⟩ := lines session member
        obtain ⟨j, place⟩ := of.place backend
        obtain ⟨seq, stamp⟩ := chained.queued_stamped of sane member place queued
        exact .of_enabled (sane.writable_enabled member alert backend queued stamp.id)

include sane lines in
theorem Sane.serve_unfailing : state.Unfailing cfg (.serve link) := by
  cases waiting : (state.proxy.wire link).req with
  | nil =>
      intro fault failed
      simp only [State.step, State.serveOn, waiting] at failed
      split at failed
      next impossible => cases impossible
      · cases failed
        rfl
  | cons req rest =>
      have busy : state.proxy.wire link ≠ {} := by
        intro empty
        simp [empty] at waiting
      obtain ⟨session, member, inside⟩ := sane.backend_of_wire busy
      obtain ⟨lane, of, chained⟩ := lines session member
      obtain ⟨j, place⟩ := of.place inside
      obtain ⟨seq, stamp⟩ := chained.waiting_stamped of sane member place waiting
      exact .of_enabled (sane.serve_enabled member inside waiting stamp.framed)

include sane chain alert lines in
/-- Whatever the loop takes next, no assertion fails. -/
theorem Sane.unfailing (ranked : state.proxy.Ranked) {event : Event}
    (admitted : OneOutstanding state event) : state.Unfailing cfg event := by
  obtain ⟨clean, sends⟩ := admitted
  cases event with
  | accept uninit => exact .of_enabled (State.accept_enabled uninit chain.topology)
  | request client msg freed =>
      cases msg with
      | none => exact clean.elim
      | some frames => exact sane.request_unfailing chain alert freed sends.1
  | response link => exact sane.response_unfailing chain alert lines
  | writable link written =>
      cases written with
      | false => exact clean.elim
      | true => exact sane.writable_unfailing alert lines ranked
  | serve link => exact sane.serve_unfailing lines

end Handlers

/-! ## States at rest -/

/-- No event that is due moves a message. -/
def State.AtRest (cfg : Config) (state : State engine) : Prop :=
  ∀ event after, event.Ready state → state.step cfg event = .ok after →
    after.proxy.traffic = state.proxy.traffic

/-- Nothing is due when all queues and connections are empty. -/
theorem Sane.atRest (sane : Sane cfg state sessions) (quiescent : state.proxy.Quiescent) :
    state.AtRest cfg := by
  have empty : ∀ ptr, (state.proxy.links ptr).imsgQ = [] ∧ state.proxy.wire ptr = {} := by
    intro ptr
    by_cases known : ptr < state.proxy.next
    · obtain ⟨imsgQ, _, wire⟩ := quiescent ptr known
      exact ⟨imsgQ, wire⟩
    · have quiet := sane.quiet_beyond (Nat.le_of_not_lt known)
      exact ⟨quiet.imsgQ, quiet.wire⟩
  intro event after ready moved
  cases event with
  | accept | request => exact ready.elim
  | response link | writable link | serve link =>
      exact State.step_idle rfl (by simp) (empty link).1 (empty link).2 moved

/-- What a client's requests have ahead of them depends on messages alone. -/
theorem State.unfinished_congr (traffic : after.proxy.traffic = state.proxy.traffic)
    (lane : Lane) : after.unfinished lane = state.unfinished lane := by
  have work : (after.line lane).work = (state.line lane).work := by
    refine workBelow_congr fun j _ => ?_
    simp only [State.line, Lane.line_stage, traffic]
    cases lane.backend[j]? with
    | none => rfl
    | some ptr => rfl
  have delivered : after.proxy.delivered = state.proxy.delivered :=
    congrArg Traffic.delivered traffic
  have output : (after.line lane).output = (state.line lane).output := by
    rw [State.line, State.line, traffic]
    rfl
  rw [State.unfinished, State.unfinished, work, output, delivered]

section Rest

variable (sane : Sane cfg state sessions) (chain : cfg.IsChain) (alert : state.proxy.Alert)
variable (atRest : state.AtRest cfg)
include sane chain alert atRest

theorem Chained.idle (chained : Chained state lane) (of : lane.Of session)
    (member : session ∈ sessions) :
    (state.line lane).flow = [] ∧ (state.proxy.links lane.client).imsgQ = [] := by
  by_contra unanswered
  obtain ⟨event, after, ready, moved, less⟩ :=
    chained.progresses of sane member alert chain unanswered
  rw [State.unfinished_congr (atRest event after ready moved)] at less
  exact Nat.lt_irrefl _ less

/-- In a state at rest all queues and connections of a client's links are empty. -/
theorem Chained.empty (chained : Chained state lane) (of : lane.Of session)
    (member : session ∈ sessions) (inside : link ∈ session.links) :
    (state.proxy.links link).imsgQ = [] ∧ (state.proxy.links link).omsgQ = [] ∧
      state.proxy.wire link = {} := by
  obtain ⟨flow, replies⟩ := chained.idle sane chain alert atRest of member
  rcases List.mem_cons.mp inside with rfl | backend
  · have tidy := sane.tidy session member
    rw [of.client] at replies
    exact ⟨replies, tidy.omsgQ, tidy.wire⟩
  · obtain ⟨j, place⟩ := of.place backend
    have small : j ≤ (state.line lane).last := Lane.place_le place
    have held : ((state.line lane).stage j).held = [] := by
      rw [List.eq_nil_iff_forall_not_mem]
      intro req member
      have inFlow := Line.mem_flow small member
      rw [flow] at inFlow
      cases inFlow
    have idle := (chained.sound.ordered j small).idle held
    rw [State.line, Lane.stage_eq place] at idle
    obtain ⟨queue, sent, req, rsp⟩ := idle
    refine ⟨queue, sent, ?_⟩
    have empty : (state.proxy.wire link).rsp = [] := List.map_eq_nil_iff.mp rsp
    exact congr (congrArg Wire.mk req) empty

/-- A state at rest is quiescent. -/
theorem Sane.quiescent
    (lines : ∀ session ∈ sessions, ∃ lane : Lane, lane.Of session ∧ Chained state lane) :
    state.proxy.Quiescent := by
  intro ptr _
  by_cases known : ∃ session ∈ sessions, ptr ∈ session.links
  · obtain ⟨session, member, inside⟩ := known
    obtain ⟨lane, of, chained⟩ := lines session member
    exact chained.empty sane chain alert atRest of member inside
  · push Not at known
    have quiet := sane.quiet ptr known
    exact ⟨quiet.imsgQ, quiet.omsgQ, quiet.wire⟩

end Rest

/-! ## Runs -/

theorem ranked_of_run (indexes : Proxy.indexesSlaves cfg = true)
    {guard : State engine → Event → Prop}
    (run : Transition.Runs (State.step cfg) guard (State.init engine) state) :
    state.proxy.Ranked := by
  obtain ⟨sessions, sane, indexed⟩ := Sane.indexed_of_run indexes run
  intro ptr isReplica
  obtain ⟨session, member, listed⟩ := indexed ptr isReplica
  obtain ⟨number, place⟩ := List.getElem?_of_mem listed
  obtain ⟨addr, info⟩ := sane.slave_info member place
  exact congrArg LinkInfo.isMaster info

/-- Each request of a client has one reply, the tail's answer to it. -/
def State.AnsweredOnce (cfg : Config) (state : State engine) (client : LinkPtr) : Prop :=
  ∀ tail, cfg.chain.getLast? = some tail → ∃ answered,
    answered <+: state.answers tail client ∧
      answered.map Prod.fst = state.proxy.received client ∧
      answered.map Prod.snd = (state.proxy.delivered client).map Buffer.content

/-- What holds in every reachable state. -/
structure Asserted (cfg : Config) (state : State engine) : Prop where
  /-- no event violates an assertion or indexes outside the chain -/
  unfailing : ∀ event, OneOutstanding state event → state.Unfailing cfg event
  /-- nothing more is due when all queues and connections are empty -/
  rest : state.proxy.Quiescent → state.AtRest cfg
  /-- when nothing more is due, all queues and connections are empty -/
  empty : state.AtRest cfg → state.proxy.Quiescent
  /-- and each client has one reply to each request -/
  answered : state.AtRest cfg → ∀ client, (state.proxy.links client).nwFunc = .request →
    state.AnsweredOnce cfg client

/-- A client nothing of which is in flight has the tail's answers to all its requests. -/
theorem Chained.answeredOnce (chained : Chained state lane) (of : lane.Of session)
    (sane : Sane cfg state sessions) (chain : cfg.IsChain) (member : session ∈ sessions)
    (isLocal : ∀ addr, ∀ entry ∈ (state.datalets addr).log,
      ∃ ptr, entry.conn = state.connOf ptr)
    (flow : (state.line lane).flow = []) (replies : (state.proxy.links lane.client).imsgQ = []) :
    state.AnsweredOnce cfg session.client := by
  intro tail last
  obtain ⟨answered, served, received, replied⟩ :=
    chained.replied of sane chain member isLocal last
  rw [flow, List.append_nil] at received
  refine ⟨answered, served, received.symm, replied.trans ?_⟩
  rw [of.client] at replies
  rw [State.replies, replies, List.append_nil]

/-- **No assertion fails.**  Under chain replication with one outstanding request for each
client, whatever the order of events. -/
theorem chain_asserted (chain : cfg.IsChain)
    (run : Transition.Runs (State.step cfg) OneOutstanding (State.init engine) state) :
    Asserted cfg state := by
  obtain ⟨sessions, sane, lines⟩ := chained_everywhere chain run
  have unlocked : cfg.consistencyTechnique ≠ .rl := by
    rw [chain.technique]
    decide
  have alert := alert_of_run unlocked (fun _ _ admitted => admitted.1) run
  have ranked := ranked_of_run chain.indexesSlaves run
  refine ⟨?_, ?_, ?_, ?_⟩
  · exact fun event admitted => sane.unfailing chain alert lines ranked admitted
  · exact sane.atRest
  · exact fun atRest => sane.quiescent chain alert atRest lines
  · intro atRest client connected
    obtain ⟨session, member, rfl⟩ := sane.wired.clients client connected
    obtain ⟨lane, of, chained⟩ := lines session member
    obtain ⟨flow, replies⟩ := chained.idle sane chain alert atRest of member
    exact chained.answeredOnce of sane chain member (Sane.local_of_run run) flow replies

theorem chain_asserted_sample : Config.sampleChain.IsChain ∧ ∃ state : State mapEngine,
    (state.proxy.received 0).length = 1 ∧ state.AtRest Config.sampleChain ∧
      Asserted Config.sampleChain state := by
  obtain ⟨state, run, post⟩ := Transition.Runs.exists_of_exec
    (State.step Config.sampleChain) OneOutstanding (State.init mapEngine) sampleWrite
    (fun state => (state.proxy.received 0).length = 1 ∧ state.proxy.Quiescent) (by decide)
  simp only [decide_eq_true_eq] at post
  have asserted := chain_asserted Config.sampleChain_isChain run
  exact ⟨Config.sampleChain_isChain, state, post.1, asserted.rest post.2, asserted⟩

end BespoKV
