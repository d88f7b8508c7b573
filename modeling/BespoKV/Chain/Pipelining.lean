import BespoKV.Proxy.Subscription
import BespoKV.Chain.Propagation

/-!
# Pipelining under chain replication

A client that sends several requests without waiting gets one answer for each, in
order, provided that a read is sent only when nothing is outstanding.  The proxy keeps
the way of an answer in flags of the links, so a read that overtakes a write changes
the way of that write's answer.
-/

namespace BespoKV

open Pipes

variable {engine : Engine} {cfg : Config} {state after : State engine}
variable {sessions : List Session} {session : Session} {lane : Lane}
variable {master link : LinkPtr}

/-! ## Answers can be handled -/

theorem Proxy.passOn_enabled (proxy : Proxy) (mustBeWrite : Bool)
    {conn slave client : LinkPtr} {pmsg : Buffer} {rest : List Buffer}
    (notMaster : (proxy.links slave).isMaster = false)
    (sent : (proxy.links conn).omsgQ = pmsg :: rest) (owner : pmsg.owner = some client)
    (isClient : (proxy.links client).isClient = true)
    (write : mustBeWrite = true → pmsg.fwdToReplicas = true) :
    ∃ after, proxy.passOn conn slave mustBeWrite = .ok after := by
  cases mustBeWrite with
  | false => simp [Proxy.passOn, notMaster, sent, owner, isClient]
  | true => simp [Proxy.passOn, notMaster, sent, owner, isClient, write rfl]

/-- A slave link that `replica_rsp_recv` can find the master of. -/
structure Proxy.SlaveOf (proxy : Proxy) (conn master : LinkPtr) : Prop where
  notMaster : (proxy.links conn).isMaster = false
  found : proxy.getMasterOfSlave conn = some master
  isServer : (proxy.links master).isServer = true
  apart : conn ≠ master

namespace Proxy.SlaveOf

variable {proxy : Proxy} {conn client : LinkPtr} {msg pmsg : Buffer} {rest : List Buffer}
variable (slaveOf : proxy.SlaveOf conn master) (chain : cfg.IsChain)
variable (sent : (proxy.links conn).omsgQ = pmsg :: rest) (owner : pmsg.owner = some client)
include slaveOf chain sent

/-- A write is handed to the next slave. -/
theorem next_enabled {next : LinkPtr} {j : Nat}
    (fwd : (proxy.links master).fwdToReplicas = true)
    (number : (proxy.links conn).slaveNumber = j) (inner : (j : Int) < cfg.replicas - 1)
    (found : proxy.getSlaveNumber master (j + 1) = .ok (some next)) (apart : conn ≠ next)
    (notMaster : (proxy.links next).isMaster = false) (marked : pmsg.fwdToReplicas = true)
    (owner : pmsg.owner = some client) (isClient : (proxy.links client).isClient = true) :
    ∃ after, proxy.replicaRspRecv cfg conn (some msg) = .ok after := by
  obtain ⟨passed, passedOn⟩ :=
    proxy.passOn_enabled true notMaster sent owner isClient fun _ => marked
  simp [Proxy.replicaRspRecv, slaveOf.notMaster, slaveOf.found, slaveOf.isServer, slaveOf.apart,
    chain.msStrongCr, fwd, number, inner, found, apart, passedOn]

include owner

/-- The last slave answers the client. -/
theorem last_enabled {j : Nat} (fwd : (proxy.links master).fwdToReplicas = true)
    (number : (proxy.links conn).slaveNumber = j) (last : ¬(j : Int) < cfg.replicas - 1) :
    ∃ after, proxy.replicaRspRecv cfg conn (some msg) = .ok after := by
  simp [Proxy.replicaRspRecv, slaveOf.notMaster, slaveOf.found, slaveOf.isServer, slaveOf.apart,
    chain.msStrongCr, fwd, number, last, sent, owner]

/-- A read is answered. -/
theorem read_enabled (fwd : (proxy.links master).fwdToReplicas = false)
    (tail : (proxy.links conn).tail = true) (apart : client ≠ conn) :
    ∃ after, proxy.replicaRspRecv cfg conn (some msg) = .ok after := by
  simp [Proxy.replicaRspRecv, slaveOf.notMaster, slaveOf.found, slaveOf.isServer, slaveOf.apart,
    chain.msStrongCr, fwd, tail, Proxy.rspMappedForward, sent, owner, apart]

end Proxy.SlaveOf

theorem ChainLinks.slaveOf (links : ChainLinks cfg state.proxy session master)
    (chain : cfg.IsChain) (sane : Sane cfg state sessions) (member : session ∈ sessions)
    {j : Nat} (slave : session.slaves[j]? = some link) :
    (State.takeReply state.proxy link).SlaveOf link master := by
  have established := sane.wired.established session member
  have listed := List.mem_of_getElem? slave
  obtain ⟨addr, _, info⟩ := established.slave j link slave
  obtain ⟨serverAddr, _, serverInfo⟩ := established.server master links.server
  refine ⟨congrArg LinkInfo.isMaster info, ?_, congrArg LinkInfo.isServer serverInfo, ?_⟩
  · exact (sane.wired.getMasterOfSlave_eq chain.indexesSlaves member listed).trans links.server
  · rintro rfl
    have nodup := (List.nodup_cons.mp (sane.wired.links_nodup member)).2
    rw [links.server] at nodup
    exact (List.nodup_cons.mp nodup).1 listed

section Enabled

variable (chained : Chained state lane) (of : lane.Of session) (chain : cfg.IsChain)
variable (sane : Sane cfg state sessions) (member : session ∈ sessions)
variable (links : ChainLinks cfg state.proxy session master)
variable (healthy : (state.proxy.links link).error = false)
variable {reply : Reply} {replies : List Reply} {pmsg : Buffer} {rest : List Buffer}
variable (arrived : (state.proxy.wire link).rsp = reply :: replies)
variable (sent : (state.proxy.links link).omsgQ = pmsg :: rest)
variable (owner : pmsg.owner = some session.client)
include chained of chain sane member links healthy arrived sent owner

theorem Chained.master_enabled (isMaster : link = master) :
    ∃ after, state.step cfg (.response link) = .ok after := by
  subst isMaster
  have backend : lane.backend = link :: session.slaves := of.backend.trans links.backend
  have fwd := chained.forwarding backend links.positive sent
  obtain ⟨first, place⟩ : ∃ first, session.slaves[0]? = some first :=
    ⟨_, List.getElem?_eq_getElem links.positive⟩
  obtain ⟨addr, _, info⟩ := (sane.wired.established session member).slave 0 first place
  have notMaster : (state.proxy.links first).isMaster = false := congrArg LinkInfo.isMaster info
  have isClient : (state.proxy.links session.client).isClient = true :=
    congrArg LinkInfo.isClient (sane.client_info member)
  have number : (State.takeReply state.proxy link).getSlaveNumber link 0 = .ok (some first) :=
    sane.wired.getSlaveNumber_eq chain.indexesSlaves member links.server place
  obtain ⟨passed, passedOn⟩ := Proxy.passOn_enabled (State.takeReply state.proxy link) false
    notMaster sent owner isClient (by simp)
  have strong : cfg.msStrong = true := by
    simp [Config.msStrong, chain.topology, chain.model]
  have fwdTaken : ((State.takeReply state.proxy link).links link).fwdToReplicas = true := fwd
  simp [State.step, State.recvResponse, arrived, healthy, links.masterFunc, Ctx.rspRecv,
    strong, fwdTaken, chain.technique, number, passedOn]

theorem Chained.replica_enabled {j : Nat} (slave : session.slaves[j]? = some link) :
    ∃ after, state.step cfg (.response link) = .ok after := by
  have backend : lane.backend = master :: session.slaves := of.backend.trans links.backend
  have place : lane.backend[j + 1]? = some link := by
    rw [backend]
    exact slave
  have slaveOf := links.slaveOf chain sane member slave
  obtain ⟨isReplica, number⟩ := links.slaveFunc j link slave
  suffices handles : ∃ proxy, (State.takeReply state.proxy link).replicaRspRecv cfg link
      (some (State.answer reply)) = .ok proxy by
    obtain ⟨proxy, handled⟩ := handles
    rw [State.answer] at handled
    simp [State.step, State.recvResponse, arrived, healthy, isReplica, handled]
  by_cases fwd : ((State.takeReply state.proxy link).links master).fwdToReplicas = true
  · by_cases inner : (j : Int) < cfg.replicas - 1
    · have count := links.count
      obtain ⟨next, nextPlace⟩ : ∃ next, session.slaves[j + 1]? = some next :=
        ⟨_, List.getElem?_eq_getElem (by omega)⟩
      obtain ⟨nextAddr, _, nextInfo⟩ :=
        (sane.wired.established session member).slave (j + 1) next nextPlace
      have placeNext : lane.backend[j + 2]? = some next := by
        rw [backend]
        exact nextPlace
      -- a request that has left the tail behind it is a write, and marked as one
      have isSet : pmsg.isSet = true := (chained.sent place sent).2 (by
        change j + 1 < lane.backend.length - 1
        rw [backend, List.length_cons]
        omega)
      have held : pmsg ∈ state.proxy.traffic.received lane.client :=
        chained.sound.mem_input (Lane.place_le place) (by
          rw [State.line, Lane.stage_eq place]
          exact List.mem_append_left _ (by simp [Traffic.pipe, Proxy.traffic, sent]))
      refine slaveOf.next_enabled chain sent fwd number inner ?_
        (Lane.place_ne place placeNext (by omega)) (congrArg LinkInfo.isMaster nextInfo)
        ((chained.marked pmsg held).trans isSet) owner
        (congrArg LinkInfo.isClient (sane.client_info member))
      exact sane.wired.getSlaveNumber_eq chain.indexesSlaves member links.server nextPlace
    · exact slaveOf.last_enabled chain sent owner fwd number inner
  · have notFwd : (state.proxy.links master).fwdToReplicas = false := (Bool.not_eq_true _).mp fwd
    obtain ⟨_, tail, _⟩ := chained.reading place sent (by rw [backend]; rfl) notFwd
    refine slaveOf.read_enabled chain sent owner notFwd tail ?_
    rw [← of.client]
    exact Lane.client_ne place

end Enabled

/-- The handler of a datalet link can take the answer to a request of the client. -/
theorem Chained.response_enabled (chained : Chained state lane) (of : lane.Of session)
    (chain : cfg.IsChain) (sane : Sane cfg state sessions) (member : session ∈ sessions)
    (alert : state.proxy.Alert) (inside : link ∈ session.backend)
    (arrived : (state.proxy.wire link).rsp ≠ []) (waits : (state.proxy.links link).omsgQ ≠ []) :
    ∃ after, state.step cfg (.response link) = .ok after := by
  obtain ⟨reply, replies, wire⟩ := List.exists_cons_of_ne_nil arrived
  obtain ⟨pmsg, rest, sent⟩ := List.exists_cons_of_ne_nil waits
  obtain ⟨master, links⟩ := sane.chainLinks chain member
  have healthy := (alert link).healthy
  have owner := sane.sent_owner member inside sent
  rw [links.backend] at inside
  rcases List.mem_cons.mp inside with isMaster | slave
  · exact chained.master_enabled of chain sane member links healthy wire sent owner isMaster
  · obtain ⟨number, place⟩ := List.getElem?_of_mem slave
    exact chained.replica_enabled of chain sane member links healthy wire sent owner place

/-! ## Progress -/

/-- Steps a client's requests and answers still have ahead of them. -/
def State.unfinished (state : State engine) (lane : Lane) : Nat :=
  2 * (state.line lane).work +
    ((state.line lane).output.length - (state.proxy.delivered lane.client).length)

theorem State.output_length (state : State engine) (lane : Lane) :
    (state.line lane).output.length =
      (state.proxy.delivered lane.client).length +
        (state.proxy.links lane.client).imsgQ.length := by
  simp [State.line, Lane.replies, Proxy.traffic]

/-- A move of the line is progress, even if its answer joins the client's queue. -/
theorem unfinished_lt (move : (state.line lane).Move Buffer.isSet (after.line lane))
    (received : after.proxy.received lane.client = state.proxy.received lane.client)
    (delivered : after.proxy.delivered lane.client = state.proxy.delivered lane.client) :
    after.unfinished lane < state.unfinished lane := by
  have less := move.work_lt received
  have output := move.output_le
  have queued := state.output_length lane
  rw [State.unfinished, State.unfinished, delivered]
  omega

/-- The next event brings the requests of the client closer to their answers. -/
def Progresses (cfg : Config) (state : State engine) (lane : Lane) : Prop :=
  ∃ event after, event.Ready state ∧ state.step cfg event = .ok after ∧
    after.unfinished lane < state.unfinished lane

section Progress

variable (chained : Chained state lane) (of : lane.Of session)
variable (sane : Sane cfg state sessions) (member : session ∈ sessions)
variable (alert : state.proxy.Alert)
include chained of sane member

/-- Everything in flight was built by `req_recv`. -/
theorem Chained.stamped {j : Nat} {req : Buffer} (small : j ≤ (state.line lane).last)
    (held : req ∈ ((state.line lane).stage j).held) :
    ∃ seq, req.Stamp state.proxy.pid session.client seq := by
  have received : req ∈ state.proxy.traffic.received session.client := by
    rw [← of.client]
    exact chained.sound.mem_input small held
  obtain ⟨seq, position⟩ := List.getElem?_of_mem received
  exact ⟨seq, sane.stamped session member seq req position⟩

theorem Chained.queued_stamped {j : Nat} {smsg : Buffer} {rest : List Buffer}
    (place : lane.backend[j]? = some link)
    (queued : (state.proxy.links link).imsgQ = smsg :: rest) :
    ∃ seq, smsg.Stamp state.proxy.pid session.client seq := by
  refine chained.stamped of sane member (Lane.place_le place) ?_
  rw [State.line, Lane.stage_eq place]
  exact List.mem_append_right _ (by simp [Traffic.pipe, Proxy.traffic, queued])

theorem Chained.waiting_stamped {j : Nat} {req : Buffer} {rest : List Buffer}
    (place : lane.backend[j]? = some link)
    (waiting : (state.proxy.wire link).req = req :: rest) :
    ∃ seq, req.Stamp state.proxy.pid session.client seq := by
  refine chained.stamped of sane member (Lane.place_le place) (List.mem_append_left _ ?_)
  rw [(chained.sound.ordered j (Lane.place_le place)).requests, State.line, Lane.stage_eq place]
  exact List.mem_append_right _ (by simp [Traffic.pipe, Proxy.traffic, waiting])

include alert

omit chained in
/-- An answer for the client is written. -/
theorem Sane.deliver_progresses (queued : (state.proxy.links lane.client).imsgQ ≠ []) :
    Progresses cfg state lane := by
  obtain ⟨after, moved⟩ := sane.deliver_enabled member alert
  rw [← of.client] at moved
  have ready : Event.Ready state (.writable lane.client true) :=
    ⟨rfl, (alert lane.client).writing queued⟩
  refine ⟨_, after, ready, moved, ?_⟩
  obtain ⟨proxy, rfl, wrote⟩ := State.sendOn_cases moved
  cases wrote with
  | idle nothing =>
      rcases nothing with error | empty
      · rw [(alert lane.client).healthy] at error
        cases error
      · exact absurd empty queued
  | @delivered buffer rest isClient queue complete becomes =>
      have line : (state.withProxy proxy).line lane = lane.line
          (state.proxy.traffic.deliver lane.client buffer) state.servedOn :=
        State.line_eq lane becomes.traffic becomes.shape rfl
      have kept : (state.withProxy proxy).line lane = state.line lane :=
        line.trans (Lane.line_deliver queue)
      have written : proxy.delivered lane.client =
          state.proxy.delivered lane.client ++ [buffer] := by
        have traffic := congrFun (congrArg Traffic.delivered becomes.traffic) lane.client
        simpa [Proxy.traffic] using traffic
      have output := state.output_length lane
      rw [queue, List.length_cons] at output
      rw [State.unfinished, State.unfinished, kept]
      change _ + (_ - (proxy.delivered lane.client).length) < _
      rw [written, List.length_append, List.length_singleton]
      omega
  | @failed buffer rest queue incomplete lost =>
      have nonempty := (alert lane.client).whole buffer (.inl (by simp [queue]))
      rw [nonempty] at incomplete
      simp at incomplete
  | sent isDatalet =>
      have isClient : (state.proxy.links lane.client).nwFunc = .request := by
        rw [of.client]
        exact congrArg LinkInfo.nwFunc (sane.client_info member)
      rw [isClient] at isDatalet
      simp at isDatalet

/-- A request is written to its datalet. -/
theorem Chained.send_progresses {j : Nat} (place : lane.backend[j]? = some link)
    (queued : (state.proxy.links link).imsgQ ≠ []) : Progresses cfg state lane := by
  have inside : link ∈ session.backend := of.backend ▸ List.mem_of_getElem? place
  obtain ⟨smsg, rest, queue⟩ := List.exists_cons_of_ne_nil queued
  obtain ⟨seq, stamp⟩ := chained.queued_stamped of sane member place queue
  obtain ⟨after, moved⟩ := sane.writable_enabled member alert inside queue stamp.id
  have ready : Event.Ready state (.writable link true) := ⟨rfl, (alert link).writing queued⟩
  refine ⟨_, after, ready, moved, ?_⟩
  obtain ⟨proxy, rfl, wrote⟩ := State.sendOn_cases moved
  have isDatalet : (state.proxy.links link).nwFunc ≠ .request := by
    rcases sane.backend_cases member inside with ⟨_, addr, info⟩ | ⟨_, _, addr, info⟩
    · rw [show (state.proxy.links link).nwFunc = .response from congrArg LinkInfo.nwFunc info]
      decide
    · rw [show (state.proxy.links link).nwFunc = .replica from congrArg LinkInfo.nwFunc info]
      decide
  cases wrote with
  | idle nothing =>
      rcases nothing with error | empty
      · rw [(alert link).healthy] at error
        cases error
      · exact absurd empty queued
  | delivered isClient => exact absurd isClient isDatalet
  | failed queued incomplete lost => simp [isDatalet] at incomplete
  | @sent buffer _ _ queue becomes =>
      have line : (state.withProxy proxy).line lane = lane.line
          (state.proxy.traffic.transmit link buffer) state.servedOn :=
        State.line_eq lane becomes.traffic becomes.shape rfl
      apply unfinished_lt
      · rw [line]
        exact Lane.move_send place queue
      · exact congrFun (congrArg Traffic.received becomes.traffic) lane.client
      · exact congrFun (congrArg Traffic.delivered becomes.traffic) lane.client

omit alert in
/-- A datalet takes a request. -/
theorem Chained.serve_progresses {j : Nat} (place : lane.backend[j]? = some link)
    (waiting : (state.proxy.wire link).req ≠ []) : Progresses cfg state lane := by
  have inside : link ∈ session.backend := of.backend ▸ List.mem_of_getElem? place
  obtain ⟨req, rest, queue⟩ := List.exists_cons_of_ne_nil waiting
  obtain ⟨seq, stamp⟩ := chained.waiting_stamped of sane member place queue
  obtain ⟨after, moved⟩ := sane.serve_enabled member inside queue stamp.framed
  refine ⟨.serve link, after, trivial, moved, ?_⟩
  obtain ⟨addr, served, frame, handled⟩ := State.serveOn_cases moved
  apply unfinished_lt
  · exact (chained.serve of sane member (Session.backend_mem inside) moved).2
  · exact congrFun (congrArg Traffic.received handled.moved.traffic) lane.client
  · exact congrFun (congrArg Traffic.delivered handled.moved.traffic) lane.client

/-- An answer is read. -/
theorem Chained.response_progresses (chain : cfg.IsChain) {j : Nat}
    (place : lane.backend[j]? = some link) (arrived : (state.proxy.wire link).rsp ≠ [])
    (waits : (state.proxy.links link).omsgQ ≠ []) : Progresses cfg state lane := by
  have inside : link ∈ session.backend := of.backend ▸ List.mem_of_getElem? place
  obtain ⟨after, moved⟩ :=
    chained.response_enabled of chain sane member alert inside arrived waits
  have ready : Event.Ready state (.response link) := (alert link).reading waits
  refine ⟨_, after, ready, moved, ?_⟩
  obtain ⟨received, delivered⟩ := Sane.history_response moved
  have moves := chained.response of chain sane member (Session.backend_mem inside) moved
  exact unfinished_lt (moves.2 (alert link).healthy) (by rw [received]) (by rw [delivered])

/-- As long as a request of the client is not answered, some event is due that brings
it closer to its answer. -/
theorem Chained.progresses (chain : cfg.IsChain)
    (unanswered : ¬((state.line lane).flow = [] ∧
      (state.proxy.links lane.client).imsgQ = [])) : Progresses cfg state lane := by
  by_cases queued : (state.proxy.links lane.client).imsgQ = []
  · have busy : (state.line lane).flow ≠ [] := fun idle => unanswered ⟨idle, queued⟩
    obtain ⟨j, small, busy⟩ := chained.sound.busy busy
    obtain ⟨link, place⟩ : ∃ link, lane.backend[j]? = some link :=
      ⟨_, List.getElem?_eq_getElem (Nat.lt_of_le_of_lt small Lane.last_lt)⟩
    rw [State.line, Lane.stage_eq place] at busy
    rcases busy with queue | waiting | ⟨arrived, waits⟩
    · exact chained.send_progresses of sane member alert place queue
    · exact chained.serve_progresses of sane member place waiting
    · refine chained.response_progresses of sane member alert chain place ?_ waits
      exact fun none => arrived (by simp [Proxy.traffic, none])
  · exact sane.deliver_progresses of member alert queued

end Progress

/-! ## Runs -/

/-- What a pipelining client is promised. -/
structure Pipelining (cfg : Config) (state : State engine) (client : LinkPtr) : Prop where
  /-- the replies are the tail's answers to the first requests, one each, in order -/
  inOrder : ∀ tail, cfg.chain.getLast? = some tail → ∃ answered,
    answered <+: state.answers tail client ∧
      answered.map Prod.fst <+: state.proxy.received client ∧
      answered.map Prod.snd = state.replies client
  /-- a write is acknowledged only after every datalet has applied it -/
  applied : ∀ req ∈ state.acknowledged client, req.isSet = true →
    ∀ addr ∈ cfg.chain, req ∈ state.applied addr client
  /-- the events that are due suffice to answer every request -/
  completes : ∃ later, Transition.Runs (State.step cfg) Event.Ready state later ∧
    later.proxy.received client = state.proxy.received client ∧
    (later.proxy.delivered client).length = (state.proxy.received client).length

/-- Events that are due are allowed for disciplined clients. -/
theorem Event.Ready.chainGuard {watched : LinkPtr → Prop} {event : Event}
    (ready : event.Ready state) : ChainGuard watched state event := by
  refine ⟨ready.clean, ?_⟩
  cases event with
  | accept | request => exact ready.elim
  | response | writable | serve => trivial

/-- The session of a disciplined client and its line, in a reachable state. -/
theorem chained_client (chain : cfg.IsChain) {client : LinkPtr}
    (run : Transition.Runs (State.step cfg) (ChainGuard (· = client)) (State.init engine) state)
    (connected : (state.proxy.links client).nwFunc = .request) :
    ∃ sessions, Sane cfg state sessions ∧ state.proxy.sessionOf client ∈ sessions ∧
      ∀ lane : Lane, lane.Of (state.proxy.sessionOf client) → Chained state lane := by
  obtain ⟨sessions, sane, holds⟩ := chained_of_run (· = client) chain (fun _ _ => id) run
  obtain ⟨session, member, rfl⟩ := sane.wired.clients client connected
  obtain ⟨master, links⟩ := sane.chainLinks chain member
  rw [sane.sessionOf_eq chain.indexesSlaves member links.server]
  exact ⟨sessions, sane, member, holds session member rfl⟩

/-- A line that holds nothing has answered everything. -/
theorem Chained.length_eq (chained : Chained state lane) (idle : (state.line lane).flow = [])
    (empty : (state.proxy.links lane.client).imsgQ = []) :
    (state.proxy.delivered lane.client).length = (state.proxy.received lane.client).length := by
  have input := congrArg List.length chained.sound.input
  have output := congrArg List.length chained.sound.output
  rw [state.output_length, empty] at output
  rw [idle] at input
  simp only [List.append_nil, List.length_map, List.length_nil, Nat.add_zero] at input output
  exact output.trans input.symm

/-- The replies of a client are the tail's answers to its oldest requests; the others are in
flight. -/
theorem Chained.replied (chained : Chained state lane) (of : lane.Of session)
    (sane : Sane cfg state sessions) (chain : cfg.IsChain) (member : session ∈ sessions)
    (isLocal : ∀ addr, ∀ entry ∈ (state.datalets addr).log,
      ∃ ptr, entry.conn = state.connOf ptr)
    {tail : AddrType} (last : cfg.chain.getLast? = some tail) : ∃ answered,
    answered <+: state.answers tail session.client ∧
      state.proxy.received session.client =
        answered.map Prod.fst ++ (state.line lane).flow ∧
      answered.map Prod.snd = state.replies session.client := by
  rw [sane.tail_place chain member of] at last
  obtain ⟨_, answers⟩ := sane.answers_stage chain isLocal member of last
  refine ⟨((state.line lane).stage (state.line lane).last).answered, ?_, ?_, ?_⟩
  · rw [answers]
    exact Line.answered_served _
  · rw [← chained.sound.input, ← of.client]
    rfl
  · rw [← chained.sound.output, ← of.client]
    rfl

/-- The client's requests, session and history while only events that are due occur. -/
structure Draining (cfg : Config) (state : State engine) (client : LinkPtr)
    (later : State engine) : Prop where
  run : Transition.Runs (State.step cfg) (ChainGuard (· = client)) (State.init engine) later
  connected : (later.proxy.links client).nwFunc = .request
  session : later.proxy.sessionOf client = state.proxy.sessionOf client
  received : later.proxy.received client = state.proxy.received client

theorem Draining.step {client : LinkPtr} {later next : State engine} {event : Event}
    (draining : Draining cfg state client later) (chain : cfg.IsChain)
    (ready : event.Ready later) (moved : later.step cfg event = .ok next) :
    Draining cfg state client next := by
  have run := draining.run.tail ready.chainGuard moved
  obtain ⟨sessions, sane, member, _⟩ := chained_client chain draining.run draining.connected
  obtain ⟨after, steps⟩ := sane.step moved
  have kept := steps.kept _ member
  obtain ⟨master, links⟩ := steps.sane.chainLinks chain kept
  have session := steps.sane.sessionOf_eq chain.indexesSlaves kept links.server
  refine ⟨run, ?_, session.trans draining.session, ?_⟩
  · exact congrArg LinkInfo.nwFunc (steps.sane.client_info kept)
  · have others : ∀ frames freed, event ≠ .request client (some frames) freed := by
      rintro frames freed rfl
      exact ready
    exact (sane.received_step moved others).trans draining.received

/-- The events that are due suffice to answer every request of a client. -/
theorem pipeline_completes (chain : cfg.IsChain) {client : LinkPtr}
    (run : Transition.Runs (State.step cfg) (ChainGuard (· = client)) (State.init engine) state)
    (connected : (state.proxy.links client).nwFunc = .request) :
    ∃ later, Transition.Runs (State.step cfg) Event.Ready state later ∧
      later.proxy.received client = state.proxy.received client ∧
      (later.proxy.delivered client).length = (state.proxy.received client).length := by
  obtain ⟨sessions, sane, member, _⟩ := chained_client chain run connected
  obtain ⟨lane, of⟩ := sane.exists_lane chain member
  have isClient : lane.client = client := of.client
  have unlocked : cfg.consistencyTechnique ≠ .rl := by
    rw [chain.technique]
    decide
  have progress : ∀ later, Draining cfg state client later →
      ¬((later.line lane).flow = [] ∧ (later.proxy.links lane.client).imsgQ = []) →
      ∃ event next, event.Ready later ∧ later.step cfg event = .ok next ∧
        Draining cfg state client next ∧ next.unfinished lane < later.unfinished lane := by
    intro later draining unanswered
    obtain ⟨others, saneLater, memberLater, holds⟩ :=
      chained_client chain draining.run draining.connected
    rw [draining.session] at memberLater holds
    have alert := alert_of_run unlocked (fun _ _ admitted => admitted.1) draining.run
    obtain ⟨event, next, ready, moved, less⟩ :=
      (holds lane of).progresses of saneLater memberLater alert chain unanswered
    exact ⟨event, next, ready, moved, draining.step chain ready moved, less⟩
  obtain ⟨later, due, draining, idle, empty⟩ :=
    Transition.Runs.drain (State.step cfg) Event.Ready (Draining cfg state client)
      (fun later => (later.line lane).flow = [] ∧ (later.proxy.links lane.client).imsgQ = [])
      (fun later => later.unfinished lane) ⟨run, connected, rfl, rfl⟩ progress
  obtain ⟨_, _, _, holds⟩ := chained_client chain draining.run draining.connected
  have lengths := (holds lane (draining.session ▸ of)).length_eq idle empty
  rw [isClient, draining.received] at lengths
  exact ⟨later, due, draining.received, lengths⟩

/-- **Pipelining.**  A client whose reads arrive when all its requests have been
answered gets one reply for each request, in order, and no write is acknowledged before
it has been applied everywhere. -/
theorem chain_pipelining (chain : cfg.IsChain) {client : LinkPtr}
    (run : Transition.Runs (State.step cfg) (ChainGuard (· = client)) (State.init engine) state)
    (connected : (state.proxy.links client).nwFunc = .request) :
    Pipelining cfg state client := by
  obtain ⟨sessions, sane, member, holds⟩ := chained_client chain run connected
  obtain ⟨lane, of⟩ := sane.exists_lane chain member
  have chained := holds lane of
  have isLocal := Sane.local_of_run run
  refine ⟨?_, ?_, pipeline_completes chain run connected⟩
  · intro tail last
    obtain ⟨answered, served, received, replies⟩ :=
      chained.replied of sane chain member isLocal last
    exact ⟨answered, served, ⟨_, received.symm⟩, replies⟩
  · intro req acknowledged isSet addr datalet
    exact chained.applied_everywhere of chain sane member isLocal acknowledged isSet datalet

/-- A read, and two writes behind it in the same read. -/
def sampleBurst : List Event :=
  [.accept fun _ => ⟨true, true⟩,
    .request 0 (some [.get [7], .set [7] [1], .set [7] [2]]) fun _ => id,
    .writable 3 true, .writable 2 true, .serve 3, .serve 2, .response 2]

theorem chain_pipelining_sample : ∃ state : State mapEngine,
    (state.proxy.received 0).length = 3 ∧ Pipelining Config.sampleChain state 0 := by
  obtain ⟨state, run, post⟩ := Transition.Runs.exists_of_exec
    (State.step Config.sampleChain) (ChainGuard (· = 0)) (State.init mapEngine) sampleBurst
    (fun state => (state.proxy.links 0).nwFunc = .request ∧
      (state.proxy.received 0).length = 3) (by decide)
  simp only [decide_eq_true_eq] at post
  exact ⟨state, post.2, chain_pipelining Config.sampleChain_isChain run post.1⟩

/-- A read sent behind a write: when the master answers the write, the flag that would
send it along the chain has been cleared by the read. -/
def sampleOvertaken : List Event :=
  [.accept fun _ => ⟨false, false⟩,
    .request 0 (some [.set [7] [1], .get [7]]) fun _ => id,
    .writable 2 true, .serve 2, .response 2, .writable 0 true]

/-- A write is acknowledged that no slave has applied. -/
theorem pipelined_read_breaks : ∃ state : State mapEngine,
    Transition.Runs (State.step Config.sampleChain) (fun _ event => event.Clean)
        (State.init mapEngine) state ∧
      (state.proxy.links 0).nwFunc = .request ∧ ¬Pipelining Config.sampleChain state 0 := by
  obtain ⟨state, run, post⟩ := Transition.Runs.exists_of_exec
    (State.step Config.sampleChain) (fun _ event => event.Clean) (State.init mapEngine)
    sampleOvertaken
    (fun state => (state.proxy.links 0).nwFunc = .request ∧
      (state.proxy.delivered 0).length = 1 ∧
      ∃ req ∈ state.acknowledged 0, req.isSet = true ∧ req ∉ state.applied [1] 0) (by decide)
  simp only [decide_eq_true_eq] at post
  obtain ⟨connected, _, req, acknowledged, isSet, missing⟩ := post
  refine ⟨state, run, connected, fun pipelining => missing ?_⟩
  exact pipelining.applied req acknowledged isSet [1] (by decide)

end BespoKV
