import BespoKV.Proxy.Lines

/-!
# Chain replication as a line of pipes

In chain mode the links of a client form a line from the master to the tail: writes
enter at the master and are handed on, reads enter at the tail.  Which way an answer
goes is decided by one flag for each link, set when a request is parsed; `Chained`
says when these flags are right for every request in flight.
-/

namespace BespoKV

open Pipes

/-- Chain replication with one master, at least one slave and `num_replicas` equal to
the number of slaves. -/
structure Config.IsChain (cfg : Config) : Prop where
  topology : cfg.topology = .ms
  model : cfg.consistencyModel = .strong
  technique : cfg.consistencyTechnique = .cr
  master : (cfg.addrs .master).length = 1
  slaves : 1 ≤ (cfg.addrs .slave).length
  replicas : cfg.replicas = (cfg.addrs .slave).length

/-- Addresses of the datalets in chain order, the master first. -/
def Config.chain (cfg : Config) : List AddrType := cfg.addrs .master ++ cfg.addrs .slave

section MasterSlave

variable {cfg : Config} (topology : cfg.topology = .ms)
include topology

theorem Config.indexesSlaves_ms : Proxy.indexesSlaves cfg = true := by
  simp [Proxy.indexesSlaves, topology]

theorem Config.serverAddrs_ms : cfg.serverAddrs cfg.dumbMap.rows = cfg.addrs .master := by
  have same : cfg.isServer = fun row => decide (row.role = .master) := by
    funext row
    simp [Config.isServer, topology]
  rw [Config.serverAddrs, same, Config.addrs]

theorem Config.slaveAddrs_ms : cfg.slaveAddrs cfg.dumbMap.rows = cfg.addrs .slave := by
  have same : cfg.isSlave = fun row => decide (row.role = .slave) := by
    funext row
    simp [Config.isSlave, Config.indexesSlaves_ms topology]
  rw [Config.slaveAddrs, same, Config.addrs]

end MasterSlave

namespace Config.IsChain

variable {cfg : Config} (chain : cfg.IsChain)
include chain

theorem msStrongCr : cfg.msStrongCr = true := by
  simp [Config.msStrongCr, Config.msStrong, chain.topology, chain.model, chain.technique]

theorem aaStrong : cfg.aaStrong = false := by
  simp [Config.aaStrong, chain.topology]

theorem indexesSlaves : Proxy.indexesSlaves cfg = true :=
  Config.indexesSlaves_ms chain.topology

theorem serverAddrs : cfg.serverAddrs cfg.dumbMap.rows = cfg.addrs .master :=
  Config.serverAddrs_ms chain.topology

theorem slaveAddrs : cfg.slaveAddrs cfg.dumbMap.rows = cfg.addrs .slave :=
  Config.slaveAddrs_ms chain.topology

theorem fansOutBefore (proxy : Proxy) (out : LinkPtr) :
    Ctx.fansOutBefore cfg proxy out = false := by
  simp [Ctx.fansOutBefore, chain.aaStrong]

theorem fansOutAfter (proxy : Proxy) (out : LinkPtr) :
    Ctx.fansOutAfter cfg proxy out = false := by
  simp [Ctx.fansOutAfter, chain.topology, chain.model]

end Config.IsChain

/-- A chain of a master and two slaves. -/
def Config.sampleChain : Config where
  topology := .ms
  consistencyModel := .strong
  consistencyTechnique := .cr
  replicas := 2
  dumbMap := .sampleTriple

theorem Config.sampleChain_isChain : Config.sampleChain.IsChain := by
  constructor <;> decide

/-! ## Lanes of sessions -/

/-- The lane through all datalet links of a session. -/
structure Lane.Of (lane : Lane) (session : Session) : Prop where
  client : lane.client = session.client
  backend : lane.backend = session.backend

theorem Lane.Of.through {lane : Lane} {session : Session} (of : lane.Of session) :
    lane.Through session :=
  ⟨of.client, fun _ member => of.backend ▸ member⟩

/-- The datalet links of a session in chain mode. -/
structure ChainLinks (cfg : Config) (proxy : Proxy) (session : Session) (master : LinkPtr) :
    Prop where
  server : session.server = some master
  backend : session.backend = master :: session.slaves
  count : (session.slaves.length : Int) = cfg.replicas
  positive : 1 ≤ session.slaves.length
  masterFunc : (proxy.links master).nwFunc = .response
  slaveFunc : ∀ (j : Nat) (ptr : LinkPtr), session.slaves[j]? = some ptr →
    (proxy.links ptr).nwFunc = .replica ∧ (proxy.links ptr).slaveNumber = j

theorem Sane.chainLinks {engine : Engine} {cfg : Config} {state : State engine}
    {sessions : List Session} {session : Session} (sane : Sane cfg state sessions)
    (chain : cfg.IsChain) (member : session ∈ sessions) :
    ∃ master, ChainLinks cfg state.proxy session master := by
  have established := sane.wired.established session member
  cases server : session.server with
  | none =>
      have none := established.serverless server
      rw [chain.serverAddrs] at none
      have one := chain.master
      simp [none] at one
  | some master =>
      obtain ⟨addr, _, info⟩ := established.server master server
      have count := established.slaves
      rw [chain.slaveAddrs] at count
      refine ⟨master, server, by simp [Session.backend, server], ?_, ?_, ?_, ?_⟩
      · rw [count, chain.replicas]
      · rw [count]
        exact chain.slaves
      · exact (congrArg LinkInfo.nwFunc info).trans rfl
      · intro j ptr place
        exact ⟨sane.slave_func member (List.mem_of_getElem? place),
          sane.slave_number member place⟩

/-! ## The invariant of one client -/

variable {engine : Engine}

/-- The flags route every request in flight the right way: either all of them are
writes that the master flag sends along the chain, or the only one is a read at the
tail, whose flag sends the answer to the client. -/
inductive Steered (state : State engine) (lane : Lane) : Prop where
  | idle (empty : (state.line lane).flow = [])
  | writing {master : LinkPtr} (head : lane.backend.head? = some master)
      (fwd : (state.proxy.flags master).fwdToReplicas = true)
  | reading {tail : LinkPtr} {read : Buffer} (last : lane.backend.getLast? = some tail)
      (flag : (state.proxy.flags tail).tail = true)
      (alone : (state.line lane).flow = [read]) (isRead : read.isSet = false)

/-- The invariant of a client whose reads arrive while nothing is in flight. -/
structure Chained (state : State engine) (lane : Lane) : Prop where
  sound : (state.line lane).Sound Buffer.isSet
  marked : ∀ req ∈ state.proxy.traffic.received lane.client, req.fwdToReplicas = req.isSet
  steered : Steered state lane

section Chained

variable {cfg : Config} {state after : State engine} {lane : Lane} {session : Session}
variable {sessions : List Session} {master link : LinkPtr}

/-- A client nothing has happened to. -/
theorem Newborn.chained (newborn : Newborn session state) (of : lane.Of session) :
    Chained state lane := by
  have sound : (state.line lane).Sound Buffer.isSet := newborn.line_sound of.through
  have received := (newborn.quiet session.client session.client_mem).received
  refine ⟨sound, ?_, .idle ?_⟩
  · simp [of.client, received]
  · have whole := sound.input
    simp only [State.line, Lane.line_input, of.client, received] at whole
    exact (List.append_eq_nil_iff.mp whole.symm).2

/-- Nothing new is received or answered, and the flags stay: what is in flight is still
routed the right way. -/
theorem Chained.of_advances (chained : Chained state lane)
    (advances : (state.line lane).Advances Buffer.isSet (after.line lane))
    (flags : ∀ ptr ∈ lane.backend, after.proxy.flags ptr = state.proxy.flags ptr) :
    Chained after lane := by
  have flow := advances.flow_eq
  refine ⟨advances.sound chained.sound, ?_, ?_⟩
  · change ∀ req ∈ (after.line lane).input, _
    rw [advances.input_eq]
    exact chained.marked
  cases chained.steered with
  | idle empty => exact .idle (flow.trans empty)
  | writing head fwd =>
      exact .writing head (by rwa [flags _ (List.mem_of_mem_head? head)])
  | reading last flag alone isRead =>
      exact .reading last (by rwa [flags _ (List.mem_of_getLast? last)]) (flow.trans alone)
        isRead

theorem Untouched.chained (untouched : Untouched session state after)
    (of : lane.Of session) (chained : Chained state lane) : Chained after lane :=
  chained.of_advances (.still (untouched.line_eq of.through)) fun ptr member =>
    untouched.flags ptr (Session.backend_mem (of.backend ▸ member))

/-! ## Steps on the client's own links -/

theorem Lane.Of.place (of : lane.Of session) (inside : link ∈ session.backend) :
    ∃ j : Nat, lane.backend[j]? = some link :=
  List.getElem?_of_mem (of.backend ▸ inside)

theorem Chained.serve (chained : Chained state lane) (of : lane.Of session)
    (sane : Sane cfg state sessions) (member : session ∈ sessions)
    (inside : link ∈ session.links)
    (moved : state.step cfg (.serve link) = .ok after) :
    Chained after lane ∧ (state.line lane).Move Buffer.isSet (after.line lane) := by
  obtain ⟨addr, req, frame, handled⟩ := State.serveOn_cases moved
  have backend := sane.serve_backend member inside moved
  obtain ⟨j, place⟩ := of.place backend
  exact ⟨chained.of_advances handled.line_advances fun ptr _ =>
    congrFun handled.moved.flags ptr, handled.line_move place⟩

theorem Chained.writable (chained : Chained state lane) (of : lane.Of session)
    (sane : Sane cfg state sessions) (member : session ∈ sessions)
    (inside : link ∈ session.links)
    (moved : state.step cfg (.writable link true) = .ok after) : Chained after lane := by
  obtain ⟨proxy, rfl, wrote⟩ := State.sendOn_cases moved
  obtain ⟨advances, flags⟩ :=
    of.through.wrote sane member inside chained.sound (fun _ => rfl) wrote
  exact chained.of_advances advances flags

/-- A request whose answer has arrived is in flight, and it is a write unless it is at
the tail. -/
theorem Chained.sent (chained : Chained state lane) {j : Nat}
    (place : lane.backend[j]? = some link) {pmsg : Buffer} {rest : List Buffer}
    (sent : (state.proxy.links link).omsgQ = pmsg :: rest) :
    pmsg ∈ (state.line lane).flow ∧ (j < (state.line lane).last → pmsg.isSet = true) := by
  have held : pmsg ∈ ((state.line lane).stage j).held := by
    rw [State.line, Lane.stage_eq place]
    exact List.mem_append_left _ (by simp [Traffic.pipe, Proxy.traffic, sent])
  exact ⟨Line.mem_flow (Lane.place_le place) held,
    fun inner => chained.sound.upstream j inner pmsg held⟩

/-- Without the master flag, the only request in flight is a read at the tail. -/
theorem Chained.reading (chained : Chained state lane) {j : Nat}
    (place : lane.backend[j]? = some link) {pmsg : Buffer} {rest : List Buffer}
    (sent : (state.proxy.links link).omsgQ = pmsg :: rest)
    (head : lane.backend.head? = some master)
    (fwd : (state.proxy.links master).fwdToReplicas = false) :
    lane.backend.getLast? = some link ∧ (state.proxy.links link).tail = true ∧
      (state.line lane).flow = [pmsg] := by
  obtain ⟨inFlow, isSet⟩ := chained.sent place sent
  cases chained.steered with
  | idle empty =>
      rw [empty] at inFlow
      cases inFlow
  | writing otherHead flag =>
      rw [head] at otherHead
      cases otherHead
      change (state.proxy.links _).fwdToReplicas = true at flag
      rw [fwd] at flag
      cases flag
  | reading last flag alone isRead =>
      rw [alone, List.mem_singleton] at inFlow
      subst inFlow
      have atEnd : ¬j < (state.line lane).last := by
        intro inner
        rw [isSet inner] at isRead
        cases isRead
      obtain ⟨bound, _⟩ := List.getElem?_eq_some_iff.mp place
      have position : j = lane.backend.length - 1 := by
        have small : j ≤ lane.backend.length - 1 := Nat.le_sub_one_of_lt bound
        change ¬j < lane.backend.length - 1 at atEnd
        omega
      rw [List.getLast?_eq_getElem?, ← position, place] at last
      cases last
      refine ⟨?_, flag, alone⟩
      rw [List.getLast?_eq_getElem?, ← position, place]

/-- While the master waits for an answer, its flag sends requests along the chain. -/
theorem Chained.forwarding (chained : Chained state lane) {slaves : List LinkPtr}
    (backend : lane.backend = master :: slaves) (positive : 1 ≤ slaves.length)
    {pmsg : Buffer} {rest : List Buffer}
    (sent : (state.proxy.links master).omsgQ = pmsg :: rest) :
    (state.proxy.links master).fwdToReplicas = true := by
  by_contra flag
  have place : lane.backend[0]? = some master := by rw [backend]; rfl
  obtain ⟨last, _, _⟩ := chained.reading place sent (by rw [backend]; rfl) (by simpa using flag)
  -- the master is not the tail
  have nodup := lane.backend_nodup
  rw [backend] at last nodup
  have slave : master ∈ slaves := by
    cases slaves with
    | nil => simp at positive
    | cons first rest =>
        rw [List.getLast?_cons_cons] at last
        exact List.mem_of_getLast? last
  exact (List.nodup_cons.mp nodup).1 slave

/-- An answer of the tail is queued for the client. -/
private theorem Chained.finish (chained : Chained state lane)
    (last : lane.backend.getLast? = some link) {pmsg msg : Buffer} {rest : List Buffer}
    (sent : (state.proxy.links link).omsgQ = pmsg :: rest) {reply : Reply}
    {replies : List Reply} (arrived : (state.proxy.wire link).rsp = reply :: replies)
    (content : msg.content = .reply reply)
    (line : after.line lane = lane.line
      (((state.proxy.traffic.read link).pop link).push lane.client msg) state.servedOn)
    (steered : Steered after lane) :
    Chained after lane ∧ (state.line lane).Move Buffer.isSet (after.line lane) := by
  have move : (state.line lane).Move Buffer.isSet (after.line lane) := by
    rw [line]
    exact Lane.move_finish last sent arrived content
  refine ⟨⟨chained.sound.move move, ?_, steered⟩, move⟩
  change ∀ req ∈ (after.line lane).input, _
  rw [line]
  exact chained.marked

/-- A write is handed to the next datalet. -/
private theorem Chained.hand (chained : Chained state lane) {j : Nat} {next : LinkPtr}
    (place : lane.backend[j]? = some link) (placeNext : lane.backend[j + 1]? = some next)
    {pmsg : Buffer} {rest : List Buffer}
    (sent : (state.proxy.links link).omsgQ = pmsg :: rest) {reply : Reply}
    {replies : List Reply} (arrived : (state.proxy.wire link).rsp = reply :: replies)
    (line : after.line lane = lane.line
      (((state.proxy.traffic.read link).pop link).push next pmsg) state.servedOn)
    (flags : after.proxy.flags = state.proxy.flags) :
    Chained after lane ∧ (state.line lane).Move Buffer.isSet (after.line lane) := by
  have apart := Lane.client_ne placeNext
  have move : (state.line lane).Move Buffer.isSet (after.line lane) := by
    rw [line]
    exact Lane.move_hand place placeNext sent arrived
  refine ⟨chained.of_advances (.moves move (by rw [line]; rfl) ?_) fun ptr _ =>
    congrFun flags ptr, move⟩
  rw [line]
  simp [State.line, Lane.replies, apart]

section Replies

variable (chained : Chained state lane) (of : lane.Of session) (chain : cfg.IsChain)
variable (sane : Sane cfg state sessions) (member : session ∈ sessions)
variable (links : ChainLinks cfg state.proxy session master)
variable {reply : Reply} {replies : List Reply}
variable (arrived : (state.proxy.wire link).rsp = reply :: replies)
include chained of chain sane member links arrived

/-- `rsp_recv` on the master link. -/
private theorem Chained.serverReply {ctx : Ctx} (isMaster : link = master)
    (handled : Ctx.ServerReply cfg
      { state.toCtx with proxy := State.takeReply state.proxy link } link
      (State.answer reply) ctx) :
    Chained (state.withCtx ctx) lane ∧
      (state.line lane).Move Buffer.isSet ((state.withCtx ctx).line lane) := by
  subst isMaster
  have backend : lane.backend = link :: session.slaves := of.backend.trans links.backend
  have place : lane.backend[0]? = some link := by rw [backend]; rfl
  cases handled with
  | chain strong fwd found sent moved services =>
      obtain ⟨first, firstPlace⟩ : ∃ first, session.slaves[0]? = some first :=
        ⟨_, List.getElem?_eq_getElem links.positive⟩
      have number := sane.wired.getSlaveNumber_eq chain.indexesSlaves member links.server
        firstPlace
      have same := found.symm.trans number
      cases same
      refine chained.hand place (by rw [backend]; exact firstPlace) sent arrived ?_ moved.flags
      exact State.line_eq lane moved.traffic moved.shape rfl
  | direct notChain unlocked sent owner moved services =>
      exact absurd ⟨chain.msStrongCr, chained.forwarding backend links.positive sent⟩ notChain
  | unlock locked =>
      rw [chain.aaStrong] at locked
      cases locked

/-- `replica_rsp_recv` on a slave link. -/
private theorem Chained.replicaReply {proxy : Proxy} {j : Nat}
    (slave : session.slaves[j]? = some link)
    (owned : ∀ {pmsg : Buffer} {rest : List Buffer},
      (state.proxy.links link).omsgQ = pmsg :: rest → pmsg.owner = some lane.client)
    (handled : Proxy.ReplicaReply cfg (State.takeReply state.proxy link) link master
      (State.answer reply) proxy) :
    Chained (state.withProxy proxy) lane ∧
      (state.line lane).Move Buffer.isSet ((state.withProxy proxy).line lane) := by
  have backend : lane.backend = master :: session.slaves := of.backend.trans links.backend
  have head : lane.backend.head? = some master := by rw [backend]; rfl
  have place : lane.backend[j + 1]? = some link := by
    rw [backend]
    exact slave
  have number : (state.proxy.links link).slaveNumber = j := (links.slaveFunc j link slave).2
  have count := links.count
  obtain ⟨bound, _⟩ := List.getElem?_eq_some_iff.mp slave
  cases handled with
  | next strong fwd inner found sent moved =>
      change (state.proxy.links link).slaveNumber < _ at inner
      rw [number] at inner
      obtain ⟨next, nextPlace⟩ : ∃ next, session.slaves[j + 1]? = some next :=
        ⟨_, List.getElem?_eq_getElem (by omega)⟩
      have expected := sane.wired.getSlaveNumber_eq chain.indexesSlaves member links.server
        nextPlace
      change state.proxy.getSlaveNumber master ((state.proxy.links link).slaveNumber + 1) = _
        at found
      rw [number] at found
      have same := found.symm.trans expected
      cases same
      refine chained.hand place (by rw [backend]; exact nextPlace) sent arrived ?_ moved.flags
      exact State.line_eq lane moved.traffic moved.shape rfl
  | last strong fwd outer sent owner moved =>
      change ¬(state.proxy.links link).slaveNumber < _ at outer
      rw [number] at outer
      have last : lane.backend.getLast? = some link := by
        rw [List.getLast?_eq_getElem?, backend, List.length_cons, Nat.add_sub_cancel,
          show session.slaves.length = j + 1 by omega]
        exact slave
      rw [owned sent] at owner
      cases owner
      refine chained.finish last sent arrived rfl
        (State.line_eq lane moved.traffic moved.shape rfl) (.writing head ?_)
      exact (congrArg Flags.fwdToReplicas (congrFun moved.flags master)).trans fwd
  | read strong fwd tail sent owner traffic shape flags =>
      obtain ⟨last, _, alone⟩ := chained.reading place sent head fwd
      rw [owned sent] at owner
      cases owner
      have line : (state.withProxy proxy).line lane = _ := State.line_eq lane traffic shape rfl
      refine chained.finish last sent arrived rfl line (.idle ?_)
      have move : (state.line lane).Move Buffer.isSet ((state.withProxy proxy).line lane) := by
        rw [line]
        exact Lane.move_finish last sent arrived rfl
      obtain ⟨oldest, flow⟩ := move.flow_finish (y := .reply reply) (by
        rw [line]
        simp [State.line, Lane.replies, State.answer])
      rw [alone] at flow
      exact (List.cons.inj flow).2.symm
  | dropped unused moved =>
      have ordered := chained.sound.ordered (j + 1) (Lane.place_le place)
      rw [State.line, Lane.stage_eq place] at ordered
      have busy := ordered.sent_of_rsp (by simp [Traffic.pipe, Proxy.traffic, arrived])
      obtain ⟨pmsg, rest, sent⟩ := List.exists_cons_of_ne_nil busy
      rcases unused with notChain | ⟨fwd, tail⟩
      · rw [chain.msStrongCr] at notChain
        cases notChain
      · obtain ⟨_, flag, _⟩ := chained.reading place sent head fwd
        change (state.proxy.links link).tail = false at tail
        rw [flag] at tail
        cases tail

end Replies

/-- An answer that arrives on a healthy link moves its request on. -/
theorem Chained.response (chained : Chained state lane) (of : lane.Of session)
    (chain : cfg.IsChain) (sane : Sane cfg state sessions) (member : session ∈ sessions)
    (inside : link ∈ session.links)
    (moved : state.step cfg (.response link) = .ok after) :
    Chained after lane ∧ ((state.proxy.links link).error = false →
      (state.line lane).Move Buffer.isSet (after.line lane)) := by
  obtain ⟨reply, replies, arrived, responded⟩ := State.recvResponse_cases moved
  obtain ⟨master, links⟩ := sane.chainLinks chain member
  have backend := sane.response_backend member inside moved
  have split := backend
  rw [links.backend] at split
  cases responded with
  | ignored error same =>
      refine ⟨same ▸ chained, fun healthy => ?_⟩
      rw [error] at healthy
      cases healthy
  | server healthy isServer handled same =>
      subst same
      rcases List.mem_cons.mp split with isMaster | slave
      · have moves := chained.serverReply of chain sane member links arrived isMaster handled
        exact ⟨moves.1, fun _ => moves.2⟩
      · obtain ⟨j, place⟩ := List.getElem?_of_mem slave
        rw [(links.slaveFunc j link place).1] at isServer
        cases isServer
  | replica healthy isReplica found handled same =>
      subst same
      rcases List.mem_cons.mp split with isMaster | slave
      · rw [isMaster, links.masterFunc] at isReplica
        cases isReplica
      · obtain ⟨j, place⟩ := List.getElem?_of_mem slave
        have server := sane.wired.server_of_getMasterOfSlave member inside found
        rw [links.server] at server
        cases server
        have moves := chained.replicaReply of chain sane member links arrived place (by
          intro pmsg rest sent
          rw [of.client]
          exact sane.sent_owner member backend sent) handled
        exact ⟨moves.1, fun _ => moves.2⟩

/-! ## Requests -/

/-- Reads arrive only when every earlier request of the client has been answered; any
number of writes may follow in the same read. -/
def Disciplined (proxy : Proxy) (client : LinkPtr) : List Frame → Prop
  | [] => True
  | frame :: rest =>
      (frame.cmd ≠ .set → (proxy.received client).length ≤
        (proxy.delivered client).length + (proxy.links client).imsgQ.length) ∧
      ∀ later ∈ rest, later.cmd = .set

instance (proxy : Proxy) (client : LinkPtr) : DecidablePred (Disciplined proxy client) :=
  fun frames =>
    match frames with
    | [] => isTrue trivial
    | _ :: _ => inferInstanceAs (Decidable (_ ∧ _))

/-- A line with as many answers as requests holds nothing. -/
theorem Chained.flow_nil (chained : Chained state lane)
    (answered : (state.proxy.received lane.client).length ≤
      (state.proxy.delivered lane.client).length +
        (state.proxy.links lane.client).imsgQ.length) : (state.line lane).flow = [] := by
  have input := congrArg List.length chained.sound.input
  have output := congrArg List.length chained.sound.output
  simp only [List.length_append, List.length_map] at input output
  have received : (state.line lane).input.length =
      (state.proxy.received lane.client).length := rfl
  have replied : (state.line lane).output.length =
      (state.proxy.delivered lane.client).length +
        (state.proxy.links lane.client).imsgQ.length := by
    simp [State.line, Lane.replies, Proxy.traffic]
  exact List.length_eq_zero_iff.mp (by omega)

/-- The slave link with the number `replicas - 1` is the end of the chain. -/
theorem ChainLinks.last {tail : LinkPtr} (links : ChainLinks cfg state.proxy session master)
    (of : lane.Of session) (chain : cfg.IsChain) (sane : Sane cfg state sessions)
    (member : session ∈ sessions)
    (found : state.proxy.getSlaveNumber master (cfg.replicas - 1) = .ok (some tail)) :
    lane.backend.getLast? = some tail := by
  have count := links.count
  obtain ⟨n, size⟩ : ∃ n, session.slaves.length = n + 1 :=
    Nat.exists_eq_add_of_le' links.positive
  obtain ⟨slave, place⟩ : ∃ slave, session.slaves[n]? = some slave :=
    ⟨_, List.getElem?_eq_getElem (by omega)⟩
  have number := sane.wired.getSlaveNumber_eq chain.indexesSlaves member links.server place
  rw [show (n : Int) = cfg.replicas - 1 by omega] at number
  cases found.symm.trans number
  rw [List.getLast?_eq_getElem?, of.backend, links.backend, List.length_cons, size,
    Nat.add_sub_cancel]
  exact place

/-- One frame of a read: writes enter the chain at the master, a read enters at the
tail. -/
theorem Chained.segment {ctx next : Ctx} {frame : Frame} {rest : List Frame}
    {freed : Nat → Key → Key} {continues : Bool} (chained : Chained (state.withCtx ctx) lane)
    (of : lane.Of session) (chain : cfg.IsChain)
    (sane : Sane cfg (state.withCtx ctx) sessions) (member : session ∈ sessions)
    (alone : frame.cmd ≠ .set → ((state.withCtx ctx).line lane).flow = [])
    (handled : ctx.reqSegment cfg session.client frame rest freed = .ok (continues, next)) :
    continues = true ∧ Chained (state.withCtx next) lane := by
  obtain ⟨mapped, out, server, assigned, route, steers, moved, refused, _⟩ :=
    Ctx.reqSegment_effect handled
  obtain ⟨master, links⟩ := sane.chainLinks chain member
  have backend : lane.backend = master :: session.slaves := of.backend.trans links.backend
  have granted : continues = true := by
    by_contra stopped
    have technique := (refused (by simpa using stopped)).2
    rw [chain.technique] at technique
    cases technique
  subst granted
  refine ⟨rfl, ?_⟩
  have isServer : server = master := by
    have info := congrArg LinkInfo.dataletConn (sane.client_info member)
    have same := assigned.symm.trans (info.trans links.server)
    exact Option.some.inj same
  subst isServer
  rw [← of.client] at moved
  generalize request : Ctx.segment mapped lane.client out frame = req at moved
  have isSet : req.isSet = decide (frame.cmd = .set) := by rw [← request]; rfl
  have fwd : req.fwdToReplicas = (mapped.flags out).fwdToReplicas := by rw [← request]; rfl
  have traffic : next.proxy.traffic =
      (ctx.proxy.traffic.receive lane.client req).push out req := by
    rw [moved.traffic]
    simp [Ctx.forwarded, chain.fansOutBefore, chain.fansOutAfter, Traffic.fan]
  have line : (state.withCtx next).line lane = lane.line
      ((ctx.proxy.traffic.receive lane.client req).push out req)
      (state.withCtx ctx).servedOn :=
    State.line_eq lane traffic (moved.shape.trans steers.shape) rfl
  have marked : req.fwdToReplicas = req.isSet →
      ∀ old ∈ (state.withCtx next).proxy.traffic.received lane.client,
        old.fwdToReplicas = old.isSet := by
    intro new old member
    change old ∈ next.proxy.traffic.received lane.client at member
    rw [traffic] at member
    simp only [Traffic.push_received, Traffic.receive_received, Function.update_self,
      List.mem_append, List.mem_singleton] at member
    rcases member with earlier | rfl
    · exact chained.marked old earlier
    · exact new
  cases route with
  | locked active =>
      rw [chain.aaStrong] at active
      cases active
  | write passive set flag =>
      have carried : req.isSet = true := by simp [isSet, set]
      have move : ((state.withCtx ctx).line lane).Move Buffer.isSet
          ((state.withCtx next).line lane) := by
        rw [line]
        exact Lane.move_enter (by rw [backend]; rfl) carried
      refine ⟨chained.sound.move move, marked (by rw [fwd, flag, carried]), ?_⟩
      exact .writing (by rw [backend]; rfl)
        ((congrArg Flags.fwdToReplicas (congrFun moved.flags _)).trans flag)
  | tailRead passive notSet strong found flag tailFwd isTail =>
      have notCarried : req.isSet = false := by simp [isSet, notSet]
      have last := links.last of chain sane member found
      have empty := alone notSet
      have move : ((state.withCtx ctx).line lane).Move Buffer.isSet
          ((state.withCtx next).line lane) := by
        rw [line]
        exact Lane.move_enterLast last empty fun _ => notCarried
      refine ⟨chained.sound.move move, marked (by rw [fwd, tailFwd, notCarried]), ?_⟩
      refine .reading last
        ((congrArg Flags.tail (congrFun moved.flags out)).trans isTail) ?_ notCarried
      have flow := move.flow_enter (x := req) (by
        rw [line]
        simp [State.line, State.withCtx])
      rw [flow, empty]
      rfl
  | read passive notSet notChain =>
      rw [chain.msStrongCr] at notChain
      cases notChain

/-- Everything `req_recv` does with one read of a disciplined client. -/
theorem Chained.request {frames : List Frame} {freed : Nat → Key → Key}
    (chained : Chained state lane) (of : lane.Of session) (chain : cfg.IsChain)
    (sane : Sane cfg state sessions) (member : session ∈ sessions)
    (disciplined : Disciplined state.proxy session.client frames)
    (moved : state.step cfg (.request session.client (some frames) freed) = .ok after) :
    Chained after lane := by
  have whole := sane.request_induction
    (P := fun state frames => Chained state lane ∧
      (∀ frame ∈ frames.tail, frame.cmd = .set) ∧
      ∀ frame, frames.head? = some frame → frame.cmd ≠ .set → (state.line lane).flow = [])
    member ?_ ?_ moved
  · obtain ⟨_, kept, _⟩ := whole
    exact kept
  · refine ⟨chained, ?_, ?_⟩
    · cases frames with
      | nil => simp
      | cons frame rest => exact disciplined.2
    · cases frames with
      | nil => simp
      | cons frame rest =>
          intro first isFirst notSet
          cases isFirst
          refine chained.flow_nil ?_
          rw [of.client]
          exact disciplined.1 notSet
  · rintro ctx frame rest continues later saneCtx ⟨holds, writes, alone⟩ segment
    obtain ⟨rfl, kept⟩ := holds.segment of chain saneCtx member (alone frame rfl) segment
    refine ⟨kept, ?_, ?_⟩
    · exact fun frame member => writes frame (List.mem_of_mem_tail member)
    · intro first isFirst notSet
      exact absurd (writes first (List.mem_of_mem_head? isFirst)) notSet

/-! ## Runs -/

/-- No link fails, and the clients singled out by `watched` send reads only when all
their requests have been answered. -/
def ChainGuard (watched : LinkPtr → Prop) (state : State engine) (event : Event) : Prop :=
  event.Clean ∧ event.Sends fun client frames =>
    watched client → Disciplined state.proxy client frames

instance (watched : LinkPtr → Prop) [DecidablePred watched] (state : State engine) :
    DecidablePred (ChainGuard watched state) := fun _ => inferInstanceAs (Decidable (_ ∧ _))

theorem Sane.exists_lane (sane : Sane cfg state sessions) (chain : cfg.IsChain)
    (member : session ∈ sessions) : ∃ lane : Lane, lane.Of session := by
  obtain ⟨master, links⟩ := sane.chainLinks chain member
  have nonempty : session.backend ≠ [] := by
    rw [links.backend]
    exact List.cons_ne_nil _ _
  exact ⟨⟨session.client, session.backend, nonempty, sane.wired.links_nodup member⟩, rfl, rfl⟩

/-- Every reachable state of a chain is made of sessions, and those of watched clients
are lines in order. -/
theorem chained_of_run (watched : LinkPtr → Prop) {guard : State engine → Event → Prop}
    (chain : cfg.IsChain)
    (strict : ∀ state event, guard state event → ChainGuard watched state event)
    (run : Transition.Runs (State.step cfg) guard (State.init engine) state) :
    ∃ sessions, Sane cfg state sessions ∧ ∀ session ∈ sessions, watched session.client →
      ∀ lane : Lane, lane.Of session → Chained state lane := by
  refine Sane.invariant
    (P := fun session state => watched session.client → ∀ lane : Lane, lane.Of session →
      Chained state lane)
    ?_ ?_ ?_ run
  · intro state sessions session _ _ newborn _ lane of
    exact newborn.chained of
  · intro before after session untouched holds isWatched lane of
    exact untouched.chained of (holds isWatched lane of)
  · intro state sessions session event after link sane member concerns inside admitted moved
      holds isWatched lane of
    have chained := holds isWatched lane of
    obtain ⟨clean, disciplined⟩ := strict state event admitted
    cases event with
    | accept uninit => cases concerns
    | request client msg freed =>
        cases concerns
        cases msg with
        | none => exact clean.elim
        | some frames =>
            obtain rfl := sane.request_client member inside moved
            exact chained.request of chain sane member (disciplined isWatched) moved
    | response link =>
        cases concerns
        exact (chained.response of chain sane member inside moved).1
    | writable link written =>
        cases concerns
        cases written with
        | false => exact clean.elim
        | true => exact chained.writable of sane member inside moved
    | serve link =>
        cases concerns
        exact (chained.serve of sane member inside moved).1

end Chained

end BespoKV
