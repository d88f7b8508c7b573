import BespoKV.Chain.Invariant
import BespoKV.Proxy.Histories

/-!
# Update propagation along the chain

What the datalets of a chain have applied for one client, read off their histories:
the line of the client makes them prefixes of one another.
-/

namespace BespoKV

open Pipes

variable {engine : Engine} {cfg : Config} {state : State engine} {sessions : List Session}
variable {session : Session} {lane : Lane}

/-! ## Datalets along the lane -/

theorem Config.chain_nodup (cfg : Config) : cfg.chain.Nodup := by
  have rows := cfg.dumbMap.nodup
  have part : ∀ role, (cfg.addrs role).Nodup := fun role =>
    (List.filter_sublist.map DumbNode.addr).nodup rows
  refine List.nodup_append.mpr ⟨part .master, part .slave, ?_⟩
  intro addr asMaster other asSlave same
  subst same
  obtain ⟨row, rowIn, rowAddr⟩ := List.mem_map.mp asMaster
  obtain ⟨slave, slaveIn, slaveAddr⟩ := List.mem_map.mp asSlave
  simp only [List.mem_filter, decide_eq_true_eq] at rowIn slaveIn
  have same := List.inj_on_of_nodup_map rows rowIn.1 slaveIn.1
    (rowAddr.trans slaveAddr.symm)
  have role := rowIn.2
  rw [same, slaveIn.2] at role
  cases role

/-- The `j`-th link of a session leads to the `j`-th datalet of the chain. -/
theorem Sane.peer_chain (sane : Sane cfg state sessions) (chain : cfg.IsChain)
    (member : session ∈ sessions) {j : Nat} {ptr : LinkPtr}
    (place : session.backend[j]? = some ptr) :
    (state.proxy.links ptr).peer = cfg.chain[j]? ∧ cfg.chain[j]?.isSome := by
  have established := sane.wired.established session member
  obtain ⟨master, links⟩ := sane.chainLinks chain member
  obtain ⟨addr, masters⟩ := List.length_eq_one_iff.mp chain.master
  rw [links.backend] at place
  cases j with
  | zero =>
      cases place
      obtain ⟨found, listed, info⟩ := established.server _ links.server
      rw [chain.serverAddrs, masters] at listed
      cases listed
      have peer : (state.proxy.links ptr).peer = some addr :=
        (congrArg LinkInfo.peer info).trans rfl
      simp [Config.chain, masters, peer]
  | succ j =>
      obtain ⟨slave, listed, info⟩ := established.slave j ptr place
      rw [chain.slaveAddrs] at listed
      have peer : (state.proxy.links ptr).peer = some slave :=
        (congrArg LinkInfo.peer info).trans rfl
      simp [Config.chain, masters, peer, listed]

theorem Sane.backend_length (sane : Sane cfg state sessions) (chain : cfg.IsChain)
    (member : session ∈ sessions) : session.backend.length = cfg.chain.length := by
  obtain ⟨master, links⟩ := sane.chainLinks chain member
  have count := links.count
  rw [chain.replicas] at count
  rw [links.backend, Config.chain, List.length_append, chain.master, List.length_cons]
  omega

/-- What a datalet of the chain answered to a client is what its stage of the client's
line has served. -/
theorem Sane.answers_stage (sane : Sane cfg state sessions) (chain : cfg.IsChain)
    (isLocal : ∀ addr, ∀ entry ∈ (state.datalets addr).log,
      ∃ ptr, entry.conn = state.connOf ptr)
    (member : session ∈ sessions) (of : lane.Of session) {j : Nat} {addr : AddrType}
    (datalet : cfg.chain[j]? = some addr) :
    j ≤ (state.line lane).last ∧
      state.answers addr session.client = ((state.line lane).stage j).served := by
  have size := sane.backend_length chain member
  obtain ⟨bound, _⟩ := List.getElem?_eq_some_iff.mp datalet
  rw [← size] at bound
  obtain ⟨ptr, place⟩ : ∃ ptr, session.backend[j]? = some ptr :=
    ⟨_, List.getElem?_eq_getElem bound⟩
  rw [sane.answers_link isLocal member (List.mem_of_getElem? place)
    ((sane.peer_chain chain member place).1.trans datalet)]
  rw [← of.backend] at bound place
  refine ⟨Nat.le_sub_one_of_lt bound, ?_⟩
  rw [State.line, Lane.stage_eq place]
  rfl

/-! ## The place of every request -/

/-- The requests of a client that wait in the queues of its datalet links, oldest
first: from the tail back to the master. -/
def State.inFlight (state : State engine) (client : LinkPtr) : List Buffer :=
  (state.proxy.sessionOf client).backend.reverse.flatMap fun ptr =>
    (state.proxy.links ptr).omsgQ ++ (state.proxy.links ptr).imsgQ

theorem below_lane (state : State engine) (lane : Lane) (n : Nat) :
    below (state.line lane).stage n =
      (lane.backend.take n).reverse.flatMap fun ptr =>
        (state.proxy.links ptr).omsgQ ++ (state.proxy.links ptr).imsgQ := by
  induction n with
  | zero => rfl
  | succ n ih =>
      rw [below, ih, State.line, Lane.line_stage, List.take_add_one]
      cases lane.backend[n]? with
      | none => simp
      | some ptr => simp [Pipe.held, Traffic.pipe, Proxy.traffic]

/-- The flow of a client's line is what its queues hold. -/
theorem Sane.flow_eq (sane : Sane cfg state sessions) (chain : cfg.IsChain)
    (member : session ∈ sessions) (of : lane.Of session) :
    (state.line lane).flow = state.inFlight session.client := by
  obtain ⟨master, links⟩ := sane.chainLinks chain member
  have session := sane.sessionOf_eq chain.indexesSlaves member links.server
  rw [Line.flow, below_lane, State.inFlight, session, ← of.backend]
  rw [List.take_of_length_le]
  exact Nat.le_add_of_sub_le (Nat.le_refl _)

/-- The last stage of a client's line is the tail of the chain. -/
theorem Sane.tail_place (sane : Sane cfg state sessions) (chain : cfg.IsChain)
    (member : session ∈ sessions) (of : lane.Of session) :
    cfg.chain.getLast? = cfg.chain[(state.line lane).last]? := by
  rw [List.getLast?_eq_getElem?, ← sane.backend_length chain member, ← of.backend]
  rfl

/-- How the writes of one client spread along the chain. -/
structure Propagation (cfg : Config) (state : State engine) (client : LinkPtr) : Prop where
  /-- a datalet has applied a prefix of what its predecessor has applied -/
  successor : ∀ (i : Nat) (before after : AddrType), cfg.chain[i]? = some before →
    cfg.chain[i + 1]? = some after →
    state.applied after client <+: state.applied before client
  /-- the master has applied a prefix of what was received -/
  master : ∀ addr, cfg.chain.head? = some addr →
    state.applied addr client <+: state.proxy.received client
  /-- every request is acknowledged or in the queues of one link -/
  place : state.proxy.received client = state.acknowledged client ++ state.inFlight client
  /-- no request is in two places -/
  once : (state.proxy.received client).Nodup
  /-- a sent request is on its way to the datalet or its answer is on its way back -/
  channel : ∀ ptr ∈ (state.proxy.sessionOf client).backend, ∃ answered,
    (state.proxy.links ptr).omsgQ = answered ++ (state.proxy.wire ptr).req ∧
      answered.length = (state.proxy.wire ptr).rsp.length
  /-- what was acknowledged has been applied at the tail -/
  tail : ∀ addr, cfg.chain.getLast? = some addr →
    state.acknowledged client <+: state.applied addr client

/-- The client sends writes only. -/
def Event.WritesOnly (client : LinkPtr) (event : Event) : Prop :=
  event.Sends fun source frames => source = client → ∀ frame ∈ frames, frame.cmd = .set

instance (client : LinkPtr) : DecidablePred (Event.WritesOnly client) := fun event =>
  inferInstanceAs (Decidable (event.Sends _))

theorem Disciplined.of_writes {proxy : Proxy} {client : LinkPtr} {frames : List Frame}
    (writes : ∀ frame ∈ frames, frame.cmd = .set) : Disciplined proxy client frames := by
  cases frames with
  | nil => trivial
  | cons frame rest =>
      refine ⟨fun notSet => absurd (writes frame List.mem_cons_self) notSet, ?_⟩
      exact fun later member => writes later (List.mem_cons_of_mem _ member)

/-- Acknowledged requests are those whose answers the tail link has given up. -/
theorem Chained.acknowledged (chained : Chained state lane) (of : lane.Of session) :
    state.acknowledged session.client =
      ((state.line lane).stage (state.line lane).last).answered.map Prod.fst := by
  rw [chained.sound.answered_eq_take, State.acknowledged, ← of.client]
  rfl

/-- A write that the tail has served has been applied by every datalet of the chain. -/
theorem Chained.served_everywhere (chained : Chained state lane) (of : lane.Of session)
    (chain : cfg.IsChain) (sane : Sane cfg state sessions) (member : session ∈ sessions)
    (isLocal : ∀ addr, ∀ entry ∈ (state.datalets addr).log,
      ∃ ptr, entry.conn = state.connOf ptr)
    {req : Buffer}
    (served : req ∈ ((state.line lane).stage (state.line lane).last).served.map Prod.fst)
    (isSet : req.isSet = true) {addr : AddrType} (datalet : addr ∈ cfg.chain) :
    req ∈ state.applied addr session.client := by
  obtain ⟨j, place⟩ := List.getElem?_of_mem datalet
  obtain ⟨small, answers⟩ := sane.answers_stage chain isLocal member of place
  have here := (chained.sound.served_last small).subset (List.mem_filter.mpr ⟨served, isSet⟩)
  rw [State.applied, answers]
  exact List.mem_of_mem_filter here

/-- An acknowledged write has been applied by every datalet of the chain. -/
theorem Chained.applied_everywhere (chained : Chained state lane) (of : lane.Of session)
    (chain : cfg.IsChain) (sane : Sane cfg state sessions) (member : session ∈ sessions)
    (isLocal : ∀ addr, ∀ entry ∈ (state.datalets addr).log,
      ∃ ptr, entry.conn = state.connOf ptr)
    {req : Buffer} (acknowledged : req ∈ state.acknowledged session.client)
    (isSet : req.isSet = true) {addr : AddrType} (datalet : addr ∈ cfg.chain) :
    req ∈ state.applied addr session.client := by
  rw [chained.acknowledged of] at acknowledged
  have served := ((Line.answered_served _).map Prod.fst).subset acknowledged
  exact chained.served_everywhere of chain sane member isLocal served isSet datalet

/-- A line all of whose requests are writes propagates them. -/
theorem Chained.propagation (chained : Chained state lane) (of : lane.Of session)
    (chain : cfg.IsChain) (sane : Sane cfg state sessions) (member : session ∈ sessions)
    (isLocal : ∀ addr, ∀ entry ∈ (state.datalets addr).log,
      ∃ ptr, entry.conn = state.connOf ptr)
    (writes : ∀ req ∈ state.proxy.received session.client, req.isSet = true) :
    Propagation cfg state session.client := by
  have sound := chained.sound
  have input : (state.line lane).input = state.proxy.received session.client := by
    rw [← of.client]
    rfl
  have all : ∀ req ∈ (state.line lane).input, req.isSet = true := input ▸ writes
  have stage : ∀ {j : Nat} {addr : AddrType}, cfg.chain[j]? = some addr →
      j ≤ (state.line lane).last ∧ state.applied addr session.client =
        ((state.line lane).stage j).served.map Prod.fst := by
    intro j addr datalet
    obtain ⟨small, answers⟩ := sane.answers_stage chain isLocal member of datalet
    exact ⟨small, congrArg (List.map Prod.fst) answers⟩
  have acknowledged := chained.acknowledged of
  constructor
  · intro i before after first second
    obtain ⟨small, appliedBefore⟩ := stage first
    obtain ⟨inside, appliedAfter⟩ := stage second
    have succ := sound.served_succ inside
    rw [sound.served_carried all small, sound.served_carried all inside] at succ
    rwa [appliedBefore, appliedAfter]
  · intro addr head
    obtain ⟨small, applied⟩ := stage (List.head?_eq_getElem? ▸ head)
    have whole := sound.served_input small
    rw [sound.served_carried all small, List.filter_eq_self.mpr all, input] at whole
    rwa [applied]
  · rw [acknowledged, ← sane.flow_eq chain member of, ← input]
    exact sound.input
  · exact (sane.stamped session member).nodup
  · intro ptr backend
    obtain ⟨master, links⟩ := sane.chainLinks chain member
    rw [sane.sessionOf_eq chain.indexesSlaves member links.server] at backend
    obtain ⟨j, place⟩ := of.place backend
    obtain ⟨bound, _⟩ := List.getElem?_eq_some_iff.mp place
    have ordered := sound.ordered j (Nat.le_sub_one_of_lt bound)
    rw [State.line, Lane.stage_eq place] at ordered
    refine ⟨_, ordered.requests, ?_⟩
    have answers := congrArg List.length ordered.answers
    simpa [Proxy.traffic] using answers.symm
  · intro addr last
    obtain ⟨_, applied⟩ := stage ((sane.tail_place chain member of).symm.trans last)
    rw [applied, acknowledged]
    exact (Line.answered_served _).map Prod.fst

/-- **Update propagation.**  For a client that sends only writes, pipelined to any
depth, and whatever other clients do. -/
theorem update_propagation (chain : cfg.IsChain) {client : LinkPtr}
    (run : Transition.Runs (State.step cfg)
      (fun _ event => event.Clean ∧ event.WritesOnly client) (State.init engine) state)
    (connected : (state.proxy.links client).nwFunc = .request) :
    Propagation cfg state client := by
  obtain ⟨sessions, sane, holds⟩ := chained_of_run (· = client) chain
    (fun state event admitted => ⟨admitted.1, admitted.2.mono
      fun _ _ writes isClient => .of_writes (writes isClient)⟩) run
  obtain ⟨session, member, rfl⟩ := sane.wired.clients client connected
  obtain ⟨lane, of⟩ := sane.exists_lane chain member
  refine (holds session member rfl lane of).propagation of chain sane member
    (Sane.local_of_run run) fun req received => ?_
  obtain ⟨frame, content, isSet⟩ := Sane.received_frames (fun frame => frame.cmd = .set)
    (fun _ _ _ admitted => admitted.2 rfl) run req received
  simp [Buffer.isSet, Buffer.frame?, content, isSet]

/-- Two pipelined writes, one of them acknowledged and the other at the master. -/
def sampleWrites : List Event :=
  [.accept fun _ => ⟨false, false⟩,
    .request 0 (some [.set [7] [1], .set [7] [2]]) fun _ => id,
    .writable 2 true, .writable 2 true, .serve 2, .response 2,
    .writable 1 true, .serve 1, .response 1, .writable 3 true, .serve 3, .response 3,
    .serve 2]

theorem update_propagation_sample : ∃ state : State mapEngine,
    (state.acknowledged 0).length = 1 ∧ (state.inFlight 0).length = 1 ∧
      Propagation Config.sampleChain state 0 := by
  obtain ⟨state, run, post⟩ := Transition.Runs.exists_of_exec
    (State.step Config.sampleChain) (fun _ event => event.Clean ∧ event.WritesOnly 0)
    (State.init mapEngine) sampleWrites
    (fun state => (state.proxy.links 0).nwFunc = .request ∧
      (state.acknowledged 0).length = 1 ∧ (state.inFlight 0).length = 1) (by decide)
  simp only [decide_eq_true_eq] at post
  exact ⟨state, post.2.1, post.2.2, update_propagation Config.sampleChain_isChain run post.1⟩

end BespoKV
