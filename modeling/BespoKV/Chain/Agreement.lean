import BespoKV.Library.Overlap
import BespoKV.Chain.Linearizable

/-!
# Agreement of the replicas of a chain

Every client has its own connections to all datalets of the chain, so writes of
different clients may reach the datalets in different orders.  The datalets agree when
the chain is quiescent if writes to one key overlap only when they write the same
value; otherwise they may differ for good.
-/

namespace BespoKV

open Pipes

/-- All queues are empty and no message is in flight. -/
def Proxy.Quiescent (proxy : Proxy) : Prop :=
  ∀ ptr < proxy.next, (proxy.links ptr).imsgQ = [] ∧ (proxy.links ptr).omsgQ = [] ∧
    proxy.wire ptr = {}

instance (proxy : Proxy) : Decidable proxy.Quiescent :=
  inferInstanceAs (Decidable (∀ ptr < proxy.next, _))

/-- Nothing is on its way along the line of a client. -/
theorem Proxy.Quiescent.flow_eq_nil {engine : Engine} {cfg : Config} {state : State engine}
    {sessions : List Session} {session : Session} {lane : Lane} (quiet : state.proxy.Quiescent)
    (sane : Sane cfg state sessions) (chain : cfg.IsChain) (member : session ∈ sessions)
    (of : lane.Of session) : (state.line lane).flow = [] := by
  obtain ⟨master, links⟩ := sane.chainLinks chain member
  rw [sane.flow_eq chain member of, State.inFlight,
    sane.sessionOf_eq chain.indexesSlaves member links.server, List.flatMap_eq_nil_iff]
  intro ptr inside
  have small := (sane.wired.established session member).bounded ptr
    (Session.backend_mem (List.mem_reverse.mp inside))
  obtain ⟨input, output, _⟩ := quiet ptr small
  rw [input, output, List.append_nil]

/-- In a quiescent state the datalets of the chain hold the same contents. -/
def Agreement (cfg : Config) (state : State mapEngine) : Prop :=
  state.proxy.Quiescent → ∀ key, ∀ addr ∈ cfg.chain, ∀ other ∈ cfg.chain,
    (state.datalets addr).state key = (state.datalets other).state key

/-- A request writes another value to the key that the frame writes. -/
def Frame.Conflicts (frame : Frame) (req : Buffer) : Prop :=
  frame.cmd = .set ∧
    req.write?.any (fun write => write.1 = frame.key ∧ write.2 ≠ frame.value) = true

instance (frame : Frame) (req : Buffer) : Decidable (frame.Conflicts req) :=
  inferInstanceAs (Decidable (_ ∧ _))

/-- No earlier request that the tail has not served yet conflicts with a new one. -/
def Compatible (cfg : Config) (state : State mapEngine) (frames : List Frame) : Prop :=
  ∀ frame ∈ frames, ∀ tail ∈ cfg.chain.getLast?, ∀ client < state.proxy.next,
    ∀ req ∈ state.proxy.received client,
      req ∉ (state.datalets tail).log.map Served.req → ¬frame.Conflicts req

instance (cfg : Config) (state : State mapEngine) : DecidablePred (Compatible cfg state) :=
  fun frames => inferInstanceAs (Decidable (∀ frame ∈ frames, _))

/-- Every client has one outstanding request, and overlapping writes to a key write the
same value. -/
def WithoutConflict (cfg : Config) (state : State mapEngine) (event : Event) : Prop :=
  OneOutstanding state event ∧ event.Sends fun _ frames => Compatible cfg state frames

instance (cfg : Config) (state : State mapEngine) : DecidablePred (WithoutConflict cfg state) :=
  fun _ => inferInstanceAs (Decidable (_ ∧ _))

/-- The datalets of the chain as replicas. -/
def State.replicas (cfg : Config) (state : State mapEngine) :
    Overlap.Replicas { addr // addr ∈ cfg.chain } Buffer Key Value where
  received req := ∃ client, req ∈ state.proxy.received client
  applied addr req := req ∈ (state.datalets addr).log.map Served.req
  store addr := (state.datalets addr).state

variable {cfg : Config} {state after : State mapEngine}
variable {sessions : List Session} {session : Session} {lane : Lane} {link : LinkPtr}

theorem State.replicas_congr (received : after.proxy.received = state.proxy.received)
    (datalets : after.datalets = state.datalets) :
    after.replicas cfg = state.replicas cfg := by
  simp only [State.replicas, received, datalets]

/-! ## Steps as moves of the replicas -/

/-- The tail as one of the replicas. -/
def tailReplica {tail : AddrType} (last : cfg.chain.getLast? = some tail) :
    { addr // addr ∈ cfg.chain } := ⟨tail, List.mem_of_getLast? last⟩

section Moves

variable {tail : AddrType} (last : cfg.chain.getLast? = some tail)
variable (chained : Chained state lane) (of : lane.Of session) (chain : cfg.IsChain)
variable (sane : Sane cfg state sessions) (member : session ∈ sessions)
variable (isLocal : ∀ addr, ∀ entry ∈ (state.datalets addr).log,
  ∃ ptr, entry.conn = state.connOf ptr)
include chained of chain sane member isLocal

/-- A client's write arrives. -/
theorem Chained.receive_move {frame : Frame} {req : Buffer} {pid : Nat}
    (content : req.content = .frames [frame])
    (compatible : Compatible cfg state [frame])
    (stamped : session.Stamped pid after.proxy.traffic)
    (received : after.proxy.received = Function.update state.proxy.received session.client
      (state.proxy.received session.client ++ [req]))
    (datalets : after.datalets = state.datalets) :
    Overlap.Move Buffer.write? (tailReplica last) (state.replicas cfg) (after.replicas cfg) := by
  refine .receive req ?_ ?_ ?_ ?_ ?_
  · intro addr
    refine chained.new_unserved of chain sane member isLocal stamped ?_ addr.2
    rw [received, Function.update_self]
  · rintro key v w other writes ⟨⟨client, known⟩, unapplied, otherWrites⟩
    have isFrame : frame.cmd = .set ∧ frame.key = key ∧ frame.value = v := by
      simp only [Buffer.write?, Buffer.frame?, content] at writes
      split at writes
      next set =>
        cases writes
        exact ⟨set, rfl, rfl⟩
      · cases writes
    obtain ⟨set, rfl, rfl⟩ := isFrame
    have small : client < state.proxy.next := by
      by_contra large
      have nothing := (sane.quiet_beyond (Nat.le_of_not_lt large)).received
      change state.proxy.received client = [] at nothing
      rw [nothing] at known
      cases known
    have allowed := compatible frame (by simp) tail last client small other known unapplied
    by_contra different
    exact allowed ⟨set, by simp [otherWrites, different]⟩
  · intro x
    simp only [State.replicas, received]
    constructor
    · rintro ⟨client, arrived⟩
      by_cases here : client = session.client
      · subst here
        rw [Function.update_self, List.mem_append, List.mem_singleton] at arrived
        exact arrived.imp_left fun old => ⟨_, old⟩
      · rw [Function.update_of_ne here] at arrived
        exact .inl ⟨client, arrived⟩
    · rintro (⟨client, old⟩ | rfl)
      · by_cases here : client = session.client
        · subst here
          exact ⟨session.client, by simp [old]⟩
        · exact ⟨client, by rwa [Function.update_of_ne here]⟩
      · exact ⟨session.client, by simp⟩
  · simp only [State.replicas, datalets]
  · simp only [State.replicas, datalets]
    rfl

omit chain isLocal in
/-- A request on a connection is waiting at its stage. -/
theorem Chained.waiting {j : Nat} (place : lane.backend[j]? = some link) {req : Buffer}
    {rest : List Buffer} (waiting : (state.proxy.wire link).req = req :: rest) :
    req ∈ ((state.line lane).stage j).req ∧ req ∈ ((state.line lane).stage j).held ∧
      req ∈ state.proxy.received session.client ∧ req.owner = some session.client := by
  have wire : req ∈ ((state.line lane).stage j).req := by
    rw [State.line, Lane.stage_eq place]
    simp [Traffic.pipe, Proxy.traffic, waiting]
  have small : j ≤ (state.line lane).last := Lane.place_le place
  have held : req ∈ ((state.line lane).stage j).held := by
    rw [Pipe.held, (chained.sound.ordered j small).requests]
    simp [wire]
  obtain ⟨seq, stamp⟩ := chained.stamped of sane member small held
  refine ⟨wire, held, ?_, stamp.owner⟩
  rw [← of.client]
  exact chained.sound.mem_input small held

omit chained in
/-- A datalet has logged a request of the client exactly if its stage has served it. -/
theorem Sane.logged_iff {j : Nat} {addr : AddrType} (datalet : cfg.chain[j]? = some addr)
    {req : Buffer} (owner : req.owner = some session.client) :
    req ∈ (state.datalets addr).log.map Served.req ↔
      req ∈ ((state.line lane).stage j).served.map Prod.fst := by
  obtain ⟨_, answers⟩ := sane.answers_stage chain isLocal member of datalet
  rw [← answers]
  constructor
  · intro logged
    obtain ⟨entry, inLog, rfl⟩ := List.mem_map.mp logged
    refine List.mem_map.mpr ⟨(entry.req, .reply entry.reply), ?_, rfl⟩
    exact List.mem_map.mpr ⟨entry, List.mem_filter.mpr ⟨inLog, by simpa using owner⟩, rfl⟩
  · intro served
    obtain ⟨pair, answered, rfl⟩ := List.mem_map.mp served
    obtain ⟨entry, listed, rfl⟩ := List.mem_map.mp answered
    exact List.mem_map_of_mem (List.mem_of_mem_filter listed)

omit chain isLocal in
/-- A request on a connection has not been served on it. -/
theorem Chained.unserved {j : Nat} (place : lane.backend[j]? = some link) {req : Buffer}
    {rest : List Buffer} (waiting : (state.proxy.wire link).req = req :: rest) :
    req ∉ ((state.line lane).stage j).served.map Prod.fst := by
  intro served
  have nodup := (sane.stamped session member).nodup
  rw [← of.client] at nodup
  have small : j ≤ (state.line lane).last := Lane.place_le place
  have apart := (List.nodup_append.mp (chained.sound.served_nodup nodup small)).2.2
  obtain ⟨wire, _⟩ := chained.waiting of sane member place waiting
  exact apart req served req (List.mem_append_left _ wire) rfl

omit chained isLocal in
include last in
/-- Datalets other than the tail are inner stages of the line. -/
theorem Sane.inner_place {j : Nat} {addr : AddrType} (datalet : cfg.chain[j]? = some addr)
    (notTail : addr ≠ tail) : j < (state.line lane).last := by
  obtain ⟨bound, _⟩ := List.getElem?_eq_some_iff.mp datalet
  have length := sane.backend_length chain member
  rw [← of.backend] at length
  have small : j ≤ (state.line lane).last := Nat.le_sub_one_of_lt (length ▸ bound)
  refine Nat.lt_of_le_of_ne small fun isTop => notTail ?_
  rw [sane.tail_place chain member of, ← isTop, datalet] at last
  exact Option.some.inj last

/-- A datalet serves a request. -/
theorem Chained.serve_move {addr : AddrType} {req : Buffer} {frame : Frame}
    (inside : link ∈ session.backend) (handled : state.Handled link addr req frame after) :
    Overlap.Move Buffer.write? (tailReplica last) (state.replicas cfg) (after.replicas cfg) := by
  obtain ⟨j, place⟩ := of.place inside
  have datalet : cfg.chain[j]? = some addr := by
    have sessionPlace : session.backend[j]? = some link := of.backend ▸ place
    exact (sane.peer_chain chain member sessionPlace).1.symm.trans handled.peer
  obtain ⟨rest, wire⟩ := handled.waiting
  obtain ⟨_, held, known, owner⟩ := chained.waiting of sane member place wire
  have unserved := chained.unserved of sane member place wire
  have logged : ∀ {i : Nat} {place : AddrType}, cfg.chain[i]? = some place →
      (req ∈ (state.datalets place).log.map Served.req ↔
        req ∈ ((state.line lane).stage i).served.map Prod.fst) :=
    fun datalet => sane.logged_iff of chain member isLocal datalet owner
  have top : cfg.chain[(state.line lane).last]? = some tail :=
    (sane.tail_place chain member of).symm.trans last
  have sound := chained.sound
  have mem : addr ∈ cfg.chain := List.mem_of_getElem? datalet
  refine .apply ⟨addr, mem⟩ req ⟨session.client, known⟩ ?_ ?_ ?_ ?_ ?_ ?_
  · exact fun applied => unserved ((logged datalet).mp applied)
  · -- what the tail has served, every datalet before it has served
    intro notTail applied
    have inner := sane.inner_place last of chain member datalet
      fun isTail => notTail (Subtype.ext isTail)
    have isSet := sound.upstream j inner req held
    have here := (sound.served_last (Nat.le_of_lt inner)).subset
      (List.mem_filter.mpr ⟨(logged top).mp applied, isSet⟩)
    exact unserved (List.mem_of_mem_filter here)
  · rintro isTail pair writes ⟨other, otherMem⟩ notTail
    have isTop : j = (state.line lane).last := by
      have same : addr = tail := congrArg Subtype.val isTail
      obtain ⟨bound, _⟩ := List.getElem?_eq_some_iff.mp datalet
      exact (List.getElem?_inj bound cfg.chain_nodup).mp (by rw [datalet, top, same])
    obtain ⟨i, otherPlace⟩ := List.getElem?_of_mem otherMem
    have inner := sane.inner_place last of chain member otherPlace
      fun isTail => notTail (Subtype.ext isTail)
    have nodup := (sane.stamped session member).nodup
    rw [← of.client] at nodup
    exact (logged otherPlace).mpr
      (sound.served_before_last nodup (isTop ▸ held) (Buffer.isSet_of_write writes) inner)
  · have received := congrArg Traffic.received handled.moved.traffic
    change after.proxy.received = state.proxy.received at received
    simp only [State.replicas, received]
  · rintro ⟨place, placeMem⟩ x
    simp only [State.replicas, handled.datalets, Subtype.mk.injEq]
    by_cases here : place = addr
    · subst here
      simp [Datalet.handle]
    · simp [here]
  · funext place
    by_cases here : place = ⟨addr, mem⟩
    · subst here
      rw [Function.update_self]
      simp only [State.replicas, handled.datalets, Function.update_self, Datalet.handle]
      exact mapEngine_serve _ handled.framed
    · have different : place.1 ≠ addr := fun same => here (Subtype.ext same)
      rw [Function.update_of_ne here]
      simp only [State.replicas, handled.datalets, Function.update_of_ne different]
      rfl

end Moves

section Runs

variable {tail : AddrType} (last : cfg.chain.getLast? = some tail) (chain : cfg.IsChain)
variable (run : Transition.Runs (State.step cfg) (WithoutConflict cfg) (State.init mapEngine) state)
include chain run

/-- A step that adds to what was received, or changes a datalet, is a move. -/
theorem replicas_step {event : Event} (admitted : WithoutConflict cfg state event)
    (moved : state.step cfg event = .ok after) :
    after.replicas cfg = state.replicas cfg ∨
      Overlap.Move Buffer.write? (tailReplica last) (state.replicas cfg)
        (after.replicas cfg) := by
  have single := run.weaken fun _ _ admitted => admitted.1
  obtain ⟨sessions, sane, lines⟩ := chained_everywhere chain single
  have isLocal := Sane.local_of_run single
  by_cases arrival : ∃ client frames freed, event = .request client (some frames) freed
  · obtain ⟨client, frames, freed, rfl⟩ := arrival
    obtain ⟨new, received, contents⟩ := Sane.received_request moved
    have datalets := State.request_datalets moved
    have length : new.length ≤ 1 := by
      have short := contents.length_le
      rw [List.length_map, List.length_map] at short
      exact Nat.le_trans short admitted.1.2.1
    match new, length with
    | [], _ => exact .inl (State.replicas_congr (by simpa using received) datalets)
    | [req], _ =>
        obtain ⟨frame, rfl, content⟩ :
            ∃ frame, frames = [frame] ∧ req.content = .frames [frame] := by
          match frames, admitted.1.2.1 with
          | [], _ => simp at contents
          | [frame], _ => exact ⟨frame, rfl, by simpa using contents⟩
        obtain ⟨session, member, rfl, _⟩ := sane.request_within moved
        obtain ⟨lane, of, chained⟩ := lines session member
        obtain ⟨later, steps⟩ := sane.step moved
        have stamped := steps.sane.stamped session (steps.kept session member)
        exact .inr (chained.receive_move last of chain sane member isLocal content admitted.2
          stamped received datalets)
  · have received : after.proxy.received = state.proxy.received := by
      funext client
      refine sane.received_step moved fun frames freed isRequest => ?_
      exact arrival ⟨client, frames, freed, isRequest⟩
    rcases State.step_served moved with same | ⟨link, addr, req, frame, handled⟩
    · exact .inl (State.replicas_congr received same)
    · obtain ⟨session, member, inside⟩ := sane.backend_of_handled handled
      obtain ⟨lane, of, chained⟩ := lines session member
      exact .inr (chained.serve_move last of chain sane member isLocal inside handled)

/-- The datalets agree up to writes that the tail has not served. -/
theorem agreeing_of_run :
    Overlap.Agreeing Buffer.write? (tailReplica last) (state.replicas cfg) := by
  refine run.induction
    (fun _ state => Overlap.Agreeing Buffer.write? (tailReplica last) (state.replicas cfg))
    ?_ ?_
  · refine .of_empty ?_ fun _ _ => rfl
    rintro req ⟨client, arrived⟩
    cases arrived
  · intro middle event after before agreeing admitted moved
    rcases replicas_step last chain before admitted moved with same | move
    · rw [same]
      exact agreeing
    · exact agreeing.move move

/-- When all queues and connections are empty, the tail has served all requests. -/
theorem settled_of_quiescent (quiet : state.proxy.Quiescent) (req : Buffer)
    (known : (state.replicas cfg).received req) :
    (state.replicas cfg).applied (tailReplica last) req := by
  have single := run.weaken fun _ _ admitted => admitted.1
  obtain ⟨sessions, sane, lines⟩ := chained_everywhere chain single
  have isLocal := Sane.local_of_run single
  obtain ⟨client, arrived⟩ := known
  obtain ⟨session, member, rfl⟩ := sane.client_of_received arrived
  obtain ⟨lane, of, chained⟩ := lines session member
  have idle := quiet.flow_eq_nil sane chain member of
  have answered : req ∈ (state.line lane).input := by
    rw [← of.client] at arrived
    exact arrived
  rw [chained.sound.input, idle, List.append_nil] at answered
  have served := ((Line.answered_served _).map Prod.fst).subset answered
  obtain ⟨seq, place⟩ := List.getElem?_of_mem arrived
  have owner := (sane.stamped session member seq req place).owner
  rw [sane.tail_place chain member of] at last
  exact (sane.logged_iff of chain member isLocal last owner).mpr served

end Runs

/-- **Agreement of the replicas**, if overlapping writes do not conflict. -/
theorem chain_agreement (chain : cfg.IsChain)
    (run : Transition.Runs (State.step cfg) (WithoutConflict cfg) (State.init mapEngine) state) :
    Agreement cfg state := by
  intro quiet key addr here other there
  have last := List.getLast?_eq_some_getLast (List.ne_nil_of_mem here)
  have agreeing := agreeing_of_run last chain run
  have settled := settled_of_quiescent last chain run quiet
  have left := agreeing.store_eq settled ⟨addr, here⟩ key
  have right := agreeing.store_eq settled ⟨other, there⟩ key
  exact left.trans right.symm

/-- Two clients write to one key.  The master serves the first client first; the
replicas serve the second client first. -/
def twoWrites (first second : Value) : List Event :=
  [.accept fun _ => ⟨false, false⟩, .accept fun _ => ⟨false, false⟩,
    .request 0 (some [.set [7] first]) fun _ => id,
    .request 4 (some [.set [7] second]) fun _ => id,
    .writable 2 true, .serve 2, .response 2, .writable 6 true, .serve 6, .response 6,
    .writable 5 true, .serve 5, .response 5, .writable 7 true, .serve 7, .response 7,
    .writable 1 true, .serve 1, .response 1, .writable 3 true, .serve 3, .response 3,
    .writable 0 true, .writable 4 true]

theorem chain_agreement_sample : Config.sampleChain.IsChain ∧ ∃ state : State mapEngine,
    state.proxy.Quiescent ∧ (state.datalets [0]).state [7] = some [1] ∧
      Agreement Config.sampleChain state := by
  obtain ⟨state, run, post⟩ := Transition.Runs.exists_of_exec
    (State.step Config.sampleChain) (WithoutConflict Config.sampleChain)
    (State.init mapEngine) (twoWrites [1] [1])
    (fun state => state.proxy.Quiescent ∧
      ((state.datalets [0]).state : Key → Option Value) [7] = some [1]) (by decide)
  simp only [decide_eq_true_eq] at post
  exact ⟨Config.sampleChain_isChain, state, post.1, post.2,
    chain_agreement Config.sampleChain_isChain run⟩

/-- Overlapping writes of different values leave the master with the second value and
the replicas with the first one, in a quiescent state. -/
theorem overlapping_writes_diverge : ∃ state : State mapEngine,
    Transition.Runs (State.step Config.sampleChain) OneOutstanding (State.init mapEngine) state ∧
      ¬Agreement Config.sampleChain state := by
  obtain ⟨state, run, post⟩ := Transition.Runs.exists_of_exec
    (State.step Config.sampleChain) OneOutstanding (State.init mapEngine) (twoWrites [1] [2])
    (fun state => state.proxy.Quiescent ∧
      ((state.datalets [0]).state : Key → Option Value) [7] = some [2] ∧
      ((state.datalets [1]).state : Key → Option Value) [7] = some [1]) (by decide)
  simp only [decide_eq_true_eq] at post
  obtain ⟨quiet, master, replica⟩ := post
  refine ⟨state, run, fun agreement => ?_⟩
  have same := agreement quiet [7] [0] (by decide) [1] (by decide)
  rw [master, replica] at same
  cases same

end BespoKV
