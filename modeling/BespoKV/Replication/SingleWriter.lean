import BespoKV.Chain.Agreement
import BespoKV.Proxy.Histories
import BespoKV.Without.FanOut

/-!
# Keys with one writer

A master and its slaves take the requests of different clients in different orders, so that
concurrent writes to a key may leave them different for good.  Each client's writes, however, reach
every datalet in the client's order.  So the datalets agree on a key that one client writes to:
when nothing is on its way, all hold what that client wrote last, in the mode without consistency
and in a chain, however deep it pipelines its writes.
-/

namespace BespoKV

open Pipes

/-- No other client has written to the key. -/
def Proxy.OnlyWriter (proxy : Proxy) (writer : LinkPtr) (key : Key) : Prop :=
  ∀ client < proxy.next, client ≠ writer → ∀ req ∈ proxy.received client,
    req.write?.map Prod.fst ≠ some key

instance (proxy : Proxy) (writer : LinkPtr) (key : Key) : Decidable (proxy.OnlyWriter writer key) :=
  inferInstanceAs (Decidable (∀ client < proxy.next, _))

/-- The datalets that the links of a session lead to. -/
def Config.opened (cfg : Config) : List AddrType :=
  (cfg.serverAddrs cfg.dumbMap.rows).getLast?.toList ++ cfg.slaveAddrs cfg.dumbMap.rows

section Stores

variable {cfg : Config} {state : State mapEngine} {addr : AddrType} {writer : LinkPtr}
variable {key : Key}

theorem silent_of_not_isSet {req : Buffer} (read : req.isSet = false) (value : Value) :
    req.write? ≠ some (key, value) := by
  intro writes
  rw [Buffer.isSet_of_write writes] at read
  cases read

theorem applied_eq (state : State mapEngine) (addr : AddrType) (client : LinkPtr) :
    state.applied addr client =
      ((state.datalets addr).log.map Served.req).filter fun req => req.owner = some client := by
  rw [State.applied, State.answers, List.map_map, List.filter_map]
  rfl

/-- A datalet that has handled all writes of the only writer of a key, and nothing that was not
received, holds what the client wrote last. -/
theorem store_of_writer {guard : State mapEngine → Event → Prop} {sessions : List Session}
    (run : Transition.Runs (State.step cfg) guard (State.init mapEngine) state)
    (sane : Sane cfg state sessions) (only : state.proxy.OnlyWriter writer key)
    (handled : (state.applied addr writer).filter Buffer.isSet =
      (state.proxy.received writer).filter Buffer.isSet)
    (received : ∀ other ∈ sessions, ∀ entry ∈ (state.datalets addr).log,
      entry.req.owner = some other.client → entry.req ∈ state.proxy.received other.client) :
    (state.datalets addr).state key =
      History.replay Buffer.write? (state.proxy.received writer) key := by
  have reads : ∀ (history : List Buffer), History.replay Buffer.write?
      (history.filter Buffer.isSet) key = History.replay Buffer.write? history key :=
    fun history => History.replay_filter fun _ _ read => silent_of_not_isSet read
  rw [replayed_of_run run addr, ← reads (state.proxy.received writer), ← handled, reads,
    applied_eq]
  symm
  apply History.replay_filter
  intro req logged foreign
  obtain ⟨entry, listed, rfl⟩ := List.mem_map.mp logged
  intro value writes
  obtain ⟨ptr, conn⟩ := Sane.local_of_run run addr entry listed
  obtain ⟨other, member, _, _, owner⟩ := sane.logged addr entry listed ptr conn
  have small := (sane.wired.established other member).bounded _ other.client_mem
  have different : other.client ≠ writer := by
    rintro rfl
    simp [owner] at foreign
  exact only other.client small different entry.req (received other member entry listed owner)
    (by rw [writes]; rfl)

end Stores

section Sessions

variable {engine : Engine} {cfg : Config} {state : State engine} {sessions : List Session}
variable {session : Session} {addr : AddrType}

/-- Every session has a link to every datalet. -/
theorem Sane.exists_link (sane : Sane cfg state sessions) (member : session ∈ sessions)
    (opened : addr ∈ cfg.opened) :
    ∃ ptr ∈ session.backend, (state.proxy.links ptr).peer = some addr := by
  rcases List.mem_append.mp opened with server | slave
  · have last := Option.mem_toList.mp server
    cases isServer : session.server with
    | none =>
        rw [(sane.wired.established session member).serverless isServer] at last
        cases last
    | some ptr =>
        obtain ⟨found, peer, same⟩ := sane.peer_server member isServer
        rw [Option.mem_def.mp last] at same
        cases same
        exact ⟨ptr, by simp [Session.backend, isServer], peer⟩
  · obtain ⟨j, place⟩ := List.getElem?_of_mem slave
    obtain ⟨bound, _⟩ := List.getElem?_eq_some_iff.mp place
    rw [← (sane.wired.established session member).slaves] at bound
    have link := List.getElem?_eq_getElem bound
    obtain ⟨found, peer, same⟩ := sane.peer_slave member link
    rw [place] at same
    cases same
    exact ⟨_, List.mem_append_right _ (List.getElem_mem bound), peer⟩

end Sessions

/-! ## Without consistency -/

section Without

variable {cfg : Config} {state : State mapEngine} {sessions : List Session} {session : Session}
variable {addr : AddrType} {writer : LinkPtr} {key : Key}

/-- What a datalet has handled for a client was received from it. -/
theorem Fanned.applied_subset (sane : Sane cfg state sessions) (member : session ∈ sessions)
    (fanned : Fanned session state)
    (isLocal : ∀ addr, ∀ entry ∈ (state.datalets addr).log,
      ∃ ptr, entry.conn = state.connOf ptr)
    (opened : addr ∈ cfg.opened) :
    state.applied addr session.client ⊆ state.proxy.received session.client := by
  obtain ⟨ptr, inside, peer⟩ := sane.exists_link member opened
  rw [State.applied, sane.answers_link isLocal member inside peer]
  intro req served
  have carried : req ∈ state.carried ptr := by
    rw [State.carried_eq]
    exact List.mem_append_left _ served
  rcases List.mem_append.mp inside with server | slave
  · rwa [fanned.server ptr (Option.mem_toList.mp server)] at carried
  · rw [fanned.slave ptr slave] at carried
    exact List.mem_of_mem_filter carried

/-- When nothing is on its way, every datalet has handled all writes. -/
theorem Fanned.applied_all (sane : Sane cfg state sessions) (member : session ∈ sessions)
    (fanned : Fanned session state)
    (isLocal : ∀ addr, ∀ entry ∈ (state.datalets addr).log,
      ∃ ptr, entry.conn = state.connOf ptr)
    (quiet : state.proxy.Quiescent) (opened : addr ∈ cfg.opened) :
    (state.applied addr session.client).filter Buffer.isSet =
      (state.proxy.received session.client).filter Buffer.isSet := by
  obtain ⟨ptr, inside, peer⟩ := sane.exists_link member opened
  have small := (sane.wired.established session member).bounded ptr (Session.backend_mem inside)
  obtain ⟨queue, _, wire⟩ := quiet ptr small
  have served : state.applied addr session.client = state.carried ptr := by
    rw [State.applied, sane.answers_link isLocal member inside peer, State.carried, State.sentOn,
      queue, wire]
    simp
  rw [served]
  rcases List.mem_append.mp inside with server | slave
  · rw [fanned.server ptr (Option.mem_toList.mp server)]
  · rw [fanned.slave ptr slave, List.filter_filter]
    simp

/-- **Fan-out converges on keys with one writer**, to what that client wrote last. -/
theorem fan_out_converges (without : cfg.Without)
    (run : Transition.Runs (State.step cfg) (fun _ event => event.Clean) (State.init mapEngine)
      state)
    (quiet : state.proxy.Quiescent) (connected : (state.proxy.links writer).nwFunc = .request)
    (only : state.proxy.OnlyWriter writer key) (opened : addr ∈ cfg.opened) :
    (state.datalets addr).state key =
      History.replay Buffer.write? (state.proxy.received writer) key := by
  obtain ⟨sessions, sane, fanned⟩ := fanned_of_run without run
  have isLocal := Sane.local_of_run run
  obtain ⟨session, member, rfl⟩ := sane.wired.clients writer connected
  refine store_of_writer run sane only
    ((fanned session member).applied_all sane member isLocal quiet opened) ?_
  intro other otherMember entry logged owner
  apply (fanned other otherMember).applied_subset sane otherMember isLocal opened
  rw [applied_eq]
  exact List.mem_filter.mpr ⟨List.mem_map_of_mem logged, by simpa using owner⟩

end Without

/-- Two pipelined writes by one client and a write to another key by a second one, with the order
in which the datalets are served. -/
def sampleOneWriter (links : List LinkPtr) : List Event :=
  [.accept fun _ => ⟨false, false⟩, .accept fun _ => ⟨false, false⟩,
    .request 0 (some [.set [7] [1], .set [7] [2]]) fun _ => id,
    .request 4 (some [.set [8] [3]]) fun _ => id] ++
  links.flatMap (fun link => [.writable link true, .serve link, .response link]) ++
  [.writable 0 true, .writable 0 true, .writable 4 true]

/-- The first client alone has written its key, and all is done. -/
def sampleWritten (state : State mapEngine) : Bool :=
  state.proxy.Quiescent ∧ (state.proxy.links 0).nwFunc = .request ∧
    state.proxy.OnlyWriter 0 [7] ∧
    History.replay Buffer.write? (state.proxy.received 0) [7] = some [2]

/-- The last slave is served first. -/
theorem fan_out_converges_sample : ∃ state : State mapEngine,
    state.proxy.Quiescent ∧ (state.datalets [0]).state [7] = some [2] ∧
      (state.datalets [1]).state [7] = some [2] ∧ (state.datalets [2]).state [7] = some [2] := by
  obtain ⟨state, run, post⟩ := Transition.Runs.exists_of_exec
    (State.step Config.sampleWithout) (fun _ event => event.Clean) (State.init mapEngine)
    (sampleOneWriter [3, 3, 1, 1, 2, 2, 7, 5, 6]) sampleWritten (by decide +kernel)
  obtain ⟨quiet, connected, only, last⟩ := of_decide_eq_true post
  have held : ∀ addr ∈ Config.sampleWithout.opened, (state.datalets addr).state [7] = some [2] :=
    fun addr opened =>
      (fan_out_converges ⟨rfl, rfl⟩ run quiet connected only opened).trans last
  exact ⟨state, quiet, held [0] (by decide), held [1] (by decide), held [2] (by decide)⟩

/-! ## Chains -/

section Chain

variable {cfg : Config} {state : State mapEngine} {sessions : List Session} {session : Session}
variable {lane : Lane} {addr : AddrType} {writer : LinkPtr} {key : Key}

/-- When nothing is on its way, every datalet of the chain has handled all writes. -/
theorem Chained.applied_all (chained : Chained state lane) (of : lane.Of session)
    (chain : cfg.IsChain) (sane : Sane cfg state sessions) (member : session ∈ sessions)
    (isLocal : ∀ addr, ∀ entry ∈ (state.datalets addr).log,
      ∃ ptr, entry.conn = state.connOf ptr)
    (quiet : state.proxy.Quiescent) (datalet : addr ∈ cfg.chain) :
    (state.applied addr session.client).filter Buffer.isSet =
      (state.proxy.received session.client).filter Buffer.isSet := by
  obtain ⟨j, place⟩ := List.getElem?_of_mem datalet
  obtain ⟨small, answers⟩ := sane.answers_stage chain isLocal member of place
  have idle := quiet.flow_eq_nil sane chain member of
  have sound := chained.sound
  have input : (state.line lane).input = state.proxy.received session.client := by
    rw [← of.client]
    rfl
  have answered : (state.line lane).input =
      ((state.line lane).stage (state.line lane).last).answered.map Prod.fst := by
    rw [sound.input, idle, List.append_nil]
  have whole : (state.line lane).input.filter Buffer.isSet <+:
      (((state.line lane).stage j).served.map Prod.fst).filter Buffer.isSet := by
    rw [answered]
    exact (((Line.answered_served _).map Prod.fst).filter _).trans (sound.served_last small)
  rw [State.applied, answers, ← input]
  exact (sound.served_input small).eq_of_length_le whole.length_le

/-- **A chain converges on keys with one writer**, to what that client wrote last. -/
theorem chain_converges (chain : cfg.IsChain)
    (run : Transition.Runs (State.step cfg) (ChainGuard fun _ => True) (State.init mapEngine)
      state)
    (quiet : state.proxy.Quiescent) (connected : (state.proxy.links writer).nwFunc = .request)
    (only : state.proxy.OnlyWriter writer key) (datalet : addr ∈ cfg.chain) :
    (state.datalets addr).state key =
      History.replay Buffer.write? (state.proxy.received writer) key := by
  obtain ⟨sessions, sane, holds⟩ :=
    chained_of_run (fun _ => True) chain (fun _ _ admitted => admitted) run
  have isLocal := Sane.local_of_run run
  obtain ⟨session, member, rfl⟩ := sane.wired.clients writer connected
  obtain ⟨lane, of⟩ := sane.exists_lane chain member
  have chained := holds session member trivial lane of
  refine store_of_writer run sane only
    (chained.applied_all of chain sane member isLocal quiet datalet) ?_
  intro other otherMember entry logged owner
  obtain ⟨otherLane, otherOf⟩ := sane.exists_lane chain otherMember
  exact (holds other otherMember trivial otherLane otherOf).received_of_served otherOf chain sane
    otherMember isLocal datalet logged owner

end Chain

/-- The two clients overlap. -/
theorem chain_converges_sample : ∃ state : State mapEngine,
    state.proxy.Quiescent ∧ (state.datalets [0]).state [7] = some [2] ∧
      (state.datalets [1]).state [7] = some [2] ∧ (state.datalets [2]).state [7] = some [2] := by
  obtain ⟨state, run, post⟩ := Transition.Runs.exists_of_exec
    (State.step Config.sampleChain) (ChainGuard fun _ => True) (State.init mapEngine)
    (sampleOneWriter [2, 2, 6, 5, 1, 1, 3, 7, 3]) sampleWritten (by decide +kernel)
  obtain ⟨quiet, connected, only, last⟩ := of_decide_eq_true post
  have held : ∀ addr ∈ Config.sampleChain.chain, (state.datalets addr).state [7] = some [2] :=
    fun addr datalet =>
      (chain_converges Config.sampleChain_isChain run quiet connected only datalet).trans last
  exact ⟨state, quiet, held [0] (by decide), held [1] (by decide), held [2] (by decide)⟩

end BespoKV
