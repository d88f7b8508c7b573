import BespoKV.Chain.Invariant

/-!
# The index of the chains

`establish_server_conn_each` assembles the entry of a client row by row, wherever the master
stands in the table, and `get_slave_number` and `get_master_of_slave` scan the entries of all
clients that have ever connected.  The place of a slave link in `msMap` is the one that the
link itself says, so that counting `slave_number` up walks along the chain of one client.
-/

namespace BespoKV

variable {engine : Engine} {cfg : Config} {state after : State engine}
variable {sessions : List Session} {session : Session} {ptr : LinkPtr}

/-! ## Links with the handlers of a slave -/

/-- Every link with the handlers of a slave belongs to a session. -/
def Proxy.Indexed (proxy : Proxy) (sessions : List Session) : Prop :=
  ∀ ptr, (proxy.links ptr).nwFunc = .replica → ∃ session ∈ sessions, ptr ∈ session.slaves

/-- Only connecting a client sets up links. -/
theorem Sane.drops {event : Event} (sane : Sane cfg state sessions)
    (concerns : event.link? ≠ none) (moved : state.step cfg event = .ok after) :
    state.proxy.Drops after.proxy := by
  cases event with
  | accept uninit => exact absurd rfl concerns
  | request client msg freed =>
      obtain ⟨_, _, _, within⟩ := sane.request_within moved
      exact within.drops
  | response link =>
      obtain ⟨_, _, _, within⟩ := sane.response_within moved
      exact within.drops
  | writable link written =>
      rcases sane.writable_within moved with ⟨_, _, _, within⟩ | ⟨still, _⟩
      · exact within.drops
      · exact .of_shape still.shape
  | serve link =>
      obtain ⟨_, _, _, within⟩ := sane.serve_within moved
      exact within.drops

/-- Connecting a client lists its slave links. -/
theorem Proxy.Indexed.accept {uninit : LinkPtr → Uninit}
    (indexed : state.proxy.Indexed sessions) (indexes : Proxy.indexesSlaves cfg = true)
    (accepted : Accepted cfg state.proxy after.proxy session)
    (moved : state.step cfg (.accept uninit) = .ok after) :
    after.proxy.Indexed (sessions ++ [session]) := by
  have connected : state.proxy.acceptClient cfg uninit = .ok after.proxy := by
    simp only [State.step] at moved
    split at moved
    next proxy connected =>
      cases moved
      exact connected
    · cases moved
  intro ptr isReplica
  by_cases outside : ptr < state.proxy.next ∨ after.proxy.next ≤ ptr
  · rw [accepted.same ptr outside] at isReplica
    obtain ⟨owner, member, owns⟩ := indexed ptr isReplica
    exact ⟨owner, List.mem_append_left _ member, owns⟩
  · have inside : state.proxy.next ≤ ptr ∧ ptr < after.proxy.next := by lia
    refine ⟨session, by simp, ?_⟩
    exact accepted.replicas connected indexes inside.1 inside.2 isReplica

theorem Sane.indexed_of_run {guard : State engine → Event → Prop}
    (indexes : Proxy.indexesSlaves cfg = true)
    (run : Transition.Runs (State.step cfg) guard (State.init engine) state) :
    ∃ sessions, Sane cfg state sessions ∧ state.proxy.Indexed sessions := by
  refine run.invariant
    (fun state => ∃ sessions, Sane cfg state sessions ∧ state.proxy.Indexed sessions) ?_
    ⟨[], .init cfg, fun ptr isReplica => by cases isReplica⟩
  rintro state event after ⟨sessions, sane, indexed⟩ _ moved
  by_cases connects : event.link? = none
  · cases event with
    | accept uninit =>
        obtain ⟨session, accepted, _, _, later⟩ := sane.accept moved
        exact ⟨_, later, indexed.accept indexes accepted moved⟩
    | request | response | writable | serve => cases connects
  · have drops := sane.drops connects moved
    obtain ⟨later, steps⟩ := sane.step moved
    refine ⟨later, steps.sane, fun ptr isReplica => ?_⟩
    have info : (after.proxy.links ptr).toLinkInfo = (state.proxy.links ptr).toLinkInfo :=
      congrFun (congrArg Shape.info drops.shape) ptr
    obtain ⟨owner, member, owns⟩ := indexed ptr ((congrArg LinkInfo.nwFunc info).symm.trans
      isReplica)
    exact ⟨owner, steps.kept owner member, owns⟩

/-! ## The index -/

/-- `msMap` is an index of the chains of the clients that have connected, each with the given
number of slaves. -/
structure Proxy.ChainIndex (proxy : Proxy) (slaves : Nat) : Prop where
  /-- one entry for every client: its master link and its slave links -/
  clients : ∃ clients : List LinkPtr, clients.Nodup ∧
    (∀ client, client ∈ clients ↔ (proxy.links client).nwFunc = .request) ∧
    proxy.msMap = clients.map fun client =>
      ((proxy.sessionOf client).server, (proxy.sessionOf client).slaves)
  /-- entries of different clients share no link -/
  disjoint : ∀ client other, (proxy.links client).nwFunc = .request →
    (proxy.links other).nwFunc = .request → client ≠ other →
      (proxy.sessionOf client).links.Disjoint (proxy.sessionOf other).links
  /-- a slave link stands in one entry, once, at the index that is its number -/
  place : ∀ slave, (proxy.links slave).nwFunc = .replica → ∃ i number : Nat,
    (proxy.links slave).slaveNumber = number ∧
      ∀ j k, (∃ entry, proxy.msMap[j]? = some entry ∧ entry.2[k]? = some slave) ↔
        j = i ∧ k = number
  /-- a slave link is found again through its master -/
  lookup : ∀ slave, (proxy.links slave).nwFunc = .replica → ∃ master,
    proxy.getMasterOfSlave slave = some master ∧
      proxy.getSlaveNumber master (proxy.links slave).slaveNumber = .ok (some slave)
  /-- counting up visits every slave of a client once -/
  walk : ∀ client, (proxy.links client).nwFunc = .request → ∃ master,
    (proxy.links client).dataletConn = some master ∧ (proxy.getSlaves master).Nodup ∧
      (List.range slaves).map (fun number : Nat => proxy.getSlaveNumber master number) =
        (proxy.getSlaves master).map (fun slave => .ok (some slave)) ∧
      ∀ slave, slave ∈ proxy.getSlaves master ↔
        (proxy.links slave).nwFunc = .replica ∧ proxy.getMasterOfSlave slave = some master

section Index

variable (sane : Sane cfg state sessions)
include sane

/-- Clients connect once. -/
theorem Sane.clients_nodup : (sessions.map Session.client).Nodup := by
  have apart := (List.nodup_flatMap.mp sane.wired.nodup).2
  refine List.pairwise_map.mpr (apart.imp fun {first second} disjoint same => ?_)
  exact disjoint first.client_mem (same ▸ second.client_mem)

theorem Sane.slaves_nodup (member : session ∈ sessions) : session.slaves.Nodup :=
  (List.nodup_append.mp (List.nodup_cons.mp (sane.wired.links_nodup member)).2).2.1

section MasterSlave

variable (topology : cfg.topology = .ms) (masters : cfg.addrs .master ≠ [])
include topology

/-- The entries of `msMap` are those of the sessions. -/
theorem Sane.msMap_eq : state.proxy.msMap =
    sessions.map fun session => (session.server, session.slaves) := by
  have entries := sane.wired.msMap
  rwa [if_pos (Config.indexesSlaves_ms topology)] at entries

include masters

theorem Sane.server_isSome (member : session ∈ sessions) :
    ∃ master, session.server = some master := by
  refine Option.ne_none_iff_exists'.mp fun missing => masters ?_
  rw [← Config.serverAddrs_ms topology]
  exact (sane.wired.established session member).serverless missing

theorem Sane.sessionOf_client (member : session ∈ sessions) :
    state.proxy.sessionOf session.client = session := by
  obtain ⟨master, server⟩ := sane.server_isSome topology masters member
  exact sane.sessionOf_eq (Config.indexesSlaves_ms topology) member server

/-- Every client has one entry. -/
theorem Sane.index_clients : ∃ clients : List LinkPtr, clients.Nodup ∧
    (∀ client, client ∈ clients ↔ (state.proxy.links client).nwFunc = .request) ∧
    state.proxy.msMap = clients.map fun client =>
      ((state.proxy.sessionOf client).server, (state.proxy.sessionOf client).slaves) := by
  refine ⟨sessions.map Session.client, sane.clients_nodup, fun client => ⟨?_, ?_⟩, ?_⟩
  · intro listed
    obtain ⟨session, member, rfl⟩ := List.mem_map.mp listed
    exact congrArg LinkInfo.nwFunc (sane.client_info member)
  · intro connected
    obtain ⟨session, member, rfl⟩ := sane.wired.clients client connected
    exact List.mem_map_of_mem member
  · rw [sane.msMap_eq topology, List.map_map]
    refine List.map_congr_left fun session member => ?_
    simp only [Function.comp_apply, sane.sessionOf_client topology masters member]

theorem Sane.index_disjoint {client other : LinkPtr}
    (connected : (state.proxy.links client).nwFunc = .request)
    (otherConnected : (state.proxy.links other).nwFunc = .request) (different : client ≠ other) :
    (state.proxy.sessionOf client).links.Disjoint (state.proxy.sessionOf other).links := by
  obtain ⟨session, member, rfl⟩ := sane.wired.clients client connected
  obtain ⟨second, secondMember, rfl⟩ := sane.wired.clients other otherConnected
  rw [sane.sessionOf_client topology masters member,
    sane.sessionOf_client topology masters secondMember]
  intro ptr inside secondInside
  have same := sane.wired.session_unique member secondMember inside secondInside
  exact different (congrArg Session.client same.symm)

variable (indexed : state.proxy.Indexed sessions)
include indexed

omit masters in
/-- The place of a slave link in the index. -/
theorem Sane.index_place (isReplica : (state.proxy.links ptr).nwFunc = .replica) :
    ∃ i number : Nat, (state.proxy.links ptr).slaveNumber = number ∧
      ∀ j k, (∃ entry, state.proxy.msMap[j]? = some entry ∧ entry.2[k]? = some ptr) ↔
        j = i ∧ k = number := by
  obtain ⟨session, member, listed⟩ := indexed ptr isReplica
  obtain ⟨i, here⟩ := List.getElem?_of_mem member
  obtain ⟨number, place⟩ := List.getElem?_of_mem listed
  refine ⟨i, number, sane.slave_number member place, fun j k => ⟨?_, ?_⟩⟩
  · rintro ⟨entry, found, inEntry⟩
    rw [sane.msMap_eq topology, List.getElem?_map, Option.map_eq_some_iff] at found
    obtain ⟨other, there, rfl⟩ := found
    have same : other = session := sane.wired.session_unique member
      (List.mem_of_getElem? there) (Session.slave_mem listed)
      (Session.slave_mem (List.mem_of_getElem? inEntry))
    subst same
    have once := List.Nodup.of_map _ sane.clients_nodup
    have small := (List.getElem?_eq_some_iff.mp there).1
    have bound := (List.getElem?_eq_some_iff.mp inEntry).1
    exact ⟨(List.getElem?_inj small once).mp (there.trans here.symm),
      (List.getElem?_inj bound (sane.slaves_nodup member)).mp (inEntry.trans place.symm)⟩
  · rintro ⟨rfl, rfl⟩
    refine ⟨(session.server, session.slaves), ?_, place⟩
    rw [sane.msMap_eq topology, List.getElem?_map, here]
    rfl

theorem Sane.index_lookup (isReplica : (state.proxy.links ptr).nwFunc = .replica) :
    ∃ master, state.proxy.getMasterOfSlave ptr = some master ∧
      state.proxy.getSlaveNumber master (state.proxy.links ptr).slaveNumber =
        .ok (some ptr) := by
  have indexes := Config.indexesSlaves_ms topology
  obtain ⟨session, member, listed⟩ := indexed ptr isReplica
  obtain ⟨master, server⟩ := sane.server_isSome topology masters member
  obtain ⟨number, place⟩ := List.getElem?_of_mem listed
  refine ⟨master, (sane.wired.getMasterOfSlave_eq indexes member listed).trans server, ?_⟩
  rw [sane.slave_number member place]
  exact sane.wired.getSlaveNumber_eq indexes member server place

omit masters in
/-- The slaves of a session are the slave links of its master. -/
theorem Sane.mem_slaves_iff {master : LinkPtr} (member : session ∈ sessions)
    (server : session.server = some master) : ptr ∈ session.slaves ↔
      (state.proxy.links ptr).nwFunc = .replica ∧
        state.proxy.getMasterOfSlave ptr = some master := by
  have indexes := Config.indexesSlaves_ms topology
  constructor
  · intro listed
    exact ⟨sane.slave_func member listed,
      (sane.wired.getMasterOfSlave_eq indexes member listed).trans server⟩
  · rintro ⟨isReplica, found⟩
    obtain ⟨owner, ownerMember, owns⟩ := indexed ptr isReplica
    rw [sane.wired.getMasterOfSlave_eq indexes ownerMember owns] at found
    have same := sane.wired.session_unique member ownerMember (Session.server_mem server)
      (Session.server_mem found)
    exact same ▸ owns

theorem Sane.index_walk {client : LinkPtr}
    (connected : (state.proxy.links client).nwFunc = .request) : ∃ master,
    (state.proxy.links client).dataletConn = some master ∧
      (state.proxy.getSlaves master).Nodup ∧
      (List.range (cfg.addrs .slave).length).map
          (fun number : Nat => state.proxy.getSlaveNumber master number) =
        (state.proxy.getSlaves master).map (fun slave => .ok (some slave)) ∧
      ∀ slave, slave ∈ state.proxy.getSlaves master ↔
        (state.proxy.links slave).nwFunc = .replica ∧
          state.proxy.getMasterOfSlave slave = some master := by
  have indexes := Config.indexesSlaves_ms topology
  obtain ⟨session, member, rfl⟩ := sane.wired.clients client connected
  obtain ⟨master, server⟩ := sane.server_isSome topology masters member
  have assigned := congrArg LinkInfo.dataletConn (sane.client_info member)
  have count := (sane.wired.established session member).slaves
  rw [Config.slaveAddrs_ms topology] at count
  refine ⟨master, assigned.trans server, ?_⟩
  rw [sane.wired.getSlaves_eq indexes member server, ← count]
  refine ⟨sane.slaves_nodup member, ?_, fun slave =>
    sane.mem_slaves_iff topology indexed member server⟩
  refine List.ext_getElem (by simp) fun k left right => ?_
  have bound : k < session.slaves.length := by simpa using left
  rw [List.getElem_map, List.getElem_map, List.getElem_range]
  exact sane.wired.getSlaveNumber_eq indexes member server (List.getElem?_eq_getElem bound)

end MasterSlave

end Index

/-- **`msMap` is a faithful index** after any number of connections, whatever else happens
between them and whatever the order of the table. -/
theorem connection_map_faithful (topology : cfg.topology = .ms)
    (master : (cfg.addrs .master).length = 1)
    (run : Transition.Runs (State.step cfg) (fun _ _ => True) (State.init engine) state) :
    state.proxy.ChainIndex (cfg.addrs .slave).length := by
  obtain ⟨sessions, sane, indexed⟩ :=
    Sane.indexed_of_run (Config.indexesSlaves_ms topology) run
  have masters : cfg.addrs .master ≠ [] := List.ne_nil_of_length_pos (by omega)
  exact
    { clients := sane.index_clients topology masters
      disjoint := fun _ _ => sane.index_disjoint topology masters
      place := fun _ => sane.index_place topology indexed
      lookup := fun _ => sane.index_lookup topology masters indexed
      walk := fun _ => sane.index_walk topology masters indexed }

/-- Two clients; the table lists the master between two slaves. -/
theorem connection_map_faithful_sample : ∃ state : State mapEngine,
    state.proxy.msMap = [(some 2, [1, 3]), (some 6, [5, 7])] ∧ state.proxy.ChainIndex 2 := by
  obtain ⟨state, run, post⟩ := Transition.Runs.exists_of_exec (State.step Config.sampleChain)
    (fun _ _ => True) (State.init mapEngine)
    [.accept fun _ => ⟨false, false⟩, .accept fun _ => ⟨true, true⟩]
    (fun state => state.proxy.msMap = [(some 2, [1, 3]), (some 6, [5, 7])]) (by decide)
  exact ⟨state, of_decide_eq_true post, connection_map_faithful rfl (by decide) run⟩

end BespoKV
