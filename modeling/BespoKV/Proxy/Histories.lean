import BespoKV.Proxy.Isolation

/-!
# What datalets have handled, client by client

The links of a session lead to different datalets.  So what a datalet has handled for a client
is what it has served on one link of the client's session.
-/

namespace BespoKV

variable {engine : Engine} {cfg : Config} {state : State engine} {sessions : List Session}
variable {session : Session}

/-! ## The datalets of a session -/

/-- A row is opened in one way. -/
theorem Config.not_isServer (cfg : Config) {row : DumbNode} (slave : cfg.isSlave row = true) :
    cfg.isServer row = false := by
  simp only [Config.isSlave, Proxy.indexesSlaves, Config.aaStrong, Bool.and_eq_true,
    Bool.or_eq_true, decide_eq_true_eq] at slave
  obtain ⟨role, ms | ⟨_, aa⟩⟩ := slave
  · simp [Config.isServer, ms, role]
  · simp [Config.isServer, aa, role]

theorem Config.slaveAddrs_nodup (cfg : Config) : (cfg.slaveAddrs cfg.dumbMap.rows).Nodup :=
  (List.filter_sublist.map DumbNode.addr).nodup cfg.dumbMap.nodup

theorem Config.not_slave_of_server (cfg : Config) {addr : AddrType}
    (server : addr ∈ cfg.serverAddrs cfg.dumbMap.rows) :
    addr ∉ cfg.slaveAddrs cfg.dumbMap.rows := by
  intro slave
  obtain ⟨row, rowIn, rowAddr⟩ := List.mem_map.mp server
  obtain ⟨other, otherIn, otherAddr⟩ := List.mem_map.mp slave
  obtain ⟨rowListed, isServer⟩ := List.mem_filter.mp rowIn
  obtain ⟨otherListed, isSlave⟩ := List.mem_filter.mp otherIn
  have same := List.inj_on_of_nodup_map cfg.dumbMap.nodup rowListed otherListed
    (rowAddr.trans otherAddr.symm)
  rw [same, cfg.not_isServer isSlave] at isServer
  cases isServer

namespace Sane

/-- Where the links of a session lead. -/
theorem peer_server (sane : Sane cfg state sessions) (member : session ∈ sessions)
    {ptr : LinkPtr} (server : session.server = some ptr) :
    ∃ addr, (state.proxy.links ptr).peer = some addr ∧
      (cfg.serverAddrs cfg.dumbMap.rows).getLast? = some addr := by
  obtain ⟨addr, last, info⟩ := (sane.wired.established session member).server ptr server
  exact ⟨addr, congrArg LinkInfo.peer info, last⟩

theorem peer_slave (sane : Sane cfg state sessions) (member : session ∈ sessions) {j : Nat}
    {ptr : LinkPtr} (slave : session.slaves[j]? = some ptr) :
    ∃ addr, (state.proxy.links ptr).peer = some addr ∧
      (cfg.slaveAddrs cfg.dumbMap.rows)[j]? = some addr := by
  obtain ⟨addr, place, info⟩ := (sane.wired.established session member).slave j ptr slave
  exact ⟨addr, congrArg LinkInfo.peer info, place⟩

/-- Two links of a session lead to different datalets. -/
theorem peer_inj (sane : Sane cfg state sessions) (member : session ∈ sessions)
    {ptr other : LinkPtr} (inside : ptr ∈ session.backend) (also : other ∈ session.backend)
    (same : (state.proxy.links ptr).peer = (state.proxy.links other).peer) : ptr = other := by
  have apart : ∀ {server slave : LinkPtr}, session.server = some server →
      slave ∈ session.slaves →
      (state.proxy.links server).peer ≠ (state.proxy.links slave).peer := by
    intro server slave isServer isSlave equal
    obtain ⟨addr, peer, last⟩ := sane.peer_server member isServer
    obtain ⟨j, place⟩ := List.getElem?_of_mem isSlave
    obtain ⟨slaveAddr, slavePeer, slavePlace⟩ := sane.peer_slave member place
    rw [peer, slavePeer] at equal
    cases equal
    exact cfg.not_slave_of_server (List.mem_of_getLast? last) (List.mem_of_getElem? slavePlace)
  simp only [Session.backend, List.mem_append, Option.mem_toList] at inside also
  rcases inside with isServer | isSlave <;> rcases also with otherServer | otherSlave
  · exact Option.some.inj (isServer.symm.trans otherServer)
  · exact absurd same (apart isServer otherSlave)
  · exact absurd same.symm (apart otherServer isSlave)
  · obtain ⟨i, place⟩ := List.getElem?_of_mem isSlave
    obtain ⟨j, otherPlace⟩ := List.getElem?_of_mem otherSlave
    obtain ⟨addr, peer, listed⟩ := sane.peer_slave member place
    obtain ⟨otherAddr, otherPeer, otherListed⟩ := sane.peer_slave member otherPlace
    rw [peer, otherPeer] at same
    cases same
    obtain ⟨bound, _⟩ := List.getElem?_eq_some_iff.mp listed
    have index := (List.getElem?_inj bound cfg.slaveAddrs_nodup).mp (listed.trans otherListed.symm)
    rw [← index, place] at otherPlace
    exact Option.some.inj otherPlace

/-- What a datalet answered to a client is what it served on the client's link to it. -/
theorem answers_link (sane : Sane cfg state sessions)
    (isLocal : ∀ addr, ∀ entry ∈ (state.datalets addr).log,
      ∃ ptr, entry.conn = state.connOf ptr)
    (member : session ∈ sessions) {ptr : LinkPtr} (inside : ptr ∈ session.backend)
    {addr : AddrType} (peer : (state.proxy.links ptr).peer = some addr) :
    state.answers addr session.client = state.servedOn ptr := by
  have same : ∀ entry ∈ (state.datalets addr).log,
      decide (entry.req.owner = some session.client) =
        decide (entry.conn = state.connOf ptr) := by
    intro entry logged
    refine decide_eq_decide.mpr ⟨fun owned => ?_, fun conn => ?_⟩
    · obtain ⟨link, conn⟩ := isLocal addr entry logged
      obtain ⟨other, otherMember, linkInside, linkPeer, owner⟩ :=
        sane.logged addr entry logged link conn
      rw [owned] at owner
      have isSession : other = session :=
        sane.wired.session_unique member otherMember session.client_mem
          (Option.some.inj owner ▸ other.client_mem)
      subst isSession
      rw [conn, sane.peer_inj member linkInside inside (linkPeer.trans peer.symm)]
    · obtain ⟨other, otherMember, otherInside, _, owner⟩ :=
        sane.logged addr entry logged ptr conn
      have isSession : other = session :=
        sane.wired.session_unique member otherMember (Session.backend_mem inside)
          (Session.backend_mem otherInside)
      rw [owner, isSession]
  simp only [State.answers, State.servedOn, peer]
  rw [List.filter_congr same]

end Sane

end BespoKV
