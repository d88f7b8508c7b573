import Mathlib.Data.List.Nodup
import Mathlib.Data.List.Pairwise
import BespoKV.Proxy.Traffic

/-!
# Sessions: the links opened for one client

Every client connection gets datalet links of its own: one that its requests go to
and, in the modes that index slaves, one to each slave datalet.  `Wired` says that a
proxy consists of such sessions; connecting a client adds one, nothing else changes
them, and the scans of `msMap` find the links of the right session.
-/

namespace BespoKV

/-- The links of one client connection. -/
structure Session where
  client : LinkPtr
  server : Option LinkPtr
  slaves : List LinkPtr
  deriving DecidableEq, Repr

/-- All links of a session. -/
def Session.links (session : Session) : List LinkPtr :=
  session.client :: (session.server.toList ++ session.slaves)

/-- The session of a client link, found by following the pointers of the proxy. -/
def Proxy.sessionOf (proxy : Proxy) (client : LinkPtr) : Session where
  client := client
  server := (proxy.links client).dataletConn
  slaves :=
    match (proxy.links client).dataletConn with
    | some master => proxy.getSlaves master
    | none => []

namespace Config

/-- A row whose datalet clients' requests go to. -/
def isServer (cfg : Config) (row : DumbNode) : Bool :=
  match cfg.topology with
  | .ms => row.role = .master
  | .slave | .no => true
  | .aa => row.role = .master && cfg.consistencyModel.atLeastEventual

/-- A row whose datalet is opened as a slave. -/
def isSlave (cfg : Config) (row : DumbNode) : Bool :=
  row.role = .slave && Proxy.indexesSlaves cfg

/-- Set-up of the link clients' requests go to. -/
def serverLink (cfg : Config) (addr : AddrType) : LinkInfo :=
  { Proxy.serverInfo addr with kproducer := cfg.topology ≠ .slave }

/-- Addresses of the rows that requests go to; the last one opened is used. -/
def serverAddrs (cfg : Config) (rows : List DumbNode) : List AddrType :=
  (rows.filter cfg.isServer).map DumbNode.addr

/-- Addresses of the rows opened as slaves. -/
def slaveAddrs (cfg : Config) (rows : List DumbNode) : List AddrType :=
  (rows.filter cfg.isSlave).map DumbNode.addr

theorem serverAddrs_append (cfg : Config) (rows : List DumbNode) (row : DumbNode) :
    cfg.serverAddrs (rows ++ [row]) =
      cfg.serverAddrs rows ++ if cfg.isServer row then [row.addr] else [] := by
  by_cases serves : cfg.isServer row = true <;> simp [serverAddrs, serves]

theorem slaveAddrs_append (cfg : Config) (rows : List DumbNode) (row : DumbNode) :
    cfg.slaveAddrs (rows ++ [row]) =
      cfg.slaveAddrs rows ++ if cfg.isSlave row then [row.addr] else [] := by
  by_cases slave : cfg.isSlave row = true <;> simp [slaveAddrs, slave]

end Config

namespace Proxy

/-! ## One row of the table -/

/-- What opening one row does. -/
theorem establishRow_cases {cfg : Config} {uninit : LinkPtr → Uninit} {client : LinkPtr}
    {opening opened : Opening} {row : DumbNode}
    (established : establishRow cfg uninit client opening row = .ok opened) :
    (cfg.isServer row = true ∧ cfg.isSlave row = false ∧
      opened = opening.server uninit client (cfg.serverLink row.addr)
        (cfg.topology ≠ .slave)) ∨
    (cfg.isServer row = false ∧ cfg.isSlave row = true ∧
      opened = opening.slave uninit row.addr) ∨
    (cfg.isServer row = false ∧ cfg.isSlave row = false ∧ opened = opening) := by
  obtain ⟨topology, model, technique, replicas, table⟩ := cfg
  obtain ⟨addr, role⟩ := row
  cases topology <;> cases model <;> cases role <;>
    simp_all [establishRow, Config.isServer, Config.isSlave, Config.serverLink, serverInfo,
      indexesSlaves, Config.aaStrong, ConsMod.atLeastEventual]

/-- A link right after it was set up, with nothing queued. -/
structure Blank (link : Link) : Prop where
  imsgQ : link.imsgQ = []
  omsgQ : link.omsgQ = []
  error : link.error = false
  nwFunc : link.nwFunc ≠ .request

/-- What the loop of `establish_server_conn_each` has done after the rows `rows`,
starting from `base` for the link `client`. -/
structure Opened (cfg : Config) (base : Proxy) (client : LinkPtr) (rows : List DumbNode)
    (opening : Opening) : Prop where
  frame : opening.proxy =
    { base with links := opening.proxy.links, next := opening.proxy.next }
  grows : base.next ≤ opening.proxy.next
  old : ∀ ptr, ptr ≠ client → ptr < base.next ∨ opening.proxy.next ≤ ptr →
    opening.proxy.links ptr = base.links ptr
  clientLink : opening.proxy.links client =
    { base.links client with dataletConn := (opening.proxy.links client).dataletConn }
  blank : ∀ ptr, base.next ≤ ptr → ptr < opening.proxy.next →
    Blank (opening.proxy.links ptr)
  server : ∀ ptr, (opening.proxy.links client).dataletConn = some ptr →
    base.next ≤ ptr ∧ ptr < opening.proxy.next ∧
      ∃ addr, (cfg.serverAddrs rows).getLast? = some addr ∧
        (opening.proxy.links ptr).toLinkInfo = cfg.serverLink addr
  serverless : (opening.proxy.links client).dataletConn = none → cfg.serverAddrs rows = []
  slaves : opening.slaves.length = (cfg.slaveAddrs rows).length
  slave : ∀ (j : Nat) (ptr : LinkPtr), opening.slaves[j]? = some ptr →
    base.next ≤ ptr ∧ ptr < opening.proxy.next ∧
      ∃ addr, (cfg.slaveAddrs rows)[j]? = some addr ∧
        (opening.proxy.links ptr).toLinkInfo = slaveInfo addr j
  nodup : ((opening.proxy.links client).dataletConn.toList ++ opening.slaves).Nodup
  key : cfg.topology ≠ .slave → opening.master = (opening.proxy.links client).dataletConn

section Loop

variable {cfg : Config} {base : Proxy} {client : LinkPtr} {rows : List DumbNode}
variable {opening : Opening} {uninit : LinkPtr → Uninit} {row : DumbNode}

theorem Opened.start (unassigned : (base.links client).dataletConn = none) :
    Opened cfg base client [] { proxy := base } where
  frame := rfl
  grows := le_rfl
  old := fun _ _ _ => rfl
  clientLink := rfl
  blank := fun ptr low high => absurd high (Nat.not_lt.mpr low)
  server := fun ptr assigned => by simp [unassigned] at assigned
  serverless := fun _ => rfl
  slaves := rfl
  slave := fun j ptr opened => by simp at opened
  nodup := by simp [unassigned]
  key := fun _ => unassigned.symm

theorem Opened.slaves_mem (opened : Opened cfg base client rows opening) {ptr : LinkPtr}
    (member : ptr ∈ opening.slaves) : base.next ≤ ptr ∧ ptr < opening.proxy.next := by
  obtain ⟨j, place⟩ := List.getElem?_of_mem member
  obtain ⟨low, high, _⟩ := opened.slave j ptr place
  exact ⟨low, high⟩

/-- Opening the datalet that requests go to. -/
theorem Opened.addServer (opened : Opened cfg base client rows opening)
    (bound : client < base.next) (serves : cfg.isServer row = true)
    (notSlave : cfg.isSlave row = false) :
    Opened cfg base client (rows ++ [row])
      (opening.server uninit client (cfg.serverLink row.addr) (cfg.topology ≠ .slave)) := by
  have grows := opened.grows
  have fresh : client ≠ opening.proxy.next := by lia
  have others : ∀ ptr, ptr ≠ client → ptr ≠ opening.proxy.next →
      (opening.server uninit client (cfg.serverLink row.addr)
        (cfg.topology ≠ .slave)).proxy.links ptr = opening.proxy.links ptr := by
    intro ptr notClient notFresh
    simp [Opening.server, setServerConn, modify, alloc, notClient, notFresh]
  have here : (opening.server uninit client (cfg.serverLink row.addr)
      (cfg.topology ≠ .slave)).proxy.links client =
        { opening.proxy.links client with dataletConn := some opening.proxy.next } := by
    simp [Opening.server, setServerConn, modify, alloc, fresh]
  have there : (opening.server uninit client (cfg.serverLink row.addr)
      (cfg.topology ≠ .slave)).proxy.links opening.proxy.next =
        { toLinkInfo := cfg.serverLink row.addr
          fwdToReplicas := (uninit opening.proxy.next).fwdToReplicas
          tail := (uninit opening.proxy.next).tail } := by
    simp [Opening.server, setServerConn, modify, alloc, fresh.symm]
  have nextEq : (opening.server uninit client (cfg.serverLink row.addr)
      (cfg.topology ≠ .slave)).proxy.next = opening.proxy.next + 1 := rfl
  have slavesEq : (opening.server uninit client (cfg.serverLink row.addr)
      (cfg.topology ≠ .slave)).slaves = opening.slaves := rfl
  refine ⟨?_, ?_, ?_, ?_, ?_, ?_, ?_, ?_, ?_, ?_, ?_⟩
  · have frame := opened.frame
    simp only [Opening.server, setServerConn, modify, alloc]
    rw [frame]
  · rw [nextEq]
    lia
  · intro ptr notClient range
    rw [nextEq] at range
    rw [others ptr notClient (by lia)]
    exact opened.old ptr notClient (by lia)
  · rw [here]
    conv_lhs => rw [opened.clientLink]
  · intro ptr low high
    rw [nextEq] at high
    by_cases last : ptr = opening.proxy.next
    · rw [last, there]
      exact ⟨rfl, rfl, rfl, by simp [Config.serverLink, serverInfo]⟩
    · rw [others ptr (by lia) last]
      exact opened.blank ptr low (by lia)
  · intro ptr assigned
    rw [here] at assigned
    cases assigned
    rw [nextEq, there, Config.serverAddrs_append, if_pos serves]
    exact ⟨by lia, by lia, row.addr, by simp, rfl⟩
  · intro missing
    rw [here] at missing
    cases missing
  · rw [slavesEq, Config.slaveAddrs_append, notSlave]
    simpa using opened.slaves
  · intro j ptr place
    obtain ⟨low, high, addr, listed, info⟩ := opened.slave j ptr place
    rw [nextEq, others ptr (by lia) (by lia), Config.slaveAddrs_append, notSlave]
    exact ⟨low, by lia, addr, by simpa using listed, info⟩
  · rw [here, slavesEq]
    refine List.nodup_cons.mpr ⟨fun member => ?_, (List.nodup_append.mp opened.nodup).2.1⟩
    exact Nat.lt_irrefl _ (opened.slaves_mem member).2
  · intro isKey
    rw [here]
    simp [Opening.server, isKey]

/-- Opening a slave datalet. -/
theorem Opened.addSlave (opened : Opened cfg base client rows opening)
    (bound : client < base.next) (notServer : cfg.isServer row = false)
    (slave : cfg.isSlave row = true) :
    Opened cfg base client (rows ++ [row]) (opening.slave uninit row.addr) := by
  have grows := opened.grows
  have others : ∀ ptr, ptr ≠ opening.proxy.next →
      (opening.slave uninit row.addr).proxy.links ptr = opening.proxy.links ptr := by
    intro ptr notFresh
    simp [Opening.slave, alloc, notFresh]
  have here := others client (by lia)
  have there : (opening.slave uninit row.addr).proxy.links opening.proxy.next =
      { toLinkInfo := slaveInfo row.addr opening.slaves.length
        fwdToReplicas := (uninit opening.proxy.next).fwdToReplicas
        tail := (uninit opening.proxy.next).tail } := by
    simp [Opening.slave, alloc]
  have nextEq : (opening.slave uninit row.addr).proxy.next = opening.proxy.next + 1 := rfl
  have slavesEq : (opening.slave uninit row.addr).slaves =
      opening.slaves ++ [opening.proxy.next] := rfl
  refine ⟨?_, ?_, ?_, ?_, ?_, ?_, ?_, ?_, ?_, ?_, ?_⟩
  · have frame := opened.frame
    simp only [Opening.slave, alloc]
    rw [frame]
  · rw [nextEq]
    lia
  · intro ptr notClient range
    rw [nextEq] at range
    rw [others ptr (by lia)]
    exact opened.old ptr notClient (by lia)
  · rw [here]
    exact opened.clientLink
  · intro ptr low high
    rw [nextEq] at high
    by_cases last : ptr = opening.proxy.next
    · rw [last, there]
      exact ⟨rfl, rfl, rfl, by simp [slaveInfo]⟩
    · rw [others ptr last]
      exact opened.blank ptr low (by lia)
  · intro ptr assigned
    rw [here] at assigned
    obtain ⟨low, high, addr, listed, info⟩ := opened.server ptr assigned
    rw [nextEq, others ptr (by lia), Config.serverAddrs_append, notServer]
    exact ⟨low, by lia, addr, by simpa using listed, info⟩
  · intro missing
    rw [here] at missing
    rw [Config.serverAddrs_append, notServer, opened.serverless missing]
    rfl
  · rw [slavesEq, Config.slaveAddrs_append, if_pos slave, List.length_append,
      List.length_append, opened.slaves]
    rfl
  · intro j ptr place
    rw [slavesEq] at place
    rw [Config.slaveAddrs_append, if_pos slave]
    rcases Nat.lt_trichotomy j opening.slaves.length with earlier | new | beyond
    · rw [List.getElem?_append_left earlier] at place
      obtain ⟨low, high, addr, listed, info⟩ := opened.slave j ptr place
      rw [nextEq, others ptr (by lia)]
      refine ⟨low, by lia, addr, ?_, info⟩
      rw [List.getElem?_append_left (opened.slaves ▸ earlier)]
      exact listed
    · subst new
      rw [List.getElem?_concat_length] at place
      cases place
      rw [nextEq, there]
      refine ⟨grows, by lia, row.addr, ?_, rfl⟩
      rw [opened.slaves, List.getElem?_concat_length]
    · rw [List.getElem?_eq_none (by simp; lia)] at place
      cases place
  · rw [here, slavesEq, ← List.append_assoc]
    refine List.nodup_append.mpr ⟨opened.nodup, by simp, ?_⟩
    intro ptr member fresh isFresh
    rw [List.mem_singleton.mp isFresh]
    rcases List.mem_append.mp member with server | slave
    · obtain ⟨_, high, _⟩ := opened.server ptr (Option.mem_toList.mp server)
      lia
    · have high := (opened.slaves_mem slave).2
      lia
  · intro isKey
    rw [here]
    exact opened.key isKey

/-- A row that opens nothing. -/
theorem Opened.skip (opened : Opened cfg base client rows opening)
    (notServer : cfg.isServer row = false) (notSlave : cfg.isSlave row = false) :
    Opened cfg base client (rows ++ [row]) opening := by
  have servers : cfg.serverAddrs (rows ++ [row]) = cfg.serverAddrs rows := by
    simp [Config.serverAddrs_append, notServer]
  have slaves : cfg.slaveAddrs (rows ++ [row]) = cfg.slaveAddrs rows := by
    simp [Config.slaveAddrs_append, notSlave]
  exact { opened with
    server := servers ▸ opened.server
    serverless := servers ▸ opened.serverless
    slaves := slaves ▸ opened.slaves
    slave := slaves ▸ opened.slave }

theorem Opened.run {opened : Opening} {done todo : List DumbNode}
    (before : Opened cfg base client done opening) (bound : client < base.next)
    (established : establishRows cfg uninit client opening todo = .ok opened) :
    Opened cfg base client (done ++ todo) opened := by
  induction todo generalizing done opening with
  | nil =>
      cases established
      simpa using before
  | cons row todo ih =>
      simp only [establishRows] at established
      split at established
      next first moved =>
        have after : Opened cfg base client (done ++ [row]) first := by
          rcases establishRow_cases moved with
            ⟨serves, notSlave, rfl⟩ | ⟨notServer, slave, rfl⟩ | ⟨notServer, notSlave, rfl⟩
          · exact before.addServer bound serves notSlave
          · exact before.addSlave bound notServer slave
          · exact before.skip notServer notSlave
        simpa using ih after established
      next => cases established

/-- The loop lists every slave link it opens. -/
theorem establishRows_replicas {opened : Opening} {todo : List DumbNode} {low : LinkPtr}
    (bound : client < low)
    (listed : ∀ ptr, low ≤ ptr → ptr < opening.proxy.next →
      (opening.proxy.links ptr).nwFunc = .replica → ptr ∈ opening.slaves)
    (established : establishRows cfg uninit client opening todo = .ok opened) :
    ∀ ptr, low ≤ ptr → ptr < opened.proxy.next →
      (opened.proxy.links ptr).nwFunc = .replica → ptr ∈ opened.slaves := by
  induction todo generalizing opening with
  | nil =>
      cases established
      exact listed
  | cons row todo ih =>
      simp only [establishRows] at established
      split at established
      next middle moved =>
        refine ih ?_ established
        intro ptr above below isReplica
        have notClient : ptr ≠ client := by lia
        rcases establishRow_cases moved with ⟨_, _, rfl⟩ | ⟨_, _, rfl⟩ | ⟨_, _, rfl⟩
        · change ptr < opening.proxy.next + 1 at below
          by_cases new : ptr = opening.proxy.next
          · subst new
            simp [Opening.server, setServerConn, modify, alloc, notClient, Config.serverLink,
              serverInfo] at isReplica
          · simp only [Opening.server, setServerConn, modify, alloc,
              Function.update_of_ne notClient, Function.update_of_ne new] at isReplica
            exact listed ptr above (by lia) isReplica
        · change ptr < opening.proxy.next + 1 at below
          by_cases new : ptr = opening.proxy.next
          · simp [Opening.slave, new]
          · simp only [Opening.slave, alloc, Function.update_of_ne new] at isReplica
            exact List.mem_append_left _ (listed ptr above (by lia) isReplica)
        · exact listed ptr above below isReplica
      · cases established

end Loop

end Proxy

/-! ## Proxies made of sessions -/

/-- A session as a proxy of the given shape has set it up. -/
structure Session.Established (cfg : Config) (shape : Shape) (session : Session) : Prop where
  bounded : ∀ ptr ∈ session.links, ptr < shape.next
  client : shape.info session.client =
    { isClient := true, nwFunc := .request, dataletConn := session.server }
  server : ∀ ptr, session.server = some ptr →
    ∃ addr, (cfg.serverAddrs cfg.dumbMap.rows).getLast? = some addr ∧
      shape.info ptr = cfg.serverLink addr
  serverless : session.server = none → cfg.serverAddrs cfg.dumbMap.rows = []
  slaves : session.slaves.length = (cfg.slaveAddrs cfg.dumbMap.rows).length
  slave : ∀ (j : Nat) (ptr : LinkPtr), session.slaves[j]? = some ptr →
    ∃ addr, (cfg.slaveAddrs cfg.dumbMap.rows)[j]? = some addr ∧
      shape.info ptr = Proxy.slaveInfo addr j

namespace Session

theorem client_mem (session : Session) : session.client ∈ session.links :=
  List.mem_cons_self

theorem server_mem {session : Session} {ptr : LinkPtr} (server : session.server = some ptr) :
    ptr ∈ session.links := by
  simp [links, server]

theorem slave_mem {session : Session} {ptr : LinkPtr} (slave : ptr ∈ session.slaves) :
    ptr ∈ session.links := by
  simp [links, slave]

/-- A session stays established while links are only added. -/
theorem Established.mono {cfg : Config} {shape later : Shape} {session : Session}
    (established : session.Established cfg shape) (next : shape.next ≤ later.next)
    (same : ∀ ptr, ptr < shape.next → later.info ptr = shape.info ptr) :
    session.Established cfg later where
  bounded := fun ptr member => Nat.lt_of_lt_of_le (established.bounded ptr member) next
  client := by
    rw [same _ (established.bounded _ session.client_mem)]
    exact established.client
  server := by
    intro ptr server
    rw [same _ (established.bounded _ (server_mem server))]
    exact established.server ptr server
  serverless := established.serverless
  slaves := established.slaves
  slave := by
    intro j ptr place
    rw [same _ (established.bounded _ (slave_mem (List.mem_of_getElem? place)))]
    exact established.slave j ptr place

end Session

/-- The links of a proxy are those of its sessions, one session for every client, and
`msMap` lists the sessions where the mode keeps it. -/
structure Wired (cfg : Config) (shape : Shape) (sessions : List Session) : Prop where
  msMap : shape.msMap = if Proxy.indexesSlaves cfg then
    sessions.map fun session => (session.server, session.slaves) else []
  nodup : (sessions.flatMap Session.links).Nodup
  established : ∀ session ∈ sessions, session.Established cfg shape
  clients : ∀ ptr, (shape.info ptr).nwFunc = .request →
    ∃ session ∈ sessions, session.client = ptr

/-- Nothing has passed through a link. -/
structure Traffic.Quiet (traffic : Traffic) (ptr : LinkPtr) : Prop where
  imsgQ : traffic.imsgQ ptr = []
  omsgQ : traffic.omsgQ ptr = []
  wire : traffic.wire ptr = {}
  received : traffic.received ptr = []
  delivered : traffic.delivered ptr = []

theorem Wired.init (cfg : Config) (pid : Nat) :
    Wired cfg ({ pid := pid } : Proxy).shape [] where
  msMap := by simp [Proxy.shape]
  nodup := by simp
  established := by simp
  clients := by simp [Proxy.shape]

/-- What connecting a client changes: the links of one new session. -/
structure Accepted (cfg : Config) (before after : Proxy) (session : Session) : Prop where
  client : session.client = before.next
  range : ∀ ptr ∈ session.links, before.next ≤ ptr ∧ ptr < after.next
  nodup : session.links.Nodup
  frame : after = { before with
    links := after.links, next := after.next, msMap := after.msMap, fdes := after.fdes }
  msMap : after.msMap = before.msMap ++
    if Proxy.indexesSlaves cfg then [(session.server, session.slaves)] else []
  next : before.next ≤ after.next
  same : ∀ ptr, ptr < before.next ∨ after.next ≤ ptr → after.links ptr = before.links ptr
  empty : ∀ ptr, before.next ≤ ptr → ptr < after.next →
    (after.links ptr).imsgQ = [] ∧ (after.links ptr).omsgQ = [] ∧
      (after.links ptr).error = false
  others : ∀ ptr, before.next < ptr → ptr < after.next → (after.links ptr).nwFunc ≠ .request
  fdes : ∀ ptr, ptr ≠ before.next → after.fdes ptr = before.fdes ptr
  established : session.Established cfg after.shape

section Accept

variable {cfg : Config} {proxy after : Proxy} {uninit : LinkPtr → Uninit}
variable {sessions : List Session}

/-- The client link before its datalet links are opened. -/
private theorem alloc_client (proxy : Proxy) (uninit : LinkPtr → Uninit) :
    (proxy.alloc uninit { isServer := true, isClient := true }).links proxy.next =
      { toLinkInfo := { isServer := true, isClient := true }
        fwdToReplicas := (uninit proxy.next).fwdToReplicas
        tail := (uninit proxy.next).tail } := by
  simp [Proxy.alloc]

/-- The proxy after `accept`, in terms of the loop over the table. -/
theorem acceptClient_established (accepted : proxy.acceptClient cfg uninit = .ok after) :
    ∃ opening : Proxy.Opening,
      Proxy.establishRows cfg uninit proxy.next
        { proxy := proxy.alloc uninit { isServer := true, isClient := true } }
        cfg.dumbMap.rows = .ok opening ∧
      after = Proxy.setIn
        (Proxy.modify
          { opening.proxy with
            msMap := if Proxy.indexesSlaves cfg then
              opening.proxy.msMap ++ [(opening.master, opening.slaves)]
              else opening.proxy.msMap }
          proxy.next fun link => { link with isServer := false, nwFunc := .request })
        proxy.next := by
  simp only [Proxy.acceptClient, Proxy.establishServerConnEach] at accepted
  split at accepted
  next established found =>
    split at found
    next opening loop =>
      refine ⟨opening, loop, ?_⟩
      cases accepted
      cases found
      split <;> rfl
    next => cases found
  next => cases accepted

/-- What the loop over the table did. -/
theorem Proxy.Opened.of_establishRows {opening : Proxy.Opening}
    (loop : Proxy.establishRows cfg uninit proxy.next
      { proxy := proxy.alloc uninit { isServer := true, isClient := true } }
      cfg.dumbMap.rows = .ok opening) :
    Proxy.Opened cfg (proxy.alloc uninit { isServer := true, isClient := true }) proxy.next
      cfg.dumbMap.rows opening := by
  have start : Proxy.Opened cfg
      (proxy.alloc uninit { isServer := true, isClient := true }) proxy.next []
      { proxy := proxy.alloc uninit { isServer := true, isClient := true } } :=
    .start (by rw [alloc_client])
  simpa using start.run (Nat.lt_succ_self proxy.next) loop

/-- The links the loop opened form a session. -/
theorem Proxy.Opened.established {base : Proxy} {client : LinkPtr}
    {opening : Proxy.Opening} {shape : Shape}
    (opened : Proxy.Opened cfg base client cfg.dumbMap.rows opening)
    (bound : client < base.next)
    (base_info : (base.links client).toLinkInfo = { isServer := true, isClient := true })
    (next : shape.next = opening.proxy.next)
    (client_info : shape.info client =
      { (opening.proxy.links client).toLinkInfo with
        isServer := false, nwFunc := .request })
    (others : ∀ ptr, ptr ≠ client →
      shape.info ptr = (opening.proxy.links ptr).toLinkInfo) :
    Session.Established cfg shape
      ⟨client, (opening.proxy.links client).dataletConn, opening.slaves⟩ where
  bounded := by
    intro ptr member
    rw [next]
    simp only [Session.links, List.mem_cons, List.mem_append, Option.mem_toList] at member
    rcases member with rfl | server | slave
    · exact Nat.lt_of_lt_of_le bound opened.grows
    · exact (opened.server ptr server).2.1
    · exact (opened.slaves_mem slave).2
  client := by
    have info := congrArg Link.toLinkInfo opened.clientLink
    simp only [base_info] at info
    rw [client_info, info]
  server := by
    intro ptr assigned
    obtain ⟨low, _, addr, listed, info⟩ := opened.server ptr assigned
    rw [others ptr (Nat.ne_of_gt (Nat.lt_of_lt_of_le bound low))]
    exact ⟨addr, listed, info⟩
  serverless := opened.serverless
  slaves := opened.slaves
  slave := by
    intro j ptr place
    obtain ⟨low, _, addr, listed, info⟩ := opened.slave j ptr place
    rw [others ptr (Nat.ne_of_gt (Nat.lt_of_lt_of_le bound low))]
    exact ⟨addr, listed, info⟩

theorem indexesSlaves_topology (indexes : Proxy.indexesSlaves cfg = true) :
    cfg.topology ≠ .slave := by
  intro slave
  simp [Proxy.indexesSlaves, Config.aaStrong, slave] at indexes

theorem acceptClient_accepted (accepted : proxy.acceptClient cfg uninit = .ok after) :
    ∃ session, Accepted cfg proxy after session := by
  obtain ⟨opening, loop, rfl⟩ := acceptClient_established accepted
  have opened := Proxy.Opened.of_establishRows loop
  have grows : proxy.next + 1 ≤ opening.proxy.next := opened.grows
  have clientLink := opened.clientLink
  rw [alloc_client] at clientLink
  have elsewhere : ∀ ptr, ptr ≠ proxy.next →
      (proxy.alloc uninit { isServer := true, isClient := true }).links ptr =
        proxy.links ptr := by
    intro ptr different
    simp [Proxy.alloc, different]
  let session : Session :=
    ⟨proxy.next, (opening.proxy.links proxy.next).dataletConn, opening.slaves⟩
  have low : ∀ ptr ∈ session.server.toList ++ session.slaves,
      proxy.next + 1 ≤ ptr ∧ ptr < opening.proxy.next := by
    intro ptr member
    rcases List.mem_append.mp member with server | slave
    · obtain ⟨low, high, _⟩ := opened.server ptr (Option.mem_toList.mp server)
      exact ⟨low, high⟩
    · exact opened.slaves_mem slave
  refine ⟨session, rfl, ?_, ?_, ?_, ?_, ?_, ?_, ?_, ?_, ?_, ?_⟩
  · intro ptr member
    rcases List.mem_cons.mp member with rfl | backend
    · exact ⟨le_rfl, grows⟩
    · exact ⟨Nat.le_of_succ_le (low ptr backend).1, (low ptr backend).2⟩
  · refine List.nodup_cons.mpr ⟨fun member => ?_, opened.nodup⟩
    exact Nat.not_succ_le_self _ (low _ member).1
  · have frame := opened.frame
    simp only [Proxy.modify, Proxy.setIn]
    rw [frame]
    rfl
  · have frame := congrArg Proxy.msMap opened.frame
    change (if _ then _ else _) = _
    by_cases indexes : Proxy.indexesSlaves cfg = true
    · rw [if_pos indexes, if_pos indexes, frame,
        opened.key (indexesSlaves_topology indexes)]
      rfl
    · rw [if_neg indexes, if_neg indexes, List.append_nil, frame]
      rfl
  · exact Nat.le_of_succ_le grows
  · intro ptr range
    have different : ptr ≠ proxy.next := by
      rcases range with small | large
      · exact Nat.ne_of_lt small
      · exact Nat.ne_of_gt (Nat.lt_of_lt_of_le grows large)
    simp only [Proxy.modify, Proxy.setIn, Function.update_of_ne different]
    rw [opened.old ptr different (range.imp_left Nat.lt_succ_of_lt), elsewhere ptr different]
  · intro ptr start stop
    by_cases isClient : ptr = proxy.next
    · subst isClient
      simp only [Proxy.modify, Proxy.setIn, Function.update_self]
      rw [clientLink]
      exact ⟨rfl, rfl, rfl⟩
    · simp only [Proxy.modify, Proxy.setIn, Function.update_of_ne isClient]
      have blank := opened.blank ptr (Nat.lt_of_le_of_ne start (Ne.symm isClient)) stop
      exact ⟨blank.imsgQ, blank.omsgQ, blank.error⟩
  · intro ptr start stop
    simp only [Proxy.modify, Proxy.setIn, Function.update_of_ne (Nat.ne_of_gt start)]
    exact (opened.blank ptr start stop).nwFunc
  · intro ptr different
    have fdes := congrArg Proxy.fdes opened.frame
    simp only [Proxy.modify, Proxy.setIn, Function.update_of_ne different]
    exact congrFun fdes ptr
  · refine opened.established (Nat.lt_succ_self proxy.next) (by rw [alloc_client]) rfl ?_ ?_
    · simp [Proxy.shape, Proxy.modify, Proxy.setIn]
    · intro ptr different
      simp [Proxy.shape, Proxy.modify, Proxy.setIn, different]

/-- A new link with the handlers of a slave belongs to the new session. -/
theorem Accepted.replicas {session : Session} (accepted : Accepted cfg proxy after session)
    (connected : proxy.acceptClient cfg uninit = .ok after)
    (indexes : Proxy.indexesSlaves cfg = true) {ptr : LinkPtr} (low : proxy.next ≤ ptr)
    (high : ptr < after.next) (isReplica : (after.links ptr).nwFunc = .replica) :
    ptr ∈ session.slaves := by
  have msMap := accepted.msMap
  obtain ⟨opening, loop, rfl⟩ := acceptClient_established connected
  have before : opening.proxy.msMap = proxy.msMap :=
    (congrArg Proxy.msMap (Proxy.Opened.of_establishRows loop).frame).trans rfl
  have slaves : opening.slaves = session.slaves := by
    simp only [Proxy.setIn, Proxy.modify, if_pos indexes, before] at msMap
    have entries := List.append_cancel_left msMap
    exact congrArg Prod.snd (List.singleton_inj.mp entries)
  have notClient : ptr ≠ proxy.next := by
    rintro rfl
    simp [Proxy.setIn, Proxy.modify] at isReplica
  simp only [Proxy.setIn, Proxy.modify, Function.update_of_ne notClient] at isReplica
  rw [← slaves]
  refine Proxy.establishRows_replicas (Nat.lt_succ_self proxy.next) ?_ loop ptr
    (Nat.lt_of_le_of_ne low notClient.symm) high isReplica
  exact fun _ above below => absurd below (Nat.not_lt.mpr above)

/-- Connecting a client keeps a proxy made of sessions. -/
theorem Accepted.wired {session : Session} (accepted : Accepted cfg proxy after session)
    (wired : Wired cfg proxy.shape sessions) :
    Wired cfg after.shape (sessions ++ [session]) where
  msMap := by
    have before := wired.msMap
    change proxy.msMap = _ at before
    change after.msMap = _
    rw [accepted.msMap, before]
    by_cases indexes : Proxy.indexesSlaves cfg = true <;> simp [indexes]
  nodup := by
    rw [List.flatMap_append, List.nodup_append]
    refine ⟨wired.nodup, by simpa using accepted.nodup, ?_⟩
    intro old oldMember new newMember same
    obtain ⟨owner, member, inside⟩ := List.mem_flatMap.mp oldMember
    have small := (wired.established owner member).bounded old inside
    have large := (accepted.range new (by simpa using newMember)).1
    subst same
    exact Nat.lt_irrefl _ (Nat.lt_of_lt_of_le small large)
  established := by
    intro other member
    rcases List.mem_append.mp member with old | new
    · exact (wired.established other old).mono accepted.next fun ptr small =>
        congrArg Link.toLinkInfo (accepted.same ptr (.inl small))
    · rw [List.mem_singleton.mp new]
      exact accepted.established
  clients := by
    intro ptr isRequest
    by_cases outside : ptr < proxy.next ∨ after.next ≤ ptr
    · have info : (proxy.shape.info ptr).nwFunc = .request := by
        rw [← isRequest]
        exact congrArg (fun link => link.nwFunc) (accepted.same ptr outside).symm
      obtain ⟨owner, member, owns⟩ := wired.clients ptr info
      exact ⟨owner, List.mem_append_left _ member, owns⟩
    · have inside : proxy.next ≤ ptr ∧ ptr < after.next := by lia
      refine ⟨session, by simp, ?_⟩
      rw [accepted.client]
      by_contra different
      exact accepted.others ptr (Nat.lt_of_le_of_ne inside.1 different) inside.2 isRequest

/-- Connecting a client moves no message. -/
theorem Accepted.traffic_eq {session : Session}
    (accepted : Accepted cfg proxy after session)
    (quiet : ∀ ptr, proxy.next ≤ ptr → proxy.traffic.Quiet ptr) :
    after.traffic = proxy.traffic := by
  have same : ∀ ptr, (after.links ptr).imsgQ = (proxy.links ptr).imsgQ ∧
      (after.links ptr).omsgQ = (proxy.links ptr).omsgQ := by
    intro ptr
    by_cases outside : ptr < proxy.next ∨ after.next ≤ ptr
    · simp [accepted.same ptr outside]
    · have inside : proxy.next ≤ ptr ∧ ptr < after.next := by lia
      obtain ⟨imsgQ, omsgQ, _⟩ := accepted.empty ptr inside.1 inside.2
      have before := quiet ptr inside.1
      exact ⟨imsgQ.trans before.imsgQ.symm, omsgQ.trans before.omsgQ.symm⟩
  have frame := accepted.frame
  ext1
  · exact funext fun ptr => (same ptr).1
  · exact funext fun ptr => (same ptr).2
  all_goals
    rw [frame]
    rfl

end Accept

/-! ## Scans of `msMap` -/

namespace Wired

variable {cfg : Config} {proxy : Proxy} {sessions : List Session} {session : Session}

/-- A scan stops at the only entry that satisfies its condition. -/
private theorem find?_unique {α : Type} {items : List α} {test : α → Bool} {item : α}
    (member : item ∈ items) (holds : test item = true)
    (unique : ∀ other ∈ items, test other = true → other = item) :
    items.find? test = some item := by
  cases found : items.find? test with
  | none =>
      have fails := List.find?_eq_none.mp found item member
      exact absurd holds fails
  | some other =>
      rw [unique other (List.mem_of_find?_eq_some found) (List.find?_some found)]

/-- Sessions that share a link are the same. -/
theorem session_unique {shape : Shape} (wired : Wired cfg shape sessions) {other : Session}
    {ptr : LinkPtr} (member : session ∈ sessions) (otherMember : other ∈ sessions)
    (inside : ptr ∈ session.links) (otherInside : ptr ∈ other.links) : other = session := by
  by_contra different
  have symmetric : Std.Symm (Function.onFun List.Disjoint Session.links) :=
    ⟨fun _ _ disjoint _ left right => disjoint right left⟩
  have apart := (List.nodup_flatMap.mp wired.nodup).2.forall otherMember member different
  exact apart otherInside inside

theorem links_nodup {shape : Shape} (wired : Wired cfg shape sessions)
    (member : session ∈ sessions) : session.links.Nodup :=
  (List.nodup_flatMap.mp wired.nodup).1 session member

section Scans

variable (wired : Wired cfg proxy.shape sessions) (indexes : Proxy.indexesSlaves cfg = true)
include wired indexes

private theorem entry_mem (member : session ∈ sessions) :
    (session.server, session.slaves) ∈ proxy.msMap := by
  have entries := wired.msMap
  rw [if_pos indexes] at entries
  change proxy.msMap = _ at entries
  rw [entries]
  exact List.mem_map_of_mem member

private theorem entry_cases {entry : Option LinkPtr × List LinkPtr}
    (listed : entry ∈ proxy.msMap) :
    ∃ session ∈ sessions, entry = (session.server, session.slaves) := by
  have entries := wired.msMap
  rw [if_pos indexes] at entries
  change proxy.msMap = _ at entries
  rw [entries] at listed
  obtain ⟨session, member, rfl⟩ := List.mem_map.mp listed
  exact ⟨session, member, rfl⟩

/-- The entry that `get_slaves` and `get_slave_number` find for a master link. -/
theorem find?_master (member : session ∈ sessions) {master : LinkPtr}
    (server : session.server = some master) :
    proxy.msMap.find? (fun entry => entry.1 = some master) =
      some (session.server, session.slaves) := by
  refine find?_unique (wired.entry_mem indexes member) (by simp [server]) ?_
  intro entry listed matched
  obtain ⟨other, otherMember, rfl⟩ := wired.entry_cases indexes listed
  rw [wired.session_unique member otherMember (Session.server_mem server)
    (Session.server_mem (of_decide_eq_true matched))]

/-- `get_slaves` on the master link of a session. -/
theorem getSlaves_eq (member : session ∈ sessions) {master : LinkPtr}
    (server : session.server = some master) : proxy.getSlaves master = session.slaves := by
  rw [Proxy.getSlaves, wired.find?_master indexes member server]

/-- `get_slave_number` on the master link of a session. -/
theorem getSlaveNumber_eq (member : session ∈ sessions) {master slave : LinkPtr}
    (server : session.server = some master) {number : Nat}
    (place : session.slaves[number]? = some slave) :
    proxy.getSlaveNumber master number = .ok (some slave) := by
  rw [Proxy.getSlaveNumber, wired.find?_master indexes member server]
  have small : ¬(number : Int) < 0 := by omega
  simp [small, place]

/-- `get_master_of_slave` on a slave link of a session. -/
theorem getMasterOfSlave_eq (member : session ∈ sessions) {slave : LinkPtr}
    (listed : slave ∈ session.slaves) : proxy.getMasterOfSlave slave = session.server := by
  have found : proxy.msMap.find? (fun entry => slave ∈ entry.2) =
      some (session.server, session.slaves) := by
    refine find?_unique (wired.entry_mem indexes member) (by simp [listed]) ?_
    intro entry inMap matched
    obtain ⟨other, otherMember, rfl⟩ := wired.entry_cases indexes inMap
    rw [wired.session_unique member otherMember (Session.slave_mem listed)
      (Session.slave_mem (of_decide_eq_true matched))]
  rw [Proxy.getMasterOfSlave, found]

end Scans

/-! Whatever a scan finds belongs to the session it started from. -/

section Inside

variable (wired : Wired cfg proxy.shape sessions)
include wired

private theorem entry_of_mem {entry : Option LinkPtr × List LinkPtr}
    (listed : entry ∈ proxy.msMap) :
    ∃ session ∈ sessions, entry = (session.server, session.slaves) := by
  by_cases indexes : Proxy.indexesSlaves cfg = true
  · exact wired.entry_cases indexes listed
  · have entries : proxy.msMap = [] := by simpa [indexes, Proxy.shape] using wired.msMap
    simp [entries] at listed

private theorem entry_of_master {entry : Option LinkPtr × List LinkPtr} {ptr : LinkPtr}
    (member : session ∈ sessions) (inside : ptr ∈ session.links)
    (found : proxy.msMap.find? (fun entry => entry.1 = some ptr) = some entry) :
    entry = (session.server, session.slaves) := by
  obtain ⟨other, otherMember, rfl⟩ := wired.entry_of_mem (List.mem_of_find?_eq_some found)
  have server : other.server = some ptr := by simpa using List.find?_some found
  rw [wired.session_unique member otherMember inside (Session.server_mem server)]

theorem mem_of_getSlaves {ptr slave : LinkPtr} (member : session ∈ sessions)
    (inside : ptr ∈ session.links) (listed : slave ∈ proxy.getSlaves ptr) :
    slave ∈ session.slaves := by
  unfold Proxy.getSlaves at listed
  split at listed
  next entry found =>
    rw [wired.entry_of_master member inside found] at listed
    exact listed
  · cases listed

theorem mem_of_getSlaveNumber {ptr slave : LinkPtr} {number : Int}
    (member : session ∈ sessions) (inside : ptr ∈ session.links)
    (numbered : proxy.getSlaveNumber ptr number = .ok (some slave)) :
    slave ∈ session.slaves := by
  unfold Proxy.getSlaveNumber at numbered
  split at numbered
  next entry found =>
    rw [wired.entry_of_master member inside found] at numbered
    split at numbered
    · cases numbered
    · split at numbered
      next slave place =>
        cases numbered
        exact List.mem_of_getElem? place
      · cases numbered
  · cases numbered

theorem server_of_getMasterOfSlave {ptr master : LinkPtr} (member : session ∈ sessions)
    (inside : ptr ∈ session.links) (found : proxy.getMasterOfSlave ptr = some master) :
    session.server = some master := by
  unfold Proxy.getMasterOfSlave at found
  split at found
  next entry scanned =>
    obtain ⟨other, otherMember, rfl⟩ := wired.entry_of_mem (List.mem_of_find?_eq_some scanned)
    have slave : ptr ∈ other.slaves := by simpa using List.find?_some scanned
    rw [wired.session_unique member otherMember inside (Session.slave_mem slave)] at found
    exact found
  · cases found

end Inside

end Wired

end BespoKV
