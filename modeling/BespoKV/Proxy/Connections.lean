import BespoKV.Proxy.Types

/-!
# Connection set-up and the master/slave index

`establish_server_conn_each` opens the datalet links of a new client and appends one
entry to `msMap`; `get_slaves`, `get_slave_number` and `get_master_of_slave` scan it
(`net.cpp`).  Connecting never fails here.
-/

namespace BespoKV

namespace Proxy

/-! ## Scans of `msMap` -/

/-- `get_slaves`: the slaves of the first entry whose master is `master`. -/
def getSlaves (proxy : Proxy) (master : LinkPtr) : List LinkPtr :=
  match proxy.msMap.find? fun entry => entry.1 = some master with
  | some entry => entry.2
  | none => []

/-- `get_slave_number`: `.ok none` is the null pointer; `vector::at` throws when the
index, converted to `size_t`, is out of bounds. -/
def getSlaveNumber (proxy : Proxy) (master : LinkPtr) (number : Int) :
    Except Fault (Option LinkPtr) :=
  match proxy.msMap.find? fun entry => entry.1 = some master with
  | some entry =>
      if number < 0 then
        .error .outOfRange
      else
        match entry.2[number.toNat]? with
        | some slave => .ok (some slave)
        | none => .error .outOfRange
  | none => .ok none

/-- `get_master_of_slave`: the master of the first entry that lists `slave`. -/
def getMasterOfSlave (proxy : Proxy) (slave : LinkPtr) : Option LinkPtr :=
  match proxy.msMap.find? fun entry => slave ∈ entry.2 with
  | some entry => entry.1
  | none => none

/-! ## Opening links -/

/-- `new Link()` followed by the assignments of the set-up code. -/
def alloc (proxy : Proxy) (uninit : LinkPtr → Uninit) (info : LinkInfo) : Proxy :=
  { proxy with
    next := proxy.next + 1
    links := Function.update proxy.links proxy.next
      { toLinkInfo := info
        fwdToReplicas := (uninit proxy.next).fwdToReplicas
        tail := (uninit proxy.next).tail } }

/-- A link to the datalet a client's requests go to. -/
def serverInfo (addr : AddrType) : LinkInfo :=
  { isServer := true, isMaster := true, slaveNumber := -1, nwFunc := .response
    peer := some addr }

/-- A link to a slave datalet, the `number`-th of its client. -/
def slaveInfo (addr : AddrType) (number : Nat) : LinkInfo :=
  { isServer := true, slaveNumber := number, nwFunc := .replica, peer := some addr }

/-- `c_conn->set_server_conn(server_conn)` -/
def setServerConn (proxy : Proxy) (client server : LinkPtr) : Proxy :=
  proxy.modify client fun link => { link with dataletConn := some server }

/-- The locals of `establish_server_conn_each`: `pair` and `s_number`. -/
structure Opening where
  proxy : Proxy
  master : Option LinkPtr := none
  slaves : List LinkPtr := []

/-- The branch for a datalet the client's requests go to; `isKey` says whether the
link becomes the key of `pair`. -/
def Opening.server (opening : Opening) (uninit : LinkPtr → Uninit) (client : LinkPtr)
    (info : LinkInfo) (isKey : Bool) : Opening :=
  let ptr := opening.proxy.next
  { opening with
    proxy := (opening.proxy.alloc uninit info).setServerConn client ptr
    master := if isKey then some ptr else opening.master }

/-- The branch for a slave datalet; `s_number` counts the slaves opened so far. -/
def Opening.slave (opening : Opening) (uninit : LinkPtr → Uninit) (addr : AddrType) :
    Opening :=
  { opening with
    proxy := opening.proxy.alloc uninit (slaveInfo addr opening.slaves.length)
    slaves := opening.slaves ++ [opening.proxy.next] }

/-- One iteration of the loop of `establish_server_conn_each`. -/
def establishRow (cfg : Config) (uninit : LinkPtr → Uninit) (client : LinkPtr)
    (opening : Opening) (row : DumbNode) : Except Fault Opening :=
  let server := serverInfo row.addr
  match cfg.topology with
  | .ms =>
      match row.role with
      | .master => .ok (opening.server uninit client { server with kproducer := true } true)
      | .slave => .ok (opening.slave uninit row.addr)
  | .slave => .ok (opening.server uninit client server false)
  | .aa =>
      match cfg.consistencyModel, row.role with
      | .eventual, .master | .strong, .master =>
          .ok (opening.server uninit client { server with kproducer := true } true)
      | .eventual, .slave => .error .check
      | .strong, .slave => .ok (opening.slave uninit row.addr)
      | .without, _ => .ok opening
  | .no => .ok (opening.server uninit client { server with kproducer := true } true)

/-- The loop of `establish_server_conn_each` over the rows of the table. -/
def establishRows (cfg : Config) (uninit : LinkPtr → Uninit) (client : LinkPtr) :
    Opening → List DumbNode → Except Fault Opening
  | opening, [] => .ok opening
  | opening, row :: rows =>
      match establishRow cfg uninit client opening row with
      | .ok opened => establishRows cfg uninit client opened rows
      | .error fault => .error fault

/-- `ms_map` gets an entry for every new client in these modes. -/
def indexesSlaves (cfg : Config) : Bool :=
  cfg.topology = .ms || cfg.aaStrong

/-- `establish_server_conn_each` -/
def establishServerConnEach (cfg : Config) (proxy : Proxy) (uninit : LinkPtr → Uninit)
    (client : LinkPtr) : Except Fault Proxy :=
  match establishRows cfg uninit client { proxy } cfg.dumbMap.rows with
  | .ok opened =>
      .ok (if indexesSlaves cfg then
        { opened.proxy with
          msMap := opened.proxy.msMap ++ [(opened.master, opened.slaves)] }
      else
        opened.proxy)
  | .error fault => .error fault

/-- The listening branch of `batch_loop`: `get_client_conn`,
`establish_server_conn_each`, `accept_conn` and the subscription to requests. -/
def acceptClient (cfg : Config) (proxy : Proxy) (uninit : LinkPtr → Uninit) :
    Except Fault Proxy :=
  let client := proxy.next
  let opened := proxy.alloc uninit { isServer := true, isClient := true }
  match establishServerConnEach cfg opened uninit client with
  | .ok established =>
      .ok ((established.modify client fun link =>
        { link with isServer := false, nwFunc := .request }).setIn client)
  | .error fault => .error fault

end Proxy

end BespoKV
