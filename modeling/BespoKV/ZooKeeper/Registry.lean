import BespoKV.Library.Znodes
import BespoKV.Wire.Format

/-!
# What the proxies register

When a proxy starts, `main` describes it in ZooKeeper: its datalet and its role, its shard, its
heartbeat and, for a master, its chain; later the event loop counts its heartbeat up.  A path
`"/pm/" + proxy` is the list of its names, which hold no slash.  A node is created unless it is
there, and `Set` is two calls, `Stat` and `zoo_set` with the version that was seen.  The proxies
of a deployment run side by side, and each may be started again at any time.
-/

namespace BespoKV.Registry

open Transition Wire Znodes

abbrev Program := List (Op Bytes Bytes)

/-! ## The trees -/

/-- The trees that `main` lists. -/
inductive Root where
  /-- proxy to datalet, with the role -/
  | physicalMap
  /-- datalet, with the role, to proxy -/
  | reversePhysicalMap
  /-- proxy to shard -/
  | shardInfo
  /-- shard to proxies -/
  | shardTop
  /-- proxy, with the count of its beats -/
  | heartBeat
  /-- master to slaves -/
  | chain
  deriving DecidableEq, Repr

def Root.name : Root → Bytes
  | physicalMap => text "pm"
  | reversePhysicalMap => text "rpm"
  | shardInfo => text "si"
  | shardTop => text "st"
  | heartBeat => text "hb"
  | chain => text "msc"

/-- `master ? "master" : "slave"` -/
def roleName (master : Bool) : Bytes := if master then text "master" else text "slave"

def setPhysicalMap (proxy datalet : AddrType) (master : Bool) : Program :=
  let pm := Root.physicalMap.name
  [.create [pm] [], .create [pm, proxy] [],
    .create [pm, proxy, datalet] (roleName master), .set [pm, proxy, datalet] (roleName master)]

def setReversePhysicalMap (proxy datalet : AddrType) (master : Bool) : Program :=
  let rpm := Root.reversePhysicalMap.name
  [.create [rpm] [], .create [rpm, datalet] [], .set [rpm, datalet] (roleName master),
    .create [rpm, datalet, proxy] []]

def setShardInfo (proxy : AddrType) (shard : Bytes) : Program :=
  let si := Root.shardInfo.name
  [.create [si] [], .create [si, proxy] [], .create [si, proxy, shard] []]

def setShardTop (proxy : AddrType) (shard : Bytes) : Program :=
  let st := Root.shardTop.name
  [.create [st] [], .create [st, shard] [], .create [st, shard, proxy] []]

def setHeartBeat (proxy : AddrType) (counter : Bytes) : Program :=
  let hb := Root.heartBeat.name
  [.create [hb] [], .create [hb, proxy] [], .set [hb, proxy] counter]

def registerHeartBeat (proxy : AddrType) : Program := setHeartBeat proxy (text "0")

def setChain (master : AddrType) (slaves : List AddrType) : Program :=
  let msc := Root.chain.name
  .create [msc] [] :: .create [msc, master] [] ::
    slaves.map fun slave => .create [msc, master, slave] []

/-! ## The start of a proxy -/

/-- A proxy: `FLAGS_proxyAddr` with the client port, `kafka_topic` and the configuration. -/
structure Member where
  self : AddrType
  topic : Bytes
  cfg : Config

/-- What `main` does before the event loop. -/
structure Launch where
  /-- the datalets it registers, in order, with their roles -/
  datalets : List (AddrType × Bool) := []
  /-- `chain`, where there is one -/
  chain : Option (AddrType × List AddrType) := none
  /-- it calls `SetPhysicalMap` with empty names -/
  nameless : Bool := false
  /-- a `CHECK` fails -/
  aborts : Bool := false

namespace Launch

/-- One datalet, or none where the table has no row for it. -/
def one (addr : Option AddrType) (master : Bool) : Launch :=
  match addr with
  | some addr => { datalets := [(addr, master)] }
  | none => { nameless := true }

/-- The loops that register each row, and stop at a slave. -/
def each (rows : List DumbNode) : Launch where
  datalets := (rows.takeWhile fun row => row.role = .master).map fun row => (row.addr, true)
  aborts := rows.any fun row => row.role ≠ .master

/-- It reaches the event loop. -/
def reaches (launch : Launch) : Bool := !launch.nameless && !launch.aborts

end Launch

namespace Member

/-- The branches of `main`; where a loop overwrites `physical_map`, the last row counts. -/
def launch (member : Member) : Launch :=
  let master := (member.cfg.addrs .master).getLast?
  match member.cfg.topology, member.cfg.consistencyModel with
  | .ms, _ =>
      { Launch.one master true with
        chain := master.map fun addr => (addr, member.cfg.addrs .slave) }
  | .slave, _ =>
      if member.cfg.dumbMap.rows.length < 2 then
        .one (member.cfg.addrs .slave).getLast? false
      else { aborts := true }
  | .aa, .eventual => .each member.cfg.dumbMap.rows
  | .aa, .strong => .one master true
  | .aa, .without => {}
  | .no, _ => .each member.cfg.dumbMap.rows

/-- The five calls for one datalet. -/
def enroll (member : Member) (datalet : AddrType × Bool) : Program :=
  setPhysicalMap member.self datalet.1 datalet.2 ++
    setReversePhysicalMap member.self datalet.1 datalet.2 ++
    setShardInfo member.self member.topic ++ setShardTop member.self member.topic ++
    registerHeartBeat member.self

/-- `SetPhysicalMap` with empty names: `"/pm/"` is no path. -/
def setNothing : Program := [.create [Root.physicalMap.name] [], .invalid]

/-- The calls of `batch_loop`, for a number of beats.  Without a datalet `physical_map` is empty,
and the first beat comes to `"/hb/"`, which is no path. -/
def beat (member : Member) (beats : Nat) : Program :=
  if member.launch.datalets = [] then
    if beats = 0 then [] else [.create [Root.heartBeat.name] [], .invalid]
  else
    (List.range beats).flatMap fun n => setHeartBeat member.self (text (toString (n + 1)))

/-- What a proxy does, from its start to its last beat. -/
def program (member : Member) (beats : Nat) : Program :=
  member.launch.datalets.flatMap member.enroll ++
    ((member.launch.chain.elim [] fun chain => setChain chain.1 chain.2) ++
      ((if member.launch.nameless then setNothing else []) ++
        if member.launch.reaches then member.beat beats else []))

end Member

/-! ## Its programs -/

namespace Member

variable (member : Member) (beats : Nat)

theorem enroll_rooted (datalet : AddrType × Bool) : Rooted [] (member.enroll datalet) := by
  simp [enroll, setPhysicalMap, setReversePhysicalMap, setShardInfo, setShardTop,
    registerHeartBeat, setHeartBeat, Rooted]

theorem setChain_rooted (master : AddrType) (slaves : List AddrType) :
    Rooted [] (setChain master slaves) := by
  refine ⟨.inl rfl, .inr List.mem_cons_self, ?_⟩
  exact Rooted.children (@List.mem_cons_self _ [Root.chain.name, master] _) slaves []

theorem beat_rooted : Rooted [] (member.beat beats) := by
  unfold beat
  split
  · split
    · trivial
    · exact ⟨.inl rfl, trivial⟩
  · apply Rooted.flatMap
    intro n _
    simp [setHeartBeat, Rooted]

/-- Every node is created below its parent, and written when it is there. -/
theorem program_rooted : Rooted [] (member.program beats) := by
  have mono : ∀ {known : List (List Bytes)} {ops : Program}, Rooted [] ops → Rooted known ops :=
    fun rooted => rooted.mono (List.nil_subset _)
  apply Rooted.append
  · exact Rooted.flatMap fun datalet _ => member.enroll_rooted datalet
  apply mono
  apply Rooted.append
  · cases member.launch.chain with
    | none => trivial
    | some chain => exact setChain_rooted chain.1 chain.2
  apply mono
  apply Rooted.append
  · split
    · exact ⟨.inl rfl, trivial⟩
    · trivial
  apply mono
  split
  · exact member.beat_rooted beats
  · trivial

/-- The beats that the event loop has counted. -/
def count : Nat := if member.launch.reaches then beats else 0

end Member

/-! ## Deployments -/

/-- The proxies, and how often each one's timer fires. -/
structure Deployment (ι : Type) where
  members : ι → Member
  beats : ι → Nat

namespace Deployment

variable {ι : Type} (deployment : Deployment ι)

def programs (i : ι) : Program := (deployment.members i).program (deployment.beats i)

/-- No two proxies have one address or register one datalet. -/
structure Apart : Prop where
  self : ∀ i j, (deployment.members i).self = (deployment.members j).self → i = j
  datalets : ∀ i j addr master other, (addr, master) ∈ (deployment.members i).launch.datalets →
    (addr, other) ∈ (deployment.members j).launch.datalets → i = j

variable {deployment}

section Runs

variable [DecidableEq ι]

/-- Reachable from an empty tree, by any calls and restarts. -/
def Reachable (deployment : Deployment ι) (system : Znodes.System ι Bytes Bytes) : Prop :=
  system.Reachable deployment.programs { data := [] }

theorem Reachable.sound {system : Znodes.System ι Bytes Bytes}
    (reachable : deployment.Reachable system) : Sound deployment.programs system :=
  System.Reachable.sound (fun i => (deployment.members i).program_rooted _) reachable

/-- A master and its slave, each with its proxy; the master's timer fires twice. -/
def pair : Deployment Bool where
  members
    | true => ⟨[10], [7], ⟨.ms, .strong, .cr, 2, .samplePair⟩⟩
    | false =>
        ⟨[11], [7], ⟨.slave, .strong, .cr, 2, ⟨[⟨[1], .slave⟩], List.pairwise_singleton _ _⟩⟩⟩
  beats
    | true => 2
    | false => 0

end Runs

end Deployment

end BespoKV.Registry
