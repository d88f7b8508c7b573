import BespoKV.Library.PointRing
import BespoKV.Wire.Format

/-!
# Consistent hashing in libckv

`KetamaSelector` puts a hundred points of every host on a ring of hash values.  A key belongs
to the host of the first point at or after its own hash value, and one connection of that
host's row is chosen by the number of a replica.
-/

namespace BespoKV.LibCkv

open Wire

/-- `uint32_t` -/
abbrev HashValue := Fin (2 ^ 32)

instance hashRange_neZero : NeZero (2 ^ 32 : Nat) := ⟨by decide⟩

/-- What a `Connection` says about its server. -/
structure Address where
  name : Bytes
  host : Bytes
  port : Nat
  hasAlias : Bool
  deriving DecidableEq, Repr

/-- One row of the array of connections: a host's first connection and its other replicas. -/
structure HostRow (C : Type) where
  conn : C
  others : List C
  deriving DecidableEq, Repr

/-- The replicas of a row, from 0 on. -/
def HostRow.replicas {C : Type} (row : HostRow C) : List C := row.conn :: row.others

/-- `continuum_item_t` -/
structure ContinuumItem (C : Type) where
  hashValue : HashValue
  connIdx : Nat
  conn : C
  replicaConns : List C
  deriving DecidableEq, Repr

/-- `KetamaSelector` -/
structure KetamaSelector (C : Type) where
  continuum : List (ContinuumItem C) := []
  nServers : Nat := 0
  useFailover : Bool := false
  hashFunction : Option (Key → HashValue) := none
  sorted : Bool := false

/-! ## The continuum -/

/-- `s_pointerPerHash` -/
def pointerPerHash : Nat := 1

/-- `s_pointerPerServer` -/
def pointerPerServer : Nat := 100

/-- `MC_DEFAULT_PORT` -/
def defaultPort : Nat := 11211

/-- A number as `%u` and `%zu` print it. -/
def decimal (n : Nat) : Bytes := (Nat.toDigits 10 n).map fun digit => UInt8.ofNat digit.toNat

/-- `sort_host`: the text that is hashed for a point. -/
def sortHost (address : Address) (pointerIdx : Nat) : Bytes :=
  if address.hasAlias then address.name ++ text "-" ++ decimal pointerIdx
  else if address.port ≠ defaultPort then
    address.host ++ text ":" ++ decimal address.port ++ text "-" ++ decimal pointerIdx
  else address.host ++ text "-" ++ decimal pointerIdx

section Selector

variable {C : Type} (address : C → Address) (hashMd5 : Bytes → HashValue)

/-- The items of one host. -/
def hostItems (connIdx : Nat) (row : HostRow C) : List (ContinuumItem C) :=
  (List.range (pointerPerServer / pointerPerHash)).map fun pointerIdx => {
    hashValue := hashMd5 (sortHost (address row.conn) pointerIdx)
    connIdx
    conn := row.conn
    replicaConns := row.others }

/-- The items of all hosts, before they are sorted. -/
def items (conns : List (HostRow C)) : List (ContinuumItem C) :=
  conns.zipIdx.flatMap fun (row, connIdx) => hostItems address hashMd5 connIdx row

namespace KetamaSelector

/-- `reset` -/
def reset (selector : KetamaSelector C) : KetamaSelector C :=
  { selector with continuum := [], nServers := 0 }

/-- `addServersReplica`.  `std::sort` leaves the order of items with one hash value open. -/
def addServersReplica (selector : KetamaSelector C) (conns : List (HostRow C)) :
    KetamaSelector C :=
  { selector with
    continuum := (selector.continuum ++ items address hashMd5 conns).insertionSort
      fun left right => left.hashValue ≤ right.hashValue
    nServers := conns.length
    sorted := true }

end KetamaSelector

end Selector

/-! ## The choice of a connection -/

/-- Which connections are alive and which ones `tryReconnect` brings to life. -/
structure Liveness (C : Type) where
  alive : C → Bool
  tryReconnect : C → Bool

section Choice

variable {C : Type} [DecidableEq C] (hashMd5 : Bytes → HashValue) (live : Liveness C)

/-- The loop over the items after the chosen one: another connection is alive. -/
def failover (continuum : List (ContinuumItem C)) (origin : C) : Nat → Nat → Bool
  | 0, _ => false
  | maxIter + 1, it =>
      let next := if it + 1 = continuum.length then 0 else it + 1
      if (continuum[next]?).any fun item => item.conn ≠ origin && live.tryReconnect item.conn then
        true
      else failover continuum origin maxIter next

/-- The same loop in `getServerIt`, which ends at the item it has found. -/
def failoverIt (continuum : List (ContinuumItem C)) (origin : C) : Nat → Nat → Option Nat
  | 0, _ => none
  | maxIter + 1, it =>
      let next := if it + 1 = continuum.length then 0 else it + 1
      if (continuum[next]?).any fun item => item.conn ≠ origin && live.tryReconnect item.conn then
        some next
      else failoverIt continuum origin maxIter next

namespace ContinuumItem

variable {C : Type}

/-- `read_target`: the number of a replica, where -1 lets `rand()` choose. -/
def readTarget (item : ContinuumItem C) (whichReplica : Int) (rand : Nat) : Int :=
  if whichReplica = -1 then rand % (item.replicaConns.length + 1) else whichReplica

/-- The connection with a number; `at` throws where there is none. -/
def replica (item : ContinuumItem C) (readTarget : Int) : Except BespoKV.Fault C :=
  if readTarget = 0 then .ok item.conn
  else if 0 ≤ readTarget - 1 then
    match item.replicaConns[(readTarget - 1).toNat]? with
    | some conn => .ok conn
    | none => .error .outOfRange
  else .error .outOfRange

end ContinuumItem

namespace KetamaSelector

/-- `m_hashFunction`, which is `hash_md5` unless it has been set. -/
def hash (selector : KetamaSelector C) (key : Key) : HashValue :=
  (selector.hashFunction.getD hashMd5) key

/-- The item the search for a key ends at. -/
def locate (selector : KetamaSelector C) (key : Key) : Nat :=
  if selector.nServers = 1 then 0
  else PointRing.successor ContinuumItem.hashValue selector.continuum (selector.hash hashMd5 key)

/-- `getServerConnReplica` -/
def getServerConnReplica (selector : KetamaSelector C) (key : Key) (whichReplica : Int)
    (checkAlive : Bool) (rand : Nat) : Except BespoKV.Fault (Option C) :=
  if !selector.sorted || selector.nServers = 0 then .ok none
  else
    let it := selector.locate hashMd5 key
    match selector.continuum[it]? with
    | none => .error .undefined
    | some item =>
        match item.replica (item.readTarget whichReplica rand) with
        | .error fault => .error fault
        | .ok ret =>
            if !checkAlive || live.alive ret then .ok (some ret)
            else if selector.useFailover then
              -- The connection found by the loop is not the one that is returned.
              if failover live selector.continuum ret selector.continuum.length it then
                .ok (some ret)
              else .ok none
            else if live.tryReconnect ret then .ok (some ret)
            else .ok none

/-- `getConnReplica` -/
def getConnReplica (selector : KetamaSelector C) (key : Key) (whichReplica : Int)
    (checkAlive : Bool) (rand : Nat) : Except BespoKV.Fault (Option C) :=
  selector.getServerConnReplica hashMd5 live key whichReplica checkAlive rand

/-- `getServerIt`: the index of an item, or `none` for `end()`. -/
def getServerIt (selector : KetamaSelector C) (key : Key) (checkAlive : Bool) :
    Except BespoKV.Fault (Option Nat) :=
  if !selector.sorted || selector.nServers = 0 then .ok none
  else
    let it := selector.locate hashMd5 key
    match selector.continuum[it]? with
    | none => .error .undefined
    | some item =>
        if !checkAlive || live.alive item.conn then .ok (some it)
        else if selector.useFailover then
          .ok (failoverIt live selector.continuum item.conn selector.continuum.length it)
        else if live.tryReconnect item.conn then .ok (some it)
        else .ok none

/-- `getConn` -/
def getConn (selector : KetamaSelector C) (key : Key) (checkAlive : Bool) :
    Except BespoKV.Fault (Option C) :=
  match selector.getServerIt hashMd5 live key checkAlive with
  | .error fault => .error fault
  | .ok none => .ok none
  | .ok (some it) => .ok ((selector.continuum[it]?).map ContinuumItem.conn)

end KetamaSelector

end Choice

/-! ## Owners -/

section Owners

variable {C : Type}

/-- The row an item was made from. -/
def ContinuumItem.row (item : ContinuumItem C) : HostRow C := ⟨item.conn, item.replicaConns⟩

/-- A point of the ring, with the row it stands for. -/
def ContinuumItem.point (item : ContinuumItem C) : HashValue × HostRow C :=
  (item.hashValue, item.row)

variable {address : C → Address} {hashMd5 : Bytes → HashValue} {live : Liveness C}
variable {rows more : List (HostRow C)} {host : HostRow C} {item : ContinuumItem C}
variable {selector : KetamaSelector C} {key : Key} {checkAlive : Bool}

theorem row_of_mem_items (member : item ∈ items address hashMd5 rows) :
    rows[item.connIdx]? = some item.row := by
  obtain ⟨⟨row, connIdx⟩, indexed, made⟩ := List.mem_flatMap.mp member
  obtain ⟨pointerIdx, -, rfl⟩ := List.mem_map.mp made
  exact List.mem_zipIdx_iff_getElem?.mp indexed

/-- The points of a list of hosts do not depend on their order. -/
theorem mem_points_iff {point : HashValue × HostRow C} :
    point ∈ (items address hashMd5 rows).map ContinuumItem.point ↔
      ∃ row ∈ rows, ∃ pointerIdx < pointerPerServer / pointerPerHash,
        point = (hashMd5 (sortHost (address row.conn) pointerIdx), row) := by
  constructor
  · intro member
    obtain ⟨item, made, rfl⟩ := List.mem_map.mp member
    obtain ⟨⟨row, connIdx⟩, indexed, made⟩ := List.mem_flatMap.mp made
    obtain ⟨pointerIdx, bounded, rfl⟩ := List.mem_map.mp made
    exact ⟨row, List.mem_of_getElem? (List.mem_zipIdx_iff_getElem?.mp indexed), pointerIdx,
      List.mem_range.mp bounded, rfl⟩
  · rintro ⟨row, member, pointerIdx, bounded, rfl⟩
    obtain ⟨connIdx, inside, rfl⟩ := List.getElem_of_mem member
    have made : ⟨hashMd5 (sortHost (address rows[connIdx].conn) pointerIdx), connIdx,
        rows[connIdx].conn, rows[connIdx].others⟩ ∈ items address hashMd5 rows :=
      List.mem_flatMap.mpr ⟨(rows[connIdx], connIdx),
        List.mem_zipIdx_iff_getElem?.mpr (List.getElem?_eq_getElem inside),
        List.mem_map.mpr ⟨pointerIdx, List.mem_range.mpr bounded, rfl⟩⟩
    exact List.mem_map_of_mem made

theorem items_ne_nil (nonempty : rows ≠ []) : items address hashMd5 rows ≠ [] := by
  obtain ⟨row, rest, rfl⟩ := List.exists_cons_of_ne_nil nonempty
  have point : (hashMd5 (sortHost (address row.conn) 0), row) ∈
      (items address hashMd5 (row :: rest)).map ContinuumItem.point :=
    mem_points_iff.mpr ⟨row, List.mem_cons_self, 0, by decide, rfl⟩
  intro empty
  rw [empty] at point
  cases point

/-! ## The chosen connection -/

namespace ContinuumItem

theorem replica_eq {index : Nat} {conn : C} (at? : item.row.replicas[index]? = some conn) :
    item.replica index = .ok conn := by
  cases index with
  | zero =>
      obtain rfl : item.conn = conn := Option.some.inj at?
      rfl
  | succ index =>
      have found : item.replicaConns[index]? = some conn := at?
      have positive : (index : Int) + 1 ≠ 0 := by omega
      simp [replica, positive, found]

/-- `rand()` never chooses a replica that is not there. -/
theorem replica_random (rand : Nat) :
    ∃ (index : Nat) (conn : C), item.row.replicas[index]? = some conn ∧
      item.replica (item.readTarget (-1) rand) = .ok conn := by
  have inside : rand % (item.replicaConns.length + 1) < item.row.replicas.length :=
    Nat.mod_lt _ (Nat.succ_pos _)
  refine ⟨_, _, List.getElem?_eq_getElem inside, ?_⟩
  rw [← replica_eq (List.getElem?_eq_getElem inside)]
  simp [readTarget]

end ContinuumItem

namespace KetamaSelector

/-- A list of hosts after `reset`. -/
def withHosts (address : C → Address) (hashMd5 : Bytes → HashValue)
    (selector : KetamaSelector C) (rows : List (HostRow C)) : KetamaSelector C :=
  selector.reset.addServersReplica address hashMd5 rows

theorem continuum_perm :
    (selector.withHosts address hashMd5 rows).continuum.Perm (items address hashMd5 rows) :=
  List.perm_insertionSort _ _

theorem continuum_sorted : (selector.withHosts address hashMd5 rows).continuum.Pairwise
    fun left right => left.hashValue ≤ right.hashValue := by
  have : Std.Total fun left right : ContinuumItem C => left.hashValue ≤ right.hashValue :=
    ⟨fun left right => le_total left.hashValue right.hashValue⟩
  have : IsTrans (ContinuumItem C) fun left right => left.hashValue ≤ right.hashValue :=
    ⟨fun _ _ _ => le_trans⟩
  exact List.pairwise_insertionSort _ _

theorem row_of_mem_continuum
    (member : item ∈ (selector.withHosts address hashMd5 rows).continuum) :
    rows[item.connIdx]? = some item.row :=
  row_of_mem_items (continuum_perm.mem_iff.mp member)

/-- The item the search ends at, and the first one at or after the key, belong to one row.
They are the same item unless there is only one host. -/
theorem exists_located (address : C → Address) (hashMd5 : Bytes → HashValue)
    (selector : KetamaSelector C) (nonempty : rows ≠ []) (key : Key) :
    ∃ located first, (selector.withHosts address hashMd5 rows).continuum[
        (selector.withHosts address hashMd5 rows).locate hashMd5 key]? = some located ∧
      PointRing.IsSuccessor ContinuumItem.hashValue
        (selector.withHosts address hashMd5 rows).continuum (selector.hash hashMd5 key) first ∧
      located.row = first.row := by
  set continuum := (selector.withHosts address hashMd5 rows).continuum with hcontinuum
  have points : continuum ≠ [] := by
    intro empty
    rw [hcontinuum] at empty
    exact items_ne_nil nonempty (List.nil_perm.mp (empty ▸ continuum_perm))
  have inside : PointRing.successor ContinuumItem.hashValue continuum
      (selector.hash hashMd5 key) < continuum.length := PointRing.successor_lt points
  have first := PointRing.isSuccessor_of_successor continuum_sorted
    (List.getElem?_eq_getElem inside)
  by_cases single : rows.length = 1
  · -- `begin()` is not the first item at or after the key, but all items are of one row.
    have begins : 0 < continuum.length := List.length_pos_of_ne_nil points
    refine ⟨continuum[0], _, ?_, first, ?_⟩
    · have locate : (selector.withHosts address hashMd5 rows).locate hashMd5 key = 0 :=
        if_pos single
      rw [locate, List.getElem?_eq_getElem begins]
    · obtain ⟨row, rfl⟩ := List.length_eq_one_iff.mp single
      have same : ∀ item ∈ continuum, item.row = row := by
        intro item member
        have found := row_of_mem_continuum member
        exact (List.mem_singleton.mp (List.mem_of_getElem? found))
      rw [same _ (List.getElem_mem begins), same _ (List.getElem_mem inside)]
  · have locate : (selector.withHosts address hashMd5 rows).locate hashMd5 key =
        PointRing.successor ContinuumItem.hashValue continuum (selector.hash hashMd5 key) :=
      if_neg single
    refine ⟨_, _, ?_, first, rfl⟩
    rw [locate]
    exact List.getElem?_eq_getElem inside

variable [DecidableEq C]

theorem getConnReplica_of_alive (alive : ∀ conn, live.alive conn = true)
    (sorted : selector.sorted = true) (servers : selector.nServers ≠ 0)
    (located : selector.continuum[selector.locate hashMd5 key]? = some item)
    (whichReplica : Int) (rand : Nat) {conn : C}
    (chosen : item.replica (item.readTarget whichReplica rand) = .ok conn) :
    selector.getConnReplica hashMd5 live key whichReplica checkAlive rand = .ok (some conn) := by
  simp [getConnReplica, getServerConnReplica, sorted, servers, located, chosen, alive]

/-- The host owns the first point at or after the hash value of the key, and connections of
its row are chosen. -/
structure Serves (selector : KetamaSelector C) (hashMd5 : Bytes → HashValue) (live : Liveness C)
    (rows : List (HostRow C)) (key : Key) (checkAlive : Bool) (which : Nat)
    (host : HostRow C) : Prop where
  owner : ∃ item, PointRing.IsSuccessor ContinuumItem.hashValue selector.continuum
    (selector.hash hashMd5 key) item ∧ rows[item.connIdx]? = some host
  fixed : ∃ conn, host.replicas[which]? = some conn ∧ ∀ rand,
    selector.getConnReplica hashMd5 live key which checkAlive rand = .ok (some conn)
  random : ∀ rand, ∃ (index : Nat) (conn : C), host.replicas[index]? = some conn ∧
    selector.getConnReplica hashMd5 live key (-1) checkAlive rand = .ok (some conn)

/-- A key is served by the owner of the first point at or after it. -/
theorem exists_serves (address : C → Address) (hashMd5 : Bytes → HashValue)
    (selector : KetamaSelector C) (alive : ∀ conn, live.alive conn = true) (nonempty : rows ≠ [])
    {count which : Nat} (sized : ∀ host ∈ rows, host.replicas.length = count)
    (valid : which < count) (key : Key) (checkAlive : Bool) :
    ∃ point : HashValue × HostRow C,
      PointRing.IsSuccessor Prod.fst ((items address hashMd5 rows).map ContinuumItem.point)
        (selector.hash hashMd5 key) point ∧
      (selector.withHosts address hashMd5 rows).Serves hashMd5 live rows key checkAlive which
        point.2 := by
  obtain ⟨located, first, found, successor, same⟩ :=
    exists_located address hashMd5 selector nonempty key
  have owner : rows[first.connIdx]? = some first.row := row_of_mem_continuum successor.1
  have servers : (selector.withHosts address hashMd5 rows).nServers ≠ 0 :=
    fun none => nonempty (List.length_eq_zero_iff.mp none)
  refine ⟨first.point, ?_, ⟨first, successor, owner⟩, ?_, fun rand => ?_⟩
  · have unsorted : PointRing.IsSuccessor (fun item => (ContinuumItem.point item).1)
        (items address hashMd5 rows) (selector.hash hashMd5 key) first :=
      successor.of_subset (fun item member => continuum_perm.mem_iff.mpr member)
        (continuum_perm.mem_iff.mp successor.1)
    exact unsorted.map
  · have inside : which < first.row.replicas.length :=
      (sized _ (List.mem_of_getElem? owner)).symm ▸ valid
    obtain ⟨conn, at?⟩ : ∃ conn, first.row.replicas[which]? = some conn :=
      ⟨_, List.getElem?_eq_getElem inside⟩
    refine ⟨conn, at?, fun rand => ?_⟩
    refine getConnReplica_of_alive alive rfl servers found which rand ?_
    have target : located.readTarget which rand = which := if_neg (by omega)
    rw [← same] at at?
    rw [target]
    exact ContinuumItem.replica_eq at?
  · obtain ⟨index, conn, at?, chosen⟩ := located.replica_random rand
    rw [same] at at?
    exact ⟨index, conn, at?,
      getConnReplica_of_alive alive rfl servers found (-1) rand chosen⟩

end KetamaSelector

/-- A list of hosts gets one more, anywhere.  A key is then served by the host that served it
before, or by the new one. -/
private theorem owner_moves [DecidableEq C] (address : C → Address)
    (hashMd5 : Bytes → HashValue) (live : Liveness C) (selector : KetamaSelector C)
    (nonempty : rows ≠ []) (added : more.Perm (host :: rows)) {count which : Nat}
    (sized : ∀ row ∈ more, row.replicas.length = count) (valid : which < count)
    (distinct : ((items address hashMd5 more).map ContinuumItem.hashValue).Nodup)
    (alive : ∀ conn, live.alive conn = true) (key : Key) (checkAlive : Bool) :
    ∃ before after : HostRow C,
      (selector.withHosts address hashMd5 rows).Serves hashMd5 live rows key checkAlive which
        before ∧
      (selector.withHosts address hashMd5 more).Serves hashMd5 live more key checkAlive which
        after ∧
      (after = before ∨ after = host) := by
  have subset : rows ⊆ more := fun row member =>
    added.mem_iff.mpr (List.mem_cons_of_mem host member)
  have grown : ((items address hashMd5 rows).map ContinuumItem.point) ⊆
      (items address hashMd5 more).map ContinuumItem.point := by
    intro point member
    obtain ⟨row, known, made⟩ := mem_points_iff.mp member
    exact mem_points_iff.mpr ⟨row, subset known, made⟩
  obtain ⟨old, oldFirst, served⟩ := KetamaSelector.exists_serves address hashMd5 selector alive
    nonempty (fun row member => sized row (subset member)) valid key checkAlive
  obtain ⟨new, newFirst, serves⟩ := KetamaSelector.exists_serves address hashMd5 selector alive
    (List.ne_nil_of_mem (added.mem_iff.mpr List.mem_cons_self)) sized valid key checkAlive
  refine ⟨old.2, new.2, served, serves, ?_⟩
  obtain ⟨row, known, pointerIdx, bounded, rfl⟩ := mem_points_iff.mp newFirst.1
  rcases List.mem_cons.mp (added.mem_iff.mp known) with rfl | earlier
  · exact .inr rfl
  · -- The new owner's point was there before, so it was the first one already.
    have samePlace := (newFirst.of_subset grown
      (mem_points_iff.mpr ⟨row, earlier, pointerIdx, bounded, rfl⟩)).place_eq oldFirst
    have places : (((items address hashMd5 more).map ContinuumItem.point).map Prod.fst).Nodup := by
      rw [List.map_map]
      exact distinct
    exact .inl (congrArg Prod.snd
      (List.inj_on_of_nodup_map places newFirst.1 (grown oldFirst.1) samePlace))

/-- After a host has been added anywhere in a list of hosts, a key has the connection it had
before or one to the new host.  The connection is always the chosen replica of the owner of
the first point at or after the key, which is unique, and always exists. -/
theorem keys_move_to_new_host [DecidableEq C] (address : C → Address)
    (hashMd5 : Bytes → HashValue) (live : Liveness C) (selector : KetamaSelector C)
    (nonempty : rows ≠ []) (added : more.Perm (host :: rows)) {count which : Nat}
    (sized : ∀ row ∈ more, row.replicas.length = count) (valid : which < count)
    (distinct : ((items address hashMd5 more).map ContinuumItem.hashValue).Nodup)
    (alive : ∀ conn, live.alive conn = true) (key : Key) (checkAlive : Bool) :
    ∃ before after : HostRow C,
      (selector.withHosts address hashMd5 rows).Serves hashMd5 live rows key checkAlive which
        before ∧
      (selector.withHosts address hashMd5 more).Serves hashMd5 live more key checkAlive which
        after ∧
      ∀ rand,
        (selector.withHosts address hashMd5 more).getConnReplica hashMd5 live key which checkAlive
            rand =
          (selector.withHosts address hashMd5 rows).getConnReplica hashMd5 live key which checkAlive
            rand ∨
        ∃ conn, host.replicas[which]? = some conn ∧
          (selector.withHosts address hashMd5 more).getConnReplica hashMd5 live key which
            checkAlive rand = .ok (some conn) := by
  obtain ⟨before, after, served, serves, moved⟩ := owner_moves address hashMd5 live selector
    nonempty added sized valid distinct alive key checkAlive
  refine ⟨before, after, served, serves, fun rand => ?_⟩
  obtain ⟨conn, at?, chosen⟩ := serves.fixed
  rcases moved with rfl | rfl
  · obtain ⟨old, oldAt?, oldChosen⟩ := served.fixed
    obtain rfl : conn = old := Option.some.inj (at?.symm.trans oldAt?)
    exact .inl ((chosen rand).trans (oldChosen rand).symm)
  · exact .inr ⟨conn, at?, chosen rand⟩

/-- Two hosts with two replicas each, by number. -/
def sampleAddress (conn : Nat) : Address := ⟨[], [UInt8.ofNat (97 + conn / 2)], defaultPort, false⟩

/-- The first bytes of a text as a number. -/
def sampleHash (bytes : Bytes) : HashValue := Fin.ofNat _ (Octets.value bytes)

theorem keys_move_to_new_host_sample :
    ∃ before after : HostRow Nat,
      (({} : KetamaSelector Nat).withHosts sampleAddress sampleHash [⟨0, [1]⟩]).Serves sampleHash
        ⟨fun _ => true, fun _ => true⟩ [⟨0, [1]⟩] [98] true 1 before ∧
      (({} : KetamaSelector Nat).withHosts sampleAddress sampleHash [⟨0, [1]⟩, ⟨2, [3]⟩]).Serves
        sampleHash ⟨fun _ => true, fun _ => true⟩ [⟨0, [1]⟩, ⟨2, [3]⟩] [98] true 1 after := by
  have nonempty : ([⟨0, [1]⟩] : List (HostRow Nat)) ≠ [] := by simp
  have added : ([⟨0, [1]⟩, ⟨2, [3]⟩] : List (HostRow Nat)).Perm [⟨2, [3]⟩, ⟨0, [1]⟩] :=
    List.Perm.swap _ _ _
  obtain ⟨before, after, served, serves, -⟩ := keys_move_to_new_host sampleAddress sampleHash
    ⟨fun _ => true, fun _ => true⟩ {} nonempty added (by simp [HostRow.replicas])
    (Nat.lt_succ_self 1) (by decide +kernel) (fun _ => rfl) [98] true
  exact ⟨before, after, served, serves⟩

end Owners

end BespoKV.LibCkv
