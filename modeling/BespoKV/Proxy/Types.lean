import Mathlib.Logic.Function.Basic
import Mathlib.Data.List.Basic

/-!
# Data of the proxy

The configuration, messages, links and tables of the proxy (`net.h`, `link.h`,
`util/bytes.h`, `fde.h`).  Links live in a heap addressed by pointers, as in the
source: every handler reaches other links only through pointers stored in
links, in messages or in `msMap`.

A read is modelled after it has been cut into frames, and every write is complete
or fails: the byte-level decoder and short writes are not part of these modules.
-/

namespace BespoKV

/-- The contents of a `std::string`. -/
abbrev Bytes := List UInt8

abbrev Key := Bytes
abbrev Value := Bytes
abbrev AddrType := Bytes

/-- The operation `msg_parse` recognises from the type name of a frame. -/
inductive Cmd where
  | get
  | set
  | del
  deriving DecidableEq, Repr

/-- A request frame after parsing; `value` is meaningful for `set` only. -/
structure Frame where
  cmd : Cmd
  key : Key
  value : Value
  deriving DecidableEq, Repr

namespace Frame

def get (key : Key) : Frame := ⟨.get, key, []⟩

def set (key : Key) (value : Value) : Frame := ⟨.set, key, value⟩

end Frame

/-- A datalet's answer: `0` stored or found, `-1` not found. -/
structure Reply where
  status : Int
  value : Option Value
  deriving DecidableEq, Repr

/-- The answer to a `get` of a key with the given value. -/
def Reply.ofLookup : Option Value → Reply
  | some value => ⟨0, some value⟩
  | none => ⟨-1, none⟩

/-! ## Configuration -/

/-- `supp_top` -/
inductive Topology where
  | no
  | ms
  | slave
  | aa
  deriving DecidableEq, Repr

/-- `cons_mod`, in the order the source compares them with `>=`. -/
inductive ConsMod where
  | without
  | eventual
  | strong
  deriving DecidableEq, Repr

/-- `consistency_model >= eventual` -/
def ConsMod.atLeastEventual : ConsMod → Bool
  | .without => false
  | .eventual | .strong => true

/-- `cons_tech` -/
inductive ConsTech where
  | none
  | zk
  | rl
  | redis
  | cr
  deriving DecidableEq, Repr

/-- `replica_role_t` -/
inductive ReplicaRole where
  | master
  | slave
  deriving DecidableEq, Repr

/-- A row of the datalet list; `addr` is the table's key `addr:port`. -/
structure DumbNode where
  addr : AddrType
  role : ReplicaRole
  deriving DecidableEq, Repr

/-- `DumbNodeTable_t`: the rows in the order the hash table iterates them, each
address once. -/
structure DumbNodeTable where
  rows : List DumbNode
  nodup : (rows.map DumbNode.addr).Nodup

namespace DumbNodeTable

/-- A master and a slave, which comes first. -/
def samplePair : DumbNodeTable := ⟨[⟨[1], .slave⟩, ⟨[0], .master⟩], by decide⟩

/-- A master between two slaves. -/
def sampleTriple : DumbNodeTable :=
  ⟨[⟨[1], .slave⟩, ⟨[0], .master⟩, ⟨[2], .slave⟩], by decide⟩

end DumbNodeTable

/-- The fields of `NetworkServer` that the constructor reads from the
configuration files and nothing changes afterwards. -/
structure Config where
  topology : Topology
  consistencyModel : ConsMod
  consistencyTechnique : ConsTech
  replicas : Int
  dumbMap : DumbNodeTable

namespace Config

/-- Addresses of the rows with the given role, in iteration order. -/
def addrs (cfg : Config) (role : ReplicaRole) : List AddrType :=
  (cfg.dumbMap.rows.filter fun row => row.role = role).map DumbNode.addr

/-- `consistency_model >= strong && topology == aa` -/
def aaStrong (cfg : Config) : Bool :=
  cfg.consistencyModel = .strong && cfg.topology = .aa

/-- `consistency_model == strong && topology == ms` -/
def msStrong (cfg : Config) : Bool :=
  cfg.consistencyModel = .strong && cfg.topology = .ms

/-- Chain replication is selected. -/
def msStrongCr (cfg : Config) : Bool :=
  cfg.msStrong && cfg.consistencyTechnique = .cr

end Config

/-! ## Messages and links -/

/-- A `Link *`. -/
abbrev LinkPtr := Nat

/-- History variable: the `seq`-th frame of a client link of a proxy.  The wire
protocol has no request identifiers and no handler reads this one. -/
structure ReqId where
  proxy : Nat
  client : LinkPtr
  seq : Nat
  deriving DecidableEq, Repr

/-- What the bytes of a buffer are: request frames or a datalet's answer. -/
inductive Content where
  | frames (frames : List Frame)
  | reply (reply : Reply)
  deriving DecidableEq, Repr

/-- `Buffer`.  `fwdToReplicas` is never assigned `false` by the source, so `false`
stands for an unassigned flag. -/
structure Buffer where
  owner : Option LinkPtr := none
  id : Int := -1
  fwdToReplicas : Bool := false
  content : Content
  tag : Option ReqId := none
  deriving DecidableEq, Repr

namespace Buffer

/-- `size() > 0` -/
def nonempty (buffer : Buffer) : Bool :=
  match buffer.content with
  | .frames [] => false
  | _ => true

/-- The frame of a request segment. -/
def frame? (buffer : Buffer) : Option Frame :=
  match buffer.content with
  | .frames [frame] => some frame
  | _ => none

/-- The key and the value that a `set` request writes. -/
def write? (buffer : Buffer) : Option (Key × Value) :=
  match buffer.frame? with
  | some frame => if frame.cmd = .set then some (frame.key, frame.value) else none
  | none => none

/-- The buffer is a `set` request. -/
def isSet (buffer : Buffer) : Bool :=
  match buffer.frame? with
  | some frame => frame.cmd = .set
  | none => false

theorem isSet_of_write {buffer : Buffer} {pair : Key × Value}
    (writes : buffer.write? = some pair) : buffer.isSet = true := by
  unfold write? at writes
  unfold isSet
  split at writes
  · split at writes
    next set => simpa using set
    · cases writes
  · cases writes

end Buffer

/-- The handlers `set_nw_func` and `set_repl_func` install. -/
inductive NwFunc where
  /-- no handlers yet -/
  | unset
  /-- `req_recv`, `rsp_send` -/
  | request
  /-- `rsp_recv`, `req_send` -/
  | response
  /-- `replica_rsp_recv`, `replica_req_send` -/
  | replica
  deriving DecidableEq, Repr

/-- The fields of a `Link` that are fixed once the link is set up.  `peer` is
the datalet its socket is connected to. -/
structure LinkInfo where
  isServer : Bool := false
  isMaster : Bool := false
  isClient : Bool := false
  slaveNumber : Int := 0
  nwFunc : NwFunc := .unset
  dataletConn : Option LinkPtr := none
  peer : Option AddrType := none
  kproducer : Bool := false
  deriving DecidableEq, Repr

/-- `Link`.  `key` is the string the field `key` points to, if that string is still
allocated. -/
structure Link extends LinkInfo where
  error : Bool := false
  fwdToReplicas : Bool := false
  tail : Bool := false
  key : Option Key := none
  imsgQ : List Buffer := []
  omsgQ : List Buffer := []
  deriving DecidableEq, Repr

/-- The fields that the constructor of `Link` leaves uninitialised and that some
handler may read before it writes them. -/
structure Uninit where
  fwdToReplicas : Bool
  tail : Bool
  deriving DecidableEq, Repr

/-- `Fdevent::s_flags`: the events subscribed for one descriptor. -/
structure FdFlags where
  inn : Bool := false
  out : Bool := false
  deriving DecidableEq, Repr

/-- The two directions of the connection behind a datalet link. -/
structure Wire where
  req : List Buffer := []
  rsp : List Reply := []
  deriving DecidableEq, Repr

/-- Why a handler does not return. -/
inductive Fault where
  /-- no such event can occur in this state -/
  | disabled
  /-- a `CHECK` failed -/
  | check
  /-- `vector::at` threw -/
  | outOfRange
  /-- a null, uninitialised or deallocated pointer was used -/
  | undefined
  deriving DecidableEq, Repr

/-- A proxy process: the heap of links, the tables of `NetworkServer`, its sockets.
`received` and `delivered` record, for every client link, the request segments cut
from its stream and the buffers written back to it. -/
structure Proxy where
  pid : Nat := 0
  links : LinkPtr → Link := fun _ => {}
  next : LinkPtr := 0
  msMap : List (Option LinkPtr × List LinkPtr) := []
  freeConnPool : List LinkPtr := []
  fdes : LinkPtr → FdFlags := fun _ => {}
  wire : LinkPtr → Wire := fun _ => {}
  received : LinkPtr → List Buffer := fun _ => []
  delivered : LinkPtr → List Buffer := fun _ => []

namespace Proxy

/-- Assign fields of one link. -/
def modify (proxy : Proxy) (ptr : LinkPtr) (change : Link → Link) : Proxy :=
  { proxy with links := Function.update proxy.links ptr (change (proxy.links ptr)) }

/-- `Fdevents::set` with `FDEVENT_IN` -/
def setIn (proxy : Proxy) (ptr : LinkPtr) : Proxy :=
  { proxy with fdes := Function.update proxy.fdes ptr { proxy.fdes ptr with inn := true } }

/-- `Fdevents::set` with `FDEVENT_OUT` -/
def setOut (proxy : Proxy) (ptr : LinkPtr) : Proxy :=
  { proxy with fdes := Function.update proxy.fdes ptr { proxy.fdes ptr with out := true } }

/-- `Fdevents::clr` with `FDEVENT_OUT` -/
def clrOut (proxy : Proxy) (ptr : LinkPtr) : Proxy :=
  { proxy with fdes := Function.update proxy.fdes ptr { proxy.fdes ptr with out := false } }

/-- `Fdevents::del` -/
def fdDel (proxy : Proxy) (ptr : LinkPtr) : Proxy :=
  { proxy with fdes := Function.update proxy.fdes ptr {} }

/-- Subscribe to writability when nothing is queued: the idiom before every push. -/
def armOut (proxy : Proxy) (ptr : LinkPtr) : Proxy :=
  { proxy with
    fdes := if (proxy.links ptr).imsgQ = [] then (proxy.setOut ptr).fdes else proxy.fdes }

/-- `imsg_q.push_back` -/
def pushImsg (proxy : Proxy) (ptr : LinkPtr) (buffer : Buffer) : Proxy :=
  proxy.modify ptr fun link => { link with imsgQ := link.imsgQ ++ [buffer] }

/-- `omsg_q.pop_front` -/
def popOmsg (proxy : Proxy) (ptr : LinkPtr) : Proxy :=
  proxy.modify ptr fun link => { link with omsgQ := link.omsgQ.tail }

/-- `mark_error` -/
def markError (proxy : Proxy) (ptr : LinkPtr) : Proxy :=
  proxy.modify ptr fun link => { link with error := true }

end Proxy

end BespoKV
