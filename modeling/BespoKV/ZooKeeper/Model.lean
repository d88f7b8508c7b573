import BespoKV.Library.Decimal
import BespoKV.Library.Transition
import BespoKV.Proxy.Types

/-!
# The read/write lock on ZooKeeper

`ZooKeeper::Lock` and `ZooKeeper::Unlock` for one path.  The service is the path node with
its children; a client is where it stands between two ZooKeeper calls, and one step is
one call.  Sessions do not expire and calls fail only with the codes below.
-/

namespace BespoKV.ZooKeeper

/-- Return codes other than `ZOK`: `ZNONODE`, `ZNOTEMPTY`, `ZNODEEXISTS`. -/
inductive ZooCode where
  | noNode
  | notEmpty
  | nodeExists
  deriving DecidableEq, Repr

/-- A lock node.  History variable: in which life of the path node it was created. -/
structure Child where
  write : Bool
  seq : Nat
  life : Nat
  deriving DecidableEq, Repr

/-- The name `zoo_create` gives to a node created with `ZOO_SEQUENCE`. -/
def Child.name (child : Child) : List Char :=
  (if child.write then 'w' else 'r') :: Decimal.digits 10 child.seq

def Child.path (base : List Char) (child : Child) : List Char := base ++ '/' :: child.name

/-! ## The service -/

/-- The path node, with the counter of its sequence nodes if it exists, and its children.
History variables: how often the path was created, and the nodes whose `Lock` returned. -/
structure Zoo where
  life : Nat := 0
  next : Option Nat := none
  children : List Child := []
  granted : List Child := []

namespace Zoo

/-- `zoo_create` of the path -/
def create (zoo : Zoo) : Except ZooCode Zoo :=
  match zoo.next with
  | some _ => .error .nodeExists
  | none => .ok { zoo with life := zoo.life + 1, next := some 0, children := [] }

/-- `zoo_create` of a child with `ZOO_EPHEMERAL | ZOO_SEQUENCE` -/
def createSequence (zoo : Zoo) (write : Bool) : Except ZooCode (Child × Zoo) :=
  match zoo.next with
  | none => .error .noNode
  | some seq =>
      let child : Child := ⟨write, seq, zoo.life⟩
      .ok (child, { zoo with next := some (seq + 1), children := zoo.children ++ [child] })

def hasChild (base : List Char) (zoo : Zoo) (path : List Char) : Bool :=
  zoo.children.any fun child => child.path base = path

/-- `zoo_exists` -/
def exist (base : List Char) (zoo : Zoo) (path : List Char) : Bool :=
  if path = base then zoo.next.isSome else zoo.hasChild base path

/-- `zoo_get_children`; the order of the answer is not specified. -/
def getChildren (base : List Char) (zoo : Zoo) (path : List Char) : Except ZooCode (List Child) :=
  if path = base then
    match zoo.next with
    | some _ => .ok zoo.children
    | none => .error .noNode
  else if zoo.hasChild base path then
    .ok []
  else
    .error .noNode

/-- `zoo_delete`; data versions are all zero, since nobody writes data. -/
def delete (base : List Char) (zoo : Zoo) (path : List Char) : Except ZooCode Zoo :=
  if path = base then
    match zoo.next, zoo.children with
    | none, _ => .error .noNode
    | some _, [] => .ok { zoo with next := none }
    | some _, _ :: _ => .error .notEmpty
  else if zoo.hasChild base path then
    .ok { zoo with children := zoo.children.filter fun child => child.path base ≠ path }
  else
    .error .noNode

end Zoo

/-! ## Clients -/

/-- Where a client stands: what its next ZooKeeper call is, and the lock node it has
created.  History variable: the lock of the last `Unlock` that returned. -/
inductive Client where
  | idle (last : Option Child)
  /-- `Lock`: create the path if it does not exist -/
  | createPath (write : Bool)
  /-- `Lock`: create the lock node -/
  | createChild (write : Bool)
  /-- `write_label`, `read_label`: get the children -/
  | list (own : Child)
  /-- the loop around `Exists` -/
  | spin (own : Child) (name : List Char)
  /-- `Lock` has returned -/
  | held (own : Child)
  /-- `Unlock`: get the children -/
  | unlockList (own : Child)
  /-- `DeleteIfExists(path)`, and whether there are other children -/
  | existsChild (own : Child) (others : Bool)
  | deleteChild (own : Child) (others : Bool)
  /-- `DeleteIfExists(key)` -/
  | existsKey (own : Child)
  | deleteKey (own : Child)
  /-- a `ZooException` was thrown -/
  | threw (code : ZooCode)
  deriving DecidableEq, Repr

/-- `req_id_int`: `atoi(req_id.substr(req_id.length() - 8).c_str())` -/
def reqIdInt (reqId : List Char) : Nat := Decimal.atoi (reqId.drop (reqId.length - 8))

/-- `child_id_int`: `atoi(a.substr(a.length() - 10).c_str())` -/
def childIdInt (name : List Char) : Nat := Decimal.atoi (name.drop (name.length - 10))

/-- The child that the loop of `Lock` waits for.  Both loops end in a `goto` once they
have waited, so it is the first one. -/
def blocker (base : List Char) (own : Child) (names : List (List Char)) : Option (List Char) :=
  if names.length > 1 then
    names.find? fun name =>
      (own.write || name.head? ≠ some 'r') && childIdInt name < reqIdInt (own.path base)
  else
    none

/-- `path.substr(0, path.length() - 12)` -/
def unlockKey (path : List Char) : List Char := path.take (path.length - 12)

/-- `Unlock` after its first `DeleteIfExists`. -/
def afterDelete (own : Child) (others : Bool) : Client :=
  if others then .idle (some own) else .existsKey own

/-- One ZooKeeper call; `order` is the order in which children are listed. -/
def Client.call (base : List Char) (zoo : Zoo) (order : List Child) :
    Client → Except Fault (Zoo × Client)
  | .idle _ | .held _ | .threw _ => .error .disabled
  | .createPath write =>
      match zoo.create with
      | .ok zoo => .ok (zoo, .createChild write)
      | .error .nodeExists => .ok (zoo, .createChild write)
      | .error code => .ok (zoo, .threw code)
  | .createChild write =>
      match zoo.createSequence write with
      | .ok (own, zoo) => .ok (zoo, .list own)
      | .error code => .ok (zoo, .threw code)
  | .list own =>
      match zoo.getChildren base base with
      | .ok children =>
          if order.Perm children then
            match blocker base own (order.map Child.name) with
            | some name => .ok (zoo, .spin own name)
            | none => .ok ({ zoo with granted := zoo.granted ++ [own] }, .held own)
          else
            .error .disabled
      | .error code => .ok (zoo, .threw code)
  | .spin own name =>
      if zoo.exist base (base ++ '/' :: name) then
        .ok (zoo, .spin own name)
      else
        .ok (zoo, .list own)
  | .unlockList own =>
      match zoo.getChildren base (unlockKey (own.path base)) with
      | .ok children => .ok (zoo, .existsChild own (children.length > 1))
      | .error code => .ok (zoo, .threw code)
  | .existsChild own others =>
      if zoo.exist base (own.path base) then
        .ok (zoo, .deleteChild own others)
      else
        .ok (zoo, afterDelete own others)
  | .deleteChild own others =>
      match zoo.delete base (own.path base) with
      | .ok zoo => .ok (zoo, afterDelete own others)
      | .error .noNode => .ok (zoo, afterDelete own others)
      | .error code => .ok (zoo, .threw code)
  | .existsKey own =>
      if zoo.exist base (unlockKey (own.path base)) then
        .ok (zoo, .deleteKey own)
      else
        .ok (zoo, .idle (some own))
  | .deleteKey own =>
      match zoo.delete base (unlockKey (own.path base)) with
      | .ok zoo => .ok (zoo, .idle (some own))
      | .error .noNode => .ok (zoo, .idle (some own))
      | .error code => .ok (zoo, .threw code)

/-! ## The system -/

/-- The service and its clients. -/
structure System where
  zoo : Zoo
  clients : Nat → Client

/-- What the scheduler can choose. -/
inductive Event where
  /-- a client calls `Lock(path, rw)` -/
  | lock (c : Nat) (rw : Int)
  /-- a client calls `Unlock` with what `Lock` returned -/
  | unlock (c : Nat)
  /-- the next ZooKeeper call of a client -/
  | call (c : Nat) (order : List Child)

namespace System

def setClient (system : System) (c : Nat) (client : Client) : System :=
  { system with clients := Function.update system.clients c client }

/-- Nobody has called `Lock`; the path may exist. -/
def init (next : Option Nat) : System where
  zoo := { next }
  clients := fun _ => .idle none

def step (base : List Char) (system : System) : Event → Except Fault System
  | .lock c rw =>
      match system.clients c with
      | .idle _ => .ok (system.setClient c (.createPath (rw ≠ 0)))
      | _ => .error .disabled
  | .unlock c =>
      match system.clients c with
      | .held own => .ok (system.setClient c (.unlockList own))
      | _ => .error .disabled
  | .call c order =>
      match (system.clients c).call base system.zoo order with
      | .ok (zoo, client) => .ok ({ system with zoo }.setClient c client)
      | .error fault => .error fault

end System

end BespoKV.ZooKeeper
