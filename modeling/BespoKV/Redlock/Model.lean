import BespoKV.Library.CInt
import BespoKV.Library.Leases
import BespoKV.Library.Transition
import BespoKV.Proxy.Types

/-!
# The distributed lock manager

`CRedLock`: a lock is a value that only its owner knows, set with an expiry time on a majority
of independent Redis servers.  Every client is one `CRedLock` with a connection to each server
and runs one call at a time; commands travel, are executed and are answered one by one, and
anything may happen in between.  A connection may fail while a reply is awaited: hiredis then
sends nothing on it any more, but what was sent before may still be executed.

Time is in milliseconds and the same everywhere.  The clock that `Lock` reads has seconds.
-/

namespace BespoKV.Redlock

open Leases

variable {κ υ : Type} [DecidableEq κ] [DecidableEq υ]

/-! ## Commands and connections -/

inductive Command (κ υ : Type) where
  /-- `LockInstance`: `set resource val px ttl nx` -/
  | lockInstance (resource : κ) (val : υ) (ttl : Int)
  /-- `ContinueLockInstance`: `m_continueLockScript`, `old` is `m_continueLock.m_val` -/
  | continueLockInstance (resource : κ) (old val : υ) (ttl : Int)
  /-- `UnlockInstance`: `m_unlockScript` -/
  | unlockInstance (resource : κ) (val : υ)
  deriving DecidableEq, Repr

/-- What a server does with a command, and whether its reply is the string `OK`. -/
def Command.execute (now : Int) (store : Store κ υ) : Command κ υ → Bool × Store κ υ
  | .lockInstance resource val ttl => store.setNx now resource val ttl
  | .continueLockInstance resource old val ttl =>
      (store.delIf now resource old).setNx now resource val ttl
  | .unlockInstance resource val => (false, store.delIf now resource val)

/-- A `redisContext`: the commands on their way to the server, the replies on their way back,
and whether the context is in error. -/
structure Conn (κ υ : Type) where
  sent : List (Command κ υ) := []
  replies : List Bool := []
  broken : Bool := false
  deriving DecidableEq, Repr

/-! ## Clients -/

/-- What `Lock` has filled in when it returns true.  History variables: the time at which the
successful attempt began, the time of the return and the time to live. -/
structure CLock (κ υ : Type) where
  resource : κ
  val : υ
  validityTime : Int
  start : Int
  returned : Int
  ttl : Int
  deriving DecidableEq, Repr

/-- The local variables of `Lock`, or of `ContinueLock` if `continuing`.  History variable: the
time at which `startTime` was read. -/
structure Call (κ υ : Type) where
  continuing : Bool
  resource : κ
  ttl : Int
  val : υ
  retryCount : Int
  startTime : Int
  start : Int
  deriving DecidableEq, Repr

inductive Phase (κ υ : Type) where
  | idle
  /-- the loop over the servers, at server `i` after `n` successes -/
  | locking (call : Call κ υ) (i n : Nat)
  /-- the loop of `Unlock`, which the caller runs or a failed attempt of `Lock` -/
  | unlocking (resource : κ) (val : υ) (i : Nat) (call : Option (Call κ υ))
  deriving DecidableEq, Repr

/-- A `CRedLock`, whether it waits for a reply, and the locks it was granted and has neither
unlocked nor given to a later `ContinueLock` to be replaced. -/
structure Client (κ υ : Type) where
  phase : Phase κ υ := .idle
  awaiting : Bool := false
  continueLock : Option υ := none
  locks : List (CLock κ υ) := []
  deriving DecidableEq, Repr

/-- `(int)time(NULL) * 1000` -/
def millis (now : Int) : Int := CInt.wrap (CInt.wrap (now / 1000) * 1000)

/-- What is the same for all clients: the number of servers, `m_retryCount`, and `drift`, which
computes `(ttl * m_clockDriftFactor) + 2` in floating point. -/
structure Config where
  servers : Nat
  retryCount : Int
  drift : Int → Int

/-- `m_quoRum` -/
def Config.quoRum (config : Config) : Nat := config.servers / 2 + 1

def Call.validityTime (config : Config) (call : Call κ υ) (now : Int) : Int :=
  CInt.wrap (CInt.wrap (call.ttl - CInt.wrap (millis now - call.startTime)) - config.drift call.ttl)

/-- An attempt begins. -/
def Call.attempt (call : Call κ υ) (now : Int) : Phase κ υ :=
  .locking { call with startTime := millis now, start := now } 0 0

namespace Client

/-- The server and the command of the current round. -/
def command (client : Client κ υ) : Option (Nat × Command κ υ) :=
  match client.phase with
  | .idle => none
  | .locking call i _ =>
      if call.continuing then
        some (i, .continueLockInstance call.resource (client.continueLock.getD call.val) call.val
          call.ttl)
      else
        some (i, .lockInstance call.resource call.val call.ttl)
  | .unlocking resource val i _ => some (i, .unlockInstance resource val)

/-- The round is over, and its command has succeeded or not. -/
def advance (client : Client κ υ) (ok : Bool) : Client κ υ :=
  match client.phase with
  | .idle => client
  | .locking call i n =>
      { client with phase := .locking call (i + 1) (if ok then n + 1 else n), awaiting := false }
  | .unlocking resource val i call =>
      { client with phase := .unlocking resource val (i + 1) call, awaiting := false }

/-- `ContinueLock` updates `m_continueLock.m_val` after its loop. -/
def remember (client : Client κ υ) (call : Call κ υ) : Client κ υ :=
  if call.continuing then { client with continueLock := some call.val } else client

/-- What follows the loop. -/
def finish (config : Config) (now : Int) (client : Client κ υ) : Client κ υ :=
  match client.phase with
  | .idle => client
  | .locking call _ n =>
      if config.quoRum ≤ n ∧ 0 < call.validityTime config now then
        { client.remember call with
          phase := .idle
          locks := client.locks ++
            [⟨call.resource, call.val, call.validityTime config now, call.start, now, call.ttl⟩] }
      else
        { client.remember call with phase := .unlocking call.resource call.val 0 (some call) }
  | .unlocking _ _ _ none => { client with phase := .idle }
  | .unlocking _ _ _ (some call) =>
      if 0 < call.retryCount - 1 then
        { client with phase := { call with retryCount := call.retryCount - 1 }.attempt now }
      else
        { client with phase := .idle }

/-- A call of `Lock` or `ContinueLock` with the value it has drawn.  The locks that the script
of `ContinueLock` replaces are given up. -/
def call (config : Config) (now : Int) (client : Client κ υ) (continuing : Bool) (resource : κ)
    (ttl : Int) (val : υ) : Client κ υ :=
  let phase := Call.attempt ⟨continuing, resource, ttl, val, config.retryCount, 0, 0⟩ now
  if continuing then
    let old := client.continueLock.getD val
    { client with
      phase
      continueLock := some old
      locks := client.locks.filter fun lock => ¬(lock.resource = resource ∧ lock.val = old) }
  else
    { client with phase }

/-- The caller unlocks one of its locks. -/
def unlock (client : Client κ υ) (lock : CLock κ υ) : Client κ υ :=
  { client with
    phase := .unlocking lock.resource lock.val 0 none
    locks := client.locks.filter fun other => other.val ≠ lock.val }

end Client

/-! ## The system -/

/-- The clock, the servers, the connection of every client to every server, the clients, and, as
a history variable, who has drawn which value. -/
structure System (κ υ : Type) where
  now : Int := 0
  redis : Nat → Store κ υ := fun _ _ => none
  conns : Nat → Nat → Conn κ υ := fun _ _ => {}
  clients : Nat → Client κ υ := fun _ => {}
  owner : υ → Option Nat := fun _ => none

/-- What the scheduler can choose. -/
inductive Event (κ υ : Type) where
  /-- time passes -/
  | tick (ms : Nat)
  /-- a client calls `Lock` or `ContinueLock`, and `GetUniqueLockId` returns `val` -/
  | lock (p : Nat) (continuing : Bool) (resource : κ) (ttl : Int) (val : υ)
  /-- a client calls `Unlock` for a lock it was granted -/
  | unlock (p : Nat) (lock : CLock κ υ)
  /-- a client does what comes next in its call -/
  | proceed (p : Nat)
  /-- server `i` executes the next command of client `p` -/
  | execute (p i : Nat)
  /-- a client receives the reply it waits for -/
  | receive (p : Nat)
  /-- the connection fails on which a client waits for a reply -/
  | fail (p : Nat)

namespace System

def setClient (system : System κ υ) (p : Nat) (client : Client κ υ) : System κ υ :=
  { system with clients := Function.update system.clients p client }

def setConn (system : System κ υ) (p i : Nat) (conn : Conn κ υ) : System κ υ :=
  { system with conns := Function.update system.conns p (Function.update (system.conns p) i conn) }

/-- One round of a loop, or the end of it. -/
def proceed (config : Config) (system : System κ υ) (p : Nat) : Except Fault (System κ υ) :=
  let client := system.clients p
  match client.command with
  | none => .error .disabled
  | some (i, command) =>
      if config.servers ≤ i then
        .ok (system.setClient p (client.finish config system.now))
      else if (system.conns p i).broken then
        -- the command returns NULL at once
        .ok (system.setClient p (client.advance false))
      else
        let conn := system.conns p i
        .ok ((system.setConn p i { conn with sent := conn.sent ++ [command] }).setClient p
          { client with awaiting := true })

def execute (system : System κ υ) (p i : Nat) : Except Fault (System κ υ) :=
  let conn := system.conns p i
  match conn.sent with
  | [] => .error .disabled
  | command :: rest =>
      let result := command.execute system.now (system.redis i)
      .ok { system.setConn p i
          { conn with sent := rest, replies := conn.replies ++ [result.1] } with
        redis := Function.update system.redis i result.2 }

def receive (system : System κ υ) (p : Nat) : Except Fault (System κ υ) :=
  match (system.clients p).command with
  | none => .error .disabled
  | some (i, _) =>
      let conn := system.conns p i
      match conn.replies with
      | [] => .error .disabled
      | ok :: rest =>
          .ok ((system.setConn p i { conn with replies := rest }).setClient p
            ((system.clients p).advance ok))

/-- The reply is lost, and whatever the server still answers. -/
def fail (system : System κ υ) (p : Nat) : Except Fault (System κ υ) :=
  match (system.clients p).command with
  | none => .error .disabled
  | some (i, _) =>
      let conn := system.conns p i
      .ok ((system.setConn p i { conn with replies := [], broken := true }).setClient p
        ((system.clients p).advance false))

def step (config : Config) (system : System κ υ) : Event κ υ → Except Fault (System κ υ)
  | .tick ms => .ok { system with now := system.now + ms }
  | .lock p continuing resource ttl val =>
      if (system.clients p).phase = .idle then
        .ok { system.setClient p
            ((system.clients p).call config system.now continuing resource ttl val) with
          owner := Function.update system.owner val (some p) }
      else
        .error .disabled
  | .unlock p lock =>
      if (system.clients p).phase = .idle ∧ lock ∈ (system.clients p).locks then
        .ok (system.setClient p ((system.clients p).unlock lock))
      else
        .error .disabled
  | .proceed p => if (system.clients p).awaiting then .error .disabled else system.proceed config p
  | .execute p i => system.execute p i
  | .receive p => if (system.clients p).awaiting then system.receive p else .error .disabled
  | .fail p => if (system.clients p).awaiting then system.fail p else .error .disabled

/-- `GetUniqueLockId` returns a value that nobody has drawn before.  Nothing in the program makes
sure of it: the value is the beginning of a random uuid. -/
def DrawsFresh (system : System κ υ) : Event κ υ → Prop
  | .lock _ _ _ _ val => system.owner val = none
  | _ => True

instance (system : System κ υ) : (event : Event κ υ) → Decidable (system.DrawsFresh event)
  | .lock _ _ _ _ val => inferInstanceAs (Decidable (system.owner val = none))
  | .tick _ | .unlock _ _ | .proceed _ | .execute _ _ | .receive _ | .fail _ => .isTrue trivial

/-- The states reached where the drawn values are distinct. -/
def Reachable (config : Config) (system : System κ υ) : Prop :=
  Transition.Runs (step config) DrawsFresh {} system

end System

end BespoKV.Redlock
