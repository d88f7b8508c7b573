import BespoKV.Redlock.Rounds
import Mathlib.Data.Finset.Insert

/-!
# The invariant of the lock manager

A server that has answered `OK` keeps the value until the time to live has passed since the
attempt began, unless a command of the same client deletes it; and no such command is on its
way, since a client waits for every reply and sends nothing on a connection that has failed.
-/

namespace BespoKV.Redlock

open Leases

variable {κ υ : Type}

/-! ## The invariant -/

/-- Until the deadline, server `i` keeps the value, and nothing that client `p` has sent to it
deletes it. -/
def System.Protected (system : System κ υ) (p : Nat) (resource : κ) (val : υ) (deadline : Int)
    (i : Nat) : Prop :=
  system.now < deadline →
    (system.redis i).Keeps resource val deadline ∧
      ∀ command ∈ (system.conns p i).sent, ¬command.Removes resource val

/-- At least `n` of the first `bound` servers protect the value. -/
def System.Backed (system : System κ υ) (p : Nat) (resource : κ) (val : υ) (deadline : Int)
    (bound n : Nat) : Prop :=
  ∃ acks ⊆ Finset.range bound, n ≤ acks.card ∧
    ∀ i ∈ acks, system.Protected p resource val deadline i

/-- What is on the connection on which the reply to `command` is awaited. -/
inductive Conn.Awaits (conn : Conn κ υ) (command : Command κ υ) (granted : Prop) : Prop where
  | travels (sent : conn.sent = [command]) (replies : conn.replies = [])
  | answered (ok : Bool) (sent : conn.sent = []) (replies : conn.replies = [ok])
      (meaning : ok = true → granted)

/-- The invariant of client `p`. -/
structure System.Sound (config : Config) (system : System κ υ) (p : Nat) : Prop where
  drawnLock : ∀ lock ∈ (system.clients p).locks, system.owner lock.val = some p
  drawnOld : ∀ old, (system.clients p).continueLock = some old → system.owner old = some p
  drawnTarget : ∀ resource val, (system.clients p).Targets resource val →
    system.owner val = some p
  distinct : ((system.clients p).locks.map CLock.val).Nodup
  apart : ∀ lock ∈ (system.clients p).locks, ¬(system.clients p).Targets lock.resource lock.val
  bounded : ∀ i command, (system.clients p).command = some (i, command) → i ≤ config.servers
  started : ∀ call i n, (system.clients p).phase = .locking call i n → call.start ≤ system.now
  /-- nothing is on a connection on which no reply is awaited -/
  quiet : ∀ i, (system.conns p i).broken = false →
    ¬((system.clients p).awaiting = true ∧
      ∃ command, (system.clients p).command = some (i, command)) →
    (system.conns p i).sent = [] ∧ (system.conns p i).replies = []
  awaited : (system.clients p).awaiting = true → ∃ i command,
    (system.clients p).command = some (i, command) ∧ i < config.servers ∧
      (system.conns p i).broken = false ∧
      (system.conns p i).Awaits command (∀ call n, (system.clients p).phase = .locking call i n →
        system.Protected p call.resource call.val (call.start + call.ttl) i)
  counted : ∀ call i n, (system.clients p).phase = .locking call i n →
    system.Backed p call.resource call.val (call.start + call.ttl) i n
  backed : ∀ lock ∈ (system.clients p).locks,
    system.Backed p lock.resource lock.val (lock.start + lock.ttl) config.servers config.quoRum

/-- The invariant of all clients; a command that deletes a value was sent by the client that has
drawn the value. -/
structure System.Safe (config : Config) (system : System κ υ) : Prop where
  commands : ∀ p i, ∀ command ∈ (system.conns p i).sent, ∀ resource val,
    command.Removes resource val → system.owner val = some p
  sound : ∀ p, system.Sound config p

namespace System

variable {config : Config} {system after : System κ υ} {p q i : Nat} {resource : κ} {val : υ}
variable {deadline : Int}

/-- A value stays protected if time passes, the server keeps it and nothing is sent that deletes
it. -/
theorem Protected.frame (guarded : system.Protected p resource val deadline i)
    (later : system.now ≤ after.now)
    (kept : after.now < deadline → (system.redis i).Keeps resource val deadline →
      (∀ command ∈ (system.conns p i).sent, ¬command.Removes resource val) →
      (after.redis i).Keeps resource val deadline)
    (sent : ∀ command ∈ (after.conns p i).sent,
      command ∈ (system.conns p i).sent ∨ ¬command.Removes resource val) :
    after.Protected p resource val deadline i := by
  intro early
  obtain ⟨keeps, harmless⟩ := guarded (lt_of_le_of_lt later early)
  constructor
  · exact kept early keeps harmless
  · intro command member
    rcases sent command member with old | new
    · exact harmless command old
    · exact new

theorem Backed.imp {bound n : Nat} (backed : system.Backed p resource val deadline bound n)
    (imp : ∀ i < bound, system.Protected p resource val deadline i →
      after.Protected p resource val deadline i) :
    after.Backed p resource val deadline bound n := by
  obtain ⟨acks, among, enough, guarded⟩ := backed
  exact ⟨acks, among, enough,
    fun i member => imp i (Finset.mem_range.mp (among member)) (guarded i member)⟩

section Update

variable {client : Client κ υ} {conn : Conn κ υ} {j : Nat}

@[simp] theorem setClient_self : (system.setClient p client).clients p = client :=
  Function.update_self ..

theorem setClient_of_ne (different : q ≠ p) :
    (system.setClient p client).clients q = system.clients q :=
  Function.update_of_ne different ..

@[simp] theorem setConn_self : (system.setConn p i conn).conns p i = conn := by
  simp [setConn]

theorem setConn_of_ne (different : j ≠ i) :
    (system.setConn p i conn).conns p j = system.conns p j := by
  simp [setConn, different]

theorem setConn_other (different : q ≠ p) :
    (system.setConn p i conn).conns q = system.conns q :=
  Function.update_of_ne different ..

end Update

/-- A client that does nothing, and whose values no server loses, keeps its invariant. -/
theorem Sound.frame (sound : system.Sound config q)
    (client : after.clients q = system.clients q) (conns : after.conns q = system.conns q)
    (owner : ∀ val, system.owner val = some q → after.owner val = some q)
    (later : system.now ≤ after.now)
    (kept : ∀ i resource val deadline, system.owner val = some q → after.now < deadline →
      (system.redis i).Keeps resource val deadline →
      (∀ command ∈ (system.conns q i).sent, ¬command.Removes resource val) →
      (after.redis i).Keeps resource val deadline) :
    after.Sound config q := by
  have guarded : ∀ i resource val deadline, system.owner val = some q →
      system.Protected q resource val deadline i → after.Protected q resource val deadline i := by
    intro i resource val deadline drawn guarded
    refine guarded.frame later (kept i resource val deadline drawn) ?_
    intro command member
    rw [conns] at member
    exact .inl member
  have current : ∀ call i n, (system.clients q).phase = .locking call i n →
      system.owner call.val = some q := by
    intro call i n locking
    apply sound.drawnTarget call.resource
    simp only [Client.Targets, locking]
    exact .inl rfl
  constructor
  · rw [client]
    exact fun lock member => owner _ (sound.drawnLock lock member)
  · rw [client]
    exact fun old remembered => owner _ (sound.drawnOld old remembered)
  · rw [client]
    exact fun resource val targets => owner _ (sound.drawnTarget resource val targets)
  · rw [client]
    exact sound.distinct
  · rw [client]
    exact sound.apart
  · rw [client]
    exact sound.bounded
  · rw [client]
    exact fun call i n locking => le_trans (sound.started call i n locking) later
  · rw [client, conns]
    exact sound.quiet
  · rw [client, conns]
    intro awaiting
    obtain ⟨i, command, round, inside, healthy, awaits⟩ := sound.awaited awaiting
    refine ⟨i, command, round, inside, healthy, ?_⟩
    cases awaits with
    | travels sent replies => exact .travels sent replies
    | answered ok sent replies meaning =>
        exact .answered ok sent replies fun yes call n locking =>
          guarded i _ _ _ (current call i n locking) (meaning yes call n locking)
  · rw [client]
    exact fun call i n locking => (sound.counted call i n locking).imp
      fun j _ => guarded j _ _ _ (current call i n locking)
  · rw [client]
    exact fun lock member => (sound.backed lock member).imp
      fun j _ => guarded j _ _ _ (sound.drawnLock lock member)

/-! ## Steps of one client -/

/-- Only client `p` and its connections have changed; values may have been drawn. -/
structure Local (system after : System κ υ) (p : Nat) : Prop where
  now : after.now = system.now
  redis : after.redis = system.redis
  owner : ∀ q val, system.owner val = some q → after.owner val = some q
  clients : ∀ q ≠ p, after.clients q = system.clients q
  conns : ∀ q ≠ p, after.conns q = system.conns q

theorem Local.guarded (moved : Local system after p)
    (sent : ∀ command ∈ (after.conns p i).sent,
      command ∈ (system.conns p i).sent ∨ ¬command.Removes resource val)
    (guarded : system.Protected p resource val deadline i) :
    after.Protected p resource val deadline i :=
  guarded.frame (le_of_eq moved.now.symm) (fun _ keeps _ => moved.redis ▸ keeps) sent

theorem Safe.act (safe : system.Safe config) (moved : Local system after p)
    (commands : ∀ i, ∀ command ∈ (after.conns p i).sent, command ∈ (system.conns p i).sent ∨
      ∃ round, (system.clients p).command = some (round, command))
    (sound : after.Sound config p) : after.Safe config := by
  constructor
  · intro q i command member resource val removes
    by_cases same : q = p
    · subst same
      rcases commands i command member with old | ⟨round, current⟩
      · exact moved.owner q val (safe.commands q i command old resource val removes)
      · exact moved.owner q val
          ((safe.sound q).drawnTarget resource val (Client.targets_of_command current removes))
    · rw [moved.conns q same] at member
      exact moved.owner q val (safe.commands q i command member resource val removes)
  · intro q
    by_cases same : q = p
    · exact same ▸ sound
    · exact (safe.sound q).frame (moved.clients q same) (moved.conns q same)
        (fun val => moved.owner q val) (le_of_eq moved.now.symm)
        (fun i resource val deadline _ _ keeps _ => moved.redis ▸ keeps)

/-- A client that is not waiting has nothing on its connections. -/
theorem Sound.calm (sound : system.Sound config p)
    (calm : (system.clients p).awaiting = false) (healthy : (system.conns p i).broken = false) :
    (system.conns p i).sent = [] ∧ (system.conns p i).replies = [] :=
  sound.quiet i healthy fun waits => by
    rw [calm] at waits
    cases waits.1

theorem Sound.calm_of_idle (sound : system.Sound config p)
    (idle : (system.clients p).phase = .idle) : (system.clients p).awaiting = false := by
  by_contra waits
  obtain ⟨i, command, round, _⟩ := sound.awaited (Bool.eq_true_of_not_eq_false waits)
  rw [Client.command, idle] at round
  cases round

/-- A round is over: its connection has become quiet or has failed, and an answer `OK` means that
the server keeps the value. -/
theorem Sound.advance {ok : Bool} {command : Command κ υ} (sound : system.Sound config p)
    (moved : Local system after p) (round : (system.clients p).command = some (i, command))
    (inside : i < config.servers) (client : after.clients p = (system.clients p).advance ok)
    (sent : (after.conns p i).sent = (system.conns p i).sent)
    (silent : (after.conns p i).broken = false →
      (after.conns p i).sent = [] ∧ (after.conns p i).replies = [])
    (conns : ∀ j ≠ i, after.conns p j = system.conns p j)
    (meaning : ok = true → ∀ call n, (system.clients p).phase = .locking call i n →
      system.Protected p call.resource call.val (call.start + call.ttl) i) :
    after.Sound config p := by
  have sentAll : ∀ j, (after.conns p j).sent = (system.conns p j).sent := by
    intro j
    by_cases same : j = i
    · exact same ▸ sent
    · rw [conns j same]
  have guarded : ∀ j resource val deadline, system.Protected p resource val deadline j →
      after.Protected p resource val deadline j := by
    intro j resource val deadline
    apply moved.guarded
    intro command member
    exact .inl (sentAll j ▸ member)
  constructor
  · rw [client, Client.advance_locks]
    exact fun lock member => moved.owner p _ (sound.drawnLock lock member)
  · rw [client, Client.advance_continueLock]
    exact fun old remembered => moved.owner p _ (sound.drawnOld old remembered)
  · rw [client]
    exact fun resource val targets =>
      moved.owner p _ (sound.drawnTarget resource val (Client.targets_advance targets))
  · rw [client, Client.advance_locks]
    exact sound.distinct
  · rw [client, Client.advance_locks]
    exact fun lock member targets => sound.apart lock member (Client.targets_advance targets)
  · rw [client]
    intro j next current
    obtain ⟨before, current, positive⟩ := Client.command_of_advance current
    rw [round] at current
    have same : i = j - 1 := congrArg Prod.fst (Option.some.inj current)
    omega
  · rw [client]
    intro call j n locking
    obtain ⟨before, locking, _⟩ := Client.locking_of_advance locking
    rw [moved.now]
    exact sound.started call _ before locking
  · intro j healthy _
    by_cases same : j = i
    · subst same
      exact silent healthy
    · rw [conns j same] at healthy ⊢
      refine sound.quiet j healthy ?_
      rintro ⟨_, other, current⟩
      rw [round] at current
      exact same (congrArg Prod.fst (Option.some.inj current)).symm
  · rw [client, Client.advance_awaiting round]
    intro waits
    cases waits
  · rw [client]
    intro call j n locking
    obtain ⟨before, earlier, positive, count⟩ := Client.locking_of_advance locking
    have here : i = j - 1 := Client.round_of_locking earlier round
    have inner : after.Backed p call.resource call.val (call.start + call.ttl) (j - 1) before :=
      (sound.counted call _ before earlier).imp fun k _ => guarded k _ _ _
    obtain ⟨acks, among, enough, kept⟩ := inner
    have wider : Finset.range (j - 1) ⊆ Finset.range j :=
      Finset.range_subset_range.mpr (Nat.sub_le j 1)
    cases ok with
    | false =>
        subst count
        exact ⟨acks, among.trans wider, enough, kept⟩
    | true =>
        subst count
        refine ⟨insert i acks, ?_, ?_, ?_⟩
        · apply Finset.insert_subset
          · rw [Finset.mem_range]
            omega
          · exact among.trans wider
        · rw [Finset.card_insert_of_notMem fun member =>
            absurd (Finset.mem_range.mp (among member)) (by omega)]
          exact Nat.succ_le_succ enough
        · intro k member
          rcases Finset.mem_insert.mp member with rfl | old
          · exact guarded k _ _ _ (meaning rfl call before (here ▸ earlier))
          · exact kept k old
  · rw [client, Client.advance_locks]
    exact fun lock member => (sound.backed lock member).imp fun k _ => guarded k _ _ _

/-- The command of the round is sent. -/
theorem Sound.send {command : Command κ υ} (sound : system.Sound config p)
    (moved : Local system after p) (round : (system.clients p).command = some (i, command))
    (inside : i < config.servers) (calm : (system.clients p).awaiting = false)
    (healthy : (system.conns p i).broken = false)
    (client : after.clients p = { system.clients p with awaiting := true })
    (here : after.conns p i =
      { system.conns p i with sent := (system.conns p i).sent ++ [command] })
    (conns : ∀ j ≠ i, after.conns p j = system.conns p j) : after.Sound config p := by
  obtain ⟨noCommand, noReply⟩ := sound.calm calm healthy
  have guarded : ∀ j resource val deadline, (j = i → ¬command.Removes resource val) →
      system.Protected p resource val deadline j →
      after.Protected p resource val deadline j := by
    intro j resource val deadline harmless
    apply moved.guarded
    intro other member
    by_cases same : j = i
    · subst same
      rw [here, noCommand, List.nil_append, List.mem_singleton] at member
      subst member
      exact .inr (harmless rfl)
    · exact .inl (conns j same ▸ member)
  have targets : ∀ resource val, (after.clients p).Targets resource val →
      (system.clients p).Targets resource val := by
    rw [client]
    exact fun _ _ targets => targets
  constructor
  · rw [client]
    exact fun lock member => moved.owner p _ (sound.drawnLock lock member)
  · rw [client]
    exact fun old remembered => moved.owner p _ (sound.drawnOld old remembered)
  · exact fun resource val target =>
      moved.owner p _ (sound.drawnTarget resource val (targets resource val target))
  · rw [client]
    exact sound.distinct
  · intro lock member target
    rw [client] at member
    exact sound.apart lock member (targets _ _ target)
  · rw [client]
    exact sound.bounded
  · rw [client, moved.now]
    exact sound.started
  · intro j healthy notAwaited
    have different : j ≠ i := by
      rintro rfl
      apply notAwaited
      rw [client]
      exact ⟨rfl, command, round⟩
    rw [conns j different] at healthy ⊢
    exact sound.calm calm healthy
  · intro _
    refine ⟨i, command, ?_, inside, ?_, ?_⟩
    · rw [client]
      exact round
    · rw [here]
      exact healthy
    · apply Conn.Awaits.travels
      · rw [here, noCommand, List.nil_append]
      · rw [here, noReply]
  · rw [client]
    intro call j n locking
    refine (sound.counted call j n locking).imp fun k below => guarded k _ _ _ ?_
    intro same
    have := Client.round_of_locking locking round
    omega
  · rw [client]
    intro lock member
    refine (sound.backed lock member).imp fun k _ => guarded k _ _ _ ?_
    exact fun _ removes => sound.apart lock member (Client.targets_of_command round removes)

/-- A client that waits for nothing begins a loop, or ends its call. -/
theorem Sound.turn {client : Client κ υ} (sound : system.Sound config p)
    (moved : Local system after p) (conns : after.conns p = system.conns p)
    (turned : after.clients p = client) (calm : (system.clients p).awaiting = false)
    (stays : client.awaiting = false)
    (drawnOld : ∀ old, client.continueLock = some old → after.owner old = some p)
    (drawnTarget : ∀ resource val, client.Targets resource val → after.owner val = some p)
    (distinct : (client.locks.map CLock.val).Nodup)
    (apart : ∀ lock ∈ client.locks, ¬client.Targets lock.resource lock.val)
    (bounded : ∀ i command, client.command = some (i, command) → i = 0)
    (fresh : ∀ call i n, client.phase = .locking call i n → n = 0 ∧ call.start = system.now)
    (locks : ∀ lock ∈ client.locks, lock ∈ (system.clients p).locks ∨
      after.owner lock.val = some p ∧
        system.Backed p lock.resource lock.val (lock.start + lock.ttl) config.servers
          config.quoRum) :
    after.Sound config p := by
  subst turned
  have guarded : ∀ j resource val deadline, system.Protected p resource val deadline j →
      after.Protected p resource val deadline j := by
    intro j resource val deadline
    apply moved.guarded
    intro command member
    rw [conns] at member
    exact .inl member
  constructor
  · intro lock member
    rcases locks lock member with old | new
    · exact moved.owner p _ (sound.drawnLock lock old)
    · exact new.1
  · exact drawnOld
  · exact drawnTarget
  · exact distinct
  · exact apart
  · intro i command current
    rw [bounded i command current]
    exact Nat.zero_le _
  · intro call i n locking
    rw [(fresh call i n locking).2, moved.now]
  · intro i healthy _
    rw [conns] at healthy ⊢
    exact sound.calm calm healthy
  · rw [stays]
    intro waits
    cases waits
  · intro call i n locking
    rw [(fresh call i n locking).1]
    exact ⟨∅, Finset.empty_subset _, Nat.zero_le _, fun i member => absurd member (by simp)⟩
  · intro lock member
    have before : system.Backed p lock.resource lock.val (lock.start + lock.ttl) config.servers
        config.quoRum := by
      rcases locks lock member with old | new
      · exact sound.backed lock old
      · exact new.2
    exact before.imp fun j _ => guarded j _ _ _

theorem local_setClient (system : System κ υ) (p : Nat) (client : Client κ υ) :
    Local system (system.setClient p client) p where
  now := rfl
  redis := rfl
  owner := fun _ _ drawn => drawn
  clients := fun _ different => setClient_of_ne different
  conns := fun _ _ => rfl

theorem local_setConn (system : System κ υ) (p i : Nat) (conn : Conn κ υ) (client : Client κ υ) :
    Local system ((system.setConn p i conn).setClient p client) p where
  now := rfl
  redis := rfl
  owner := fun _ _ drawn => drawn
  clients := fun _ different => setClient_of_ne different
  conns := fun _ different => setConn_other different

theorem Sound.finish {command : Command κ υ} (sound : system.Sound config p)
    (calm : (system.clients p).awaiting = false)
    (round : (system.clients p).command = some (i, command)) :
    (system.setClient p ((system.clients p).finish config system.now)).Sound config p := by
  have own : ∀ call j n, (system.clients p).phase = .locking call j n → ∀ resource,
      (system.clients p).Targets resource call.val := by
    intro call j n locking resource
    simp only [Client.Targets, locking]
    exact .inl rfl
  apply sound.turn (local_setClient system p _) rfl setClient_self calm
  · rw [Client.finish_awaiting, calm]
  · intro old remembered
    rcases Client.continueLock_of_finish remembered with before | ⟨call, j, n, locking, rfl⟩
    · exact sound.drawnOld old before
    · exact sound.drawnTarget call.resource call.val (own call j n locking call.resource)
  · exact fun resource val targets =>
      sound.drawnTarget resource val (Client.targets_finish targets)
  · rcases Client.finish_cases config system.now (system.clients p) with
      ⟨call, j, n, locking, _, _, _, locks⟩ | locks
    · rw [locks, List.map_append, List.nodup_append]
      refine ⟨sound.distinct, by simp, ?_⟩
      rintro val member other added rfl
      obtain ⟨lock, held, rfl⟩ := List.mem_map.mp member
      simp only [List.map_cons, List.map_nil, List.mem_singleton] at added
      exact sound.apart lock held (added ▸ own call j n locking _)
    · rw [locks]
      exact sound.distinct
  · intro lock member targets
    rcases Client.finish_cases config system.now (system.clients p) with
      ⟨call, j, n, _, _, _, idle, _⟩ | locks
    · rw [Client.Targets, idle] at targets
      exact targets
    · rw [locks] at member
      exact sound.apart lock member (Client.targets_finish targets)
  · exact fun j next current => Client.finish_round current
  · intro call j n locking
    obtain ⟨_, none, began, _⟩ := Client.finish_first locking
    exact ⟨none, began⟩
  · intro lock member
    rcases Client.finish_cases config system.now (system.clients p) with
      ⟨call, j, n, locking, enough, _, _, locks⟩ | locks
    · rw [locks, List.mem_append, List.mem_singleton] at member
      rcases member with old | rfl
      · exact .inl old
      · have inside : j ≤ config.servers :=
          sound.bounded j command (Client.round_of_locking locking round ▸ round)
        obtain ⟨acks, among, counted, kept⟩ := sound.counted call j n locking
        exact .inr ⟨sound.drawnTarget call.resource call.val (own call j n locking _), acks,
          among.trans (Finset.range_subset_range.mpr inside), le_trans enough counted, kept⟩
    · rw [locks] at member
      exact .inl member

theorem Safe.finish {command : Command κ υ} (safe : system.Safe config)
    (calm : (system.clients p).awaiting = false)
    (round : (system.clients p).command = some (i, command)) :
    (system.setClient p ((system.clients p).finish config system.now)).Safe config :=
  safe.act (local_setClient system p _) (fun _ _ member => .inl member)
    ((safe.sound p).finish calm round)

end System

end BespoKV.Redlock
