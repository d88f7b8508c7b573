import BespoKV.Redlock.Exclusion

/-!
# The validity time

`Lock` reports how long the lock is valid.  It takes the time from a clock with seconds, so the
validity time may end up to 999 milliseconds after the time to live has passed since the attempt
began, less the allowance for clock drift.  The 32-bit arithmetic overflows on every
real clock, but the overflows cancel.  A caller that stops a second early is alone.
-/

namespace BespoKV.Redlock

open Transition

variable {κ υ : Type}

/-- The difference of two clock readings does not see the overflows. -/
theorem wrap_millis_sub {start now : Int} (forward : start ≤ now)
    (short : now - start < 2 ^ 31 - 1000) :
    CInt.wrap (millis now - millis start) = (now / 1000 - start / 1000) * 1000 := by
  obtain ⟨seconds, secondsEq⟩ := CInt.exists_wrap_eq (now / 1000)
  obtain ⟨startSeconds, startSecondsEq⟩ := CInt.exists_wrap_eq (start / 1000)
  obtain ⟨k, millisEq⟩ := CInt.exists_wrap_eq (CInt.wrap (now / 1000) * 1000)
  obtain ⟨j, startEq⟩ := CInt.exists_wrap_eq (CInt.wrap (start / 1000) * 1000)
  obtain ⟨m, whole⟩ := CInt.exists_wrap_eq (millis now - millis start)
  have range := CInt.wrap_range (millis now - millis start)
  unfold millis at *
  omega

/-- A lock that is granted does not claim to be valid for longer than a second after its values
have expired, less the drift. -/
theorem Call.validityTime_le {config : Config} {call : Call κ υ} {now : Int}
    (read : call.startTime = millis call.start) (forward : call.start ≤ now)
    (short : now - call.start < 2 ^ 31 - 2000) (ttl : 0 ≤ call.ttl ∧ call.ttl < 2 ^ 31)
    (drift : 0 ≤ config.drift call.ttl ∧ config.drift call.ttl ≤ call.ttl + 2) :
    now + call.validityTime config now ≤
      call.start + call.ttl + 999 - config.drift call.ttl := by
  rw [Call.validityTime, read, wrap_millis_sub forward (by omega)]
  rw [CInt.wrap_of_fits (n := call.ttl - (now / 1000 - call.start / 1000) * 1000)
    (by omega) (by omega)]
  rw [CInt.wrap_of_fits (by omega) (by omega)]
  omega

/-! ## What a step does to a client -/

section Moves

variable [DecidableEq κ] [DecidableEq υ] {config : Config} {now : Int}

inductive Client.Move (config : Config) (now : Int) (client : Client κ υ) : Client κ υ → Prop where
  | stay : Move config now client client
  | wait : Move config now client { client with awaiting := true }
  | advance (ok : Bool) : Move config now client (client.advance ok)
  | finish : Move config now client (client.finish config now)
  | call (continuing : Bool) (resource : κ) (ttl : Int) (val : υ) :
      Move config now client (client.call config now continuing resource ttl val)
  | unlock (lock : CLock κ υ) : Move config now client (client.unlock lock)

theorem System.move_setClient (system : System κ υ) {p : Nat} {client : Client κ υ}
    (move : (system.clients p).Move config now client) (q : Nat) :
    (system.clients q).Move config now ((system.setClient p client).clients q) := by
  by_cases same : q = p
  · subst same
    rwa [System.setClient_self]
  · rw [System.setClient_of_ne same]
    exact .stay

theorem System.move_of_step {system after : System κ υ} {event : Event κ υ}
    (moved : system.step config event = .ok after) :
    system.now ≤ after.now ∧ ∀ q, (system.clients q).Move config system.now (after.clients q) := by
  cases event with
  | tick ms =>
      cases moved
      exact ⟨Int.le_add_of_nonneg_right (Int.natCast_nonneg ms), fun _ => .stay⟩
  | lock p continuing resource ttl val =>
      simp only [System.step] at moved
      split at moved
      · cases moved
        exact ⟨le_refl _, move_setClient system (.call continuing resource ttl val)⟩
      · cases moved
  | unlock p lock =>
      simp only [System.step] at moved
      split at moved
      · cases moved
        exact ⟨le_refl _, move_setClient system (.unlock lock)⟩
      · cases moved
  | proceed p =>
      simp only [System.step, System.proceed] at moved
      split at moved
      · cases moved
      split at moved
      · cases moved
      split at moved
      · cases moved
        exact ⟨le_refl _, move_setClient system .finish⟩
      split at moved
      · cases moved
        exact ⟨le_refl _, move_setClient system (.advance false)⟩
      · cases moved
        exact ⟨le_refl _, move_setClient (system.setConn _ _ _) .wait⟩
  | execute p i =>
      obtain ⟨command, executed⟩ := executed_of_execute moved
      rw [executed.clients]
      exact ⟨le_of_eq executed.now.symm, fun _ => .stay⟩
  | receive p =>
      simp only [System.step, System.receive] at moved
      split at moved
      · split at moved
        · cases moved
        split at moved
        · cases moved
        · cases moved
          exact ⟨le_refl _, move_setClient (system.setConn _ _ _) (.advance _)⟩
      · cases moved
  | fail p =>
      simp only [System.step, System.fail] at moved
      split at moved
      · split at moved
        · cases moved
        · cases moved
          exact ⟨le_refl _, move_setClient (system.setConn _ _ _) (.advance false)⟩
      · cases moved

/-- The clock was read at the time recorded as the beginning. -/
structure Call.Timed (call : Call κ υ) (now : Int) : Prop where
  read : call.startTime = millis call.start
  past : call.start ≤ now

/-- The validity time was computed by a timed call when the lock was granted. -/
def CLock.Timed (config : Config) (lock : CLock κ υ) : Prop :=
  ∃ call : Call κ υ, call.Timed lock.returned ∧ call.start = lock.start ∧ call.ttl = lock.ttl ∧
    lock.validityTime = call.validityTime config lock.returned

structure Client.Timed (config : Config) (client : Client κ υ) (now : Int) : Prop where
  call : ∀ call i n, client.phase = .locking call i n → call.Timed now
  lock : ∀ lock ∈ client.locks, lock.Timed config

omit [DecidableEq κ] [DecidableEq υ] in
theorem CLock.Timed.returned_add_le {lock : CLock κ υ} (timed : lock.Timed config)
    (short : lock.returned - lock.start < 2 ^ 31 - 2000)
    (ttl : 0 ≤ lock.ttl ∧ lock.ttl < 2 ^ 31)
    (drift : 0 ≤ config.drift lock.ttl ∧ config.drift lock.ttl ≤ lock.ttl + 2) :
    lock.returned + lock.validityTime ≤ lock.start + lock.ttl + 999 := by
  obtain ⟨call, ⟨read, past⟩, start, sameTtl, validity⟩ := timed
  rw [← start] at short ⊢
  rw [← sameTtl] at ttl drift ⊢
  have bound := Call.validityTime_le read past short ttl drift
  rw [validity]
  omega

theorem Client.Timed.move {client moved : Client κ υ} (timed : client.Timed config now)
    (move : client.Move config now moved) : moved.Timed config now := by
  cases move with
  | stay => exact timed
  | wait => exact ⟨timed.call, timed.lock⟩
  | advance ok =>
      constructor
      · intro call i n locking
        obtain ⟨before, earlier, _⟩ := Client.locking_of_advance locking
        exact timed.call call _ before earlier
      · rw [Client.advance_locks]
        exact timed.lock
  | finish =>
      constructor
      · intro call i n locking
        obtain ⟨_, _, began, read⟩ := Client.finish_first locking
        exact ⟨began ▸ read, le_of_eq began⟩
      · intro lock member
        rcases Client.finish_cases config now client with
          ⟨call, i, n, locking, _, _, _, locks⟩ | locks
        · rw [locks, List.mem_append, List.mem_singleton] at member
          rcases member with old | rfl
          · exact timed.lock lock old
          · exact ⟨call, timed.call call i n locking, rfl, rfl, rfl⟩
        · exact timed.lock lock (locks ▸ member)
  | call continuing resource ttl val =>
      unfold Client.call
      split
      · refine ⟨?_, fun lock member => timed.lock lock (List.mem_of_mem_filter member)⟩
        intro call i n locking
        cases locking
        exact ⟨rfl, le_refl _⟩
      · refine ⟨?_, timed.lock⟩
        intro call i n locking
        cases locking
        exact ⟨rfl, le_refl _⟩
  | unlock lock =>
      refine ⟨?_, fun other member => timed.lock other (List.mem_of_mem_filter member)⟩
      intro call i n locking
      cases locking

omit [DecidableEq κ] [DecidableEq υ] in
theorem Client.Timed.later {client : Client κ υ} {later : Int} (timed : client.Timed config now)
    (passed : now ≤ later) : client.Timed config later where
  call := fun call i n locking =>
    ⟨(timed.call call i n locking).read, le_trans (timed.call call i n locking).past passed⟩
  lock := timed.lock

end Moves

namespace System

variable [DecidableEq κ] [DecidableEq υ] {config : Config} {system : System κ υ} {p q : Nat}

theorem Reachable.timed (reachable : Reachable config system) (q : Nat) :
    (system.clients q).Timed config system.now := by
  refine Runs.invariant (fun system => ∀ q, (system.clients q).Timed config system.now) ?_
    reachable ?_ q
  · intro system event after timed _ moved q
    obtain ⟨passed, moves⟩ := move_of_step moved
    exact ((timed q).move (moves q)).later passed
  · intro q
    constructor
    · intro call i n locking
      cases locking
    · exact fun lock member => absurd member List.not_mem_nil

/-- A caller that stops using its lock one second before the validity time is over is the only
one that uses the resource, if no attempt took more than 24 days. -/
theorem validity_is_exclusive {lock other : CLock κ υ} (reachable : Reachable config system)
    (drift : ∀ ttl, 0 ≤ ttl → 0 ≤ config.drift ttl ∧ config.drift ttl ≤ ttl + 2)
    (held : lock ∈ (system.clients p).locks) (heldToo : other ∈ (system.clients q).locks)
    (same : lock.resource = other.resource)
    (ttl : 0 ≤ lock.ttl ∧ lock.ttl < 2 ^ 31) (ttlToo : 0 ≤ other.ttl ∧ other.ttl < 2 ^ 31)
    (short : lock.returned - lock.start < 2 ^ 31 - 2000)
    (shortToo : other.returned - other.start < 2 ^ 31 - 2000)
    (valid : system.now + 1000 ≤ lock.returned + lock.validityTime)
    (validToo : system.now + 1000 ≤ other.returned + other.validityTime) :
    p = q ∧ lock = other := by
  have bound := CLock.Timed.returned_add_le ((reachable.timed p).lock lock held) short ttl
    (drift _ ttl.1)
  have boundToo := CLock.Timed.returned_add_le ((reachable.timed q).lock other heldToo) shortToo
    ttlToo (drift _ ttlToo.1)
  exact reachable.exclusive held heldToo same (by omega) (by omega)

theorem validity_is_exclusive_sample : ∃ system : System Nat Nat,
    Reachable sampleConfig system ∧ sampleLock ∈ (system.clients 0).locks ∧
    system.now + 1000 ≤ sampleLock.returned + sampleLock.validityTime ∧
    ∀ q, sampleLock ∈ (system.clients q).locks → 0 = q := by
  obtain ⟨system, reachable, post⟩ := exists_sample
  obtain ⟨now, locks⟩ := of_decide_eq_true post
  have held : sampleLock ∈ (system.clients 0).locks := by simp [locks]
  have valid : system.now + 1000 ≤ sampleLock.returned + sampleLock.validityTime := by
    rw [now]
    decide
  have drift : ∀ ttl, 0 ≤ ttl → 0 ≤ sampleConfig.drift ttl ∧ sampleConfig.drift ttl ≤ ttl + 2 := by
    intro ttl positive
    simp only [sampleConfig]
    omega
  refine ⟨system, reachable, held, valid, fun q heldToo => ?_⟩
  exact (validity_is_exclusive reachable drift held heldToo rfl (by decide) (by decide)
    (by decide) (by decide) valid valid).1

end System

end BespoKV.Redlock
