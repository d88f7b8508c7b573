import BespoKV.Redlock.Model

/-!
# Rounds of a call

How a call moves from server to server, what follows its loops, and what it may delete.
-/

namespace BespoKV.Redlock

open Leases

variable {κ υ : Type}

/-- The command deletes this value of this resource. -/
def Command.Removes (resource : κ) (val : υ) : Command κ υ → Prop
  | .lockInstance _ _ _ => False
  | .continueLockInstance there old _ _ => there = resource ∧ old = val
  | .unlockInstance there old => there = resource ∧ old = val

/-- Commands that do not delete a value leave it where it is until it expires. -/
theorem Command.execute_keeps [DecidableEq κ] [DecidableEq υ] {command : Command κ υ}
    {store : Store κ υ} {now deadline : Int} {resource : κ} {val : υ}
    (keeps : store.Keeps resource val deadline) (early : now < deadline)
    (harmless : ¬command.Removes resource val) :
    (command.execute now store).2.Keeps resource val deadline := by
  cases command with
  | lockInstance => exact keeps.setNx early
  | continueLockInstance => exact (keeps.delIf early harmless).setNx early
  | unlockInstance => exact keeps.delIf early harmless

/-! ## Rounds of a call -/

section Rounds

variable {client : Client κ υ} {call : Call κ υ} {i n round : Nat} {command : Command κ υ}
variable {ok : Bool}

theorem Client.round_of_locking (locking : client.phase = .locking call i n)
    (current : client.command = some (round, command)) : round = i := by
  simp only [Client.command, locking] at current
  split at current
  · exact (congrArg Prod.fst (Option.some.inj current)).symm
  · exact (congrArg Prod.fst (Option.some.inj current)).symm

@[simp] theorem Client.advance_locks : (client.advance ok).locks = client.locks := by
  unfold Client.advance
  split <;> rfl

@[simp] theorem Client.advance_continueLock :
    (client.advance ok).continueLock = client.continueLock := by
  unfold Client.advance
  split <;> rfl

theorem Client.advance_awaiting (current : client.command = some (round, command)) :
    (client.advance ok).awaiting = false := by
  unfold Client.advance
  split
  next idle =>
    rw [Client.command, idle] at current
    cases current
  · rfl
  · rfl

theorem Client.locking_of_advance (locking : (client.advance ok).phase = .locking call i n) :
    ∃ before, client.phase = .locking call (i - 1) before ∧ 0 < i ∧
      n = if ok then before + 1 else before := by
  unfold Client.advance at locking
  split at locking
  next idle =>
    rw [idle] at locking
    cases locking
  next earlier round count current =>
    cases locking
    exact ⟨count, current, Nat.succ_pos _, rfl⟩
  · cases locking

theorem Client.command_of_advance (current : (client.advance ok).command = some (round, command)) :
    ∃ before, client.command = some (round - 1, before) ∧ 0 < round := by
  rcases client with ⟨phase, awaiting, old, locks⟩
  cases phase with
  | idle => cases current
  | locking call i n =>
      simp only [Client.advance, Client.command] at current ⊢
      split at current
      next continuing =>
        obtain ⟨rfl, rfl⟩ := current
        exact ⟨_, if_pos continuing, Nat.succ_pos _⟩
      next plain =>
        obtain ⟨rfl, rfl⟩ := current
        exact ⟨_, if_neg plain, Nat.succ_pos _⟩
  | unlocking resource val i call =>
      obtain ⟨rfl, rfl⟩ := current
      exact ⟨_, rfl, Nat.succ_pos _⟩

@[simp] theorem Client.remember_locks : (client.remember call).locks = client.locks := by
  unfold Client.remember
  split <;> rfl

@[simp] theorem Client.remember_awaiting :
    (client.remember call).awaiting = client.awaiting := by
  unfold Client.remember
  split <;> rfl

theorem Client.continueLock_of_remember {old : υ}
    (remembered : (client.remember call).continueLock = some old) :
    client.continueLock = some old ∨ old = call.val := by
  unfold Client.remember at remembered
  split at remembered
  · exact .inr (Option.some.inj remembered).symm
  · exact .inl remembered

/-- After the loop a lock is granted, with a majority of successes, or the locks do not
change. -/
theorem Client.finish_cases (config : Config) (now : Int) (client : Client κ υ) :
    (∃ call i n, client.phase = .locking call i n ∧ config.quoRum ≤ n ∧
      0 < call.validityTime config now ∧ (client.finish config now).phase = .idle ∧
      (client.finish config now).locks = client.locks ++
        [⟨call.resource, call.val, call.validityTime config now, call.start, now, call.ttl⟩]) ∨
    (client.finish config now).locks = client.locks := by
  rcases client with ⟨phase, awaiting, old, locks⟩
  cases phase with
  | idle => exact .inr rfl
  | locking call i n =>
      simp only [Client.finish]
      split
      next granted => exact .inl ⟨call, i, n, rfl, granted.1, granted.2, rfl, rfl⟩
      next => exact .inr Client.remember_locks
  | unlocking resource val i call =>
      cases call with
      | none => exact .inr rfl
      | some call =>
          simp only [Client.finish]
          split
          · exact .inr rfl
          · exact .inr rfl

theorem Client.finish_awaiting (config : Config) (now : Int) (client : Client κ υ) :
    (client.finish config now).awaiting = client.awaiting := by
  unfold Client.finish
  split
  · rfl
  · split
    · exact Client.remember_awaiting
    · exact Client.remember_awaiting
  · rfl
  · split
    · rfl
    · rfl

/-- `m_continueLock` is left as it is or takes the value of the call. -/
theorem Client.continueLock_of_finish {config : Config} {now : Int} {old : υ}
    (remembered : (client.finish config now).continueLock = some old) :
    client.continueLock = some old ∨ ∃ call i n, client.phase = .locking call i n ∧
      old = call.val := by
  unfold Client.finish at remembered
  split at remembered
  · exact .inl remembered
  next call i n locking =>
    have kept : (client.remember call).continueLock = some old := by
      split at remembered
      · exact remembered
      · exact remembered
    rcases Client.continueLock_of_remember kept with before | own
    · exact .inl before
    · exact .inr ⟨call, i, n, locking, own⟩
  · exact .inl remembered
  · split at remembered
    · exact .inl remembered
    · exact .inl remembered

/-- The next loop begins at the first server; the clock has just been read for it. -/
theorem Client.finish_first {config : Config} {now : Int} {call : Call κ υ}
    (locking : (client.finish config now).phase = .locking call i n) :
    i = 0 ∧ n = 0 ∧ call.start = now ∧ call.startTime = millis now := by
  unfold Client.finish at locking
  split at locking
  next idle =>
    rw [idle] at locking
    cases locking
  · split at locking
    · cases locking
    · cases locking
  · cases locking
  · split at locking
    · cases locking
      exact ⟨rfl, rfl, rfl, rfl⟩
    · cases locking

theorem Client.finish_round {config : Config} {now : Int}
    (current : (client.finish config now).command = some (round, command)) : round = 0 := by
  unfold Client.finish at current
  split at current
  next idle =>
    rw [Client.command, idle] at current
    cases current
  · split at current
    · cases current
    · exact (congrArg Prod.fst (Option.some.inj current)).symm
  · cases current
  · split at current
    · exact Client.round_of_locking rfl current
    · cases current

end Rounds

/-! ## What a running call may delete -/

/-- The value of the call, and the one that the script of `ContinueLock` replaces. -/
def Call.Targets (old : Option υ) (call : Call κ υ) (resource : κ) (val : υ) : Prop :=
  val = call.val ∨ call.continuing = true ∧ resource = call.resource ∧ val = old.getD call.val

/-- What the client may delete before its call is over. -/
def Client.Targets (client : Client κ υ) (resource : κ) (val : υ) : Prop :=
  match client.phase with
  | .idle => False
  | .locking call _ _ => call.Targets client.continueLock resource val
  | .unlocking _ current _ none => val = current
  | .unlocking _ current _ (some call) =>
      val = current ∨ call.Targets client.continueLock resource val

section Targets

variable {client : Client κ υ} {resource : κ} {val : υ} {ok : Bool}

theorem Client.targets_of_command {i : Nat} {command : Command κ υ}
    (current : client.command = some (i, command)) (removes : command.Removes resource val) :
    client.Targets resource val := by
  rcases client with ⟨phase, awaiting, old, locks⟩
  cases phase with
  | idle => cases current
  | locking call round n =>
      simp only [Client.command] at current
      split at current
      next continuing =>
        obtain ⟨rfl, rfl⟩ := current
        exact .inr ⟨continuing, removes.1.symm, removes.2.symm⟩
      next =>
        obtain ⟨rfl, rfl⟩ := current
        exact removes.elim
  | unlocking there current round call =>
      obtain ⟨rfl, rfl⟩ := current
      cases call with
      | none => exact removes.2.symm
      | some call => exact .inl removes.2.symm

theorem Client.targets_advance (targets : (client.advance ok).Targets resource val) :
    client.Targets resource val := by
  rcases client with ⟨phase, awaiting, old, locks⟩
  cases phase with
  | idle => exact targets
  | locking call round n => exact targets
  | unlocking there current round call =>
      cases call with
      | none => exact targets
      | some call => exact targets

/-- `ContinueLock` replaces its own value from the second attempt on. -/
theorem Call.targets_remembered (client : Client κ υ) {call : Call κ υ}
    (targets : call.Targets (client.remember call).continueLock resource val) :
    call.Targets client.continueLock resource val := by
  rcases targets with own | ⟨continuing, there, replaced⟩
  · exact .inl own
  · rw [Client.remember, if_pos continuing] at replaced
    exact .inl replaced

theorem Client.targets_finish {config : Config} {now : Int}
    (targets : (client.finish config now).Targets resource val) : client.Targets resource val := by
  rcases client with ⟨phase, awaiting, old, locks⟩
  cases phase with
  | idle => exact targets
  | locking call round n =>
      simp only [Client.finish] at targets
      split at targets
      · exact targets.elim
      · rcases targets with own | later
        · exact .inl own
        · exact Call.targets_remembered ⟨.locking call round n, awaiting, old, locks⟩ later
  | unlocking there current round call =>
      cases call with
      | none => exact targets.elim
      | some call =>
          simp only [Client.finish] at targets
          split at targets
          · exact .inr targets
          · exact targets.elim

end Targets

end BespoKV.Redlock
