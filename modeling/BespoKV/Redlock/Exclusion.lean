import BespoKV.Redlock.Invariant

/-!
# Two clients never hold one lock

Every step keeps the invariant.  So a granted lock has a majority of the servers until the time
to live has passed since the successful attempt began, and two majorities meet.
-/

namespace BespoKV.Redlock.System

open Leases Transition

variable {κ υ : Type} {config : Config} {system after : System κ υ} {p q i : Nat}
variable {resource : κ} {val : υ} {deadline : Int}

/-! ## Rounds -/

theorem Safe.proceed (safe : system.Safe config) (calm : (system.clients p).awaiting = false)
    (moved : system.proceed config p = .ok after) : after.Safe config := by
  unfold System.proceed at moved
  dsimp only at moved
  split at moved
  · cases moved
  next i command round =>
    split at moved
    · cases moved
      exact safe.finish calm round
    next below =>
      split at moved
      next broken =>
        cases moved
        refine safe.act (local_setClient system p _) (fun _ _ member => .inl member) ?_
        refine (safe.sound p).advance (local_setClient system p _) round (by omega)
          setClient_self rfl ?_ (fun _ _ => rfl) ?_
        · intro healthy
          exact absurd (healthy.symm.trans broken) (by decide)
        · intro ok
          cases ok
      next healthy =>
        cases moved
        have idle : (system.conns p i).broken = false := by simpa using healthy
        refine safe.act (local_setConn system p i _ _) ?_ ?_
        · intro j other member
          by_cases same : j = i
          · subst same
            have either : other ∈ (system.conns p j).sent ∨ other = command := by
              simpa [setClient, setConn] using member
            rcases either with old | rfl
            · exact .inl old
            · exact .inr ⟨j, round⟩
          · exact .inl (by simpa [setClient, setConn, same] using member)
        · exact (safe.sound p).send (local_setConn system p i _ _) round (by omega) calm idle
            setClient_self setConn_self (fun j different => setConn_of_ne different)

/-- The end of a wait, with a reply or without. -/
theorem Safe.answer {conn : Conn κ υ} {ok : Bool} {command : Command κ υ}
    (safe : system.Safe config) (round : (system.clients p).command = some (i, command))
    (inside : i < config.servers) (sent : conn.sent = (system.conns p i).sent)
    (silent : conn.broken = false → conn.sent = [] ∧ conn.replies = [])
    (meaning : ok = true → ∀ call n, (system.clients p).phase = .locking call i n →
      system.Protected p call.resource call.val (call.start + call.ttl) i) :
    ((system.setConn p i conn).setClient p ((system.clients p).advance ok)).Safe config := by
  refine safe.act (local_setConn system p i _ _) ?_ ?_
  · intro j other member
    by_cases same : j = i
    · subst same
      rw [← sent]
      exact .inl (by simpa [setClient, setConn] using member)
    · exact .inl (by simpa [setClient, setConn, same] using member)
  · refine (safe.sound p).advance (local_setConn system p i _ _) round inside setClient_self ?_ ?_
      (fun j different => setConn_of_ne different) meaning
    · rw [← sent]
      exact congrArg Conn.sent setConn_self
    · rw [show ((system.setConn p i conn).setClient p _).conns p i = conn from setConn_self]
      exact silent

theorem Safe.receive (safe : system.Safe config) (waits : (system.clients p).awaiting = true)
    (moved : system.receive p = .ok after) : after.Safe config := by
  obtain ⟨i, command, round, inside, _, awaits⟩ := (safe.sound p).awaited waits
  simp only [System.receive, round] at moved
  cases awaits with
  | travels sent replies =>
      rw [replies] at moved
      cases moved
  | answered ok sent replies meaning =>
      rw [replies] at moved
      cases moved
      exact safe.answer round inside rfl (fun _ => ⟨sent, rfl⟩) meaning

theorem Safe.fail (safe : system.Safe config) (waits : (system.clients p).awaiting = true)
    (moved : system.fail p = .ok after) : after.Safe config := by
  obtain ⟨i, command, round, inside, _⟩ := (safe.sound p).awaited waits
  simp only [System.fail, round] at moved
  cases moved
  refine safe.answer round inside rfl ?_ ?_
  · intro healthy
    cases healthy
  · intro ok
    cases ok

section

variable [DecidableEq κ] [DecidableEq υ]

/-! ## Calls -/

/-- A call of `Lock` or `ContinueLock` with a value nobody has drawn. -/
theorem Safe.call {continuing : Bool} {ttl : Int} (safe : system.Safe config)
    (idle : (system.clients p).phase = .idle) (unused : system.owner val = none) :
    Safe config { system.setClient p
        ((system.clients p).call config system.now continuing resource ttl val) with
      owner := Function.update system.owner val (some p) } := by
  have sound := safe.sound p
  have drawn : ∀ q other, system.owner other = some q →
      Function.update system.owner val (some p) other = some q := by
    intro q other before
    have different : other ≠ val := by
      rintro rfl
      rw [unused] at before
      cases before
    rw [Function.update_of_ne different, before]
  have moved : Local system { system.setClient p
      ((system.clients p).call config system.now continuing resource ttl val) with
      owner := Function.update system.owner val (some p) } p :=
    { local_setClient system p _ with owner := drawn }
  have foreign : ∀ lock ∈ (system.clients p).locks, lock.val ≠ val := by
    rintro lock member rfl
    rw [sound.drawnLock lock member] at unused
    cases unused
  have old : ∀ old, (system.clients p).continueLock.getD val = old →
      Function.update system.owner val (some p) old = some p := by
    rintro old rfl
    cases remembered : (system.clients p).continueLock with
    | none => exact Function.update_self ..
    | some old => exact drawn p old (sound.drawnOld old remembered)
  refine safe.act moved (fun _ _ member => .inl member) ?_
  apply sound.turn moved rfl setClient_self (sound.calm_of_idle idle)
  · unfold Client.call
    split
    · exact sound.calm_of_idle idle
    · exact sound.calm_of_idle idle
  · intro replaced remembered
    unfold Client.call at remembered
    split at remembered
    · exact old replaced (Option.some.inj remembered)
    · exact drawn p replaced (sound.drawnOld replaced remembered)
  · intro there target targets
    unfold Client.call at targets
    split at targets
    · rcases targets with rfl | ⟨_, _, rfl⟩
      · exact Function.update_self ..
      · exact old _ rfl
    next plain =>
      rcases targets with rfl | ⟨continues, _⟩
      · exact Function.update_self ..
      · exact absurd continues plain
  · unfold Client.call
    split
    · exact sound.distinct.sublist (List.filter_sublist.map _)
    · exact sound.distinct
  · intro lock member targets
    unfold Client.call at member targets
    split at targets
    next continues =>
      rw [if_pos continues] at member
      simp only [List.mem_filter, decide_eq_true_eq] at member
      rcases targets with same | ⟨_, there, replaced⟩
      · exact foreign lock member.1 same
      · exact member.2 ⟨there, replaced⟩
    next plain =>
      rw [if_neg plain] at member
      rcases targets with same | ⟨continues, _⟩
      · exact foreign lock member same
      · exact plain continues
  · intro round command current
    unfold Client.call at current
    split at current
    · exact Client.round_of_locking rfl current
    · exact Client.round_of_locking rfl current
  · intro call round n locking
    unfold Client.call at locking
    split at locking
    · cases locking
      exact ⟨rfl, rfl⟩
    · cases locking
      exact ⟨rfl, rfl⟩
  · intro lock member
    unfold Client.call at member
    split at member
    · exact .inl (List.mem_of_mem_filter member)
    · exact .inl member

omit [DecidableEq κ] in
/-- A call of `Unlock`. -/
theorem Safe.unlock {lock : CLock κ υ} (safe : system.Safe config)
    (idle : (system.clients p).phase = .idle) (held : lock ∈ (system.clients p).locks) :
    (system.setClient p ((system.clients p).unlock lock)).Safe config := by
  have sound := safe.sound p
  refine safe.act (local_setClient system p _) (fun _ _ member => .inl member) ?_
  apply sound.turn (local_setClient system p _) rfl setClient_self (sound.calm_of_idle idle)
  · exact sound.calm_of_idle idle
  · exact sound.drawnOld
  · rintro there target rfl
    exact sound.drawnLock lock held
  · exact sound.distinct.sublist (List.filter_sublist.map _)
  · intro other member same
    simp only [Client.unlock, List.mem_filter, decide_eq_true_eq] at member
    exact member.2 same
  · intro round command current
    exact (congrArg Prod.fst (Option.some.inj current)).symm
  · intro call round n locking
    cases locking
  · intro other member
    exact .inl (List.mem_of_mem_filter member)

/-! ## Execution -/

/-- A server that answers `OK` has the value for the whole time to live. -/
theorem Client.keeps_of_execute {client : Client κ υ} {call : Call κ υ} {n : Nat}
    {command : Command κ υ} {store : Store κ υ} {now : Int}
    (locking : client.phase = .locking call i n) (current : client.command = some (i, command))
    (ok : (command.execute now store).1 = true) :
    (command.execute now store).2.Keeps call.resource call.val (now + call.ttl) := by
  simp only [Client.command, locking] at current
  split at current
  · obtain ⟨_, rfl⟩ := current
    exact Store.keeps_of_setNx ok
  · obtain ⟨_, rfl⟩ := current
    exact Store.keeps_of_setNx ok

/-- Server `i` has executed a command of client `p`. -/
structure Executed (system after : System κ υ) (p i : Nat) (command : Command κ υ) : Prop where
  now : after.now = system.now
  clients : after.clients = system.clients
  owner : after.owner = system.owner
  others : ∀ q ≠ p, after.conns q = system.conns q
  elsewhere : ∀ j ≠ i, after.conns p j = system.conns p j
  sent : (system.conns p i).sent = command :: (after.conns p i).sent
  replies : (after.conns p i).replies =
    (system.conns p i).replies ++ [(command.execute system.now (system.redis i)).1]
  broken : (after.conns p i).broken = (system.conns p i).broken
  redis : after.redis =
    Function.update system.redis i (command.execute system.now (system.redis i)).2

theorem executed_of_execute (moved : system.execute p i = .ok after) :
    ∃ command, Executed system after p i command := by
  unfold System.execute at moved
  dsimp only at moved
  split at moved
  · cases moved
  next command rest sent =>
    cases moved
    refine ⟨command, rfl, rfl, rfl, fun q different => setConn_other different,
      fun j different => setConn_of_ne different, ?_, ?_, ?_, rfl⟩
    all_goals simp [setConn, sent]

section Executed

variable {command : Command κ υ}

theorem Executed.shrinks (executed : Executed system after p i command) (j : Nat)
    {other : Command κ υ} (member : other ∈ (after.conns p j).sent) :
    other ∈ (system.conns p j).sent := by
  by_cases same : j = i
  · subst same
    rw [executed.sent]
    exact List.mem_cons_of_mem command member
  · exact executed.elsewhere j same ▸ member

theorem Executed.kept (executed : Executed system after p i command) {j : Nat}
    (keeps : (system.redis j).Keeps resource val deadline) (early : after.now < deadline)
    (harmless : j = i → ¬command.Removes resource val) :
    (after.redis j).Keeps resource val deadline := by
  rw [executed.now] at early
  rw [executed.redis]
  by_cases same : j = i
  · subst same
    rw [Function.update_self]
    exact Command.execute_keeps keeps early (harmless rfl)
  · rwa [Function.update_of_ne same]

/-- What a client has sent does not delete what is protected. -/
theorem Executed.guarded (executed : Executed system after p i command) {j : Nat}
    (guarded : system.Protected p resource val deadline j) :
    after.Protected p resource val deadline j := by
  refine guarded.frame (le_of_eq executed.now.symm) ?_ ?_
  · intro early keeps harmless
    refine executed.kept keeps early ?_
    rintro rfl
    exact harmless command (by simp [executed.sent])
  · exact fun other member => .inl (executed.shrinks j member)

theorem Executed.sound (executed : Executed system after p i command)
    (sound : system.Sound config p) : after.Sound config p := by
  have waits : (system.conns p i).broken = false → (system.clients p).awaiting = true ∧
      ∃ command, (system.clients p).command = some (i, command) := by
    intro healthy
    by_contra notAwaited
    have empty := (sound.quiet i healthy notAwaited).1
    rw [executed.sent] at empty
    cases empty
  constructor
  · rw [executed.clients, executed.owner]
    exact sound.drawnLock
  · rw [executed.clients, executed.owner]
    exact sound.drawnOld
  · rw [executed.clients, executed.owner]
    exact sound.drawnTarget
  · rw [executed.clients]
    exact sound.distinct
  · rw [executed.clients]
    exact sound.apart
  · rw [executed.clients]
    exact sound.bounded
  · rw [executed.clients, executed.now]
    exact sound.started
  · rw [executed.clients]
    intro j healthy notAwaited
    by_cases same : j = i
    · subst same
      rw [executed.broken] at healthy
      exact absurd (waits healthy) notAwaited
    · rw [executed.elsewhere j same] at healthy ⊢
      exact sound.quiet j healthy notAwaited
  · rw [executed.clients]
    intro awaiting
    obtain ⟨j, current, round, inside, healthy, awaits⟩ := sound.awaited awaiting
    refine ⟨j, current, round, inside, ?_⟩
    by_cases same : j = i
    · subst same
      refine ⟨executed.broken ▸ healthy, ?_⟩
      cases awaits with
      | answered ok sent replies meaning =>
          rw [executed.sent] at sent
          cases sent
      | travels sent replies =>
          rw [executed.sent] at sent
          obtain ⟨rfl, empty⟩ := List.cons.inj sent
          refine .answered _ empty (by rw [executed.replies, replies, List.nil_append]) ?_
          intro ok call n locking _
          constructor
          · rw [executed.redis, Function.update_self]
            obtain ⟨expires, stored, late⟩ := Client.keeps_of_execute locking round ok
            have began := sound.started call j n locking
            exact ⟨expires, stored, by omega⟩
          · rw [empty]
            exact fun other member => absurd member List.not_mem_nil
    · rw [executed.elsewhere j same]
      refine ⟨healthy, ?_⟩
      cases awaits with
      | travels sent replies => exact .travels sent replies
      | answered ok sent replies meaning =>
          exact .answered ok sent replies fun yes call n locking =>
            executed.guarded (meaning yes call n locking)
  · rw [executed.clients]
    exact fun call j n locking => (sound.counted call j n locking).imp
      fun k _ => executed.guarded
  · rw [executed.clients]
    exact fun lock member => (sound.backed lock member).imp fun k _ => executed.guarded

end Executed

theorem Safe.execute (safe : system.Safe config) (moved : system.execute p i = .ok after) :
    after.Safe config := by
  obtain ⟨command, executed⟩ := executed_of_execute moved
  constructor
  · intro q j other member resource val removes
    rw [executed.owner]
    by_cases same : q = p
    · subst same
      exact safe.commands q j other (executed.shrinks j member) resource val removes
    · rw [executed.others q same] at member
      exact safe.commands q j other member resource val removes
  · intro q
    by_cases same : q = p
    · exact same ▸ executed.sound (safe.sound p)
    · refine (safe.sound q).frame (by rw [executed.clients]) (executed.others q same)
        (by simp [executed.owner]) (le_of_eq executed.now.symm) ?_
      intro j resource val deadline drawn early keeps _
      refine executed.kept keeps early ?_
      rintro rfl removes
      have sender := safe.commands p j command (by simp [executed.sent]) resource val removes
      rw [drawn] at sender
      exact same (Option.some.inj sender)

/-! ## Runs -/

theorem Safe.step {event : Event κ υ} (safe : system.Safe config)
    (fresh : system.DrawsFresh event) (moved : system.step config event = .ok after) :
    after.Safe config := by
  cases event with
  | tick ms =>
      cases moved
      refine ⟨safe.commands, fun q => ?_⟩
      refine (safe.sound q).frame rfl rfl (fun _ drawn => drawn) ?_ ?_
      · exact Int.le_add_of_nonneg_right (Int.natCast_nonneg ms)
      · exact fun _ _ _ _ _ _ keeps _ => keeps
  | lock p continuing resource ttl val =>
      simp only [System.step] at moved
      split at moved
      next idle =>
        cases moved
        exact safe.call idle fresh
      next => cases moved
  | unlock p lock =>
      simp only [System.step] at moved
      split at moved
      next allowed =>
        cases moved
        exact safe.unlock allowed.1 allowed.2
      next => cases moved
  | proceed p =>
      simp only [System.step] at moved
      split at moved
      next => cases moved
      next calm => exact safe.proceed (by simpa using calm) moved
  | execute p i => exact safe.execute moved
  | receive p =>
      simp only [System.step] at moved
      split at moved
      next waits => exact safe.receive waits moved
      next => cases moved
  | fail p =>
      simp only [System.step] at moved
      split at moved
      next waits => exact safe.fail waits moved
      next => cases moved

omit [DecidableEq κ] [DecidableEq υ] in
theorem safe_init : Safe config ({} : System κ υ) where
  commands := fun _ _ command member => absurd member List.not_mem_nil
  sound := fun p => {
    drawnLock := fun lock member => absurd member List.not_mem_nil
    drawnOld := fun old remembered => by cases remembered
    drawnTarget := fun _ _ targets => targets.elim
    distinct := List.nodup_nil
    apart := fun lock member => absurd member List.not_mem_nil
    bounded := fun i command round => by cases round
    started := fun call i n locking => by cases locking
    quiet := fun _ _ _ => ⟨rfl, rfl⟩
    awaited := fun waits => by cases waits
    counted := fun call i n locking => by cases locking
    backed := fun lock member => absurd member List.not_mem_nil }

theorem Reachable.safe (reachable : Reachable config system) : system.Safe config :=
  Runs.invariant (Safe config) (fun _ _ _ safe fresh moved => safe.step fresh moved) reachable
    safe_init

theorem Reachable.exclusive {lock other : CLock κ υ} (reachable : Reachable config system)
    (held : lock ∈ (system.clients p).locks) (heldToo : other ∈ (system.clients q).locks)
    (same : lock.resource = other.resource) (early : system.now < lock.start + lock.ttl)
    (earlyToo : system.now < other.start + other.ttl) : p = q ∧ lock = other := by
  have safe := reachable.safe
  obtain ⟨acks, among, most, kept⟩ := (safe.sound p).backed lock held
  obtain ⟨others, amongToo, mostToo, keptToo⟩ := (safe.sound q).backed other heldToo
  obtain ⟨server, first, second⟩ := exists_mem_of_majorities among amongToo most mostToo
  have keeps := (kept server first early).1
  have keepsToo := (keptToo server second earlyToo).1
  rw [same] at keeps
  have sameVal : lock.val = other.val := keeps.val_eq keepsToo
  have sameClient : p = q := by
    have drawn := (safe.sound p).drawnLock lock held
    rw [sameVal, (safe.sound q).drawnLock other heldToo] at drawn
    exact (Option.some.inj drawn).symm
  subst sameClient
  exact ⟨rfl, List.inj_on_of_nodup_map (safe.sound p).distinct held heldToo sameVal⟩

/-- Before the time to live has passed since the successful attempt began, a lock that was granted
and neither unlocked nor replaced is the only one for its resource, and a majority of the servers
still has its value. -/
theorem lock_is_exclusive {lock : CLock κ υ} (reachable : Reachable config system)
    (held : lock ∈ (system.clients p).locks) (early : system.now < lock.start + lock.ttl) :
    (∀ q, ∀ other ∈ (system.clients q).locks, other.resource = lock.resource →
      system.now < other.start + other.ttl → q = p ∧ other = lock) ∧
    ∃ servers ⊆ Finset.range config.servers, config.quoRum ≤ servers.card ∧
      ∀ i ∈ servers, (system.redis i).get system.now lock.resource = some lock.val := by
  constructor
  · intro q other heldToo same earlyToo
    exact reachable.exclusive heldToo held same earlyToo early
  · obtain ⟨acks, among, most, kept⟩ := (reachable.safe.sound p).backed lock held
    exact ⟨acks, among, most, fun i member => (kept i member early).1.get_eq early⟩

end

/-! ## A sample -/

def sampleConfig : Config := ⟨3, 3, fun ttl => ttl / 100 + 2⟩

/-- One round in which the reply arrives after `ms`. -/
def sampleRound (p i ms : Nat) : List (Event Nat Nat) :=
  [.proceed p, .execute p i, .tick ms, .receive p]

/-- The third server does not answer. -/
def sampleEvents : List (Event Nat Nat) :=
  .lock 0 false 7 10000 1 :: sampleRound 0 0 1 ++ sampleRound 0 1 1 ++
    [.proceed 0, .fail 0, .proceed 0]

def sampleLock : CLock Nat Nat := ⟨7, 1, 9898, 0, 2, 10000⟩

theorem exists_sample : ∃ system : System Nat Nat, Reachable sampleConfig system ∧
    decide (system.now = 2 ∧ (system.clients 0).locks = [sampleLock]) = true :=
  Runs.exists_of_exec (step sampleConfig) DrawsFresh {} sampleEvents _ (by decide +kernel)

theorem lock_is_exclusive_sample : ∃ system : System Nat Nat, Reachable sampleConfig system ∧
    sampleLock ∈ (system.clients 0).locks ∧ system.now < sampleLock.start + sampleLock.ttl ∧
    ∃ servers ⊆ Finset.range 3, 2 ≤ servers.card ∧
      ∀ i ∈ servers, (system.redis i).get system.now 7 = some 1 := by
  obtain ⟨system, reachable, post⟩ := exists_sample
  obtain ⟨now, locks⟩ := of_decide_eq_true post
  have held : sampleLock ∈ (system.clients 0).locks := by simp [locks]
  have early : system.now < sampleLock.start + sampleLock.ttl := by
    rw [now]
    decide
  exact ⟨system, reachable, held, early, (lock_is_exclusive reachable held early).2⟩

end BespoKV.Redlock.System
