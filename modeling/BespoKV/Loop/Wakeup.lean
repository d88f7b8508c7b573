import BespoKV.Single.Delivery
import BespoKV.Proxy.Subscription

/-!
# No lost wakeup

The event loop with every failure it can meet: reads and writes fail on any link, at any time
and in any order.  A link that has not failed stays subscribed for what it still has to do;
a failed one is unsubscribed for good, whatever it still holds.
-/

namespace BespoKV

/-- The modes in which no request waits for a lock. -/
def Config.NeverLocks (cfg : Config) : Prop :=
  cfg.topology = .no ∨ cfg.topology = .slave ∨
    cfg.topology = .ms ∧ (cfg.consistencyModel = .eventual ∨ cfg.consistencyModel = .without ∨
      cfg.consistencyModel = .strong ∧ cfg.consistencyTechnique = .cr) ∨
    cfg.topology = .aa ∧ cfg.consistencyModel = .eventual

instance (cfg : Config) : Decidable cfg.NeverLocks :=
  inferInstanceAs (Decidable (_ ∨ _ ∨ _ ∧ (_ ∨ _ ∨ _ ∧ _) ∨ _ ∧ _))

theorem Config.NeverLocks.lockFree {cfg : Config} (never : cfg.NeverLocks) : cfg.LockFree := by
  intro redlock
  rcases never with no | slave | ⟨ms, eventual | without | ⟨_, chain⟩⟩ | ⟨aa, eventual⟩
  · simp [Config.aaStrong, Config.msStrong, no]
  · simp [Config.aaStrong, Config.msStrong, slave]
  · simp [Config.aaStrong, Config.msStrong, eventual]
  · simp [Config.aaStrong, Config.msStrong, without]
  · simp [chain] at redlock
  · simp [Config.aaStrong, Config.msStrong, eventual]

/-- What the scheduler can choose when datalets can fail too. -/
inductive LoopEvent where
  | event (event : Event)
  /-- a datalet link is readable and `msg_read` returns null -/
  | hangUp (link : LinkPtr)

variable {engine : Engine}

namespace State

/-- `NetworkServer::recv` on a datalet link whose `msg_read` returns null. -/
def recvNull (cfg : Config) (state : State engine) (link : LinkPtr) :
    Except Fault (State engine) :=
  if (state.proxy.links link).error then
    .ok state
  else
    match (state.proxy.links link).nwFunc with
    | .response =>
        match state.toCtx.rspRecv cfg link none with
        | .ok ctx => .ok (state.withCtx ctx)
        | .error fault => .error fault
    | .replica =>
        match state.proxy.replicaRspRecv cfg link none with
        | .ok proxy => .ok (state.withProxy proxy)
        | .error fault => .error fault
    | _ => .error .disabled

/-- One step of the event loop or of a datalet, failures included. -/
def loop (cfg : Config) (state : State engine) : LoopEvent → Except Fault (State engine)
  | .event event => state.step cfg event
  | .hangUp link => state.recvNull cfg link

end State

variable {cfg : Config} {state after : State engine}

/-- A datalet link that cannot be read is marked in error and unsubscribed. -/
theorem State.recvNull_ops {link : LinkPtr} (moved : state.recvNull cfg link = .ok after) :
    Proxy.Ops True state.proxy after.proxy := by
  unfold State.recvNull at moved
  split at moved
  · cases moved
    exact .refl
  split at moved
  · cases moved
    exact .single (.unread link trivial)
  · split at moved
    next proxy handled =>
      cases moved
      unfold Proxy.replicaRspRecv at handled
      split at handled
      · cases handled
      · cases handled
        exact .single (.unread link trivial)
    · cases moved
  · cases moved

/-- In every reachable state, links that have not failed are subscribed for what they have
to do. -/
theorem watchful_of_run (never : cfg.NeverLocks)
    (run : Transition.Runs (State.loop cfg) (fun _ _ => True) (State.init engine) state) :
    state.proxy.Watchful := by
  apply run.invariant fun state => state.proxy.Watchful
  · intro state event after watchful _ moved
    cases event with
    | event event =>
        have moves : Proxy.Ops True state.proxy after.proxy ∨
            ∃ session, Accepted cfg state.proxy after.proxy session :=
          State.step_ops never.lockFree (fun _ => trivial) moved
        rcases moves with ops | ⟨session, accepted⟩
        · exact ops.watchful watchful
        · exact accepted.watchful watchful
    | hangUp link => exact (State.recvNull_ops moved).watchful watchful
  · refine ⟨fun ptr _ _ => ⟨?_, ?_⟩, ?_, ?_⟩ <;> simp [State.init]

/-- In every reachable state, whatever the order of events and whatever reads and writes fail:
a link that is neither marked in error nor dropped is subscribed for writing while messages
are queued on it, and a datalet link that is not marked in error is subscribed for reading
while it waits for an answer. -/
theorem no_lost_wakeup (never : cfg.NeverLocks)
    (run : Transition.Runs (State.loop cfg) (fun _ _ => True) (State.init engine) state)
    (ptr : LinkPtr) (healthy : (state.proxy.links ptr).error = false) :
    (ptr ∉ state.proxy.freeConnPool → (state.proxy.links ptr).imsgQ ≠ [] →
      (state.proxy.fdes ptr).out = true) ∧
    ((state.proxy.links ptr).nwFunc = .response ∨ (state.proxy.links ptr).nwFunc = .replica →
      (state.proxy.links ptr).omsgQ ≠ [] → (state.proxy.fdes ptr).inn = true) := by
  have watchful := watchful_of_run never run
  refine ⟨fun kept => (watchful.watches ptr healthy kept).writing, fun datalet => ?_⟩
  refine (watchful.watches ptr healthy fun dropped => ?_).reading
  have client := watchful.dropped ptr dropped
  rcases datalet with server | replica
  · simp [server] at client
  · simp [replica] at client

/-- One datalet link has a request on the wire and one in its queue; the datalet link of the
other client has failed, and that client is gone. -/
theorem no_lost_wakeup_sample :
    Config.sampleEventual.NeverLocks ∧
    ∃ state : State mapEngine,
      Transition.Runs (State.loop Config.sampleEventual) (fun _ _ => True)
        (State.init mapEngine) state ∧
      ((state.proxy.links 5).error = true ∧ 3 ∈ state.proxy.freeConnPool) ∧
      (state.proxy.fdes 2).out = true ∧ (state.proxy.fdes 2).inn = true := by
  obtain ⟨state, run, post⟩ := Transition.Runs.exists_of_exec
    (State.loop Config.sampleEventual) (fun _ _ => True) (State.init mapEngine)
    [.event (.accept fun _ => ⟨false, false⟩), .event (.accept fun _ => ⟨true, true⟩),
      .event (.request 0 (some [.set [7] [1], .get [7]]) fun _ => id),
      .event (.request 3 (some [.get [7]]) fun _ => id),
      .event (.writable 2 true), .event (.writable 5 true), .hangUp 5,
      .event (.request 3 none fun _ => id)]
    (fun state => ((state.proxy.links 5).error = true ∧ 3 ∈ state.proxy.freeConnPool) ∧
      (state.proxy.links 2).error = false ∧ 2 ∉ state.proxy.freeConnPool ∧
      (state.proxy.links 2).nwFunc = .response ∧ (state.proxy.links 2).imsgQ ≠ [] ∧
      (state.proxy.links 2).omsgQ ≠ []) (by decide)
  obtain ⟨failed, healthy, kept, server, queued, waits⟩ := of_decide_eq_true post
  have armed := no_lost_wakeup (by decide) run 2 healthy
  exact ⟨by decide, state, run, failed, armed.1 kept queued, armed.2 (.inl server) waits⟩

/-- A datalet link whose write fails is unsubscribed while it still waits for the answer to an
earlier request. -/
theorem failed_link_unsubscribed :
    Config.sampleEventual.NeverLocks ∧
    ∃ state : State mapEngine,
      Transition.Runs (State.loop Config.sampleEventual) (fun _ _ => True)
        (State.init mapEngine) state ∧
      (state.proxy.links 2).nwFunc = .response ∧ (state.proxy.links 2).omsgQ ≠ [] ∧
      (state.proxy.fdes 2).inn = false := by
  obtain ⟨state, run, post⟩ := Transition.Runs.exists_of_exec
    (State.loop Config.sampleEventual) (fun _ _ => True) (State.init mapEngine)
    [.event (.accept fun _ => ⟨false, false⟩),
      .event (.request 0 (some [.set [7] [1], .get [7]]) fun _ => id),
      .event (.writable 2 true), .event (.writable 2 false)]
    (fun state => (state.proxy.links 2).nwFunc = .response ∧
      (state.proxy.links 2).omsgQ ≠ [] ∧ (state.proxy.fdes 2).inn = false) (by decide)
  exact ⟨by decide, state, run, of_decide_eq_true post⟩

end BespoKV
