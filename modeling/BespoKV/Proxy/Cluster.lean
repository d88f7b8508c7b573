import BespoKV.Proxy.Isolation

/-!
# Several proxies

Proxies share the lock server, the log and the datalets.  A proxy of an eventually
consistent shard also runs `consume_kafka`, a thread that applies the log to the
proxy's datalet over a connection of its own.  One action of the cluster is one step of
a proxy or of such a thread.
-/

namespace BespoKV

/-- The thread of `consume_kafka`: the offset of its next message, whether it is in the
loop around `consume`, its queue and its connection. -/
structure Consumer where
  offset : Nat := 0
  waiting : Bool := true
  imsgQ : List Buffer := []
  wire : Wire := {}

/-- Proxies with their consumers, the services they share and the datalets. -/
structure Cluster (engine : Engine) where
  proxies : Nat → Proxy
  consumers : Nat → Consumer
  services : Services
  datalets : AddrType → Datalet engine

/-- What the scheduler can choose. -/
inductive Action where
  /-- an event of a proxy -/
  | proxy (p : Nat) (event : Event)
  /-- `consume` returns the next message -/
  | consume (p : Nat)
  /-- the consumer's connection is writable -/
  | consumerOut (p : Nat)
  /-- the datalet takes the next request of the consumer's connection -/
  | consumerServe (p : Nat)
  /-- the consumer's connection is readable -/
  | consumerIn (p : Nat)

/-- `batch_loop` starts the consumer thread. -/
def Config.consumes (cfg : Config) : Bool :=
  cfg.consistencyModel = .eventual && (cfg.topology = .slave || cfg.topology = .aa)

/-- The datalet the consumer thread connects to: the last one of the table. -/
def Config.consumerAddr (cfg : Config) : Option AddrType :=
  cfg.dumbMap.rows.getLast?.map DumbNode.addr

namespace Cluster

variable {engine : Engine}

/-- No client has connected; every datalet and the log are empty. -/
def init (engine : Engine) : Cluster engine where
  proxies := fun p => { pid := p }
  consumers := fun _ => {}
  services := {}
  datalets := fun _ => ⟨engine.empty, []⟩

/-- What one proxy sees of the cluster. -/
def view (cluster : Cluster engine) (p : Nat) : State engine where
  proxy := cluster.proxies p
  services := cluster.services
  datalets := cluster.datalets

/-- The cluster after a step of one proxy. -/
def put (cluster : Cluster engine) (p : Nat) (state : State engine) : Cluster engine :=
  { cluster with
    proxies := Function.update cluster.proxies p state.proxy
    services := state.services
    datalets := state.datalets }

def setConsumer (cluster : Cluster engine) (p : Nat) (consumer : Consumer) : Cluster engine :=
  { cluster with consumers := Function.update cluster.consumers p consumer }

/-- The request a consumer builds from a message of the log. -/
def message (req : Buffer) : Buffer := { content := req.content, tag := req.tag }

/-- `repeat1` and `repeat2` of `consume_kafka`: the next message joins the queue. -/
def consume (cfg : Config) (cluster : Cluster engine) (p : Nat) :
    Except Fault (Cluster engine) :=
  let consumer := cluster.consumers p
  match cfg.consumes && consumer.waiting, cluster.services.kafka[consumer.offset]? with
  | true, some req =>
      .ok (cluster.setConsumer p
        { consumer with
          offset := consumer.offset + 1
          waiting := false
          imsgQ := consumer.imsgQ ++ [message req] })
  | _, _ => .error .disabled

/-- The `FDEVENT_OUT` branch of `consume_kafka`. -/
def consumerOut (cluster : Cluster engine) (p : Nat) : Except Fault (Cluster engine) :=
  let consumer := cluster.consumers p
  if consumer.waiting then
    .error .disabled
  else
    match consumer.imsgQ with
    | [] => .ok cluster
    | smsg :: rest =>
        .ok (cluster.setConsumer p
          { consumer with
            imsgQ := rest
            wire := { consumer.wire with req := consumer.wire.req ++ [smsg] } })

/-- The datalet takes the oldest request on the consumer's connection. -/
def consumerServe (cfg : Config) (cluster : Cluster engine) (p : Nat) :
    Except Fault (Cluster engine) :=
  let consumer := cluster.consumers p
  match cfg.consumerAddr, consumer.wire.req with
  | some addr, req :: rest =>
      match req.frame? with
      | some frame =>
          let reply := (engine.serve (cluster.datalets addr).state frame).2
          .ok { cluster.setConsumer p
              { consumer with wire := { req := rest, rsp := consumer.wire.rsp ++ [reply] } } with
            datalets := Function.update cluster.datalets addr
              ((cluster.datalets addr).handle (.consumer p) req frame) }
      | none => .error .undefined
  | _, _ => .error .disabled

/-- The `FDEVENT_IN` branch of `consume_kafka`, up to the loop around `consume`. -/
def consumerIn (cluster : Cluster engine) (p : Nat) : Except Fault (Cluster engine) :=
  let consumer := cluster.consumers p
  match consumer.waiting, consumer.wire.rsp with
  | false, _ :: rsp =>
      .ok (cluster.setConsumer p
        { consumer with waiting := true, wire := { consumer.wire with rsp := rsp } })
  | _, _ => .error .disabled

/-- One step of the cluster; every proxy has its own configuration. -/
def step (cfgs : Nat → Config) (cluster : Cluster engine) :
    Action → Except Fault (Cluster engine)
  | .proxy p event =>
      match (cluster.view p).step (cfgs p) event with
      | .ok state => .ok (cluster.put p state)
      | .error fault => .error fault
  | .consume p => cluster.consume (cfgs p) p
  | .consumerOut p => cluster.consumerOut p
  | .consumerServe p => cluster.consumerServe (cfgs p) p
  | .consumerIn p => cluster.consumerIn p

/-! ## What one action changes -/

variable {cfgs : Nat → Config} {cluster after : Cluster engine} {p q : Nat} {event : Event}

@[simp] theorem view_put_self (cluster : Cluster engine) (p : Nat) (state : State engine) :
    (cluster.put p state).view p = state := by
  simp [view, put]

theorem view_put_other (state : State engine) (different : q ≠ p) :
    (cluster.put p state).view q =
      { cluster.view q with services := state.services, datalets := state.datalets } := by
  simp [view, put, different]

theorem put_view (cluster : Cluster engine) (p : Nat) :
    cluster.put p (cluster.view p) = cluster := by
  simp [put, view]

@[simp] theorem put_put (cluster : Cluster engine) (p : Nat) (first second : State engine) :
    (cluster.put p first).put p second = cluster.put p second := by
  simp [put]

theorem step_proxy (moved : cluster.step cfgs (.proxy p event) = .ok after) :
    ∃ state, (cluster.view p).step (cfgs p) event = .ok state ∧ after = cluster.put p state := by
  simp only [step] at moved
  split at moved
  next state stepped =>
    cases moved
    exact ⟨state, stepped, rfl⟩
  · cases moved

/-- A consumer concerns no proxy and no shared service. -/
structure Consumed (cluster after : Cluster engine) : Prop where
  proxies : after.proxies = cluster.proxies
  services : after.services = cluster.services
  log : ∀ addr, ∀ entry ∈ (after.datalets addr).log,
    entry ∈ (cluster.datalets addr).log ∨ ∃ p, entry.conn = .consumer p

theorem consumed_setConsumer (cluster : Cluster engine) (p : Nat) (consumer : Consumer) :
    cluster.Consumed (cluster.setConsumer p consumer) :=
  ⟨rfl, rfl, fun _ _ logged => .inl logged⟩

/-- Every action is an event of a proxy or concerns a consumer. -/
theorem step_cases {action : Action} (moved : cluster.step cfgs action = .ok after) :
    (∃ p event, action = .proxy p event) ∨ cluster.Consumed after := by
  cases action with
  | proxy p event => exact .inl ⟨p, event, rfl⟩
  | consume p =>
      simp only [step, consume] at moved
      split at moved
      · cases moved
        exact .inr (consumed_setConsumer cluster p _)
      · cases moved
  | consumerOut p =>
      simp only [step, consumerOut] at moved
      split at moved
      · cases moved
      split at moved
      · cases moved
        exact .inr ⟨rfl, rfl, fun _ _ logged => .inl logged⟩
      · cases moved
        exact .inr (consumed_setConsumer cluster p _)
  | consumerServe p =>
      simp only [step, consumerServe] at moved
      split at moved
      next addr req rest place waiting =>
        split at moved
        next frame framed =>
          cases moved
          refine .inr ⟨rfl, rfl, fun there entry logged => ?_⟩
          by_cases here : there = addr
          · subst here
            simp only [Function.update_self, Datalet.handle, List.mem_append,
              List.mem_singleton] at logged
            exact logged.imp_right fun new => ⟨p, by rw [new]⟩
          · simp only [Function.update_of_ne here] at logged
            exact .inl logged
        · cases moved
      · cases moved
  | consumerIn p =>
      simp only [step, consumerIn] at moved
      split at moved
      · cases moved
        exact .inr (consumed_setConsumer cluster p _)
      · cases moved

end Cluster

/-! ## Sessions of all proxies -/

/-- What other proxies and consumers do does not concern the sessions of a proxy. -/
theorem Sane.foreign {engine : Engine} {cfg : Config} {state after : State engine}
    {sessions : List Session} (sane : Sane cfg state sessions)
    (proxy : after.proxy = state.proxy)
    (log : ∀ addr, ∀ entry ∈ (after.datalets addr).log, ∀ ptr, entry.conn = state.connOf ptr →
      entry ∈ (state.datalets addr).log) : Sane cfg after sessions where
  wired := by
    rw [proxy]
    exact sane.wired
  quiet := by
    rw [proxy]
    exact sane.quiet
  tidy := by
    rw [proxy]
    exact sane.tidy
  stamped := by
    rw [proxy]
    exact sane.stamped
  logged := by
    intro addr entry logged ptr conn
    rw [State.connOf, proxy] at conn
    rw [proxy]
    exact sane.logged addr entry (log addr entry logged ptr conn) ptr conn

namespace Cluster

variable {engine : Engine} {cfgs : Nat → Config} {cluster after : Cluster engine}
variable {sessions : Nat → List Session} {p : Nat} {event : Event}

/-- Every proxy is made of sessions. -/
structure Sane (cfgs : Nat → Config) (cluster : Cluster engine)
    (sessions : Nat → List Session) : Prop where
  pid : ∀ p, (cluster.proxies p).pid = p
  sane : ∀ p, BespoKV.Sane (cfgs p) (cluster.view p) (sessions p)

theorem Sane.init (cfgs : Nat → Config) :
    (Cluster.init engine).Sane cfgs fun _ => [] := by
  exact ⟨fun _ => rfl, fun p => .of_fresh (cfgs p) p rfl fun _ => rfl⟩

/-- A step of one proxy. -/
theorem Sane.step_proxy {state : State engine} (sane : cluster.Sane cfgs sessions)
    (stepped : (cluster.view p).step (cfgs p) event = .ok state) :
    ∃ later, Steps (cfgs p) (cluster.view p) (sessions p) event state later ∧
      (cluster.put p state).Sane cfgs (Function.update sessions p later) := by
  obtain ⟨later, steps⟩ := (sane.sane p).step stepped
  refine ⟨later, steps, fun q => ?_, fun q => ?_⟩
  · by_cases here : q = p
    · subst here
      have pid : state.proxy.pid = (cluster.proxies q).pid := steps.pid
      simp only [put, Function.update_self, pid]
      exact sane.pid q
    · simp only [put, Function.update_of_ne here]
      exact sane.pid q
  · by_cases here : q = p
    · subst here
      rw [view_put_self, Function.update_self]
      exact steps.sane
    · rw [view_put_other state here, Function.update_of_ne here]
      refine (sane.sane q).foreign rfl fun addr entry logged ptr conn => ?_
      rcases steps.served with same | ⟨link, place, req, frame, handled⟩
      · rw [same] at logged
        exact logged
      · rcases handled.mem_log logged with old | ⟨_, rfl⟩
        · exact old
        · simp only [State.connOf, Conn.link.injEq] at conn
          have same : (cluster.proxies p).pid = (cluster.proxies q).pid := conn.1
          rw [sane.pid, sane.pid] at same
          exact absurd same.symm here

/-- An action of a consumer. -/
theorem Sane.consumed (sane : cluster.Sane cfgs sessions) (consumed : cluster.Consumed after) :
    after.Sane cfgs sessions := by
  refine ⟨fun p => consumed.proxies ▸ sane.pid p, fun p => ?_⟩
  refine (sane.sane p).foreign (congrFun consumed.proxies p) fun addr entry logged ptr conn => ?_
  rcases consumed.log addr entry logged with old | ⟨q, isConsumer⟩
  · exact old
  · rw [conn] at isConsumer
    cases isConsumer

end Cluster

end BespoKV
