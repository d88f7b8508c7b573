import BespoKV.Active.Locking
import BespoKV.Eventual.Convergence

/-!
# What is produced to the log

`req_recv` decides from the link a frame goes to whether the frame is produced, and it
produces before it asks for a lock.  The log of a connection is exactly what the
connection writes to its datalet as long as no lock is refused and the flag of the link
is that of the frame.
-/

namespace BespoKV

variable {engine : Engine}

/-- The flag of the datalet link is that of the frame, and a lock the frame needs is
granted; the Redlock of the master-slave mode cannot be had. -/
def Ctx.Loggable (cfg : Config) (ctx : Ctx) (conn : LinkPtr) (frame : Frame) (text : Key) :
    Prop :=
  ∀ server ∈ (ctx.proxy.links conn).dataletConn,
    (frame.cmd ≠ .set → cfg.aaStrong = true →
      (ctx.proxy.links server).fwdToReplicas = false) ∧
    (frame.cmd = .set → cfg.consistencyTechnique = .rl →
      (cfg.aaStrong = true → ctx.services.redis text = none) ∧ cfg.msStrong = false)

instance (cfg : Config) (ctx : Ctx) (conn : LinkPtr) (frame : Frame) (text : Key) :
    Decidable (ctx.Loggable cfg conn frame text) :=
  inferInstanceAs (Decidable (∀ server ∈ (ctx.proxy.links conn).dataletConn, _ ∧ _))

section Segment

variable {cfg : Config} {ctx next : Ctx} {conn : LinkPtr} {frame : Frame} {rest : List Frame}
variable {freed : Nat → Key → Key} {continues : Bool}

/-- The flag of the link a frame goes to is that of the frame. -/
theorem Ctx.Loggable.fwd {server out : LinkPtr} {mapped : Proxy} {text : Key}
    (loggable : ctx.Loggable cfg conn frame text)
    (assigned : (ctx.proxy.links conn).dataletConn = some server)
    (route : Proxy.Routed cfg ctx.proxy server frame text mapped out) :
    (mapped.links out).fwdToReplicas = decide (frame.cmd = .set) := by
  cases route with
  | locked active key fwd =>
      by_cases isSet : frame.cmd = .set
      · simpa [isSet, Proxy.flags] using fwd
      · have stale := (loggable server assigned).1 isSet active
        simpa [isSet, Proxy.flags, stale] using fwd
  | write passive isSet fwd => simpa [isSet, Proxy.flags] using fwd
  | tailRead passive notSet chain found fwd tailFwd =>
      simpa [notSet, Proxy.flags] using tailFwd
  | read passive notSet notChain fwd => simpa [notSet, Proxy.flags] using fwd

/-- No lock is refused. -/
theorem Ctx.Loggable.goesOn (loggable : ctx.Loggable cfg conn frame (ctx.keyText conn frame freed))
    (handled : ctx.reqSegment cfg conn frame rest freed = .ok (continues, next)) :
    continues = true := by
  obtain ⟨mapped, out, locked, routed, acquired, _⟩ := Ctx.reqSegment_acquire handled
  obtain ⟨server, assigned, route, steers⟩ := Proxy.getMappedServerConn_cases routed
  have fwd := loggable.fwd assigned route
  obtain ⟨_, lock⟩ := loggable server assigned
  generalize isReq : Ctx.segment mapped conn out frame = req at acquired
  have sameFwd : ((Ctx.receive (mapped.armOut out) conn req).links out).fwdToReplicas =
      (mapped.links out).fwdToReplicas := Ctx.fwd_congr rfl out
  have sameRedis : (if Ctx.produces cfg mapped out then ctx.services.produce req
      else ctx.services).redis = ctx.services.redis := by
    split <;> rfl
  simp only [Ctx.acquire, sameFwd, fwd] at acquired
  split at acquired
  next locking =>
    obtain ⟨active, redlock⟩ := Bool.and_eq_true_iff.mp locking
    split at acquired
    next key tag held tagged =>
      split at acquired
      next isSet =>
        have isSet := of_decide_eq_true isSet
        have free := (lock isSet (of_decide_eq_true redlock)).1 active
        have isKey : key = ctx.keyText conn frame freed := by
          have sameKey : ((Ctx.receive (mapped.armOut out) conn req).links out).key =
              (mapped.flags out).key := rfl
          cases route with
          | locked _ keyed => exact Option.some.inj (held.symm.trans (sameKey.trans keyed))
          | write passive | tailRead passive | read passive =>
              rw [active] at passive
              cases passive
        subst isKey
        rw [← sameRedis] at free
        simp only [Services.lock, free] at acquired
        cases acquired
        rfl
      · cases acquired
        rfl
    · cases acquired
  next notLocking =>
    split at acquired
    · split at acquired
      · cases acquired
      · cases acquired
      next =>
        cases acquired
        rfl
    · cases acquired
      rfl

end Segment

/-! ## One read -/

/-- A request joins the queue of the link it goes to. -/
theorem Ctx.forwarded_imsgQ {cfg : Config} {proxy : Proxy} {out server : LinkPtr}
    {traffic : Traffic} {req : Buffer} (notSlave : server ∉ proxy.getSlaves out) :
    (Ctx.forwarded cfg proxy out traffic req).imsgQ server =
      traffic.imsgQ server ++ if out = server then [req] else [] := by
  have outside : ∀ fans : Bool, server ∉ if fans then proxy.getSlaves out else [] := by
    intro fans
    cases fans <;> simp [notSlave]
  rw [Ctx.forwarded, Traffic.fan_other _ _ (outside _)]
  by_cases here : out = server
  · subst here
    simp [Traffic.fan_other _ _ (outside _)]
  · simp [here, Ne.symm here, Traffic.fan_other _ _ (outside _)]

section Read

variable {cfg : Config} {state after : State engine} {sessions : List Session}
variable {client : LinkPtr} {frames : List Frame} {freed : Nat → Key → Key}

/-- Whatever a read produces belongs to the connection it came from. -/
theorem Sane.produces_own (sane : Sane cfg state sessions)
    (moved : state.step cfg (.request client (some frames) freed) = .ok after) :
    ∃ produced, after.services.kafka = state.services.kafka ++ produced ∧
      ∀ req ∈ produced, ∃ seq, req.tag = some ⟨state.proxy.pid, client, seq⟩ := by
  obtain ⟨session, member, rfl, _⟩ := sane.request_within moved
  have whole := sane.request_induction
    (P := fun now _ => now.proxy.pid = state.proxy.pid ∧ ∃ produced,
      now.services.kafka = state.services.kafka ++ produced ∧
      ∀ req ∈ produced, ∃ seq, req.tag = some ⟨state.proxy.pid, session.client, seq⟩)
    member ⟨rfl, [], by simp⟩ ?_ moved
  · obtain ⟨_, _, produced⟩ := whole
    exact produced
  · rintro ctx frame rest continues next _ ⟨pid, produced, log, own⟩ handled
    obtain ⟨mapped, out, server, _, _, steers, moved, _, grown⟩ := Ctx.reqSegment_effect handled
    have samePid : mapped.pid = state.proxy.pid :=
      (congrArg Shape.pid steers.shape).trans pid
    refine ⟨(congrArg Shape.pid moved.shape).trans samePid,
      produced ++ (if Ctx.produces cfg mapped out then
        [Ctx.segment mapped session.client out frame] else []), ?_, fun req listed => ?_⟩
    · change next.services.kafka = _
      rw [grown, ← List.append_assoc, ← log]
      rfl
    · rcases List.mem_append.mp listed with old | new
      · exact own req old
      · split at new
        · rw [List.mem_singleton.mp new, Ctx.segment, samePid]
          exact ⟨_, rfl⟩
        · cases new

/-- What a read queues on a link of its client, and nobody else. -/
theorem Sane.produces_queued {server : LinkPtr} (logs : cfg.Logs) (sane : Sane cfg state sessions)
    (assigned : (state.proxy.links client).dataletConn = some server)
    (loggable : Ctx.EachFrame (Ctx.Loggable cfg) cfg client freed state.toCtx frames)
    (moved : state.step cfg (.request client (some frames) freed) = .ok after) :
    ∃ queued, (after.proxy.links server).imsgQ = (state.proxy.links server).imsgQ ++ queued ∧
      after.services.kafka = state.services.kafka ++ queued.filter Buffer.isSet := by
  obtain ⟨session, member, rfl, _⟩ := sane.request_within moved
  have isServer : session.server = some server := by
    rw [← assigned]
    exact (congrArg LinkInfo.dataletConn (sane.client_info member)).symm
  refine sane.request_each (P := fun now => ∃ queued,
    (now.proxy.links server).imsgQ = (state.proxy.links server).imsgQ ++ queued ∧
      now.services.kafka = state.services.kafka ++ queued.filter Buffer.isSet)
    member loggable ⟨[], by simp, by simp⟩ ?_ moved
  rintro ctx frame rest continues next saneCtx ⟨queued, waiting, log⟩ canLog handled
  have goesOn := canLog.goesOn handled
  subst goesOn
  obtain ⟨mapped, out, mapping, isMapping, route, steers, moved, _, grown⟩ :=
    Ctx.reqSegment_effect handled
  have sameServer : mapping = server := by
    have info : (ctx.proxy.links session.client).dataletConn = session.server :=
      congrArg LinkInfo.dataletConn (saneCtx.client_info member)
    exact Option.some.inj (isMapping.symm.trans (info.trans isServer))
  subst sameServer
  have outInside : out ∈ session.links := by
    cases route with
    | locked | write | read => exact Session.server_mem isServer
    | tailRead passive notSet chain found =>
        exact Session.slave_mem (saneCtx.wired.mem_of_getSlaveNumber member
          (Session.server_mem isServer) found)
  have notSlave : mapping ∉ mapped.getSlaves out := by
    rw [Ctx.getSlaves_congr steers.shape]
    intro listed
    have slave := saneCtx.wired.mem_of_getSlaves member outInside listed
    have func := saneCtx.slave_func member slave
    rw [saneCtx.server_func member isServer] at func
    cases func
  have grownQueue : (next.proxy.links mapping).imsgQ = (ctx.proxy.links mapping).imsgQ ++
      if out = mapping then [Ctx.segment mapped session.client out frame] else [] := by
    have traffic := congrFun (congrArg Traffic.imsgQ moved.traffic) mapping
    rw [if_pos rfl, Ctx.forwarded_imsgQ notSlave] at traffic
    exact traffic
  have produces : Ctx.produces cfg mapped out = decide (frame.cmd = .set) := by
    have isLogged : (decide (cfg.topology = .ms) || decide (cfg.topology = .aa)) = true := by
      simpa [Config.Logs] using logs
    rw [Ctx.produces, isLogged, Bool.true_and]
    exact canLog.fwd isMapping route
  refine ⟨queued ++ if out = mapping then [Ctx.segment mapped session.client out frame] else [],
    ?_, ?_⟩
  · change (next.proxy.links mapping).imsgQ = _
    rw [grownQueue, ← List.append_assoc, ← waiting]
    rfl
  · change next.services.kafka = _
    rw [grown, List.filter_append, ← List.append_assoc, ← log, produces]
    congr 1
    have kind : (Ctx.segment mapped session.client out frame).isSet =
        decide (frame.cmd = .set) := rfl
    by_cases isSet : frame.cmd = .set
    · have toServer : out = mapping := by
        cases route with
        | locked | write | read => rfl
        | tailRead passive notSet => exact absurd isSet notSet
      simp only [isSet, decide_true] at kind
      simp [isSet, toServer, toServer ▸ kind]
    · simp only [isSet, decide_false] at kind
      rw [if_neg (by simpa using isSet)]
      split <;> simp [kind]

/-- Without a datalet link nothing is produced. -/
theorem Sane.produces_nothing (sane : Sane cfg state sessions)
    (unassigned : (state.proxy.links client).dataletConn = none)
    (moved : state.step cfg (.request client (some frames) freed) = .ok after) :
    after.services.kafka = state.services.kafka := by
  obtain ⟨session, member, rfl, _⟩ := sane.request_within moved
  have whole := sane.request_induction
    (P := fun now _ => now.services.kafka = state.services.kafka) member rfl ?_ moved
  · obtain ⟨_, same⟩ := whole
    exact same
  · intro ctx frame rest continues next saneCtx _ handled
    obtain ⟨_, _, server, isMapping, _⟩ := Ctx.reqSegment_effect handled
    have before : (state.proxy.links session.client).dataletConn = session.server :=
      congrArg LinkInfo.dataletConn (sane.client_info member)
    have info : (ctx.proxy.links session.client).dataletConn = session.server :=
      congrArg LinkInfo.dataletConn (saneCtx.client_info member)
    rw [info, ← before, unassigned] at isMapping
    cases isMapping

end Read

/-! ## Runs -/

/-- Messages of the log that were produced for a connection. -/
def Cluster.produced (cluster : Cluster engine) (p : Nat) (client : LinkPtr) : List Buffer :=
  cluster.services.kafka.filter fun req =>
    req.tag.any fun tag => tag.proxy = p && tag.client = client

/-- What a read queued on the datalet link of its client. -/
def Cluster.queuedBy (before after : Cluster engine) (p : Nat) (client : LinkPtr) : List Buffer :=
  match ((before.proxies p).links client).dataletConn with
  | some server => ((after.proxies p).links server).imsgQ.drop
      ((before.proxies p).links server).imsgQ.length
  | none => []

/-- The cluster together with what the reads from every connection queued on its datalet
link. -/
structure Recorded (engine : Engine) where
  cluster : Cluster engine
  queued : Nat → LinkPtr → List Buffer

namespace Recorded

def init (engine : Engine) : Recorded engine := ⟨.init engine, fun _ _ => []⟩

def step (cfgs : Nat → Config) (recorded : Recorded engine) (action : Action) :
    Except Fault (Recorded engine) :=
  match recorded.cluster.step cfgs action with
  | .error fault => .error fault
  | .ok after =>
      match action with
      | .proxy p (.request client (some _) _) =>
          .ok ⟨after, Function.update recorded.queued p
            (Function.update (recorded.queued p) client
              (recorded.queued p client ++ recorded.cluster.queuedBy after p client))⟩
      | _ => .ok ⟨after, recorded.queued⟩

end Recorded

/-- Reads from one connection are loggable. -/
def Action.Loggable (cfgs : Nat → Config) (p : Nat) (client : LinkPtr)
    (cluster : Cluster engine) : Action → Prop
  | .proxy q (.request conn (some frames) freed) => q = p → conn = client →
      Ctx.EachFrame (Ctx.Loggable (cfgs p)) (cfgs p) client freed (cluster.view p).toCtx frames
  | _ => True

instance (cfgs : Nat → Config) (p : Nat) (client : LinkPtr) (cluster : Cluster engine) :
    DecidablePred (Action.Loggable cfgs p client cluster) := fun action =>
  match action with
  | .proxy q (.request conn (some frames) freed) =>
      inferInstanceAs (Decidable (q = p → conn = client →
        Ctx.EachFrame (Ctx.Loggable (cfgs p)) (cfgs p) client freed (cluster.view p).toCtx
          frames))
  | .proxy _ (.request _ none _) => isTrue trivial
  | .proxy _ (.accept _) => isTrue trivial
  | .proxy _ (.response _) => isTrue trivial
  | .proxy _ (.writable _ _) => isTrue trivial
  | .proxy _ (.serve _) => isTrue trivial
  | .consume _ => isTrue trivial
  | .consumerOut _ => isTrue trivial
  | .consumerServe _ => isTrue trivial
  | .consumerIn _ => isTrue trivial

section Runs

variable {cfgs : Nat → Config} {recorded after : Recorded engine}
variable {sessions : Nat → List Session} {p : Nat} {client : LinkPtr}

private theorem produced_of_foreign {cluster later : Cluster engine} {added : List Buffer}
    (log : later.services.kafka = cluster.services.kafka ++ added)
    (foreign : ∀ req ∈ added, ∀ seq, req.tag ≠ some ⟨p, client, seq⟩) :
    later.produced p client = cluster.produced p client := by
  have none : added.filter (fun req =>
      req.tag.any fun tag => tag.proxy = p && tag.client = client) = [] := by
    rw [List.filter_eq_nil_iff]
    intro req listed mine
    obtain ⟨⟨proxy, conn, seq⟩, isTag, matching⟩ := (Option.any_eq_true _ _).mp mine
    simp only [Bool.and_eq_true, decide_eq_true_eq] at matching
    obtain ⟨rfl, rfl⟩ := matching
    exact foreign req listed seq isTag
  rw [Cluster.produced, log, List.filter_append, none, List.append_nil]
  rfl

/-- A read from the connection produces the writes it queues. -/
theorem Cluster.Sane.produced_queuedBy {cluster : Cluster engine} {state : State engine}
    {frames : List Frame} {freed : Nat → Key → Key} (logs : (cfgs p).Logs)
    (sane : cluster.Sane cfgs sessions)
    (loggable : Ctx.EachFrame (Ctx.Loggable (cfgs p)) (cfgs p) client freed
      (cluster.view p).toCtx frames)
    (own : (cluster.view p).step (cfgs p) (.request client (some frames) freed) = .ok state) :
    (cluster.put p state).produced p client = cluster.produced p client ++
      (cluster.queuedBy (cluster.put p state) p client).filter Buffer.isSet := by
  obtain ⟨added, log, tagged⟩ := (sane.sane p).produces_own own
  have isPid : (cluster.view p).proxy.pid = p := sane.pid p
  have mine : added.filter (fun req =>
      req.tag.any fun tag => tag.proxy = p && tag.client = client) = added := by
    rw [List.filter_eq_self]
    intro req listed
    obtain ⟨seq, isTag⟩ := tagged req listed
    simp [isTag, isPid]
  have new : added = (cluster.queuedBy (cluster.put p state) p client).filter Buffer.isSet := by
    cases assigned : ((cluster.view p).proxy.links client).dataletConn with
    | none =>
        have same := (sane.sane p).produces_nothing assigned own
        have nothing : added = [] := by simpa [same] using log
        have unlinked : ((cluster.proxies p).links client).dataletConn = none := assigned
        simp [nothing, Cluster.queuedBy, unlinked]
    | some server =>
        obtain ⟨queued, waiting, same⟩ :=
          (sane.sane p).produces_queued logs assigned loggable own
        have linked : ((cluster.proxies p).links client).dataletConn = some server := assigned
        have grown : (((cluster.put p state).proxies p).links server).imsgQ =
            ((cluster.proxies p).links server).imsgQ ++ queued := by
          simpa [Cluster.put, Cluster.view] using waiting
        rw [Cluster.queuedBy, linked]
        simp only [grown, List.drop_left]
        exact List.append_cancel_left (log.symm.trans same)
  rw [← new, Cluster.produced, show (cluster.put p state).services.kafka = _ from log,
    List.filter_append, mine]
  rfl

/-- What was produced for the connection is what it queued. -/
def Recorded.Faithful (p : Nat) (client : LinkPtr) (recorded : Recorded engine) : Prop :=
  recorded.cluster.produced p client = (recorded.queued p client).filter Buffer.isSet

theorem Recorded.Faithful.step {action : Action} (logs : (cfgs p).Logs)
    (sane : recorded.cluster.Sane cfgs sessions)
    (faithful : recorded.Faithful p client)
    (loggable : action.Loggable cfgs p client recorded.cluster)
    (moved : recorded.step cfgs action = .ok after) :
    (∃ later, after.cluster.Sane cfgs later) ∧ after.Faithful p client := by
  simp only [Recorded.step] at moved
  split at moved
  · cases moved
  next cluster stepped =>
    by_cases isProxy : ∃ q event, action = .proxy q event
    · obtain ⟨q, event, rfl⟩ := isProxy
      obtain ⟨state, own, rfl⟩ := Cluster.step_proxy stepped
      obtain ⟨later, _, saneAfter⟩ := sane.step_proxy own
      by_cases read : ∃ conn frames freed, event = .request conn (some frames) freed
      · obtain ⟨conn, frames, freed, rfl⟩ := read
        cases moved
        refine ⟨⟨_, saneAfter⟩, ?_⟩
        obtain ⟨added, log, tagged⟩ := (sane.sane q).produces_own own
        have isPid : (recorded.cluster.view q).proxy.pid = q := sane.pid q
        rw [isPid] at tagged
        by_cases mine : q = p ∧ conn = client
        · obtain ⟨rfl, rfl⟩ := mine
          have grown := sane.produced_queuedBy logs (loggable rfl rfl) own
          rw [Recorded.Faithful, grown, faithful, ← List.filter_append]
          simp
        · have same : (recorded.cluster.put q state).produced p client =
              recorded.cluster.produced p client := by
            refine produced_of_foreign log fun req listed seq isTag => mine ?_
            obtain ⟨_, isOwn⟩ := tagged req listed
            rw [isOwn] at isTag
            cases isTag
            exact ⟨rfl, rfl⟩
          have untouched : Function.update recorded.queued q (Function.update (recorded.queued q)
              conn (recorded.queued q conn ++
                recorded.cluster.queuedBy (recorded.cluster.put q state) q conn)) p client =
              recorded.queued p client := by
            by_cases here : p = q
            · subst here
              rw [Function.update_self, Function.update_of_ne fun same => mine ⟨rfl, same.symm⟩]
            · rw [Function.update_of_ne here]
          exact same.trans (faithful.trans (congrArg (List.filter Buffer.isSet) untouched.symm))
      · have notRequest : ∀ client frames freed, event ≠ .request client (some frames) freed :=
          fun client frames freed same => read ⟨client, frames, freed, same⟩
        have log : state.services.kafka = recorded.cluster.services.kafka :=
          State.step_kafka notRequest own
        split at moved
        next isRequest =>
          cases isRequest
          exact absurd rfl (notRequest _ _ _)
        · cases moved
          refine ⟨⟨_, saneAfter⟩, ?_⟩
          have same : (recorded.cluster.put q state).produced p client =
              recorded.cluster.produced p client := by
            rw [Cluster.produced, Cluster.produced, ← log]
            rfl
          exact same.trans faithful
    · have consumed := (Cluster.step_cases stepped).resolve_left isProxy
      split at moved
      · exact absurd ⟨_, _, rfl⟩ isProxy
      · cases moved
        refine ⟨⟨_, sane.consumed consumed⟩, ?_⟩
        have same : cluster.produced p client = recorded.cluster.produced p client := by
          rw [Cluster.produced, Cluster.produced, consumed.services]
        exact same.trans faithful

/-- **The log is what was written**: the messages produced for a connection are the SETs
that were queued on its datalet link, in order. -/
theorem log_faithful (logs : (cfgs p).Logs)
    (run : Transition.Runs (Recorded.step cfgs)
      (fun recorded action => action.Loggable cfgs p client recorded.cluster)
      (Recorded.init engine) recorded) :
    recorded.cluster.produced p client = (recorded.queued p client).filter Buffer.isSet := by
  have whole := run.invariant (fun recorded => (∃ sessions, recorded.cluster.Sane cfgs sessions) ∧
    recorded.Faithful p client) ?_ ⟨⟨_, .init cfgs⟩, rfl⟩
  · exact whole.2
  · rintro recorded action after ⟨⟨sessions, sane⟩, faithful⟩ loggable moved
    exact faithful.step logs sane loggable moved

end Runs

/-- Two pipelined writes and, in a later read, a GET. -/
theorem log_faithful_sample : ∃ recorded : Recorded mapEngine,
    (recorded.queued 0 0).map Buffer.frame? =
      [some (.set [7] [1]), some (.set [8] [2]), some (.get [7])] ∧
    recorded.cluster.produced 0 0 = (recorded.queued 0 0).filter Buffer.isSet := by
  obtain ⟨recorded, run, post⟩ := Transition.Runs.exists_of_exec
    (Recorded.step Config.sampleMaster)
    (fun recorded action => action.Loggable Config.sampleMaster 0 0 recorded.cluster)
    (Recorded.init mapEngine)
    [.proxy 0 (.accept fun _ => ⟨false, false⟩),
      .proxy 0 (.request 0 (some [.set [7] [1], .set [8] [2]]) fun _ => id),
      .proxy 0 (.writable 2 true), .proxy 0 (.request 0 (some [.get [7]]) fun _ => id)]
    (fun recorded => (recorded.queued 0 0).map Buffer.frame? =
      [some (.set [7] [1]), some (.set [8] [2]), some (.get [7])]) (by decide)
  simp only [decide_eq_true_eq] at post
  exact ⟨recorded, post, log_faithful (by decide) run⟩

/-- A read after a write is produced, since the flag of the link is left over from the
write; a write whose lock is refused is produced and not queued. -/
theorem log_unfaithful :
    (∃ recorded : Recorded mapEngine,
      Transition.Runs (Recorded.step Config.sampleActive) (fun _ _ => True)
        (Recorded.init mapEngine) recorded ∧
      (recorded.cluster.produced 0 0).map Buffer.frame? =
        [some (.set [7] [1]), some (.get [8])]) ∧
    (∃ recorded : Recorded mapEngine,
      Transition.Runs (Recorded.step Config.sampleActive) (fun _ _ => True)
        (Recorded.init mapEngine) recorded ∧
      (recorded.cluster.produced 1 0).map Buffer.frame? = [some (.set [7] [2])] ∧
      recorded.queued 1 0 = []) := by
  refine ⟨?_, ?_⟩
  · obtain ⟨recorded, run, post⟩ := Transition.Runs.exists_of_exec
      (Recorded.step Config.sampleActive) (fun _ _ => True) (Recorded.init mapEngine)
      [.proxy 0 (.accept fun _ => ⟨false, false⟩),
        .proxy 0 (.request 0 (some [.set [7] [1], .get [8]]) fun _ => id)]
      (fun recorded => (recorded.cluster.produced 0 0).map Buffer.frame? =
        [some (.set [7] [1]), some (.get [8])]) (by decide)
    exact ⟨recorded, run, by simpa using post⟩
  · obtain ⟨recorded, run, post⟩ := Transition.Runs.exists_of_exec
      (Recorded.step Config.sampleActive) (fun _ _ => True) (Recorded.init mapEngine)
      [.proxy 0 (.accept fun _ => ⟨false, false⟩), .proxy 1 (.accept fun _ => ⟨false, false⟩),
        .proxy 0 (.request 0 (some [.set [7] [1]]) fun _ => id),
        .proxy 1 (.request 0 (some [.set [7] [2]]) fun _ => id)]
      (fun recorded => (recorded.cluster.produced 1 0).map Buffer.frame? =
        [some (.set [7] [2])] ∧ recorded.queued 1 0 = []) (by decide)
    simp only [decide_eq_true_eq] at post
    exact ⟨recorded, run, post⟩

end BespoKV
