import BespoKV.Library.Streams
import BespoKV.Proxy.Cluster
import BespoKV.Proxy.Pending
import BespoKV.Single.Delivery

/-!
# Convergence under eventual consistency

A write goes to the log when it is parsed and to a datalet over the link of its client.
Consumers apply the log to the other datalets, or to all of them.  Nothing orders the two
ways, so datalets converge only as long as writes to one key that are on their way to a
datalet at the same time write the same value.
-/

namespace BespoKV

open Streams

/-- A proxy of an eventually consistent shard. -/
structure Config.IsEventual (cfg : Config) : Prop where
  model : cfg.consistencyModel = .eventual
  topology : cfg.topology ≠ .no

namespace Config.IsEventual

variable {cfg : Config} (eventual : cfg.IsEventual)
include eventual

theorem single : cfg.IsSingle := by
  have topology := eventual.topology
  unfold Config.IsSingle
  cases shape : cfg.topology with
  | no => exact absurd shape topology
  | ms => exact .inr (.inr ⟨eventual.model, .inl rfl⟩)
  | slave => exact .inr (.inl rfl)
  | aa => exact .inr (.inr ⟨eventual.model, .inr rfl⟩)

theorem fansOutAfter (proxy : Proxy) (out : LinkPtr) :
    Ctx.fansOutAfter cfg proxy out = false := by
  simp [Ctx.fansOutAfter, eventual.model, eventual.topology]

end Config.IsEventual

/-- Writes that clients send to this proxy go to the log. -/
def Config.Logs (cfg : Config) : Prop := cfg.topology = .ms ∨ cfg.topology = .aa

instance (cfg : Config) : Decidable cfg.Logs := inferInstanceAs (Decidable (_ ∨ _))

/-- The datalet a proxy keeps up to date: the one its clients' writes go to, or the one
its consumer writes to. -/
def Config.datalet (cfg : Config) : Option AddrType :=
  if cfg.topology = .ms then (cfg.serverAddrs cfg.dumbMap.rows).getLast? else cfg.consumerAddr

/-- The two ways to run a shard: a master proxy with slave proxies, or peers. -/
inductive Deployed (cfgs : Nat → Config) (members : List Nat) : Prop where
  | masterSlave (head : Nat) (member : head ∈ members)
      (model : ∀ p ∈ members, (cfgs p).consistencyModel = .eventual)
      (master : (cfgs head).topology = .ms)
      (slaves : ∀ p ∈ members, p ≠ head → (cfgs p).topology = .slave)
  | activeActive (model : ∀ p ∈ members, (cfgs p).consistencyModel = .eventual)
      (peers : ∀ p ∈ members, (cfgs p).topology = .aa)

namespace Deployed

variable {cfgs : Nat → Config} {members : List Nat} {p q : Nat}

theorem eventual (deployed : Deployed cfgs members) (member : p ∈ members) :
    (cfgs p).IsEventual := by
  cases deployed with
  | masterSlave head _ model master slaves =>
      refine ⟨model p member, ?_⟩
      by_cases isHead : p = head
      · simp [isHead, master]
      · simp [slaves p member isHead]
  | activeActive model peers => exact ⟨model p member, by simp [peers p member]⟩

/-- A write that is logged reaches every datalet: through a consumer or directly. -/
theorem consumes (deployed : Deployed cfgs members) (member : p ∈ members)
    (logs : (cfgs p).Logs) (other : q ∈ members) :
    (cfgs q).consumes = true ∧ (cfgs q).datalet = (cfgs q).consumerAddr ∨
      q = p ∧ (cfgs q).topology = .ms := by
  cases deployed with
  | masterSlave head _ model master slaves =>
      by_cases isHead : q = head
      · right
        subst isHead
        by_cases same : p = q
        · exact ⟨same.symm, master⟩
        · rw [Config.Logs, slaves p member same] at logs
          simp at logs
      · left
        simp [Config.consumes, Config.datalet, model q other, slaves q other isHead]
  | activeActive model peers =>
      left
      simp [Config.consumes, Config.datalet, model q other, peers q other]

end Deployed

/-! ## Requests on their way to a datalet -/

/-- Requests on their way to the datalet behind a datalet link. -/
def Proxy.unserved (proxy : Proxy) (ptr : LinkPtr) : List Buffer :=
  if (proxy.links ptr).nwFunc = .request then [] else proxy.pending ptr

/-- A datalet link that failed. -/
def Proxy.Failed (proxy : Proxy) (ptr : LinkPtr) : Prop :=
  ptr < proxy.next ∧ (proxy.links ptr).nwFunc ≠ .request ∧ (proxy.links ptr).error = true

/-- A proxy did nothing that concerns writes, except that links may have failed. -/
structure Proxy.Calm (before after : Proxy) : Prop where
  failed : ∀ ptr, before.Failed ptr → after.Failed ptr
  peer : ∀ ptr addr, (before.links ptr).peer = some addr →
    before.Failed ptr ∨ before.unserved ptr ≠ [] → (after.links ptr).peer = some addr
  unserved : ∀ ptr, ¬after.Failed ptr → ∀ key,
    History.replay Buffer.write? (after.unserved ptr) key =
      History.replay Buffer.write? (before.unserved ptr) key

/-- Steps that open no links. -/
theorem Proxy.Calm.of_info {before after : Proxy} (next : after.next = before.next)
    (info : ∀ ptr, (after.links ptr).toLinkInfo = (before.links ptr).toLinkInfo)
    (links : ∀ ptr, (before.links ptr).nwFunc ≠ .request →
      ((before.links ptr).error = true → (after.links ptr).error = true) ∧
      (¬after.Failed ptr → ∀ key,
        History.replay Buffer.write? (after.pending ptr) key =
          History.replay Buffer.write? (before.pending ptr) key)) :
    before.Calm after where
  failed := by
    rintro ptr ⟨small, isDatalet, error⟩
    refine ⟨next ▸ small, ?_, (links ptr isDatalet).1 error⟩
    rwa [show (after.links ptr).nwFunc = (before.links ptr).nwFunc from
      congrArg LinkInfo.nwFunc (info ptr)]
  peer := fun ptr addr peer _ => (congrArg LinkInfo.peer (info ptr)).trans peer
  unserved := by
    intro ptr healthy key
    have func : (after.links ptr).nwFunc = (before.links ptr).nwFunc :=
      congrArg LinkInfo.nwFunc (info ptr)
    unfold Proxy.unserved
    rw [func]
    split
    · rfl
    next isDatalet => exact (links ptr isDatalet).2 healthy key

section Steps

variable {engine : Engine} {cfg : Config} {state after : State engine}
variable {sessions : List Session} {session : Session}

theorem Proxy.Calm.of_shape {before after : Proxy} (shape : after.shape = before.shape)
    (links : ∀ ptr, (before.links ptr).nwFunc ≠ .request →
      ((before.links ptr).error = true → (after.links ptr).error = true) ∧
      (¬after.Failed ptr → ∀ key,
        History.replay Buffer.write? (after.pending ptr) key =
          History.replay Buffer.write? (before.pending ptr) key)) :
    before.Calm after :=
  .of_info (congrArg Shape.next shape) (fun ptr => congrFun (congrArg Shape.info shape) ptr) links

/-- Every event but a read from a client and a request that is served is calm. -/
theorem Sane.calm {event : Event} (eventual : cfg.IsEventual) (sane : Sane cfg state sessions)
    (notRequest : ∀ client frames freed, event ≠ .request client (some frames) freed)
    (notServe : ∀ link, event ≠ .serve link) (moved : state.step cfg event = .ok after) :
    state.proxy.Calm after.proxy := by
  cases event with
  | accept uninit =>
      obtain ⟨session, accepted, _, traffic, _⟩ := sane.accept moved
      have pending : ∀ ptr, after.proxy.pending ptr = state.proxy.pending ptr :=
        fun ptr => congrArg (Traffic.pending · ptr) traffic
      have same : ∀ ptr, ptr < state.proxy.next →
          after.proxy.links ptr = state.proxy.links ptr :=
        fun ptr small => accepted.same ptr (.inl small)
      refine ⟨?_, ?_, ?_⟩
      · rintro ptr ⟨small, isDatalet, error⟩
        rw [← same ptr small] at isDatalet error
        exact ⟨Nat.lt_of_lt_of_le small accepted.next, isDatalet, error⟩
      · intro ptr addr peer matters
        have small : ptr < state.proxy.next := by
          rcases matters with failed | waiting
          · exact failed.1
          · by_contra large
            refine waiting ?_
            rw [Proxy.unserved, sane.pending_beyond (Nat.not_lt.mp large), ite_self]
        rw [same ptr small]
        exact peer
      · intro ptr _ key
        by_cases small : ptr < state.proxy.next
        · rw [Proxy.unserved, Proxy.unserved, same ptr small, pending]
        · rw [Proxy.unserved, Proxy.unserved, pending,
            sane.pending_beyond (Nat.not_lt.mp small), ite_self, ite_self]
  | request client msg freed =>
      cases msg with
      | none =>
          rcases State.recvRequest_none moved with rfl | rfl
          · exact .of_info rfl (fun _ => rfl) fun _ _ => ⟨id, fun _ _ => rfl⟩
          · exact .of_info rfl (fun _ => rfl) fun _ _ => ⟨id, fun _ _ => rfl⟩
      | some frames => exact absurd rfl (notRequest client frames freed)
  | response link =>
      have within := sane.response_within moved
      obtain ⟨_, _, _, within⟩ := within
      refine .of_info (congrArg Shape.next within.shape) within.info fun ptr isDatalet => ?_
      obtain ⟨pending, error⟩ := sane.pending_response eventual.single.msStrongCr moved isDatalet
      exact ⟨fun failed => error.trans failed, fun _ key => by rw [pending]⟩
  | writable link written =>
      obtain ⟨proxy, rfl, wrote⟩ := State.sendOn_cases moved
      refine .of_shape wrote.shape fun ptr isDatalet => ?_
      rcases State.pending_wrote wrote isDatalet with ⟨pending, error⟩ | ⟨_, _, error, queued⟩
      · exact ⟨fun failed => error.trans failed, fun _ key => congrArg
          (fun list => History.replay Buffer.write? list key) pending⟩
      · refine ⟨fun _ => error, fun healthy => absurd ⟨?_, ?_, error⟩ healthy⟩
        · by_contra large
          have next : proxy.next = state.proxy.next := congrArg Shape.next wrote.shape
          exact queued (sane.quiet_beyond (next ▸ Nat.not_lt.mp large)).imsgQ
        · have func : (proxy.links ptr).nwFunc = (state.proxy.links ptr).nwFunc :=
            congrArg LinkInfo.nwFunc (congrFun (congrArg Shape.info wrote.shape) ptr)
          exact fun isClient => isDatalet (func.symm.trans isClient)
  | serve link => exact absurd rfl (notServe link)

/-- One frame of a read joins the requests of its client; a write joins the log. -/
structure Enqueues (cfg : Config) (before : Ctx) (server : LinkPtr) (frame : Frame)
    (req : Buffer) (after : Ctx) : Prop where
  content : req.content = .frames [frame]
  pending : ∀ ptr, (before.proxy.links ptr).nwFunc ≠ .request → after.proxy.pending ptr =
    before.proxy.pending ptr ++ if ptr = server then [req] else []
  log : after.services.kafka = before.services.kafka ++
    if frame.cmd = .set ∧ cfg.Logs then [req] else []
  shape : after.proxy.shape = before.proxy.shape
  error : ∀ ptr, (after.proxy.links ptr).error = (before.proxy.links ptr).error

theorem Sane.enqueues {ctx next : Ctx} {frame : Frame} {rest : List Frame}
    {freed : Nat → Key → Key} {continues : Bool} (eventual : cfg.IsEventual)
    (sane : Sane cfg (state.withCtx ctx) sessions) (member : session ∈ sessions)
    (handled : ctx.reqSegment cfg session.client frame rest freed = .ok (continues, next)) :
    ∃ server req, session.server = some server ∧ Enqueues cfg ctx server frame req next := by
  obtain ⟨mapped, out, server, assigned, route, steers, moved, refused, log⟩ :=
    Ctx.reqSegment_effect handled
  have single := eventual.single
  have granted : continues = true := by
    by_contra stopped
    obtain ⟨locks, _⟩ := refused (by simpa using stopped)
    simp [single.aaStrong] at locks
  subst granted
  have isServer : session.server = some server := by
    rw [← assigned]
    exact (congrArg LinkInfo.dataletConn (sane.client_info member)).symm
  obtain ⟨rfl, fwd⟩ : out = server ∧
      (mapped.links server).fwdToReplicas = decide (frame.cmd = .set) := by
    cases route with
    | locked active =>
        rw [single.aaStrong] at active
        cases active
    | write passive isSet fwd => exact ⟨rfl, by simpa [isSet, Proxy.flags] using fwd⟩
    | tailRead passive notSet chain =>
        rw [single.msStrongCr] at chain
        cases chain
    | read passive notSet notChain fwd => exact ⟨rfl, by simpa [notSet, Proxy.flags] using fwd⟩
  refine ⟨out, Ctx.segment mapped session.client out frame, isServer, rfl, ?_, ?_,
    moved.shape.trans steers.shape, fun ptr => ?_⟩
  · intro ptr _
    have targets : Ctx.targets cfg mapped out = [out] := by
      simp [Ctx.targets, single.fansOutBefore, eventual.fansOutAfter]
    rw [← Proxy.traffic_pending, moved.traffic, if_pos rfl, Ctx.pending_forwarded, targets,
      Traffic.pending_receive, Proxy.traffic_pending]
    by_cases here : ptr = out
    · simp [here]
    · simp [here, Ne.symm here]
  · rw [log]
    have produces : Ctx.produces cfg mapped out = decide (frame.cmd = .set ∧ cfg.Logs) := by
      simp only [Ctx.produces, fwd, Config.Logs]
      by_cases isSet : frame.cmd = .set <;> simp [isSet]
    simp [produces]
  · exact (congrArg Flags.error (congrFun moved.flags ptr)).trans (steers.error ptr)

namespace Enqueues

variable {before later : Ctx} {server ptr : LinkPtr} {frame : Frame} {req : Buffer}

/-- The other links of the proxy are as before. -/
theorem unserved_other (enqueues : Enqueues cfg before server frame req later)
    (different : ptr ≠ server) : later.proxy.unserved ptr = before.proxy.unserved ptr := by
  have func : (later.proxy.links ptr).nwFunc = (before.proxy.links ptr).nwFunc :=
    congrArg LinkInfo.nwFunc (congrFun (congrArg Shape.info enqueues.shape) ptr)
  rw [Proxy.unserved, Proxy.unserved, func]
  split
  · rfl
  next notClient =>
    rw [enqueues.pending ptr notClient, if_neg different, List.append_nil]

/-- A request that writes nothing does not matter. -/
theorem calm_read (enqueues : Enqueues cfg before server frame req later)
    (notSet : frame.cmd ≠ .set) : before.proxy.Calm later.proxy := by
  have silent : req.write? = none := by
    simp [Buffer.write?, Buffer.frame?, enqueues.content, notSet]
  refine .of_shape enqueues.shape fun ptr notClient => ⟨?_, fun _ key => ?_⟩
  · exact fun failed => (enqueues.error ptr).trans failed
  · rw [enqueues.pending ptr notClient]
    split
    · rw [History.replay_append, History.apply, silent]
    · rw [List.append_nil]

end Enqueues

end Steps

/-! ## The shard as a flow -/

/-- What a consumer has still to write to its datalet. -/
def Cluster.unread (cluster : Cluster mapEngine) (p : Nat) : List Buffer :=
  (cluster.consumers p).wire.req ++ ((cluster.consumers p).imsgQ ++
    (cluster.services.kafka.drop (cluster.consumers p).offset).map Cluster.message)

/-- The log, the datalet links of the members and their consumers. -/
def Cluster.flow (cfgs : Nat → Config) (members : List Nat) (cluster : Cluster mapEngine) :
    Flow AddrType Conn Buffer Key Value where
  log := cluster.services.kafka
  place
    | .link p ptr => if p ∈ members then ((cluster.proxies p).links ptr).peer else none
    | .consumer p =>
        if p ∈ members ∧ (cfgs p).consumes = true then (cfgs p).consumerAddr else none
  pending
    | .link p ptr => if p ∈ members then (cluster.proxies p).unserved ptr else []
    | .consumer p => cluster.unread p
  broken
    | .link p ptr => p ∈ members ∧ (cluster.proxies p).Failed ptr
    | .consumer _ => False
  store addr := (cluster.datalets addr).state

/-- A datalet of the shard. -/
def Fed (cfgs : Nat → Config) (members : List Nat) (addr : AddrType) : Prop :=
  ∃ p ∈ members, (cfgs p).datalet = some addr

section Moves

variable {cfgs : Nat → Config} {members : List Nat} {cluster after : Cluster mapEngine}
variable {p : Nat} {state : State mapEngine}

/-- A step of a proxy keeps streams broken and in place if its links stay so. -/
theorem flow_keeps (failed : ∀ ptr, (cluster.proxies p).Failed ptr → state.proxy.Failed ptr)
    (peer : ∀ ptr addr, ((cluster.proxies p).links ptr).peer = some addr →
      (cluster.proxies p).Failed ptr ∨ (cluster.proxies p).unserved ptr ≠ [] →
      (state.proxy.links ptr).peer = some addr) :
    Keeps (cluster.flow cfgs members) ((cluster.put p state).flow cfgs members) where
  broken := by
    rintro (⟨q, ptr⟩ | q) broken
    · by_cases here : q = p
      · subst here
        simpa [Cluster.flow, Cluster.put] using ⟨broken.1, failed ptr broken.2⟩
      · simpa [Cluster.flow, Cluster.put, here] using broken
    · exact broken
  place := by
    rintro (⟨q, ptr⟩ | q) addr place matters
    · by_cases here : q = p
      · subst here
        by_cases member : q ∈ members
        · simp only [Cluster.flow, member, if_true, true_and] at place matters
          simpa [Cluster.flow, Cluster.put, member] using peer ptr addr place matters
        · simp [Cluster.flow, member] at place
      · simpa [Cluster.flow, Cluster.put, here] using place
    · exact place

/-- A step of a proxy that opens no links and on which no link fails. -/
theorem flow_keeps_of_shape (shape : state.proxy.shape = (cluster.proxies p).shape)
    (error : ∀ ptr, (state.proxy.links ptr).error = ((cluster.proxies p).links ptr).error) :
    Keeps (cluster.flow cfgs members) ((cluster.put p state).flow cfgs members) := by
  have info : ∀ ptr, (state.proxy.links ptr).toLinkInfo =
      ((cluster.proxies p).links ptr).toLinkInfo :=
    fun ptr => congrFun (congrArg Shape.info shape) ptr
  refine flow_keeps ?_ fun ptr addr peer _ => (congrArg LinkInfo.peer (info ptr)).trans peer
  rintro ptr ⟨small, isDatalet, failed⟩
  refine ⟨lt_of_lt_of_eq small (congrArg Shape.next shape).symm, ?_, (error ptr).trans failed⟩
  rwa [show (state.proxy.links ptr).nwFunc = ((cluster.proxies p).links ptr).nwFunc from
    congrArg LinkInfo.nwFunc (info ptr)]

/-- A calm step of a proxy. -/
theorem agreeing_calm (agreeing : Agreeing Buffer.write? (Fed cfgs members)
      (cluster.flow cfgs members))
    (calm : (cluster.proxies p).Calm state.proxy)
    (log : state.services.kafka = cluster.services.kafka)
    (datalets : state.datalets = cluster.datalets) :
    Agreeing Buffer.write? (Fed cfgs members) ((cluster.put p state).flow cfgs members) := by
  refine agreeing.quiet (flow_keeps calm.failed calm.peer) log
    (by rw [Cluster.flow, Cluster.put, datalets]; rfl) ?_
  rintro (⟨q, ptr⟩ | q) healthy key
  · by_cases here : q = p
    · subst here
      by_cases member : q ∈ members
      · simp only [Cluster.flow, Cluster.put, Function.update_self, member, true_and] at healthy
        simpa [Cluster.flow, Cluster.put, member] using calm.unserved ptr healthy key
      · simp [Cluster.flow, member]
    · simp [Cluster.flow, Cluster.put, here]
  · simp only [Cluster.flow, Cluster.unread, Cluster.put, log]

/-- A datalet's contents change by what a request writes. -/
private theorem store_handle {addr : AddrType} {conn : Conn} {req : Buffer} {frame : Frame}
    (framed : req.frame? = some frame)
    (datalets : after.datalets = Function.update cluster.datalets addr
      ((cluster.datalets addr).handle conn req frame)) :
    (after.flow cfgs members).store = Function.update (cluster.flow cfgs members).store addr
      (History.apply Buffer.write? ((cluster.flow cfgs members).store addr) req) := by
  funext there
  by_cases here : there = addr
  · subst here
    rw [Function.update_self]
    change (after.datalets there).state = _
    rw [datalets, Function.update_self]
    exact mapEngine_serve _ framed
  · rw [Function.update_of_ne here]
    change (after.datalets there).state = (cluster.datalets there).state
    rw [datalets, Function.update_of_ne here]

/-- A datalet takes a request from a link. -/
theorem agreeing_serve {link : LinkPtr} {addr : AddrType} {req : Buffer} {frame : Frame}
    (agreeing : Agreeing Buffer.write? (Fed cfgs members) (cluster.flow cfgs members))
    (pid : (cluster.proxies p).pid = p) (member : p ∈ members)
    (isDatalet : ((cluster.proxies p).links link).nwFunc ≠ .request)
    (handled : (cluster.view p).Handled link addr req frame state) :
    Agreeing Buffer.write? (Fed cfgs members) ((cluster.put p state).flow cfgs members) := by
  have func : ∀ ptr, (state.proxy.links ptr).nwFunc = ((cluster.proxies p).links ptr).nwFunc :=
    fun ptr => congrArg LinkInfo.nwFunc (congrFun (congrArg Shape.info handled.moved.shape) ptr)
  have log : state.services = cluster.services := handled.services
  refine agreeing.serve (s := .link p link) (i := addr) (flow_keeps_of_shape handled.moved.shape
    fun ptr => congrArg Flags.error (congrFun handled.moved.flags ptr)) ?_ ?_ ?_ ?_
    (store_handle handled.framed handled.datalets)
  · simpa [Cluster.flow, member, Cluster.view] using handled.peer
  · exact congrArg Services.kafka log
  · simpa [Cluster.flow, Cluster.put, Cluster.view, member, Proxy.unserved, func, isDatalet]
      using handled.pending_self
  · rintro (⟨q, ptr⟩ | q) different
    · by_cases here : q = p
      · subst here
        have other : ptr ≠ link := fun same => different (same ▸ rfl)
        have pending : state.proxy.pending ptr = (cluster.proxies q).pending ptr :=
          handled.pending_other other
        simp [Cluster.flow, Cluster.put, Proxy.unserved, func, pending]
      · simp [Cluster.flow, Cluster.put, here]
    · simp only [Cluster.flow, Cluster.unread, Cluster.put, log]

/-- A write is logged and joins the requests of its client. -/
theorem agreeing_write {server : LinkPtr} {frame : Frame} {req : Buffer}
    (deployed : Deployed cfgs members) (member : p ∈ members)
    (agreeing : Agreeing Buffer.write? (Fed cfgs members) (cluster.flow cfgs members))
    (enqueues : Enqueues (cfgs p) (cluster.view p).toCtx server frame req state.toCtx)
    (datalets : state.datalets = cluster.datalets)
    (isSet : frame.cmd = .set) (logs : (cfgs p).Logs)
    (isDatalet : ((cluster.proxies p).links server).nwFunc ≠ .request)
    (peer : (cfgs p).topology = .ms →
      ((cluster.proxies p).links server).peer = (cfgs p).datalet)
    (offset : ∀ q, (cluster.consumers q).offset ≤ cluster.services.kafka.length)
    (compatible : ∀ q ∈ members, ∀ ptr, ¬(q = p ∧ ptr = server) →
      ∀ value, History.replay Buffer.write? ((cluster.proxies q).unserved ptr) frame.key =
        some value → value = frame.value) :
    Agreeing Buffer.write? (Fed cfgs members) ((cluster.put p state).flow cfgs members) := by
  have info : ∀ ptr, (state.proxy.links ptr).toLinkInfo =
      ((cluster.proxies p).links ptr).toLinkInfo :=
    fun ptr => congrFun (congrArg Shape.info enqueues.shape) ptr
  have func : ∀ ptr, (state.proxy.links ptr).nwFunc = ((cluster.proxies p).links ptr).nwFunc :=
    fun ptr => congrArg LinkInfo.nwFunc (info ptr)
  have samePeer : ∀ ptr, (state.proxy.links ptr).peer = ((cluster.proxies p).links ptr).peer :=
    fun ptr => congrArg LinkInfo.peer (info ptr)
  have writes : req.write? = some (frame.key, frame.value) := by
    simp [Buffer.write?, Buffer.frame?, enqueues.content, isSet]
  have log : state.services.kafka = cluster.services.kafka ++ [req] := by
    rw [enqueues.log, if_pos ⟨isSet, logs⟩]
    rfl
  -- the two ways in which a write travels
  have direct : (cluster.flow cfgs members).Joins Buffer.write?
      ((cluster.put p state).flow cfgs members) req (.link p server) := by
    refine ⟨req, rfl, ?_⟩
    have joined := enqueues.pending server isDatalet
    rw [if_pos rfl] at joined
    simpa [Cluster.flow, Cluster.put, Cluster.view, member, Proxy.unserved, func, isDatalet]
      using joined
  have consumed : ∀ q, (cluster.flow cfgs members).Joins Buffer.write?
      ((cluster.put p state).flow cfgs members) req (.consumer q) := by
    intro q
    refine ⟨Cluster.message req, rfl, ?_⟩
    simp only [Cluster.flow, Cluster.unread, Cluster.put, log,
      List.drop_append_of_le_length (offset q), List.map_append, List.map_cons, List.map_nil,
      List.append_assoc]
  refine agreeing.write (flow_keeps_of_shape enqueues.shape enqueues.error) writes log
    (by rw [Cluster.flow, Cluster.put, datalets]; rfl) ?_ ?_
  · rintro (⟨q, ptr⟩ | q) _
    · by_cases here : q = p ∧ ptr = server
      · obtain ⟨rfl, rfl⟩ := here
        exact .inl direct
      · refine .inr ⟨?_, fun other found => ?_⟩
        · by_cases atP : q = p
          · subst atP
            have same : state.proxy.unserved ptr = (cluster.proxies q).unserved ptr :=
              enqueues.unserved_other fun same => here ⟨rfl, same⟩
            simp [Cluster.flow, Cluster.put, same]
          · simp [Cluster.flow, Cluster.put, atP]
        · by_cases listed : q ∈ members
          · simp only [Cluster.flow, listed, if_true] at found
            exact compatible q listed ptr here other found
          · simp only [Cluster.flow, listed, if_false] at found
            cases found
    · exact .inl (consumed q)
  · rintro addr ⟨q, other, fed⟩
    rcases deployed.consumes member logs other with ⟨consumes, place⟩ | ⟨rfl, isMaster⟩
    · refine ⟨.consumer q, ?_, .inr (consumed q)⟩
      simp [Cluster.flow, other, consumes, ← place, fed]
    · refine ⟨.link q server, ?_, .inr direct⟩
      simp [Cluster.flow, Cluster.put, member, samePeer, peer isMaster, fed]

/-- The consumer's connection does not change what it has still to write. -/
theorem flow_setConsumer {consumer : Consumer}
    (unread : (cluster.setConsumer p consumer).unread p = cluster.unread p) :
    (cluster.setConsumer p consumer).flow cfgs members = cluster.flow cfgs members := by
  have same : ∀ q, (cluster.setConsumer p consumer).unread q = cluster.unread q := by
    intro q
    by_cases here : q = p
    · rw [here, unread]
    · simp [Cluster.unread, Cluster.setConsumer, here]
  simp only [Cluster.flow, same]
  rfl

end Moves

/-! ## Runs -/

/-- The proxy an action belongs to. -/
def Action.actor : Action → Nat
  | .proxy p _ | .consume p | .consumerOut p | .consumerServe p | .consumerIn p => p

/-- No other client has a different write of this key on its way to a datalet. -/
def Cluster.Compatible (members : List Nat) (cluster : Cluster mapEngine) (p : Nat)
    (client : LinkPtr) (frame : Frame) : Prop :=
  ∀ q ∈ members, ∀ ptr ∈ List.range (cluster.proxies q).next,
    ¬(q = p ∧ ((cluster.proxies p).links client).dataletConn = some ptr) →
    ∀ req ∈ (cluster.proxies q).unserved ptr, ∀ write ∈ req.write?,
      write.1 = frame.key → write.2 = frame.value

instance (members : List Nat) (cluster : Cluster mapEngine) (p : Nat) (client : LinkPtr)
    (frame : Frame) : Decidable (cluster.Compatible members p client frame) :=
  inferInstanceAs (Decidable (∀ q ∈ members, ∀ ptr ∈ List.range (cluster.proxies q).next,
    ¬(q = p ∧ ((cluster.proxies p).links client).dataletConn = some ptr) →
    ∀ req ∈ (cluster.proxies q).unserved ptr, ∀ write ∈ req.write?,
      write.1 = frame.key → write.2 = frame.value))

/-- Writes are sent to proxies that log them, and not while another client's write of the
same key with another value is on its way. -/
def Action.Coordinated (cfgs : Nat → Config) (members : List Nat) (cluster : Cluster mapEngine) :
    Action → Prop
  | .proxy p (.request client (some frames) _) => ∀ frame ∈ frames, frame.cmd = .set →
      (cfgs p).Logs ∧ cluster.Compatible members p client frame
  | _ => True

instance (cfgs : Nat → Config) (members : List Nat) (cluster : Cluster mapEngine) :
    DecidablePred (Action.Coordinated cfgs members cluster) := fun action =>
  match action with
  | .proxy p (.request client (some frames) _) =>
      inferInstanceAs (Decidable (∀ frame ∈ frames, frame.cmd = .set →
        (cfgs p).Logs ∧ cluster.Compatible members p client frame))
  | .proxy _ (.request _ none _) => isTrue trivial
  | .proxy _ (.accept _) => isTrue trivial
  | .proxy _ (.response _) => isTrue trivial
  | .proxy _ (.writable _ _) => isTrue trivial
  | .proxy _ (.serve _) => isTrue trivial
  | .consume _ => isTrue trivial
  | .consumerOut _ => isTrue trivial
  | .consumerServe _ => isTrue trivial
  | .consumerIn _ => isTrue trivial

/-- Datalets differ from the log only by what is on its way to them. -/
structure Converging (cfgs : Nat → Config) (members : List Nat) (cluster : Cluster mapEngine)
    (sessions : Nat → List Session) : Prop where
  sane : cluster.Sane cfgs sessions
  agreeing : Agreeing Buffer.write? (Fed cfgs members) (cluster.flow cfgs members)
  offset : ∀ q, (cluster.consumers q).offset ≤ cluster.services.kafka.length
  /-- only consumers that were started have anything to do -/
  idle : ∀ q, (cfgs q).consumes = false →
    (cluster.consumers q).imsgQ = [] ∧ (cluster.consumers q).wire.req = []

section Runs

variable {cfgs : Nat → Config} {members : List Nat} {cluster after : Cluster mapEngine}
variable {sessions : Nat → List Session} {p : Nat}

theorem Converging.init (cfgs : Nat → Config) (members : List Nat) :
    Converging cfgs members (Cluster.init mapEngine) fun _ => [] where
  sane := .init cfgs
  agreeing := by
    refine .of_empty rfl (fun s => ?_) fun _ _ => rfl
    cases s with
    | link q ptr =>
        simp [Cluster.flow, Cluster.init, Proxy.unserved, Proxy.pending]
    | consumer q => simp [Cluster.flow, Cluster.unread, Cluster.init]
  offset := fun _ => Nat.zero_le _
  idle := fun _ _ => ⟨rfl, rfl⟩

/-- What is on its way to a datalet over other links does not contradict a compatible write. -/
theorem Converging.compatible {client server : LinkPtr} {frame : Frame}
    (converging : Converging cfgs members cluster sessions)
    (mapped : ((cluster.proxies p).links client).dataletConn = some server)
    (compatible : cluster.Compatible members p client frame) {q : Nat} (member : q ∈ members)
    {ptr : LinkPtr} (different : ¬(q = p ∧ ptr = server)) {value : Value}
    (found : History.replay Buffer.write? ((cluster.proxies q).unserved ptr) frame.key =
      some value) : value = frame.value := by
  obtain ⟨write, waiting, writes⟩ := History.exists_of_replay found
  have small : ptr < (cluster.proxies q).next := by
    by_contra large
    rw [Proxy.unserved, show (cluster.proxies q).pending ptr = [] from
      (converging.sane.sane q).pending_beyond (Nat.not_lt.mp large), ite_self] at waiting
    cases waiting
  refine compatible q member ptr (List.mem_range.mpr small) ?_ write waiting _ writes rfl
  rintro ⟨rfl, isPtr⟩
  exact different ⟨rfl, Option.some.inj (isPtr.symm.trans mapped)⟩

/-- A read from a client: frame by frame, a write is logged and queued. -/
theorem Converging.request {state : State mapEngine} {client : LinkPtr} {frames : List Frame}
    {freed : Nat → Key → Key} (deployed : Deployed cfgs members)
    (converging : Converging cfgs members cluster sessions) (member : p ∈ members)
    (coordinated : (Action.proxy p (.request client (some frames) freed)).Coordinated
      cfgs members cluster)
    (stepped : (cluster.view p).step (cfgs p) (.request client (some frames) freed) = .ok state) :
    Agreeing Buffer.write? (Fed cfgs members) ((cluster.put p state).flow cfgs members) ∧
      cluster.services.kafka.length ≤ state.services.kafka.length := by
  have sane := converging.sane.sane p
  obtain ⟨session, listed, rfl, _⟩ := sane.request_within stepped
  have eventual := deployed.eventual member
  have assigned : ((cluster.proxies p).links session.client).dataletConn = session.server :=
    congrArg LinkInfo.dataletConn (sane.client_info listed)
  have whole := sane.request_induction
    (P := fun now left => Agreeing Buffer.write? (Fed cfgs members)
        ((cluster.put p now).flow cfgs members) ∧
      cluster.services.kafka.length ≤ now.services.kafka.length ∧
      now.proxy.shape = (cluster.proxies p).shape ∧
      (∀ ptr, session.server ≠ some ptr → now.proxy.unserved ptr =
        (cluster.proxies p).unserved ptr) ∧
      ∀ frame ∈ left, frame ∈ frames)
    listed ⟨?_, Nat.le_refl _, rfl, fun _ _ => rfl, fun _ inside => inside⟩ ?_ stepped
  · obtain ⟨_, agreeing, longer, _⟩ := whole
    exact ⟨agreeing, longer⟩
  · rw [Cluster.put_view]
    exact converging.agreeing
  · rintro ctx frame rest continues next saneCtx ⟨agreeing, longer, shape, same, left⟩ handled
    obtain ⟨server, req, isServer, enqueues⟩ := Sane.enqueues eventual saneCtx listed handled
    have isDatalet : (ctx.proxy.links server).nwFunc ≠ .request := by
      have func : (ctx.proxy.links server).nwFunc = .response :=
        saneCtx.server_func listed isServer
      simp [func]
    refine ⟨?_, ?_, enqueues.shape.trans shape, fun ptr elsewhere => ?_, fun frame inside => ?_⟩
    · rw [← Cluster.put_put cluster p ((cluster.view p).withCtx ctx)]
      by_cases isSet : frame.cmd = .set
      · obtain ⟨logs, compatible⟩ := coordinated frame (left frame List.mem_cons_self) isSet
        have joined : Enqueues (cfgs p)
            ((cluster.put p ((cluster.view p).withCtx ctx)).view p).toCtx server frame req
            ((cluster.view p).withCtx next).toCtx := by
          rw [Cluster.view_put_self]
          exact enqueues
        refine agreeing_write deployed member agreeing joined rfl isSet logs ?_ ?_ ?_ ?_
        · simpa [Cluster.put, State.withCtx] using isDatalet
        · intro isMaster
          obtain ⟨addr, last, info⟩ := (saneCtx.wired.established session listed).server _ isServer
          have peer : (ctx.proxy.links server).peer = some addr := congrArg LinkInfo.peer info
          simpa [Cluster.put, State.withCtx, Config.datalet, isMaster, last] using peer
        · exact fun q => (converging.offset q).trans longer
        · intro q other ptr different value found
          have unchanged : ((cluster.put p ((cluster.view p).withCtx ctx)).proxies q).unserved ptr =
              (cluster.proxies q).unserved ptr := by
            by_cases here : q = p
            · subst here
              have elsewhere : session.server ≠ some ptr := fun isPtr =>
                different ⟨rfl, Option.some.inj (isPtr.symm.trans isServer)⟩
              simpa [Cluster.put] using same ptr elsewhere
            · simp [Cluster.put, here]
          rw [unchanged] at found
          exact converging.compatible (assigned.trans isServer) compatible other different found
      · refine agreeing_calm agreeing ?_ ?_ rfl
        · rw [show (cluster.put p ((cluster.view p).withCtx ctx)).proxies p = ctx.proxy by
            simp [Cluster.put, State.withCtx]]
          exact enqueues.calm_read isSet
        · change next.services.kafka = ctx.services.kafka
          rw [enqueues.log, if_neg (fun writes => isSet writes.1), List.append_nil]
    · change _ ≤ next.services.kafka.length
      rw [enqueues.log, List.length_append]
      exact longer.trans (Nat.le_add_right _ _)
    · rw [← same ptr elsewhere]
      refine enqueues.unserved_other ?_
      rintro rfl
      exact elsewhere isServer
    · cases continues with
      | true => exact left frame (List.mem_cons_of_mem _ inside)
      | false => cases inside

/-- A step of a proxy. -/
theorem Converging.step_proxy {event : Event} (deployed : Deployed cfgs members)
    (converging : Converging cfgs members cluster sessions) (member : p ∈ members)
    (coordinated : (Action.proxy p event).Coordinated cfgs members cluster)
    (moved : cluster.step cfgs (.proxy p event) = .ok after) :
    ∃ later, Converging cfgs members after later := by
  obtain ⟨state, stepped, rfl⟩ := Cluster.step_proxy moved
  obtain ⟨later, steps, sane⟩ := converging.sane.step_proxy stepped
  have saneView := converging.sane.sane p
  by_cases read : ∃ client frames freed, event = .request client (some frames) freed
  · obtain ⟨client, frames, freed, rfl⟩ := read
    obtain ⟨agreeing, longer⟩ := converging.request deployed member coordinated stepped
    exact ⟨_, sane, agreeing, fun q => (converging.offset q).trans longer, converging.idle⟩
  have notRequest : ∀ client frames freed, event ≠ .request client (some frames) freed :=
    fun client frames freed same => read ⟨client, frames, freed, same⟩
  have log : state.services.kafka = cluster.services.kafka :=
    State.step_kafka notRequest stepped
  refine ⟨_, sane, ?_, fun q => (converging.offset q).trans (by rw [← log]; rfl), converging.idle⟩
  by_cases served : ∃ link, event = .serve link
  · obtain ⟨link, rfl⟩ := served
    obtain ⟨addr, req, frame, handled⟩ := State.serveOn_cases stepped
    obtain ⟨session, listed, inside⟩ := saneView.backend_of_handled handled
    refine agreeing_serve converging.agreeing (converging.sane.pid p) member ?_ handled
    exact saneView.backend_func listed inside
  · have notServe : ∀ link, event ≠ .serve link := fun link same => served ⟨link, same⟩
    refine agreeing_calm converging.agreeing
      (saneView.calm (deployed.eventual member) notRequest notServe stepped) log
      (State.step_datalets notServe stepped)

/-- What an action of a consumer changes: its queue, or a datalet that takes a request. -/
inductive ConsumerStep (cfg : Config) (cluster : Cluster mapEngine) (p : Nat) :
    Cluster mapEngine → Prop
  | moves (consumer : Consumer)
      (unread : (cluster.setConsumer p consumer).unread p = cluster.unread p)
      (offset : consumer.offset ≤ max (cluster.consumers p).offset cluster.services.kafka.length)
      (idle : cfg.consumes = false → (cluster.consumers p).imsgQ = [] →
        (cluster.consumers p).wire.req = [] → consumer.imsgQ = [] ∧ consumer.wire.req = []) :
      ConsumerStep cfg cluster p (cluster.setConsumer p consumer)
  | serves {addr : AddrType} {req : Buffer} {frame : Frame} {rest : List Buffer}
      {rsp : List Reply} (place : cfg.consumerAddr = some addr)
      (waiting : (cluster.consumers p).wire.req = req :: rest)
      (framed : req.frame? = some frame) :
      ConsumerStep cfg cluster p
        { cluster.setConsumer p { cluster.consumers p with wire := ⟨rest, rsp⟩ } with
          datalets := Function.update cluster.datalets addr
            ((cluster.datalets addr).handle (.consumer p) req frame) }

theorem consumer_cases {action : Action} (notProxy : ∀ p event, action ≠ .proxy p event)
    (moved : cluster.step cfgs action = .ok after) :
    ConsumerStep (cfgs action.actor) cluster action.actor after := by
  cases action with
  | proxy p event => exact absurd rfl (notProxy p event)
  | consume p =>
      simp only [Cluster.step, Cluster.consume] at moved
      split at moved
      next req consumes found =>
        cases moved
        obtain ⟨bound, isNext⟩ := List.getElem?_eq_some_iff.mp found
        refine .moves _ ?_ ?_ fun idle => ?_
        · simp only [Cluster.unread, Cluster.setConsumer, Function.update_self,
            Action.actor, List.drop_eq_getElem_cons bound, isNext]
          simp
        · exact (Nat.succ_le_of_lt bound).trans (Nat.le_max_right _ _)
        · simp only [Action.actor] at idle
          simp [idle] at consumes
      · cases moved
  | consumerOut p =>
      simp only [Cluster.step, Cluster.consumerOut] at moved
      split at moved
      · cases moved
      split at moved
      · cases moved
        have same : cluster.setConsumer p (cluster.consumers p) = cluster := by
          simp [Cluster.setConsumer]
        have step : ConsumerStep (cfgs p) cluster p (cluster.setConsumer p (cluster.consumers p)) :=
          .moves _ (by rw [same]) (Nat.le_max_left _ _) fun _ queue wire => ⟨queue, wire⟩
        rwa [same] at step
      next smsg rest queued =>
        cases moved
        refine .moves _ ?_ (Nat.le_max_left _ _) fun _ empty => ?_
        · simp [Cluster.unread, Cluster.setConsumer, queued, Action.actor]
        · simp [Action.actor, queued] at empty
  | consumerServe p =>
      simp only [Cluster.step, Cluster.consumerServe] at moved
      split at moved
      next addr req rest place waiting =>
        split at moved
        next frame framed =>
          cases moved
          exact .serves place waiting framed
        · cases moved
      · cases moved
  | consumerIn p =>
      simp only [Cluster.step, Cluster.consumerIn] at moved
      split at moved
      · cases moved
        refine .moves _ ?_ (Nat.le_max_left _ _) fun _ queue wire => ⟨queue, wire⟩
        simp [Cluster.unread, Cluster.setConsumer, Action.actor]
      · cases moved

/-- An action of a consumer. -/
theorem Converging.step_consumer {action : Action}
    (converging : Converging cfgs members cluster sessions) (member : action.actor ∈ members)
    (notProxy : ∀ p event, action ≠ .proxy p event)
    (moved : cluster.step cfgs action = .ok after) : Converging cfgs members after sessions := by
  have consumed : cluster.Consumed after :=
    (Cluster.step_cases moved).resolve_left fun ⟨p, event, same⟩ => notProxy p event same
  have sane := converging.sane.consumed consumed
  have stepped := consumer_cases notProxy moved
  revert member stepped
  generalize action.actor = p
  intro member stepped
  cases stepped with
  | moves consumer unread offset idle =>
      refine ⟨sane, ?_, fun q => ?_, fun q quiet => ?_⟩
      · rw [flow_setConsumer unread]
        exact converging.agreeing
      · by_cases here : q = p
        · subst here
          rw [max_eq_right (converging.offset q)] at offset
          simpa [Cluster.setConsumer] using offset
        · simpa [Cluster.setConsumer, here] using converging.offset q
      · by_cases here : q = p
        · subst here
          obtain ⟨queue, wire⟩ := converging.idle q quiet
          simpa [Cluster.setConsumer] using idle quiet queue wire
        · simpa [Cluster.setConsumer, here] using converging.idle q quiet
  | @serves addr req frame rest rsp place waiting framed =>
      have consumes : (cfgs p).consumes = true := by
        by_contra quiet
        rw [(converging.idle p (by simpa using quiet)).2] at waiting
        cases waiting
      refine ⟨sane, ?_, fun q => ?_, fun q quiet => ?_⟩
      · refine converging.agreeing.serve (s := .consumer p) (i := addr) ⟨?_, ?_⟩ ?_ rfl ?_ ?_
          (store_handle framed rfl)
        · exact fun _ broken => broken
        · exact fun _ _ here _ => here
        · simp [Cluster.flow, member, consumes, place]
        · simp [Cluster.flow, Cluster.unread, Cluster.setConsumer, waiting]
        · rintro (⟨q, ptr⟩ | q) different
          · rfl
          · have other : q ≠ p := fun same => different (same ▸ rfl)
            simp [Cluster.flow, Cluster.unread, Cluster.setConsumer, other]
      · by_cases here : q = p
        · subst here
          simpa [Cluster.setConsumer] using converging.offset q
        · simpa [Cluster.setConsumer, here] using converging.offset q
      · have other : q ≠ p := by
          rintro rfl
          rw [consumes] at quiet
          cases quiet
        simpa [Cluster.setConsumer, other] using converging.idle q quiet

/-- Every request was taken by its datalet and every consumer has applied the log. -/
def Cluster.Settled (cfgs : Nat → Config) (members : List Nat) (cluster : Cluster mapEngine) :
    Prop :=
  ∀ p ∈ members,
    (∀ ptr ∈ List.range (cluster.proxies p).next,
      ((cluster.proxies p).links ptr).nwFunc ≠ .request →
        ((cluster.proxies p).links ptr).error = false ∧ (cluster.proxies p).pending ptr = []) ∧
    ((cfgs p).consumes = true → cluster.unread p = [])

instance (cfgs : Nat → Config) (members : List Nat) (cluster : Cluster mapEngine) :
    Decidable (cluster.Settled cfgs members) :=
  inferInstanceAs (Decidable (∀ p ∈ members,
    (∀ ptr ∈ List.range (cluster.proxies p).next,
      ((cluster.proxies p).links ptr).nwFunc ≠ .request →
        ((cluster.proxies p).links ptr).error = false ∧ (cluster.proxies p).pending ptr = []) ∧
    ((cfgs p).consumes = true → cluster.unread p = [])))

/-- In a settled shard a datalet holds what the log says. -/
theorem Converging.store_eq {addr : AddrType}
    (converging : Converging cfgs members cluster sessions)
    (settled : cluster.Settled cfgs members) (fed : Fed cfgs members addr) (key : Key) :
    (cluster.datalets addr).state key =
      History.replay Buffer.write? cluster.services.kafka key := by
  refine converging.agreeing.store_eq fed ?_ ?_ key
  · rintro (⟨p, ptr⟩ | p) _ broken
    · obtain ⟨member, small, isDatalet, error⟩ := broken
      have healthy := ((settled p member).1 ptr (List.mem_range.mpr small) isDatalet).1
      rw [error] at healthy
      cases healthy
    · exact broken
  · rintro (⟨p, ptr⟩ | p) place
    · by_cases member : p ∈ members
      · simp only [Cluster.flow, member, if_true, Proxy.unserved]
        split
        · rfl
        next isDatalet =>
          by_cases small : ptr < (cluster.proxies p).next
          · exact ((settled p member).1 ptr (List.mem_range.mpr small) isDatalet).2
          · exact (converging.sane.sane p).pending_beyond (Nat.not_lt.mp small)
      · simp [Cluster.flow, member]
    · by_cases started : p ∈ members ∧ (cfgs p).consumes = true
      · exact (settled p started.1).2 started.2
      · simp [Cluster.flow, started] at place

/-- Whenever a shard is settled, its datalets hold the same. -/
def Convergence (cfgs : Nat → Config) (members : List Nat) (cluster : Cluster mapEngine) : Prop :=
  cluster.Settled cfgs members → ∀ p ∈ members, ∀ q ∈ members, ∀ here there,
    (cfgs p).datalet = some here → (cfgs q).datalet = some there →
      (cluster.datalets here).state = (cluster.datalets there).state

/-- **Datalets converge** to the log, as long as writes are sent to proxies that log them
and different writes of one key are not on their way to a datalet at the same time. -/
theorem eventual_convergence (deployed : Deployed cfgs members)
    (run : Transition.Runs (Cluster.step cfgs)
      (fun cluster action => action.actor ∈ members ∧ action.Coordinated cfgs members cluster)
      (Cluster.init mapEngine) cluster) : Convergence cfgs members cluster := by
  have whole := run.invariant (fun cluster => ∃ sessions, Converging cfgs members cluster sessions)
    ?_ ⟨_, .init cfgs members⟩
  · obtain ⟨sessions, converging⟩ := whole
    intro settled p member q other here there isHere isThere
    funext key
    rw [converging.store_eq settled ⟨p, member, isHere⟩,
      converging.store_eq settled ⟨q, other, isThere⟩]
  · rintro cluster action after ⟨sessions, converging⟩ ⟨member, coordinated⟩ moved
    by_cases isProxy : ∃ p event, action = .proxy p event
    · obtain ⟨p, event, rfl⟩ := isProxy
      exact converging.step_proxy deployed member coordinated moved
    · exact ⟨sessions, converging.step_consumer member
        (fun p event same => isProxy ⟨p, event, same⟩) moved⟩

end Runs

/-- A master proxy and a slave proxy. -/
def Config.sampleMaster : Nat → Config
  | 0 => ⟨.ms, .eventual, .rl, 1, .samplePair⟩
  | _ => ⟨.slave, .eventual, .rl, 1, ⟨[⟨[1], .slave⟩], by decide⟩⟩

/-- Two peers. -/
def Config.samplePeers : Nat → Config
  | 0 => ⟨.aa, .eventual, .rl, 1, ⟨[⟨[0], .master⟩], by decide⟩⟩
  | _ => ⟨.aa, .eventual, .rl, 1, ⟨[⟨[1], .master⟩], by decide⟩⟩

theorem Config.sampleMaster_deployed : Deployed Config.sampleMaster [0, 1] :=
  .masterSlave 0 (by decide) (by decide) rfl (by decide)

theorem Config.samplePeers_deployed : Deployed Config.samplePeers [0, 1] :=
  .activeActive (by decide) (by decide)

/-- A consumer applies one message of the log. -/
def sampleConsume (p : Nat) : List Action :=
  [.consume p, .consumerOut p, .consumerServe p, .consumerIn p]

/-- A request goes to the datalet behind a link and is answered. -/
def sampleAnswer (p : Nat) (link client : LinkPtr) : List Action :=
  [.proxy p (.writable link true), .proxy p (.serve link), .proxy p (.response link),
    .proxy p (.writable client true)]

/-- Two writes of one key, the second one received after the first one was served. -/
theorem eventual_convergence_sample : ∃ cluster : Cluster mapEngine,
    cluster.services.kafka.map Buffer.write? = [some ([7], [1]), some ([7], [2])] ∧
      cluster.Settled Config.sampleMaster [0, 1] ∧
      (cluster.datalets [0]).state = (cluster.datalets [1]).state := by
  obtain ⟨cluster, run, post⟩ := Transition.Runs.exists_of_exec
    (Cluster.step Config.sampleMaster)
    (fun cluster action => action.actor ∈ [0, 1] ∧
      action.Coordinated Config.sampleMaster [0, 1] cluster) (Cluster.init mapEngine)
    ([.proxy 0 (.accept fun _ => ⟨false, false⟩), .proxy 0 (.accept fun _ => ⟨false, false⟩),
        .proxy 0 (.request 0 (some [.set [7] [1]]) fun _ => id)] ++ sampleAnswer 0 2 0 ++
      [.proxy 0 (.request 3 (some [.set [7] [2]]) fun _ => id)] ++ sampleAnswer 0 5 3 ++
      sampleConsume 1 ++ sampleConsume 1)
    (fun cluster =>
      cluster.services.kafka.map Buffer.write? = [some ([7], [1]), some ([7], [2])] ∧
      cluster.Settled Config.sampleMaster [0, 1]) (by decide)
  simp only [decide_eq_true_eq] at post
  exact ⟨cluster, post.1, post.2, eventual_convergence Config.sampleMaster_deployed run post.2
    0 (by decide) 1 (by decide) [0] [1] rfl rfl⟩

/-- Two concurrent writes of one key leave the datalets different.  With a master the
datalet takes them in another order than the log; among peers every datalet takes its own
client's write after the whole log. -/
theorem concurrent_writes_diverge :
    (Deployed Config.sampleMaster [0, 1] ∧ ∃ cluster : Cluster mapEngine,
      Transition.Runs (Cluster.step Config.sampleMaster)
        (fun _ action => action.actor ∈ [0, 1]) (Cluster.init mapEngine) cluster ∧
      ((cluster.proxies 0).delivered 0).length = 1 ∧
      ((cluster.proxies 0).delivered 3).length = 1 ∧
      (cluster.datalets [0]).state [7] = some [1] ∧
      (cluster.datalets [1]).state [7] = some [2] ∧
      ¬Convergence Config.sampleMaster [0, 1] cluster) ∧
    (Deployed Config.samplePeers [0, 1] ∧ ∃ cluster : Cluster mapEngine,
      Transition.Runs (Cluster.step Config.samplePeers)
        (fun _ action => action.actor ∈ [0, 1]) (Cluster.init mapEngine) cluster ∧
      ((cluster.proxies 0).delivered 0).length = 1 ∧
      ((cluster.proxies 1).delivered 0).length = 1 ∧
      (cluster.datalets [0]).state [7] = some [1] ∧
      (cluster.datalets [1]).state [7] = some [2] ∧
      ¬Convergence Config.samplePeers [0, 1] cluster) := by
  constructor
  · refine ⟨Config.sampleMaster_deployed, ?_⟩
    obtain ⟨cluster, run, post⟩ := Transition.Runs.exists_of_exec
      (Cluster.step Config.sampleMaster) (fun _ action => action.actor ∈ [0, 1])
      (Cluster.init mapEngine)
      ([.proxy 0 (.accept fun _ => ⟨false, false⟩), .proxy 0 (.accept fun _ => ⟨false, false⟩),
          .proxy 0 (.request 0 (some [.set [7] [1]]) fun _ => id),
          .proxy 0 (.request 3 (some [.set [7] [2]]) fun _ => id)] ++
        sampleAnswer 0 5 3 ++ sampleAnswer 0 2 0 ++ sampleConsume 1 ++ sampleConsume 1)
      (fun cluster => ((cluster.proxies 0).delivered 0).length = 1 ∧
        ((cluster.proxies 0).delivered 3).length = 1 ∧
        (cluster.datalets [0]).state [7] = some [1] ∧
        (cluster.datalets [1]).state [7] = some [2] ∧
        cluster.Settled Config.sampleMaster [0, 1]) (by decide)
    simp only [decide_eq_true_eq] at post
    obtain ⟨first, second, master, slave, settled⟩ := post
    refine ⟨cluster, run, first, second, master, slave, fun converged => ?_⟩
    have same := congrFun (converged settled 0 (by decide) 1 (by decide) [0] [1] rfl rfl) [7]
    rw [master, slave] at same
    exact absurd same (by decide)
  · refine ⟨Config.samplePeers_deployed, ?_⟩
    obtain ⟨cluster, run, post⟩ := Transition.Runs.exists_of_exec
      (Cluster.step Config.samplePeers) (fun _ action => action.actor ∈ [0, 1])
      (Cluster.init mapEngine)
      ([.proxy 0 (.accept fun _ => ⟨false, false⟩), .proxy 1 (.accept fun _ => ⟨false, false⟩),
          .proxy 0 (.request 0 (some [.set [7] [1]]) fun _ => id),
          .proxy 1 (.request 0 (some [.set [7] [2]]) fun _ => id)] ++
        sampleConsume 0 ++ sampleConsume 0 ++ sampleConsume 1 ++ sampleConsume 1 ++
        sampleAnswer 0 1 0 ++ sampleAnswer 1 1 0)
      (fun cluster => ((cluster.proxies 0).delivered 0).length = 1 ∧
        ((cluster.proxies 1).delivered 0).length = 1 ∧
        (cluster.datalets [0]).state [7] = some [1] ∧
        (cluster.datalets [1]).state [7] = some [2] ∧
        cluster.Settled Config.samplePeers [0, 1]) (by decide)
    simp only [decide_eq_true_eq] at post
    obtain ⟨first, second, own, other, settled⟩ := post
    refine ⟨cluster, run, first, second, own, other, fun converged => ?_⟩
    have same := congrFun (converged settled 0 (by decide) 1 (by decide) [0] [1] rfl rfl) [7]
    rw [own, other] at same
    exact absurd same (by decide)

end BespoKV
