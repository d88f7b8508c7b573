import BespoKV.Eventual.Convergence
import BespoKV.Kafka.Production
import BespoKV.Proxy.Histories
import BespoKV.Single.Linearizable

/-!
# What slaves show

The clients of a slave proxy read from its datalet while the proxy's consumer applies the log to
it.  Whatever the other proxies do, and whichever links fail, a read shows the contents after a
first part of the log, never a mixture; later reads show the same part or a longer one.
-/

namespace BespoKV

/-- The buffer is a `get` request. -/
def Buffer.IsGet (buffer : Buffer) : Prop :=
  ∃ frame, buffer.frame? = some frame ∧ frame.cmd = .get

theorem Buffer.IsGet.silent {buffer : Buffer} (isGet : buffer.IsGet) (key : Key) (value : Value) :
    buffer.write? ≠ some (key, value) := by
  obtain ⟨frame, framed, get⟩ := isGet
  simp [Buffer.write?, framed, get]

/-! ## Requests on their way to one datalet -/

/-- Only reads are on their way to a datalet. -/
def Proxy.ReadsFrom (proxy : Proxy) (addr : AddrType) : Prop :=
  ∀ ptr, (proxy.links ptr).nwFunc ≠ .request → (proxy.links ptr).peer = some addr →
    ∀ req ∈ proxy.pending ptr, req.IsGet

/-- A client whose requests go to a datalet sends it `get` requests only. -/
def Event.ReadsFrom (cfg : Config) (addr : AddrType) (event : Event) : Prop :=
  (cfg.serverAddrs cfg.dumbMap.rows).getLast? = some addr →
    event.Sends fun _ frames => ∀ frame ∈ frames, frame.cmd = .get

instance (cfg : Config) (addr : AddrType) : DecidablePred (Event.ReadsFrom cfg addr) :=
  fun event => inferInstanceAs (Decidable (_ → event.Sends _))

section Steps

variable {engine : Engine} {cfg : Config} {state after : State engine}
variable {sessions : List Session} {link ptr : LinkPtr}

/-- A write puts no request on its way. -/
theorem State.pending_wrote_subset {written : Bool} {proxy : Proxy}
    (wrote : State.Wrote state.proxy link written proxy)
    (isDatalet : (state.proxy.links ptr).nwFunc ≠ .request) :
    proxy.pending ptr ⊆ state.proxy.pending ptr := by
  have subset : proxy.traffic.pending ptr ⊆ state.proxy.traffic.pending ptr := by
    cases wrote with
    | idle nothing moved => rw [moved.traffic]; exact List.Subset.refl _
    | delivered isClient queued complete moved =>
        have different : ptr ≠ link := fun same => isDatalet (same ▸ isClient)
        rw [moved.traffic]
        simp [Traffic.pending, different]
    | sent func queued moved =>
        rw [moved.traffic, Traffic.pending_transmit _ _ queued]
        exact List.Subset.refl _
    | failed queued incomplete lost =>
        rw [lost.traffic]
        by_cases here : ptr = link
        · subst here
          have rest : ((state.proxy.links ptr).imsgQ.tail) ⊆ (state.proxy.links ptr).imsgQ :=
            (List.tail_sublist _).subset
          intro req
          simpa [Traffic.pending, Proxy.traffic] using Or.imp_right (@rest req)
        · simp [Traffic.pending, here]
  exact subset

/-- Steps that open no links and put no request on its way. -/
theorem Proxy.ReadsFrom.of_shape {before later : Proxy} {addr : AddrType}
    (reads : before.ReadsFrom addr) (shape : later.shape = before.shape)
    (pending : ∀ ptr, (before.links ptr).nwFunc ≠ .request →
      later.pending ptr ⊆ before.pending ptr) : later.ReadsFrom addr := by
  intro ptr isDatalet peer req waiting
  have info : (later.links ptr).toLinkInfo = (before.links ptr).toLinkInfo :=
    congrFun (congrArg Shape.info shape) ptr
  have isDatalet : (before.links ptr).nwFunc ≠ .request :=
    (congrArg LinkInfo.nwFunc info) ▸ isDatalet
  exact reads ptr isDatalet ((congrArg LinkInfo.peer info).symm.trans peer) req
    (pending ptr isDatalet waiting)

theorem Proxy.ReadsFrom.step {addr : AddrType} (eventual : cfg.IsEventual)
    (sane : Sane cfg state sessions) (reads : state.proxy.ReadsFrom addr) {event : Event}
    (sends : event.ReadsFrom cfg addr) (moved : state.step cfg event = .ok after) :
    after.proxy.ReadsFrom addr := by
  cases event with
  | accept uninit =>
      obtain ⟨session, accepted, _, traffic, _⟩ := sane.accept moved
      intro ptr isDatalet peer req waiting
      rw [← Proxy.traffic_pending, traffic, Proxy.traffic_pending] at waiting
      by_cases small : ptr < state.proxy.next
      · rw [accepted.same ptr (.inl small)] at isDatalet peer
        exact reads ptr isDatalet peer req waiting
      · rw [sane.pending_beyond (Nat.not_lt.mp small)] at waiting
        cases waiting
  | request client msg freed =>
      cases msg with
      | none =>
          rcases State.recvRequest_none moved with rfl | rfl
          · exact reads
          · exact reads
      | some frames =>
          obtain ⟨session, member, rfl, _⟩ := sane.request_within moved
          have whole := sane.request_induction
            (P := fun now left => now.proxy.ReadsFrom addr ∧
              ((cfg.serverAddrs cfg.dumbMap.rows).getLast? = some addr →
                ∀ frame ∈ left, frame.cmd = .get))
            member ⟨reads, sends⟩ ?_ moved
          · obtain ⟨_, kept, _⟩ := whole
            exact kept
          · rintro ctx frame rest continues next saneCtx ⟨reads, left⟩ handled
            obtain ⟨server, req, isServer, enqueues⟩ :=
              Sane.enqueues eventual saneCtx member handled
            refine ⟨?_, ?_⟩
            · intro ptr isDatalet peer other waiting
              have info : (next.proxy.links ptr).toLinkInfo = (ctx.proxy.links ptr).toLinkInfo :=
                congrFun (congrArg Shape.info enqueues.shape) ptr
              have isDatalet : (ctx.proxy.links ptr).nwFunc ≠ .request :=
                (congrArg LinkInfo.nwFunc info) ▸ isDatalet
              have peer : (ctx.proxy.links ptr).peer = some addr :=
                (congrArg LinkInfo.peer info).symm.trans peer
              have waiting : other ∈ next.proxy.pending ptr := waiting
              rw [enqueues.pending ptr isDatalet, List.mem_append] at waiting
              rcases waiting with old | new
              · exact reads ptr isDatalet peer other old
              · split at new
                next here =>
                  subst here
                  obtain ⟨found, same, last⟩ := saneCtx.peer_server member isServer
                  obtain rfl : found = addr := Option.some.inj (same.symm.trans peer)
                  rw [List.mem_singleton.mp new]
                  exact ⟨frame, by simp [Buffer.frame?, enqueues.content],
                    left last frame List.mem_cons_self⟩
                · cases new
            · intro last later inside
              cases continues with
              | true => exact left last later (List.mem_cons_of_mem _ inside)
              | false => cases inside
  | response link =>
      intro ptr isDatalet peer req waiting
      obtain ⟨_, _, _, within⟩ := sane.response_within moved
      have func : (after.proxy.links ptr).nwFunc = (state.proxy.links ptr).nwFunc :=
        congrArg LinkInfo.nwFunc (within.info ptr)
      rw [func] at isDatalet
      rw [(sane.pending_response eventual.single.msStrongCr moved isDatalet).1] at waiting
      exact reads ptr isDatalet ((congrArg LinkInfo.peer (within.info ptr)).symm.trans peer)
        req waiting
  | writable link written =>
      obtain ⟨proxy, rfl, wrote⟩ := State.sendOn_cases moved
      refine reads.of_shape wrote.shape fun ptr isDatalet => ?_
      exact State.pending_wrote_subset wrote isDatalet
  | serve link =>
      obtain ⟨place, req, frame, handled⟩ := State.serveOn_cases moved
      refine reads.of_shape handled.moved.shape fun ptr _ => ?_
      by_cases here : ptr = link
      · subst here
        rw [handled.pending_self]
        exact List.subset_cons_self _ _
      · rw [handled.pending_other here]
        exact List.Subset.refl _

/-- The log only grows. -/
theorem Sane.kafka_grows (sane : Sane cfg state sessions) {event : Event}
    (moved : state.step cfg event = .ok after) :
    state.services.kafka <+: after.services.kafka := by
  by_cases read : ∃ client frames freed, event = .request client (some frames) freed
  · obtain ⟨client, frames, freed, rfl⟩ := read
    obtain ⟨produced, log, _⟩ := sane.produces_own moved
    exact ⟨produced, log.symm⟩
  · push Not at read
    rw [State.step_kafka read moved]

end Steps

/-! ## The datalet of a consumer -/

/-- The requests of a consumer in the history of a datalet. -/
def fedBy (p : Nat) (log : List Served) : List Buffer :=
  (log.filter fun entry => entry.conn = .consumer p).map Served.req

theorem fedBy_append (p : Nat) (first second : List Served) :
    fedBy p (first ++ second) = fedBy p first ++ fedBy p second := by
  simp [fedBy]

/-- A request is handled after the ones before it. -/
theorem Engine.Handles.split {engine : Engine} {start finish : engine.State} {entry : Served}
    {before later : List Served}
    (handles : engine.Handles start (before ++ entry :: later) finish) :
    ∃ middle frame, engine.Handles start before middle ∧ entry.req.frame? = some frame ∧
      entry.reply = (engine.serve middle frame).2 := by
  induction before generalizing start with
  | nil =>
      obtain ⟨frame, framed, answer, _⟩ := handles
      exact ⟨start, frame, rfl, framed, answer⟩
  | cons first before ih =>
      obtain ⟨frame, framed, answer, rest⟩ := handles
      obtain ⟨middle, last, rest, found⟩ := ih rest
      exact ⟨middle, last, ⟨frame, framed, answer, rest⟩, found⟩

/-- Requests handled one after the other leave a map that their writes leave. -/
theorem replay_of_handles {start finish : Key → Option Value} {log : List Served}
    (handles : mapEngine.Handles start log finish) :
    finish = (log.map Served.req).foldl (History.apply Buffer.write?) start := by
  induction log generalizing start with
  | nil => exact handles
  | cons entry log ih =>
      obtain ⟨frame, framed, _, rest⟩ := handles
      rw [ih rest, mapEngine_serve start framed]
      rfl

/-- A datalet that a consumer writes to and others only read from. -/
structure Datalet.WrittenBy (p : Nat) (datalet : Datalet mapEngine) : Prop where
  others : ∀ entry ∈ datalet.log, entry.conn ≠ .consumer p → entry.req.IsGet
  handles : mapEngine.Handles mapEngine.empty datalet.log datalet.state

namespace Datalet.WrittenBy

variable {p : Nat} {datalet : Datalet mapEngine} {conn : Conn} {req : Buffer} {frame : Frame}

theorem handle (written : datalet.WrittenBy p) (framed : req.frame? = some frame)
    (reads : conn ≠ .consumer p → req.IsGet) : (datalet.handle conn req frame).WrittenBy p where
  others := by
    intro entry logged other
    rcases List.mem_append.mp logged with old | new
    · exact written.others entry old other
    · obtain rfl := List.mem_singleton.mp new
      exact reads other
  handles := written.handles.append conn framed

/-- A read shows what the consumer has written so far. -/
theorem read (written : datalet.WrittenBy p) {before later : List Served} {entry : Served}
    (split : datalet.log = before ++ entry :: later) (other : entry.conn ≠ .consumer p) :
    ∃ frame, entry.req.frame? = some frame ∧ frame.cmd = .get ∧
      entry.reply = .ofLookup (History.replay Buffer.write? (fedBy p before) frame.key) := by
  have handles := written.handles
  rw [split] at handles
  obtain ⟨middle, frame, earlier, framed, answer⟩ := handles.split
  have isGet : frame.cmd = .get := by
    obtain ⟨found, same, get⟩ := written.others entry (by simp [split]) other
    rwa [Option.some.inj (framed.symm.trans same)]
  have silent : ∀ past ∈ before, decide (past.conn = .consumer p) = false →
      ∀ value, (Buffer.write? ∘ Served.req) past ≠ some (frame.key, value) := by
    intro past inside foreign value
    exact (written.others past (by simp [split, inside]) (by simpa using foreign)).silent _ value
  refine ⟨frame, framed, isGet, ?_⟩
  have held : middle frame.key = History.replay Buffer.write? (fedBy p before) frame.key := by
    rw [fedBy, History.replay_map, History.replay_filter silent, ← History.replay_map]
    exact congrFun (replay_of_handles earlier) frame.key
  rw [answer, ← held]
  simp only [mapEngine, isGet]

end Datalet.WrittenBy

/-- The consumer of a proxy applies the log to a datalet that clients only read from. -/
structure Following (cfgs : Nat → Config) (p : Nat) (addr : AddrType)
    (cluster : Cluster mapEngine) : Prop where
  sane : ∃ sessions, cluster.Sane cfgs sessions
  reads : ∀ q, (cluster.proxies q).ReadsFrom addr
  written : (cluster.datalets addr).WrittenBy p
  /-- the log is what the consumer has written and what it has still to write -/
  whole : fedBy p (cluster.datalets addr).log ++ cluster.unread p =
    cluster.services.kafka.map Cluster.message
  known : (cluster.consumers p).offset ≤ cluster.services.kafka.length
  /-- only consumers that were started have anything to do -/
  idle : ∀ q, (cfgs q).consumes = false →
    (cluster.consumers q).imsgQ = [] ∧ (cluster.consumers q).wire.req = []

/-- Clients only read from a datalet; they may write to others. -/
def Action.ReadsFrom (cfgs : Nat → Config) (addr : AddrType) : Action → Prop
  | .proxy q event => event.ReadsFrom (cfgs q) addr
  | _ => True

instance (cfgs : Nat → Config) (addr : AddrType) : DecidablePred (Action.ReadsFrom cfgs addr) :=
  fun action =>
    match action with
    | .proxy q event => inferInstanceAs (Decidable (event.ReadsFrom (cfgs q) addr))
    | .consume _ => isTrue trivial
    | .consumerOut _ => isTrue trivial
    | .consumerServe _ => isTrue trivial
    | .consumerIn _ => isTrue trivial

namespace Following

variable {cfgs : Nat → Config} {p : Nat} {addr : AddrType} {cluster after : Cluster mapEngine}

theorem init (cfgs : Nat → Config) (p : Nat) (addr : AddrType) :
    Following cfgs p addr (Cluster.init mapEngine) where
  sane := ⟨_, .init cfgs⟩
  reads _ ptr _ _ req waiting := by cases waiting
  written := ⟨fun entry logged => (by cases logged), rfl⟩
  whole := rfl
  known := Nat.le_refl _
  idle _ _ := ⟨rfl, rfl⟩

/-- An event of a proxy. -/
theorem step_proxy {q : Nat} {event : Event} (following : Following cfgs p addr cluster)
    (eventual : (cfgs q).IsEventual) (sends : event.ReadsFrom (cfgs q) addr)
    (moved : cluster.step cfgs (.proxy q event) = .ok after) : Following cfgs p addr after := by
  obtain ⟨state, stepped, rfl⟩ := Cluster.step_proxy moved
  obtain ⟨sessions, sane⟩ := following.sane
  obtain ⟨later, _, saneAfter⟩ := sane.step_proxy stepped
  obtain ⟨more, log⟩ := (sane.sane q).kafka_grows stepped
  change cluster.services.kafka ++ more = state.services.kafka at log
  have reads : state.proxy.ReadsFrom addr :=
    Proxy.ReadsFrom.step eventual (sane.sane q) (following.reads q) sends stepped
  -- what the datalet takes from a link is a read
  have served : (state.datalets addr).WrittenBy p ∧
      fedBy p (state.datalets addr).log = fedBy p (cluster.datalets addr).log := by
    rcases State.step_served stepped with same | ⟨link, place, req, frame, handled⟩
    · rw [same]
      exact ⟨following.written, rfl⟩
    · rw [handled.datalets]
      by_cases there : addr = place
      · subst there
        obtain ⟨session, member, inside⟩ := (sane.sane q).backend_of_handled handled
        have waiting : (cluster.proxies q).pending link = req :: state.proxy.pending link :=
          handled.pending_self
        have isGet : req.IsGet :=
          following.reads q link ((sane.sane q).backend_func member inside) handled.peer req
            (by simp [waiting])
        rw [Function.update_self]
        refine ⟨following.written.handle handled.framed fun _ => isGet, ?_⟩
        simp [Datalet.handle, fedBy, State.connOf]
        rfl
      · rw [Function.update_of_ne there]
        exact ⟨following.written, rfl⟩
  refine ⟨⟨_, saneAfter⟩, fun other => ?_, served.1, ?_, ?_, following.idle⟩
  · by_cases here : other = q
    · subst here
      simpa [Cluster.put] using reads
    · simpa [Cluster.put, here] using following.reads other
  · have unread : (cluster.put q state).unread p =
        cluster.unread p ++ more.map Cluster.message := by
      simp only [Cluster.unread, Cluster.put, ← log,
        List.drop_append_of_le_length following.known, List.map_append, List.append_assoc]
    rw [unread, ← List.append_assoc]
    change fedBy p (state.datalets addr).log ++ _ ++ _ = state.services.kafka.map _
    rw [served.2, following.whole, ← log, List.map_append]
  · change _ ≤ state.services.kafka.length
    rw [← log, List.length_append]
    exact following.known.trans (Nat.le_add_right _ _)

/-- An action of a consumer. -/
theorem step_consumer {action : Action} (following : Following cfgs p addr cluster)
    (place : (cfgs p).consumerAddr = some addr)
    (alone : (cfgs action.actor).consumes = true →
      (cfgs action.actor).consumerAddr = some addr → action.actor = p)
    (notProxy : ∀ q event, action ≠ .proxy q event)
    (moved : cluster.step cfgs action = .ok after) : Following cfgs p addr after := by
  obtain ⟨sessions, sane⟩ := following.sane
  have consumed : cluster.Consumed after :=
    (Cluster.step_cases moved).resolve_left fun ⟨q, event, same⟩ => notProxy q event same
  have saneAfter := sane.consumed consumed
  have reads : ∀ q, (after.proxies q).ReadsFrom addr := by
    rw [consumed.proxies]
    exact following.reads
  have stepped := consumer_cases notProxy moved
  revert alone stepped
  generalize action.actor = q
  intro alone stepped
  cases stepped with
  | moves consumer unread offset idle =>
      refine ⟨⟨_, saneAfter⟩, reads, following.written, ?_, ?_, fun other quiet => ?_⟩
      · by_cases here : p = q
        · subst here
          rw [unread]
          exact following.whole
        · have same : (cluster.setConsumer q consumer).unread p = cluster.unread p := by
            simp [Cluster.unread, Cluster.setConsumer, here]
          rw [same]
          exact following.whole
      · by_cases here : p = q
        · subst here
          rw [max_eq_right following.known] at offset
          simpa [Cluster.setConsumer] using offset
        · simpa [Cluster.setConsumer, here] using following.known
      · by_cases here : other = q
        · subst here
          obtain ⟨queue, wire⟩ := following.idle other quiet
          simpa [Cluster.setConsumer] using idle quiet queue wire
        · simpa [Cluster.setConsumer, here] using following.idle other quiet
  | @serves there req frame rest rsp isThere waiting framed =>
      have consumes : (cfgs q).consumes = true := by
        by_contra quiet
        rw [(following.idle q (by simpa using quiet)).2] at waiting
        cases waiting
      have idle : ∀ other, (cfgs other).consumes = false → other ≠ q := by
        rintro other quiet rfl
        rw [consumes] at quiet
        cases quiet
      by_cases here : p = q
      · subst here
        obtain rfl : addr = there := Option.some.inj (place.symm.trans isThere)
        refine ⟨⟨_, saneAfter⟩, reads, ?_, ?_, ?_, fun other quiet => ?_⟩
        · simp only [Function.update_self]
          exact following.written.handle framed fun other => absurd rfl other
        · have whole := following.whole
          simp only [Cluster.unread, waiting, List.cons_append] at whole
          simpa [Cluster.unread, Cluster.setConsumer, Datalet.handle, fedBy_append, fedBy]
            using whole
        · simpa [Cluster.setConsumer] using following.known
        · simpa [Cluster.setConsumer, idle other quiet] using following.idle other quiet
      · -- the other consumers write to their own datalets
        have elsewhere : addr ≠ there := by
          rintro rfl
          exact here (alone consumes isThere).symm
        refine ⟨⟨_, saneAfter⟩, reads, ?_, ?_, ?_, fun other quiet => ?_⟩
        · simpa [Cluster.setConsumer, elsewhere] using following.written
        · simpa [Cluster.unread, Cluster.setConsumer, elsewhere, here] using following.whole
        · simpa [Cluster.setConsumer, here] using following.known
        · simpa [Cluster.setConsumer, idle other quiet] using following.idle other quiet

/-- What the consumer had written at some point, and what it leaves. -/
theorem replay_fed (following : Following cfgs p addr cluster) {before later : List Served}
    (split : (cluster.datalets addr).log = before ++ later) :
    History.replay Buffer.write? (fedBy p before) =
      History.replay Buffer.write? (cluster.services.kafka.take (fedBy p before).length) := by
  have fed : fedBy p before =
      (cluster.services.kafka.take (fedBy p before).length).map Cluster.message := by
    have whole := following.whole
    rw [split, fedBy_append, List.append_assoc] at whole
    rw [List.map_take, ← whole, List.take_left]
  exact (congrArg (History.replay Buffer.write?) fed).trans (History.replay_map _ _)

end Following

/-- A datalet shows first parts of the log. -/
structure PrefixReads (cluster : Cluster mapEngine) (p : Nat) (addr : AddrType) : Prop where
  /-- the consumer writes a first part of the log, in its order -/
  writes : fedBy p (cluster.datalets addr).log <+:
    cluster.services.kafka.map Cluster.message
  /-- any other request is a read, and shows what the part written before it holds -/
  answers : ∀ before entry later, (cluster.datalets addr).log = before ++ entry :: later →
    entry.conn ≠ .consumer p → ∃ frame, entry.req.frame? = some frame ∧ frame.cmd = .get ∧
      entry.reply = .ofLookup (History.replay Buffer.write?
        (cluster.services.kafka.take (fedBy p before).length) frame.key)

/-- **Slaves show first parts of the log**, whatever clients of other datalets write and however
links fail. -/
theorem slaves_read_prefixes {cfgs : Nat → Config} {members : List Nat} {p : Nat}
    {addr : AddrType} {cluster : Cluster mapEngine}
    (eventual : ∀ q ∈ members, (cfgs q).IsEventual)
    (place : (cfgs p).consumerAddr = some addr)
    (alone : ∀ q ∈ members, (cfgs q).consumes = true → (cfgs q).consumerAddr = some addr → q = p)
    (run : Transition.Runs (Cluster.step cfgs)
      (fun _ action => action.actor ∈ members ∧ action.ReadsFrom cfgs addr)
      (Cluster.init mapEngine) cluster) : PrefixReads cluster p addr := by
  have whole := run.invariant (Following cfgs p addr) ?_ (.init cfgs p addr)
  · constructor
    · exact ⟨_, whole.whole⟩
    · intro before entry later split other
      obtain ⟨frame, framed, isGet, answer⟩ := whole.written.read split other
      exact ⟨frame, framed, isGet, by rw [answer, whole.replay_fed split]⟩
  · rintro cluster action after following ⟨member, sends⟩ moved
    by_cases isProxy : ∃ q event, action = .proxy q event
    · obtain ⟨q, event, rfl⟩ := isProxy
      exact following.step_proxy (eventual q member) sends moved
    · exact following.step_consumer place (alone _ member)
        (fun q event same => isProxy ⟨q, event, same⟩) moved

/-- A client of the master writes twice; the slave's client reads after the first write has been
applied. -/
theorem slaves_read_prefixes_sample : ∃ cluster : Cluster mapEngine,
    cluster.services.kafka.map Buffer.write? = [some ([7], [1]), some ([7], [2])] ∧
      (cluster.datalets [1]).log.map Served.reply =
        [⟨0, none⟩, .ofLookup (some [1]), ⟨0, none⟩] ∧
      PrefixReads cluster 1 [1] := by
  obtain ⟨cluster, run, post⟩ := Transition.Runs.exists_of_exec
    (Cluster.step Config.sampleMaster)
    (fun _ action => action.actor ∈ [0, 1] ∧ action.ReadsFrom Config.sampleMaster [1])
    (Cluster.init mapEngine)
    ([.proxy 0 (.accept fun _ => ⟨false, false⟩), .proxy 1 (.accept fun _ => ⟨false, false⟩),
        .proxy 0 (.request 0 (some [.set [7] [1], .set [7] [2]]) fun _ => id)] ++
      sampleConsume 1 ++
      [.proxy 1 (.request 0 (some [.get [7]]) fun _ => id)] ++ sampleAnswer 1 1 0 ++
      sampleConsume 1)
    (fun cluster =>
      cluster.services.kafka.map Buffer.write? = [some ([7], [1]), some ([7], [2])] ∧
      (cluster.datalets [1]).log.map Served.reply =
        [⟨0, none⟩, .ofLookup (some [1]), ⟨0, none⟩]) (by decide)
  simp only [decide_eq_true_eq] at post
  exact ⟨cluster, post.1, post.2, slaves_read_prefixes
    (fun _ member => Config.sampleMaster_deployed.eventual member) rfl (by decide) run⟩

end BespoKV
