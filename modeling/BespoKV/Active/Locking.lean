import BespoKV.Proxy.Cluster

/-!
# Locks in active-active strong mode

Every request asks the lock server for its key.  A write is forwarded when it gets the
lock; a read is forwarded in any case.  The answer of the datalet deletes the lock of the
key that the link remembers, whoever acquired it.  Locks are exclusive as long as reads
arrive for free keys only and requests outstanding on one link are for one key.
-/

namespace BespoKV

/-- Active-active strong consistency with the lock server. -/
structure Config.IsActive (cfg : Config) : Prop where
  topology : cfg.topology = .aa
  model : cfg.consistencyModel = .strong
  technique : cfg.consistencyTechnique = .rl

namespace Config.IsActive

variable {cfg : Config} (active : cfg.IsActive)
include active

theorem aaStrong : cfg.aaStrong = true := by
  simp [Config.aaStrong, active.topology, active.model]

theorem msStrong : cfg.msStrong = false := by
  simp [Config.msStrong, active.topology]

theorem msStrongCr : cfg.msStrongCr = false := by
  simp [Config.msStrongCr, active.msStrong]

theorem indexesSlaves : Proxy.indexesSlaves cfg = true := by
  simp [Proxy.indexesSlaves, active.aaStrong]

theorem fansOutAfter (proxy : Proxy) (out : LinkPtr) :
    Ctx.fansOutAfter cfg proxy out = false := by
  simp [Ctx.fansOutAfter, active.topology]

end Config.IsActive

/-! ## The lock of one request -/

/-- What a request does to the services: it asks for the lock of the text its key is read as
and, if the flag says so, goes to the datalets. -/
inductive Services.Asks (before : Services) (req : ReqId) (isSet fwd : Bool) (text key : Key)
    (after : Services) : Bool → Prop where
  | granted (free : before.redis text = none)
      (redis : after.redis = Function.update before.redis text (some req))
      (trace : after.trace =
        before.trace ++ [.lock req isSet text true] ++ [.forward req key]) :
      Asks before req isSet fwd text key after true
  | refused (taken : before.redis text ≠ none) (waits : isSet = true ∨ fwd = true)
      (redis : after.redis = before.redis)
      (trace : after.trace = before.trace ++ [.lock req isSet text false]) :
      Asks before req isSet fwd text key after false
  /-- a read that does not look at the outcome -/
  | overlooked (taken : before.redis text ≠ none) (isRead : isSet = false ∧ fwd = false)
      (redis : after.redis = before.redis)
      (trace : after.trace =
        before.trace ++ [.lock req isSet text false] ++ [.forward req key]) :
      Asks before req isSet fwd text key after true

theorem Services.lock_free {services : Services} {key : Key}
    (free : services.redis key = none) (req : ReqId) (isSet : Bool) :
    services.lock req isSet key =
      (true, { services with
        redis := Function.update services.redis key (some req)
        trace := services.trace ++ [.lock req isSet key true] }) := by
  simp [Services.lock, free]

theorem Services.lock_taken {services : Services} {key : Key}
    (taken : services.redis key ≠ none) (req : ReqId) (isSet : Bool) :
    services.lock req isSet key =
      (false, { services with trace := services.trace ++ [.lock req isSet key false] }) := by
  have isSome : (services.redis key).isNone = false :=
    Bool.eq_false_iff.mpr fun free => taken (Option.isNone_iff_eq_none.mp free)
  simp [Services.lock, isSome]

theorem Ctx.forward_services {cfg : Config} {ctx : Ctx} {out : LinkPtr} {req : Buffer}
    {tag : ReqId} (tagged : req.tag = some tag) (key : Key) :
    (ctx.forward cfg out req key).services =
      { ctx.services with trace := ctx.services.trace ++ [.forward tag key] } := by
  simp only [Ctx.forward, tagged]

theorem Ctx.segment_tag {ctx : Ctx} {mapped : Proxy} {server out : LinkPtr}
    (steers : ctx.proxy.Steers server out mapped) (conn : LinkPtr) (frame : Frame) :
    (Ctx.segment mapped conn out frame).tag =
      some ⟨ctx.proxy.pid, conn, (ctx.proxy.received conn).length⟩ := by
  have pid : mapped.pid = ctx.proxy.pid := congrArg Shape.pid steers.shape
  have received : mapped.received = ctx.proxy.received :=
    congrArg Traffic.received steers.traffic
  simp [Ctx.segment, pid, received]

/-- One iteration of the loop of `req_recv` asks for one lock. -/
theorem Ctx.reqSegment_asks {cfg : Config} (active : cfg.IsActive) {ctx after : Ctx}
    {conn server : LinkPtr} {frame : Frame} {rest : List Frame} {freed : Nat → Key → Key}
    {continues : Bool} (assigned : (ctx.proxy.links conn).dataletConn = some server)
    (handled : ctx.reqSegment cfg conn frame rest freed = .ok (continues, after)) :
    ctx.services.Asks ⟨ctx.proxy.pid, conn, (ctx.proxy.received conn).length⟩
      (frame.cmd = .set) (ctx.proxy.links server).fwdToReplicas
      (ctx.keyText conn frame freed) frame.key after.services continues := by
  obtain ⟨mapped, out, locked, routed, acquired, rfl⟩ := reqSegment_cases handled
  obtain ⟨mapping, isMapping, route, steers⟩ := Proxy.getMappedServerConn_cases routed
  rw [assigned] at isMapping
  cases isMapping
  have tag := segment_tag steers conn frame
  generalize ctx.keyText conn frame freed = text at route ⊢
  generalize segment mapped conn out frame = req at acquired tag ⊢
  -- the log does not concern the locks
  generalize produced : (if produces cfg mapped out then ctx.services.produce req
    else ctx.services) = services at acquired
  have redis : services.redis = ctx.services.redis := by rw [← produced]; split <;> rfl
  have trace : services.trace = ctx.services.trace := by rw [← produced]; split <;> rfl
  cases route with
  | locked _ keyed fwdFlag =>
      have isKey : ∀ {key : Key}, (mapped.links server).key = some key → key = text := by
        intro key held
        exact Option.some.inj (held.symm.trans keyed)
      cases acquired with
      | write _ _ held tagged fwd granted =>
          rw [tag] at tagged
          cases tagged
          cases isKey held
          have free : services.redis text = none := by
            by_contra taken
            simp [Services.lock_taken taken] at granted
          simp only [if_true, forward_services tag, Services.lock_free free]
          exact .granted (redis ▸ free) (by rw [redis]) (by rw [trace])
      | refused _ _ held tagged fwd granted =>
          rw [tag] at tagged
          cases tagged
          cases isKey held
          have taken : services.redis text ≠ none := by
            intro free
            simp [Services.lock_free free] at granted
          simp only [Bool.false_eq_true, if_false, Services.lock_taken taken]
          exact .refused (redis ▸ taken) (Bool.or_eq_true_iff.mp (fwdFlag.symm.trans fwd)) redis
            (by rw [trace])
      | read _ _ held tagged fwd =>
          rw [tag] at tagged
          cases tagged
          cases isKey held
          have isRead : decide (frame.cmd = .set) = false ∧
              (ctx.proxy.links server).fwdToReplicas = false :=
            Bool.or_eq_false_iff.mp (fwdFlag.symm.trans fwd)
          simp only [if_true, forward_services tag]
          by_cases free : services.redis text = none
          · simp only [Services.lock_free free]
            exact .granted (redis ▸ free) (by rw [redis]) (by rw [trace])
          · simp only [Services.lock_taken free]
            exact .overlooked (redis ▸ free) isRead redis (by rw [trace])
      | free unlocked => exact absurd ⟨active.aaStrong, active.technique⟩ unlocked
  | write passive | tailRead passive | read passive =>
      rw [active.aaStrong] at passive
      cases passive

/-! ## The invariant of one client -/

/-- Requests that went to a datalet link and have not been answered. -/
def Proxy.outstanding (proxy : Proxy) (ptr : LinkPtr) : List Buffer :=
  (proxy.links ptr).omsgQ ++ (proxy.links ptr).imsgQ

variable {engine : Engine}

/-- At most one request of a client is outstanding; it holds the lock of its key, and the
link remembers this key. -/
inductive Guarded (state : State engine) (client server : LinkPtr) : Prop where
  | idle (none : state.proxy.outstanding server = [])
  | busy {req : Buffer} {frame : Frame} {seq : Nat}
      (one : state.proxy.outstanding server = [req]) (framed : req.frame? = some frame)
      (tagged : req.tag = some ⟨state.proxy.pid, client, seq⟩)
      (live : (state.proxy.links server).key = some frame.key)
      (locked : state.services.redis frame.key = some ⟨state.proxy.pid, client, seq⟩)

/-- Locks stay exclusive, and only locks of one client may be released. -/
structure LocksWithin (client : LinkPtr) (state after : State engine) : Prop where
  sound : Locks.Sound state.services.redis state.services.trace →
    Locks.Sound after.services.redis after.services.trace
  kept : ∀ key req, state.services.redis key = some req →
    ¬(req.proxy = state.proxy.pid ∧ req.client = client) →
      after.services.redis key = some req

namespace LocksWithin

variable {client : LinkPtr} {state middle after : State engine}

theorem of_services (services : after.services = state.services) :
    LocksWithin client state after :=
  ⟨fun sound => services ▸ sound, fun _ _ held _ => services ▸ held⟩

theorem trans (first : LocksWithin client state middle)
    (second : LocksWithin client middle after) (pid : middle.proxy.pid = state.proxy.pid) :
    LocksWithin client state after :=
  ⟨fun sound => second.sound (first.sound sound), fun key req held foreign =>
    second.kept key req (first.kept key req held foreign) (pid ▸ foreign)⟩

end LocksWithin

/-- Nothing that concerns the lock of a client has changed. -/
theorem Guarded.congr {state after : State engine} {client server : LinkPtr}
    (guarded : Guarded state client server)
    (pid : after.proxy.pid = state.proxy.pid)
    (outstanding : after.proxy.outstanding server = state.proxy.outstanding server)
    (key : (after.proxy.links server).key = (state.proxy.links server).key)
    (redis : ∀ key seq, state.services.redis key = some ⟨state.proxy.pid, client, seq⟩ →
      after.services.redis key = some ⟨state.proxy.pid, client, seq⟩) :
    Guarded after client server := by
  cases guarded with
  | idle none => exact .idle (outstanding.trans none)
  | busy one framed tagged live locked =>
      refine .busy (outstanding.trans one) framed (pid ▸ tagged) (key.trans live) ?_
      rw [pid]
      exact redis _ _ locked

/-- Messages moved, but not those outstanding on the master link. -/
theorem Guarded.of_becomes {state after : State engine} {client server : LinkPtr}
    {traffic : Traffic} (guarded : Guarded state client server)
    (moved : state.proxy.Becomes traffic after.proxy)
    (outstanding : traffic.omsgQ server ++ traffic.imsgQ server =
      state.proxy.outstanding server)
    (services : after.services = state.services) : Guarded after client server := by
  refine guarded.congr (congrArg Shape.pid moved.shape) ?_
    (congrArg Flags.key (congrFun moved.flags server)) fun _ _ held => services ▸ held
  rw [← outstanding, ← moved.traffic]
  rfl

/-- The frame's key is read as it is.  It is the key of all requests outstanding on the client's
link and, if the frame is handled as a read, it is not locked. -/
def Ctx.Uncontended (ctx : Ctx) (conn : LinkPtr) (frame : Frame) (text : Key) : Prop :=
  text = frame.key ∧ ∀ server ∈ (ctx.proxy.links conn).dataletConn,
    (∀ req ∈ ctx.proxy.outstanding server, req.frame?.map Frame.key = some frame.key) ∧
      (frame.cmd ≠ .set → (ctx.proxy.links server).fwdToReplicas = false →
        ctx.services.redis frame.key = none)

instance (ctx : Ctx) (conn : LinkPtr) (frame : Frame) (text : Key) :
    Decidable (ctx.Uncontended conn frame text) :=
  inferInstanceAs (Decidable (_ ∧ ∀ server ∈ (ctx.proxy.links conn).dataletConn, _))

/-! ## Steps on the client's own links -/

section Steps

variable {cfg : Config} {state after : State engine} {session : Session}
variable {sessions : List Session} {server link : LinkPtr}
variable (active : cfg.IsActive) (isServer : session.server = some server)

include isServer in
/-- The master link is not one of the slave links. -/
theorem Sane.server_notSlave (sane : Sane cfg state sessions) (member : session ∈ sessions) :
    server ∉ session.slaves ∧ server ≠ session.client := by
  have nodup := sane.wired.links_nodup member
  simp only [Session.links, isServer, Option.toList_some, List.cons_append, List.nil_append,
    List.nodup_cons, List.mem_cons, not_or] at nodup
  exact ⟨nodup.2.1, fun same => nodup.1.1 same.symm⟩

include active isServer in
/-- A frame that is taken up joins the requests outstanding on the master link, and the
link remembers the text of its key. -/
theorem Sane.segment_outstanding {ctx next : Ctx} {frame : Frame} {rest : List Frame}
    {freed : Nat → Key → Key} {continues : Bool} (sane : Sane cfg (state.withCtx ctx) sessions)
    (member : session ∈ sessions)
    (handled : ctx.reqSegment cfg session.client frame rest freed = .ok (continues, next)) :
    ∃ req : Buffer, req.frame? = some frame ∧
      req.tag = some ⟨ctx.proxy.pid, session.client,
        (ctx.proxy.received session.client).length⟩ ∧
      next.proxy.outstanding server =
        ctx.proxy.outstanding server ++ (if continues then [req] else []) ∧
      (next.proxy.links server).key = some (ctx.keyText session.client frame freed) ∧
      next.proxy.pid = ctx.proxy.pid := by
  obtain ⟨mapped, out, mapping, assigned, route, steers, moved, _⟩ :=
    Ctx.reqSegment_effect handled
  have isMapping : mapping = server := by
    have info := congrArg LinkInfo.dataletConn (sane.client_info member)
    exact Option.some.inj (assigned.symm.trans (info.trans isServer))
  subst isMapping
  obtain ⟨notSlave, notClient⟩ := sane.server_notSlave isServer member
  cases route with
  | write passive | tailRead passive | read passive =>
      rw [active.aaStrong] at passive
      cases passive
  | locked _ keyed fwdFlag =>
      refine ⟨Ctx.segment mapped session.client out frame, rfl,
        Ctx.segment_tag steers session.client frame, ?_, ?_, ?_⟩
      · have slaves : out ∉
            (if Ctx.fansOutBefore cfg mapped out then mapped.getSlaves out else []) := by
          split
          · rw [Ctx.getSlaves_congr steers.shape]
            exact sane.wired.getSlaves_eq active.indexesSlaves member isServer ▸ notSlave
          · exact List.not_mem_nil
        have imsgQ := Traffic.fan_other (ctx.proxy.traffic.receive session.client
          (Ctx.segment mapped session.client out frame))
          (Ctx.segment mapped session.client out frame) slaves
        simp only [Proxy.outstanding, ← Proxy.traffic_imsgQ, ← Proxy.traffic_omsgQ,
          moved.traffic]
        cases continues with
        | true =>
            simp [Ctx.forwarded, active.fansOutAfter, Traffic.fan, imsgQ]
        | false => simp [notClient]
      · exact (congrArg Flags.key (congrFun moved.flags out)).trans keyed
      · exact (congrArg Shape.pid moved.shape).trans (congrArg Shape.pid steers.shape)

include active isServer in
/-- One frame of a read. -/
theorem Guarded.segment {ctx next : Ctx} {frame : Frame} {rest : List Frame}
    {freed : Nat → Key → Key} {continues : Bool}
    (guarded : Guarded (state.withCtx ctx) session.client server)
    (sane : Sane cfg (state.withCtx ctx) sessions) (member : session ∈ sessions)
    (uncontended : ctx.Uncontended session.client frame (ctx.keyText session.client frame freed))
    (handled : ctx.reqSegment cfg session.client frame rest freed = .ok (continues, next)) :
    Guarded (state.withCtx next) session.client server ∧
      LocksWithin session.client (state.withCtx ctx) (state.withCtx next) := by
  have assigned : (ctx.proxy.links session.client).dataletConn = some server :=
    (congrArg LinkInfo.dataletConn (sane.client_info member)).trans isServer
  obtain ⟨intact, each⟩ := uncontended
  obtain ⟨sameKey, freeForReads⟩ := each server assigned
  obtain ⟨req, framed, tagged, outstanding, live, pid⟩ :=
    sane.segment_outstanding active isServer member handled
  have asks := Ctx.reqSegment_asks active assigned handled
  rw [intact] at live asks
  -- the key of an outstanding request is the key of the frame, and it is locked
  have isKey : ∀ {other : Buffer} {first : Frame},
      ctx.proxy.outstanding server = [other] → other.frame? = some first →
      first.key = frame.key := by
    intro other first one isFrame
    have same := sameKey other (by rw [one]; exact List.mem_singleton_self other)
    rw [isFrame] at same
    exact Option.some.inj same
  cases asks with
  | granted free redis trace =>
      constructor
      · cases guarded with
        | idle none =>
            change ctx.proxy.outstanding server = [] at none
            rw [none] at outstanding
            refine .busy outstanding framed (pid ▸ tagged) live ?_
            change next.services.redis frame.key = some ⟨next.proxy.pid, _, _⟩
            rw [redis, pid, Function.update_self]
        | busy one isFrame _ _ locked =>
            rw [isKey one isFrame] at locked
            exact absurd (free.symm.trans locked) (by simp)
      · refine ⟨fun sound => ?_, fun key other held _ => ?_⟩
        · have locked := sound.lock ⟨ctx.proxy.pid, session.client,
            (ctx.proxy.received session.client).length⟩ (frame.cmd = .set) frame.key
          change Locks.Sound next.services.redis next.services.trace
          rw [redis, trace]
          simp only [State.withCtx, free, Option.isNone_none, if_true] at locked
          exact locked.forward (Function.update_self ..)
        · change next.services.redis key = some other
          have different : key ≠ frame.key := by
            rintro rfl
            exact absurd (free.symm.trans held) (by simp)
          rw [redis, Function.update_of_ne different]
          exact held
  | refused taken waits redis trace =>
      simp only [Bool.false_eq_true, if_false, List.append_nil] at outstanding
      constructor
      · cases guarded with
        | idle none => exact .idle (outstanding.trans none)
        | busy one isFrame isTag _ locked =>
            refine .busy (outstanding.trans one) isFrame (pid ▸ isTag) ?_ ?_
            · rw [isKey one isFrame]
              exact live
            · change next.services.redis _ = some ⟨next.proxy.pid, _, _⟩
              rw [redis, pid]
              exact locked
      · refine ⟨fun sound => ?_, fun key other held _ => ?_⟩
        · have locked := sound.lock ⟨ctx.proxy.pid, session.client,
            (ctx.proxy.received session.client).length⟩ (frame.cmd = .set) frame.key
          change Locks.Sound next.services.redis next.services.trace
          rw [redis, trace]
          have isSome : (ctx.services.redis frame.key).isNone = false :=
            Bool.eq_false_iff.mpr fun free => taken (Option.isNone_iff_eq_none.mp free)
          simpa only [State.withCtx, isSome, Bool.false_eq_true, if_false] using locked
        · exact (congrFun redis key).trans held
  | overlooked taken isRead =>
      exact absurd (freeForReads (by simpa using isRead.1) isRead.2) taken

include active isServer in
/-- An answer on the master link releases the lock of the request it belongs to. -/
theorem Guarded.unlock {ctx : Ctx} {reply : Reply}
    (guarded : Guarded state session.client server) (sane : Sane cfg state sessions)
    (member : session ∈ sessions)
    (handled : Ctx.ServerReply cfg
      { state.toCtx with proxy := State.takeReply state.proxy server } server
      (State.answer reply) ctx) :
    Guarded (state.withCtx ctx) session.client server ∧
      LocksWithin session.client state (state.withCtx ctx) := by
  cases handled with
  | chain chain =>
      rw [active.msStrongCr] at chain
      cases chain
  | direct notChain unlocked =>
      rw [active.aaStrong] at unlocked
      cases unlocked
  | @unlock key client pmsg rest locked held sent owner traffic shape flags services =>
      change (state.proxy.links server).omsgQ = pmsg :: rest at sent
      change (state.proxy.links server).key = some key at held
      change ctx.services = state.services.unlock pmsg.tag key at services
      cases guarded with
      | idle none => simp [Proxy.outstanding, sent] at none
      | @busy req frame seq one framed tagged live mine =>
          have parts : (pmsg = req ∧ rest = []) ∧ (state.proxy.links server).imsgQ = [] := by
            simpa [Proxy.outstanding, sent, and_assoc] using one
          obtain ⟨⟨rfl, rfl⟩, imsgQ⟩ := parts
          cases Option.some.inj (held.symm.trans live)
          obtain ⟨_, notClient⟩ := sane.server_notSlave isServer member
          have isClient := sane.sent_owner member
            (List.mem_append_left _ (by simp [isServer])) sent
          rw [isClient] at owner
          cases owner
          refine ⟨.idle ?_, fun sound => ?_, fun key other holds foreign => ?_⟩
          · change ctx.proxy.traffic.omsgQ server ++ ctx.proxy.traffic.imsgQ server = []
            rw [traffic]
            simp [Proxy.traffic, State.takeReply, sent, imsgQ, notClient]
          · change Locks.Sound ctx.services.redis ctx.services.trace
            rw [services, tagged]
            exact sound.unlock mine
          · change ctx.services.redis key = some other
            have different : key ≠ frame.key := by
              rintro rfl
              cases Option.some.inj (holds.symm.trans mine)
              exact foreign ⟨rfl, rfl⟩
            rw [services]
            exact (Function.update_of_ne different _ _).trans holds

include isServer in
/-- A write on a link of the session. -/
theorem Guarded.wrote {written : Bool} {proxy : Proxy}
    (guarded : Guarded state session.client server) (sane : Sane cfg state sessions)
    (member : session ∈ sessions) (wrote : State.Wrote state.proxy link written proxy) :
    Guarded (state.withProxy proxy) session.client server := by
  cases wrote with
  | idle nothing moved => exact guarded.of_becomes moved rfl rfl
  | delivered isClient queued complete moved =>
      have different : server ≠ link := by
        rintro rfl
        rw [sane.server_func member isServer] at isClient
        cases isClient
      exact guarded.of_becomes moved (by simp [Proxy.outstanding, Proxy.traffic, different]) rfl
  | sent isDatalet queued moved =>
      refine guarded.of_becomes moved ?_ rfl
      by_cases here : server = link
      · subst here
        simp [Proxy.outstanding, Proxy.traffic, queued]
      · simp [Proxy.outstanding, Proxy.traffic, here]
  | @failed buffer rest queued incomplete lost =>
      have outstanding : proxy.outstanding server =
          (state.proxy.traffic.discard link).omsgQ server ++
            (state.proxy.traffic.discard link).imsgQ server := by
        rw [← lost.traffic]
        rfl
      by_cases here : server = link
      · subst here
        -- the request is lost; its lock stays
        refine .idle (outstanding.trans ?_)
        cases guarded with
        | idle none => simp [Proxy.outstanding, queued] at none
        | @busy req _ _ one =>
            obtain ⟨sent, _, alone⟩ :
                (state.proxy.links server).omsgQ = [] ∧ buffer = req ∧ rest = [] := by
              simpa [Proxy.outstanding, queued, List.append_eq_singleton_iff] using one
            simp [Proxy.traffic, queued, sent, alone]
      · refine guarded.congr (congrArg Shape.pid lost.shape) (outstanding.trans ?_)
          (congrArg Flags.key (lost.others server here)) fun _ _ held => held
        simp [Proxy.outstanding, Proxy.traffic, here]

include active in
/-- The frames a client sends concern its own locks only. -/
theorem Sane.guarded_request {frames : List Frame} {freed : Nat → Key → Key}
    (sane : Sane cfg state sessions) (member : session ∈ sessions)
    (moved : state.step cfg (.request session.client (some frames) freed) = .ok after)
    (uncontended : (Event.request session.client (some frames) freed).EachFrame Ctx.Uncontended
      cfg state)
    (guarded : ∀ server, session.server = some server →
      Guarded state session.client server) :
    (∀ server, session.server = some server → Guarded after session.client server) ∧
      LocksWithin session.client state after := by
  have whole := sane.request_each
    (P := fun next => ((∀ server, session.server = some server →
        Guarded next session.client server) ∧ LocksWithin session.client state next) ∧
      next.proxy.pid = state.proxy.pid)
    member uncontended ⟨⟨guarded, .of_services rfl⟩, rfl⟩ ?_ moved
  · exact whole.1
  · rintro ctx frame rest continues next saneCtx ⟨⟨guarded, locks⟩, pid⟩ free handled
    have within := saneCtx.segment_within member handled
    obtain ⟨_, _, server, assigned, _⟩ := Ctx.reqSegment_effect handled
    have isServer : session.server = some server := by
      rw [← assigned]
      exact (congrArg LinkInfo.dataletConn (saneCtx.client_info member)).symm
    obtain ⟨guardedNext, locksNext⟩ :=
      (guarded server isServer).segment active isServer saneCtx member free handled
    refine ⟨⟨fun other isOther => ?_, locks.trans locksNext pid⟩, within.pid.trans pid⟩
    cases isOther.symm.trans isServer
    exact guardedNext

include active in
/-- An answer concerns the locks of the client that waits for it. -/
theorem Sane.guarded_response (sane : Sane cfg state sessions) (member : session ∈ sessions)
    (inside : link ∈ session.links) (moved : state.step cfg (.response link) = .ok after)
    (guarded : ∀ server, session.server = some server →
      Guarded state session.client server) :
    (∀ server, session.server = some server → Guarded after session.client server) ∧
      LocksWithin session.client state after := by
  obtain ⟨reply, replies, arrived, responded⟩ := State.recvResponse_cases moved
  have backend := sane.response_backend member inside moved
  cases responded with
  | ignored error same =>
      rw [same]
      exact ⟨guarded, .of_services rfl⟩
  | server healthy isResponse handled same =>
      subst same
      have isServer := sane.server_of_func member backend isResponse
      have released := (guarded link isServer).unlock active isServer sane member handled
      refine ⟨fun server found => ?_, released.2⟩
      cases found.symm.trans isServer
      exact released.1
  | replica healthy isReplica found handled same =>
      subst same
      refine ⟨fun server isServer => ?_, .of_services rfl⟩
      have different : server ≠ link := by
        rintro rfl
        rw [sane.server_func member isServer] at isReplica
        cases isReplica
      cases handled with
      | next strong | last strong | read strong =>
          rw [active.msStrongCr] at strong
          cases strong
      | dropped unused moved =>
          have read : Guarded (state.withProxy (State.takeReply state.proxy link))
              session.client server :=
            (guarded server isServer).congr rfl rfl rfl fun _ _ held => held
          refine read.of_becomes moved ?_ rfl
          simp [Proxy.outstanding, Proxy.traffic, different, State.withProxy]

include active in
/-- A step on a link of a session concerns the locks of its client only. -/
theorem Sane.guarded_own {event : Event} (sane : Sane cfg state sessions)
    (member : session ∈ sessions) (concerns : event.link? = some link)
    (inside : link ∈ session.links) (moved : state.step cfg event = .ok after)
    (uncontended : event.EachFrame Ctx.Uncontended cfg state)
    (guarded : ∀ server, session.server = some server →
      Guarded state session.client server) :
    (∀ server, session.server = some server → Guarded after session.client server) ∧
      LocksWithin session.client state after := by
  cases event with
  | accept => cases concerns
  | request client msg freed =>
      cases concerns
      obtain rfl := sane.request_client member inside moved
      cases msg with
      | none =>
          rcases State.recvRequest_none moved with rfl | rfl
          · exact ⟨guarded, .of_services rfl⟩
          · refine ⟨fun server isServer => ?_, .of_services rfl⟩
            exact (guarded server isServer).congr rfl rfl rfl fun _ _ held => held
      | some frames => exact sane.guarded_request active member moved uncontended guarded
  | response link =>
      cases concerns
      exact sane.guarded_response active member inside moved guarded
  | writable link written =>
      cases concerns
      obtain ⟨proxy, rfl, wrote⟩ := State.sendOn_cases moved
      exact ⟨fun server isServer => (guarded server isServer).wrote isServer sane member wrote,
        .of_services rfl⟩
  | serve link =>
      cases concerns
      obtain ⟨addr, req, frame, handled⟩ := State.serveOn_cases moved
      refine ⟨fun server isServer => ?_, .of_services handled.services⟩
      exact (guarded server isServer).of_becomes handled.moved rfl handled.services

/-- What happens to another client keeps a client's lock. -/
theorem Guarded.untouched (guarded : Guarded state session.client server)
    (isServer : session.server = some server) (untouched : Untouched session state after)
    (pid : after.proxy.pid = state.proxy.pid)
    (kept : ∀ key seq,
      state.services.redis key = some ⟨state.proxy.pid, session.client, seq⟩ →
      after.services.redis key = some ⟨state.proxy.pid, session.client, seq⟩) :
    Guarded after session.client server := by
  have inside := Session.server_mem isServer
  have same := untouched.sameAt server inside
  refine guarded.congr pid ?_ (congrArg Flags.key (untouched.flags server inside)) kept
  exact congrArg₂ (· ++ ·) same.omsgQ same.imsgQ

/-- A step that concerns no session does not concern the services. -/
theorem Sane.services_elsewhere {event : Event} (sane : Sane cfg state sessions)
    (moved : state.step cfg event = .ok after)
    (elsewhere : ∀ session ∈ sessions, ∀ link, event.link? = some link →
      link ∉ session.links) : after.services = state.services := by
  cases event with
  | accept uninit =>
      obtain ⟨_, _, withProxy, _⟩ := sane.accept moved
      rw [withProxy]
      rfl
  | request client msg freed =>
      obtain ⟨session, member, isClient, _⟩ := sane.request_within moved
      exact absurd (isClient ▸ session.client_mem) (elsewhere session member client rfl)
  | response link =>
      obtain ⟨session, member, inside, _⟩ := sane.response_within moved
      exact absurd (Session.backend_mem inside) (elsewhere session member link rfl)
  | writable link written =>
      obtain ⟨proxy, rfl, _⟩ := State.sendOn_cases moved
      rfl
  | serve link =>
      obtain ⟨_, _, _, handled⟩ := State.serveOn_cases moved
      exact handled.services

/-- The sessions of a proxy use the lock server properly. -/
def AllGuarded (state : State engine) (sessions : List Session) : Prop :=
  ∀ session ∈ sessions, ∀ server, session.server = some server →
    Guarded state session.client server

include active in
/-- One step of a proxy. -/
theorem AllGuarded.step {event : Event} {later : List Session}
    (guarded : AllGuarded state sessions) (sane : Sane cfg state sessions)
    (steps : Steps cfg state sessions event after later)
    (moved : state.step cfg event = .ok after)
    (uncontended : event.EachFrame Ctx.Uncontended cfg state) :
    AllGuarded after later ∧ ∃ client, LocksWithin client state after := by
  have newborn : ∀ session ∈ later, session ∉ sessions → ∀ server,
      session.server = some server → Guarded after session.client server := by
    intro session listed unlisted server isServer
    have quiet := (steps.newborn session listed unlisted).quiet server
      (Session.server_mem isServer)
    exact .idle (congrArg₂ (· ++ ·) quiet.omsgQ quiet.imsgQ)
  by_cases concerned : ∃ session ∈ sessions, ∃ link, event.link? = some link ∧
      link ∈ session.links
  · obtain ⟨session, member, link, concerns, inside⟩ := concerned
    obtain ⟨own, locks⟩ := sane.guarded_own active member concerns inside moved uncontended
      (guarded session member)
    refine ⟨fun other listed server isServer => ?_, session.client, locks⟩
    by_cases old : other ∈ sessions
    · by_cases same : other = session
      · subst same
        exact own server isServer
      · have untouched := steps.untouched other old fun ptr isLink otherInside => by
          cases concerns.symm.trans isLink
          exact same (sane.wired.session_unique member old inside otherInside)
        refine (guarded other old server isServer).untouched isServer untouched steps.pid ?_
        intro key seq held
        refine locks.kept key _ held fun mine => same ?_
        refine sane.wired.session_unique member old session.client_mem ?_
        rw [← show other.client = session.client from mine.2]
        exact other.client_mem
    · exact newborn other listed old server isServer
  · push Not at concerned
    have services := sane.services_elsewhere moved concerned
    refine ⟨fun other listed server isServer => ?_, 0, .of_services services⟩
    by_cases old : other ∈ sessions
    · exact (guarded other old server isServer).untouched isServer
        (steps.untouched other old (concerned other old)) steps.pid
        fun _ _ held => services ▸ held
    · exact newborn other listed old server isServer

end Steps

/-! ## Runs of the cluster -/

/-- What is read from clients is uncontended. -/
def Action.Uncontended (cfgs : Nat → Config) (cluster : Cluster engine) : Action → Prop
  | .proxy p event => event.EachFrame Ctx.Uncontended (cfgs p) (cluster.view p)
  | _ => True

instance (cfgs : Nat → Config) (cluster : Cluster engine) :
    DecidablePred (Action.Uncontended cfgs cluster) := fun action =>
  match action with
  | .proxy p event =>
      inferInstanceAs (Decidable (event.EachFrame Ctx.Uncontended (cfgs p) (cluster.view p)))
  | .consume _ => isTrue trivial
  | .consumerOut _ => isTrue trivial
  | .consumerServe _ => isTrue trivial
  | .consumerIn _ => isTrue trivial

namespace Cluster

variable {cfgs : Nat → Config} {cluster after : Cluster engine}
variable {sessions : Nat → List Session}

/-- All proxies use the lock server properly, and its locks are exclusive. -/
structure Exclusive (cfgs : Nat → Config) (cluster : Cluster engine)
    (sessions : Nat → List Session) : Prop where
  sane : cluster.Sane cfgs sessions
  sound : Locks.Sound cluster.services.redis cluster.services.trace
  guarded : ∀ p, AllGuarded (cluster.view p) (sessions p)

/-- One action of the cluster. -/
theorem Exclusive.step (active : ∀ p, (cfgs p).IsActive) {action : Action}
    (exclusive : cluster.Exclusive cfgs sessions)
    (uncontended : action.Uncontended cfgs cluster)
    (moved : cluster.step cfgs action = .ok after) :
    ∃ later, after.Exclusive cfgs later := by
  rcases step_cases moved with ⟨p, event, rfl⟩ | consumed
  · obtain ⟨state, stepped, rfl⟩ := step_proxy moved
    obtain ⟨later, steps, sane⟩ := exclusive.sane.step_proxy stepped
    obtain ⟨guarded, client, locks⟩ := (exclusive.guarded p).step (active p)
      (exclusive.sane.sane p) steps stepped uncontended
    refine ⟨Function.update sessions p later, sane, locks.sound exclusive.sound, fun q => ?_⟩
    by_cases here : q = p
    · subst here
      rw [view_put_self, Function.update_self]
      exact guarded
    · rw [view_put_other state here, Function.update_of_ne here]
      intro session member server isServer
      refine (exclusive.guarded q session member server isServer).congr rfl rfl rfl ?_
      intro key seq held
      refine locks.kept key _ held fun mine => here ?_
      have same : (cluster.proxies q).pid = (cluster.proxies p).pid := mine.1
      rw [exclusive.sane.pid, exclusive.sane.pid] at same
      exact same
  · refine ⟨sessions, exclusive.sane.consumed consumed, ?_, fun p session member server isServer =>
      (exclusive.guarded p session member server isServer).congr ?_ ?_ ?_ ?_⟩
    · rw [consumed.services]
      exact exclusive.sound
    · exact congrArg Proxy.pid (congrFun consumed.proxies p)
    · exact congrArg (Proxy.outstanding · server) (congrFun consumed.proxies p)
    · exact congrArg (fun proxy => (proxy.links server).key) (congrFun consumed.proxies p)
    · intro key seq held
      exact (congrFun (congrArg Services.redis consumed.services) key).trans held

theorem Exclusive.init (cfgs : Nat → Config) :
    (Cluster.init engine).Exclusive cfgs fun _ => [] :=
  ⟨.init cfgs, .init _, fun _ _ member => absurd member List.not_mem_nil⟩

end Cluster

/-- **Mutual exclusion.**  As long as what is read from clients is uncontended, nobody is
granted a lock, sends a request or deletes the lock while a write holds it. -/
theorem lock_exclusion {cfgs : Nat → Config} (active : ∀ p, (cfgs p).IsActive)
    {cluster : Cluster engine}
    (run : Transition.Runs (Cluster.step cfgs)
      (fun cluster action => action.Uncontended cfgs cluster) (Cluster.init engine) cluster) :
    Locks.MutualExclusion cluster.services.trace := by
  have whole := run.invariant (fun cluster => ∃ sessions, cluster.Exclusive cfgs sessions) ?_
    ⟨_, .init cfgs⟩
  · obtain ⟨_, exclusive⟩ := whole
    exact exclusive.sound.exclusive
  · rintro cluster action after ⟨sessions, exclusive⟩ admitted moved
    exact exclusive.step active admitted moved

/-- Two datalets; every proxy has one of them as its master and the other one as its
slave. -/
def Config.sampleActive : Nat → Config
  | 0 => ⟨.aa, .strong, .rl, 1, .samplePair⟩
  | _ => ⟨.aa, .strong, .rl, 1, ⟨[⟨[0], .slave⟩, ⟨[1], .master⟩], by decide⟩⟩

theorem Config.sampleActive_isActive (p : Nat) : (Config.sampleActive p).IsActive := by
  unfold Config.sampleActive
  split <;> exact ⟨rfl, rfl, rfl⟩

/-- A write that gets the lock, one on another proxy that does not, and a read when the
key is free again. -/
def sampleLocking : List Action :=
  [.proxy 0 (.accept fun _ => ⟨false, false⟩), .proxy 1 (.accept fun _ => ⟨false, false⟩),
    .proxy 1 (.accept fun _ => ⟨false, false⟩),
    .proxy 0 (.request 0 (some [.set [7] [1]]) fun _ => id),
    .proxy 1 (.request 0 (some [.set [7] [2]]) fun _ => id),
    .proxy 0 (.writable 2 true), .proxy 0 (.serve 2), .proxy 0 (.response 2),
    .proxy 1 (.request 3 (some [.get [7]]) fun _ => id), .proxy 1 (.writable 5 true),
    .proxy 1 (.serve 5), .proxy 1 (.response 5)]

theorem lock_exclusion_sample : (∀ p, (Config.sampleActive p).IsActive) ∧
    ∃ cluster : Cluster mapEngine,
      cluster.services.trace =
        [.lock ⟨0, 0, 0⟩ true [7] true, .forward ⟨0, 0, 0⟩ [7],
          .lock ⟨1, 0, 0⟩ true [7] false, .unlock (some ⟨0, 0, 0⟩) [7],
          .lock ⟨1, 3, 0⟩ false [7] true, .forward ⟨1, 3, 0⟩ [7],
          .unlock (some ⟨1, 3, 0⟩) [7]] ∧
      Locks.MutualExclusion cluster.services.trace := by
  obtain ⟨cluster, run, post⟩ := Transition.Runs.exists_of_exec
    (Cluster.step Config.sampleActive)
    (fun cluster action => action.Uncontended Config.sampleActive cluster)
    (Cluster.init mapEngine) sampleLocking
    (fun cluster => cluster.services.trace =
      [.lock ⟨0, 0, 0⟩ true [7] true, .forward ⟨0, 0, 0⟩ [7],
        .lock ⟨1, 0, 0⟩ true [7] false, .unlock (some ⟨0, 0, 0⟩) [7],
        .lock ⟨1, 3, 0⟩ false [7] true, .forward ⟨1, 3, 0⟩ [7],
        .unlock (some ⟨1, 3, 0⟩) [7]]) (by decide)
  simp only [decide_eq_true_eq] at post
  exact ⟨Config.sampleActive_isActive, cluster, post,
    lock_exclusion Config.sampleActive_isActive run⟩

/-- A read on another proxy while a write holds the lock. -/
def sampleIntrusion : List Action :=
  [.proxy 0 (.accept fun _ => ⟨false, false⟩), .proxy 1 (.accept fun _ => ⟨false, false⟩),
    .proxy 0 (.request 0 (some [.set [7] [1]]) fun _ => id),
    .proxy 1 (.request 0 (some [.get [7]]) fun _ => id), .proxy 1 (.writable 2 true),
    .proxy 1 (.serve 2), .proxy 1 (.response 2)]

/-- The read is refused the lock, goes to the datalet and deletes the lock of the
write, which is still waiting. -/
theorem read_intrudes : ∃ cluster : Cluster mapEngine,
    Transition.Runs (Cluster.step Config.sampleActive) (fun _ _ => True)
      (Cluster.init mapEngine) cluster ∧
    Locks.Holds cluster.services.trace ⟨0, 0, 0⟩ true [7] ∧
    cluster.services.redis [7] = none ∧
    ¬Locks.MutualExclusion cluster.services.trace := by
  obtain ⟨cluster, run, post⟩ := Transition.Runs.exists_of_exec
    (Cluster.step Config.sampleActive) (fun _ _ => True) (Cluster.init mapEngine)
    sampleIntrusion
    (fun cluster => cluster.services.redis [7] = none ∧ cluster.services.trace =
      [.lock ⟨0, 0, 0⟩ true [7] true, .forward ⟨0, 0, 0⟩ [7],
        .lock ⟨1, 0, 0⟩ false [7] false, .forward ⟨1, 0, 0⟩ [7],
        .unlock (some ⟨1, 0, 0⟩) [7]]) (by decide)
  simp only [decide_eq_true_eq] at post
  obtain ⟨free, trace⟩ := post
  refine ⟨cluster, run, ⟨[], _, trace, by decide⟩, free, fun exclusive => ?_⟩
  exact exclusive
    [.lock ⟨0, 0, 0⟩ true [7] true, .forward ⟨0, 0, 0⟩ [7], .lock ⟨1, 0, 0⟩ false [7] false]
    (.forward ⟨1, 0, 0⟩ [7]) _ trace ⟨0, 0, 0⟩ true [7] ⟨[], _, rfl, by decide⟩
    ⟨rfl, rfl, by decide⟩

end BespoKV
