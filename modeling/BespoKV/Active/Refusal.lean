import BespoKV.Active.Replication

/-!
# Refused locks in active-active strong mode

The lock server is shared with other proxies and its locks expire, so any frame of a read may
find its key locked, whatever the frames before it did.  A frame that is refused ends the loop
of `req_recv`: the frame itself is gone, and the frames behind it go to the queue of replies of
the client that sent them.  As long as every frame that waits for its lock gets it, each frame
read from a client is answered or waits on the link to its datalet.
-/

namespace BespoKV

open Pipes

/-! ## Reads amid other users of the lock server -/

/-- What the lock server holds when a frame asks for its lock, by the number of frames
behind it in the same read. -/
abbrev LockTables := Nat → Key → Option ReqId

namespace Ctx

/-- The lock server as others leave it. -/
def withRedis (ctx : Ctx) (redis : Key → Option ReqId) : Ctx :=
  { ctx with services := { ctx.services with redis } }

/-- The loop of `req_recv` while others use the lock server. -/
def reqLoopAmid (cfg : Config) (conn : LinkPtr) (freed : Nat → Key → Key) (tables : LockTables) :
    Ctx → List Frame → Except Fault Ctx
  | ctx, [] => .ok ctx
  | ctx, frame :: rest =>
      match (ctx.withRedis (tables rest.length)).reqSegment cfg conn frame rest freed with
      | .error fault => .error fault
      | .ok (true, next) => reqLoopAmid cfg conn freed tables next rest
      | .ok (false, next) => .ok next

/-- Every frame of a read that waits for its lock is granted it. -/
def EachGranted (cfg : Config) (conn : LinkPtr) (freed : Nat → Key → Key) (tables : LockTables) :
    Ctx → List Frame → Prop
  | _, [] => True
  | ctx, frame :: rest =>
      (ctx.withRedis (tables rest.length)).Granted conn frame (ctx.keyText conn frame freed) ∧
        ∀ next ∈ goesOn
          ((ctx.withRedis (tables rest.length)).reqSegment cfg conn frame rest freed),
          EachGranted cfg conn freed tables next rest

instance decidableEachGranted (cfg : Config) (conn : LinkPtr) (freed : Nat → Key → Key)
    (tables : LockTables) : (ctx : Ctx) → (frames : List Frame) →
      Decidable (EachGranted cfg conn freed tables ctx frames)
  | _, [] => isTrue trivial
  | ctx, frame :: rest =>
      have (next : Ctx) : Decidable (EachGranted cfg conn freed tables next rest) :=
        decidableEachGranted cfg conn freed tables next rest
      inferInstanceAs (Decidable (_ ∧ ∀ next ∈ goesOn
        ((ctx.withRedis (tables rest.length)).reqSegment cfg conn frame rest freed),
          EachGranted cfg conn freed tables next rest))

end Ctx

/-- A proxy together with the frames that were read from each client. -/
structure Observed (engine : Engine) where
  state : State engine
  read : LinkPtr → List Frame

namespace Observed

variable {engine : Engine}

def init (engine : Engine) : Observed engine := ⟨State.init engine, fun _ => []⟩

/-- `NetworkServer::recv` on a client link, as `State.recvRequest`. -/
def recvRequest (cfg : Config) (observed : Observed engine) (client : LinkPtr)
    (frames : List Frame) (freed : Nat → Key → Key) (tables : LockTables) :
    Except Fault (Observed engine) :=
  if (observed.state.proxy.links client).nwFunc ≠ .request ∨
      client ∈ observed.state.proxy.freeConnPool then
    .error .disabled
  else if (observed.state.proxy.links client).error then
    .ok observed
  else
    match Ctx.reqLoopAmid cfg client freed tables observed.state.toCtx frames with
    | .ok ctx => .ok
        { state := observed.state.withCtx ctx
          read := Function.update observed.read client (observed.read client ++ frames) }
    | .error fault => .error fault

/-- One step of the proxy, with what others do to the lock server in the meantime. -/
def step (cfg : Config) (observed : Observed engine) :
    Event × LockTables → Except Fault (Observed engine)
  | (.request client (some frames) freed, tables) =>
      observed.recvRequest cfg client frames freed tables
  | (event, _) =>
      match observed.state.step cfg event with
      | .ok state => .ok { observed with state }
      | .error fault => .error fault

/-- Every frame that waits for its lock is granted it. -/
def Granted (cfg : Config) (observed : Observed engine) : Event × LockTables → Prop
  | (.request client (some frames) freed, tables) =>
      Ctx.EachGranted cfg client freed tables observed.state.toCtx frames
  | _ => True

instance (cfg : Config) (observed : Observed engine) :
    DecidablePred (observed.Granted cfg) := fun input =>
  match input with
  | (.request client (some frames) freed, tables) => inferInstanceAs
      (Decidable (Ctx.EachGranted cfg client freed tables observed.state.toCtx frames))
  | (.request _ none _, _) => isTrue trivial
  | (.accept _, _) => isTrue trivial
  | (.response _, _) => isTrue trivial
  | (.writable _ _, _) => isTrue trivial
  | (.serve _, _) => isTrue trivial

end Observed

/-- The requests that wait on the link to the client's datalet, oldest first. -/
def Proxy.awaiting (proxy : Proxy) (client : LinkPtr) : List Buffer :=
  match (proxy.links client).dataletConn with
  | some server => proxy.outstanding server
  | none => []

variable {engine : Engine}

/-- Nothing that was read from a client is lost or written back to it. -/
structure Kept (observed : Observed engine) (client : LinkPtr) : Prop where
  /-- what was written to the client and what waits for it came from datalets -/
  replies : ∀ buffer ∈ observed.state.proxy.delivered client ++
    (observed.state.proxy.links client).imsgQ, ∃ reply, buffer.content = .reply reply
  /-- every frame is answered by the datalet or waits on the link to it, in order -/
  frames : ∃ answered : List (Buffer × Content),
    (∀ server ∈ (observed.state.proxy.links client).dataletConn,
      answered <+: observed.state.servedOn server) ∧
    answered.map Prod.snd = observed.state.replies client ∧
    (answered.map Prod.fst ++ observed.state.proxy.awaiting client).map Buffer.content =
      (observed.read client).map fun frame => .frames [frame]

/-! ## The invariant of one client -/

/-- The frames read from the client of a session have been received as requests, and each
request is on its way to the datalet and back. -/
structure Held (state : State engine) (frames : List Frame) (session : Session) : Prop where
  direct : ∀ lane server, lane.To session server → Direct state lane
  idle : session.server = none → ∀ ptr ∈ session.links, state.proxy.traffic.Quiet ptr
  received : (state.proxy.received session.client).map Buffer.content =
    frames.map fun frame => .frames [frame]

section Steps

variable {cfg : Config} {state after : State engine} {session : Session}
variable {sessions : List Session} {link : LinkPtr} {frames : List Frame}

theorem Newborn.held (newborn : Newborn session state) : Held state [] session := by
  have received : state.proxy.received session.client = [] :=
    (newborn.quiet session.client session.client_mem).received
  exact ⟨fun lane server of => newborn.line_sound of.through, fun _ => newborn.quiet,
    by rw [received]; rfl⟩

theorem Held.untouched (held : Held state frames session)
    (untouched : Untouched session state after) : Held after frames session := by
  have received : after.proxy.received session.client = state.proxy.received session.client :=
    (untouched.sameAt session.client session.client_mem).received
  refine ⟨fun lane server of => ?_, fun serverless ptr inside => ?_, ?_⟩
  · rw [Direct, untouched.line_eq of.through]
    exact held.direct lane server of
  · exact (held.idle serverless ptr inside).sameAt (untouched.sameAt ptr inside)
  · rw [received]
    exact held.received

/-- A step on a link of the session that reads no request. -/
theorem Held.own {event : Event} (held : Held state frames session) (active : cfg.IsActive)
    (sane : Sane cfg state sessions) (member : session ∈ sessions)
    (concerns : event.link? = some link) (inside : link ∈ session.links)
    (notRequest : ∀ client frames freed, event ≠ .request client (some frames) freed)
    (whole : event.Whole state) (present : session.client ∉ after.proxy.freeConnPool)
    (moved : state.step cfg event = .ok after) : Held after frames session := by
  refine ⟨fun lane server of => ?_, fun serverless ptr listed => ?_, ?_⟩
  · exact (held.direct lane server of).own of sane member active.msStrongCr concerns inside
      notRequest whole present moved
  · have quiet := held.idle serverless link inside
    rw [State.step_idle concerns notRequest quiet.imsgQ quiet.wire moved]
    exact held.idle serverless ptr listed
  · rw [sane.received_step moved (notRequest session.client)]
    exact held.received

/-- A frame that is granted its lock. -/
theorem Held.segment {ctx next : Ctx} {frame : Frame} {rest : List Frame} {freed : Nat → Key → Key}
    {continues : Bool} (held : Held (state.withCtx ctx) frames session) (active : cfg.IsActive)
    (sane : Sane cfg (state.withCtx ctx) sessions) (member : session ∈ sessions)
    (granted : ctx.Granted session.client frame (ctx.keyText session.client frame freed))
    (handled : ctx.reqSegment cfg session.client frame rest freed = .ok (continues, next)) :
    continues = true ∧ Held (state.withCtx next) (frames ++ [frame]) session := by
  have info : (ctx.proxy.links session.client).dataletConn = session.server :=
    congrArg LinkInfo.dataletConn (sane.client_info member)
  obtain ⟨_, _, server, assigned, _⟩ := Ctx.reqSegment_effect handled
  have isServer : session.server = some server := info.symm.trans assigned
  obtain ⟨req, copies, content, traffic, inside, _, shape⟩ :=
    sane.segment_copies active isServer member granted handled
  refine ⟨granted.goesOn active assigned handled, fun lane other of => ?_,
    fun serverless => ?_, ?_⟩
  · cases of.server.symm.trans isServer
    exact (held.direct lane server of).copied of sane member traffic inside shape
  · rw [isServer] at serverless
    cases serverless
  · have received : next.proxy.received session.client =
        ctx.proxy.received session.client ++ [req] := by
      have whole := congrFun (congrArg Traffic.received traffic) session.client
      simpa [Proxy.traffic] using whole
    change (next.proxy.received session.client).map Buffer.content = _
    have before : (ctx.proxy.received session.client).map Buffer.content = _ := held.received
    rw [received, List.map_append, List.map_append, before, List.map_singleton, content]
    rfl

/-- A read whose frames are all granted their locks. -/
theorem Held.loop {freed : Nat → Key → Key} {tables : LockTables} (active : cfg.IsActive)
    (member : session ∈ sessions) (left : List Frame) :
    ∀ {ctx next : Ctx} {frames : List Frame}, Sane cfg (state.withCtx ctx) sessions →
      Held (state.withCtx ctx) frames session →
      Ctx.EachGranted cfg session.client freed tables ctx left →
      Ctx.reqLoopAmid cfg session.client freed tables ctx left = .ok next →
      StepWithin session (state.withCtx ctx) (state.withCtx next) ∧
        Held (state.withCtx next) (frames ++ left) session := by
  induction left with
  | nil =>
      intro ctx next frames _ held _ handled
      cases handled
      exact ⟨⟨.refl, fun _ _ => rfl, .of_shape rfl, .inl rfl⟩, by rwa [List.append_nil]⟩
  | cons frame rest ih =>
      intro ctx next frames sane held each handled
      obtain ⟨granted, later⟩ := each
      -- the lock server alone differs from what the frame before left
      have saneAmid : Sane cfg (state.withCtx (ctx.withRedis (tables rest.length))) sessions :=
        ⟨sane.wired, sane.quiet, sane.tidy, sane.stamped, sane.logged⟩
      have heldAmid : Held (state.withCtx (ctx.withRedis (tables rest.length))) frames session :=
        ⟨held.direct, held.idle, held.received⟩
      rw [Ctx.reqLoopAmid] at handled
      split at handled
      · cases handled
      next middle segment =>
        obtain ⟨_, heldNext⟩ := heldAmid.segment active saneAmid member granted segment
        have within := saneAmid.segment_within member segment
        obtain ⟨withinNext, heldLast⟩ := ih (within.sane member saneAmid) heldNext
          (later middle (by rw [segment]; rfl)) handled
        have whole := within.andThen withinNext
        exact ⟨⟨whole.traffic, whole.flags, whole.drops, .inl rfl⟩, by simpa using heldLast⟩
      next middle segment =>
        obtain ⟨impossible, _⟩ := heldAmid.segment active saneAmid member granted segment
        cases impossible

end Steps

/-! ## Runs -/

/-- The invariant of a run. -/
structure AllHeld (cfg : Config) (observed : Observed engine) (sessions : List Session) :
    Prop where
  sane : Sane cfg observed.state sessions
  held : ∀ session ∈ sessions, session.client ∉ observed.state.proxy.freeConnPool →
    Held observed.state (observed.read session.client) session
  unread : ∀ ptr, (∀ session ∈ sessions, session.client ≠ ptr) → observed.read ptr = []

section Runs

variable {cfg : Config} {observed after : Observed engine} {sessions : List Session}

theorem Observed.init_allHeld : AllHeld cfg (Observed.init engine) [] :=
  ⟨.init cfg, by simp, fun _ _ => rfl⟩

/-- A step that holds what it reads on the links it concerns. -/
theorem AllHeld.of_steps {later : List Session} {event : Event}
    (all : AllHeld cfg observed sessions)
    (steps : Steps cfg observed.state sessions event after.state later)
    (reads : ∀ ptr, after.read ptr ≠ observed.read ptr →
      event.link? = some ptr ∧ ∃ session ∈ sessions, session.client = ptr)
    (own : ∀ session ∈ sessions, ∀ link ∈ session.links, event.link? = some link →
      session.client ∉ after.state.proxy.freeConnPool →
      Held after.state (after.read session.client) session) : AllHeld cfg after later := by
  have unread : ∀ ptr, (∀ session ∈ sessions, session.client ≠ ptr) → after.read ptr = [] := by
    intro ptr nobody
    by_contra some
    have grown : after.read ptr ≠ observed.read ptr := by
      rw [all.unread ptr nobody]
      exact some
    obtain ⟨_, session, member, same⟩ := reads ptr grown
    exact nobody session member same
  refine ⟨steps.sane, fun session listed present => ?_, fun ptr nobody => ?_⟩
  · by_cases old : session ∈ sessions
    · by_cases concerned : ∃ link ∈ session.links, event.link? = some link
      · obtain ⟨link, inside, concerns⟩ := concerned
        exact own session old link inside concerns present
      · push Not at concerned
        have same : after.read session.client = observed.read session.client := by
          by_contra grown
          exact concerned session.client session.client_mem (reads session.client grown).1
        have untouched := steps.untouched session old fun link concerns inside =>
          concerned link inside concerns
        rw [same]
        exact (all.held session old fun dropped => present (steps.pool.subset dropped)).untouched
          untouched
    · rw [unread session.client ?_]
      · exact (steps.newborn session listed old).held
      · intro other member same
        have inside : session.client ∈ other.links := same ▸ other.client_mem
        have unique := steps.sane.wired.session_unique (steps.kept other member) listed inside
          session.client_mem
        exact old (unique ▸ member)
  · exact unread ptr fun session member => nobody session (steps.kept session member)

/-- A read whose frames are all granted their locks. -/
theorem AllHeld.request {client : LinkPtr} {frames : List Frame} {freed : Nat → Key → Key}
    {tables : LockTables} (active : cfg.IsActive) (all : AllHeld cfg observed sessions)
    (granted : Ctx.EachGranted cfg client freed tables observed.state.toCtx frames)
    (moved : observed.recvRequest cfg client frames freed tables = .ok after) :
    AllHeld cfg after sessions := by
  unfold Observed.recvRequest at moved
  split at moved
  · cases moved
  next enabled =>
    split at moved
    · cases moved
      exact all
    split at moved
    next ctx handled =>
      cases moved
      push Not at enabled
      obtain ⟨session, member, rfl⟩ := all.sane.wired.clients client enabled.1
      have held := all.held session member enabled.2
      obtain ⟨within, kept⟩ := Held.loop active member frames all.sane held granted handled
      have concerns : (Event.request session.client (some frames) freed).link? =
        some session.client := rfl
      refine all.of_steps (all.sane.steps_of_within member session.client_mem concerns within)
        (fun ptr grown => ?_) fun other otherMember link inside isLink _ => ?_
      · have here : ptr = session.client := by
          by_contra different
          exact grown (Function.update_of_ne different _ _)
        exact ⟨here ▸ rfl, session, member, here.symm⟩
      · cases isLink
        have same := all.sane.wired.session_unique member otherMember session.client_mem inside
        subst same
        simpa using kept
    · cases moved

/-- Other events do not concern the lock server. -/
theorem Observed.step_other {event : Event} {tables : LockTables}
    (notRequest : ∀ client frames freed, event ≠ .request client (some frames) freed)
    (moved : observed.step cfg (event, tables) = .ok after) :
    ∃ state, observed.state.step cfg event = .ok state ∧ after = { observed with state } := by
  have direct : (match observed.state.step cfg event with
      | .ok state => .ok { observed with state }
      | .error fault => .error fault) = Except.ok after := by
    cases event with
    | request client msg freed =>
        cases msg with
        | none => exact moved
        | some frames => exact absurd rfl (notRequest client frames freed)
    | accept | response | writable | serve => exact moved
  split at direct
  next state stepped =>
    cases direct
    exact ⟨state, stepped, rfl⟩
  · cases direct

/-- One step of a run. -/
theorem AllHeld.step {input : Event × LockTables} (active : cfg.IsActive)
    (all : AllHeld cfg observed sessions) (whole : input.1.Whole observed.state)
    (granted : observed.Granted cfg input) (moved : observed.step cfg input = .ok after) :
    ∃ later, AllHeld cfg after later := by
  obtain ⟨event, tables⟩ := input
  by_cases request : ∃ client frames freed, event = .request client (some frames) freed
  · obtain ⟨client, frames, freed, rfl⟩ := request
    exact ⟨sessions, all.request active granted moved⟩
  · push Not at request
    obtain ⟨state, stepped, rfl⟩ := Observed.step_other request moved
    obtain ⟨later, steps⟩ := all.sane.step stepped
    refine ⟨later, all.of_steps steps (fun ptr grown => absurd rfl grown) ?_⟩
    intro session member link inside concerns present
    exact (all.held session member fun dropped => present (steps.pool.subset dropped)).own active
      all.sane member concerns inside request whole present stepped

/-- Datalets answer with replies. -/
theorem State.reply_of_served {state : State engine} {server : LinkPtr} {content : Content}
    (served : content ∈ (state.servedOn server).map Prod.snd) :
    ∃ reply, content = .reply reply := by
  unfold State.servedOn at served
  split at served
  · simp only [List.map_map, List.mem_map] at served
    obtain ⟨entry, _, rfl⟩ := served
    exact ⟨entry.reply, rfl⟩
  · cases served

/-- What is held is kept. -/
theorem Held.kept {session : Session} (sane : Sane cfg observed.state sessions)
    (member : session ∈ sessions)
    (held : Held observed.state (observed.read session.client) session) :
    Kept observed session.client := by
  have info : (observed.state.proxy.links session.client).dataletConn = session.server :=
    congrArg LinkInfo.dataletConn (sane.client_info member)
  cases isServer : session.server with
  | none =>
      have quiet := held.idle isServer session.client session.client_mem
      have imsgQ : (observed.state.proxy.links session.client).imsgQ = [] := quiet.imsgQ
      have delivered : observed.state.proxy.delivered session.client = [] := quiet.delivered
      have received : observed.state.proxy.received session.client = [] := quiet.received
      refine ⟨by simp [imsgQ, delivered], [], fun server assigned => List.nil_prefix, ?_, ?_⟩
      · simp [State.replies, imsgQ, delivered]
      · rw [← held.received, received, Proxy.awaiting, info, isServer]
        rfl
  | some server =>
      rw [isServer] at info
      obtain ⟨lane, of⟩ := sane.exists_laneTo member isServer
      have direct := held.direct lane server of
      have served : (observed.state.pipe server).answered <+: observed.state.servedOn server :=
        Line.answered_served _
      refine ⟨fun buffer waits => ?_, (observed.state.pipe server).answered,
        fun other assigned => ?_, (direct.replies of).symm, ?_⟩
      · refine State.reply_of_served ((served.map Prod.snd).subset ?_)
        rw [← direct.replies of]
        exact List.mem_map_of_mem waits
      · cases info.symm.trans assigned
        exact served
      · rw [← held.received, direct.received of, direct.acknowledged of, Proxy.awaiting, info]
        rfl

/-- **Nothing is lost**, as long as every frame that waits for its lock gets it. -/
theorem granted_reads_kept (active : cfg.IsActive)
    (run : Transition.Runs (Observed.step cfg)
      (fun observed input => input.1.Whole observed.state ∧ observed.Granted cfg input)
      (Observed.init engine) observed)
    {client : LinkPtr} (connected : (observed.state.proxy.links client).nwFunc = .request)
    (present : client ∉ observed.state.proxy.freeConnPool) : Kept observed client := by
  have whole := run.invariant (fun observed => ∃ sessions, AllHeld cfg observed sessions) ?_
    ⟨[], Observed.init_allHeld⟩
  · obtain ⟨sessions, all⟩ := whole
    obtain ⟨session, member, rfl⟩ := all.sane.wired.clients client connected
    exact (all.held session member present).kept all.sane member
  · rintro observed input after ⟨sessions, all⟩ ⟨complete, granted⟩ moved
    exact all.step active complete granted moved

end Runs

/-- Keys that others have locked when the frame with one frame behind it is read. -/
def sampleTables (locked : Key) : LockTables := fun behind key =>
  if behind = 1 ∧ key = locked then some ⟨1, 0, 0⟩ else none

/-- A write whose reply waits for the client, then two writes in one read. -/
def sampleBatch (locked : Key) : List (Event × LockTables) :=
  [(.accept fun _ => ⟨false, false⟩, sampleTables locked),
    (.request 0 (some [.set [7] [1]]) fun _ => id, sampleTables locked),
    (.writable 2 true, sampleTables locked), (.serve 2, sampleTables locked),
    (.response 2, sampleTables locked),
    (.request 0 (some [.set [8] [2], .set [9] [3]]) fun _ => id, sampleTables locked),
    (.writable 0 true, sampleTables locked)]

theorem granted_reads_kept_sample : ∃ observed : Observed mapEngine,
    (observed.read 0).length = 3 ∧ (observed.state.proxy.delivered 0).length = 1 ∧
      Kept observed 0 := by
  obtain ⟨observed, run, post⟩ := Transition.Runs.exists_of_exec
    (Observed.step (Config.sampleActive 0))
    (fun observed input => input.1.Whole observed.state ∧
      observed.Granted (Config.sampleActive 0) input)
    (Observed.init mapEngine) (sampleBatch [0])
    (fun observed => (observed.state.proxy.links 0).nwFunc = .request ∧
      0 ∉ observed.state.proxy.freeConnPool ∧ (observed.read 0).length = 3 ∧
      (observed.state.proxy.delivered 0).length = 1) (by decide)
  simp only [decide_eq_true_eq] at post
  obtain ⟨connected, present, read, delivered⟩ := post
  exact ⟨observed, read, delivered,
    granted_reads_kept (Config.sampleActive_isActive 0) run connected present⟩

/-- The first of two writes is refused while a reply waits for the client: the second is written
back in front of the reply, and the first is nowhere. -/
theorem refused_read_lost : ∃ observed : Observed mapEngine,
    Transition.Runs (Observed.step (Config.sampleActive 0)) (fun _ input => input.1.Clean)
        (Observed.init mapEngine) observed ∧
      (observed.state.proxy.links 0).nwFunc = .request ∧
      0 ∉ observed.state.proxy.freeConnPool ∧
      (observed.state.proxy.delivered 0).head?.map Buffer.content =
        some (.frames [.set [9] [3]]) ∧
      (∀ ptr < observed.state.proxy.next, ∀ req ∈ (observed.state.proxy.links ptr).imsgQ ++
        (observed.state.proxy.links ptr).omsgQ, req.content ≠ .frames [.set [8] [2]]) ∧
      ¬Kept observed 0 := by
  obtain ⟨observed, run, post⟩ := Transition.Runs.exists_of_exec
    (Observed.step (Config.sampleActive 0)) (fun _ input => input.1.Clean)
    (Observed.init mapEngine) (sampleBatch [8])
    (fun observed => ((observed.state.proxy.links 0).nwFunc = .request ∧
      0 ∉ observed.state.proxy.freeConnPool ∧
      (observed.state.proxy.delivered 0).head?.map Buffer.content =
        some (.frames [.set [9] [3]]) ∧
      ∀ ptr < observed.state.proxy.next, ∀ req ∈ (observed.state.proxy.links ptr).imsgQ ++
        (observed.state.proxy.links ptr).omsgQ, req.content ≠ .frames [.set [8] [2]])) (by decide)
  simp only [decide_eq_true_eq] at post
  obtain ⟨connected, present, back, nowhere⟩ := post
  refine ⟨observed, run, connected, present, back, nowhere, fun kept => ?_⟩
  obtain ⟨buffer, first, content⟩ := Option.map_eq_some_iff.mp back
  obtain ⟨reply, isReply⟩ := kept.replies buffer
    (List.mem_append_left _ (List.mem_of_mem_head? first))
  rw [content] at isReply
  cases isReply

end BespoKV
