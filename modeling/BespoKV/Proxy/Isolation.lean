import Mathlib.Logic.Relation
import BespoKV.Proxy.Effects

/-!
# Isolation of sessions

Whatever the mode and the order of events, a step moves messages within one session:
requests stay on the links of the client that sent them, and answers reach no other
client.  `Sane` is the invariant behind it, and `step_within` the statement.
-/

namespace BespoKV

/-- The datalet links of a session. -/
def Session.backend (session : Session) : List LinkPtr :=
  session.server.toList ++ session.slaves

theorem Session.backend_mem {session : Session} {ptr : LinkPtr}
    (member : ptr ∈ session.backend) : ptr ∈ session.links :=
  List.mem_cons_of_mem _ member

/-! ## Traffic within a session -/

/-- The traffic of one link is as before. -/
structure Traffic.SameAt (before after : Traffic) (ptr : LinkPtr) : Prop where
  imsgQ : after.imsgQ ptr = before.imsgQ ptr
  omsgQ : after.omsgQ ptr = before.omsgQ ptr
  wire : after.wire ptr = before.wire ptr
  received : after.received ptr = before.received ptr
  delivered : after.delivered ptr = before.delivered ptr

theorem Traffic.SameAt.trans {first second third : Traffic} {ptr : LinkPtr}
    (left : first.SameAt second ptr) (right : second.SameAt third ptr) :
    first.SameAt third ptr :=
  ⟨right.imsgQ.trans left.imsgQ, right.omsgQ.trans left.omsgQ, right.wire.trans left.wire,
    right.received.trans left.received, right.delivered.trans left.delivered⟩

theorem Traffic.Quiet.sameAt {before after : Traffic} {ptr : LinkPtr} (quiet : before.Quiet ptr)
    (same : before.SameAt after ptr) : after.Quiet ptr :=
  ⟨same.imsgQ.trans quiet.imsgQ, same.omsgQ.trans quiet.omsgQ, same.wire.trans quiet.wire,
    same.received.trans quiet.received, same.delivered.trans quiet.delivered⟩

/-- The `seq`-th segment of a client, as `req_recv` builds it. -/
structure Buffer.Stamp (pid : Nat) (client : LinkPtr) (seq : Nat) (buffer : Buffer) :
    Prop where
  owner : buffer.owner = some client
  id : buffer.id = 1
  tag : buffer.tag = some ⟨pid, client, seq⟩
  framed : ∃ frame, buffer.content = .frames [frame]

namespace Session

/-- The elementary operations on the links of a session. -/
inductive Op (pid : Nat) (session : Session) (before : Traffic) : Traffic → Prop where
  | push (ptr : LinkPtr) (req : Buffer) (member : ptr ∈ session.backend)
      (owner : req.owner = some session.client) :
      Op pid session before (before.push ptr req)
  | reply (msg : Buffer) : Op pid session before (before.push session.client msg)
  | pushBack (rest : List Frame) :
      Op pid session before (before.pushBack session.client rest)
  | pop (ptr : LinkPtr) (member : ptr ∈ session.backend) :
      Op pid session before (before.pop ptr)
  | read (ptr : LinkPtr) (member : ptr ∈ session.backend) :
      Op pid session before (before.read ptr)
  | transmit (ptr : LinkPtr) (buffer : Buffer) (rest : List Buffer)
      (member : ptr ∈ session.backend) (queued : before.imsgQ ptr = buffer :: rest) :
      Op pid session before (before.transmit ptr buffer)
  | serve (ptr : LinkPtr) (reply : Reply) (member : ptr ∈ session.backend) :
      Op pid session before (before.serve ptr reply)
  | receive (req : Buffer)
      (stamp : req.Stamp pid session.client (before.received session.client).length) :
      Op pid session before (before.receive session.client req)
  | deliver (buffer : Buffer) : Op pid session before (before.deliver session.client buffer)
  | discard (ptr : LinkPtr) (member : ptr ∈ session.links) :
      Op pid session before (before.discard ptr)

/-- Any number of operations on the links of a session. -/
def Within (pid : Nat) (session : Session) : Traffic → Traffic → Prop :=
  Relation.ReflTransGen (Op pid session)

/-- Requests on the links of a session belong to its client, whose own link carries no
requests. -/
structure Tidy (session : Session) (traffic : Traffic) : Prop where
  wire : traffic.wire session.client = {}
  omsgQ : traffic.omsgQ session.client = []
  owned : ∀ ptr ∈ session.backend, ∀ req,
    req ∈ traffic.imsgQ ptr ∨ req ∈ traffic.omsgQ ptr ∨ req ∈ (traffic.wire ptr).req →
      req.owner = some session.client
  silent : ∀ ptr ∈ session.backend, traffic.received ptr = []

/-- The segments received from the client are numbered in order. -/
def Stamped (pid : Nat) (session : Session) (traffic : Traffic) : Prop :=
  ∀ (seq : Nat) (req : Buffer), (traffic.received session.client)[seq]? = some req →
    req.Stamp pid session.client seq

variable {pid : Nat} {session : Session} {before after : Traffic}

theorem Op.sameAt (op : Op pid session before after) {ptr : LinkPtr}
    (outside : ptr ∉ session.links) : before.SameAt after ptr := by
  have notClient : ptr ≠ session.client := by
    rintro rfl
    exact outside session.client_mem
  have apart : ∀ {other}, other ∈ session.backend → ptr ≠ other := by
    rintro other member rfl
    exact outside (backend_mem member)
  cases op with
  | push target req member owner => constructor <;> simp [apart member]
  | reply msg => constructor <;> simp [notClient]
  | pushBack rest => constructor <;> simp [notClient]
  | pop target member => constructor <;> simp [apart member]
  | read target member => constructor <;> simp [apart member]
  | transmit target buffer rest member queued => constructor <;> simp [apart member]
  | serve target reply member => constructor <;> simp [apart member]
  | receive req stamp => constructor <;> simp [notClient]
  | deliver buffer => constructor <;> simp [notClient]
  | discard target member =>
      have different : ptr ≠ target := fun same => outside (same ▸ member)
      constructor <;> simp [different]

theorem Within.sameAt (within : Within pid session before after) {ptr : LinkPtr}
    (outside : ptr ∉ session.links) : before.SameAt after ptr := by
  induction within with
  | refl => exact ⟨rfl, rfl, rfl, rfl, rfl⟩
  | tail _ op ih => exact ih.trans (op.sameAt outside)

theorem Op.stamped (op : Op pid session before after)
    (stamped : Stamped pid session before) : Stamped pid session after := by
  cases op with
  | receive new stamp =>
      intro seq req place
      rw [Traffic.receive_received, Function.update_self] at place
      rcases Nat.lt_trichotomy seq (before.received session.client).length with
        earlier | new | beyond
      · rw [List.getElem?_append_left earlier] at place
        exact stamped seq req place
      · subst new
        rw [List.getElem?_concat_length] at place
        cases place
        exact stamp
      · rw [List.getElem?_eq_none (by simp; omega)] at place
        cases place
  | push | reply | pushBack | pop | read | transmit | serve | deliver | discard =>
      exact stamped

theorem Within.stamped (within : Within pid session before after)
    (stamped : Stamped pid session before) : Stamped pid session after := by
  induction within with
  | refl => exact stamped
  | tail _ op ih => exact op.stamped ih

/-- Numbered segments are all different. -/
theorem Stamped.nodup {traffic : Traffic} (stamped : session.Stamped pid traffic) :
    (traffic.received session.client).Nodup := by
  rw [List.nodup_iff_getElem?_ne_getElem?]
  intro i j order bound same
  have first := List.getElem?_eq_getElem (Nat.lt_trans order bound)
  have left := stamped i _ first
  have right := stamped j _ (same ▸ first)
  have tags := left.tag.symm.trans right.tag
  simp only [Option.some.injEq, ReqId.mk.injEq, true_and] at tags
  omega

/-- A request found on a link after pushing one was there before or is the new one. -/
private theorem owned_push {traffic : Traffic} {client target ptr : LinkPtr} {new : Buffer}
    (owner : target = ptr → new.owner = some client)
    (owned : ∀ req : Buffer, req ∈ traffic.imsgQ ptr ∨ req ∈ traffic.omsgQ ptr ∨
      req ∈ (traffic.wire ptr).req → req.owner = some client) (req : Buffer)
    (found : req ∈ (traffic.push target new).imsgQ ptr ∨
      req ∈ (traffic.push target new).omsgQ ptr ∨
      req ∈ ((traffic.push target new).wire ptr).req) : req.owner = some client := by
  by_cases here : ptr = target
  · subst here
    simp only [Traffic.push_imsgQ, Function.update_self, List.mem_append,
      List.mem_singleton, Traffic.push_omsgQ, Traffic.push_wire] at found
    rcases found with (old | rfl) | elsewhere
    · exact owned req (.inl old)
    · exact owner rfl
    · exact owned req (.inr elsewhere)
  · simp only [Traffic.push_imsgQ, Function.update_of_ne here, Traffic.push_omsgQ,
      Traffic.push_wire] at found
    exact owned req found

theorem Op.tidy (op : Op pid session before after) (nodup : session.links.Nodup)
    (tidy : session.Tidy before) : session.Tidy after := by
  have separate : session.client ∉ session.backend := (List.nodup_cons.mp nodup).1
  have apart : ∀ {ptr}, ptr ∈ session.backend → session.client ≠ ptr := by
    rintro ptr member rfl
    exact separate member
  have silent : ∀ ptr ∈ session.backend, after.received ptr = [] := by
    intro ptr inside
    have nothing := tidy.silent ptr inside
    cases op with
    | receive => simpa [(apart inside).symm] using nothing
    | push | reply | pushBack | pop | read | transmit | serve | deliver | discard =>
        simpa using nothing
  cases op with
  | push target req member owner =>
      refine ⟨by simpa using tidy.wire, by simpa using tidy.omsgQ, fun ptr inside => ?_, silent⟩
      exact owned_push (fun _ => owner) (tidy.owned ptr inside)
  | reply msg =>
      refine ⟨by simpa using tidy.wire, by simpa using tidy.omsgQ, fun ptr inside => ?_, silent⟩
      exact owned_push (fun same => absurd same (apart inside)) (tidy.owned ptr inside)
  | pushBack | deliver =>
      refine ⟨by simpa using tidy.wire, by simpa using tidy.omsgQ, fun ptr inside req => ?_, silent⟩
      simpa [(apart inside).symm] using tidy.owned ptr inside req
  | pop target member =>
      refine ⟨by simpa using tidy.wire, by simpa [apart member] using tidy.omsgQ,
        fun ptr inside req found => tidy.owned ptr inside req
          (found.imp_right (.imp_left fun popped => ?_)), silent⟩
      by_cases here : ptr = target
      · subst here
        exact List.mem_of_mem_tail (by simpa using popped)
      · simpa [here] using popped
  | read target member =>
      refine ⟨by simpa [apart member] using tidy.wire, by simpa using tidy.omsgQ,
        fun ptr inside req found => tidy.owned ptr inside req
          (found.imp_right (.imp_right fun waiting => ?_)), silent⟩
      by_cases here : ptr = target
      · subst here
        simpa using waiting
      · simpa [here] using waiting
  | transmit target buffer rest member queued =>
      refine ⟨by simpa [apart member] using tidy.wire,
        by simpa [apart member] using tidy.omsgQ, fun ptr inside req found => ?_, silent⟩
      by_cases here : ptr = target
      · subst here
        have front := tidy.owned ptr inside buffer (.inl (by simp [queued]))
        simp only [Traffic.transmit_imsgQ, Traffic.transmit_omsgQ, Traffic.transmit_wire,
          Function.update_self, List.mem_append, List.mem_singleton] at found
        rcases found with waiting | (sent | rfl) | (travelling | rfl)
        · exact tidy.owned ptr inside req (.inl (List.mem_of_mem_tail waiting))
        · exact tidy.owned ptr inside req (.inr (.inl sent))
        · exact front
        · exact tidy.owned ptr inside req (.inr (.inr travelling))
        · exact front
      · exact tidy.owned ptr inside req (by simpa [here] using found)
  | serve target reply member =>
      refine ⟨by simpa [apart member] using tidy.wire, by simpa using tidy.omsgQ,
        fun ptr inside req found => tidy.owned ptr inside req
          (found.imp_right (.imp_right fun waiting => ?_)), silent⟩
      by_cases here : ptr = target
      · subst here
        exact List.mem_of_mem_tail (by simpa using waiting)
      · simpa [here] using waiting
  | discard target member =>
      refine ⟨tidy.wire, tidy.omsgQ, fun ptr inside req found => tidy.owned ptr inside req
        (found.imp_left fun queued => ?_), silent⟩
      by_cases here : ptr = target
      · subst here
        exact List.mem_of_mem_tail (by simpa using queued)
      · simpa [here] using queued
  | receive req stamp => exact ⟨tidy.wire, tidy.omsgQ, tidy.owned, silent⟩

theorem Within.tidy (within : Within pid session before after) (nodup : session.links.Nodup)
    (tidy : session.Tidy before) : session.Tidy after := by
  induction within with
  | refl => exact tidy
  | tail _ op ih => exact op.tidy nodup ih

theorem Tidy.congr (tidy : session.Tidy before)
    (same : ∀ ptr ∈ session.links, before.SameAt after ptr) : session.Tidy after where
  wire := (same _ session.client_mem).wire.trans tidy.wire
  omsgQ := (same _ session.client_mem).omsgQ.trans tidy.omsgQ
  owned := by
    intro ptr inside req found
    have here := same ptr (backend_mem inside)
    rw [here.imsgQ, here.omsgQ, here.wire] at found
    exact tidy.owned ptr inside req found
  silent := fun ptr inside =>
    (same ptr (backend_mem inside)).received.trans (tidy.silent ptr inside)

theorem Within.fan {req : Buffer} (owner : req.owner = some session.client)
    (slaves : List LinkPtr) (inside : ∀ ptr ∈ slaves, ptr ∈ session.backend)
    (within : Within pid session before after) :
    Within pid session before (after.fan req slaves) := by
  induction slaves generalizing after with
  | nil => exact within
  | cons slave rest ih =>
      exact ih (fun ptr member => inside ptr (List.mem_cons_of_mem _ member))
        (within.tail (.push slave req (inside slave List.mem_cons_self) owner))

end Session

/-! ## The invariant -/

variable {engine : Engine}

/-- A proxy made of sessions whose requests stay on their own links, with datalets
that have served nothing else on the connections of this proxy. -/
structure Sane (cfg : Config) (state : State engine) (sessions : List Session) : Prop where
  wired : Wired cfg state.proxy.shape sessions
  quiet : ∀ ptr, (∀ session ∈ sessions, ptr ∉ session.links) →
    state.proxy.traffic.Quiet ptr
  tidy : ∀ session ∈ sessions, session.Tidy state.proxy.traffic
  stamped : ∀ session ∈ sessions, session.Stamped state.proxy.pid state.proxy.traffic
  logged : ∀ addr, ∀ entry ∈ (state.datalets addr).log, ∀ ptr,
    entry.conn = state.connOf ptr → ∃ session ∈ sessions, ptr ∈ session.backend ∧
      (state.proxy.links ptr).peer = some addr ∧ entry.req.owner = some session.client

/-- The set-up is as before, except that clients may have been dropped. -/
structure Proxy.Drops (before after : Proxy) : Prop where
  shape : after.shape = { before.shape with freeConnPool := after.freeConnPool }
  pool : before.freeConnPool <+: after.freeConnPool

theorem Proxy.Drops.of_shape {before after : Proxy} (same : after.shape = before.shape) :
    before.Drops after := by
  refine ⟨?_, ?_⟩
  · rw [← same]
    rfl
  · rw [show after.freeConnPool = before.freeConnPool from congrArg Shape.freeConnPool same]

theorem Proxy.Drops.trans {first second third : Proxy} (left : first.Drops second)
    (right : second.Drops third) : first.Drops third :=
  ⟨by rw [right.shape, left.shape], left.pool.trans right.pool⟩

/-- A step that concerns one session only. -/
structure StepWithin (session : Session) (before after : State engine) : Prop where
  traffic : session.Within before.proxy.pid before.proxy.traffic after.proxy.traffic
  flags : ∀ ptr, ptr ∉ session.links → after.proxy.flags ptr = before.proxy.flags ptr
  drops : before.proxy.Drops after.proxy
  served : after.datalets = before.datalets ∨
    ∃ link ∈ session.backend, ∃ addr req frame,
      State.Handled before link addr req frame after

namespace StepWithin

variable {cfg : Config} {session : Session} {before after : State engine}
variable {sessions : List Session}

theorem shape (step : StepWithin session before after) : after.proxy.shape =
    { before.proxy.shape with freeConnPool := after.proxy.freeConnPool } := step.drops.shape

theorem pid (step : StepWithin session before after) :
    after.proxy.pid = before.proxy.pid := congrArg Shape.pid step.shape

theorem info (step : StepWithin session before after) (ptr : LinkPtr) :
    (after.proxy.links ptr).toLinkInfo = (before.proxy.links ptr).toLinkInfo :=
  congrFun (congrArg Shape.info step.shape) ptr

theorem peer (step : StepWithin session before after) (ptr : LinkPtr) :
    (after.proxy.links ptr).peer = (before.proxy.links ptr).peer :=
  congrArg LinkInfo.peer (step.info ptr)

theorem connOf (step : StepWithin session before after) (ptr : LinkPtr) :
    after.connOf ptr = before.connOf ptr := by
  rw [State.connOf, State.connOf, step.pid]

/-- What datalets served on links outside the session is as before. -/
theorem servedOn (step : StepWithin session before after) {ptr : LinkPtr}
    (outside : ptr ∉ session.links) : after.servedOn ptr = before.servedOn ptr := by
  rcases step.served with same | ⟨link, inside, addr, req, frame, handled⟩
  · simp only [State.servedOn, step.peer ptr, step.connOf ptr, same]
  · refine handled.servedOn_other ?_
    rintro rfl
    exact outside (Session.backend_mem inside)

/-- Other sessions see nothing of the step. -/
theorem sameAt (step : StepWithin session before after) {ptr : LinkPtr}
    (outside : ptr ∉ session.links) : before.proxy.traffic.SameAt after.proxy.traffic ptr :=
  step.traffic.sameAt outside

/-- Two parts of the same read, one after the other. -/
theorem andThen {ctx later : Ctx} (first : StepWithin session before (before.withCtx ctx))
    (second : StepWithin session (before.withCtx ctx) (before.withCtx later)) :
    StepWithin session before (before.withCtx later) where
  traffic := first.traffic.trans (first.pid ▸ second.traffic)
  flags := fun ptr outside => (second.flags ptr outside).trans (first.flags ptr outside)
  drops := first.drops.trans second.drops
  served := .inl rfl

theorem wired (step : StepWithin session before after)
    (wired : Wired cfg before.proxy.shape sessions) :
    Wired cfg after.proxy.shape sessions := by
  rw [step.shape]
  refine ⟨wired.msMap, wired.nodup, fun other member => ?_, wired.clients⟩
  have established := wired.established other member
  exact ⟨established.bounded, established.client, established.server,
    established.serverless, established.slaves, established.slave⟩

theorem sane (step : StepWithin session before after) (member : session ∈ sessions)
    (sane : Sane cfg before sessions) : Sane cfg after sessions where
  wired := step.wired sane.wired
  quiet := by
    intro ptr outside
    exact (sane.quiet ptr outside).sameAt (step.sameAt (outside session member))
  tidy := by
    intro other otherMember
    by_cases here : other = session
    · subst here
      exact step.traffic.tidy (sane.wired.links_nodup member) (sane.tidy other member)
    · refine (sane.tidy other otherMember).congr fun ptr inside => step.sameAt fun within => ?_
      exact here (sane.wired.session_unique member otherMember within inside)
  stamped := by
    intro other otherMember
    rw [step.pid]
    by_cases here : other = session
    · subst here
      exact step.traffic.stamped (sane.stamped other member)
    · have outside : other.client ∉ session.links := fun within =>
        here (sane.wired.session_unique member otherMember within other.client_mem)
      intro seq req place
      rw [(step.sameAt outside).received] at place
      exact sane.stamped other otherMember seq req place
  logged := by
    intro addr entry logged ptr conn
    rw [step.connOf] at conn
    rw [step.peer]
    rcases step.served with same | ⟨link, inside, served, req, frame, handled⟩
    · rw [same] at logged
      exact sane.logged addr entry logged ptr conn
    · rcases handled.mem_log logged with old | ⟨rfl, rfl⟩
      · exact sane.logged addr entry old ptr conn
      · simp only [State.connOf, Conn.link.injEq, true_and] at conn
        subst conn
        obtain ⟨rest, waiting⟩ := handled.waiting
        refine ⟨session, member, inside, handled.peer, ?_⟩
        exact (sane.tidy session member).owned _ inside _
          (.inr (.inr (by simp [Proxy.traffic, waiting])))

end StepWithin

namespace Sane

variable {cfg : Config} {state after : State engine} {sessions : List Session}
variable {session : Session} {link : LinkPtr}

/-- A proxy without clients, and datalets that have served nothing. -/
theorem of_fresh (cfg : Config) (pid : Nat) (proxy : state.proxy = { pid := pid })
    (logs : ∀ addr, (state.datalets addr).log = []) : Sane cfg state [] where
  wired := by
    rw [proxy]
    exact Wired.init cfg pid
  quiet := fun ptr _ => by
    rw [proxy]
    exact ⟨rfl, rfl, rfl, rfl, rfl⟩
  tidy := by simp
  stamped := by simp
  logged := by simp [logs]

theorem init (cfg : Config) : Sane cfg (State.init engine) [] :=
  of_fresh cfg 0 rfl fun _ => rfl

/-- Links that are not allocated carry nothing. -/
theorem quiet_beyond (sane : Sane cfg state sessions) {ptr : LinkPtr}
    (large : state.proxy.next ≤ ptr) : state.proxy.traffic.Quiet ptr := by
  refine sane.quiet ptr fun session member inside => ?_
  have small := (sane.wired.established session member).bounded ptr inside
  exact Nat.lt_irrefl _ (Nat.lt_of_lt_of_le small large)

/-- Only clients send requests. -/
theorem client_of_received (sane : Sane cfg state sessions) {client : LinkPtr} {req : Buffer}
    (received : req ∈ state.proxy.received client) :
    ∃ session ∈ sessions, session.client = client := by
  by_contra none
  push Not at none
  have nothing : state.proxy.traffic.received client = [] := by
    by_cases known : ∃ session ∈ sessions, client ∈ session.links
    · obtain ⟨session, member, inside⟩ := known
      rcases List.mem_cons.mp inside with isClient | backend
      · exact absurd isClient.symm (none session member)
      · exact (sane.tidy session member).silent client backend
    · push Not at known
      exact (sane.quiet client known).received
  change req ∈ state.proxy.traffic.received client at received
  rw [nothing] at received
  cases received

/-- A link with requests or answers on its connection is a datalet link of a
session. -/
theorem backend_of_wire (sane : Sane cfg state sessions)
    (busy : state.proxy.wire link ≠ {}) :
    ∃ session ∈ sessions, link ∈ session.backend := by
  by_contra none
  push Not at none
  refine busy ?_
  by_cases client : ∃ session ∈ sessions, session.client = link
  · obtain ⟨session, member, rfl⟩ := client
    exact (sane.tidy session member).wire
  · push Not at client
    refine (sane.quiet link fun session member inside => ?_).wire
    rcases List.mem_cons.mp inside with rfl | backend
    · exact client session member rfl
    · exact none session member backend

/-- A link of a session with something on its connection is a datalet link. -/
theorem backend_of_busy (sane : Sane cfg state sessions) (member : session ∈ sessions)
    (inside : link ∈ session.links) (busy : state.proxy.wire link ≠ {}) :
    link ∈ session.backend := by
  rcases List.mem_cons.mp inside with rfl | backend
  · exact absurd (sane.tidy session member).wire busy
  · exact backend

/-- Answers arrive on datalet links. -/
theorem response_backend (sane : Sane cfg state sessions) (member : session ∈ sessions)
    (inside : link ∈ session.links) (moved : state.step cfg (.response link) = .ok after) :
    link ∈ session.backend := by
  obtain ⟨reply, replies, arrived, _⟩ := State.recvResponse_cases moved
  refine sane.backend_of_busy member inside fun empty => ?_
  simp [empty] at arrived

/-- Datalets take requests off datalet links. -/
theorem serve_backend (sane : Sane cfg state sessions) (member : session ∈ sessions)
    (inside : link ∈ session.links) (moved : state.step cfg (.serve link) = .ok after) :
    link ∈ session.backend := by
  obtain ⟨addr, req, frame, handled⟩ := State.serveOn_cases moved
  obtain ⟨rest, waiting⟩ := handled.waiting
  refine sane.backend_of_busy member inside fun empty => ?_
  simp [empty] at waiting

/-- The request an answer on a datalet link belongs to is one of the session's client. -/
theorem sent_owner (sane : Sane cfg state sessions) (member : session ∈ sessions)
    (inside : link ∈ session.backend) {pmsg : Buffer} {rest : List Buffer}
    (sent : (state.proxy.links link).omsgQ = pmsg :: rest) :
    pmsg.owner = some session.client :=
  (sane.tidy session member).owned link inside pmsg
    (.inr (.inl (by simp [Proxy.traffic, sent])))

/-- Connecting a client. -/
theorem accept {uninit : LinkPtr → Uninit} (sane : Sane cfg state sessions)
    (moved : state.step cfg (.accept uninit) = .ok after) :
    ∃ session, Accepted cfg state.proxy after.proxy session ∧
      after = state.withProxy after.proxy ∧
      after.proxy.traffic = state.proxy.traffic ∧ Sane cfg after (sessions ++ [session]) := by
  simp only [State.step] at moved
  split at moved
  next proxy connected =>
    cases moved
    obtain ⟨session, accepted⟩ := acceptClient_accepted connected
    have traffic := accepted.traffic_eq fun ptr large => sane.quiet_beyond large
    have pid : proxy.pid = state.proxy.pid := by
      rw [accepted.frame]
    have fresh : ∀ ptr ∈ session.links, proxy.traffic.Quiet ptr := by
      intro ptr inside
      rw [traffic]
      exact sane.quiet_beyond (accepted.range ptr inside).1
    refine ⟨session, accepted, rfl, traffic, accepted.wired sane.wired, ?_, ?_, ?_, ?_⟩
    · intro ptr outside
      change proxy.traffic.Quiet ptr
      rw [traffic]
      exact sane.quiet ptr fun other member =>
        outside other (List.mem_append_left _ member)
    · intro other member
      change other.Tidy proxy.traffic
      rcases List.mem_append.mp member with old | new
      · rw [traffic]
        exact sane.tidy other old
      · rw [List.mem_singleton.mp new]
        have client := fresh _ session.client_mem
        refine ⟨client.wire, client.omsgQ, fun ptr inside req found => ?_, fun ptr inside =>
          (fresh ptr (Session.backend_mem inside)).received⟩
        have here := fresh ptr (Session.backend_mem inside)
        simp [here.imsgQ, here.omsgQ, here.wire] at found
    · intro other member
      change other.Stamped proxy.pid proxy.traffic
      rcases List.mem_append.mp member with old | new
      · rw [traffic, pid]
        exact sane.stamped other old
      · rw [List.mem_singleton.mp new]
        intro seq req place
        simp [(fresh _ session.client_mem).received] at place
    · intro addr entry logged ptr conn
      simp only [State.connOf, State.withProxy, pid] at conn
      obtain ⟨owner, member, inside, peer, owned⟩ := sane.logged addr entry logged ptr conn
      refine ⟨owner, List.mem_append_left _ member, inside, ?_, owned⟩
      have small := (sane.wired.established owner member).bounded ptr
        (Session.backend_mem inside)
      rw [← peer]
      exact congrArg (fun link => link.peer) (accepted.same ptr (.inl small))
  · cases moved

/-- A datalet takes requests from links of sessions only. -/
theorem backend_of_handled {addr : AddrType} {req : Buffer} {frame : Frame}
    (sane : Sane cfg state sessions) (handled : state.Handled link addr req frame after) :
    ∃ session ∈ sessions, link ∈ session.backend := by
  obtain ⟨rest, waiting⟩ := handled.waiting
  refine sane.backend_of_wire fun empty => ?_
  simp [empty] at waiting

/-- The datalet behind a link serves a request. -/
theorem serve_within (sane : Sane cfg state sessions)
    (moved : state.step cfg (.serve link) = .ok after) :
    ∃ session ∈ sessions, link ∈ session.backend ∧ StepWithin session state after := by
  obtain ⟨addr, req, frame, handled⟩ := State.serveOn_cases moved
  obtain ⟨session, member, inside⟩ := sane.backend_of_handled handled
  refine ⟨session, member, inside, ?_, ?_, ?_, .inr ⟨link, inside, addr, req, frame, handled⟩⟩
  · rw [handled.moved.traffic]
    exact .single (.serve link _ inside)
  · intro ptr _
    rw [handled.moved.flags]
  · exact .of_shape handled.moved.shape

/-- A link with messages in its queue belongs to a session. -/
theorem session_of_queued (sane : Sane cfg state sessions) {buffer : Buffer}
    {rest : List Buffer} (queued : (state.proxy.links link).imsgQ = buffer :: rest) :
    ∃ session ∈ sessions, link ∈ session.links := by
  by_contra none
  push Not at none
  have quiet := (sane.quiet link none).imsgQ
  rw [Proxy.traffic_imsgQ, queued] at quiet
  cases quiet

/-- A write on a link of a session. -/
theorem writable_within {written : Bool} (sane : Sane cfg state sessions)
    (moved : state.step cfg (.writable link written) = .ok after) :
    (∃ session ∈ sessions, link ∈ session.links ∧ StepWithin session state after) ∨
      (state.proxy.Becomes state.proxy.traffic after.proxy ∧
        after = state.withProxy after.proxy) := by
  obtain ⟨proxy, rfl, wrote⟩ := State.sendOn_cases moved
  cases wrote with
  | idle nothing still => exact .inr ⟨still, rfl⟩
  | delivered isClient queued complete moved =>
      obtain ⟨session, member, rfl⟩ := sane.wired.clients link isClient
      refine .inl ⟨session, member, session.client_mem, ?_, ?_, .of_shape moved.shape, .inl rfl⟩
      · exact moved.traffic ▸ .single (.deliver _)
      · exact fun ptr _ => congrFun moved.flags ptr
  | failed queued incomplete lost =>
      obtain ⟨session, member, inside⟩ := sane.session_of_queued queued
      refine .inl ⟨session, member, inside, ?_, ?_, .of_shape lost.shape, .inl rfl⟩
      · exact lost.traffic ▸ .single (.discard link inside)
      · intro ptr outside
        refine lost.others ptr ?_
        rintro rfl
        exact outside inside
  | @sent buffer rest isDatalet queued moved =>
      obtain ⟨session, member, inside⟩ := sane.session_of_queued queued
      have backend : link ∈ session.backend := by
        rcases List.mem_cons.mp inside with rfl | backend
        · have client := (sane.wired.established session member).client
          change (state.proxy.links session.client).toLinkInfo = _ at client
          rw [client] at isDatalet
          simp at isDatalet
        · exact backend
      refine .inl ⟨session, member, inside, ?_, ?_, .of_shape moved.shape, .inl rfl⟩
      · exact moved.traffic ▸ .single (.transmit link buffer rest backend queued)
      · exact fun ptr _ => congrFun moved.flags ptr

/-- The oldest answer on a link is read. -/
theorem response_within (sane : Sane cfg state sessions)
    (moved : state.step cfg (.response link) = .ok after) :
    ∃ session ∈ sessions, link ∈ session.backend ∧ StepWithin session state after := by
  obtain ⟨reply, replies, arrived, responded⟩ := State.recvResponse_cases moved
  have busy : state.proxy.wire link ≠ {} := by
    intro empty
    simp [empty] at arrived
  obtain ⟨session, member, inside⟩ := sane.backend_of_wire busy
  refine ⟨session, member, inside, ?_⟩
  have linkInside := Session.backend_mem inside
  -- reading the answer and taking its request off the link
  have taken : session.Within state.proxy.pid state.proxy.traffic
      ((state.proxy.traffic.read link).pop link) :=
    (Relation.ReflTransGen.single (.read link inside)).tail (.pop link inside)
  have toClient : ∀ {client : LinkPtr} {pmsg : Buffer} {rest : List Buffer} (msg : Buffer),
      (state.proxy.links link).omsgQ = pmsg :: rest → pmsg.owner = some client →
      session.Within state.proxy.pid state.proxy.traffic
        (((state.proxy.traffic.read link).pop link).push client msg) := by
    intro client pmsg rest msg sent owner
    rw [sane.sent_owner member inside sent] at owner
    cases owner
    exact taken.tail (.reply msg)
  have toSlave : ∀ {slave : LinkPtr} {pmsg : Buffer} {rest : List Buffer},
      slave ∈ session.slaves → (state.proxy.links link).omsgQ = pmsg :: rest →
      session.Within state.proxy.pid state.proxy.traffic
        (((state.proxy.traffic.read link).pop link).push slave pmsg) := by
    intro slave pmsg rest listed sent
    exact taken.tail (.push slave pmsg (List.mem_append_right _ listed)
      (sane.sent_owner member inside sent))
  cases responded with
  | ignored error same =>
      subst same
      exact ⟨.refl, fun _ _ => rfl, .of_shape rfl, .inl rfl⟩
  | server healthy isServer handled same =>
      subst same
      cases handled with
      | chain chain fwd found sent moved services =>
          have listed := sane.wired.mem_of_getSlaveNumber member linkInside found
          exact ⟨moved.traffic ▸ toSlave listed sent, fun ptr _ => congrFun moved.flags ptr,
            .of_shape moved.shape, .inl rfl⟩
      | direct notChain unlocked sent owner moved services =>
          exact ⟨moved.traffic ▸ toClient _ sent owner,
            fun ptr _ => congrFun moved.flags ptr, .of_shape moved.shape, .inl rfl⟩
      | unlock locked held sent owner traffic shape flags services =>
          refine ⟨traffic ▸ toClient _ sent owner, fun ptr outside => ?_,
            .of_shape shape, .inl rfl⟩
          have different : ptr ≠ link := fun same => outside (same ▸ linkInside)
          exact (congrFun flags ptr).trans (Function.update_of_ne different _ _)
  | replica healthy isReplica found handled same =>
      subst same
      cases handled with
      | next chain fwd inner number sent moved =>
          have server := sane.wired.server_of_getMasterOfSlave member linkInside found
          have listed := sane.wired.mem_of_getSlaveNumber member
            (Session.server_mem server) number
          exact ⟨moved.traffic ▸ toSlave listed sent, fun ptr _ => congrFun moved.flags ptr,
            .of_shape moved.shape, .inl rfl⟩
      | last chain fwd tail sent owner moved =>
          exact ⟨moved.traffic ▸ toClient _ sent owner,
            fun ptr _ => congrFun moved.flags ptr, .of_shape moved.shape, .inl rfl⟩
      | read chain fwd tail sent owner traffic shape flags =>
          refine ⟨traffic ▸ toClient _ sent owner, fun ptr outside => ?_,
            .of_shape shape, .inl rfl⟩
          have different : ptr ≠ link := fun same => outside (same ▸ linkInside)
          exact (congrFun flags ptr).trans (Function.update_of_ne different _ _)
      | dropped unused moved =>
          exact ⟨moved.traffic ▸ taken, fun ptr _ => congrFun moved.flags ptr,
            .of_shape moved.shape, .inl rfl⟩

theorem client_info (sane : Sane cfg state sessions) (member : session ∈ sessions) :
    (state.proxy.links session.client).toLinkInfo =
      { isClient := true, nwFunc := .request, dataletConn := session.server } :=
  (sane.wired.established session member).client

theorem server_func (sane : Sane cfg state sessions) (member : session ∈ sessions)
    (isServer : session.server = some link) : (state.proxy.links link).nwFunc = .response := by
  obtain ⟨addr, _, info⟩ := (sane.wired.established session member).server link isServer
  exact congrArg LinkInfo.nwFunc info

/-- The slaves of a session are numbered in their order. -/
theorem slave_info (sane : Sane cfg state sessions) (member : session ∈ sessions) {number : Nat}
    (place : session.slaves[number]? = some link) :
    ∃ addr, (state.proxy.links link).toLinkInfo = Proxy.slaveInfo addr number := by
  obtain ⟨addr, _, info⟩ := (sane.wired.established session member).slave number link place
  exact ⟨addr, info⟩

theorem slave_func (sane : Sane cfg state sessions) (member : session ∈ sessions)
    (listed : link ∈ session.slaves) : (state.proxy.links link).nwFunc = .replica := by
  obtain ⟨number, place⟩ := List.getElem?_of_mem listed
  obtain ⟨addr, info⟩ := sane.slave_info member place
  exact congrArg LinkInfo.nwFunc info

theorem slave_number (sane : Sane cfg state sessions) (member : session ∈ sessions)
    {number : Nat} (place : session.slaves[number]? = some link) :
    (state.proxy.links link).slaveNumber = number := by
  obtain ⟨addr, info⟩ := sane.slave_info member place
  exact congrArg LinkInfo.slaveNumber info

theorem backend_func (sane : Sane cfg state sessions) (member : session ∈ sessions)
    (inside : link ∈ session.backend) : (state.proxy.links link).nwFunc ≠ .request := by
  rcases List.mem_append.mp inside with isServer | listed
  · simp [sane.server_func member (by simpa using isServer)]
  · simp [sane.slave_func member listed]

/-- The datalet links that run `rsp_recv` are the links requests go to. -/
theorem server_of_func (sane : Sane cfg state sessions) (member : session ∈ sessions)
    (inside : link ∈ session.backend) (func : (state.proxy.links link).nwFunc = .response) :
    session.server = some link := by
  rcases List.mem_append.mp inside with isServer | listed
  · simpa using isServer
  · rw [sane.slave_func member listed] at func
    cases func

/-- One frame of a read is handled on the links of the client that sent it. -/
theorem segment_within {ctx next : Ctx} {frame : Frame} {rest : List Frame}
    {freed : Nat → Key → Key} {continues : Bool} (sane : Sane cfg (state.withCtx ctx) sessions)
    (member : session ∈ sessions)
    (handled : ctx.reqSegment cfg session.client frame rest freed = .ok (continues, next)) :
    StepWithin session (state.withCtx ctx) (state.withCtx next) := by
  obtain ⟨mapped, out, server, assigned, route, steers, moved, _⟩ :=
    Ctx.reqSegment_effect handled
  have wired : Wired cfg ctx.proxy.shape sessions := sane.wired
  have isServer : session.server = some server := by
    have info := sane.client_info member
    rw [← assigned]
    exact (congrArg LinkInfo.dataletConn info).symm
  have serverInside := Session.server_mem isServer
  have outBackend : out ∈ session.backend := by
    cases route with
    | locked | write | read => exact List.mem_append_left _ (by simp [isServer])
    | tailRead passive notSet chain found fwd tailFwd isTail =>
        exact List.mem_append_right _
          (wired.mem_of_getSlaveNumber member serverInside found)
  have outInside := Session.backend_mem outBackend
  have stamp : (Ctx.segment mapped session.client out frame).Stamp ctx.proxy.pid
      session.client (ctx.proxy.traffic.received session.client).length := by
    refine ⟨rfl, rfl, ?_, frame, rfl⟩
    have pid : mapped.pid = ctx.proxy.pid := congrArg Shape.pid steers.shape
    have received : mapped.received = ctx.proxy.received :=
      congrArg Traffic.received steers.traffic
    simp [Ctx.segment, Proxy.traffic, pid, received]
  have slaves : ∀ ptr ∈ mapped.getSlaves out, ptr ∈ session.backend := by
    intro ptr listed
    rw [Ctx.getSlaves_congr steers.shape] at listed
    exact List.mem_append_right _ (wired.mem_of_getSlaves member outInside listed)
  have received : session.Within ctx.proxy.pid ctx.proxy.traffic
      (ctx.proxy.traffic.receive session.client
        (Ctx.segment mapped session.client out frame)) :=
    .single (.receive _ stamp)
  refine ⟨?_, ?_, .of_shape (moved.shape.trans steers.shape), .inl rfl⟩
  · refine moved.traffic ▸ ?_
    cases continues with
    | false => exact received.tail (.pushBack rest)
    | true =>
        refine Session.Within.fan rfl _ (fun ptr listed => ?_)
          ((Session.Within.fan rfl _ (fun ptr listed => ?_) received).tail
            (.push out _ outBackend rfl))
        · split at listed
          · exact slaves ptr listed
          · cases listed
        · split at listed
          · exact slaves ptr listed
          · cases listed
  · intro ptr outside
    refine (congrFun moved.flags ptr).trans (steers.others ptr ?_ ?_)
    · rintro rfl
      exact outside serverInside
    · rintro rfl
      exact outside outInside

/-- Everything `req_recv` does with one read. -/
theorem loop_within {next : Ctx} {frames : List Frame} {freed : Nat → Key → Key}
    (sane : Sane cfg state sessions) (member : session ∈ sessions)
    (handled : Ctx.reqLoop cfg session.client freed state.toCtx frames = .ok next) :
    StepWithin session state (state.withCtx next) := by
  refine Ctx.reqLoop_induction
    (P := fun ctx _ => StepWithin session state (state.withCtx ctx))
    ⟨.refl, fun _ _ => rfl, .of_shape rfl, .inl rfl⟩ ?_ handled
  intro ctx frame rest continues after before segment
  exact before.andThen (segment_within (before.sane member sane) member segment)

/-- A client link is readable. -/
theorem request_within {client : LinkPtr} {msg : Option (List Frame)} {freed : Nat → Key → Key}
    (sane : Sane cfg state sessions)
    (moved : state.step cfg (.request client msg freed) = .ok after) :
    ∃ session ∈ sessions, session.client = client ∧ StepWithin session state after := by
  simp only [State.step, State.recvRequest] at moved
  split at moved
  · cases moved
  next enabled =>
    push Not at enabled
    obtain ⟨session, member, rfl⟩ := sane.wired.clients client enabled.1
    refine ⟨session, member, rfl, ?_⟩
    split at moved
    · cases moved
      exact ⟨.refl, fun _ _ => rfl, .of_shape rfl, .inl rfl⟩
    · split at moved
      next next handled =>
        cases moved
        cases msg with
        | none =>
            cases handled
            exact ⟨.refl, fun _ _ => rfl, ⟨rfl, List.prefix_append _ _⟩, .inl rfl⟩
        | some frames => exact loop_within sane member handled
      · cases moved

/-- The one link of a session that requests are read from is its client's. -/
theorem request_client {client : LinkPtr} {msg : Option (List Frame)} {freed : Nat → Key → Key}
    (sane : Sane cfg state sessions) (member : session ∈ sessions)
    (inside : client ∈ session.links)
    (moved : state.step cfg (.request client msg freed) = .ok after) : session.client = client := by
  obtain ⟨owner, ownerMember, rfl, _⟩ := sane.request_within moved
  rw [sane.wired.session_unique member ownerMember inside owner.client_mem]

/-- A property of the state and of the frames still to be read that every segment of a
read preserves holds when the read ends. -/
theorem request_induction {frames : List Frame} {freed : Nat → Key → Key}
    {P : State engine → List Frame → Prop} (sane : Sane cfg state sessions)
    (member : session ∈ sessions) (start : P state frames)
    (advance : ∀ ctx frame rest continues next, Sane cfg (state.withCtx ctx) sessions →
      P (state.withCtx ctx) (frame :: rest) →
      ctx.reqSegment cfg session.client frame rest freed = .ok (continues, next) →
      P (state.withCtx next) (if continues then rest else []))
    (moved : state.step cfg (.request session.client (some frames) freed) = .ok after) :
    ∃ left, P after left := by
  simp only [State.step, State.recvRequest] at moved
  split at moved
  · cases moved
  split at moved
  · cases moved
    exact ⟨frames, start⟩
  split at moved
  next next handled =>
    cases moved
    have whole := Ctx.reqLoop_induction
      (P := fun ctx left =>
        StepWithin session state (state.withCtx ctx) ∧ P (state.withCtx ctx) left)
      ⟨⟨.refl, fun _ _ => rfl, .of_shape rfl, .inl rfl⟩, start⟩ ?_ handled
    · exact ⟨[], whole.2⟩
    · rintro ctx frame rest continues later ⟨within, holds⟩ segment
      have saneCtx := within.sane member sane
      exact ⟨within.andThen (saneCtx.segment_within member segment),
        advance ctx frame rest continues later saneCtx holds segment⟩
  · cases moved

/-- A property of the state that every segment preserves, where every frame meets a
condition. -/
theorem request_each {frames : List Frame} {freed : Nat → Key → Key}
    {F : Ctx → LinkPtr → Frame → Key → Prop} {P : State engine → Prop}
    (sane : Sane cfg state sessions) (member : session ∈ sessions)
    (each : Ctx.EachFrame F cfg session.client freed state.toCtx frames) (start : P state)
    (advance : ∀ ctx frame rest continues next, Sane cfg (state.withCtx ctx) sessions →
      P (state.withCtx ctx) →
      F ctx session.client frame (ctx.keyText session.client frame freed) →
      ctx.reqSegment cfg session.client frame rest freed = .ok (continues, next) →
      P (state.withCtx next))
    (moved : state.step cfg (.request session.client (some frames) freed) = .ok after) :
    P after := by
  have whole := sane.request_induction
    (P := fun state left => P state ∧
      Ctx.EachFrame F cfg session.client freed state.toCtx left)
    member ⟨start, each⟩ ?_ moved
  · obtain ⟨_, holds, _⟩ := whole
    exact holds
  · rintro ctx frame rest continues next saneCtx ⟨holds, meets, goesOn⟩ handled
    refine ⟨advance ctx frame rest continues next saneCtx holds meets handled, ?_⟩
    cases continues with
    | true =>
        refine goesOn next ?_
        change Ctx.goesOn (ctx.reqSegment cfg session.client frame rest freed) = some next
        rw [handled]
        rfl
    | false => trivial

end Sane

/-! ## Runs -/

/-- The link an event concerns. -/
def Event.link? : Event → Option LinkPtr
  | .accept _ => none
  | .request client _ _ => some client
  | .response link | .writable link _ | .serve link => some link

/-- A step changed nothing about a session. -/
structure Untouched (session : Session) (before after : State engine) : Prop where
  sameAt : ∀ ptr ∈ session.links, before.proxy.traffic.SameAt after.proxy.traffic ptr
  flags : ∀ ptr ∈ session.links, after.proxy.flags ptr = before.proxy.flags ptr
  servedOn : ∀ ptr ∈ session.links, after.servedOn ptr = before.servedOn ptr
  pool : before.proxy.freeConnPool <+: after.proxy.freeConnPool

/-- On a link with nothing queued and nothing on its connection no message moves, unless a
request is read. -/
theorem State.step_idle {cfg : Config} {state after : State engine} {event : Event}
    {link : LinkPtr} (concerns : event.link? = some link)
    (notRequest : ∀ client frames freed, event ≠ .request client (some frames) freed)
    (imsgQ : (state.proxy.links link).imsgQ = []) (wire : state.proxy.wire link = {})
    (moved : state.step cfg event = .ok after) :
    after.proxy.traffic = state.proxy.traffic := by
  cases event with
  | accept uninit => cases concerns
  | request client msg freed =>
      cases msg with
      | none => rcases State.recvRequest_none moved with rfl | rfl <;> rfl
      | some frames => exact absurd rfl (notRequest client frames freed)
  | response link =>
      cases concerns
      simp [State.step, State.recvResponse, wire] at moved
  | writable link written =>
      cases concerns
      obtain ⟨proxy, rfl, wrote⟩ := State.sendOn_cases moved
      cases wrote with
      | idle nothing becomes => exact becomes.traffic
      | delivered isClient queued | failed queued | sent isDatalet queued =>
          exact absurd imsgQ (by simp [queued])
  | serve link =>
      cases concerns
      obtain ⟨addr, req, frame, handled⟩ := State.serveOn_cases moved
      obtain ⟨rest, waiting⟩ := handled.waiting
      rw [wire] at waiting
      cases waiting

/-- Nothing has happened on the links of a session. -/
structure Newborn (session : Session) (state : State engine) : Prop where
  quiet : ∀ ptr ∈ session.links, state.proxy.traffic.Quiet ptr
  servedOn : ∀ ptr ∈ session.links, state.servedOn ptr = []

/-- How a step affects the sessions it does not concern. -/
structure Steps (cfg : Config) (before : State engine) (sessions : List Session)
    (event : Event) (after : State engine) (later : List Session) : Prop where
  sane : Sane cfg after later
  kept : ∀ session ∈ sessions, session ∈ later
  newborn : ∀ session ∈ later, session ∉ sessions → Newborn session after
  untouched : ∀ session ∈ sessions,
    (∀ link, event.link? = some link → link ∉ session.links) →
      Untouched session before after
  pid : after.proxy.pid = before.proxy.pid
  pool : before.proxy.freeConnPool <+: after.proxy.freeConnPool
  served : after.datalets = before.datalets ∨
    ∃ link addr req frame, State.Handled before link addr req frame after

namespace Sane

variable {cfg : Config} {state after : State engine} {sessions : List Session}
variable {session : Session} {link : LinkPtr} {event : Event}

/-- A step within one session. -/
theorem steps_of_within (sane : Sane cfg state sessions)
    (member : session ∈ sessions) (inside : link ∈ session.links)
    (concerns : event.link? = some link) (within : StepWithin session state after) :
    Steps cfg state sessions event after sessions where
  sane := within.sane member sane
  kept := fun _ kept => kept
  newborn := fun _ listed unlisted => absurd listed unlisted
  untouched := by
    intro other otherMember elsewhere
    have outside : ∀ ptr ∈ other.links, ptr ∉ session.links := by
      intro ptr otherInside ptrInside
      have same := sane.wired.session_unique member otherMember ptrInside otherInside
      exact elsewhere link concerns (same ▸ inside)
    exact ⟨fun ptr inside => within.sameAt (outside ptr inside),
      fun ptr inside => within.flags ptr (outside ptr inside),
      fun ptr inside => within.servedOn (outside ptr inside), within.drops.pool⟩
  pid := within.pid
  pool := within.drops.pool
  served := within.served.imp_right fun ⟨link, _, handled⟩ => ⟨link, handled⟩

private theorem steps_of_idle (sane : Sane cfg state sessions)
    (still : state.proxy.Becomes state.proxy.traffic after.proxy)
    (datalets : after.datalets = state.datalets) :
    Steps cfg state sessions event after sessions := by
  have pid : after.proxy.pid = state.proxy.pid := congrArg Shape.pid still.shape
  have peer : ∀ ptr, (after.proxy.links ptr).peer = (state.proxy.links ptr).peer :=
    fun ptr => congrArg LinkInfo.peer (congrFun (congrArg Shape.info still.shape) ptr)
  have pool := (Proxy.Drops.of_shape still.shape).pool
  refine ⟨⟨still.shape ▸ sane.wired, still.traffic ▸ sane.quiet, still.traffic ▸ sane.tidy,
    still.traffic ▸ pid ▸ sane.stamped, ?_⟩, fun _ kept => kept,
    fun _ listed unlisted => absurd listed unlisted, fun session _ _ =>
      ⟨fun ptr _ => still.traffic ▸ ⟨rfl, rfl, rfl, rfl, rfl⟩,
        fun ptr _ => congrFun still.flags ptr, fun ptr _ => ?_, pool⟩, pid, pool,
    .inl datalets⟩
  · intro addr entry logged ptr conn
    rw [datalets] at logged
    rw [State.connOf, pid] at conn
    rw [peer]
    exact sane.logged addr entry logged ptr conn
  · rw [State.servedOn_congr still.shape datalets]

/-- Every step concerns one session or connects a new one. -/
theorem step (sane : Sane cfg state sessions)
    (moved : state.step cfg event = .ok after) :
    ∃ later, Steps cfg state sessions event after later := by
  cases event with
  | accept uninit =>
      obtain ⟨session, accepted, withProxy, traffic, later⟩ := sane.accept moved
      have pid : after.proxy.pid = state.proxy.pid := by
        rw [accepted.frame]
      have datalets : after.datalets = state.datalets := by
        rw [withProxy]
        rfl
      have pool : state.proxy.freeConnPool <+: after.proxy.freeConnPool := by
        rw [accepted.frame]
      refine ⟨_, later, fun _ kept => List.mem_append_left _ kept, ?_, ?_, pid, pool,
        .inl datalets⟩
      · intro other listed unlisted
        have isNew : other = session := by
          rcases List.mem_append.mp listed with old | new
          · exact absurd old unlisted
          · exact List.mem_singleton.mp new
        subst isNew
        refine ⟨fun ptr inside => ?_, fun ptr inside => ?_⟩
        · rw [traffic]
          exact sane.quiet_beyond (accepted.range ptr inside).1
        · -- nothing was logged on a connection that did not exist
          simp only [State.servedOn]
          split
          next addr _ =>
            simp only [List.map_eq_nil_iff, List.filter_eq_nil_iff, decide_eq_true_eq]
            intro entry logged conn
            rw [datalets] at logged
            rw [State.connOf, pid] at conn
            obtain ⟨owner, member, owns, _⟩ := sane.logged addr entry logged ptr conn
            have small := (sane.wired.established owner member).bounded ptr
              (Session.backend_mem owns)
            exact Nat.lt_irrefl _ (Nat.lt_of_lt_of_le small (accepted.range ptr inside).1)
          · rfl
      · intro other member _
        have same : ∀ ptr ∈ other.links, after.proxy.links ptr = state.proxy.links ptr :=
          fun ptr inside => accepted.same ptr
            (.inl ((sane.wired.established other member).bounded ptr inside))
        refine ⟨fun ptr inside => ?_, fun ptr inside => ?_, fun ptr inside => ?_, pool⟩
        · rw [traffic]
          exact ⟨rfl, rfl, rfl, rfl, rfl⟩
        · rw [Proxy.flags, Proxy.flags, same ptr inside]
        · unfold State.servedOn State.connOf
          rw [same ptr inside, datalets, pid]
  | request client msg freed =>
      obtain ⟨session, member, rfl, within⟩ := sane.request_within moved
      exact ⟨_, sane.steps_of_within member session.client_mem rfl within⟩
  | response link =>
      obtain ⟨session, member, inside, within⟩ := sane.response_within moved
      exact ⟨_, sane.steps_of_within member (Session.backend_mem inside) rfl within⟩
  | writable link written =>
      rcases sane.writable_within moved with
        ⟨session, member, inside, within⟩ | ⟨still, same⟩
      · exact ⟨_, sane.steps_of_within member inside rfl within⟩
      · have datalets : after.datalets = state.datalets := by
          rw [same]
          rfl
        exact ⟨_, sane.steps_of_idle still datalets⟩
  | serve link =>
      obtain ⟨session, member, inside, within⟩ := sane.serve_within moved
      exact ⟨_, sane.steps_of_within member (Session.backend_mem inside) rfl within⟩

/-- A property of sessions that holds of new ones, and that the steps on a session's
own links preserve, holds of every session in every reachable state. -/
theorem invariant {P : Session → State engine → Prop} {guard : State engine → Event → Prop}
    (newborn : ∀ state sessions session, Sane cfg state sessions → session ∈ sessions →
      Newborn session state → P session state)
    (untouched : ∀ before after session, Untouched session before after →
      P session before → P session after)
    (own : ∀ state sessions session event after link, Sane cfg state sessions →
      session ∈ sessions → event.link? = some link → link ∈ session.links →
      guard state event → state.step cfg event = .ok after → P session state →
      P session after)
    (run : Transition.Runs (State.step cfg) guard (State.init engine) state) :
    ∃ sessions, Sane cfg state sessions ∧ ∀ session ∈ sessions, P session state := by
  refine run.invariant
    (fun state => ∃ sessions, Sane cfg state sessions ∧ ∀ session ∈ sessions, P session state)
    ?_ ⟨[], .init cfg, by simp⟩
  rintro state event after ⟨sessions, sane, holds⟩ admitted moved
  obtain ⟨later, steps⟩ := sane.step moved
  refine ⟨later, steps.sane, fun session listed => ?_⟩
  by_cases old : session ∈ sessions
  · by_cases concerned : ∃ link, event.link? = some link ∧ link ∈ session.links
    · obtain ⟨link, concerns, inside⟩ := concerned
      exact own state sessions session event after link sane old concerns inside admitted
        moved (holds session old)
    · push Not at concerned
      exact untouched state after session (steps.untouched session old concerned)
        (holds session old)
  · exact newborn after later session steps.sane listed (steps.newborn session listed old)

/-- Sessions last. -/
theorem session_of_run {guard : State engine → Event → Prop}
    (sane : Sane cfg state sessions) (member : session ∈ sessions)
    (run : Transition.Runs (State.step cfg) guard state after) :
    ∃ later, Sane cfg after later ∧ session ∈ later := by
  refine run.invariant (fun state => ∃ sessions, Sane cfg state sessions ∧ session ∈ sessions)
    ?_ ⟨sessions, sane, member⟩
  rintro before event next ⟨current, sane, member⟩ admitted moved
  obtain ⟨later, steps⟩ := sane.step moved
  exact ⟨later, steps.sane, steps.kept session member⟩

/-- In a system with one proxy, datalets serve its connections only. -/
theorem local_of_run {guard : State engine → Event → Prop}
    (run : Transition.Runs (State.step cfg) guard (State.init engine) state) :
    ∀ addr, ∀ entry ∈ (state.datalets addr).log, ∃ ptr, entry.conn = state.connOf ptr := by
  have whole := run.invariant
    (fun state => (∃ sessions, Sane cfg state sessions) ∧
      ∀ addr, ∀ entry ∈ (state.datalets addr).log, ∃ ptr, entry.conn = state.connOf ptr)
    ?_ ⟨⟨[], .init cfg⟩, by simp [State.init]⟩
  · exact whole.2
  · rintro state event after ⟨⟨sessions, sane⟩, holds⟩ admitted moved
    obtain ⟨later, steps⟩ := sane.step moved
    refine ⟨⟨later, steps.sane⟩, fun addr entry logged => ?_⟩
    have same : ∀ ptr, after.connOf ptr = state.connOf ptr := by
      intro ptr
      rw [State.connOf, State.connOf, steps.pid]
    simp only [same]
    rcases steps.served with still | ⟨link, served, req, frame, handled⟩
    · rw [still] at logged
      exact holds addr entry logged
    · rcases handled.mem_log logged with old | ⟨_, rfl⟩
      · exact holds addr entry old
      · exact ⟨link, rfl⟩

/-- The session found by following the pointers of a client link. -/
theorem sessionOf_eq (sane : Sane cfg state sessions)
    (indexes : Proxy.indexesSlaves cfg = true) (member : session ∈ sessions)
    {master : LinkPtr} (server : session.server = some master) :
    state.proxy.sessionOf session.client = session := by
  have info := congrArg LinkInfo.dataletConn (sane.client_info member)
  change (state.proxy.links session.client).dataletConn = session.server at info
  have slaves := sane.wired.getSlaves_eq indexes member server
  simp only [Proxy.sessionOf, info, server, slaves]
  rw [← server]

/-! ## Arrivals -/

/-- One frame adds one segment to the history of its client. -/
theorem segment_received {ctx next : Ctx} {conn : LinkPtr} {frame : Frame}
    {rest : List Frame} {freed : Nat → Key → Key} {continues : Bool}
    (handled : ctx.reqSegment cfg conn frame rest freed = .ok (continues, next)) :
    ∃ req : Buffer, req.content = .frames [frame] ∧
      next.proxy.received =
        Function.update ctx.proxy.received conn (ctx.proxy.received conn ++ [req]) := by
  obtain ⟨mapped, out, server, _, _, _, moved, _⟩ := Ctx.reqSegment_effect handled
  refine ⟨Ctx.segment mapped conn out frame, rfl, ?_⟩
  have received : next.proxy.traffic.received = _ := congrArg Traffic.received moved.traffic
  change next.proxy.received = _ at received
  rw [received]
  cases continues with
  | true =>
      simp only [if_true, Ctx.forwarded, Traffic.fan_received]
      change (Traffic.fan _ _ _).received = _
      rw [Traffic.fan_received]
      rfl
  | false => rfl

/-- A read of one frame from a healthy client link adds one segment. -/
theorem received_single {client : LinkPtr} {frame : Frame} {freed : Nat → Key → Key}
    (healthy : (state.proxy.links client).error = false)
    (moved : state.step cfg (.request client (some [frame]) freed) = .ok after) :
    ∃ req : Buffer, req.content = .frames [frame] ∧
      after.proxy.received client = state.proxy.received client ++ [req] := by
  simp only [State.step, State.recvRequest] at moved
  split at moved
  · cases moved
  split at moved
  next error =>
    rw [healthy] at error
    cases error
  split at moved
  next next handled =>
    cases moved
    simp only [Ctx.reqRecv, Ctx.reqLoop] at handled
    split at handled
    · cases handled
    all_goals
      next segment =>
        cases handled
        obtain ⟨req, content, received⟩ := segment_received segment
        exact ⟨req, content, (congrFun received client).trans (Function.update_self ..)⟩
  · cases moved

/-- The segments a step adds to the history of a client are the first frames of what
it read, in order. -/
theorem received_request {client : LinkPtr} {frames : List Frame} {freed : Nat → Key → Key}
    (moved : state.step cfg (.request client (some frames) freed) = .ok after) :
    ∃ new : List Buffer,
      after.proxy.received =
        Function.update state.proxy.received client (state.proxy.received client ++ new) ∧
      new.map Buffer.content <+: frames.map fun frame => .frames [frame] := by
  simp only [State.step, State.recvRequest] at moved
  split at moved
  · cases moved
  split at moved
  · cases moved
    exact ⟨[], by simp, by simp⟩
  split at moved
  next next handled =>
    cases moved
    have finished := Ctx.reqLoop_induction
      (P := fun ctx left => ∃ (new : List Buffer) (extra : List Frame),
        ctx.proxy.received =
          Function.update state.proxy.received client (state.proxy.received client ++ new) ∧
        new.map Buffer.content ++ extra.map (fun frame => .frames [frame]) =
          frames.map (fun frame => .frames [frame]) ∧ (left = extra ∨ left = []))
      ⟨[], frames, by simp, by simp, .inl rfl⟩ ?_ handled
    · obtain ⟨new, extra, received, whole, _⟩ := finished
      exact ⟨new, received, extra.map _, whole⟩
    · rintro ctx frame rest continues later ⟨new, extra, received, whole, left⟩ segment
      obtain ⟨req, content, grown⟩ := segment_received segment
      have shape : extra = frame :: rest := by
        rcases left with same | none
        · exact same.symm
        · cases none
      subst shape
      refine ⟨new ++ [req], rest, ?_, ?_, ?_⟩
      · rw [grown, received]
        simp
      · simpa [content] using whole
      · cases continues with
        | true => exact .inl rfl
        | false => exact .inr rfl
  · cases moved

/-- What a client sent and what it was sent. -/
private def history (traffic : Traffic) :
    (LinkPtr → List Buffer) × (LinkPtr → List Buffer) := (traffic.received, traffic.delivered)

/-- Reading an answer changes neither what clients sent nor what they were sent. -/
theorem history_response (moved : state.step cfg (.response link) = .ok after) :
    after.proxy.received = state.proxy.received ∧
      after.proxy.delivered = state.proxy.delivered := by
  rw [← Prod.mk.injEq]
  obtain ⟨reply, replies, arrived, responded⟩ := State.recvResponse_cases moved
  cases responded with
  | ignored error same => rw [same]
  | server healthy isServer handled same =>
      subst same
      cases handled with
      | chain strong fwd found sent moved => exact congrArg history moved.traffic
      | direct notChain unlocked sent owner moved =>
          exact congrArg history moved.traffic
      | unlock locked held sent owner traffic => exact congrArg history traffic
  | replica healthy isReplica found handled same =>
      subst same
      cases handled with
      | next strong fwd inner number sent moved =>
          exact congrArg history moved.traffic
      | last strong fwd outer sent owner moved =>
          exact congrArg history moved.traffic
      | read strong fwd tail sent owner traffic => exact congrArg history traffic
      | dropped unused moved => exact congrArg history moved.traffic

private theorem received_writable {written : Bool}
    (moved : state.step cfg (.writable link written) = .ok after) :
    after.proxy.received = state.proxy.received := by
  obtain ⟨proxy, rfl, wrote⟩ := State.sendOn_cases moved
  cases wrote with
  | idle nothing still => exact congrArg Traffic.received still.traffic
  | delivered isClient queued complete moved => exact congrArg Traffic.received moved.traffic
  | failed queued incomplete lost => exact congrArg Traffic.received lost.traffic
  | sent isDatalet queued moved => exact congrArg Traffic.received moved.traffic

/-- Only reads from a client change the history of its requests. -/
theorem received_step {client : LinkPtr} (sane : Sane cfg state sessions)
    (moved : state.step cfg event = .ok after)
    (other : ∀ frames freed, event ≠ .request client (some frames) freed) :
    after.proxy.received client = state.proxy.received client := by
  cases event with
  | accept uninit =>
      obtain ⟨session, accepted, withProxy, traffic, later⟩ := sane.accept moved
      exact congrFun (congrArg Traffic.received traffic) client
  | request source msg freed =>
      cases msg with
      | none => rcases State.recvRequest_none moved with rfl | rfl <;> rfl
      | some frames =>
          obtain ⟨new, received, _⟩ := received_request moved
          have different : client ≠ source := by
            rintro rfl
            exact other frames freed rfl
          rw [received, Function.update_of_ne different]
  | response link => rw [(history_response moved).1]
  | writable link written => rw [received_writable moved]
  | serve link =>
      obtain ⟨addr, req, frame, handled⟩ := State.serveOn_cases moved
      exact congrFun (congrArg Traffic.received handled.moved.traffic) client

/-- What holds of all frames a client may send holds of all segments received. -/
theorem received_frames {guard : State engine → Event → Prop} {client : LinkPtr}
    (Q : Frame → Prop)
    (admits : ∀ state frames freed, guard state (.request client (some frames) freed) →
      ∀ frame ∈ frames, Q frame)
    (run : Transition.Runs (State.step cfg) guard (State.init engine) state) :
    ∀ req ∈ state.proxy.received client, ∃ frame, req.content = .frames [frame] ∧ Q frame := by
  have whole := run.invariant
    (fun state => (∃ sessions, Sane cfg state sessions) ∧
      ∀ req ∈ state.proxy.received client, ∃ frame, req.content = .frames [frame] ∧ Q frame)
    ?_ ⟨⟨[], .init cfg⟩, by simp [State.init]⟩
  · exact whole.2
  · rintro state event after ⟨⟨sessions, sane⟩, holds⟩ admitted moved
    obtain ⟨later, steps⟩ := sane.step moved
    refine ⟨⟨later, steps.sane⟩, ?_⟩
    by_cases arrival : ∃ frames freed, event = .request client (some frames) freed
    · obtain ⟨frames, freed, rfl⟩ := arrival
      obtain ⟨new, received, contents⟩ := received_request moved
      intro req arrived
      rw [received, Function.update_self, List.mem_append] at arrived
      rcases arrived with old | fresh
      · exact holds req old
      · have listed := contents.subset (List.mem_map_of_mem fresh)
        obtain ⟨frame, sent, content⟩ := List.mem_map.mp listed
        exact ⟨frame, content.symm, admits state frames freed admitted frame sent⟩
    · push Not at arrival
      rw [sane.received_step moved arrival]
      exact holds

/-- What was received stays received. -/
theorem received_prefix {guard : State engine → Event → Prop}
    (sane : Sane cfg state sessions)
    (run : Transition.Runs (State.step cfg) guard state after) (client : LinkPtr) :
    state.proxy.received client <+: after.proxy.received client := by
  have whole := run.invariant
    (fun later => (∃ sessions, Sane cfg later sessions) ∧
      state.proxy.received client <+: later.proxy.received client)
    ?_ ⟨⟨sessions, sane⟩, List.prefix_refl _⟩
  · exact whole.2
  · rintro before event later ⟨⟨sessions, sane⟩, grown⟩ admitted moved
    obtain ⟨others, steps⟩ := sane.step moved
    refine ⟨⟨others, steps.sane⟩, grown.trans ?_⟩
    by_cases arrival : ∃ frames freed, event = .request client (some frames) freed
    · obtain ⟨frames, freed, rfl⟩ := arrival
      obtain ⟨new, received, _⟩ := received_request moved
      rw [received, Function.update_self]
      exact List.prefix_append _ _
    · push Not at arrival
      rw [sane.received_step moved arrival]

end Sane

end BespoKV
