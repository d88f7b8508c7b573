import BespoKV.Chain.Invariant
import BespoKV.Proxy.Alignment
import BespoKV.Wire.RoundTrip

/-!
# Replies cut by the network

A read of a datalet link returns any number of bytes that have arrived, and the reply
handlers take every read for one reply.  This module replaces the reads of whole replies
in the system by reads of bytes.  Requests and replies stay matched in runs in which every
read returns exactly one reply, and such runs are runs of the system with whole replies.
-/

namespace BespoKV

open Pipes

/-- Replies on the wire, and what the bytes of a read are to those who get them. -/
structure Framing where
  encode : Reply → Bytes
  content : Bytes → Content
  encode_ne_nil : ∀ reply, encode reply ≠ []
  content_encode : ∀ reply, content (encode reply) = .reply reply

namespace Framing

variable (framing : Framing)

/-- The replies of which a byte is left after the first `size` bytes, and how many bytes
of the first one are gone. -/
def consume : List Reply → Nat → List Reply × Nat
  | [], _ => ([], 0)
  | reply :: replies, size =>
      if (framing.encode reply).length ≤ size then
        consume replies (size - (framing.encode reply).length)
      else (reply :: replies, size)

theorem consume_zero (replies : List Reply) : framing.consume replies 0 = (replies, 0) := by
  cases replies with
  | nil => rfl
  | cons reply replies =>
      have some := List.length_pos_of_ne_nil (framing.encode_ne_nil reply)
      exact if_neg (Nat.not_le.mpr some)

/-- A whole reply. -/
theorem consume_whole (reply : Reply) (replies : List Reply) :
    framing.consume (reply :: replies) (framing.encode reply).length = (replies, 0) := by
  rw [consume, if_pos le_rfl, Nat.sub_self, consume_zero]

end Framing

/-- The system, with the number of bytes read of the oldest reply on each link. -/
structure Cut (engine : Engine) where
  state : State engine
  offset : LinkPtr → Nat

/-- What the scheduler can choose: a read of `size` bytes of a datalet link, or any event
other than a read of one. -/
inductive Cut.Event where
  | read (link : LinkPtr) (size : Nat)
  | other (event : BespoKV.Event)

namespace Cut

variable {engine : Engine}

def init (engine : Engine) : Cut engine := ⟨State.init engine, fun _ => 0⟩

/-- The bytes on a connection that have not been read. -/
def unread (framing : Framing) (cut : Cut engine) (link : LinkPtr) : Bytes :=
  ((cut.state.proxy.wire link).rsp.flatMap framing.encode).drop (cut.offset link)

/-- `msg_read` leaves the replies that have not been read to their end. -/
def leave (proxy : Proxy) (link : LinkPtr) (replies : List Reply) : Proxy :=
  { proxy with
    wire := Function.update proxy.wire link { proxy.wire link with rsp := replies } }

/-- `NetworkServer::recv` on a datalet link, where `msg_read` returns `size` bytes: at least
one, and not more than its buffer holds. -/
def readOn (framing : Framing) (cfg : Config) (cut : Cut engine) (link : LinkPtr)
    (size : Nat) : Except Fault (Cut engine) :=
  let bytes := cut.unread framing link
  if size = 0 ∨ 8192 < size ∨ bytes.length < size then
    .error .disabled
  else if (cut.state.proxy.links link).error then
    .ok cut
  else
    let left := framing.consume (cut.state.proxy.wire link).rsp (cut.offset link + size)
    let offset := Function.update cut.offset link left.2
    let ctx : Ctx := { cut.state.toCtx with proxy := leave cut.state.proxy link left.1 }
    let msg : Buffer := { content := framing.content (bytes.take size) }
    match (cut.state.proxy.links link).nwFunc with
    | .response =>
        match ctx.rspRecv cfg link (some msg) with
        | .ok ctx => .ok ⟨cut.state.withCtx ctx, offset⟩
        | .error fault => .error fault
    | .replica =>
        match ctx.proxy.replicaRspRecv cfg link (some msg) with
        | .ok proxy => .ok ⟨cut.state.withProxy proxy, offset⟩
        | .error fault => .error fault
    | _ => .error .disabled

/-- One step of the system with reads of bytes. -/
def step (framing : Framing) (cfg : Config) (cut : Cut engine) :
    Event → Except Fault (Cut engine)
  | .read link size => cut.readOn framing cfg link size
  | .other (.response _) => .error .disabled
  | .other event =>
      match cut.state.step cfg event with
      | .ok state => .ok ⟨state, cut.offset⟩
      | .error fault => .error fault

/-- The next replica of the chain after the datalet of a link. -/
def nextReplica (cfg : Config) (proxy : Proxy) (link : LinkPtr) : Option LinkPtr :=
  match (proxy.links link).nwFunc with
  | .response =>
      match proxy.getSlaveNumber link 0 with
      | .ok slave => slave
      | .error _ => none
  | .replica =>
      if (proxy.links link).slaveNumber < cfg.replicas - 1 then
        match proxy.getMasterOfSlave link with
        | some master =>
            match proxy.getSlaveNumber master ((proxy.links link).slaveNumber + 1) with
            | .ok slave => slave
            | .error _ => none
        | none => none
      else none
  | _ => none

/-- The flag that sends the requests of a link along the chain: the one of the master link
of its client. -/
def forwards (proxy : Proxy) (link : LinkPtr) : Bool :=
  match (proxy.links link).nwFunc with
  | .response => (proxy.links link).fwdToReplicas
  | _ =>
      match proxy.getMasterOfSlave link with
      | some master => (proxy.links master).fwdToReplicas
      | none => false

/-- A read returns exactly one reply, from its first byte to its last.  If it is, in chain
mode, the reply to a write that has further to go, the flag of the master link still says
so. -/
def Whole (framing : Framing) (cfg : Config) (cut : Cut engine) : Event → Prop
  | .read link size =>
      cut.offset link = 0 ∧
        (∀ reply ∈ (cut.state.proxy.wire link).rsp.head?, size = (framing.encode reply).length) ∧
        (cfg.msStrongCr = true → (nextReplica cfg cut.state.proxy link).isSome = true →
          ∀ pmsg ∈ (cut.state.proxy.links link).omsgQ.head?, pmsg.isSet = true →
            forwards cut.state.proxy link = true)
  | .other _ => True

instance (framing : Framing) (cfg : Config) (cut : Cut engine) :
    DecidablePred (cut.Whole framing cfg) := fun event =>
  match event with
  | .read _ _ => inferInstanceAs (Decidable (_ ∧ _ ∧ _))
  | .other _ => isTrue trivial

/-- The event of the system with whole replies. -/
def Event.whole : Event → BespoKV.Event
  | .read link _ => .response link
  | .other event => event

variable {framing : Framing} {cfg : Config} {cut after : Cut engine} {link : LinkPtr}
variable {size : Nat}

/-- A read of one reply is a read in the system with whole replies. -/
theorem readOn_whole (start : cut.offset link = 0)
    (whole : ∀ reply ∈ (cut.state.proxy.wire link).rsp.head?,
      size = (framing.encode reply).length)
    (moved : cut.readOn framing cfg link size = .ok after) :
    cut.state.recvResponse cfg link = .ok after.state ∧ after.offset = cut.offset := by
  cases arrived : (cut.state.proxy.wire link).rsp with
  | nil =>
      rw [readOn, if_pos] at moved
      · cases moved
      · simp only [unread, arrived, List.flatMap_nil, List.drop_nil, List.length_nil]
        omega
  | cons reply replies =>
      have exact : size = (framing.encode reply).length := whole reply (by simp [arrived])
      subst exact
      have bytes : (cut.unread framing link).take (framing.encode reply).length =
          framing.encode reply := by
        simp [unread, arrived, start]
      have offset : Function.update cut.offset link 0 = cut.offset := by
        rw [← start, Function.update_eq_self]
      unfold readOn at moved
      unfold State.recvResponse
      rw [arrived] at moved ⊢
      simp only [start, Nat.zero_add, framing.consume_whole, bytes, framing.content_encode,
        offset] at moved
      split at moved
      · cases moved
      split at moved
      next error =>
        cases moved
        simp [error]
      next healthy =>
        have taken : leave cut.state.proxy link replies =
            State.takeReply cut.state.proxy link := by
          simp [leave, State.takeReply, arrived]
        rw [taken] at moved
        simp only [healthy, Bool.false_eq_true, if_false]
        cases kind : (cut.state.proxy.links link).nwFunc with
        | response =>
            rw [kind] at moved
            dsimp only at moved ⊢
            cases handled : Ctx.rspRecv cfg
                { cut.state.toCtx with proxy := State.takeReply cut.state.proxy link } link
                (some { content := .reply reply }) with
            | error fault =>
                rw [handled] at moved
                cases moved
            | ok ctx =>
                rw [handled] at moved
                cases moved
                exact ⟨rfl, rfl⟩
        | replica =>
            rw [kind] at moved
            dsimp only at moved ⊢
            cases handled : Proxy.replicaRspRecv cfg (State.takeReply cut.state.proxy link) link
                (some { content := .reply reply }) with
            | error fault =>
                rw [handled] at moved
                cases moved
            | ok proxy =>
                rw [handled] at moved
                cases moved
                exact ⟨rfl, rfl⟩
        | unset | request =>
            rw [kind] at moved
            cases moved

/-- A step with whole reads is a step of the system with whole replies. -/
theorem step_whole {event : Event} (starts : ∀ link, cut.offset link = 0)
    (whole : cut.Whole framing cfg event) (moved : cut.step framing cfg event = .ok after) :
    cut.state.step cfg event.whole = .ok after.state ∧ ∀ link, after.offset link = 0 := by
  cases event with
  | read link size =>
      obtain ⟨received, offset⟩ := readOn_whole whole.1 whole.2.1 moved
      exact ⟨received, fun other => offset ▸ starts other⟩
  | other event =>
      cases event with
      | response link => cases moved
      | accept | request | writable | serve =>
          simp only [step] at moved
          split at moved
          next state stepped =>
            cases moved
            exact ⟨stepped, starts⟩
          · cases moved

/-- Runs with whole reads are runs of the system with whole replies. -/
theorem run_whole
    (run : Transition.Runs (step framing cfg) (Whole framing cfg) (init engine) cut) :
    Transition.Runs (State.step cfg) (fun _ _ => True) (State.init engine) cut.state ∧
      ∀ link, cut.offset link = 0 := by
  refine run.invariant
    (fun cut => Transition.Runs (State.step cfg) (fun _ _ => True) (State.init engine) cut.state ∧
      ∀ link, cut.offset link = 0) ?_ ⟨.refl _, fun _ => rfl⟩
  rintro cut event after ⟨reached, starts⟩ whole moved
  obtain ⟨stepped, later⟩ := step_whole starts whole moved
  exact ⟨reached.tail trivial stepped, later⟩

/-- A write whose reply is read goes to the queue of the next replica. -/
theorem forwarded {state after : State engine} {reply : Reply} {next : LinkPtr}
    {pmsg : Buffer} {rest : List Buffer} (chain : cfg.msStrongCr = true)
    (healthy : (state.proxy.links link).error = false)
    (outstanding : (state.proxy.links link).omsgQ = pmsg :: rest)
    (further : nextReplica cfg state.proxy link = some next)
    (flag : forwards state.proxy link = true)
    (responded : State.Responded cfg state link reply after) :
    after.proxy.traffic.imsgQ next = state.proxy.traffic.imsgQ next ++ [pmsg] := by
  have passive : cfg.aaStrong = false := by
    simp only [Config.msStrongCr, Config.msStrong, Bool.and_eq_true, decide_eq_true_eq] at chain
    simp [Config.aaStrong, chain.1.2]
  have pushed : ∀ {sent : List Buffer} {request : Buffer},
      (state.proxy.links link).omsgQ = request :: sent →
      after.proxy.traffic =
        ((State.takeReply state.proxy link).traffic.pop link).push next request →
      after.proxy.traffic.imsgQ next = state.proxy.traffic.imsgQ next ++ [pmsg] := by
    intro sent request same traffic
    rw [outstanding] at same
    cases same
    rw [traffic]
    simp only [Traffic.push_imsgQ, Function.update_self]
    rfl
  cases responded with
  | ignored error =>
      rw [healthy] at error
      cases error
  | server _ isServer handled same =>
      subst same
      simp only [nextReplica, isServer] at further
      simp only [forwards, isServer] at flag
      cases handled with
      | chain _ _ found sent moved _ =>
          change state.proxy.getSlaveNumber link 0 = _ at found
          simp only [found] at further
          cases further
          exact pushed sent moved.traffic
      | direct notChain => exact absurd ⟨chain, flag⟩ notChain
      | unlock locked =>
          rw [passive] at locked
          cases locked
  | @replica _ isReplica master _ found handled same =>
      subst same
      change state.proxy.getMasterOfSlave link = some master at found
      simp only [nextReplica, isReplica, found] at further
      simp only [forwards, isReplica, found] at flag
      split at further
      next inner =>
        cases handled with
        | next _ _ _ number sent moved =>
            have number : state.proxy.getSlaveNumber master
                ((state.proxy.links link).slaveNumber + 1) = _ := number
            simp only [number] at further
            cases further
            exact pushed sent moved.traffic
        | last _ _ tail => exact absurd inner tail
        | read _ lowered =>
            change (state.proxy.links master).fwdToReplicas = false at lowered
            rw [flag] at lowered
            cases lowered
        | dropped unused =>
            rcases unused with other | ⟨lowered, _⟩
            · rw [chain] at other
              cases other
            · change (state.proxy.links master).fwdToReplicas = false at lowered
              rw [flag] at lowered
              cases lowered
      · cases further

/-- The requests written to a datalet link, oldest first. -/
def requests (cut : Cut engine) (link : LinkPtr) : List Buffer :=
  (cut.state.servedOn link).map Prod.fst ++ (cut.state.proxy.wire link).req

/-- The number of replies on a datalet link that have been read to their end. -/
def completed (cut : Cut engine) (link : LinkPtr) : Nat :=
  (cut.state.servedOn link).length - (cut.state.proxy.wire link).rsp.length

/-- One entry has left `omsg_q` for every reply that has been read to its end, and the
entry for every other reply is there. -/
structure Matched (framing : Framing) (cut : Cut engine) (link : LinkPtr) : Prop where
  outstanding : (cut.state.proxy.links link).omsgQ =
    (cut.requests link).drop (cut.completed link)
  nonempty : cut.unread framing link ≠ [] → (cut.state.proxy.links link).omsgQ ≠ []

theorem matched_of_ordered (ordered : (cut.state.pipe link).Ordered) :
    cut.Matched framing link := by
  refine ⟨?_, fun unread => ordered.sent_of_rsp fun silent => unread ?_⟩
  · have sent := ordered.requests
    have aligned : (cut.state.pipe link).pending =
        (cut.state.servedOn link).drop (cut.completed link) := by
      simp [Pipe.pending, State.pipe, completed]
    have within : cut.completed link ≤ ((cut.state.servedOn link).map Prod.fst).length := by
      rw [List.length_map]
      exact Nat.sub_le _ _
    rw [aligned, List.map_drop] at sent
    rw [requests, List.drop_append_of_le_length within]
    exact sent
  · have none : (cut.state.proxy.wire link).rsp = [] := List.map_eq_nil_iff.mp silent
    simp [Cut.unread, none]

/-- Links that are not datalet links have no outstanding requests. -/
theorem ordered_of_aligned {sessions : List Session} (sane : Sane cfg cut.state sessions)
    (aligned : ∀ session ∈ sessions, Aligned session cut.state) (link : LinkPtr) :
    (cut.state.pipe link).Ordered := by
  by_cases backend : ∃ session ∈ sessions, link ∈ session.backend
  · obtain ⟨session, member, inside⟩ := backend
    exact aligned session member link inside
  · have wire : cut.state.proxy.wire link = {} := by
      by_contra busy
      exact backend (sane.backend_of_wire busy)
    have served : cut.state.servedOn link = [] := by
      simp only [State.servedOn]
      split
      next addr _ =>
        simp only [List.map_eq_nil_iff, List.filter_eq_nil_iff, decide_eq_true_eq]
        intro entry logged conn
        obtain ⟨session, member, inside, _⟩ := sane.logged addr entry logged link conn
        exact backend ⟨session, member, inside⟩
      · rfl
    have outstanding : cut.state.proxy.traffic.omsgQ link = [] := by
      by_cases inside : ∃ session ∈ sessions, link ∈ session.links
      · obtain ⟨session, member, inside⟩ := inside
        rcases List.mem_cons.mp inside with rfl | isBackend
        · exact (sane.tidy session member).omsgQ
        · exact absurd ⟨session, member, isBackend⟩ backend
      · push Not at inside
        exact (sane.quiet link inside).omsgQ
    refine Pipe.empty_ordered.congr outstanding ?_ ?_ served
    · simp [State.pipe, wire, Pipe.empty]
    · simp [State.pipe, wire, Pipe.empty]

/-- **Replies are matched with requests** in runs in which every read returns exactly one
reply. -/
theorem replies_matched
    (run : Transition.Runs (step framing cfg) (Whole framing cfg) (init engine) cut) :
    (∀ link, cut.Matched framing link) ∧
    ∀ link size after, cut.Whole framing cfg (.read link size) →
      cut.step framing cfg (.read link size) = .ok after →
      (cut.state.proxy.links link).error = false →
      (after.state.proxy.links link).omsgQ = (cut.state.proxy.links link).omsgQ.tail ∧
      (cfg.msStrongCr = true → ∀ next, nextReplica cfg cut.state.proxy link = some next →
        ∀ pmsg ∈ (cut.state.proxy.links link).omsgQ.head?, pmsg.isSet = true →
          (after.state.proxy.links next).imsgQ = (cut.state.proxy.links next).imsgQ ++ [pmsg]) := by
  obtain ⟨reached, starts⟩ := run_whole run
  obtain ⟨sessions, sane, aligned⟩ := aligned_of_run reached
  refine ⟨fun link => matched_of_ordered (ordered_of_aligned sane aligned link), ?_⟩
  intro link size after whole moved healthy
  obtain ⟨stepped, _⟩ := step_whole starts whole moved
  obtain ⟨reply, replies, arrived, responded⟩ := State.recvResponse_cases stepped
  constructor
  · have popped := congrFun (responded.popped healthy).omsgQ link
    rw [Traffic.pop_omsgQ, Function.update_self] at popped
    exact popped
  · intro chain next further pmsg front isSet
    obtain ⟨rest, outstanding⟩ := List.head?_eq_some_iff.mp front
    have flag := whole.2.2 chain (by rw [further]; rfl) pmsg front isSet
    exact forwarded chain healthy outstanding further flag responded

end Cut

/-! ## Samples -/

/-- The payload stands at the end of a frame. -/
theorem Wire.drop_header (type data : Bytes) :
    (Wire.frame type data).drop (28 + type.length) = data := by
  rw [Wire.frame, ← List.append_assoc, ← List.append_assoc, ← List.append_assoc,
    ← List.append_assoc]
  refine List.drop_left' ?_
  simp only [List.length_append, Octets.le_length]
  omega

/-- The frames that a datalet sends for replies to reads. -/
def Framing.ofProtobuf (proto : Wire.Protobuf) : Framing where
  encode reply := Wire.frame Wire.getMessage (proto.reply reply)
  content bytes :=
    match proto.parseReply (bytes.drop (28 + Wire.getMessage.length)) with
    | some reply => .reply reply
    | none => .frames []
  encode_ne_nil := by
    intro reply empty
    have size := congrArg List.length empty
    rw [Wire.frame_length, List.length_nil] at size
    omega
  content_encode := by
    intro reply
    rw [Wire.drop_header, proto.parse_reply]

namespace Cut

/-- A write travels along a chain; every reply is read by itself. -/
def sampleWhole : List Event :=
  [.other (.accept fun _ => ⟨false, false⟩),
    .other (.request 0 (some [.set [7] [1]]) fun _ => id),
    .other (.writable 2 true), .other (.serve 2), .read 2 50, .other (.writable 1 true)]

theorem replies_matched_sample : ∃ cut : Cut mapEngine,
    (cut.state.proxy.links 1).omsgQ.length = 1 ∧
      ∀ link, cut.Matched (.ofProtobuf .tagged) link := by
  obtain ⟨cut, run, post⟩ := Transition.Runs.exists_of_exec
    (step (.ofProtobuf .tagged) Config.sampleChain)
    (Whole (.ofProtobuf .tagged) Config.sampleChain) (init mapEngine) sampleWhole
    (fun cut => (cut.state.proxy.links 1).omsgQ.length = 1) (by decide)
  simp only [decide_eq_true_eq] at post
  exact ⟨cut, post, (replies_matched run).1⟩

/-- The first three bytes of the reply to a write are read before the others. -/
def samplePart : List Event :=
  [.other (.accept fun _ => ⟨false, false⟩),
    .other (.request 0 (some [.set [7] [1]]) fun _ => id),
    .other (.writable 2 true), .other (.serve 2), .read 2 3]

/-- The replies to two writes are read together. -/
def sampleTogether : List Event :=
  [.other (.accept fun _ => ⟨false, false⟩),
    .other (.request 0 (some [.set [7] [1], .set [7] [2]]) fun _ => id),
    .other (.writable 2 true), .other (.writable 2 true), .other (.serve 2), .other (.serve 2),
    .read 2 100]

/-- A `CHECK` failed. -/
def failsCheck {α : Type} : Except Fault α → Bool
  | .error .check => true
  | _ => false

/-- A reply in two reads: the first one takes the request off `omsg_q`, and the second one
fails the `CHECK` that there is one.  Two replies in one read: only the first of two writes
leaves `omsg_q` and goes to the next replica. -/
theorem replies_mismatched :
    (∃ cut : Cut mapEngine,
      Transition.Runs (step (.ofProtobuf .tagged) Config.sampleChain) (fun _ _ => True)
        (init mapEngine) cut ∧
      cut.completed 2 = 0 ∧ (cut.state.proxy.links 2).omsgQ = [] ∧
      failsCheck (cut.step (.ofProtobuf .tagged) Config.sampleChain (.read 2 47)) = true) ∧
    ∃ cut : Cut mapEngine,
      Transition.Runs (step (.ofProtobuf .tagged) Config.sampleChain) (fun _ _ => True)
        (init mapEngine) cut ∧
      cut.completed 2 = 2 ∧ (cut.state.proxy.links 2).omsgQ.length = 1 ∧
      (cut.state.proxy.links 1).imsgQ.length = 1 := by
  constructor
  · obtain ⟨cut, run, post⟩ := Transition.Runs.exists_of_exec
      (step (.ofProtobuf .tagged) Config.sampleChain) (fun _ _ => True) (init mapEngine) samplePart
      (fun cut => cut.completed 2 = 0 ∧ (cut.state.proxy.links 2).omsgQ = [] ∧
        failsCheck (cut.step (.ofProtobuf .tagged) Config.sampleChain (.read 2 47)) = true)
      (by decide +kernel)
    simp only [decide_eq_true_eq] at post
    exact ⟨cut, run, post⟩
  · obtain ⟨cut, run, post⟩ := Transition.Runs.exists_of_exec
      (step (.ofProtobuf .tagged) Config.sampleChain) (fun _ _ => True) (init mapEngine)
      sampleTogether
      (fun cut => cut.completed 2 = 2 ∧ (cut.state.proxy.links 2).omsgQ.length = 1 ∧
        (cut.state.proxy.links 1).imsgQ.length = 1) (by decide +kernel)
    simp only [decide_eq_true_eq] at post
    exact ⟨cut, run, post⟩

end Cut

end BespoKV
