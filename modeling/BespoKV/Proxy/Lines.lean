import BespoKV.Proxy.Lane
import BespoKV.Proxy.Isolation

/-!
# Lines of a session

A lane through links of one session is moved only by steps of this session.  What
writes and datalets do to it does not depend on the mode.
-/

namespace BespoKV

open Pipes

variable {engine : Engine}

/-- The links of a client as a line. -/
def State.line (state : State engine) (lane : Lane) : Line Buffer Content :=
  lane.line state.proxy.traffic state.servedOn

theorem State.line_eq {state after : State engine} (lane : Lane) {traffic : Traffic}
    (moved : after.proxy.traffic = traffic) (shape : after.proxy.shape = state.proxy.shape)
    (datalets : after.datalets = state.datalets) :
    after.line lane = lane.line traffic state.servedOn := by
  rw [State.line, moved, State.servedOn_congr shape datalets]

/-- Copies of a request that are queued on other links do not matter to a lane. -/
theorem Lane.line_copies {lane : Lane} {links : List LinkPtr}
    (outside : ∀ ptr ∈ lane.client :: lane.backend, ptr ∉ links) (traffic : Traffic)
    (served : LinkPtr → List (Buffer × Content)) (target : LinkPtr) (req : Buffer) :
    lane.line ((traffic.fan req links).push target req) served =
      lane.line (traffic.push target req) served := by
  have imsgQ : ∀ ptr ∈ lane.client :: lane.backend,
      ((traffic.fan req links).push target req).imsgQ ptr =
        (traffic.push target req).imsgQ ptr := by
    intro ptr member
    have same := Traffic.fan_other traffic req (outside ptr member)
    by_cases here : ptr = target
    · subst here
      simp [same]
    · simp [here, same]
  refine Lane.line_congr (fun ptr listed => ?_) (by simp) ?_
  · have same := imsgQ ptr (List.mem_cons_of_mem _ listed)
    simp only [Traffic.pipe, same, Traffic.push_omsgQ, Traffic.push_wire, Traffic.fan_omsgQ,
      Traffic.fan_wire]
  · have same := imsgQ lane.client List.mem_cons_self
    simp only [Lane.replies, same, Traffic.push_delivered, Traffic.fan_delivered]

/-- The client of a session and some of its datalet links. -/
structure Lane.Through (lane : Lane) (session : Session) : Prop where
  client : lane.client = session.client
  backend : ∀ ptr ∈ lane.backend, ptr ∈ session.backend

section Lines

variable {cfg : Config} {state after : State engine} {lane : Lane} {session : Session}
variable {sessions : List Session} {link : LinkPtr} {carried : Buffer → Bool}

/-- The line of a client nothing has happened to. -/
theorem Newborn.line_sound (newborn : Newborn session state) (through : lane.Through session) :
    (state.line lane).Sound carried := by
  have quiet := newborn.quiet session.client session.client_mem
  refine .of_empty ?_ (by simp [State.line, through.client, quiet.received])
    (by simp [State.line, Lane.replies, through.client, quiet.delivered, quiet.imsgQ])
  intro j
  simp only [State.line, Lane.line_stage]
  cases place : lane.backend[j]? with
  | none => rfl
  | some ptr =>
      have inside := Session.backend_mem (through.backend ptr (List.mem_of_getElem? place))
      have here := newborn.quiet ptr inside
      simp [Traffic.pipe, here.imsgQ, here.omsgQ, here.wire, newborn.servedOn ptr inside,
        Pipe.empty]

theorem Untouched.line_eq (untouched : Untouched session state after)
    (through : lane.Through session) : after.line lane = state.line lane := by
  have client := untouched.sameAt session.client session.client_mem
  rw [← through.client] at client
  refine Lane.line_congr (fun ptr member => ?_) client.received ?_
  · have inside := Session.backend_mem (through.backend ptr member)
    have same := untouched.sameAt ptr inside
    simp only [Traffic.pipe, same.imsgQ, same.omsgQ, same.wire, untouched.servedOn ptr inside]
  · simp only [Lane.replies, client.delivered, client.imsgQ]

/-! ## Datalets -/

section Handled

variable {addr : AddrType} {req : Buffer} {frame : Frame}

private theorem State.Handled.line_eq (handled : state.Handled link addr req frame after) :
    after.line lane = lane.line
      (state.proxy.traffic.serve link (engine.serve (state.datalets addr).state frame).2)
      after.servedOn := by
  rw [State.line, handled.moved.traffic]

/-- A datalet of the lane serves a request. -/
theorem State.Handled.line_move {j : Nat} (handled : state.Handled link addr req frame after)
    (place : lane.backend[j]? = some link) :
    (state.line lane).Move carried (after.line lane) := by
  obtain ⟨rest, waiting⟩ := handled.waiting
  rw [handled.line_eq]
  exact Lane.move_serve place waiting handled.servedOn_self
    fun other _ different => handled.servedOn_other different

/-- Serving a request neither receives nor answers anything. -/
theorem State.Handled.line_advances (handled : state.Handled link addr req frame after) :
    (state.line lane).Advances carried (after.line lane) := by
  by_cases inside : link ∈ lane.backend
  · obtain ⟨j, place⟩ := List.getElem?_of_mem inside
    refine .moves (handled.line_move place) ?_ ?_
    · rw [handled.line_eq]
      rfl
    · rw [handled.line_eq]
      rfl
  · refine .still ?_
    rw [handled.line_eq]
    refine Lane.line_congr (fun ptr member => ?_) rfl rfl
    have different : ptr ≠ link := by
      rintro rfl
      exact inside member
    simp [Traffic.pipe, different, handled.servedOn_other different]

end Handled

/-! ## Writes -/

/-- Everything queued for a client is an answer of a datalet. -/
theorem State.line_nonempty (sound : (state.line lane).Sound carried) {buffer : Buffer}
    (queued : buffer ∈ (state.proxy.links lane.client).imsgQ) : buffer.nonempty = true := by
  have reported : buffer.content ∈ (state.line lane).output := by
    change buffer.content ∈ List.map _ _
    exact List.mem_map_of_mem (List.mem_append_right _ queued)
  rw [sound.output] at reported
  obtain ⟨pair, answered, content⟩ := List.mem_map.mp reported
  have served := List.mem_of_mem_take answered
  have isReply : ∃ reply, pair.2 = .reply reply := by
    simp only [State.line, Lane.line_stage] at served
    split at served
    · simp only [Traffic.pipe_served, State.servedOn] at served
      split at served
      · obtain ⟨entry, _, rfl⟩ := List.mem_map.mp served
        exact ⟨_, rfl⟩
      · cases served
    · cases served
  obtain ⟨reply, isReply⟩ := isReply
  rw [isReply] at content
  simp [Buffer.nonempty, ← content]

/-- A write on a link of the session, unless it is a write to the client that fails. -/
theorem Lane.Through.wrote {written : Bool} {proxy : Proxy} (through : lane.Through session)
    (sane : Sane cfg state sessions) (member : session ∈ sessions)
    (inside : link ∈ session.links) (sound : (state.line lane).Sound carried)
    (complete : link ∈ lane.client :: lane.backend → written = true)
    (wrote : State.Wrote state.proxy link written proxy) :
    (state.line lane).Advances carried ((state.withProxy proxy).line lane) ∧
      ∀ ptr ∈ lane.backend, proxy.flags ptr = state.proxy.flags ptr := by
  have line : ∀ {traffic : Traffic}, state.proxy.Becomes traffic proxy →
      (state.withProxy proxy).line lane = lane.line traffic state.servedOn :=
    fun becomes => State.line_eq lane becomes.traffic becomes.shape rfl
  have isClient_eq : (state.proxy.links link).nwFunc = .request → link = lane.client := by
    intro isClient
    obtain ⟨owner, ownerMember, rfl⟩ := sane.wired.clients link isClient
    rw [through.client, sane.wired.session_unique member ownerMember inside owner.client_mem]
  cases wrote with
  | idle nothing still => exact ⟨.still (line still), fun ptr _ => congrFun still.flags ptr⟩
  | delivered isClient queued complete moved =>
      have here := isClient_eq isClient
      subst here
      exact ⟨.still ((line moved).trans (Lane.line_deliver queued)), fun ptr _ =>
        congrFun moved.flags ptr⟩
  | failed queued incomplete lost =>
      have outside : link ∉ lane.client :: lane.backend := by
        intro here
        rcases incomplete with lossy | ⟨isClient, empty⟩
        · rw [complete here] at lossy
          cases lossy
        · rw [isClient_eq isClient] at queued
          rw [State.line_nonempty sound (by rw [queued]; exact List.mem_cons_self)] at empty
          cases empty
      have different : ∀ ptr ∈ lane.client :: lane.backend, ptr ≠ link := by
        rintro ptr here rfl
        exact outside here
      refine ⟨.still ?_, fun ptr listed => lost.others ptr ?_⟩
      · have line : (state.withProxy proxy).line lane =
            lane.line (state.proxy.traffic.discard link) state.servedOn :=
          State.line_eq lane lost.traffic lost.shape rfl
        rw [line]
        refine Lane.line_congr (fun ptr listed => ?_) rfl ?_
        · simp [Traffic.pipe, different ptr (List.mem_cons_of_mem _ listed)]
        · simp [Lane.replies, different lane.client List.mem_cons_self]
      · exact different ptr (List.mem_cons_of_mem _ listed)
  | sent isDatalet queued moved =>
      have notClient : link ≠ lane.client := by
        rintro rfl
        have info := sane.client_info member
        rw [← through.client] at info
        rw [info] at isDatalet
        simp at isDatalet
      refine ⟨?_, fun ptr _ => congrFun moved.flags ptr⟩
      by_cases here : link ∈ lane.backend
      · obtain ⟨j, place⟩ := List.getElem?_of_mem here
        refine .moves ?_ (by rw [line moved]; rfl) ?_
        · rw [line moved]
          exact Lane.move_send place queued
        · rw [line moved]
          simp [State.line, Lane.replies, notClient.symm]
      · refine .still ?_
        rw [line moved]
        refine Lane.line_congr (fun ptr listed => ?_) rfl ?_
        · have different : ptr ≠ link := by
            rintro rfl
            exact here listed
          simp [Traffic.pipe, different]
        · simp [Lane.replies, notClient.symm]

end Lines

end BespoKV
