import BespoKV.Proxy.Traffic

/-!
# A client and its datalet links as a line of pipes

A lane lists the datalet links that the requests of one client visit.  The operations
on traffic are moves of its line when they concern links of the lane, and leave the
line alone when they do not.
-/

namespace BespoKV

open Pipes

/-- A datalet link as a pipe, given what the datalet has served on it. -/
@[simps] def Traffic.pipe (traffic : Traffic) (served : LinkPtr → List (Buffer × Content))
    (ptr : LinkPtr) : Pipe Buffer Content where
  queue := traffic.imsgQ ptr
  sent := traffic.omsgQ ptr
  req := (traffic.wire ptr).req
  rsp := (traffic.wire ptr).rsp.map .reply
  served := served ptr

/-- A client link and the datalet links its requests visit, all different. -/
structure Lane where
  client : LinkPtr
  backend : List LinkPtr
  nonempty : backend ≠ []
  nodup : (client :: backend).Nodup

namespace Lane

variable (lane : Lane) (traffic later : Traffic)
variable (served servedLater : LinkPtr → List (Buffer × Content))

/-- Answers queued for the client or written to it. -/
def replies : List Content :=
  (traffic.delivered lane.client ++ traffic.imsgQ lane.client).map Buffer.content

/-- The line formed by the links of a lane. -/
@[simps] def line : Line Buffer Content where
  stage j :=
    match lane.backend[j]? with
    | some ptr => traffic.pipe served ptr
    | none => Pipe.empty
  last := lane.backend.length - 1
  input := traffic.received lane.client
  output := lane.replies traffic

variable {lane traffic later served servedLater}

theorem backend_nodup : lane.backend.Nodup := lane.nodup.tail

theorem client_notMem : lane.client ∉ lane.backend :=
  (List.nodup_cons.mp lane.nodup).1

theorem last_lt : (lane.line traffic served).last < lane.backend.length :=
  Nat.sub_lt (List.length_pos_iff.mpr lane.nonempty) Nat.one_pos

theorem stage_eq {j : Nat} {ptr : LinkPtr} (place : lane.backend[j]? = some ptr) :
    (lane.line traffic served).stage j = traffic.pipe served ptr := by
  simp [place]

/-- The line depends only on the traffic of the lane's own links. -/
theorem line_congr
    (pipes : ∀ ptr ∈ lane.backend, later.pipe servedLater ptr = traffic.pipe served ptr)
    (received : later.received lane.client = traffic.received lane.client)
    (replies : lane.replies later = lane.replies traffic) :
    lane.line later servedLater = lane.line traffic served := by
  simp only [line, received, replies, Line.mk.injEq, and_true]
  funext j
  cases place : lane.backend[j]? with
  | none => rfl
  | some ptr => exact pipes ptr (List.mem_of_getElem? place)

/-- Two positions of a lane hold different links. -/
theorem place_ne {i j : Nat} {here there : LinkPtr}
    (placeHere : lane.backend[i]? = some here) (placeThere : lane.backend[j]? = some there)
    (different : i ≠ j) : here ≠ there := by
  rintro rfl
  obtain ⟨bound, _⟩ := List.getElem?_eq_some_iff.mp placeHere
  exact different
    ((List.getElem?_inj bound lane.backend_nodup).mp (placeHere.trans placeThere.symm))

/-- A change confined to the `j`-th link of a lane leaves the other pipes alone. -/
theorem stage_elsewhere {j : Nat} {ptr : LinkPtr} (place : lane.backend[j]? = some ptr)
    (same : ∀ other ∈ lane.backend, other ≠ ptr →
      later.pipe servedLater other = traffic.pipe served other) :
    (lane.line traffic served).Elsewhere (lane.line later servedLater) j := by
  refine ⟨rfl, fun i different => ?_⟩
  simp only [line_stage]
  cases placeOther : lane.backend[i]? with
  | none => rfl
  | some other =>
      exact same other (List.mem_of_getElem? placeOther) (place_ne placeOther place different)

theorem place_le {j : Nat} {ptr : LinkPtr} (place : lane.backend[j]? = some ptr) :
    j ≤ (lane.line traffic served).last := by
  obtain ⟨bound, _⟩ := List.getElem?_eq_some_iff.mp place
  exact Nat.le_sub_one_of_lt bound

theorem client_ne {j : Nat} {ptr : LinkPtr} (place : lane.backend[j]? = some ptr) :
    lane.client ≠ ptr := by
  rintro rfl
  exact lane.client_notMem (List.mem_of_getElem? place)

theorem place_last {ptr : LinkPtr} (tail : lane.backend.getLast? = some ptr) :
    lane.backend[lane.backend.length - 1]? = some ptr := by
  rw [← List.getLast?_eq_getElem?]
  exact tail

/-! ## Traffic on the lane -/

section Moves

variable {carried : Buffer → Bool} {ptr next : LinkPtr} {buffer : Buffer} {reply : Reply}
variable {rest : List Buffer} {j : Nat}

/-- A carried request arrives and is queued for the first link. -/
theorem move_enter (first : lane.backend[0]? = some ptr)
    (isCarried : carried buffer = true) :
    (lane.line traffic served).Move carried
      (lane.line ((traffic.receive lane.client buffer).push ptr buffer) served) := by
  have apart := client_ne first
  refine .enter buffer isCarried (stage_elsewhere first fun other _ different => ?_) ?_ ?_ ?_
  · simp [Traffic.pipe, different]
  · rw [stage_eq first, stage_eq first]
    simp [Traffic.pipe, Pipe.push]
  · simp
  · simp [replies, apart]

/-- A request arrives at an idle lane and is queued for the last link. -/
theorem move_enterLast (tail : lane.backend.getLast? = some ptr)
    (idle : (lane.line traffic served).flow = [])
    (notCarried : 1 < lane.backend.length → carried buffer = false) :
    (lane.line traffic served).Move carried
      (lane.line ((traffic.receive lane.client buffer).push ptr buffer) served) := by
  have place := place_last tail
  have apart := client_ne place
  refine .enterLast buffer idle (stage_elsewhere place fun other _ different => ?_) ?_ ?_ ?_ ?_
  · simp [Traffic.pipe, different]
  · rw [line_last, stage_eq place, stage_eq place]
    simp [Traffic.pipe, Pipe.push]
  · intro several
    exact notCarried (by rw [line_last] at several; omega)
  · simp
  · simp [replies, apart]

/-- The oldest queued request of a link is written. -/
theorem move_send (place : lane.backend[j]? = some ptr)
    (queued : traffic.imsgQ ptr = buffer :: rest) :
    (lane.line traffic served).Move carried
      (lane.line (traffic.transmit ptr buffer) served) := by
  have apart := client_ne place
  refine .send j buffer (place_le place)
    (stage_elsewhere place fun other _ different => ?_) ?_ ?_ ?_
  · simp [Traffic.pipe, different]
  · rw [stage_eq place, stage_eq place]
    exact ⟨rest, queued, by simp [Traffic.pipe, queued]⟩
  · simp
  · simp [replies, apart]

/-- The datalet of a link serves its oldest request. -/
theorem move_serve (place : lane.backend[j]? = some ptr)
    (waiting : (traffic.wire ptr).req = buffer :: rest)
    (grown : servedLater ptr = served ptr ++ [(buffer, .reply reply)])
    (same : ∀ other ∈ lane.backend, other ≠ ptr → servedLater other = served other) :
    (lane.line traffic served).Move carried
      (lane.line (traffic.serve ptr reply) servedLater) := by
  refine .serve j buffer (.reply reply) (place_le place)
    (stage_elsewhere place fun other member different => ?_) ?_ ?_ ?_
  · simp [Traffic.pipe, different, same other member different]
  · rw [stage_eq place, stage_eq place]
    exact ⟨rest, waiting, by simp [Traffic.pipe, waiting, grown]⟩
  · simp
  · simp [replies]

variable (served) in
private theorem take_pipe (answered : (traffic.omsgQ ptr) = buffer :: rest)
    {replies : List Reply} (arrived : (traffic.wire ptr).rsp = reply :: replies) :
    (traffic.pipe served ptr).Take buffer (.reply reply)
      (((traffic.read ptr).pop ptr).pipe served ptr) :=
  ⟨rest, replies.map .reply, answered, by simp [arrived],
    by simp [Traffic.pipe, answered, arrived]⟩

/-- An answer arrives and its request is queued for the next link. -/
theorem move_hand (place : lane.backend[j]? = some ptr)
    (placeNext : lane.backend[j + 1]? = some next)
    (answered : traffic.omsgQ ptr = buffer :: rest)
    {replies : List Reply} (arrived : (traffic.wire ptr).rsp = reply :: replies) :
    (lane.line traffic served).Move carried
      (lane.line (((traffic.read ptr).pop ptr).push next buffer) served) := by
  have apart := client_ne placeNext
  have different := place_ne place placeNext (Nat.ne_add_one j)
  obtain ⟨bound, _⟩ := List.getElem?_eq_some_iff.mp placeNext
  refine .hand j buffer (.reply reply) (by simp; omega) rfl ?_ ?_ ?_ ?_ ?_
  · intro i notHere notNext
    simp only [line_stage]
    cases placeOther : lane.backend[i]? with
    | none => rfl
    | some other =>
        have notPtr := place_ne placeOther place notHere
        have notNextPtr := place_ne placeOther placeNext notNext
        simp [Traffic.pipe, notPtr, notNextPtr]
  · rw [stage_eq place, stage_eq place]
    have taken := take_pipe served answered arrived
    simpa [Traffic.pipe, different] using taken
  · rw [stage_eq placeNext, stage_eq placeNext]
    simp [Traffic.pipe, Pipe.push, different.symm]
  · simp
  · simp [Lane.replies, apart]

/-- An answer arrives at the last link and is queued for the client. -/
theorem move_finish (tail : lane.backend.getLast? = some ptr)
    (answered : traffic.omsgQ ptr = buffer :: rest)
    {replies : List Reply} (arrived : (traffic.wire ptr).rsp = reply :: replies)
    {message : Buffer} (content : message.content = .reply reply) :
    (lane.line traffic served).Move carried
      (lane.line (((traffic.read ptr).pop ptr).push lane.client message) served) := by
  have place := place_last tail
  refine .finish buffer (.reply reply)
    (stage_elsewhere place fun other member different => ?_) ?_ ?_ ?_
  · have notClient : other ≠ lane.client := by
      rintro rfl
      exact lane.client_notMem member
    simp [Traffic.pipe, different, notClient]
  · rw [line_last, stage_eq place, stage_eq place]
    have taken := take_pipe served answered arrived
    simpa [Traffic.pipe, (client_ne place).symm] using taken
  · simp
  · simp [Lane.replies, content]

end Moves

/-- Writing the oldest answer to the client does not change the line. -/
theorem line_deliver {buffer : Buffer} {rest : List Buffer}
    (queued : traffic.imsgQ lane.client = buffer :: rest) :
    lane.line (traffic.deliver lane.client buffer) served = lane.line traffic served := by
  refine line_congr (fun ptr member => ?_) (by simp) ?_
  · have notClient : ptr ≠ lane.client := by
      rintro rfl
      exact lane.client_notMem member
    simp [Traffic.pipe, notClient]
  · simp [replies, queued]

end Lane

end BespoKV
