import Mathlib.Data.List.Basic

/-!
# Request pipes without request identifiers

A pipe carries requests to a server and answers back over one ordered
connection.  Requests wait in `queue`, move to `sent` when they are written, travel
in `req` until the server takes them, and their answers travel back in `rsp`.
Nothing but order relates an answer to its request: the consumer pairs the
oldest answer with the oldest sent request.  `served` is the server's history.

`Ordered` is the invariant that makes this pairing right.
-/

namespace Pipes

/-- One ordered connection together with the history of its server. -/
structure Pipe (α β : Type) where
  queue : List α
  sent : List α
  req : List α
  rsp : List β
  served : List (α × β)

namespace Pipe

variable {α β : Type}

/-- A pipe nothing has entered. -/
def empty : Pipe α β := ⟨[], [], [], [], []⟩

/-- Requests that entered the pipe and whose answers have not been taken, oldest
first. -/
def held (pipe : Pipe α β) : List α := pipe.sent ++ pipe.queue

/-- Served requests whose answers have been taken, with those answers. -/
def answered (pipe : Pipe α β) : List (α × β) :=
  pipe.served.take (pipe.served.length - pipe.rsp.length)

/-- Served requests whose answers are still on the way back. -/
def pending (pipe : Pipe α β) : List (α × β) :=
  pipe.served.drop (pipe.served.length - pipe.rsp.length)

/-- Answers and sent requests are aligned: the answers on the way back belong to
the oldest sent requests, and the other sent requests are still to be served. -/
structure Ordered (pipe : Pipe α β) : Prop where
  answers : pipe.rsp = pipe.pending.map Prod.snd
  requests : pipe.sent = pipe.pending.map Prod.fst ++ pipe.req

/-- A new request joins the queue. -/
def push (pipe : Pipe α β) (x : α) : Pipe α β :=
  { pipe with queue := pipe.queue ++ [x] }

/-- The oldest queued request `x` is written to the connection. -/
def Send (pipe : Pipe α β) (x : α) (after : Pipe α β) : Prop :=
  ∃ rest, pipe.queue = x :: rest ∧
    after = { pipe with
      queue := rest, sent := pipe.sent ++ [x], req := pipe.req ++ [x] }

/-- The server takes the oldest request `x` and answers `y`. -/
def Serve (pipe : Pipe α β) (x : α) (y : β) (after : Pipe α β) : Prop :=
  ∃ rest, pipe.req = x :: rest ∧
    after = { pipe with
      req := rest, rsp := pipe.rsp ++ [y], served := pipe.served ++ [(x, y)] }

/-- The oldest answer `y` is taken and paired with the oldest sent request `x`. -/
def Take (pipe : Pipe α β) (x : α) (y : β) (after : Pipe α β) : Prop :=
  ∃ sent rsp, pipe.sent = x :: sent ∧ pipe.rsp = y :: rsp ∧
    after = { pipe with sent := sent, rsp := rsp }

variable {pipe after : Pipe α β} {x : α} {y : β}

theorem answered_append_pending (pipe : Pipe α β) :
    pipe.answered ++ pipe.pending = pipe.served :=
  List.take_append_drop _ _

theorem Ordered.rsp_le (ordered : pipe.Ordered) :
    pipe.rsp.length ≤ pipe.served.length := by
  have lengths := congrArg List.length ordered.answers
  simp only [pending, List.length_map, List.length_drop] at lengths
  omega

/-- An answer on its way back belongs to a sent request. -/
theorem Ordered.sent_of_rsp (ordered : pipe.Ordered) (arrived : pipe.rsp ≠ []) :
    pipe.sent ≠ [] := by
  intro none
  have requests := ordered.requests
  rw [none] at requests
  have silent := (List.append_eq_nil_iff.mp requests.symm).1
  apply arrived
  rw [ordered.answers, List.map_eq_nil_iff.mp silent]
  rfl

/-- A pipe that holds no request has nothing on its connection. -/
theorem Ordered.idle (ordered : pipe.Ordered) (held : pipe.held = []) :
    pipe.queue = [] ∧ pipe.sent = [] ∧ pipe.req = [] ∧ pipe.rsp = [] := by
  obtain ⟨sent, queue⟩ := List.append_eq_nil_iff.mp held
  have requests := ordered.requests
  rw [sent] at requests
  refine ⟨queue, sent, (List.append_eq_nil_iff.mp requests.symm).2, ?_⟩
  by_contra arrived
  exact ordered.sent_of_rsp arrived sent

@[simp] theorem empty_ordered : (empty : Pipe α β).Ordered := by
  constructor <;> simp [empty, pending]

@[simp] theorem empty_answered : (empty : Pipe α β).answered = [] := rfl

@[simp] theorem empty_held : (empty : Pipe α β).held = [] := rfl

@[simp] theorem push_answered (pipe : Pipe α β) (x : α) :
    (pipe.push x).answered = pipe.answered := rfl

@[simp] theorem push_held (pipe : Pipe α β) (x : α) :
    (pipe.push x).held = pipe.held ++ [x] := by
  simp [held, push]

/-- Alignment does not depend on what is queued. -/
theorem Ordered.congr (ordered : pipe.Ordered) (sent : after.sent = pipe.sent)
    (req : after.req = pipe.req) (rsp : after.rsp = pipe.rsp)
    (served : after.served = pipe.served) : after.Ordered := by
  have pending : after.pending = pipe.pending := by rw [pending, pending, served, rsp]
  exact ⟨by rw [rsp, pending, ordered.answers], by rw [sent, req, pending, ordered.requests]⟩

theorem Ordered.push (ordered : pipe.Ordered) (x : α) : (pipe.push x).Ordered :=
  ⟨ordered.answers, ordered.requests⟩

theorem Send.held_eq (moved : pipe.Send x after) : after.held = pipe.held := by
  obtain ⟨rest, queue, rfl⟩ := moved
  simp [held, queue]

theorem Send.answered_eq (moved : pipe.Send x after) :
    after.answered = pipe.answered := by
  obtain ⟨rest, queue, rfl⟩ := moved
  rfl

theorem Send.ordered (moved : pipe.Send x after) (ordered : pipe.Ordered) :
    after.Ordered := by
  obtain ⟨rest, queue, rfl⟩ := moved
  refine ⟨ordered.answers, ?_⟩
  change pipe.sent ++ [x] = pipe.pending.map Prod.fst ++ (pipe.req ++ [x])
  rw [ordered.requests, List.append_assoc]

theorem Serve.held_eq (moved : pipe.Serve x y after) : after.held = pipe.held := by
  obtain ⟨rest, req, rfl⟩ := moved
  rfl

theorem Serve.answered_eq (moved : pipe.Serve x y after) (ordered : pipe.Ordered) :
    after.answered = pipe.answered := by
  have bound := ordered.rsp_le
  obtain ⟨rest, req, rfl⟩ := moved
  simp only [answered, List.length_append, List.length_singleton]
  rw [Nat.add_sub_add_right, List.take_append_of_le_length (Nat.sub_le _ _)]

theorem Serve.pending_eq (moved : pipe.Serve x y after) (ordered : pipe.Ordered) :
    after.pending = pipe.pending ++ [(x, y)] := by
  have bound := ordered.rsp_le
  obtain ⟨rest, req, rfl⟩ := moved
  simp only [pending, List.length_append, List.length_singleton]
  rw [Nat.add_sub_add_right, List.drop_append_of_le_length (Nat.sub_le _ _)]

theorem Serve.ordered (moved : pipe.Serve x y after) (ordered : pipe.Ordered) :
    after.Ordered := by
  have grown := moved.pending_eq ordered
  obtain ⟨rest, req, rfl⟩ := moved
  constructor
  · rw [grown, List.map_append, ← ordered.answers]
    rfl
  · rw [grown, List.map_append]
    change pipe.sent = _
    rw [ordered.requests, req, List.append_assoc]
    rfl

/-- Taking an answer pairs it with the request it was computed for. -/
theorem Take.pending_eq (moved : pipe.Take x y after) (ordered : pipe.Ordered) :
    pipe.pending = (x, y) :: after.pending := by
  have bound := ordered.rsp_le
  obtain ⟨sent, rsp, sentEq, rspEq, rfl⟩ := moved
  have answers := ordered.answers
  have requests := ordered.requests
  cases shape : pipe.pending with
  | nil =>
      rw [shape, rspEq] at answers
      cases answers
  | cons oldest others =>
      rw [shape, rspEq] at answers
      rw [shape, sentEq] at requests
      simp only [List.map_cons, List.cons.injEq, List.cons_append] at answers requests
      have pair : oldest = (x, y) := by
        rw [answers.1, requests.1]
      have later : (pipe.served.drop (pipe.served.length - rsp.length)) = others := by
        have index : pipe.served.length - rsp.length =
            (pipe.served.length - pipe.rsp.length) + 1 := by
          rw [rspEq] at bound ⊢
          simp only [List.length_cons] at bound ⊢
          omega
        rw [index, ← List.drop_drop]
        change List.drop 1 pipe.pending = others
        rw [shape]
        rfl
      rw [pair, ← later]
      rfl

theorem Take.answered_eq (moved : pipe.Take x y after) (ordered : pipe.Ordered) :
    after.answered = pipe.answered ++ [(x, y)] := by
  have split := moved.pending_eq ordered
  have whole := pipe.answered_append_pending
  have wholeAfter := after.answered_append_pending
  have served : after.served = pipe.served := by
    obtain ⟨sent, rsp, sentEq, rspEq, rfl⟩ := moved
    rfl
  rw [split, ← List.singleton_append, ← List.append_assoc] at whole
  rw [served, ← whole] at wholeAfter
  exact List.append_cancel_right wholeAfter

theorem Take.held_eq (moved : pipe.Take x y after) : pipe.held = x :: after.held := by
  obtain ⟨sent, rsp, sentEq, rspEq, rfl⟩ := moved
  simp [held, sentEq]

theorem Take.ordered (moved : pipe.Take x y after) (ordered : pipe.Ordered) :
    after.Ordered := by
  have split := moved.pending_eq ordered
  have answers := ordered.answers
  have requests := ordered.requests
  obtain ⟨sent, rsp, sentEq, rspEq, rfl⟩ := moved
  rw [split, rspEq] at answers
  rw [split, sentEq] at requests
  simp only [List.map_cons, List.cons.injEq, List.cons_append] at answers requests
  exact ⟨answers.2, requests.2⟩

/-- The requests served so far, and those still to be served, are the requests
whose answers were taken followed by those the pipe holds. -/
theorem Ordered.served_append (ordered : pipe.Ordered) :
    pipe.served.map Prod.fst ++ (pipe.req ++ pipe.queue) =
      pipe.answered.map Prod.fst ++ pipe.held := by
  rw [← pipe.answered_append_pending, held, ordered.requests]
  simp [List.append_assoc]

/-- A pipe that holds a request can send, be served or be read from. -/
theorem Ordered.busy (ordered : pipe.Ordered) (holds : pipe.held ≠ []) :
    pipe.queue ≠ [] ∨ pipe.req ≠ [] ∨ (pipe.rsp ≠ [] ∧ pipe.sent ≠ []) := by
  by_cases queued : pipe.queue = []
  · by_cases unserved : pipe.req = []
    · right; right
      have sent : pipe.sent ≠ [] := by
        simpa [held, queued] using holds
      refine ⟨?_, sent⟩
      intro silent
      have answers := ordered.answers
      rw [silent] at answers
      have none : pipe.pending = [] := List.map_eq_nil_iff.mp answers.symm
      apply sent
      rw [ordered.requests, none, unserved]
      rfl
    · exact .inr (.inl unserved)
  · exact .inl queued

end Pipe

end Pipes
