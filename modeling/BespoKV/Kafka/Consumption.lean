import BespoKV.Kafka.Recovery

/-!
# The consumer of the log

`consume_kafka` applies the log to a datalet.  It repeats `consume` until a message comes,
queues it and goes back to its event loop; every readable event whose read does not fail makes
it take the next message, whether or not an answer was read.  What was written and what is
queued is always the part of the log that has been consumed.
-/

namespace BespoKV

/-- Where the thread of `consume_kafka` stands. -/
inductive Consumption.Place where
  /-- in the loop of `repeat1` -/
  | first
  /-- in the event loop -/
  | waiting
  /-- in the loop of `repeat2`, which a readable event has entered -/
  | next
  deriving DecidableEq, Repr

/-- The thread of `consume_kafka` with its connection: where it stands, the offset of the next
message, the queue of the link and its events, what was written, `count`, the error flag of
the link and the result.  History variable: how many readable events made it consume. -/
structure Consumption where
  place : Consumption.Place := .first
  offset : Nat := 0
  imsgQ : List Bytes := []
  fdes : FdFlags := { out := true }
  sent : List Bytes := []
  count : Int := 1
  error : Bool := false
  result : Option Status := none
  reads : Nat := 0

namespace Consumption

/-- What happens next. -/
inductive Event where
  /-- `consume` returns -/
  | consumed (payload : Bytes)
  /-- `FDEVENT_IN`, with or without `FDEVENT_OUT`: `msg_read` returns so many bytes, none when
  there is nothing to read, or it fails -/
  | readable (read : Option Nat)
  /-- `FDEVENT_OUT` alone: `msg_send` succeeds or not -/
  | writable (sends : Bool)
  /-- `wait` fails -/
  | waitFails

/-- A message joins the queue; the link is armed if it was empty. -/
def enqueue (consumption : Consumption) (payload : Bytes) (offset : Nat) : Consumption :=
  { consumption with
    place := .waiting
    offset
    fdes := if consumption.imsgQ = [] then { consumption.fdes with out := true }
      else consumption.fdes
    imsgQ := consumption.imsgQ ++ [payload] }

/-- The body of the loops of `repeat1` and `repeat2`. -/
def repeatConsume (log : List Bytes) (consumption : Consumption) (payload : Bytes) :
    Except Fault Consumption :=
  match Recovery.consume log consumption.offset payload with
  | none => .error .disabled
  | some offset =>
      -- an empty result repeats the loop
      if payload.length = 0 then .ok consumption else .ok (consumption.enqueue payload offset)

/-- The `FDEVENT_IN` branch up to the loop of `repeat2`. -/
def recv (consumption : Consumption) : Option Nat → Except Fault Consumption
  | none =>
      -- the link is marked and stays in the loop, until `CHECK(count < 5)` fails
      if consumption.count + 1 < 5 then
        .ok { consumption with error := true, count := consumption.count + 1 }
      else
        .error .check
  | some _ => .ok { consumption with place := .next, reads := consumption.reads + 1 }

/-- The `FDEVENT_OUT` branch. -/
def send (consumption : Consumption) (sends : Bool) : Consumption :=
  match consumption.imsgQ with
  | [] => { consumption with fdes := { consumption.fdes with out := false } }
  | smsg :: rest =>
      if sends then
        { consumption with
          imsgQ := rest
          sent := consumption.sent ++ [smsg]
          fdes := { consumption.fdes with inn := true } }
      else
        { consumption with imsgQ := rest, error := true, result := some .err }

def step (log : List Bytes) (consumption : Consumption) (event : Event) :
    Except Fault Consumption :=
  match consumption.result, consumption.place, event with
  | none, .first, .consumed payload => consumption.repeatConsume log payload
  | none, .next, .consumed payload => consumption.repeatConsume log payload
  | none, .waiting, .readable read => consumption.recv read
  | none, .waiting, .writable sends => .ok (consumption.send sends)
  | none, .waiting, .waitFails => .ok { consumption with result := some .err }
  | _, _, _ => .error .disabled

/-- Writes are complete. -/
def Event.Complete : Event → Prop
  | .writable sends => sends = true
  | .consumed _ | .readable _ | .waitFails => True

instance : DecidablePred Event.Complete := fun event =>
  match event with
  | .writable _ => inferInstanceAs (Decidable (_ = _))
  | .consumed _ => isTrue trivial
  | .readable _ => isTrue trivial
  | .waitFails => isTrue trivial

variable {log : List Bytes} {consumption after : Consumption} {event : Event}

/-! ## What one step does -/

/-- The effects of one step with complete writes. -/
inductive Stepped (log : List Bytes) (consumption : Consumption) : Event → Consumption → Prop
  | empty (busy : consumption.place ≠ .waiting) : Stepped log consumption (.consumed []) consumption
  | message {payload : Bytes} (busy : consumption.place ≠ .waiting) (content : payload ≠ [])
      (found : log[consumption.offset]? = some payload) :
      Stepped log consumption (.consumed payload)
        (consumption.enqueue payload (consumption.offset + 1))
  | failed (idle : consumption.place = .waiting) :
      Stepped log consumption (.readable none)
        { consumption with error := true, count := consumption.count + 1 }
  | read {size : Nat} (idle : consumption.place = .waiting) :
      Stepped log consumption (.readable (some size))
        { consumption with place := .next, reads := consumption.reads + 1 }
  | nothing (idle : consumption.place = .waiting) (empty : consumption.imsgQ = []) :
      Stepped log consumption (.writable true)
        { consumption with fdes := { consumption.fdes with out := false } }
  | sent {smsg : Bytes} {rest : List Bytes} (idle : consumption.place = .waiting)
      (queued : consumption.imsgQ = smsg :: rest) :
      Stepped log consumption (.writable true)
        { consumption with
          imsgQ := rest, sent := consumption.sent ++ [smsg]
          fdes := { consumption.fdes with inn := true } }
  | returned : Stepped log consumption .waitFails { consumption with result := some .err }

theorem repeatConsume_cases {payload : Bytes} (busy : consumption.place ≠ .waiting)
    (moved : consumption.repeatConsume log payload = .ok after) :
    Stepped log consumption (.consumed payload) after := by
  unfold repeatConsume Recovery.consume at moved
  by_cases empty : payload = []
  · subst empty
    cases moved
    exact .empty busy
  · rw [if_neg empty] at moved
    by_cases found : log[consumption.offset]? = some payload
    · simp only [if_pos found, List.length_eq_zero_iff, if_neg empty] at moved
      cases moved
      exact .message busy empty found
    · simp only [if_neg found] at moved
      cases moved

theorem step_cases (complete : event.Complete)
    (moved : consumption.step log event = .ok after) : Stepped log consumption event after := by
  unfold step at moved
  split at moved
  next place => exact repeatConsume_cases (by simp [place]) moved
  next place => exact repeatConsume_cases (by simp [place]) moved
  next read _ idle =>
    cases read with
    | none =>
        simp only [recv] at moved
        split at moved
        · cases moved
          exact .failed idle
        · cases moved
    | some size =>
        cases moved
        exact .read idle
  next sends _ idle =>
    cases moved
    have sends : sends = true := complete
    subst sends
    unfold send
    split
    next empty => exact .nothing idle empty
    next smsg rest queued => exact .sent idle queued
  next =>
    cases moved
    exact .returned
  next => cases moved

/-! ## Runs -/

/-- What was written and what is queued is what was consumed, and everything but the first
message was consumed for a readable event. -/
structure InOrder (log : List Bytes) (consumption : Consumption) : Prop where
  order : consumption.sent ++ consumption.imsgQ = log.take consumption.offset
  known : consumption.offset ≤ log.length
  counted : consumption.offset + (if consumption.place = .waiting then 0 else 1) =
    consumption.reads + 1

theorem InOrder.stepped (inOrder : consumption.InOrder log)
    (stepped : Stepped log consumption event after) : after.InOrder log := by
  obtain ⟨order, known, counted⟩ := inOrder
  cases stepped with
  | empty => exact ⟨order, known, counted⟩
  | message busy content found =>
      obtain ⟨bound, _⟩ := List.getElem?_eq_some_iff.mp found
      rw [if_neg busy] at counted
      refine ⟨?_, bound, counted⟩
      simp only [enqueue]
      rw [List.take_add_one, found, ← order, List.append_assoc]
      rfl
  | failed idle | nothing idle => exact ⟨order, known, counted⟩
  | read idle =>
      rw [if_pos idle] at counted
      refine ⟨order, known, ?_⟩
      simp only [reduceCtorEq, if_false]
      omega
  | sent idle queued =>
      rw [queued] at order
      refine ⟨?_, known, counted⟩
      rw [← order, List.append_assoc]
      rfl
  | returned => exact ⟨order, known, counted⟩

theorem InOrder.of_run (inOrder : consumption.InOrder log)
    (run : Transition.Runs (step log) (fun _ event => event.Complete) consumption after) :
    after.InOrder log :=
  run.invariant (InOrder log)
    (fun _ _ _ inOrder complete moved => inOrder.stepped (step_cases complete moved)) inOrder

theorem InOrder.init : InOrder log {} := ⟨by simp, Nat.zero_le _, rfl⟩

/-- What the consumer does in one state. -/
structure Faithful (log : List Bytes) (consumption : Consumption) : Prop where
  /-- requests are the messages consumed so far, in their order, each once -/
  order : consumption.sent ++ consumption.imsgQ = log.take consumption.offset
  known : consumption.offset ≤ log.length
  /-- a readable event has consumed one message when the thread is back in its event loop -/
  one : ∀ size entered later, consumption.step log (.readable (some size)) = .ok entered →
    Transition.Runs (step log) (fun _ event => event.Complete) entered later →
      later.place = .waiting → later.reads = entered.reads →
        later.offset = consumption.offset + 1
  /-- it gets there when `consume` returns the next message -/
  returns : ∀ payload, consumption.result = none → consumption.place ≠ .waiting →
    log[consumption.offset]? = some payload → ∃ later,
      consumption.step log (.consumed payload) = .ok later ∧ later.place = .waiting ∧
        later.offset = consumption.offset + 1
  /-- nothing is consumed for an event whose read fails -/
  none : ∀ later, consumption.step log (.readable none) = .ok later →
    later.place = .waiting ∧ later.offset = consumption.offset

/-- **The consumer never skips, repeats or reorders** messages. -/
theorem consumer_in_order (content : ∀ message ∈ log, message ≠ [])
    (run : Transition.Runs (step log) (fun _ event => event.Complete) {} consumption) :
    consumption.Faithful log := by
  have inOrder := InOrder.init.of_run run
  refine ⟨inOrder.order, inOrder.known, ?_, ?_, ?_⟩
  · intro size entered later moved rest idle same
    have stepped : Stepped log consumption (.readable (some size)) entered :=
      step_cases trivial moved
    have now := ((inOrder.stepped stepped).of_run rest).counted
    cases stepped with
    | read wasIdle =>
        have before := inOrder.counted
        rw [if_pos wasIdle] at before
        rw [if_pos idle, same] at now
        dsimp only at now
        omega
  · intro payload running busy found
    have notEmpty := content payload (List.mem_of_getElem? found)
    have isRepeat : consumption.step log (.consumed payload) =
        consumption.repeatConsume log payload := by
      unfold step
      cases place : consumption.place with
      | first | next => rw [running]
      | waiting => exact absurd place busy
    refine ⟨consumption.enqueue payload (consumption.offset + 1), ?_, rfl, rfl⟩
    rw [isRepeat, repeatConsume, Recovery.consume, if_neg notEmpty, if_pos found]
    simp [notEmpty]
  · intro later moved
    have stepped : Stepped log consumption (.readable none) later := step_cases trivial moved
    cases stepped with
    | failed idle => exact ⟨idle, rfl⟩

/-- Two messages; `consume` is empty twice, one read finds nothing and one fails. -/
theorem consumer_in_order_sample : ∃ consumption : Consumption,
    consumption.sent = [[1]] ∧ consumption.imsgQ = [[2, 3]] ∧
      consumption.Faithful [[1], [2, 3]] := by
  obtain ⟨consumption, run, post⟩ := Transition.Runs.exists_of_exec (step [[1], [2, 3]])
    (fun _ event => event.Complete) {}
    [.consumed [], .consumed [1], .writable true, .readable none, .readable (some 0),
      .consumed [], .consumed [2, 3]]
    (fun consumption => consumption.sent = [[1]] ∧ consumption.imsgQ = [[2, 3]]) (by decide)
  simp only [decide_eq_true_eq] at post
  exact ⟨consumption, post.1, post.2, consumer_in_order (by decide) run⟩

/-- A readable event whose read fails consumes no message. -/
theorem failed_read_consumes_nothing : ∃ before after : Consumption,
    Transition.Runs (step [[1], [2]]) (fun _ event => event.Complete) {} before ∧
      before.step [[1], [2]] (.readable none) = .ok after ∧ after.place = .waiting ∧
      after.offset = before.offset := by
  let before : Consumption :=
    { place := .waiting, offset := 1, sent := [[1]], fdes := ⟨true, true⟩ }
  have executed : Transition.exec (step [[1], [2]]) (fun _ event => event.Complete) {}
      [.consumed [1], .writable true] = some before := rfl
  exact ⟨before, { before with error := true, count := 2 }, .of_exec executed, rfl, rfl, rfl⟩

end Consumption

end BespoKV
