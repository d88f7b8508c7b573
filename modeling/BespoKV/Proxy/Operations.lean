import BespoKV.Proxy.Isolation

/-!
# Operations on queues and subscriptions

The event loop calls a handler only for a descriptor that is subscribed.  As far as queues
and subscriptions are concerned, handlers are made of a few operations, and each of these
keeps a link that has not failed subscribed for writing while messages are queued on it, and
for reading while it waits for an answer.
-/

namespace BespoKV

/-- A link is subscribed for what it still has to do. -/
structure Proxy.Watches (proxy : Proxy) (ptr : LinkPtr) : Prop where
  writing : (proxy.links ptr).imsgQ ≠ [] → (proxy.fdes ptr).out = true
  reading : (proxy.links ptr).omsgQ ≠ [] → (proxy.fdes ptr).inn = true

/-- Every link that is neither marked in error nor dropped is subscribed for what it still has
to do; only client links are dropped. -/
structure Proxy.Watchful (proxy : Proxy) : Prop where
  watches : ∀ ptr, (proxy.links ptr).error = false → ptr ∉ proxy.freeConnPool → proxy.Watches ptr
  dropped : ∀ ptr ∈ proxy.freeConnPool, (proxy.links ptr).nwFunc = .request
  allocated : ∀ ptr, (proxy.links ptr).nwFunc = .request → ptr < proxy.next

/-- A link is healthy, holds no empty message and is subscribed for what it still has
to do. -/
structure Proxy.Attentive (proxy : Proxy) (ptr : LinkPtr) : Prop where
  healthy : (proxy.links ptr).error = false
  writing : (proxy.links ptr).imsgQ ≠ [] → (proxy.fdes ptr).out = true
  reading : (proxy.links ptr).omsgQ ≠ [] → (proxy.fdes ptr).inn = true
  whole : ∀ buffer, buffer ∈ (proxy.links ptr).imsgQ ∨ buffer ∈ (proxy.links ptr).omsgQ →
    buffer.nonempty = true

/-- No empty message is queued or awaits an answer. -/
def Proxy.Whole (proxy : Proxy) : Prop :=
  ∀ ptr buffer, buffer ∈ (proxy.links ptr).imsgQ ∨ buffer ∈ (proxy.links ptr).omsgQ →
    buffer.nonempty = true

/-- Every link is attentive. -/
def Proxy.Alert (proxy : Proxy) : Prop := ∀ ptr, proxy.Attentive ptr

/-! ## Operations -/

namespace Proxy

/-- What handlers are made of, as far as queues and subscriptions are concerned.  Reads and
writes fail only where `lossy` holds, or on an empty message. -/
inductive Op (lossy : Prop) (proxy : Proxy) : Proxy → Prop where
  | still {after : Proxy} (imsgQ : ∀ ptr, (after.links ptr).imsgQ = (proxy.links ptr).imsgQ)
      (omsgQ : ∀ ptr, (after.links ptr).omsgQ = (proxy.links ptr).omsgQ)
      (error : ∀ ptr, (after.links ptr).error = (proxy.links ptr).error)
      (fdes : after.fdes = proxy.fdes) (shape : after.shape = proxy.shape) :
      Op lossy proxy after
  | arm (ptr : LinkPtr) : Op lossy proxy (proxy.armOut ptr)
  | push {ptr : LinkPtr} {buffer : Buffer}
      (armed : (proxy.links ptr).imsgQ = [] → (proxy.fdes ptr).out = true)
      (nonempty : buffer.nonempty = true) : Op lossy proxy (proxy.pushImsg ptr buffer)
  | pop (ptr : LinkPtr) : Op lossy proxy (proxy.popOmsg ptr)
  | pass {conn : LinkPtr} {pmsg : Buffer} {rest : List Buffer} (slave : LinkPtr)
      (sent : (proxy.links conn).omsgQ = pmsg :: rest) :
      Op lossy proxy (((proxy.armOut slave).popOmsg conn).pushImsg slave pmsg)
  | clear {ptr : LinkPtr} (idle : (proxy.links ptr).imsgQ = []) :
      Op lossy proxy (proxy.clrOut ptr)
  | send {ptr : LinkPtr} {smsg : Buffer} {rest : List Buffer}
      (queued : (proxy.links ptr).imsgQ = smsg :: rest) :
      Op lossy proxy (proxy.sendFront ptr smsg true)
  | deliver {ptr : LinkPtr} {smsg : Buffer} {rest : List Buffer}
      (queued : (proxy.links ptr).imsgQ = smsg :: rest) :
      Op lossy proxy
        ((proxy.modify ptr fun link => { link with imsgQ := link.imsgQ.tail }).msgWrite ptr smsg)
  | lose {ptr : LinkPtr} {smsg : Buffer} {rest : List Buffer}
      (queued : (proxy.links ptr).imsgQ = smsg :: rest)
      (reason : lossy ∨ smsg.nonempty = false) :
      Op lossy proxy (((proxy.modify ptr fun link =>
        { link with imsgQ := link.imsgQ.tail }).markError ptr).fdDel ptr)
  | unread (ptr : LinkPtr) (reason : lossy) : Op lossy proxy ((proxy.markError ptr).fdDel ptr)
  | drop {ptr : LinkPtr} (client : (proxy.links ptr).nwFunc = .request) (reason : lossy) :
      Op lossy proxy { proxy.fdDel ptr with freeConnPool := proxy.freeConnPool ++ [ptr] }

/-- Any number of operations. -/
def Ops (lossy : Prop) : Proxy → Proxy → Prop := Relation.ReflTransGen (Op lossy)

variable {cfg : Config} {proxy after : Proxy} {ptr conn : LinkPtr} {buffer : Buffer}
variable {lossy : Prop}

/-- After the idiom before every push, a link with an empty queue is subscribed. -/
theorem armOut_armed (proxy : Proxy) (ptr : LinkPtr)
    (idle : ((proxy.armOut ptr).links ptr).imsgQ = []) :
    ((proxy.armOut ptr).fdes ptr).out = true := by
  have idle : (proxy.links ptr).imsgQ = [] := idle
  simp [Proxy.armOut, idle, setOut]

/-- What a link has to do is read off its queues and its subscription. -/
theorem Watches.congr (watches : proxy.Watches ptr)
    (imsgQ : (after.links ptr).imsgQ = (proxy.links ptr).imsgQ)
    (omsgQ : (after.links ptr).omsgQ = (proxy.links ptr).omsgQ)
    (fdes : after.fdes ptr = proxy.fdes ptr) : after.Watches ptr where
  writing := by rw [imsgQ, fdes]; exact watches.writing
  reading := by rw [omsgQ, fdes]; exact watches.reading

theorem Watches.armOut (watches : proxy.Watches ptr) (other : LinkPtr) :
    (proxy.armOut other).Watches ptr := by
  by_cases here : ptr = other
  · subst here
    refine ⟨fun queued => ?_, fun waits => ?_⟩
    · by_cases idle : (proxy.links ptr).imsgQ = []
      · exact absurd idle queued
      · simpa [Proxy.armOut, idle] using watches.writing idle
    · have inn := watches.reading waits
      simp only [Proxy.armOut]
      split <;> simpa [setOut] using inn
  · refine watches.congr rfl rfl ?_
    simp only [Proxy.armOut]
    split
    · simp [setOut, here]
    · rfl

theorem Watches.pushImsg (watches : proxy.Watches ptr)
    (armed : (proxy.links conn).imsgQ = [] → (proxy.fdes conn).out = true) :
    (proxy.pushImsg conn buffer).Watches ptr := by
  by_cases here : ptr = conn
  · subst here
    refine ⟨fun _ => ?_, by simpa [Proxy.pushImsg, modify] using watches.reading⟩
    by_cases idle : (proxy.links ptr).imsgQ = []
    · exact armed idle
    · exact watches.writing idle
  · exact watches.congr (by simp [Proxy.pushImsg, modify, here])
      (by simp [Proxy.pushImsg, modify, here]) rfl

theorem Watches.popOmsg (watches : proxy.Watches ptr) (conn : LinkPtr) :
    (proxy.popOmsg conn).Watches ptr := by
  by_cases here : ptr = conn
  · subst here
    refine ⟨by simpa [Proxy.popOmsg, modify] using watches.writing, fun waits => ?_⟩
    refine watches.reading fun none => waits ?_
    simp [Proxy.popOmsg, modify, none]
  · exact watches.congr (by simp [Proxy.popOmsg, modify, here])
      (by simp [Proxy.popOmsg, modify, here]) rfl

theorem Whole.modify {change : Link → Link} (whole : proxy.Whole)
    (here : ∀ buffer, buffer ∈ (change (proxy.links ptr)).imsgQ ∨
      buffer ∈ (change (proxy.links ptr)).omsgQ → buffer.nonempty = true) :
    (proxy.modify ptr change).Whole := by
  intro other buffer held
  by_cases same : other = ptr
  · subst same
    exact here buffer (by simpa [Proxy.modify] using held)
  · exact whole other buffer (by simpa [Proxy.modify, same] using held)

theorem Whole.pushImsg (whole : proxy.Whole) (nonempty : buffer.nonempty = true) :
    (proxy.pushImsg ptr buffer).Whole := by
  apply whole.modify
  simp only [List.mem_append, List.mem_singleton]
  rintro other ((old | rfl) | sent)
  · exact whole ptr other (.inl old)
  · exact nonempty
  · exact whole ptr other (.inr sent)

theorem Whole.popOmsg (whole : proxy.Whole) (ptr : LinkPtr) : (proxy.popOmsg ptr).Whole :=
  whole.modify fun buffer held =>
    whole ptr buffer (held.imp_right List.mem_of_mem_tail)

/-- The oldest queued message is taken off the queue. -/
theorem Whole.popImsg (whole : proxy.Whole) (ptr : LinkPtr) :
    (proxy.modify ptr fun link => { link with imsgQ := link.imsgQ.tail }).Whole :=
  whole.modify fun buffer held => whole ptr buffer (held.imp_left List.mem_of_mem_tail)

/-- A message awaits its answer. -/
theorem Whole.pushOmsg (whole : proxy.Whole) (nonempty : buffer.nonempty = true) :
    (proxy.modify ptr fun link => { link with omsgQ := link.omsgQ ++ [buffer] }).Whole := by
  apply whole.modify
  simp only [List.mem_append, List.mem_singleton]
  rintro other (queued | old | rfl)
  · exact whole ptr other (.inl queued)
  · exact whole ptr other (.inr old)
  · exact nonempty

theorem Whole.markError (whole : proxy.Whole) (ptr : LinkPtr) : (proxy.markError ptr).Whole := by
  apply whole.modify
  exact whole ptr

namespace Op

/-- A link stays subscribed for what it has to do, unless it fails or is dropped. -/
theorem watches (op : Op lossy proxy after) (watches : proxy.Watches ptr) :
    after.Watches ptr ∨ (after.links ptr).error = true ∨
      lossy ∧ ptr ∈ after.freeConnPool := by
  obtain ⟨writing, reading⟩ := watches
  cases op with
  | still imsgQ omsgQ error fdes shape =>
      exact .inl (Watches.congr ⟨writing, reading⟩ (imsgQ ptr) (omsgQ ptr) (congrFun fdes ptr))
  | arm other => exact .inl (Watches.armOut ⟨writing, reading⟩ other)
  | push armed nonempty => exact .inl (Watches.pushImsg ⟨writing, reading⟩ armed)
  | pop other => exact .inl (Watches.popOmsg ⟨writing, reading⟩ other)
  | @pass conn pmsg rest slave sent =>
      refine .inl (((Watches.armOut ⟨writing, reading⟩ slave).popOmsg conn).pushImsg ?_)
      intro idle
      refine armOut_armed proxy slave ?_
      rw [← idle]
      by_cases here : slave = conn
      · subst here
        simp [popOmsg, modify]
      · simp [popOmsg, modify, here]
  | @clear other idle =>
      by_cases here : ptr = other
      · subst here
        exact .inl ⟨fun queued => absurd idle queued, by simpa [clrOut] using reading⟩
      · exact .inl (Watches.congr ⟨writing, reading⟩ rfl rfl (by simp [clrOut, here]))
  | @send other smsg rest queued =>
      by_cases here : ptr = other
      · subst here
        have armed : (proxy.fdes ptr).out = true := writing (by simp [queued])
        exact .inl ⟨fun _ => by simpa [sendFront, modify, msgSend, setIn] using armed,
          fun _ => by simp [sendFront, modify, msgSend, setIn]⟩
      · exact .inl (Watches.congr ⟨writing, reading⟩
          (by simp [sendFront, modify, msgSend, setIn, here])
          (by simp [sendFront, modify, msgSend, setIn, here])
          (by simp [sendFront, modify, msgSend, setIn, here]))
  | @deliver other smsg rest queued =>
      by_cases here : ptr = other
      · subst here
        exact .inl ⟨fun _ => writing (by simp [queued]), by simpa [msgWrite, modify] using reading⟩
      · exact .inl (Watches.congr ⟨writing, reading⟩ (by simp [msgWrite, modify, here])
          (by simp [msgWrite, modify, here]) rfl)
  | @lose other smsg rest queued reason =>
      by_cases here : ptr = other
      · subst here
        exact .inr (.inl (by simp [fdDel, markError, modify]))
      · exact .inl (Watches.congr ⟨writing, reading⟩ (by simp [fdDel, markError, modify, here])
          (by simp [fdDel, markError, modify, here]) (by simp [fdDel, markError, modify, here]))
  | unread other reason =>
      by_cases here : ptr = other
      · subst here
        exact .inr (.inl (by simp [fdDel, markError, modify]))
      · exact .inl (Watches.congr ⟨writing, reading⟩ (by simp [fdDel, markError, modify, here])
          (by simp [fdDel, markError, modify, here]) (by simp [fdDel, markError, modify, here]))
  | @drop other client reason =>
      by_cases here : ptr = other
      · subst here
        exact .inr (.inr ⟨reason, List.mem_append_right _ List.mem_cons_self⟩)
      · exact .inl (Watches.congr ⟨writing, reading⟩ rfl rfl (by simp [fdDel, here]))

/-- A link fails only if the operation is lossy or an empty message is queued on it. -/
theorem error (op : Op lossy proxy after) (ptr : LinkPtr) :
    (after.links ptr).error = (proxy.links ptr).error ∨
      (after.links ptr).error = true ∧
        (lossy ∨ ∃ smsg ∈ (proxy.links ptr).imsgQ, smsg.nonempty = false) := by
  have same {P : Prop} (flags : after.flags = proxy.flags) :
      (after.links ptr).error = (proxy.links ptr).error ∨ P :=
    .inl (congrArg Flags.error (congrFun flags ptr))
  cases op with
  | still imsgQ omsgQ error fdes shape => exact .inl (error ptr)
  | arm | clear | drop => exact .inl rfl
  | push => exact same (flags_pushImsg _ _ _)
  | pop => exact same (flags_popOmsg _ _)
  | pass => exact same (by simp)
  | send => exact same (flags_sendFront _ _ _)
  | deliver => exact same (by rw [flags_msgWrite, flags_modify _ _ fun link => by rfl])
  | @lose other smsg rest queued reason =>
      by_cases here : ptr = other
      · subst here
        refine .inr ⟨by simp [fdDel, markError, modify], reason.imp_right fun empty => ?_⟩
        exact ⟨smsg, by simp [queued], empty⟩
      · exact .inl (by simp [fdDel, markError, modify, here])
  | unread other reason =>
      by_cases here : ptr = other
      · subst here
        exact .inr ⟨by simp [fdDel, markError, modify], .inl reason⟩
      · exact .inl (by simp [fdDel, markError, modify, here])

theorem whole (op : Op lossy proxy after) (whole : proxy.Whole) : after.Whole := by
  cases op with
  | still imsgQ omsgQ error fdes shape =>
      intro ptr buffer held
      rw [imsgQ, omsgQ] at held
      exact whole ptr buffer held
  | arm | clear | drop => exact whole
  | push armed nonempty => exact whole.pushImsg nonempty
  | pop ptr => exact whole.popOmsg ptr
  | @pass conn pmsg rest slave sent =>
      have armed : (proxy.armOut slave).Whole := whole
      exact (armed.popOmsg conn).pushImsg (whole conn pmsg (.inr (by simp [sent])))
  | @send ptr smsg rest queued =>
      have nonempty := whole ptr smsg (.inl (by simp [queued]))
      exact (whole.popImsg ptr).pushOmsg nonempty
  | @deliver ptr => exact whole.popImsg ptr
  | @lose ptr => exact (whole.popImsg ptr).markError ptr
  | unread ptr => exact whole.markError ptr

/-- Only the pool of dropped links changes. -/
theorem shape (op : Op lossy proxy after) :
    after.shape = { proxy.shape with freeConnPool := after.freeConnPool } := by
  have same (shape : after.shape = proxy.shape) :
      after.shape = { proxy.shape with freeConnPool := after.freeConnPool } := by
    rw [← shape]
    rfl
  cases op with
  | still imsgQ omsgQ error fdes shape => exact same shape
  | arm | clear => exact same rfl
  | push | pop | pass | send => exact same (by simp)
  | deliver | lose => exact same (by simp [shape_modify])
  | unread => exact same (by simp)
  | drop => rfl

theorem nwFunc (op : Op lossy proxy after) (ptr : LinkPtr) :
    (after.links ptr).nwFunc = (proxy.links ptr).nwFunc :=
  congrArg (fun shape => (shape.info ptr).nwFunc) op.shape

/-- At most one link is dropped, and it is a client's. -/
theorem pool (op : Op lossy proxy after) : after.freeConnPool = proxy.freeConnPool ∨
    ∃ client, (proxy.links client).nwFunc = .request ∧
      after.freeConnPool = proxy.freeConnPool ++ [client] := by
  cases op with
  | still imsgQ omsgQ error fdes shape => exact .inl (congrArg Shape.freeConnPool shape)
  | @drop ptr client => exact .inr ⟨ptr, client, rfl⟩
  | _ => exact .inl rfl

theorem watchful (op : Op lossy proxy after) (watchful : proxy.Watchful) : after.Watchful where
  watches := by
    intro ptr healthy kept
    have healthyBefore : (proxy.links ptr).error = false := by
      rcases op.error ptr with same | ⟨failed, _⟩
      · exact same.symm.trans healthy
      · exact absurd failed (by simp [healthy])
    have keptBefore : ptr ∉ proxy.freeConnPool := by
      rcases op.pool with same | ⟨client, _, grown⟩
      · rwa [← same]
      · exact fun member => kept (grown ▸ List.mem_append_left [client] member)
    rcases op.watches (watchful.watches ptr healthyBefore keptBefore) with
      watches | failed | ⟨_, dropped⟩
    · exact watches
    · exact absurd failed (by simp [healthy])
    · exact absurd dropped kept
  dropped := by
    intro ptr member
    rw [op.nwFunc]
    rcases op.pool with same | ⟨client, isClient, grown⟩
    · exact watchful.dropped ptr (same ▸ member)
    · rw [grown] at member
      rcases List.mem_append.mp member with old | new
      · exact watchful.dropped ptr old
      · rwa [List.mem_singleton.mp new]
  allocated := by
    intro ptr client
    rw [op.nwFunc] at client
    have next : after.next = proxy.next := congrArg Shape.next op.shape
    rw [next]
    exact watchful.allocated ptr client

theorem alert (op : Op False proxy after) (alert : proxy.Alert) : after.Alert := by
  have whole : proxy.Whole := fun ptr => (alert ptr).whole
  intro ptr
  obtain ⟨healthy, writing, reading, _⟩ := alert ptr
  have healthyAfter : (after.links ptr).error = false := by
    rcases op.error ptr with same | ⟨_, lossy | ⟨smsg, queued, empty⟩⟩
    · exact same.trans healthy
    · exact lossy.elim
    · exact absurd (whole ptr smsg (.inl queued)) (by simp [empty])
  rcases op.watches ⟨writing, reading⟩ with watches | failed | ⟨lossy, _⟩
  · exact ⟨healthyAfter, watches.writing, watches.reading, op.whole whole ptr⟩
  · exact absurd failed (by simp [healthyAfter])
  · exact lossy.elim

end Op

namespace Ops

theorem watchful (ops : Ops lossy proxy after) (watchful : proxy.Watchful) : after.Watchful := by
  induction ops with
  | refl => exact watchful
  | tail _ op ih => exact op.watchful ih

theorem alert (ops : Ops False proxy after) (alert : proxy.Alert) : after.Alert := by
  induction ops with
  | refl => exact alert
  | tail _ op ih => exact op.alert ih

end Ops

/-! ## Handlers -/

/-- Routing flags do not matter. -/
theorem Op.of_steers {server out : LinkPtr} (steers : proxy.Steers server out after)
    (fdes : after.fdes = proxy.fdes) : Op lossy proxy after :=
  .still (fun ptr => congrFun (congrArg Traffic.imsgQ steers.traffic) ptr)
    (fun ptr => congrFun (congrArg Traffic.omsgQ steers.traffic) ptr) steers.error fdes
    steers.shape

theorem Op.modify {change : Link → Link} (ptr : LinkPtr)
    (imsgQ : ∀ link, (change link).imsgQ = link.imsgQ)
    (omsgQ : ∀ link, (change link).omsgQ = link.omsgQ)
    (info : ∀ link, (change link).toLinkInfo = link.toLinkInfo)
    (error : ∀ link, (change link).error = link.error) :
    Op lossy proxy (proxy.modify ptr change) :=
  .of_steers (steers_modify proxy ptr ptr (.inl rfl) imsgQ omsgQ info error) rfl

theorem Op.of_links (links : after.links = proxy.links) (fdes : after.fdes = proxy.fdes)
    (shape : after.shape = proxy.shape) : Op lossy proxy after :=
  .still (fun _ => by rw [links]) (fun _ => by rw [links]) (fun _ => by rw [links]) fdes shape

theorem queueReply_ops (proxy : Proxy) (ptr : LinkPtr) (nonempty : buffer.nonempty = true) :
    Ops lossy proxy (proxy.queueReply ptr buffer) :=
  .tail (.single (.arm ptr)) (.push (armOut_armed proxy ptr) nonempty)

theorem fanOut_ops (nonempty : buffer.nonempty = true) (slaves : List LinkPtr) :
    Ops lossy proxy (proxy.fanOut buffer slaves) := by
  induction slaves generalizing proxy with
  | nil => exact .refl
  | cons slave rest ih => exact (queueReply_ops proxy slave nonempty).trans ih

theorem sendFront_op {smsg : Buffer} {rest : List Buffer} {written : Bool}
    (queued : (proxy.links conn).imsgQ = smsg :: rest) (reason : written = false → lossy) :
    Op lossy proxy (proxy.sendFront conn smsg written) := by
  cases written with
  | true => exact .send queued
  | false => exact .lose queued (.inl (reason rfl))

theorem reqSend_op {written : Bool} (reason : written = false → lossy)
    (handled : proxy.reqSend conn written = .ok after) : Op lossy proxy after := by
  unfold Proxy.reqSend at handled
  split at handled
  next idle =>
    cases handled
    exact .clear idle
  next smsg rest queued =>
    split at handled
    · cases handled
      exact sendFront_op queued reason
    · cases handled

theorem replicaReqSend_op {written : Bool} (reason : written = false → lossy)
    (handled : proxy.replicaReqSend conn written = .ok after) : Op lossy proxy after := by
  unfold Proxy.replicaReqSend at handled
  split at handled
  · cases handled
  split at handled
  next idle =>
    cases handled
    exact .clear idle
  next smsg rest queued =>
    split at handled
    · cases handled
      exact sendFront_op queued reason
    · cases handled

theorem rspSend_op (proxy : Proxy) (conn : LinkPtr) {written : Bool}
    (reason : written = false → lossy) : Op lossy proxy (proxy.rspSend conn written) := by
  unfold Proxy.rspSend
  split
  next idle => exact .clear idle
  next smsg rest queued =>
    simp only
    split
    · exact .deliver queued
    next incomplete =>
      refine .lose queued ?_
      cases written with
      | true => exact .inr (by simpa using incomplete)
      | false => exact .inl (reason rfl)

theorem rspMappedForward_ops (nonempty : buffer.nonempty = true)
    (handled : proxy.rspMappedForward conn buffer = .ok after) : Ops lossy proxy after := by
  unfold Proxy.rspMappedForward at handled
  split at handled
  · cases handled
  split at handled
  · cases handled
  split at handled
  · cases handled
  cases handled
  exact .head (.pop conn) (queueReply_ops _ _ nonempty)

theorem passOn_op {slave : LinkPtr} {mustBeWrite : Bool}
    (handled : proxy.passOn conn slave mustBeWrite = .ok after) : Op lossy proxy after := by
  unfold Proxy.passOn at handled
  split at handled
  · cases handled
  split at handled
  · cases handled
  next pmsg rest sent =>
    split at handled
    · split at handled <;> cases handled
    split at handled
    · cases handled
      exact .pass slave sent
    · cases handled

theorem replicaRspRecv_ops (nonempty : buffer.nonempty = true)
    (handled : proxy.replicaRspRecv cfg conn (some buffer) = .ok after) :
    Ops lossy proxy after := by
  unfold Proxy.replicaRspRecv at handled
  split at handled
  · cases handled
  simp only at handled
  split at handled
  · cases handled
  split at handled
  · cases handled
  split at handled
  · split at handled
    · split at handled
      · split at handled
        · cases handled
        · exact .single (passOn_op handled)
      · cases handled
      · cases handled
    · split at handled
      · cases handled
      split at handled
      · cases handled
      cases handled
      exact .head (.pop conn) (queueReply_ops _ _ nonempty)
  · split at handled
    · split at handled
      next forwarded mapped =>
        cases handled
        refine .tail (rspMappedForward_ops nonempty mapped) ?_
        exact .modify conn (fun _ => rfl) (fun _ => rfl) (fun _ => rfl) fun _ => rfl
      · cases handled
    · cases handled
      exact .single (.pop conn)

theorem getMappedServerConn_fdes {frame : Frame} {text : Key} {out : LinkPtr}
    (mapped : proxy.getMappedServerConn cfg conn frame text = .ok (after, out)) :
    after.fdes = proxy.fdes := by
  unfold getMappedServerConn at mapped
  split at mapped
  · cases mapped
  split at mapped
  · cases mapped
    rfl
  simp only at mapped
  split at mapped
  · cases mapped
    split <;> rfl
  split at mapped
  · split at mapped
    · cases mapped
      split <;> rfl
    · cases mapped
    · cases mapped
  · cases mapped
    split <;> rfl

end Proxy

/-- No request waits for a lock: Redlock is not the technique of a strong mode. -/
def Config.LockFree (cfg : Config) : Prop :=
  cfg.consistencyTechnique = .rl → cfg.aaStrong = false ∧ cfg.msStrong = false

namespace Ctx

open Proxy (Op Ops)

variable {cfg : Config} {ctx after : Ctx} {conn : LinkPtr} {lossy : Prop}

theorem rspRecv_ops {buffer : Buffer} (nonempty : buffer.nonempty = true)
    (handled : ctx.rspRecv cfg conn (some buffer) = .ok after) :
    Ops lossy ctx.proxy after.proxy := by
  have answer : ({ buffer with id := 2 } : Buffer).nonempty = true := nonempty
  have forwards : ∀ {proxy later : Proxy},
      proxy.rspMappedForward conn { buffer with id := 2 } = .ok later → Ops lossy proxy later :=
    fun mapped => Proxy.rspMappedForward_ops answer mapped
  unfold rspRecv at handled
  simp only at handled
  split at handled
  · split at handled
    · split at handled
      · split at handled
        next proxy passed =>
          cases handled
          exact .single (Proxy.passOn_op passed)
        · cases handled
      · cases handled
      · cases handled
    · cases handled
    · cases handled
    · split at handled
      next later mapped =>
        cases handled
        exact forwards mapped
      · cases handled
  split at handled
  · split at handled
    · split at handled
      next later mapped =>
        cases handled
        refine .head ?_ (forwards mapped)
        exact .modify conn (fun _ => rfl) (fun _ => rfl) (fun _ => rfl) fun _ => rfl
      · cases handled
    · cases handled
  · split at handled
    next later mapped =>
      cases handled
      exact forwards mapped
    · cases handled

/-- One frame, in the modes that never refuse a request. -/
theorem reqSegment_ops {frame : Frame} {rest : List Frame} {freed : Nat → Key → Key}
    {continues : Bool} (lockFree : cfg.LockFree)
    (handled : ctx.reqSegment cfg conn frame rest freed = .ok (continues, after)) :
    Ops lossy ctx.proxy after.proxy := by
  obtain ⟨mapped, out, locked, routed, acquired, rfl⟩ := reqSegment_cases handled
  obtain ⟨server, _, _, steers⟩ := Proxy.getMappedServerConn_cases routed
  have steered : Op lossy ctx.proxy mapped :=
    .of_steers steers (Proxy.getMappedServerConn_fdes routed)
  generalize request : segment mapped conn out frame = req at acquired ⊢
  have nonempty : req.nonempty = true := by
    rw [← request]
    rfl
  cases acquired with
  | write active redlock => simp [(lockFree redlock).1] at active
  | refused active redlock => simp [(lockFree redlock).1] at active
  | read active redlock => simp [(lockFree redlock).1] at active
  | free =>
      have received : Op lossy (mapped.armOut out) (receive (mapped.armOut out) conn req) :=
        .of_links rfl rfl rfl
      have queued : Ops lossy ctx.proxy
          ((receive (mapped.armOut out) conn req).pushImsg out req) :=
        (((Relation.ReflTransGen.single steered).tail (.arm out)).tail received).tail
          (.push (Proxy.armOut_armed mapped out) nonempty)
      simp only [forward, if_true]
      split
      · exact queued.trans (Proxy.fanOut_ops nonempty _)
      · exact queued

theorem reqRecv_ops {frames : List Frame} {freed : Nat → Key → Key} (lockFree : cfg.LockFree)
    (handled : ctx.reqRecv cfg conn (some frames) freed = .ok after) :
    Ops lossy ctx.proxy after.proxy :=
  reqLoop_induction (P := fun later _ => Ops lossy ctx.proxy later.proxy) .refl
    (fun _ _ _ _ _ before segment => before.trans (reqSegment_ops lockFree segment)) handled

end Ctx

end BespoKV
