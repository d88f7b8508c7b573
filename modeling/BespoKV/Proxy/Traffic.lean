import BespoKV.Library.Line
import BespoKV.Proxy.System

/-!
# The traffic of a proxy

What the handlers do to queues, sockets and histories, apart from routing flags,
subscriptions and the fixed data of links.  Every handler is a composition of a few
operations on this view, and a client with its datalet links is a line of pipes.
-/

namespace BespoKV

/-- Queues, sockets and histories of all links of a proxy. -/
@[ext] structure Traffic where
  imsgQ : LinkPtr → List Buffer
  omsgQ : LinkPtr → List Buffer
  wire : LinkPtr → Wire
  received : LinkPtr → List Buffer
  delivered : LinkPtr → List Buffer

/-- What links are and where they lead; only connecting and disconnecting change it. -/
@[ext] structure Shape where
  pid : Nat
  next : LinkPtr
  msMap : List (Option LinkPtr × List LinkPtr)
  freeConnPool : List LinkPtr
  info : LinkPtr → LinkInfo

/-- The fields of a link that routing reads and writes. -/
@[ext] structure Flags where
  error : Bool
  fwdToReplicas : Bool
  tail : Bool
  key : Option Key

@[simps] def Link.flags (link : Link) : Flags :=
  ⟨link.error, link.fwdToReplicas, link.tail, link.key⟩

namespace Proxy

/-- The traffic of a proxy. -/
def traffic (proxy : Proxy) : Traffic where
  imsgQ ptr := (proxy.links ptr).imsgQ
  omsgQ ptr := (proxy.links ptr).omsgQ
  wire := proxy.wire
  received := proxy.received
  delivered := proxy.delivered

/-- The shape of a proxy. -/
def shape (proxy : Proxy) : Shape where
  pid := proxy.pid
  next := proxy.next
  msMap := proxy.msMap
  freeConnPool := proxy.freeConnPool
  info ptr := (proxy.links ptr).toLinkInfo

/-- The flags of every link. -/
def flags (proxy : Proxy) (ptr : LinkPtr) : Flags := (proxy.links ptr).flags

theorem traffic_imsgQ (proxy : Proxy) (ptr : LinkPtr) :
    proxy.traffic.imsgQ ptr = (proxy.links ptr).imsgQ := rfl

theorem traffic_omsgQ (proxy : Proxy) (ptr : LinkPtr) :
    proxy.traffic.omsgQ ptr = (proxy.links ptr).omsgQ := rfl

end Proxy

namespace Traffic

variable (traffic : Traffic) (ptr : LinkPtr) (buffer : Buffer)

/-- `imsg_q.push_back` -/
@[simps] def push : Traffic :=
  { traffic with
    imsgQ := Function.update traffic.imsgQ ptr (traffic.imsgQ ptr ++ [buffer]) }

/-- `omsg_q.pop_front` -/
@[simps] def pop : Traffic :=
  { traffic with omsgQ := Function.update traffic.omsgQ ptr (traffic.omsgQ ptr).tail }

/-- The oldest answer is read from a datalet. -/
@[simps] def read : Traffic :=
  { traffic with
    wire := Function.update traffic.wire ptr
      { traffic.wire ptr with rsp := (traffic.wire ptr).rsp.tail } }

/-- The oldest queued request is written to a datalet. -/
@[simps] def transmit : Traffic :=
  { traffic with
    imsgQ := Function.update traffic.imsgQ ptr (traffic.imsgQ ptr).tail
    omsgQ := Function.update traffic.omsgQ ptr (traffic.omsgQ ptr ++ [buffer])
    wire := Function.update traffic.wire ptr
      { traffic.wire ptr with req := (traffic.wire ptr).req ++ [buffer] } }

/-- The datalet takes the oldest request and answers it. -/
@[simps] def serve (reply : Reply) : Traffic :=
  { traffic with
    wire := Function.update traffic.wire ptr
      { req := (traffic.wire ptr).req.tail, rsp := (traffic.wire ptr).rsp ++ [reply] } }

/-- A request arrives from a client. -/
@[simps] def receive : Traffic :=
  { traffic with
    received := Function.update traffic.received ptr (traffic.received ptr ++ [buffer]) }

/-- The oldest queued answer is written to a client. -/
@[simps] def deliver : Traffic :=
  { traffic with
    imsgQ := Function.update traffic.imsgQ ptr (traffic.imsgQ ptr).tail
    delivered := Function.update traffic.delivered ptr (traffic.delivered ptr ++ [buffer]) }

/-- The oldest queued answer could not be written to a client. -/
@[simps] def discard : Traffic :=
  { traffic with imsgQ := Function.update traffic.imsgQ ptr (traffic.imsgQ ptr).tail }

end Traffic

/-! ## Traffic, shape and flags after the elementary operations -/

namespace Proxy

variable (proxy : Proxy) (ptr : LinkPtr) (buffer : Buffer)

/-- Traffic after assigning fields of one link. -/
theorem traffic_modify_eq (change : Link → Link) :
    (proxy.modify ptr change).traffic =
      { proxy.traffic with
        imsgQ := Function.update proxy.traffic.imsgQ ptr (change (proxy.links ptr)).imsgQ
        omsgQ := Function.update proxy.traffic.omsgQ ptr (change (proxy.links ptr)).omsgQ } := by
  ext1
  · funext other
    exact Function.apply_update (fun _ link => link.imsgQ) proxy.links ptr _ other
  · funext other
    exact Function.apply_update (fun _ link => link.omsgQ) proxy.links ptr _ other
  all_goals rfl

theorem traffic_modify {change : Link → Link}
    (imsgQ : ∀ link, (change link).imsgQ = link.imsgQ)
    (omsgQ : ∀ link, (change link).omsgQ = link.omsgQ) :
    (proxy.modify ptr change).traffic = proxy.traffic := by
  rw [traffic_modify_eq, imsgQ, omsgQ, ← traffic_imsgQ, ← traffic_omsgQ,
    Function.update_eq_self, Function.update_eq_self]

theorem shape_modify {change : Link → Link}
    (info : ∀ link, (change link).toLinkInfo = link.toLinkInfo) :
    (proxy.modify ptr change).shape = proxy.shape := by
  ext1
  · rfl
  · rfl
  · rfl
  · rfl
  · funext other
    have updated := Function.apply_update (fun _ link => link.toLinkInfo) proxy.links ptr
      (change (proxy.links ptr)) other
    rw [info] at updated
    exact updated.trans
      (congrFun (Function.update_eq_self ptr fun ptr => (proxy.links ptr).toLinkInfo) other)

theorem flags_modify_eq (change : Link → Link) :
    (proxy.modify ptr change).flags =
      Function.update proxy.flags ptr (change (proxy.links ptr)).flags := by
  funext other
  exact Function.apply_update (fun _ link => link.flags) proxy.links ptr _ other

theorem flags_modify {change : Link → Link}
    (flags : ∀ link, (change link).flags = link.flags) :
    (proxy.modify ptr change).flags = proxy.flags := by
  rw [flags_modify_eq, flags]
  exact Function.update_eq_self ptr proxy.flags

@[simp] theorem traffic_setIn : (proxy.setIn ptr).traffic = proxy.traffic := rfl
@[simp] theorem traffic_setOut : (proxy.setOut ptr).traffic = proxy.traffic := rfl
@[simp] theorem traffic_clrOut : (proxy.clrOut ptr).traffic = proxy.traffic := rfl
@[simp] theorem traffic_fdDel : (proxy.fdDel ptr).traffic = proxy.traffic := rfl
@[simp] theorem traffic_armOut : (proxy.armOut ptr).traffic = proxy.traffic := rfl

@[simp] theorem shape_setIn : (proxy.setIn ptr).shape = proxy.shape := rfl
@[simp] theorem shape_setOut : (proxy.setOut ptr).shape = proxy.shape := rfl
@[simp] theorem shape_clrOut : (proxy.clrOut ptr).shape = proxy.shape := rfl
@[simp] theorem shape_fdDel : (proxy.fdDel ptr).shape = proxy.shape := rfl
@[simp] theorem shape_armOut : (proxy.armOut ptr).shape = proxy.shape := rfl

@[simp] theorem flags_setIn : (proxy.setIn ptr).flags = proxy.flags := rfl
@[simp] theorem flags_setOut : (proxy.setOut ptr).flags = proxy.flags := rfl
@[simp] theorem flags_clrOut : (proxy.clrOut ptr).flags = proxy.flags := rfl
@[simp] theorem flags_fdDel : (proxy.fdDel ptr).flags = proxy.flags := rfl
@[simp] theorem flags_armOut : (proxy.armOut ptr).flags = proxy.flags := rfl

@[simp] theorem traffic_pushImsg :
    (proxy.pushImsg ptr buffer).traffic = proxy.traffic.push ptr buffer := by
  rw [pushImsg, traffic_modify_eq, Traffic.push, ← traffic_omsgQ, Function.update_eq_self,
    traffic_imsgQ]

@[simp] theorem traffic_popOmsg : (proxy.popOmsg ptr).traffic = proxy.traffic.pop ptr := by
  rw [popOmsg, traffic_modify_eq, Traffic.pop, ← traffic_imsgQ, Function.update_eq_self,
    traffic_omsgQ]

@[simp] theorem traffic_markError : (proxy.markError ptr).traffic = proxy.traffic :=
  traffic_modify proxy ptr (fun _ => rfl) fun _ => rfl

@[simp] theorem traffic_takeReply :
    (State.takeReply proxy ptr).traffic = proxy.traffic.read ptr := rfl

@[simp] theorem traffic_receive :
    (Ctx.receive proxy ptr buffer).traffic = proxy.traffic.receive ptr buffer := rfl

@[simp] theorem shape_pushImsg : (proxy.pushImsg ptr buffer).shape = proxy.shape :=
  shape_modify proxy ptr fun _ => rfl

@[simp] theorem shape_popOmsg : (proxy.popOmsg ptr).shape = proxy.shape :=
  shape_modify proxy ptr fun _ => rfl

@[simp] theorem shape_markError : (proxy.markError ptr).shape = proxy.shape :=
  shape_modify proxy ptr fun _ => rfl

@[simp] theorem flags_pushImsg : (proxy.pushImsg ptr buffer).flags = proxy.flags :=
  flags_modify proxy ptr fun _ => rfl

@[simp] theorem flags_popOmsg : (proxy.popOmsg ptr).flags = proxy.flags :=
  flags_modify proxy ptr fun _ => rfl

@[simp] theorem flags_takeReply : (State.takeReply proxy ptr).flags = proxy.flags := rfl

@[simp] theorem flags_receive : (Ctx.receive proxy ptr buffer).flags = proxy.flags := rfl

@[simp] theorem flags_msgSend : (proxy.msgSend ptr buffer).flags = proxy.flags := rfl

@[simp] theorem flags_msgWrite : (proxy.msgWrite ptr buffer).flags = proxy.flags := rfl

@[simp] theorem shape_takeReply : (State.takeReply proxy ptr).shape = proxy.shape := rfl

@[simp] theorem shape_receive : (Ctx.receive proxy ptr buffer).shape = proxy.shape := rfl

theorem traffic_msgWrite :
    (proxy.msgWrite ptr buffer).traffic =
      { proxy.traffic with
        delivered := Function.update proxy.traffic.delivered ptr
          (proxy.traffic.delivered ptr ++ [buffer]) } := rfl

@[simp] theorem shape_msgSend : (proxy.msgSend ptr buffer).shape = proxy.shape := rfl

@[simp] theorem shape_msgWrite : (proxy.msgWrite ptr buffer).shape = proxy.shape := rfl

theorem traffic_sendFront :
    (proxy.sendFront ptr buffer true).traffic = proxy.traffic.transmit ptr buffer := by
  ext1
  · funext other
    by_cases same : other = ptr
    · subst same
      simp [sendFront, msgSend, modify, setIn, traffic]
    · simp [sendFront, msgSend, modify, setIn, traffic, same]
  · funext other
    by_cases same : other = ptr
    · subst same
      simp [sendFront, msgSend, modify, setIn, traffic]
    · simp [sendFront, msgSend, modify, setIn, traffic, same]
  all_goals rfl

@[simp] theorem shape_sendFront (written : Bool) :
    (proxy.sendFront ptr buffer written).shape = proxy.shape := by
  cases written <;> simp [sendFront, shape_modify]

@[simp] theorem flags_sendFront :
    (proxy.sendFront ptr buffer true).flags = proxy.flags := by
  simp only [sendFront, if_true, flags_setIn]
  rw [flags_modify _ _ fun link => by rfl, flags_msgSend, flags_modify _ _ fun link => by rfl]

theorem traffic_popImsg :
    (proxy.modify ptr fun link => { link with imsgQ := link.imsgQ.tail }).traffic =
      proxy.traffic.discard ptr := by
  rw [traffic_modify_eq, Traffic.discard, ← traffic_omsgQ, Function.update_eq_self,
    traffic_imsgQ]

theorem traffic_sendFront_lost :
    (proxy.sendFront ptr buffer false).traffic = proxy.traffic.discard ptr := by
  simp only [sendFront, Bool.false_eq_true, if_false, traffic_fdDel, traffic_markError]
  exact traffic_popImsg proxy ptr

/-- `rsp_send` on a link with a queued answer. -/
theorem traffic_rspSend {rest : List Buffer} (written : Bool)
    (queued : (proxy.links ptr).imsgQ = buffer :: rest) :
    (proxy.rspSend ptr written).traffic =
      if written && buffer.nonempty then proxy.traffic.deliver ptr buffer
      else proxy.traffic.discard ptr := by
  rw [rspSend, queued]
  by_cases complete : (written && buffer.nonempty) = true
  · simp only [complete, if_true]
    rw [traffic_msgWrite, traffic_popImsg]
    rfl
  · simp only [complete, Bool.false_eq_true, if_false, traffic_fdDel, traffic_markError]
    exact traffic_popImsg proxy ptr

@[simp] theorem shape_rspSend (written : Bool) :
    (proxy.rspSend ptr written).shape = proxy.shape := by
  unfold rspSend
  split
  · simp
  · split <;> simp [shape_modify]

end Proxy

end BespoKV
