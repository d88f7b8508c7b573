import BespoKV.Proxy.Isolation

/-!
# Requests on the way to a datalet

A request queued on a datalet link is pending until the datalet takes it.  Where
requests are not passed on along a chain, only reads from clients add to what is
pending, only the datalet takes from it, and it is lost only with the link.
-/

namespace BespoKV

/-- Requests on the way to the datalet behind a link, oldest first. -/
def Proxy.pending (proxy : Proxy) (ptr : LinkPtr) : List Buffer :=
  (proxy.wire ptr).req ++ (proxy.links ptr).imsgQ

def Traffic.pending (traffic : Traffic) (ptr : LinkPtr) : List Buffer :=
  (traffic.wire ptr).req ++ traffic.imsgQ ptr

theorem Proxy.traffic_pending (proxy : Proxy) (ptr : LinkPtr) :
    proxy.traffic.pending ptr = proxy.pending ptr := rfl

namespace Traffic

variable (traffic : Traffic) {ptr other : LinkPtr} (req : Buffer)

theorem pending_push : (traffic.push other req).pending ptr =
    traffic.pending ptr ++ if other = ptr then [req] else [] := by
  by_cases here : other = ptr
  · subst here
    simp [pending]
  · simp [pending, here, Ne.symm here]

theorem pending_push_other (different : ptr ≠ other) :
    (traffic.push other req).pending ptr = traffic.pending ptr := by
  simp [pending_push, different.symm]

@[simp] theorem pending_pop : (traffic.pop other).pending ptr = traffic.pending ptr := rfl

@[simp] theorem pending_receive : (traffic.receive other req).pending ptr = traffic.pending ptr :=
  rfl

@[simp] theorem pending_read : (traffic.read other).pending ptr = traffic.pending ptr := by
  by_cases here : ptr = other
  · subst here
    simp [pending]
  · simp [pending, here]

/-- Copies of a request join what is pending on the links they are queued on. -/
theorem pending_fan (links : List LinkPtr) : (traffic.fan req links).pending ptr =
    traffic.pending ptr ++ List.replicate (links.count ptr) req := by
  induction links generalizing traffic with
  | nil => simp [fan]
  | cons first rest ih =>
      rw [fan, ih, pending_push, List.count_cons, List.append_assoc]
      by_cases here : first = ptr
      · simp [here, List.replicate_succ]
      · simp [here]

theorem pending_transmit {rest : List Buffer} (queued : traffic.imsgQ other = req :: rest) :
    (traffic.transmit other req).pending ptr = traffic.pending ptr := by
  by_cases here : ptr = other
  · subst here
    simp [pending, queued]
  · simp [pending, here]

end Traffic

variable {engine : Engine} {cfg : Config} {state after : State engine}
variable {sessions : List Session} {link ptr : LinkPtr}

/-- The links a forwarded request is queued on. -/
def Ctx.targets (cfg : Config) (proxy : Proxy) (out : LinkPtr) : List LinkPtr :=
  (if Ctx.fansOutBefore cfg proxy out then proxy.getSlaves out else []) ++
    out :: if Ctx.fansOutAfter cfg proxy out then proxy.getSlaves out else []

theorem Ctx.pending_forwarded (mapped : Proxy) (out : LinkPtr) (traffic : Traffic)
    (req : Buffer) :
    (Ctx.forwarded cfg mapped out traffic req).pending ptr =
      traffic.pending ptr ++ List.replicate ((Ctx.targets cfg mapped out).count ptr) req := by
  simp only [forwarded, targets, Traffic.pending_fan, Traffic.pending_push, List.count_append,
    List.count_cons, List.append_assoc, beq_iff_eq]
  by_cases here : out = ptr
  · simp [here, ← List.replicate_succ]
  · simp [here]

/-- Links that are not allocated have nothing pending. -/
theorem Sane.pending_beyond (sane : Sane cfg state sessions) (large : state.proxy.next ≤ ptr) :
    state.proxy.pending ptr = [] := by
  have quiet := sane.quiet_beyond large
  rw [← Proxy.traffic_pending, Traffic.pending, quiet.wire, quiet.imsgQ]
  rfl

/-- The answer of a datalet changes nothing about what is pending. -/
theorem Sane.pending_response (passive : cfg.msStrongCr = false)
    (sane : Sane cfg state sessions) (moved : state.step cfg (.response link) = .ok after)
    (isDatalet : (state.proxy.links ptr).nwFunc ≠ .request) :
    after.proxy.pending ptr = state.proxy.pending ptr ∧
      (after.proxy.links ptr).error = (state.proxy.links ptr).error := by
  obtain ⟨reply, replies, arrived, responded⟩ := State.recvResponse_cases moved
  obtain ⟨session, member, inside, _⟩ := sane.response_within moved
  have toClient : ∀ {client : LinkPtr} {pmsg : Buffer} {rest : List Buffer} {traffic : Traffic}
      (msg : Buffer), (state.proxy.links link).omsgQ = pmsg :: rest → pmsg.owner = some client →
      traffic = ((state.proxy.traffic.read link).pop link).push client msg →
      traffic.pending ptr = state.proxy.pending ptr := by
    rintro client pmsg rest _ msg sent owner rfl
    rw [sane.sent_owner member inside sent] at owner
    cases owner
    have different : ptr ≠ session.client := by
      rintro rfl
      exact isDatalet (congrArg LinkInfo.nwFunc (sane.client_info member))
    rw [Traffic.pending_push_other _ _ different]
    simp [Proxy.traffic_pending]
  cases responded with
  | ignored error same => simp [same]
  | server healthy isServer handled same =>
      subst same
      cases handled with
      | chain chain =>
          rw [passive] at chain
          cases chain
      | direct notChain unlocked sent owner moved services =>
          exact ⟨toClient _ sent owner moved.traffic,
            congrArg Flags.error (congrFun moved.flags ptr)⟩
      | unlock locked held sent owner traffic shape flags services =>
          refine ⟨toClient _ sent owner traffic, ?_⟩
          refine (congrArg Flags.error (congrFun flags ptr)).trans ?_
          by_cases here : ptr = link
          · subst here
            simp [Proxy.flags, State.takeReply]
          · simp [here, Proxy.flags, State.takeReply]
  | replica healthy isReplica found handled same =>
      subst same
      cases handled with
      | next chain | last chain | read chain =>
          rw [passive] at chain
          cases chain
      | dropped unused moved =>
          refine ⟨?_, congrArg Flags.error (congrFun moved.flags ptr)⟩
          change (State.withProxy state _).proxy.traffic.pending ptr = _
          rw [show (State.withProxy state _).proxy.traffic = _ from moved.traffic]
          simp [Proxy.traffic_pending]

/-- A write changes nothing about what is pending, or the link fails. -/
theorem State.pending_wrote {written : Bool} {proxy : Proxy}
    (wrote : State.Wrote state.proxy link written proxy)
    (isDatalet : (state.proxy.links ptr).nwFunc ≠ .request) :
    (proxy.pending ptr = state.proxy.pending ptr ∧
      (proxy.links ptr).error = (state.proxy.links ptr).error) ∨
    (ptr = link ∧ written = false ∧ (proxy.links ptr).error = true ∧
      (state.proxy.links ptr).imsgQ ≠ []) := by
  cases wrote with
  | idle nothing moved =>
      exact .inl ⟨congrArg (Traffic.pending · ptr) moved.traffic,
        congrArg Flags.error (congrFun moved.flags ptr)⟩
  | delivered isClient queued complete moved =>
      have different : ptr ≠ link := fun same => isDatalet (same ▸ isClient)
      refine .inl ⟨?_, congrArg Flags.error (congrFun moved.flags ptr)⟩
      rw [← Proxy.traffic_pending, moved.traffic]
      simp [Traffic.pending, Proxy.pending, Proxy.traffic, different]
  | sent func queued moved =>
      refine .inl ⟨?_, congrArg Flags.error (congrFun moved.flags ptr)⟩
      rw [← Proxy.traffic_pending, moved.traffic]
      exact Traffic.pending_transmit _ _ queued
  | failed queued incomplete lost =>
      by_cases here : ptr = link
      · subst here
        rcases incomplete with failed | ⟨isClient, _⟩
        · exact .inr ⟨rfl, failed, lost.marked, by simp [queued]⟩
        · exact absurd isClient isDatalet
      · refine .inl ⟨?_, congrArg Flags.error (lost.others ptr here)⟩
        rw [← Proxy.traffic_pending, lost.traffic]
        simp [Traffic.pending, Proxy.pending, Proxy.traffic, here]

/-- Nothing is received from a client with a write. -/
theorem State.Wrote.received {before proxy : Proxy} {written : Bool}
    (wrote : State.Wrote before link written proxy) : proxy.received = before.received := by
  cases wrote with
  | idle nothing moved => exact congrArg Traffic.received moved.traffic
  | delivered isClient queued complete moved => exact congrArg Traffic.received moved.traffic
  | sent func queued moved => exact congrArg Traffic.received moved.traffic
  | failed queued incomplete lost => exact congrArg Traffic.received lost.traffic

namespace State.Handled

variable {addr : AddrType} {req : Buffer} {frame : Frame}

/-- The datalet takes the oldest pending request. -/
theorem pending_self (handled : state.Handled link addr req frame after) :
    state.proxy.pending link = req :: after.proxy.pending link := by
  obtain ⟨rest, waiting⟩ := handled.waiting
  rw [← Proxy.traffic_pending after.proxy, handled.moved.traffic]
  simp [Traffic.pending, Proxy.pending, Proxy.traffic, waiting]

theorem pending_other (handled : state.Handled link addr req frame after)
    (different : ptr ≠ link) : after.proxy.pending ptr = state.proxy.pending ptr := by
  rw [← Proxy.traffic_pending, handled.moved.traffic]
  simp [Traffic.pending, Proxy.pending, Proxy.traffic, different]

end State.Handled

end BespoKV
