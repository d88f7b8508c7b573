import BespoKV.Datalet.Replies

/-!
# Round trips

Every decoder recovers what the encoders framed, from a buffer that holds any number
of frames.  Two conditions on memory are needed.  The proxy's `msg_parse` returns views
of a key and a value that it has already deleted, so what the caller reads depends on
the memory being left alone; and `compose_reply` stores the numbers of a header without
asking for room, so the reply is framed only where the output buffer has it.
-/

namespace BespoKV.Wire

open Fallible

variable {proto : Protobuf} {type data rest : Bytes}

/-! ## The requests of a client -/

/-- The frame of a request. -/
def Request.framed (proto : Protobuf) (message : Request) : Bytes :=
  frame (getOpType message) (proto.request message)

theorem sendMsg_eq (message : Request) : sendMsg proto message = .ok (message.framed proto) :=
  if_neg (proto.request_ne_nil message)

theorem sendMsg_all (requests : List Request) :
    requests.mapM (sendMsg proto) = .ok (requests.map (Request.framed proto)) := by
  induction requests with
  | nil => rfl
  | cons message requests ih =>
      rw [List.mapM_cons, sendMsg_eq, ok_bind, ih]
      rfl

theorem Request.framed_ne_nil (message : Request) : message.framed proto ++ rest ≠ [] :=
  frame_ne_nil rest

/-! ## Decoders on one frame -/

theorem Proxy.msgParse_frame (wellFormed : WellFormed type data) :
    Proxy.msgParse proto (frame type data ++ rest) =
      (Proxy.recvData proto type data).map fun recvData => (recvData, rest) := by
  obtain ⟨longer, total⟩ := wellFormed.sizes
  simp only [Proxy.msgParse, header_frame wellFormed, bytes_type, number_dataLen wellFormed,
    bytes_data, drop_frame, ok_bind, check_of, longer, total, decide_true]
  cases Proxy.recvData proto type data <;> rfl

theorem Datalet.msgParse_frame (wellFormed : WellFormed type data) :
    Datalet.msgParse (frame type data ++ rest) =
      .ok ([⟨20, type.length⟩, ⟨28 + type.length, data.length⟩],
        28 + type.length + data.length) := by
  obtain ⟨longer, total⟩ := wellFormed.sizes
  simp only [Datalet.msgParse, if_neg (frame_ne_nil rest), header_frame wellFormed,
    number_dataLen wellFormed, ok_bind, check_of, longer, total, decide_true]
  rfl

theorem Client.parseResp_frame (wellFormed : WellFormed type data) :
    Client.parseResp proto (frame type data ++ rest) =
      .ok (Client.results proto type data rest) := by
  obtain ⟨longer, total⟩ := wellFormed.sizes
  simp only [Client.parseResp, if_neg (frame_ne_nil rest), header_frame wellFormed, bytes_type,
    number_dataLen wellFormed, bytes_data, drop_frame, ok_bind, check_of, longer, total,
    le_refl, decide_true]
  rfl

/-! ## Decoders on a buffer of frames -/

namespace Request

/-- The requests the decoders know: `msg_parse` of the proxy fails on a `del`. -/
def Supported : Request → Prop
  | .get _ | .put _ _ => True
  | .del _ => False

instance : (message : Request) → Decidable message.Supported
  | .get _ | .put _ _ => .isTrue trivial
  | .del _ => .isFalse id

/-- The operation, the key and the value. -/
def fields : Request → List Bytes
  | .get key => [text "get", key]
  | .put key value => [text "set", key, value]
  | .del key => [text "del", key]

/-- `recv_data` for a request. -/
def views : Request → List View
  | .get key => [.owned (text "get"), .deleted key]
  | .put key value => [.owned (text "set"), .deleted key, .deleted value]
  | .del _ => []

/-- The memory that held the key and the value of a request still holds them after the
protobuf message has been deleted. -/
def Kept (freed : Bytes → Bytes) : Request → Prop
  | .get key => freed key = key
  | .put key value => freed key = key ∧ freed value = value
  | .del _ => True

/-- What is read is what was sent, exactly where the memory has been left alone. -/
theorem views_read_iff {freed : Bytes → Bytes} {message : Request}
    (supported : message.Supported) :
    message.views.map (View.read freed) = message.fields ↔ message.Kept freed := by
  cases message with
  | get key => simp [views, fields, View.read, Kept]
  | put key value => simp [views, fields, View.read, Kept]
  | del key => exact supported.elim

theorem views_ne_nil {message : Request} (supported : message.Supported) :
    message.views ≠ [] := by
  cases message with
  | get | put => exact List.cons_ne_nil _ _
  | del => exact supported.elim

end Request

theorem Proxy.recvData_request {message : Request} (supported : message.Supported) :
    Proxy.recvData proto (getOpType message) (proto.request message) = .ok message.views := by
  cases message with
  | get key =>
      simp only [Proxy.recvData, getOpType, proto.parse_request, if_true]
      rfl
  | put key value =>
      have other : putMessage ≠ getMessage := by decide
      simp only [Proxy.recvData, getOpType, proto.parse_request, if_neg other, if_true]
      rfl
  | del key => exact supported.elim

section Buffers

variable {requests : List Request}

/-- The requests of a client, one frame after the other. -/
def buffer (proto : Protobuf) (requests : List Request) : Bytes :=
  (requests.map (Request.framed proto)).flatten

@[simp] theorem buffer_cons (message : Request) :
    buffer proto (message :: requests) = message.framed proto ++ buffer proto requests := rfl

theorem wellFormed_head {message : Request}
    (small : (buffer proto (message :: requests)).length < 2 ^ 30) :
    WellFormed (getOpType message) (proto.request message) := by
  refine ⟨proto.request_ne_nil message, ?_⟩
  rw [buffer_cons, List.length_append, Request.framed, frame_length] at small
  omega

/-- A loop that is called on a buffer of frames meets the first one with rounds to spare
for the others. -/
theorem rounds_left {message : Request} {rounds : Nat}
    (enough : (buffer proto (message :: requests)).length ≤ rounds) :
    ∃ left, rounds = left + 1 ∧ (buffer proto requests).length ≤ left := by
  rw [buffer_cons, List.length_append, Request.framed, frame_length] at enough
  exact ⟨rounds - 1, by omega, by omega⟩

theorem small_tail {message : Request}
    (small : (buffer proto (message :: requests)).length < 2 ^ 30) :
    (buffer proto requests).length < 2 ^ 30 := by
  rw [buffer_cons, List.length_append] at small
  omega

/-- The segmentation loop ends, and cuts the buffer into the frames. -/
theorem Proxy.reqRecv_buffer (supported : ∀ message ∈ requests, message.Supported)
    (small : (buffer proto requests).length < 2 ^ 30) {rounds : Nat}
    (enough : (buffer proto requests).length ≤ rounds) :
    Proxy.reqRecv proto rounds (buffer proto requests) =
      .ok (requests.map fun message => ⟨message.views, message.framed proto⟩) := by
  induction requests generalizing rounds with
  | nil => cases rounds <;> rfl
  | cons message requests ih =>
      obtain ⟨left, rfl, spared⟩ := rounds_left enough
      have wellFormed := wellFormed_head small
      have supportedHead := supported message List.mem_cons_self
      have later := ih (fun other member => supported other (List.mem_cons_of_mem _ member))
        (small_tail small) spared
      have parsed : Proxy.parse proto (message.framed proto ++ buffer proto requests) =
          .ok (message.views, buffer proto requests) := by
        rw [Proxy.parse, if_neg message.framed_ne_nil, Request.framed,
          Proxy.msgParse_frame wellFormed, Proxy.recvData_request supportedHead]
        rfl
      have cut : (message.framed proto ++ buffer proto requests).take
          ((message.framed proto ++ buffer proto requests).length -
            (buffer proto requests).length) = message.framed proto := by
        rw [List.length_append, Nat.add_sub_cancel, List.take_left]
      rw [buffer_cons, Proxy.reqRecv_of_ne_nil message.framed_ne_nil, parsed, ok_bind]
      simp only [check_of (decide_eq_true (Request.views_ne_nil supportedHead)), ok_bind, later,
        cut]
      rfl

/-- The datalet's decoder, called until the buffer is empty, gives the type names and the
payloads. -/
theorem Datalet.requests_buffer (small : (buffer proto requests).length < 2 ^ 30)
    {rounds : Nat} (enough : (buffer proto requests).length ≤ rounds) :
    Datalet.requests rounds (buffer proto requests) =
      .ok (requests.map fun message => [getOpType message, proto.request message]) := by
  induction requests generalizing rounds with
  | nil => cases rounds <;> rfl
  | cons message requests ih =>
      obtain ⟨left, rfl, spared⟩ := rounds_left enough
      have wellFormed := wellFormed_head small
      have later := ih (small_tail small) spared
      rw [buffer_cons, Datalet.requests_of_ne_nil message.framed_ne_nil, Request.framed,
        Datalet.msgParse_frame wellFormed, ok_bind]
      simp only [List.mapM_cons, List.mapM_nil, bytes_type, bytes_data, drop_frame, ok_bind,
        later]
      rfl

end Buffers

/-- A reply as a client gets it: it is decoded and its frame consumed, a value that was found
joins the results, and so does the success or the refusal of a `put`. -/
structure Client.Decoded (type : Bytes) (message : Reply) (rest : Bytes) (outcome : Outcome) :
    Prop where
  response : outcome.response = some message
  rest : outcome.rest = rest
  retrievalResults : outcome.retrievalResults =
    if type = getMessage ∧ message.status = 0 then [message.value.getD []] else []
  messageResults : outcome.messageResults =
    if type = putMessage ∧ message.status = 0 then [.stored]
    else if type = putMessage ∧ message.status = -3 then [.notStored] else []

theorem Client.results_reply (message : Reply) (known : type ∈ [getMessage, putMessage]) :
    Client.Decoded type message rest (Client.results proto type (proto.reply message) rest) := by
  have other : putMessage ≠ getMessage := by decide
  simp only [List.mem_cons, List.not_mem_nil, or_false] at known
  simp only [Client.results, proto.parse_reply, Option.getD_some]
  rcases known with rfl | rfl
  · by_cases found : message.status = 0
    · constructor <;> simp [found, other.symm]
    · constructor <;> simp [found, other.symm]
  · by_cases stored : message.status = 0
    · constructor <;> simp [other, stored]
    · by_cases refused : message.status = -3
      · constructor <;> simp [other, refused]
      · constructor <;> simp [other, stored, refused]

/-! ## A protobuf

A serialization with the assumed properties: a tag, and lengths and numbers in unary. -/

namespace Protobuf

private def unary : Nat → Bytes → Bytes
  | 0, rest => 0 :: rest
  | n + 1, rest => 1 :: unary n rest

private def count : Bytes → Nat × Bytes
  | [] => (0, [])
  | byte :: rest => if byte = 1 then ((count rest).1 + 1, (count rest).2) else (0, rest)

private theorem count_unary (n : Nat) (rest : Bytes) : count (unary n rest) = (n, rest) := by
  induction n with
  | zero => rfl
  | succ n ih => rw [unary, count, if_pos rfl, ih]

private def tagRequest : Request → Bytes
  | .get key => 1 :: key
  | .put key value => 2 :: unary key.length (key ++ value)
  | .del key => 3 :: key

private def untagRequest : Bytes → Option Request
  | [] => none
  | tag :: rest =>
      if tag = 1 then some (.get rest)
      else if tag = 2 then
        some (.put ((count rest).2.take (count rest).1) ((count rest).2.drop (count rest).1))
      else some (.del rest)

private def tagReply (message : Reply) : Bytes :=
  (if message.status < 0 then 1 else 0) :: unary message.status.natAbs
    (match message.value with
      | none => []
      | some value => 0 :: value)

private def untagReply : Bytes → Option Reply
  | [] => none
  | sign :: rest => some
      ⟨if sign = 1 then -((count rest).1 : Int) else (count rest).1,
        match (count rest).2 with
        | [] => none
        | _ :: value => some value⟩

def tagged : Protobuf where
  request := tagRequest
  parseRequest := untagRequest
  reply := tagReply
  parseReply := untagReply
  parse_request := by
    intro message
    cases message with
    | get key => rfl
    | put key value =>
        rw [tagRequest, untagRequest, if_neg (by decide), if_pos rfl, count_unary,
          List.take_left, List.drop_left]
    | del key => rfl
  parse_reply := by
    rintro ⟨status, value⟩
    rw [tagReply, untagReply, count_unary]
    have signed : (if (if status < 0 then (1 : UInt8) else 0) = 1 then -(status.natAbs : Int)
        else status.natAbs) = status := by
      by_cases negative : status < 0
      · rw [if_pos negative, if_pos rfl]
        omega
      · rw [if_neg negative, if_neg (by decide)]
        omega
    cases value <;> simp only [signed]
  request_ne_nil := by
    intro message
    cases message <;> exact List.cons_ne_nil _ _
  reply_ne_nil := fun _ => List.cons_ne_nil _ _

end Protobuf

/-! ## Round trip -/

/-- Every decoder recovers what was framed, exactly where deleted keys and values keep their
bytes and the reply fits into the output buffer of the datalet. -/
theorem wire_round_trip (proto : Protobuf) (freed : Bytes → Bytes) (requests : List Request)
    (supported : ∀ message ∈ requests, message.Supported)
    (small : (buffer proto requests).length < 2 ^ 30)
    (output : Str) (valid : output.Valid) (reply : Str.Composing) (message : Reply)
    (known : reply.type ∈ [getMessage, putMessage]) (serialized : reply.data = proto.reply message)
    (size : reply.totalLen < 2 ^ 30) :
    (requests.mapM (sendMsg proto) = .ok (requests.map (Request.framed proto)) ∧
      (∃ segments, Proxy.reqRecv proto (buffer proto requests).length (buffer proto requests) =
          .ok segments ∧
        segments.map (fun segment => segment.recvData.map (View.read freed)) =
          requests.map Request.fields ∧
        segments.map Proxy.Segment.req = requests.map (Request.framed proto)) ∧
      Datalet.requests (buffer proto requests).length (buffer proto requests) =
        .ok (requests.map fun message => [getOpType message, proto.request message]) ∧
      ∃ stages framed, output.composeReply reply = .ok stages ∧
        (stages.getLastD output).contents = output.contents ++ framed ∧
        ∀ rest, ∃ outcome, Client.parseResp proto (framed ++ rest) = .ok outcome ∧
          Client.Decoded reply.type message rest outcome) ↔
      (∀ message ∈ requests, message.Kept freed) ∧ output.Fits reply := by
  have received := Proxy.reqRecv_buffer supported small le_rfl
  have int : reply.totalLen < 2 ^ 31 := by omega
  constructor
  · rintro ⟨-, ⟨segments, cut, fields, -⟩, -, stages, framed, composed, -⟩
    refine ⟨fun message member => ?_, Str.fits_of_composeReply valid int composed⟩
    rw [received] at cut
    cases cut
    rw [List.map_map, List.map_inj_left] at fields
    exact (Request.views_read_iff (supported message member)).mp (fields message member)
  · rintro ⟨kept, fits⟩
    refine ⟨sendMsg_all requests, ⟨_, received, ?_, ?_⟩, Datalet.requests_buffer small le_rfl, ?_⟩
    · rw [List.map_map]
      exact List.map_congr_left fun message member =>
        (Request.views_read_iff (supported message member)).mpr (kept message member)
    · rw [List.map_map]
      rfl
    · obtain ⟨stages, composed, -, contents⟩ := fits.composes valid int
      refine ⟨stages, _, composed, contents, fun rest => ?_⟩
      rw [serialized]
      refine ⟨_, Client.parseResp_frame ⟨proto.reply_ne_nil message, ?_⟩,
        Client.results_reply message known⟩
      rwa [← serialized]

/-- A `put` and a `get`, with memory left alone and an output buffer of eight kilobytes. -/
theorem wire_round_trip_sample :
    (∃ segments, Proxy.reqRecv .tagged (buffer .tagged [.put [7] [8, 9], .get [7]]).length
        (buffer .tagged [.put [7] [8, 9], .get [7]]) = .ok segments ∧
      segments.map (fun segment => segment.recvData.map (View.read id)) =
        [[text "set", [7], [8, 9]], [text "get", [7]]]) ∧
    ∃ stages framed outcome,
      (Str.new 8192 fun _ => 0).composeReply ⟨getMessage,
        Protobuf.tagged.reply ⟨0, some [8, 9]⟩, fun _ => none, fun _ => none⟩ = .ok stages ∧
      (stages.getLastD (Str.new 8192 fun _ => 0)).contents = framed ∧
      Client.parseResp .tagged (framed ++ []) = .ok outcome ∧
      outcome.retrievalResults = [[8, 9]] := by
  have fits : (Str.new 8192 fun _ => 0).Fits ⟨getMessage,
      Protobuf.tagged.reply ⟨0, some [8, 9]⟩, fun _ => none, fun _ => none⟩ :=
    ⟨by decide, by decide, 8192, 8192, .enough (by decide), by decide, .enough (by decide)⟩
  obtain ⟨-, ⟨segments, received, fields, -⟩, -, stages, framed, composed, contents, parsed⟩ :=
    (wire_round_trip .tagged id [.put [7] [8, 9], .get [7]] (by simp [Request.Supported])
      (by decide) (Str.new 8192 fun _ => 0) (.new (by decide) (by decide)) ⟨getMessage,
        Protobuf.tagged.reply ⟨0, some [8, 9]⟩, fun _ => none, fun _ => none⟩ ⟨0, some [8, 9]⟩
      (by simp) rfl (by decide)).mpr ⟨by simp [Request.Kept], fits⟩
  obtain ⟨outcome, parses, -, -, results, -⟩ := parsed []
  exact ⟨⟨segments, received, fields⟩, stages, framed, outcome, composed, contents, parses,
    results⟩

/-- Without the two conditions: where deleted memory has been cleared, a `get` is received
with another key than the one that was sent; and the first reply on a connection is
written beyond the eight bytes of the new output buffer. -/
theorem wire_round_trip_fails :
    (∃ segments, Proxy.reqRecv .tagged (buffer .tagged [.get [7]]).length
        (buffer .tagged [.get [7]]) = .ok segments ∧
      segments.map (fun segment => segment.recvData.map
        (View.read fun content => List.replicate content.length 0)) = [[text "get", [0]]]) ∧
    (Str.new 8 fun _ => 0).composeReply ⟨getMessage, Protobuf.tagged.reply ⟨0, some [8, 9]⟩,
      fun _ => none, fun _ => none⟩ = .error (.memory .outside) := by
  refine ⟨⟨_, Proxy.reqRecv_buffer (by simp [Request.Supported]) (by decide) le_rfl, ?_⟩, ?_⟩
  · rfl
  · exact (Str.composeReply_new _ _).trans (congrArg _ (if_pos (by decide)))

end BespoKV.Wire
