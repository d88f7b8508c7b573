import BespoKV.Wire.RoundTrip

/-!
# Frames that arrive in parts

TCP may deliver any number of the first bytes of a frame.  The decoders compare the
fields of a header with each other and never with the bytes they have: of a frame that
has only partly arrived, the proxy and the client always read bytes beyond the buffer,
and a datalet does so too or hands on a request that is not there yet.  None of them
waits, wherever a frame is cut.
-/

namespace BespoKV.Wire

open Fallible

variable {proto : Protobuf} {type data message : Bytes} {length offset size : Nat}

/-! ## Buffers cut short -/

theorem number_take (cut : length ≤ message.length) (inside : offset + size ≤ length) :
    number (message.take length) offset size = number message offset size := by
  rw [number, number, Octets.read_take cut, if_pos inside]

theorem bytes_take (cut : length ≤ message.length) (inside : offset + size ≤ length) :
    bytes (message.take length) offset size = bytes message offset size := by
  rw [bytes, bytes, Octets.read_take cut, if_pos inside]

theorem number_take_beyond (cut : length ≤ message.length) (beyond : length < offset + size) :
    number (message.take length) offset size = .error .overread := by
  rw [number, Octets.read_take cut, if_neg (Nat.not_le.mpr beyond)]

theorem bytes_take_beyond (cut : length ≤ message.length) (beyond : length < offset + size) :
    bytes (message.take length) offset size = .error .overread := by
  rw [bytes, Octets.read_take cut, if_neg (Nat.not_le.mpr beyond)]

section Cut

variable (wellFormed : WellFormed type data) (cut : length ≤ (frame type data).length)

private theorem whole : frame type data = frame type data ++ [] := (List.append_nil _).symm

include wellFormed cut

theorem header_cut (inside : 20 ≤ length) :
    header ((frame type data).take length) =
      .ok (28 + type.length + data.length, type.length) := by
  have same := header_frame wellFormed []
  rw [List.append_nil, header] at same
  rw [header, number_take cut (by omega), number_take cut (by omega),
    number_take cut (by omega), same]

/-- Each of the three numbers of the header is read whether or not it has arrived. -/
theorem header_cut_beyond (beyond : length < 20) :
    header ((frame type data).take length) = .error .overread := by
  have magicRead : number (frame type data) 0 4 = .ok magic := whole ▸ number_magic []
  have totalRead : number (frame type data) 4 8 = .ok (28 + type.length + data.length) :=
    whole ▸ number_totalSize wellFormed []
  have small : 28 + type.length + data.length < 1073741826 :=
    wellFormed.small.trans (by decide)
  rw [header]
  rcases Nat.lt_or_ge length 4 with short | four
  · rw [number_take_beyond cut (by omega), error_bind]
  rw [number_take cut (by omega), magicRead, ok_bind, check_of (decide_eq_true rfl), ok_bind]
  rcases Nat.lt_or_ge length 12 with short | twelve
  · rw [number_take_beyond cut (by omega), error_bind]
  rw [number_take cut (by omega), totalRead, ok_bind, check_of (decide_eq_true small), ok_bind,
    number_take_beyond cut (by omega), error_bind]

/-- A decoder that reads the type name and the payload of a frame that lacks a byte reads
a byte that is not there, whatever it asks of the sizes and does afterwards. -/
private theorem fields_cut {α : Type} (partly : length < 28 + type.length + data.length)
    (agree : Nat → Nat → Nat → Bool)
    (agrees : agree (28 + type.length + data.length) type.length data.length = true)
    (next : Nat → Nat → Nat → Bytes → Bytes → Except Fault α) :
    (do
      let (totalSize, typeLen) ← header ((frame type data).take length)
      let name ← bytes ((frame type data).take length) 20 typeLen
      let dataLen ← number ((frame type data).take length) (20 + typeLen) 8
      check (28 + typeLen < totalSize)
      check (agree totalSize typeLen dataLen)
      let payload ← bytes ((frame type data).take length) (28 + typeLen) dataLen
      next totalSize typeLen dataLen name payload) = .error .overread := by
  have typeRead : bytes (frame type data) 20 type.length = .ok type := whole ▸ bytes_type []
  have dataLenRead : number (frame type data) (20 + type.length) 8 = .ok data.length :=
    whole ▸ number_dataLen wellFormed []
  have longer := wellFormed.sizes.1
  rcases Nat.lt_or_ge length 20 with short | header
  · rw [header_cut_beyond wellFormed cut short, error_bind]
  rw [header_cut wellFormed cut header, ok_bind]
  dsimp only
  rcases Nat.lt_or_ge length (20 + type.length) with short | name
  · rw [bytes_take_beyond cut short, error_bind]
  rw [bytes_take cut name, typeRead, ok_bind]
  rcases Nat.lt_or_ge length (28 + type.length) with short | sizes
  · rw [number_take_beyond cut (by omega), error_bind]
  rw [number_take cut (by omega), dataLenRead, ok_bind, check_of (decide_eq_true longer),
    ok_bind, check_of agrees, ok_bind, bytes_take_beyond cut partly, error_bind]

omit wellFormed in
private theorem take_ne_nil (some : 0 < length) : (frame type data).take length ≠ [] := by
  rw [← List.length_pos_iff, List.length_take]
  omega

theorem Proxy.parse_cut (some : 0 < length) (partly : length < (frame type data).length) :
    Proxy.parse proto ((frame type data).take length) = .error .overread := by
  rw [frame_length] at partly
  rw [Proxy.parse, if_neg (take_ne_nil cut some)]
  exact fields_cut wellFormed cut partly
    (fun totalSize typeLen dataLen => (28 + typeLen + dataLen) % 2 ^ 64 = totalSize)
    (decide_eq_true wellFormed.sizes.2)
    (fun _ typeLen dataLen cmd payload => do
      let recvData ← Proxy.recvData proto cmd payload
      return (recvData, ((frame type data).take length).drop (28 + typeLen + dataLen)))

theorem Client.parseResp_cut (some : 0 < length) (partly : length < (frame type data).length) :
    Client.parseResp proto ((frame type data).take length) = .error .overread := by
  rw [frame_length] at partly
  rw [Client.parseResp, if_neg (take_ne_nil cut some)]
  exact fields_cut wellFormed cut partly
    (fun totalSize typeLen dataLen => (28 + typeLen + dataLen) % 2 ^ 64 ≤ totalSize)
    (decide_eq_true wellFormed.sizes.2.le)
    (fun totalSize typeLen dataLen op reply => do
      check (28 + typeLen + dataLen = totalSize)
      return Client.results proto op reply
        (((frame type data).take length).drop (28 + typeLen + dataLen)))

/-- A datalet reads no further than the size of the payload. -/
theorem Datalet.msgParse_cut (some : 0 < length) :
    Datalet.msgParse ((frame type data).take length) =
      if 28 + type.length ≤ length then
        .ok ([⟨20, type.length⟩, ⟨28 + type.length, data.length⟩],
          28 + type.length + data.length)
      else .error .overread := by
  have dataLenRead : number (frame type data) (20 + type.length) 8 = .ok data.length :=
    whole ▸ number_dataLen wellFormed []
  obtain ⟨longer, total⟩ := wellFormed.sizes
  rw [Datalet.msgParse, if_neg (take_ne_nil cut some)]
  rcases Nat.lt_or_ge length 20 with short | header
  · rw [header_cut_beyond wellFormed cut short, error_bind, if_neg (by omega)]
  rw [header_cut wellFormed cut header, ok_bind]
  dsimp only
  split
  next sizes =>
    rw [number_take cut (by omega), dataLenRead, ok_bind, check_of (decide_eq_true longer),
      ok_bind, check_of (decide_eq_true total), ok_bind]
    rfl
  next short =>
    rw [number_take_beyond cut (by omega), error_bind]

end Cut

/-! ## Waiting for a frame -/

/-- The proxy waits: it reads no byte beyond those received, produces no `recv_data` and keeps the
buffer. -/
def Proxy.Waits (proto : Protobuf) (received : Bytes) : Prop :=
  Proxy.parse proto received = .ok ([], received)

/-- A datalet waits. -/
def Datalet.Waits (received : Bytes) : Prop := Datalet.msgParse received = .ok ([], 0)

/-- The client waits: the error code may be any, but nothing is decoded. -/
def Client.Waits (proto : Protobuf) (received : Bytes) : Prop :=
  ∃ err, Client.parseResp proto received = .ok ⟨err, none, [], [], received⟩

/-- No decoder ever waits for the rest of a frame. -/
theorem decoders_never_wait (proto : Protobuf) (type data : Bytes) (length : Nat)
    (wellFormed : WellFormed type data) (some : 0 < length)
    (partly : length < (frame type data).length) :
    ¬Proxy.Waits proto ((frame type data).take length) ∧
      ¬Datalet.Waits ((frame type data).take length) ∧
      ¬Client.Waits proto ((frame type data).take length) := by
  refine ⟨fun waits => ?_, fun waits => ?_, fun ⟨err, waits⟩ => ?_⟩
  · rw [Proxy.Waits, Proxy.parse_cut wellFormed partly.le some partly] at waits
    cases waits
  · rw [Datalet.Waits, Datalet.msgParse_cut wellFormed partly.le some] at waits
    split at waits <;> cases waits
  · rw [Client.parseResp_cut wellFormed partly.le some partly] at waits
    cases waits

private theorem tagged_get :
    WellFormed (getOpType (.get [7])) (Protobuf.tagged.request (.get [7])) :=
  ⟨by decide, by decide⟩

private theorem tagged_found : WellFormed getMessage (Protobuf.tagged.reply ⟨0, some [8]⟩) :=
  ⟨by decide, by decide⟩

/-- All but the last byte of a request and of a reply. -/
theorem decoders_never_wait_sample :
    ¬Proxy.Waits .tagged ((Request.framed .tagged (.get [7])).take 49) ∧
      ¬Client.Waits .tagged ((frame getMessage (Protobuf.tagged.reply ⟨0, some [8]⟩)).take 51) :=
  ⟨(decoders_never_wait .tagged _ _ 49 tagged_get (by decide) (by decide)).1,
    (decoders_never_wait .tagged _ _ 51 tagged_found (by decide) (by decide)).2.2⟩

/-- At every cut of a request and a reply the proxy and the client read beyond the buffer, and so
does the datalet or it takes a request of more bytes than it has. -/
theorem decoders_overread :
    (∀ length, 0 < length → length < (Request.framed .tagged (.get [7])).length →
      Proxy.parse .tagged ((Request.framed .tagged (.get [7])).take length) =
        .error .overread ∧
      (Datalet.msgParse ((Request.framed .tagged (.get [7])).take length) = .error .overread ∨
        ∃ readBuf parsed, Datalet.msgParse ((Request.framed .tagged (.get [7])).take length) =
          .ok (readBuf, parsed) ∧ readBuf ≠ [] ∧ length < parsed)) ∧
    ∀ length, 0 < length →
      length < (frame getMessage (Protobuf.tagged.reply ⟨0, some [8]⟩)).length →
      Client.parseResp .tagged
        ((frame getMessage (Protobuf.tagged.reply ⟨0, some [8]⟩)).take length) =
          .error .overread := by
  refine ⟨fun length some partly => ⟨Proxy.parse_cut tagged_get partly.le some partly, ?_⟩,
    fun length some partly => Client.parseResp_cut tagged_found partly.le some partly⟩
  rw [Request.framed, Datalet.msgParse_cut tagged_get partly.le some]
  split
  next =>
    rw [Request.framed, frame_length] at partly
    exact .inr ⟨_, _, rfl, List.cons_ne_nil _ _, partly⟩
  next => exact .inl rfl

end BespoKV.Wire
