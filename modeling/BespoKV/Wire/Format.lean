import BespoKV.Library.Fallible
import BespoKV.Library.Octets
import BespoKV.Proxy.Types

/-!
# The wire format

One encoder and three decoders of a frame: `Connection::send_msg` and
`PacketParser::parse_resp` of libckv, and `Link::msg_parse` of a datalet and of the
proxy.  A frame is the magic number, its total size, the size of its type name, the
type name, the size of the payload and the payload.

Memory is modelled where a decoder depends on it: a read beyond the bytes of a buffer,
and views of memory that has been freed.
-/

namespace BespoKV.Wire

open Fallible

/-- Why an encoder or a decoder does not return. -/
inductive Fault where
  /-- a byte at or beyond the size of the buffer was read -/
  | overread
  /-- a `CHECK` or an `assert` failed -/
  | check
  /-- a loop did not end in the rounds it was given -/
  | endless
  deriving DecidableEq, Repr

/-- `MAGIC` -/
def magic : Nat := 0x06121983

/-- The bytes of a string literal. -/
def text (string : String) : Bytes := string.toList.map fun char => UInt8.ofNat char.toNat

/-- `protoSpec::Request` -/
inductive Request where
  | get (key : Key)
  | put (key : Key) (value : Value)
  | del (key : Key)
  deriving DecidableEq, Repr

namespace Request

/-- `mutable_get()->key()`, empty when the message is not set. -/
def getKey : Request → Key
  | .get key => key
  | _ => []

/-- `mutable_put()->key()` -/
def putKey : Request → Key
  | .put key _ => key
  | _ => []

/-- `mutable_put()->value()` -/
def putValue : Request → Value
  | .put _ value => value
  | _ => []

end Request

/-- `GetTypeName` of the three messages. -/
def getMessage : Bytes := text "protoSpec.GetMessage"

def putMessage : Bytes := text "protoSpec.PutMessage"

def delMessage : Bytes := text "protoSpec.DelMessage"

/-- `getOpType` -/
def getOpType : Request → Bytes
  | .get _ => getMessage
  | .put _ _ => putMessage
  | .del _ => delMessage

/-- The generated protobuf code: parsing inverts serialization, and no message is
serialized to the empty string. -/
structure Protobuf where
  request : Request → Bytes
  parseRequest : Bytes → Option Request
  reply : Reply → Bytes
  parseReply : Bytes → Option Reply
  parse_request : ∀ message, parseRequest (request message) = some message
  parse_reply : ∀ message, parseReply (reply message) = some message
  request_ne_nil : ∀ message, request message ≠ []
  reply_ne_nil : ∀ message, reply message ≠ []

/-! ## The encoder -/

/-- A frame, as bytes. -/
def frame (type data : Bytes) : Bytes :=
  Octets.le 4 magic ++ (Octets.le 8 (28 + type.length + data.length) ++
    (Octets.le 8 type.length ++ (type ++ (Octets.le 8 data.length ++ data))))

@[simp] theorem frame_length (type data : Bytes) :
    (frame type data).length = 28 + type.length + data.length := by
  simp only [frame, List.length_append, Octets.le_length]
  omega

theorem frame_payload {type data other : Bytes} (same : frame type data = frame type other) :
    data = other := by
  have sizes := (List.append_inj same rfl).2
  have typeLen := (List.append_inj sizes (by simp)).2
  have name := (List.append_inj typeLen rfl).2
  have dataLen := (List.append_inj name rfl).2
  exact (List.append_inj dataLen (by simp)).2

/-- `Connection::send_msg`: the bytes handed to `send`.  Its last `assert`s of
`ptr - buf < totalLen` fail for an empty payload. -/
def sendMsg (proto : Protobuf) (message : Request) : Except Fault Bytes :=
  if proto.request message = [] then .error .check
  else .ok (frame (getOpType message) (proto.request message))

/-! ## Decoders -/

/-- `*(uint32_t *)ptr` and `*(size_t *)ptr` -/
def number (data : Bytes) (offset width : Nat) : Except Fault Nat :=
  match Octets.read data offset width with
  | some bytes => .ok (Octets.value bytes)
  | none => .error .overread

/-- `std::string(ptr, size)` -/
def bytes (data : Bytes) (offset size : Nat) : Except Fault Bytes :=
  match Octets.read data offset size with
  | some bytes => .ok bytes
  | none => .error .overread

/-- `CHECK` and `assert` -/
def check (condition : Bool) : Except Fault Unit :=
  if condition then .ok () else .error .check

theorem check_of {condition : Bool} (holds : condition = true) :
    check condition = .ok () :=
  if_pos holds

/-- The first 20 bytes, which the three decoders read and check in the same way: the
total size and the size of the type name. -/
def header (data : Bytes) : Except Fault (Nat × Nat) := do
  let read ← number data 0 4
  check (read = magic)
  let totalSize ← number data 4 8
  check (totalSize < 1073741826)
  let typeLen ← number data 12 8
  check (20 < totalSize)
  return (totalSize, typeLen)

/-- A `Bytes` of `recv_data`: memory of its own, or a view of a string that has been
deleted together with the protobuf message that held it. -/
inductive View where
  | owned (content : Bytes)
  | deleted (content : Bytes)
  deriving DecidableEq, Repr

/-- What reading a view gives, where `freed` says what has become of deleted strings. -/
def View.read (freed : Bytes → Bytes) : View → Bytes
  | .owned content => content
  | .deleted content => freed content

namespace Proxy

/-- The branches of `Link::msg_parse` on the type name.  The views of the key and the
value point into `req`, which is deleted before the function returns. -/
def recvData (proto : Protobuf) (cmd payload : Bytes) : Except Fault (List View) :=
  let req := proto.parseRequest payload
  if cmd = getMessage then
    return [.owned (text "get"), .deleted ((req.map Request.getKey).getD [])]
  else if cmd = putMessage then do
    check req.isSome
    return [.owned (text "set"), .deleted ((req.map Request.putKey).getD []),
      .deleted ((req.map Request.putValue).getD [])]
  else if cmd = delMessage then
    -- `Bytes(del_str)` takes the `strlen` of three bytes without a terminator.
    .error .overread
  else return []

/-- `Link::msg_parse`: `recv_data` and what `decr` leaves of the buffer. -/
def msgParse (proto : Protobuf) (msg : Bytes) : Except Fault (List View × Bytes) := do
  let (totalSize, typeLen) ← header msg
  let cmd ← bytes msg 20 typeLen
  let dataLen ← number msg (20 + typeLen) 8
  check (28 + typeLen < totalSize)
  check ((28 + typeLen + dataLen) % 2 ^ 64 = totalSize)
  let payload ← bytes msg (28 + typeLen) dataLen
  let recvData ← recvData proto cmd payload
  return (recvData, msg.drop (28 + typeLen + dataLen))

/-- `Link::parse` -/
def parse (proto : Protobuf) (msg : Bytes) : Except Fault (List View × Bytes) :=
  if msg = [] then return ([], []) else msgParse proto msg

/-- What one turn of the loop of `req_recv` makes: `recv_data` and the segment. -/
structure Segment where
  recvData : List View
  req : Bytes
  deriving DecidableEq, Repr

/-- The loop of `req_recv`: the segment is the `size_diff()` bytes from the old data
pointer. -/
def reqRecv (proto : Protobuf) : Nat → Bytes → Except Fault (List Segment)
  | _, [] => return []
  | 0, _ :: _ => .error .endless
  | rounds + 1, byte :: later => do
      let msg := byte :: later
      let (recvData, rest) ← parse proto msg
      check (recvData ≠ [])
      let segments ← reqRecv proto rounds rest
      return ⟨recvData, msg.take (msg.length - rest.length)⟩ :: segments

theorem reqRecv_of_ne_nil {proto : Protobuf} {msg : Bytes} (more : msg ≠ []) (rounds : Nat) :
    reqRecv proto (rounds + 1) msg = do
      let (recvData, rest) ← parse proto msg
      check (recvData ≠ [])
      let segments ← reqRecv proto rounds rest
      return ⟨recvData, msg.take (msg.length - rest.length)⟩ :: segments := by
  cases msg with
  | nil => exact (more rfl).elim
  | cons byte later => rfl

end Proxy

namespace Datalet

/-- A `Bytes` of `read_buf`: a place in the input buffer. -/
structure Region where
  offset : Nat
  length : Nat
  deriving DecidableEq, Repr

/-- `Link::msg_parse`: `read_buf` and the number of bytes that are discarded.  Neither
the type name nor the payload is read. -/
def msgParse (input : Bytes) : Except Fault (List Region × Nat) :=
  if input = [] then return ([], 0) else do
    let (totalSize, typeLen) ← header input
    let dataLen ← number input (20 + typeLen) 8
    check (28 + typeLen < totalSize)
    check ((28 + typeLen + dataLen) % 2 ^ 64 = totalSize)
    return ([⟨20, typeLen⟩, ⟨28 + typeLen, dataLen⟩], 28 + typeLen + dataLen)

/-- `Link::msg_parse` until the buffer is empty; after each call the type name and the
payload are copied out of the buffer. -/
def requests : Nat → Bytes → Except Fault (List (List Bytes))
  | _, [] => return []
  | 0, _ :: _ => .error .endless
  | rounds + 1, byte :: later => do
      let input := byte :: later
      let (readBuf, parsed) ← msgParse input
      let request ← readBuf.mapM fun region => bytes input region.offset region.length
      let others ← requests rounds (input.drop parsed)
      return request :: others

theorem requests_of_ne_nil {input : Bytes} (more : input ≠ []) (rounds : Nat) :
    requests (rounds + 1) input = do
      let (readBuf, parsed) ← msgParse input
      let request ← readBuf.mapM fun region => bytes input region.offset region.length
      let others ← requests rounds (input.drop parsed)
      return request :: others := by
  cases input with
  | nil => exact (more rfl).elim
  | cons byte later => rfl

end Datalet

namespace Client

/-- `err_code_t`, as far as `parse_resp` sets it. -/
inductive ErrCode where
  | ok
  | incompleteBuffer
  deriving DecidableEq, Repr

/-- `message_result_type` -/
inductive MessageResult where
  | stored
  | notStored
  deriving DecidableEq, Repr

/-- What `parse_resp` makes of a buffer: the error code unless it is left as it was,
the decoded reply, the results it appends and what is left of the buffer. -/
structure Outcome where
  err : Option ErrCode
  response : Option Reply
  retrievalResults : List Value
  messageResults : List MessageResult
  rest : Bytes
  deriving DecidableEq, Repr

/-- The branches of `parse_resp` on the type name. -/
def results (proto : Protobuf) (op reply rest : Bytes) : Outcome :=
  let response := (proto.parseReply reply).getD ⟨0, none⟩
  if op = getMessage then
    if response.status = 0 then
      ⟨some .ok, some response, [response.value.getD []], [], rest⟩
    else ⟨some .ok, some response, [], [], rest⟩
  else if op = putMessage then
    if response.status = 0 then ⟨some .ok, some response, [], [.stored], rest⟩
    else if response.status = -3 then ⟨some .ok, some response, [], [.notStored], rest⟩
    else ⟨none, some response, [], [], rest⟩
  else ⟨none, none, [], [], rest⟩

/-- `PacketParser::parse_resp` -/
def parseResp (proto : Protobuf) (input : Bytes) : Except Fault Outcome :=
  if input = [] then return ⟨some .incompleteBuffer, none, [], [], []⟩ else do
    let (totalSize, typeLen) ← header input
    let op ← bytes input 20 typeLen
    let dataLen ← number input (20 + typeLen) 8
    check (28 + typeLen < totalSize)
    check ((28 + typeLen + dataLen) % 2 ^ 64 ≤ totalSize)
    let reply ← bytes input (28 + typeLen) dataLen
    check (28 + typeLen + dataLen = totalSize)
    return results proto op reply (input.drop (28 + typeLen + dataLen))

end Client

/-! ## Fields of a frame -/

section Fields

variable {type data : Bytes} {length : Nat}

/-- A frame that the decoders accept: it has a payload and is not too long. -/
structure WellFormed (type data : Bytes) : Prop where
  payload : data ≠ []
  small : 28 + type.length + data.length < 2 ^ 30

private theorem frame_append (rest : Bytes) : frame type data ++ rest =
    Octets.le 4 magic ++ (Octets.le 8 (28 + type.length + data.length) ++
      (Octets.le 8 type.length ++ (type ++ (Octets.le 8 data.length ++ (data ++ rest))))) := by
  simp only [frame, List.append_assoc]

private theorem number_of_read {message : Bytes} {offset width n : Nat} (fits : n < 256 ^ width)
    (read : Octets.read message offset width = some (Octets.le width n)) :
    number message offset width = .ok n := by
  rw [number, read]
  exact congrArg _ (Octets.value_le fits)

theorem number_magic (rest : Bytes) : number (frame type data ++ rest) 0 4 = .ok magic := by
  rw [frame_append]
  exact number_of_read (by decide)
    (Octets.read_middle [] _ (List.nil_append _).symm rfl (Octets.le_length _ _))

theorem number_totalSize (wellFormed : WellFormed type data) (rest : Bytes) :
    number (frame type data ++ rest) 4 8 = .ok (28 + type.length + data.length) := by
  rw [frame_append]
  exact number_of_read (wellFormed.small.trans (by decide))
    (Octets.read_middle (Octets.le 4 magic) _ rfl (Octets.le_length _ _) (Octets.le_length _ _))

theorem number_typeLen (wellFormed : WellFormed type data) (rest : Bytes) :
    number (frame type data ++ rest) 12 8 = .ok type.length := by
  have fits : type.length < 256 ^ 8 := by have := wellFormed.small; omega
  rw [frame_append, ← List.append_assoc]
  refine number_of_read fits (Octets.read_middle _ _ rfl ?_ (Octets.le_length _ _))
  rw [List.length_append, Octets.le_length, Octets.le_length]

theorem bytes_type (rest : Bytes) :
    bytes (frame type data ++ rest) 20 type.length = .ok type := by
  rw [frame_append, ← List.append_assoc, ← List.append_assoc, bytes,
    Octets.read_middle _ _ rfl ?_ rfl]
  simp only [List.length_append, Octets.le_length]

theorem number_dataLen (wellFormed : WellFormed type data) (rest : Bytes) :
    number (frame type data ++ rest) (20 + type.length) 8 = .ok data.length := by
  have fits : data.length < 256 ^ 8 := by have := wellFormed.small; omega
  rw [frame_append, ← List.append_assoc, ← List.append_assoc, ← List.append_assoc]
  refine number_of_read fits (Octets.read_middle _ _ rfl ?_ (Octets.le_length _ _))
  simp only [List.length_append, Octets.le_length]

theorem bytes_data (rest : Bytes) :
    bytes (frame type data ++ rest) (28 + type.length) data.length = .ok data := by
  rw [frame_append, ← List.append_assoc, ← List.append_assoc, ← List.append_assoc,
    ← List.append_assoc, bytes, Octets.read_middle _ _ rfl ?_ rfl]
  simp only [List.length_append, Octets.le_length]
  omega

theorem header_frame (wellFormed : WellFormed type data) (rest : Bytes) :
    header (frame type data ++ rest) = .ok (28 + type.length + data.length, type.length) := by
  have small : 28 + type.length + data.length < 1073741826 :=
    wellFormed.small.trans (by decide)
  have longer : 20 < 28 + type.length + data.length := by omega
  simp only [header, number_magic, number_totalSize wellFormed, number_typeLen wellFormed,
    ok_bind, check_of, small, longer, decide_true]
  rfl

/-- The checks on the sizes hold in a well-formed frame. -/
theorem WellFormed.sizes (wellFormed : WellFormed type data) :
    28 + type.length < 28 + type.length + data.length ∧
      (28 + type.length + data.length) % 2 ^ 64 = 28 + type.length + data.length := by
  have payload := List.length_pos_of_ne_nil wellFormed.payload
  have small := wellFormed.small
  omega

theorem drop_frame (rest : Bytes) :
    (frame type data ++ rest).drop (28 + type.length + data.length) = rest := by
  rw [← frame_length, List.drop_left]

theorem frame_ne_nil (rest : Bytes) : frame type data ++ rest ≠ [] := by
  intro empty
  have length := congrArg List.length empty
  rw [List.length_append, frame_length, List.length_nil] at length
  omega

end Fields

end BespoKV.Wire
