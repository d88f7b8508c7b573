import BespoKV.Wire.Format
import Mathlib.Data.BitVec

/-!
# Header checks with machine arithmetic

`Link::msg_parse` of a datalet on memory with 64-bit addresses.  The sizes in a header come
from the network and are added to pointers before they are checked, modulo `2 ^ 64`, and the
size of a `Bytes` is an `int`.  A size of the type name that leads back before the end of the
header makes the function read the size of the payload from the header itself.  These headers
are the only ones that pass the checks without being consistent.
-/

namespace BespoKV.Wire.Memory

open Fallible

/-- The bytes at all addresses. -/
abbrev Store := BitVec 64 → UInt8

/-- The `width` bytes from an address on. -/
def octets (memory : Store) (ptr : BitVec 64) (width : Nat) : Bytes :=
  (List.range width).map fun index => memory (ptr + BitVec.ofNat 64 index)

/-- `*(size_t *)ptr` -/
def load (memory : Store) (ptr : BitVec 64) : BitVec 64 :=
  BitVec.ofNat 64 (Octets.value (octets memory ptr 8))

/-- The conversion of a `size_t` to an `int`. -/
def int (n : BitVec 64) : Int := (n.setWidth 32).toInt

/-- `Bytes` -/
structure Slice where
  data : BitVec 64
  size : Int
  deriving DecidableEq, Repr

/-- What `msg_parse` makes of a header: the sizes it has read, `read_buf` and the number of
bytes it discards. -/
structure Parsed where
  totalSize : BitVec 64
  typeLen : BitVec 64
  dataLen : BitVec 64
  type : Slice
  payload : Slice
  parsed : Int
  deriving DecidableEq, Repr

/-- The part of `msg_parse` behind the magic number, with the words it loads. -/
def parseSizes (word : BitVec 64 → BitVec 64) (head : BitVec 64) : Except Fault Parsed := do
  let ptr := head + 4
  let totalSize := word ptr
  check (totalSize < 1073741826)
  let ptr := ptr + 8
  let typeLen := word ptr
  let ptr := ptr + 8
  check (ptr - head < totalSize)
  let type : Slice := ⟨ptr, int typeLen⟩
  let ptr := ptr + typeLen
  let dataLen := word ptr
  let ptr := ptr + 8
  check (ptr - head < totalSize)
  check (ptr + dataLen - head = totalSize)
  let payload : Slice := ⟨ptr, int dataLen⟩
  return ⟨totalSize, typeLen, dataLen, type, payload, int (4 + 8 + 8 + typeLen + 8 + dataLen)⟩

/-- `Link::msg_parse` on a buffer that is not empty, with its data at `head`. -/
def msgParse (memory : Store) (head : BitVec 64) : Except Fault Parsed := do
  check (Octets.value (octets memory head 4) = magic)
  parseSizes (load memory) head

variable {memory : Store} {word : BitVec 64 → BitVec 64} {head : BitVec 64} {parsed : Parsed}

theorem check_bind {α : Type} {condition : Bool} {next : Unit → Except Fault α} {result : α}
    (passed : (check condition >>= next) = .ok result) :
    condition = true ∧ next () = .ok result := by
  cases condition with
  | true => exact ⟨rfl, passed⟩
  | false => cases passed

/-- What the checks say about sizes that are accepted. -/
theorem parseSizes_checks (accepted : parseSizes word head = .ok parsed) :
    parsed.totalSize = word (head + 4) ∧ parsed.typeLen = word (head + 12) ∧
      parsed.dataLen = word (head + 20 + parsed.typeLen) ∧ parsed.totalSize < 1073741826 ∧
      20 < parsed.totalSize ∧ 28 + parsed.typeLen < parsed.totalSize ∧
      28 + parsed.typeLen + parsed.dataLen = parsed.totalSize ∧
      parsed.type = ⟨head + 20, int parsed.typeLen⟩ ∧
      parsed.payload = ⟨head + (28 + parsed.typeLen), int parsed.dataLen⟩ ∧
      parsed.parsed = int (28 + parsed.typeLen + parsed.dataLen) := by
  have atTypeLen : head + 4 + 8 = head + 12 := by ring
  have atType : head + 12 + 8 = head + 20 := by ring
  simp only [parseSizes, atTypeLen, atType] at accepted
  obtain ⟨small, accepted⟩ := check_bind accepted
  obtain ⟨longer, accepted⟩ := check_bind accepted
  obtain ⟨below, accepted⟩ := check_bind accepted
  obtain ⟨total, accepted⟩ := check_bind accepted
  obtain rfl := Except.ok.inj accepted
  refine ⟨rfl, rfl, rfl, of_decide_eq_true small, ?_, ?_, ?_, rfl, ?_, ?_⟩
  · have offset : head + 20 - head = 20 := by ring
    exact offset ▸ of_decide_eq_true longer
  · have offset : head + 20 + word (head + 12) + 8 - head = 28 + word (head + 12) := by ring
    exact offset ▸ of_decide_eq_true below
  · rw [← of_decide_eq_true total]
    dsimp only
    ring
  · dsimp only
    congr 1
    ring
  · dsimp only
    congr 1
    ring

/-- Sizes that fit together pass the checks. -/
theorem parseSizes_eq {totalSize typeLen dataLen : BitVec 64}
    (atTotal : word (head + 4) = totalSize)
    (atTypeLen : word (head + 12) = typeLen) (atDataLen : word (head + 20 + typeLen) = dataLen)
    (small : totalSize < 1073741826) (longer : 20 < totalSize) (below : 28 + typeLen < totalSize)
    (total : 28 + typeLen + dataLen = totalSize) :
    parseSizes word head = .ok ⟨totalSize, typeLen, dataLen, ⟨head + 20, int typeLen⟩,
      ⟨head + 20 + typeLen + 8, int dataLen⟩, int (4 + 8 + 8 + typeLen + 8 + dataLen)⟩ := by
  have twelve : head + 4 + 8 = head + 12 := by ring
  have twenty : head + 12 + 8 = head + 20 := by ring
  have typeAt : head + 20 - head = 20 := by ring
  have dataAt : head + 20 + typeLen + 8 - head = 28 + typeLen := by ring
  have endAt : head + 20 + typeLen + 8 + dataLen - head = 28 + typeLen + dataLen := by ring
  simp only [parseSizes, twelve, twenty, atTotal, atTypeLen, atDataLen, typeAt, dataAt, endAt,
    check_of, ok_bind, small, longer, below, total, decide_true]
  rfl

theorem int_of_small {n : BitVec 64} (small : n.toNat < 2 ^ 31) : int n = n.toNat := by
  have kept : (n.setWidth 32).toNat = n.toNat := by
    rw [BitVec.toNat_setWidth]
    omega
  rw [int, BitVec.toInt_eq_toNat_of_lt, kept]
  omega

/-- The slice is a part of the `total` bytes from `head` on. -/
def Slice.Inside (slice : Slice) (head : BitVec 64) (total : Nat) : Prop :=
  ∃ offset : Nat, slice.data = head + BitVec.ofNat 64 offset ∧ 0 ≤ slice.size ∧
    offset + slice.size ≤ total

theorem Slice.inside {offset size : BitVec 64} {total : Nat}
    (fits : offset.toNat + size.toNat ≤ total) (small : total < 2 ^ 31) :
    Slice.Inside ⟨head + offset, int size⟩ head total := by
  have converted : int size = size.toNat := int_of_small (by omega)
  refine ⟨offset.toNat, ?_, ?_, ?_⟩
  · rw [BitVec.ofNat_toNat, BitVec.setWidth_eq]
  · exact converted ▸ Int.natCast_nonneg _
  · dsimp only
    rw [converted]
    omega

/-- A header whose sizes fit together as natural numbers. -/
structure Parsed.Consistent (parsed : Parsed) (head : BitVec 64) : Prop where
  sizes : 28 + parsed.typeLen.toNat + parsed.dataLen.toNat = parsed.totalSize.toNat
  type : parsed.type.Inside head parsed.totalSize.toNat
  payload : parsed.payload.Inside head parsed.totalSize.toNat
  consumed : parsed.parsed = parsed.totalSize.toNat

theorem consistent_of_ahead (ahead : 28 + (word (head + 12)).toNat < 2 ^ 64)
    (accepted : parseSizes word head = .ok parsed) : parsed.Consistent head := by
  obtain ⟨-, typeLen, -, small, -, below, total, type, payload, consumed⟩ :=
    parseSizes_checks accepted
  rw [← typeLen] at ahead
  have start : (28 + parsed.typeLen).toNat = 28 + parsed.typeLen.toNat := by
    rw [BitVec.toNat_add]
    exact Nat.mod_eq_of_lt ahead
  have small : parsed.totalSize.toNat < 1073741826 := small
  -- The sum does not wrap either, for otherwise it would be less than its first part.
  have sizes : 28 + parsed.typeLen.toNat + parsed.dataLen.toNat = parsed.totalSize.toNat := by
    have sum := congrArg BitVec.toNat total
    rw [BitVec.toNat_add, start] at sum
    rw [BitVec.lt_def, start] at below
    have bounded := parsed.dataLen.isLt
    omega
  refine ⟨sizes, ?_, ?_, ?_⟩
  · rw [type]
    refine Slice.inside ?_ (by omega)
    change 20 + _ ≤ _
    omega
  · rw [payload]
    refine Slice.inside ?_ (by omega)
    rw [start]
    exact sizes.le
  · rw [consumed, total, int_of_small (by omega)]

/-- A header whose size of the type name stands for at most 28 bytes back, and whose other numbers
fit to that: the size of the payload is read from so many bytes before the end of the numbers in
front. -/
structure LeadsBack (memory : Store) (head : BitVec 64) (back : Nat) : Prop where
  magic : Octets.value (octets memory head 4) = magic
  longer : 20 < (load memory (head + 4)).toNat
  small : (load memory (head + 4)).toNat < 1073741826
  typeLen : (load memory (head + 12)).toNat = 2 ^ 64 - back
  positive : 0 < back
  atMost : back ≤ 28
  below : 28 - back < (load memory (head + 4)).toNat
  total : 28 - back + (load memory (head + 20 - BitVec.ofNat 64 back)).toNat =
    (load memory (head + 4)).toNat

theorem LeadsBack.word_eq {back : Nat} (leads : LeadsBack memory head back) :
    load memory (head + 12) = -BitVec.ofNat 64 back := by
  obtain ⟨_, _, _, typeLen, positive, atMost, _, _⟩ := leads
  refine BitVec.eq_of_toNat_eq ?_
  rw [typeLen, BitVec.toNat_neg, BitVec.toNat_ofNat]
  omega

/-- Such a header passes the checks. -/
theorem LeadsBack.accepted {back : Nat} (leads : LeadsBack memory head back) :
    ∃ parsed, msgParse memory head = .ok parsed ∧ parsed.typeLen.toNat = 2 ^ 64 - back := by
  have behind : (28 + load memory (head + 12)).toNat = 28 - back := by
    obtain ⟨_, _, _, typeLen, positive, atMost, _, _⟩ := leads
    rw [BitVec.toNat_add, typeLen]
    change (28 + (2 ^ 64 - back)) % 2 ^ 64 = _
    omega
  have below : 28 + load memory (head + 12) < load memory (head + 4) := by
    rw [BitVec.lt_def, behind]
    exact leads.below
  have sum : 28 + load memory (head + 12) + load memory (head + 20 - BitVec.ofNat 64 back) =
      load memory (head + 4) := by
    refine BitVec.eq_of_toNat_eq ?_
    rw [BitVec.toNat_add, behind, leads.total]
    exact Nat.mod_eq_of_lt (BitVec.isLt _)
  have place : head + 20 + load memory (head + 12) = head + 20 - BitVec.ofNat 64 back := by
    rw [leads.word_eq]
    ring
  have parses := parseSizes_eq rfl rfl (congrArg (load memory) place)
    (BitVec.lt_def.mpr leads.small) (BitVec.lt_def.mpr leads.longer) below sum
  have isRead : msgParse memory head = parseSizes (load memory) head := by
    rw [msgParse, check_of (decide_eq_true leads.magic), ok_bind]
  exact ⟨_, isRead.trans parses, leads.typeLen⟩

/-- A header that passes the checks with a size that leads past the end of the address space leads
back. -/
theorem leadsBack_of_accepted (accepted : msgParse memory head = .ok parsed)
    (wraps : 2 ^ 64 ≤ 28 + (load memory (head + 12)).toNat) :
    LeadsBack memory head (2 ^ 64 - (load memory (head + 12)).toNat) := by
  obtain ⟨isMagic, accepted⟩ := check_bind accepted
  obtain ⟨totalSize, typeLen, dataLen, small, longer, below, total, -⟩ :=
    parseSizes_checks accepted
  rw [typeLen] at dataLen below total
  rw [totalSize] at small longer below total
  rw [dataLen] at total
  have bounded := (load memory (head + 12)).isLt
  have behind : (28 + load memory (head + 12)).toNat =
      28 - (2 ^ 64 - (load memory (head + 12)).toNat) := by
    rw [BitVec.toNat_add]
    change (28 + _) % 2 ^ 64 = _
    omega
  have back : head + 20 - BitVec.ofNat 64 (2 ^ 64 - (load memory (head + 12)).toNat) =
      head + 20 + load memory (head + 12) := by
    have negated : BitVec.ofNat 64 (2 ^ 64 - (load memory (head + 12)).toNat) =
        -load memory (head + 12) := BitVec.eq_of_toNat_eq (by
      rw [BitVec.toNat_neg, BitVec.toNat_ofNat])
    rw [negated]
    ring
  have sum := congrArg BitVec.toNat total
  rw [BitVec.toNat_add, behind] at sum
  rw [BitVec.lt_def, behind] at below
  refine ⟨of_decide_eq_true isMagic, longer, small, by omega, by omega, by omega, below, ?_⟩
  -- The sum does not wrap, for otherwise it would be less than its first part.
  rw [back]
  have most := (load memory (head + 20 + load memory (head + 12))).isLt
  omega

/-- A header that passes the checks is consistent, except exactly for those that lead back. -/
theorem accepted_header_consistent (memory : Store) (head : BitVec 64) :
    (∀ parsed, msgParse memory head = .ok parsed → parsed.Consistent head) ↔
      ¬∃ back, LeadsBack memory head back := by
  constructor
  · rintro consistent ⟨back, leads⟩
    obtain ⟨parsed, accepted, typeLen⟩ := leads.accepted
    have sizes := (consistent parsed accepted).sizes
    have atMost := leads.atMost
    obtain ⟨-, parses⟩ := check_bind accepted
    obtain ⟨-, -, -, most, -⟩ := parseSizes_checks parses
    have most : parsed.totalSize.toNat < 1073741826 := most
    omega
  · intro forward parsed accepted
    rcases Nat.lt_or_ge (28 + (load memory (head + 12)).toNat) (2 ^ 64) with ahead | wraps
    · obtain ⟨-, parses⟩ := check_bind accepted
      exact consistent_of_ahead ahead parses
    · exact absurd ⟨_, leadsBack_of_accepted accepted wraps⟩ forward

/-- Memory that holds bytes at an address and zeros elsewhere. -/
def Store.ofBytes (bytes : Bytes) (head : BitVec 64) : Store := fun ptr =>
  (bytes[(ptr - head).toNat]?).getD 0

/-- A header with a wrong magic number is rejected, though its size of the type name is -1. -/
theorem accepted_header_consistent_sample :
    (∃ parsed, msgParse (Store.ofBytes (frame [7] [9]) 64) 64 = .ok parsed ∧
      parsed.Consistent 64) ∧
    ∀ parsed, msgParse (Store.ofBytes (Octets.le 12 0 ++ Octets.le 8 (2 ^ 64 - 1)) 64) 64 =
      .ok parsed → parsed.Consistent 64 := by
  have accepted : msgParse (Store.ofBytes (frame [7] [9]) 64) 64 =
      .ok ⟨30, 1, 1, ⟨84, 1⟩, ⟨93, 1⟩, 30⟩ := by decide +kernel
  constructor
  · refine ⟨_, accepted, (accepted_header_consistent _ _).mpr ?_ _ accepted⟩
    rintro ⟨back, leads⟩
    have typeLen : (load (Store.ofBytes (frame [7] [9]) 64) (64 + 12)).toNat = 1 := by
      decide +kernel
    have same := leads.typeLen
    have atMost := leads.atMost
    omega
  · refine (accepted_header_consistent _ _).mpr ?_
    rintro ⟨back, leads⟩
    exact absurd leads.magic (by decide +kernel)

/-- A header of 282 bytes whose type name has the size -1 as an `int`: the size of the payload
is read from the last byte of this size and the seven zeros behind it, and is 255. -/
def sampleWrapping : Bytes :=
  Octets.le 4 magic ++ Octets.le 8 282 ++ Octets.le 8 (2 ^ 64 - 1) ++ List.replicate 262 0

theorem wrapping_header_accepted : ∃ parsed,
    msgParse (Store.ofBytes sampleWrapping 0) 0 = .ok parsed ∧ parsed.totalSize = 282 ∧
      parsed.type.size = -1 ∧ ¬parsed.Consistent 0 := by
  refine ⟨⟨282, 2 ^ 64 - 1, 255, ⟨20, -1⟩, ⟨27, 255⟩, 282⟩, by decide +kernel, rfl, rfl, ?_⟩
  exact fun consistent => absurd consistent.sizes (by decide +kernel)

/-! ## Memory and buffers -/

/-- The memory holds the bytes of a buffer at an address. -/
def Holds (memory : Store) (head : BitVec 64) (input : Bytes) : Prop :=
  ∀ index byte, input[index]? = some byte → memory (head + BitVec.ofNat 64 index) = byte

/-- What is read from a buffer is loaded from memory. -/
theorem Holds.octets_eq {input read : Bytes} {offset width : Nat}
    (holds : Holds memory head input) (found : Octets.read input offset width = some read) :
    octets memory (head + BitVec.ofNat 64 offset) width = read := by
  unfold Octets.read at found
  split at found
  next inside =>
    obtain rfl := Option.some.inj found
    have lengths : (input.drop offset).length = input.length - offset := List.length_drop
    refine List.ext_getElem (by simp [octets, lengths]; omega) fun index bound other => ?_
    have small : index < width := by simpa [octets] using bound
    have place : input[offset + index]? = some input[offset + index] :=
      List.getElem?_eq_getElem (by omega)
    have stored := holds (offset + index) _ place
    rw [BitVec.ofNat_add, ← BitVec.add_assoc] at stored
    simp [octets, stored]
  · cases found

theorem Holds.number_eq {input : Bytes} {offset width n : Nat} (holds : Holds memory head input)
    (found : number input offset width = .ok n) :
    Octets.value (octets memory (head + BitVec.ofNat 64 offset) width) = n := by
  unfold number at found
  split at found
  next read => rw [holds.octets_eq read, Except.ok.inj found]
  · cases found

theorem Holds.load_eq {input : Bytes} {offset n : Nat} (holds : Holds memory head input)
    (found : number input offset 8 = .ok n) :
    (load memory (head + BitVec.ofNat 64 offset)).toNat = n := by
  have value := holds.number_eq found
  have bounded := Octets.value_lt (octets memory (head + BitVec.ofNat 64 offset) 8)
  rw [octets, List.length_map, List.length_range] at bounded
  rw [load, BitVec.toNat_ofNat, value, Nat.mod_eq_of_lt]
  rw [← value]
  exact bounded

theorem header_fields {input : Bytes} {totalSize typeLen : Nat}
    (accepted : header input = .ok (totalSize, typeLen)) :
    number input 0 4 = .ok magic ∧ number input 4 8 = .ok totalSize ∧
      number input 12 8 = .ok typeLen ∧ totalSize < 1073741826 ∧ 20 < totalSize := by
  obtain ⟨read, magicRead, accepted⟩ := exists_of_bind accepted
  obtain ⟨isMagic, accepted⟩ := check_bind accepted
  obtain ⟨size, totalRead, accepted⟩ := exists_of_bind accepted
  obtain ⟨small, accepted⟩ := check_bind accepted
  obtain ⟨length, typeLenRead, accepted⟩ := exists_of_bind accepted
  obtain ⟨longer, accepted⟩ := check_bind accepted
  obtain ⟨rfl, rfl⟩ := Prod.mk.inj (Except.ok.inj accepted)
  exact ⟨of_decide_eq_true isMagic ▸ magicRead, totalRead, typeLenRead,
    of_decide_eq_true small, of_decide_eq_true longer⟩

/-- Words that fit together as natural numbers pass the checks. -/
theorem parseSizes_of_fields {totalSize typeLen dataLen : Nat}
    (totalHeld : (word (head + 4)).toNat = totalSize)
    (typeHeld : (word (head + 12)).toNat = typeLen)
    (dataHeld : (word (head + 20 + word (head + 12))).toNat = dataLen)
    (small : totalSize < 1073741826) (longer : 20 < totalSize) (below : 28 + typeLen < totalSize)
    (total : (28 + typeLen + dataLen) % 2 ^ 64 = totalSize) :
    ∃ parsed, parseSizes word head = .ok parsed ∧ parsed.Consistent head ∧
      parsed.typeLen.toNat = typeLen ∧ parsed.dataLen.toNat = dataLen := by
  have start : (28 + word (head + 12)).toNat = 28 + typeLen := by
    rw [BitVec.toNat_add, typeHeld]
    exact Nat.mod_eq_of_lt (show 28 + typeLen < 2 ^ 64 by omega)
  have sum : 28 + word (head + 12) + word (head + 20 + word (head + 12)) = word (head + 4) := by
    refine BitVec.eq_of_toNat_eq ?_
    rw [BitVec.toNat_add, start, dataHeld, totalHeld, total]
  have parses := parseSizes_eq rfl rfl rfl
    (BitVec.lt_def.mpr (totalHeld.symm ▸ small)) (BitVec.lt_def.mpr (totalHeld.symm ▸ longer))
    (BitVec.lt_def.mpr (by rw [totalHeld, start]; exact below)) sum
  exact ⟨_, parses, consistent_of_ahead (by omega) parses, typeHeld, dataHeld⟩

/-- The decoder on buffers and the one on memory agree on what the former accepts. -/
theorem msgParse_of_holds {input : Bytes} {regions : List Datalet.Region} {length : Nat}
    (nonempty : input ≠ []) (holds : Holds memory head input)
    (accepted : Datalet.msgParse input = .ok (regions, length)) :
    ∃ parsed, msgParse memory head = .ok parsed ∧ parsed.Consistent head ∧
      regions = [⟨20, parsed.typeLen.toNat⟩,
        ⟨28 + parsed.typeLen.toNat, parsed.dataLen.toNat⟩] ∧
      parsed.parsed = length := by
  rw [Datalet.msgParse, if_neg nonempty] at accepted
  obtain ⟨⟨totalSize, typeLen⟩, header, accepted⟩ := exists_of_bind accepted
  obtain ⟨dataLen, dataLenRead, accepted⟩ := exists_of_bind accepted
  obtain ⟨below, accepted⟩ := check_bind accepted
  obtain ⟨total, accepted⟩ := check_bind accepted
  obtain ⟨rfl, rfl⟩ := Prod.mk.inj (Except.ok.inj accepted)
  obtain ⟨magicRead, totalRead, typeLenRead, small, longer⟩ := header_fields header
  have magicHeld := holds.number_eq magicRead
  rw [show head + BitVec.ofNat 64 0 = head from add_zero head] at magicHeld
  have typeHeld := holds.load_eq typeLenRead
  have dataHeld := holds.load_eq dataLenRead
  rw [← typeHeld, BitVec.ofNat_add, BitVec.ofNat_toNat, BitVec.setWidth_eq,
    ← BitVec.add_assoc] at dataHeld
  obtain ⟨parsed, parses, consistent, hasType, hasData⟩ := parseSizes_of_fields
    (holds.load_eq totalRead) typeHeld dataHeld small longer (of_decide_eq_true below)
    (of_decide_eq_true total)
  refine ⟨parsed, ?_, consistent, by rw [hasType, hasData], ?_⟩
  · rw [msgParse, check_of (decide_eq_true magicHeld), ok_bind, parses]
  · rw [consistent.consumed, ← consistent.sizes, hasType, hasData]

end BespoKV.Wire.Memory
