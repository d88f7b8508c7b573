import BespoKV.Datalet.Strings
import BespoKV.Wire.Format

/-!
# The output buffer of a connection

`compose_reply` puts a frame into the output buffer with six `append`s, of which only the two
that append strings make room; the four that append numbers store where the contents end.
`msg_write` sends what the socket takes and discards it.  A buffer starts with eight bytes,
and it is `msg_write` that lets it grow, after the first reply was composed.
-/

namespace BespoKV.Str

open Fallible Transition

/-- `append(uint32_t)` and `append(size_t)`: no room is made. -/
def appendNumber (str : Str) (width n : Nat) : Except Fault Str := str.push (Octets.le width n)

/-- `size() - old_sz` -/
def added (str old : Str) : Int := CInt.wrap (str.size - old.size)

/-- `assert` -/
def assert (condition : Prop) [Decidable condition] : Except Fault Unit :=
  if condition then .ok () else .error .check

/-- A reply: the type name, which is that of the request, and the serialized message, and what
`realloc` does in the two `append`s of strings. -/
structure Composing where
  type : Bytes
  data : Bytes
  typeGrants : Nat → Grant
  dataGrants : Nat → Grant

/-- The value of `totalLen`. -/
def Composing.totalLen (reply : Composing) : Nat := 28 + reply.type.length + reply.data.length

/-- `compose_reply`: the output buffer after each `append`.  Their results are not looked at.
Strings are shorter than 2 GiB, so that their lengths are `int`s. -/
def composeReply (output : Str) (reply : Composing) : Except Fault (List Str) := do
  let totalLen : Int := CInt.wrap reply.totalLen
  let first ← output.appendNumber 4 Wire.magic
  assert (first.added output < totalLen)
  let second ← first.appendNumber 8 reply.totalLen
  assert (second.added output < totalLen)
  let third ← second.appendNumber 8 reply.type.length
  assert (third.added output < totalLen)
  let (_, fourth) ← third.append reply.type reply.typeGrants
  assert (fourth.added output < totalLen)
  let fifth ← fourth.appendNumber 8 reply.data.length
  assert (fifth.added output < totalLen)
  let (_, sixth) ← fifth.append reply.data reply.dataGrants
  assert (sixth.added output = totalLen)
  return [first, second, third, fourth, fifth, sixth]

/-- What `write` does with a socket that is not blocking; `EWOULDBLOCK` is the end of the list
of these. -/
inductive Outcome where
  /-- `EINTR` -/
  | interrupted
  /-- another error -/
  | failed
  /-- at most so many bytes are taken -/
  | takes (room : Nat)

/-- The loop of `msg_write`: `ret`, or `none` where the function returns -1 from it. -/
def writeLoop : List Outcome → Int → Str → Option Int × Str
  | [], ret, str => (some ret, str)
  | outcome :: rest, ret, str =>
      if 0 < str.size then
        match outcome with
        | .interrupted => writeLoop rest ret str
        | .failed => (none, str)
        | .takes room =>
            let len := min room str.size.toNat
            if len = 0 then (some ret, str)
            else writeLoop rest (CInt.wrap (ret + len)) (str.discard len)
      else
        (some ret, str)

/-- `msg_write` -/
def msgWrite (output : Str) (grant : Grant) (outcomes : List Outcome) :
    Except Fault (Int × Str) := do
  let output := if output.total = 8 then (output.grow grant).2 else output
  match writeLoop outcomes 0 output with
  | (some ret, output) =>
      let output ← output.nice
      return (ret, output)
  | (none, output) => return (-1, output)

/-- A request: the reply to it, and what `realloc` and `write` do in `msg_write`. -/
structure Response where
  reply : Composing
  grant : Grant
  outcomes : List Outcome

/-- The end of `handle_request`, the only place where the output buffer is used. -/
def respond (output : Str) (response : Response) : Except Fault Str := do
  let stages ← output.composeReply response.reply
  let (sendStatus, output) ←
    (stages.getLastD output).msgWrite response.grant response.outcomes
  assert (0 < sendStatus)
  return output

/-! ## Composing a frame -/

/-- A buffer to which bytes have been appended. -/
structure Holding (output : Str) (bytes : Bytes) (str : Str) : Prop where
  valid : str.Valid
  data : str.data = output.data
  size : str.size = output.size + bytes.length
  total : output.total ≤ str.total
  contents : str.contents = output.contents ++ bytes

section Stages

variable {output str : Str} {bytes more : Bytes}

theorem Holding.refl (valid : output.Valid) : Holding output [] output :=
  ⟨valid, rfl, by simp, Int.le_refl _, by simp⟩

theorem Holding.avail_eq (holding : Holding output bytes str) :
    str.avail = str.total - output.data - output.size - bytes.length := by
  rw [holding.valid.avail_eq, holding.data, holding.size]
  omega

/-- A number for which there is room. -/
theorem Holding.exists_number (holding : Holding output bytes str) {width : Nat} (n : Nat)
    (room : (width : Int) ≤ str.avail) :
    ∃ after, str.appendNumber width n = .ok after ∧
      Holding output (bytes ++ Octets.le width n) after ∧ after.total = str.total := by
  rw [← Octets.le_length width n] at room
  obtain ⟨after, pushed, valid, contents, data, size, total⟩ := holding.valid.exists_push room
  refine ⟨after, pushed, ⟨valid, data.trans holding.data, ?_, ?_, ?_⟩, total⟩
  · rw [size, holding.size, List.length_append]
    omega
  · exact total ▸ holding.total
  · rw [contents, holding.contents, List.append_assoc]

/-- A number for which there is no room. -/
theorem Valid.appendNumber_outside (valid : str.Valid) {width : Nat} (n : Nat)
    (full : str.avail < width) : str.appendNumber width n = .error (.memory .outside) := by
  rw [valid.avail_eq] at full
  have block := valid.block
  have outside : str.buf.store str.curr (Octets.le width n) = .error .outside := by
    refine if_neg fun inside => ?_
    rw [Octets.le_length, curr] at inside
    omega
  rw [appendNumber, push, outside]
  rfl

/-- A number that has been stored. -/
theorem Holding.of_number (holding : Holding output bytes str) {after : Str} {width n : Nat}
    (called : str.appendNumber width n = .ok after) :
    (width : Int) ≤ str.avail ∧ Holding output (bytes ++ Octets.le width n) after ∧
      after.total = str.total := by
  have room : (width : Int) ≤ str.avail := by
    by_contra full
    rw [holding.valid.appendNumber_outside n (by omega)] at called
    cases called
  obtain ⟨last, same, held, total⟩ := holding.exists_number n room
  rw [called] at same
  cases same
  exact ⟨room, held, total⟩

theorem Holding.curr_eq (holding : Holding output bytes str) :
    str.curr = output.curr + bytes.length := by
  rw [curr, curr, holding.data, holding.size]
  omega

/-- A string has joined the contents, where the capacity could grow as far as it had to; or
it was refused, and the contents are what they were. -/
theorem Holding.of_string (holding : Holding output bytes str) {after : Str} {result : Int}
    {grants : Nat → Grant} (called : str.append more grants = .ok (result, after)) :
    (Holding output (bytes ++ more) after ∧
        Reaches (str.curr + more.length) grants str.total after.total) ∨
      Holding output bytes after ∧ more ≠ [] ∧
        ∀ last, ¬Reaches (str.curr + more.length) grants str.total last := by
  obtain ⟨_, _, same, appended⟩ := holding.valid.exists_append more grants
  rw [called] at same
  cases same
  cases appended with
  | stored valid data size total reaches contents =>
      refine .inl ⟨⟨valid, data.trans holding.data, ?_, holding.total.trans total, ?_⟩, reaches⟩
      · rw [size, holding.size, List.length_append]
        omega
      · rw [contents, holding.contents, List.append_assoc]
  | refused grown full why never =>
      refine .inr ⟨⟨grown.valid, grown.data.trans holding.data, grown.size.trans holding.size,
        holding.total.trans grown.total, grown.contents.trans holding.contents⟩, ?_, never⟩
      rintro rfl
      exact never _ (.enough (by simpa [curr] using holding.valid.within))

/-- A string for which the capacity can grow. -/
theorem Holding.exists_string (holding : Holding output bytes str) {grants : Nat → Grant}
    {last : Int} (reaches : Reaches (str.curr + more.length) grants str.total last) :
    ∃ result after, str.append more grants = .ok (result, after) ∧
      Holding output (bytes ++ more) after ∧ after.total = last := by
  obtain ⟨result, after, called, -⟩ := holding.valid.exists_append more grants
  obtain ⟨held, grown⟩ | ⟨-, -, never⟩ := holding.of_string called
  · exact ⟨result, after, called, held, grown.eq reaches⟩
  · exact absurd reaches (never last)

/-- `size() - old_sz` counts what was appended. -/
theorem Holding.added_eq (holding : Holding output bytes str) (valid : output.Valid) :
    str.added output = bytes.length := by
  have size := holding.size
  obtain ⟨offset, _, within, _, int, _⟩ := holding.valid
  have before := valid.size
  rw [added, size, CInt.wrap_of_fits (by omega) (by omega)]
  omega

/-- The `assert`s between the appends. -/
theorem Holding.assert_lt (holding : Holding output bytes str) (valid : output.Valid)
    {totalLen : Nat} (less : bytes.length < totalLen) (int : totalLen < 2 ^ 31) :
    assert (str.added output < CInt.wrap totalLen) = .ok () := by
  refine if_pos ?_
  rw [holding.added_eq valid, CInt.wrap_of_fits (by omega) (by omega)]
  omega

theorem Holding.assert_eq (holding : Holding output bytes str) (valid : output.Valid)
    {totalLen : Nat} (same : bytes.length = totalLen) (int : totalLen < 2 ^ 31) :
    assert (str.added output = CInt.wrap totalLen) = .ok () := by
  refine if_pos ?_
  rw [holding.added_eq valid, CInt.wrap_of_fits (by omega) (by omega)]
  omega

theorem of_assert {condition : Prop} [Decidable condition] {passes : Unit}
    (passed : assert condition = .ok passes) : condition := by
  by_contra fails
  rw [assert, if_neg fails] at passed
  cases passed

end Stages

/-- When a reply can be composed.  There are 20 bytes for the three numbers in front; the
message is not empty; the capacity can grow for the type name, to one that has room for the
fourth number as well, and from there for the message. -/
structure Fits (output : Str) (reply : Composing) : Prop where
  front : 20 ≤ output.avail
  message : reply.data ≠ []
  back : ∃ middle last,
    Reaches (output.curr + 20 + reply.type.length) reply.typeGrants output.total middle ∧
    output.curr + 28 + reply.type.length ≤ middle ∧
    Reaches (output.curr + reply.totalLen) reply.dataGrants middle last

/-- What composing a reply does: every `append` stays inside the buffer, and at the end the
frame stands behind what was there before. -/
def Composes (output : Str) (reply : Composing) : Prop :=
  ∃ stages, output.composeReply reply = .ok stages ∧
    (∀ str ∈ stages, str.Valid ∧ output.total ≤ str.total) ∧
    (stages.getLastD output).contents = output.contents ++ Wire.frame reply.type reply.data

/-- The numbers in front: room for them is there. -/
theorem Holding.exists_front {output : Str} (reply : Composing) (valid : output.Valid)
    (front : 20 ≤ output.avail) :
    ∃ first second third, output.appendNumber 4 Wire.magic = .ok first ∧
      first.appendNumber 8 reply.totalLen = .ok second ∧
      second.appendNumber 8 reply.type.length = .ok third ∧
      Holding output (Octets.le 4 Wire.magic) first ∧
      Holding output (Octets.le 4 Wire.magic ++ Octets.le 8 reply.totalLen) second ∧
      Holding output (Octets.le 4 Wire.magic ++ Octets.le 8 reply.totalLen ++
        Octets.le 8 reply.type.length) third ∧ third.total = output.total := by
  have avail := valid.avail_eq
  obtain ⟨first, called1, held1, total1⟩ :=
    (Holding.refl valid).exists_number Wire.magic (show ((4 : Nat) : Int) ≤ _ by omega)
  have avail1 := held1.avail_eq
  rw [List.nil_append] at held1 avail1
  rw [Octets.le_length] at avail1
  obtain ⟨second, called2, held2, total2⟩ :=
    held1.exists_number reply.totalLen (show ((8 : Nat) : Int) ≤ _ by omega)
  have avail2 := held2.avail_eq
  rw [List.length_append, Octets.le_length, Octets.le_length] at avail2
  obtain ⟨third, called3, held3, total3⟩ :=
    held2.exists_number reply.type.length (show ((8 : Nat) : Int) ≤ _ by omega)
  exact ⟨first, second, third, called1, called2, called3, held1, held2, held3,
    total3.trans (total2.trans total1)⟩

/-- The type name, its successor and the message. -/
theorem Fits.exists_back {output third : Str} {reply : Composing} {bytes : Bytes}
    (fits : output.Fits reply) (held : Holding output bytes third) (length : bytes.length = 20)
    (total : third.total = output.total) :
    ∃ ret fourth fifth ret' sixth,
      third.append reply.type reply.typeGrants = .ok (ret, fourth) ∧
      fourth.appendNumber 8 reply.data.length = .ok fifth ∧
      fifth.append reply.data reply.dataGrants = .ok (ret', sixth) ∧
      Holding output (bytes ++ reply.type) fourth ∧
      Holding output (bytes ++ reply.type ++ Octets.le 8 reply.data.length) fifth ∧
      Holding output (bytes ++ reply.type ++ Octets.le 8 reply.data.length ++ reply.data)
        sixth := by
  obtain ⟨middle, last, typeReaches, room, dataReaches⟩ := fits.back
  have atType : third.curr = output.curr + 20 := by rw [held.curr_eq, length]; rfl
  rw [← atType, ← total] at typeReaches
  obtain ⟨ret, fourth, called4, held4, total4⟩ := held.exists_string typeReaches
  have roomNumber : ((8 : Nat) : Int) ≤ fourth.avail := by
    rw [held4.avail_eq, List.length_append, total4, length]
    unfold curr at room
    omega
  obtain ⟨fifth, called5, held5, total5⟩ := held4.exists_number reply.data.length roomNumber
  have atData : fifth.curr + reply.data.length = output.curr + reply.totalLen := by
    rw [held5.curr_eq]
    simp only [List.length_append, Octets.le_length, length, Composing.totalLen]
    omega
  rw [← atData, ← total4, ← total5] at dataReaches
  obtain ⟨ret', sixth, called6, held6, -⟩ := held5.exists_string dataReaches
  exact ⟨ret, fourth, fifth, ret', sixth, called4, called5, called6, held4, held5, held6⟩

theorem Fits.composes {output : Str} {reply : Composing} (fits : output.Fits reply)
    (valid : output.Valid) (int : reply.totalLen < 2 ^ 31) : output.Composes reply := by
  have payload : 0 < reply.data.length := List.length_pos_of_ne_nil fits.message
  have len : reply.totalLen = 28 + reply.type.length + reply.data.length := rfl
  obtain ⟨first, second, third, called1, called2, called3, held1, held2, held3, total3⟩ :=
    Holding.exists_front reply valid fits.front
  obtain ⟨ret, fourth, fifth, ret', sixth, called4, called5, called6, held4, held5, held6⟩ :=
    fits.exists_back held3 (by simp only [List.length_append, Octets.le_length]) total3
  refine ⟨[first, second, third, fourth, fifth, sixth], ?_, ?_, ?_⟩
  · have assert1 : assert (first.added output < CInt.wrap reply.totalLen) = .ok () :=
      held1.assert_lt valid (by simp only [Octets.le_length]; omega) int
    have assert2 : assert (second.added output < CInt.wrap reply.totalLen) = .ok () :=
      held2.assert_lt valid (by simp only [List.length_append, Octets.le_length]; omega) int
    have assert3 : assert (third.added output < CInt.wrap reply.totalLen) = .ok () :=
      held3.assert_lt valid (by simp only [List.length_append, Octets.le_length]; omega) int
    have assert4 : assert (fourth.added output < CInt.wrap reply.totalLen) = .ok () :=
      held4.assert_lt valid (by simp only [List.length_append, Octets.le_length]; omega) int
    have assert5 : assert (fifth.added output < CInt.wrap reply.totalLen) = .ok () :=
      held5.assert_lt valid (by simp only [List.length_append, Octets.le_length]; omega) int
    have assert6 : assert (sixth.added output = CInt.wrap reply.totalLen) = .ok () :=
      held6.assert_eq valid (by simp only [List.length_append, Octets.le_length]; omega) int
    rw [composeReply, called1, ok_bind, assert1, ok_bind, called2, ok_bind, assert2, ok_bind,
      called3, ok_bind, assert3, ok_bind, called4, ok_bind]
    dsimp only
    rw [assert4, ok_bind, called5, ok_bind, assert5, ok_bind, called6, ok_bind]
    dsimp only
    rw [assert6, ok_bind]
    rfl
  · simp only [List.forall_mem_cons, List.not_mem_nil, false_implies, implies_true, and_true]
    exact ⟨⟨held1.valid, held1.total⟩, ⟨held2.valid, held2.total⟩, ⟨held3.valid, held3.total⟩,
      ⟨held4.valid, held4.total⟩, ⟨held5.valid, held5.total⟩, ⟨held6.valid, held6.total⟩⟩
  · show sixth.contents = _
    rw [held6.contents]
    simp only [Wire.frame, List.append_assoc, len]

/-- A refused string leaves the frame too short for the last `assert`. -/
theorem fits_of_composeReply {output : Str} {reply : Composing} {stages : List Str}
    (valid : output.Valid) (int : reply.totalLen < 2 ^ 31)
    (composed : output.composeReply reply = .ok stages) : output.Fits reply := by
  have len : reply.totalLen = 28 + reply.type.length + reply.data.length := rfl
  have wrapped : CInt.wrap (reply.totalLen : Int) = reply.totalLen :=
    CInt.wrap_of_fits (by omega) (by omega)
  have avail := valid.avail_eq
  rw [composeReply] at composed
  obtain ⟨first, called1, composed⟩ := exists_of_bind composed
  obtain ⟨_, -, composed⟩ := exists_of_bind composed
  obtain ⟨second, called2, composed⟩ := exists_of_bind composed
  obtain ⟨_, -, composed⟩ := exists_of_bind composed
  obtain ⟨third, called3, composed⟩ := exists_of_bind composed
  obtain ⟨_, -, composed⟩ := exists_of_bind composed
  obtain ⟨⟨_, fourth⟩, called4, composed⟩ := exists_of_bind composed
  obtain ⟨_, -, composed⟩ := exists_of_bind composed
  obtain ⟨fifth, called5, composed⟩ := exists_of_bind composed
  obtain ⟨_, assert5, composed⟩ := exists_of_bind composed
  obtain ⟨⟨_, sixth⟩, called6, composed⟩ := exists_of_bind composed
  obtain ⟨_, assert6, -⟩ := exists_of_bind composed
  obtain ⟨-, held1, total1⟩ := (Holding.refl valid).of_number called1
  obtain ⟨-, held2, total2⟩ := held1.of_number called2
  obtain ⟨room, held3, total3⟩ := held2.of_number called3
  have atType : third.curr = output.curr + 20 := held3.curr_eq
  rw [held2.avail_eq, total2, total1] at room
  have ended := of_assert assert6
  have unfinished := of_assert assert5
  obtain ⟨held4, typeReaches⟩ | ⟨held4, some, -⟩ := held3.of_string called4
  all_goals
    obtain ⟨roomNumber, held5, total5⟩ := held4.of_number called5
    rw [held5.added_eq valid, wrapped] at unfinished
    obtain ⟨held6, dataReaches⟩ | ⟨held6, -, -⟩ := held5.of_string called6
    all_goals
      rw [held6.added_eq valid, wrapped] at ended
      simp only [List.length_append, List.length_nil, Octets.le_length] at ended unfinished room
  case inl.inl =>
    have atData : fifth.curr + reply.data.length = output.curr + reply.totalLen := by
      rw [held5.curr_eq]
      simp only [List.length_append, List.length_nil, Octets.le_length]
      omega
    rw [atType, total3, total2, total1] at typeReaches
    rw [atData, total5] at dataReaches
    refine ⟨by omega, ?_, fourth.total, sixth.total, typeReaches, ?_, dataReaches⟩
    · exact List.ne_nil_of_length_pos (by omega)
    · rw [held4.avail_eq] at roomNumber
      simp only [List.length_append, List.length_nil, Octets.le_length] at roomNumber
      unfold curr
      omega
  case inl.inr => omega
  all_goals
    have positive := List.length_pos_of_ne_nil some
    omega

/-- A reply is composed exactly where it fits. -/
theorem Valid.composes_iff {output : Str} (valid : output.Valid) {reply : Composing}
    (int : reply.totalLen < 2 ^ 31) : output.Composes reply ↔ output.Fits reply := by
  refine ⟨fun ⟨stages, composed, _⟩ => fits_of_composeReply valid int composed, fun fits => ?_⟩
  exact fits.composes valid int

/-! ## Runs -/

/-- The first reply of a connection, whatever it is: its second `append` stores beyond the
eight bytes of the buffer, unless an `assert` fails before. -/
theorem composeReply_new (fill : Int → UInt8) (reply : Composing) :
    (Str.new 8 fill).composeReply reply =
      .error (if 4 < CInt.wrap reply.totalLen then .memory .outside else .check) := by
  have valid : (Str.new 8 fill).Valid := .new (by decide) (by decide)
  have avail : (Str.new 8 fill).avail = 8 := valid.avail_eq
  obtain ⟨first, called, held, total⟩ :=
    (Holding.refl valid).exists_number Wire.magic (show ((4 : Nat) : Int) ≤ _ by omega)
  have left : first.avail = 4 := by
    rw [held.avail_eq, total]
    simp [Str.new]
  have added : first.added (Str.new 8 fill) = 4 := held.added_eq valid
  rw [composeReply, called, ok_bind, added, assert]
  split
  · rw [ok_bind, held.valid.appendNumber_outside _ (by omega)]
    rfl
  · rfl

/-- No connection has a state in which a reply is composed inside its output buffer: it never
comes past the first one. -/
theorem replies_never_stay_inside {fill : Int → UInt8} {output : Str}
    (run : Runs respond (fun _ _ => True) (Str.new 8 fill) output) (reply : Composing) :
    ¬output.Composes reply := by
  have start : output = Str.new 8 fill := by
    refine run.invariant (· = Str.new 8 fill) (fun output response next same _ moved => ?_) rfl
    subst same
    rw [respond, composeReply_new] at moved
    cases moved
  subst start
  rintro ⟨stages, composed, -⟩
  rw [composeReply_new] at composed
  cases composed

theorem replies_never_stay_inside_sample :
    ¬(Str.new 8 fun _ => 0).Composes
      ⟨Wire.getMessage, [8, 0], fun _ => some fun _ => 0, fun _ => some fun _ => 0⟩ :=
  replies_never_stay_inside (.refl _) _

theorem first_reply_overruns :
    Runs respond (fun _ _ => True) (Str.new 8 fun _ => 0) (Str.new 8 fun _ => 0) ∧
      (Str.new 8 fun _ => 0).composeReply
        ⟨Wire.getMessage, [8, 0], fun _ => some fun _ => 0, fun _ => some fun _ => 0⟩ =
          .error (.memory .outside) :=
  ⟨.refl _, (composeReply_new _ _).trans (congrArg _ (if_pos (by decide)))⟩

end BespoKV.Str
