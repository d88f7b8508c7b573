import Mathlib.Data.List.Perm.Basic
import BespoKV.LibCkv.Receiving

/-!
# Calls one after the other

A connection, its parser and the results of the parser share a reader: characters are received,
read into tokens, looked at and freed in any order.  Whatever the order, the answers are those of
a queue of characters from which tokens are copied.
-/

namespace BespoKV.Memcached

/-! ## A session -/

/-- The calls on a reader; `ρ` is the reader and `τ` a token. -/
structure Ops (ρ τ : Type) where
  recv : ρ → List Char → Except Fault ρ
  reset : ρ → ρ
  peek : ρ → Nat → Read ρ Char
  readUntil : ρ → Char → Read ρ τ
  skipUntil : ρ → Char → Read ρ Unit
  readUnsigned : ρ → Read ρ Nat
  readBytes : ρ → Nat → Read ρ τ
  expectBytes : ρ → List Char → Read ρ Unit
  skipBytes : ρ → Nat → Read ρ Unit
  setNextPreferedDataBlockSize : ρ → Nat → ρ
  /-- with the number of characters that the caller has counted in the token -/
  parseTokenData : ρ → τ → Except Fault (Option (List Char))
  freeTokenData : ρ → τ → Except Fault ρ

inductive Call where
  | recv (chars : List Char)
  | reset
  | peek (offset : Nat)
  | readUntil (value : Char)
  | skipUntil (value : Char)
  | readUnsigned
  | readBytes (len : Nat)
  | expectBytes (text : List Char)
  | skipBytes (len : Nat)
  | setNextPreferedDataBlockSize (n : Nat)
  /-- look at the characters of a token -/
  | parse (token : Nat)
  | free (token : Nat)

/-- What a caller may pass: `expectBytes` and `skipBytes` want at least one character, and
`strncmp` must not meet a NUL. -/
def Call.Proper : Call → Prop
  | .expectBytes text => Char.ofNat 0 ∉ text ∧ 0 < text.length
  | .skipBytes len => 0 < len
  | _ => True

inductive Answer where
  | done
  | char (c : Char)
  | text (chars : Option (List Char))
  | number (value : Nat)
  | incomplete
  deriving DecidableEq, Repr

section Sessions

variable {ρ τ α : Type} (ops : Ops ρ τ)

/-- A read that succeeds may leave tokens; one that finds too little leaves everything. -/
def settle (session : ρ × List τ) (read : Read ρ α) (answer : α → Answer)
    (hold : α → List τ) : Except Halt (Answer × ρ × List τ) :=
  match read with
  | .ok value rest => .ok (answer value, rest, hold value ++ session.2)
  | .incomplete => .ok (.incomplete, session)
  | .failed halt _ => .error halt

/-- One call on a reader and the tokens that are held. -/
def Ops.step (session : ρ × List τ) : Call → Except Halt (Answer × ρ × List τ)
  | .recv chars =>
      match ops.recv session.1 chars with
      | .error fault => .error (.fault fault)
      | .ok reader => .ok (.done, reader, session.2)
  | .reset =>
      -- a connection is reset after the results have been freed
      if session.2.isEmpty then .ok (.done, ops.reset session.1, [])
      else .error (.fault .disabled)
  | .peek offset => settle session (ops.peek session.1 offset) .char fun _ => []
  | .readUntil value =>
      settle session (ops.readUntil session.1 value) (fun _ => .done) fun token => [token]
  | .skipUntil value => settle session (ops.skipUntil session.1 value) (fun _ => .done) fun _ => []
  | .readUnsigned => settle session (ops.readUnsigned session.1) .number fun _ => []
  | .readBytes len =>
      settle session (ops.readBytes session.1 len) (fun _ => .done) fun token => [token]
  | .expectBytes text =>
      settle session (ops.expectBytes session.1 text) (fun _ => .done) fun _ => []
  | .skipBytes len => settle session (ops.skipBytes session.1 len) (fun _ => .done) fun _ => []
  | .setNextPreferedDataBlockSize n =>
      .ok (.done, ops.setNextPreferedDataBlockSize session.1 n, session.2)
  | .parse k =>
      match session.2[k]? with
      | none => .error (.fault .disabled)
      | some token =>
          match ops.parseTokenData session.1 token with
          | .error fault => .error (.fault fault)
          | .ok chars => .ok (.text chars, session)
  | .free k =>
      match session.2[k]? with
      | none => .error (.fault .disabled)
      | some token =>
          match ops.freeTokenData session.1 token with
          | .error fault => .error (.fault fault)
          | .ok reader => .ok (.done, reader, session.2.eraseIdx k)

/-- Calls until one of them ends the session, with their answers. -/
def Ops.run (session : ρ × List τ) : List Call → List Answer × Except Halt (ρ × List τ)
  | [] => ([], .ok session)
  | call :: calls =>
      match ops.step session call with
      | .error halt => ([], .error halt)
      | .ok (answer, session) =>
          let (answers, ended) := Ops.run session calls
          (answer :: answers, ended)

end Sessions

/-- Slices of blocks as tokens. -/
def BufferReader.ops : Ops BufferReader TokenData where
  recv := recv
  reset := reset
  peek := peek
  readUntil := readUntil
  skipUntil := skipUntil
  readUnsigned := readUnsigned
  readBytes := readBytes
  expectBytes := expectBytes
  skipBytes := skipBytes
  setNextPreferedDataBlockSize := setNextPreferedDataBlockSize
  parseTokenData reader token := reader.parseTokenData token (total token)
  freeTokenData := freeTokenData

/-- Copies of the characters as tokens. -/
def Queue.ops : Ops (List Char) (List Char) where
  recv queue chars := .ok (queue ++ chars)
  reset _ := []
  peek := peek
  readUntil := readUntil
  skipUntil := skipUntil
  readUnsigned := readUnsigned
  readBytes := readBytes
  expectBytes := expectBytes
  skipBytes := skipBytes
  setNextPreferedDataBlockSize queue _ := queue
  parseTokenData _ token := .ok (if token = [] then none else some token)
  freeTokenData queue _ := .ok queue

/-! ## The reader answers as the queue does -/

namespace BufferReader

variable {reader after : BufferReader} {tokens : List TokenData} {queue : List Char}
  {texts : List (List Char)}

/-- The characters of a token. -/
abbrev textOf (reader : BufferReader) (token : TokenData) : List Char :=
  token.flatMap (Slice.chars reader.blocks)

/-- A reader with its tokens, and a queue with copies. -/
structure Agrees (reader : BufferReader) (tokens : List TokenData) (queue : List Char)
    (texts : List (List Char)) : Prop where
  sane : reader.Sane tokens.flatten
  unread : reader.unread = queue
  texts : tokens.map reader.textOf = texts

theorem textOf_eq {token : TokenData} (grows : Grows reader.blocks after.blocks)
    (inRange : ∀ slice ∈ token, slice.InRange reader.blocks) :
    after.textOf token = reader.textOf token := by
  unfold textOf
  rw [List.flatMap_def, List.flatMap_def]
  congr 1
  apply List.map_congr_left
  intro slice member
  exact grows.chars_eq (inRange slice member)

theorem texts_eq (sane : reader.Sane tokens.flatten) (grows : Grows reader.blocks after.blocks) :
    tokens.map after.textOf = tokens.map reader.textOf := by
  apply List.map_congr_left
  intro token member
  apply textOf_eq grows
  intro slice inToken
  exact sane.inRange slice (List.mem_flatten_of_mem member inToken)

/-- A token is looked at with its number of characters. -/
theorem Sane.parseTokenData (sane : reader.Sane tokens.flatten) {token : TokenData}
    (member : token ∈ tokens) :
    reader.parseTokenData token (total token) =
      .ok (if reader.textOf token = [] then none else some (reader.textOf token)) := by
  have count : (reader.textOf token).length = total token := by
    unfold textOf total
    rw [List.length_flatMap]
    congr 1
    apply List.map_congr_left
    intro slice inToken
    exact length_chars (sane.inRange slice (List.mem_flatten_of_mem member inToken))
  unfold BufferReader.parseTokenData
  by_cases empty : total token = 0
  · rw [if_pos empty, if_pos (List.length_eq_zero_iff.mp (count.trans empty))]
  · rw [if_neg empty, if_neg (by rw [← List.length_eq_zero_iff, count]; exact empty)]
    split
    · rw [if_pos (by simp [total])]
      simp [textOf]
    · rw [if_neg (by simp), if_pos rfl]

/-- A call that leaves no token. -/
theorem Agrees.go (agrees : Agrees reader tokens queue texts)
    (sane : after.Sane tokens.flatten) (grows : Grows reader.blocks after.blocks) :
    Agrees after tokens after.unread texts :=
  ⟨sane, rfl, (texts_eq agrees.sane grows).trans agrees.texts⟩

/-- A call that leaves one. -/
theorem Agrees.hold (agrees : Agrees reader tokens queue texts) {token : TokenData}
    (sane : after.Sane (token ++ tokens.flatten)) (same : after.blocks = reader.blocks) :
    Agrees after (token :: tokens) after.unread (reader.textOf token :: texts) := by
  have grows : Grows reader.blocks after.blocks := by
    rw [same]
    exact .refl _
  refine ⟨by rw [List.flatten_cons]; exact sane, rfl, ?_⟩
  have first : after.textOf token = reader.textOf token := by
    unfold textOf
    rw [same]
  rw [List.map_cons, first, texts_eq agrees.sane grows, agrees.texts]

theorem held_perm {slices slices' : List Slice} (same : slices.Perm slices') (k : Nat) :
    held slices k = held slices' k := by
  induction same with
  | nil => rfl
  | cons slice _ ih => rw [held, held, ih]
  | swap one two slices =>
      simp only [held]
      omega
  | trans _ _ ih ih' => rw [ih, ih']

/-- The order of the tokens does not matter. -/
theorem Sane.perm {slices slices' : List Slice} (sane : reader.Sane slices)
    (same : slices.Perm slices') : reader.Sane slices' where
  valid := sane.valid
  left := sane.left
  poised := sane.poised
  last := sane.last
  solid := sane.solid
  written := sane.written
  roomy := sane.roomy
  refs k := by rw [← held_perm same, sane.refs k]
  inRange slice member := sane.inRange slice (same.symm.subset member)

theorem flatten_perm_of_getElem? {token : TokenData} {k : Nat} (present : tokens[k]? = some token) :
    tokens.flatten.Perm (token ++ (tokens.eraseIdx k).flatten) := by
  obtain ⟨inside, rfl⟩ := List.getElem?_eq_some_iff.mp present
  have parts := ((List.getElem_cons_eraseIdx_perm inside).flatMap_right id).symm
  rwa [List.flatMap_id, List.flatMap_id, List.flatten_cons] at parts

/-- Freeing a token leaves the others. -/
theorem Agrees.free (agrees : Agrees reader tokens queue texts) {token : TokenData} {k : Nat}
    (present : tokens[k]? = some token) :
    ∃ after, ops.freeTokenData reader token = .ok after ∧
      Agrees after (tokens.eraseIdx k) queue (texts.eraseIdx k) := by
  have apart := agrees.sane.perm (flatten_perm_of_getElem? present)
  obtain ⟨after, freed, kept, same, text⟩ := apart.released ()
  refine ⟨after, ?_, kept, same.trans agrees.unread, ?_⟩
  · unfold released at freed
    dsimp only [ops, freeTokenData]
    cases released : release reader.blocks token with
    | error fault =>
        rw [released] at freed
        cases freed
    | ok blocks =>
        rw [released] at freed
        cases freed
        rfl
  · have others := texts_eq agrees.sane (.of_sameText text)
    rw [← agrees.texts, ← others, List.eraseIdx_map]

/-- How a call on the reader compares with the call on the queue: it is not allowed, it ends both
sessions with the same error, or it gives the same answer. -/
inductive Alike : Except Halt (Answer × BufferReader × List TokenData) →
    Except Halt (Answer × List Char × List (List Char)) → Prop
  | disabled (other : Except Halt (Answer × List Char × List (List Char))) :
      Alike (.error (.fault .disabled)) other
  | programming : Alike (.error .programming) (.error .programming)
  | ok (answer : Answer) {reader : BufferReader} {tokens : List TokenData} {queue : List Char}
      {texts : List (List Char)} : Agrees reader tokens queue texts →
      Alike (.ok (answer, reader, tokens)) (.ok (answer, queue, texts))

/-- One call. -/
theorem Agrees.step (agrees : Agrees reader tokens queue texts) (call : Call)
    (proper : call.Proper) :
    Alike (ops.step (reader, tokens) call) (Queue.ops.step (queue, texts) call) := by
  have sane := agrees.sane
  obtain rfl := agrees.unread
  cases call with
  | recv chars =>
      dsimp only [Ops.step, ops, Queue.ops]
      rcases (sane.recv chars).2 with ⟨_, received⟩ | ⟨_, after, received, kept, joined, grows⟩
      · rw [received]
        exact .disabled _
      · rw [received]
        have next := agrees.go kept grows
        rw [joined] at next
        exact .ok _ next
  | reset =>
      dsimp only [Ops.step, ops, Queue.ops]
      by_cases none : tokens = []
      · subst tokens
        obtain rfl : texts = [] := agrees.texts.symm
        obtain ⟨kept, empty⟩ := sane.reset
        exact .ok _ ⟨kept, empty, rfl⟩
      · rw [if_neg (by simpa using none)]
        exact .disabled _
  | peek offset =>
      dsimp only [Ops.step, ops, Queue.ops, Queue.peek]
      rcases sane.peek offset with ⟨beyond, peeked⟩ | ⟨c, found, peeked⟩
      · rw [beyond, peeked]
        exact .ok _ agrees
      · rw [found, peeked]
        exact .ok _ agrees
  | readUntil value =>
      dsimp only [Ops.step, ops, Queue.ops, Queue.readUntil]
      rcases sane.readUntil value with ⟨absent, waits⟩ |
        ⟨present, token, after, read, kept, same, taken, rest⟩
      · rw [waits, if_neg absent]
        exact .ok _ agrees
      · rw [read, if_pos present, ← taken, ← rest]
        exact .ok _ (agrees.hold kept same)
  | skipUntil value =>
      dsimp only [Ops.step, ops, Queue.ops, Queue.skipUntil]
      rcases sane.skipUntil value with ⟨absent, waits⟩ | ⟨present, after, read, kept, same, rest⟩
      · rw [waits, if_neg absent]
        exact .ok _ agrees
      · rw [read, if_pos present, ← rest]
        exact .ok _ (agrees.go kept (.of_sameText same))
  | readUnsigned =>
      dsimp only [Ops.step, ops, Queue.ops]
      rcases sane.readUnsigned with ⟨short, waits⟩ | ⟨bad, fails⟩ |
        ⟨number, after, value, read, kept, same⟩
      · rw [short, waits]
        exact .ok _ agrees
      · rw [bad, fails]
        exact .programming
      · rw [value, read]
        exact .ok _ (agrees.go kept (.of_sameText same))
  | readBytes len =>
      dsimp only [Ops.step, ops, Queue.ops, Queue.readBytes]
      rcases sane.readBytes len with ⟨short, waits⟩ |
        ⟨enough, token, after, read, kept, same, taken, rest⟩
      · rw [waits, if_pos short]
        exact .ok _ agrees
      · rw [read, if_neg enough, ← taken, ← rest]
        exact .ok _ (agrees.hold kept same)
  | expectBytes text =>
      dsimp only [Ops.step, ops, Queue.ops, Queue.expectBytes]
      rcases sane.expectBytes proper.1 proper.2 with ⟨short, waits⟩ | ⟨enough, differs, fails⟩ |
        ⟨enough, equal, after, read, kept, same, rest⟩
      · rw [waits, if_pos short]
        exact .ok _ agrees
      · obtain ⟨left, fails⟩ := fails
        rw [fails, if_neg enough, if_neg differs]
        exact .programming
      · rw [read, if_neg enough, if_pos equal, ← rest]
        exact .ok _ (agrees.go kept (.of_sameText same))
  | skipBytes len =>
      dsimp only [Ops.step, ops, Queue.ops, Queue.skipBytes]
      rcases sane.skipBytes proper with ⟨short, waits⟩ | ⟨enough, after, read, kept, same, rest⟩
      · rw [waits, if_pos short]
        exact .ok _ agrees
      · rw [read, if_neg enough, ← rest]
        exact .ok _ (agrees.go kept (.of_sameText same))
  | setNextPreferedDataBlockSize n =>
      exact .ok _ (agrees.go (sane.setNextPreferedDataBlockSize n) (.refl _))
  | parse k =>
      dsimp only [Ops.step, ops, Queue.ops]
      obtain rfl := agrees.texts
      rw [List.getElem?_map]
      cases present : tokens[k]? with
      | none => exact .disabled _
      | some token =>
          dsimp only [Option.map]
          rw [sane.parseTokenData (List.mem_of_getElem? present)]
          exact .ok _ agrees
  | free k =>
      dsimp only [Ops.step, Queue.ops]
      cases present : tokens[k]? with
      | none => exact .disabled _
      | some token =>
          obtain ⟨after, freed, next⟩ := agrees.free present
          have copied : texts[k]? = some (reader.textOf token) := by
            rw [← agrees.texts, List.getElem?_map, present]
            rfl
          rw [copied]
          dsimp only
          rw [freed]
          exact .ok _ next

/-- Calls one after the other. -/
theorem Agrees.run (agrees : Agrees reader tokens queue texts) (calls : List Call)
    (proper : ∀ call ∈ calls, call.Proper) :
    (ops.run (reader, tokens) calls).2 = .error (.fault .disabled) ∨
      (Queue.ops.run (queue, texts) calls).1 = (ops.run (reader, tokens) calls).1 ∧
        ((ops.run (reader, tokens) calls).2 = .error .programming ∧
            (Queue.ops.run (queue, texts) calls).2 = .error .programming ∨
          ∃ reader' tokens' queue' texts',
            (ops.run (reader, tokens) calls).2 = .ok (reader', tokens') ∧
            (Queue.ops.run (queue, texts) calls).2 = .ok (queue', texts') ∧
            Agrees reader' tokens' queue' texts') := by
  induction calls generalizing reader tokens queue texts with
  | nil => exact .inr ⟨rfl, .inr ⟨_, _, _, _, rfl, rfl, agrees⟩⟩
  | cons call calls ih =>
      have alike := agrees.step call (proper call List.mem_cons_self)
      rw [Ops.run, Ops.run]
      generalize ops.step (reader, tokens) call = moved at alike
      generalize Queue.ops.step (queue, texts) call = moved' at alike
      cases alike with
      | disabled other => exact .inl rfl
      | programming => exact .inr ⟨rfl, .inl ⟨rfl, rfl⟩⟩
      | ok answer agrees =>
          rcases ih agrees (fun call member => proper call (List.mem_cons_of_mem _ member)) with
            ended | ⟨answers, ended⟩
          · exact .inl ended
          · exact .inr ⟨congrArg (answer :: ·) answers, ended⟩

end BufferReader

/-- Whatever is received, read, looked at and freed, in any order, and reset while no token is held,
the reader answers as a queue of characters does from which the tokens have been copied, up to the
first text or number that is not there.  No assertion fails and no iterator is dereferenced at the
end of the list.  Every block counts the characters that are unread in it or
in tokens; when all is read and freed, the blocks can be used again. -/
theorem BufferReader.answers_as_a_queue (calls : List Call) (proper : ∀ call ∈ calls, call.Proper)
    (allowed : (ops.run ({}, []) calls).2 ≠ .error (.fault .disabled)) :
    (ops.run ({}, []) calls).1 = (Queue.ops.run ([], []) calls).1 ∧
      ((ops.run ({}, []) calls).2 = .error .programming ∧
          (Queue.ops.run ([], []) calls).2 = .error .programming ∨
        ∃ reader tokens,
          (ops.run ({}, []) calls).2 = .ok (reader, tokens) ∧
          (Queue.ops.run ([], []) calls).2 =
            .ok (reader.unread, tokens.map reader.textOf) ∧
          reader.readLeft = reader.unread.length ∧
          (∀ k, refsAt reader.blocks k =
            unreadIn reader.blocks reader.cursor k + held tokens.flatten k) ∧
          (reader.unread = [] → tokens = [] → ∀ block ∈ reader.blocks, block.nBytesRef = 0)) := by
  have start : Agrees {} [] [] [] := ⟨Sane.initial, rfl, rfl⟩
  rcases start.run calls proper with disabled | ⟨answers, ended | ended⟩
  · exact absurd disabled allowed
  · exact ⟨answers.symm, .inl ended⟩
  · obtain ⟨reader, tokens, queue, texts, here, there, agrees⟩ := ended
    refine ⟨answers.symm, .inr ⟨reader, tokens, here, ?_, agrees.sane.left, agrees.sane.refs, ?_⟩⟩
    · rw [there, ← agrees.unread, ← agrees.texts]
    · rintro empty rfl block member
      obtain ⟨k, inside, rfl⟩ := List.getElem_of_mem member
      have refs := agrees.sane.refs k
      rw [unreadIn_eq_zero agrees.sane.valid empty, refsAt, List.getElem?_eq_getElem inside] at refs
      exact refs

/-- A key that arrives in two parts, read into a token that outlives what follows. -/
def Call.sample : List Call :=
  [.recv "VALUE ke".toList, .expectBytes "VALUE ".toList, .readUntil ' ', .recv "y 17 ".toList,
    .readUntil ' ', .skipBytes 1, .readUnsigned, .parse 0, .free 0, .peek 0, .peek 1]

theorem BufferReader.answers_as_a_queue_sample :
    (ops.run ({}, []) Call.sample).1 =
      [.done, .done, .incomplete, .done, .done, .done, .number 17, .text (some "key".toList), .done,
        .char ' ', .incomplete] := by
  have proper : ∀ call ∈ Call.sample, call.Proper := by
    simp [Call.sample, Call.Proper]
  have allowed : (ops.run ({}, []) Call.sample).2 ≠ .error (.fault .disabled) := by
    intro refused
    have fine : (ops.run ({}, []) Call.sample).2.isOk = true := by decide +kernel
    rw [refused] at fine
    cases fine
  exact (answers_as_a_queue Call.sample proper allowed).1.trans (by decide +kernel)

end BespoKV.Memcached
