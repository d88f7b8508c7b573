import BespoKV.Chain.Pipelining

/-!
# Linearizability at the tail

With one outstanding request for each client, a write is acknowledged after the whole
chain has applied it, and a read returns what the tail held at a moment between the
arrival of the read and its reply.
-/

namespace BespoKV

open Pipes

section Histories

variable {engine : Engine} {cfg : Config} {guard : State engine → Event → Prop}
variable {state after : State engine}

theorem log_of_run (run : Transition.Runs (State.step cfg) guard state after)
    (addr : AddrType) : (state.datalets addr).log <+: (after.datalets addr).log := by
  refine run.induction (fun state after => (state.datalets addr).log <+: (after.datalets addr).log)
    (List.prefix_refl _) ?_
  intro middle event last _ grown _ moved
  exact grown.trans (State.step_log moved addr)

/-- An answer that appears in a datalet's history during a run was computed from the
contents of the datalet at some moment of the run. -/
theorem moment_of_answer {addr : AddrType} {entry : Served}
    (run : Transition.Runs (State.step cfg) guard state after)
    (absent : entry ∉ (state.datalets addr).log)
    (present : entry ∈ (after.datalets addr).log) :
    ∃ moment frame, Transition.Runs (State.step cfg) guard state moment ∧
      Transition.Runs (State.step cfg) guard moment after ∧
      entry.req.frame? = some frame ∧
      entry.reply = (engine.serve (moment.datalets addr).state frame).2 := by
  obtain ⟨moment, event, next, first, admitted, moved, missing, found, rest⟩ :=
    run.crossing (fun state => entry ∈ (state.datalets addr).log) absent present
  have whole := (Transition.Runs.single admitted moved).trans rest
  rcases State.step_served moved with same | ⟨link, place, req, frame, handled⟩
  · rw [same] at found
    exact absurd found missing
  · rcases handled.mem_log found with old | ⟨rfl, rfl⟩
    · exact absurd old missing
    · exact ⟨moment, frame, first, whole, handled.framed, rfl⟩

end Histories

/-- The contents of a datalet are what its history wrote. -/
theorem replayed_of_run {cfg : Config} {guard : State mapEngine → Event → Prop}
    {state : State mapEngine}
    (run : Transition.Runs (State.step cfg) guard (State.init mapEngine) state)
    (addr : AddrType) :
    (state.datalets addr).state =
      History.replay Buffer.write? ((state.datalets addr).log.map Served.req) := by
  refine run.invariant (fun state => (state.datalets addr).state =
    History.replay Buffer.write? ((state.datalets addr).log.map Served.req)) ?_ rfl
  intro state event after replayed _ moved
  rcases State.step_served moved with same | ⟨link, place, req, frame, handled⟩
  · rw [same]
    exact replayed
  · rw [handled.datalets]
    by_cases here : addr = place
    · subst here
      simp only [Function.update_self, Datalet.handle, List.map_append, List.map_cons,
        List.map_nil]
      rw [History.replay_append, ← replayed]
      exact mapEngine_serve _ handled.framed
    · rw [Function.update_of_ne here]
      exact replayed

/-! ## One outstanding request for each client -/

section Clients

variable {engine : Engine} {cfg : Config} {state after : State engine}
variable {sessions : List Session} {session : Session} {lane : Lane}

/-- No link fails, and a client sends a request only when it has the replies to all
earlier ones. -/
def OneOutstanding (state : State engine) (event : Event) : Prop :=
  event.Clean ∧ event.Sends fun client frames => frames.length ≤ 1 ∧
    (frames ≠ [] →
      (state.proxy.received client).length = (state.proxy.delivered client).length)

instance (state : State engine) : DecidablePred (OneOutstanding state) :=
  fun _ => inferInstanceAs (Decidable (_ ∧ _))

theorem OneOutstanding.chainGuard {event : Event} (admitted : OneOutstanding state event) :
    ChainGuard (fun _ => True) state event := by
  refine ⟨admitted.1, admitted.2.mono ?_⟩
  rintro client frames ⟨single, answered⟩ _
  cases frames with
  | nil => trivial
  | cons frame rest =>
      have alone : rest = [] := by simpa using single
      subst alone
      refine ⟨fun _ => ?_, by simp⟩
      rw [answered (by simp)]
      exact Nat.le_add_right _ _

/-- Every client of a reachable state has its line. -/
theorem chained_everywhere (chain : cfg.IsChain)
    (run : Transition.Runs (State.step cfg) OneOutstanding (State.init engine) state) :
    ∃ sessions, Sane cfg state sessions ∧ ∀ session ∈ sessions, ∃ lane : Lane,
      lane.Of session ∧ Chained state lane := by
  obtain ⟨sessions, sane, holds⟩ :=
    chained_of_run (fun _ => True) chain (fun _ _ admitted => admitted.chainGuard) run
  refine ⟨sessions, sane, fun session member => ?_⟩
  obtain ⟨lane, of⟩ := sane.exists_lane chain member
  exact ⟨lane, of, holds session member trivial lane of⟩

variable (chained : Chained state lane) (of : lane.Of session) (chain : cfg.IsChain)
variable (sane : Sane cfg state sessions) (member : session ∈ sessions)
variable (isLocal : ∀ addr, ∀ entry ∈ (state.datalets addr).log,
  ∃ ptr, entry.conn = state.connOf ptr)
include chained of chain sane member isLocal

/-- Datalets of the chain answer what was received. -/
theorem Chained.received_of_served {entry : Served} {addr : AddrType}
    (datalet : addr ∈ cfg.chain) (logged : entry ∈ (state.datalets addr).log)
    (owner : entry.req.owner = some session.client) :
    entry.req ∈ state.proxy.received session.client := by
  obtain ⟨j, place⟩ := List.getElem?_of_mem datalet
  obtain ⟨small, answers⟩ := sane.answers_stage chain isLocal member of place
  have answered : (entry.req, Content.reply entry.reply) ∈
      state.answers addr session.client :=
    List.mem_map.mpr ⟨entry, List.mem_filter.mpr ⟨logged, by simpa using owner⟩, rfl⟩
  rw [answers] at answered
  rw [← of.client]
  exact chained.sound.mem_served small (List.mem_map_of_mem answered)

/-- A segment that has just arrived has not been served. -/
theorem Chained.new_unserved {req : Buffer} {pid : Nat}
    (stamped : session.Stamped pid after.proxy.traffic)
    (received : after.proxy.received session.client =
      state.proxy.received session.client ++ [req])
    {addr : AddrType} (datalet : addr ∈ cfg.chain) :
    req ∉ (state.datalets addr).log.map Served.req := by
  intro served
  obtain ⟨entry, logged, rfl⟩ := List.mem_map.mp served
  have place : (after.proxy.traffic.received session.client)[(state.proxy.received
      session.client).length]? = some entry.req := by
    change (after.proxy.received _)[_]? = _
    rw [received]
    simp
  have known := chained.received_of_served of chain sane member isLocal datalet logged
    (stamped _ _ place).owner
  have nodup : (after.proxy.received session.client).Nodup := stamped.nodup
  rw [received, List.nodup_append] at nodup
  exact nodup.2.2 entry.req known entry.req (by simp) rfl

/-- The `n`-th reply is the tail's answer to the `n`-th request. -/
theorem Chained.served_of_delivered {n : Nat} {reply req : Buffer} {tail : AddrType}
    (last : cfg.chain.getLast? = some tail)
    (delivered : (state.proxy.delivered session.client)[n]? = some reply)
    (received : (state.proxy.received session.client)[n]? = some req) :
    ∃ entry ∈ (state.datalets tail).log, entry.req = req ∧
      reply.content = .reply entry.reply := by
  rw [sane.tail_place chain member of] at last
  obtain ⟨_, answers⟩ := sane.answers_stage chain isLocal member of last
  have sound := chained.sound
  have output : (state.line lane).output[n]? = some reply.content := by
    change ((state.proxy.delivered lane.client ++ _).map Buffer.content)[n]? = _
    obtain ⟨bound, _⟩ := List.getElem?_eq_some_iff.mp delivered
    rw [of.client, List.getElem?_map, List.getElem?_append_left bound, delivered]
    rfl
  rw [sound.output, List.getElem?_map] at output
  obtain ⟨pair, position, content⟩ := Option.map_eq_some_iff.mp output
  have input : (state.line lane).input[n]? = some pair.1 := by
    have place : (((state.line lane).stage (state.line lane).last).answered.map Prod.fst)[n]? =
        some pair.1 := by
      rw [List.getElem?_map, position]
      rfl
    obtain ⟨bound, _⟩ := List.getElem?_eq_some_iff.mp place
    rw [sound.input, List.getElem?_append_left bound, place]
  change (state.proxy.received lane.client)[n]? = _ at input
  rw [of.client, received] at input
  have served := (Line.answered_served _).subset (List.mem_of_getElem? position)
  rw [← answers] at served
  obtain ⟨entry, listed, rfl⟩ := List.mem_map.mp served
  exact ⟨entry, List.mem_of_mem_filter listed, (Option.some.inj input).symm, content.symm⟩

end Clients

/-! ## Linearizability -/

/-- The answer to a read of `key` that arrived after `before` is what the tail held at a
moment between the arrival and the reply.  It reflects every write of the key that had
been acknowledged before the read arrived. -/
def ReadsTail (cfg : Config) (before arrived after : State mapEngine) (key : Key)
    (answer : Content) : Prop :=
  ∀ tail, cfg.chain.getLast? = some tail → ∃ moment,
    Transition.Runs (State.step cfg) OneOutstanding arrived moment ∧
    Transition.Runs (State.step cfg) OneOutstanding moment after ∧
    answer = .reply (.ofLookup ((moment.datalets tail).state key)) ∧
    ∀ client req value, req ∈ before.acknowledged client →
      req.write? = some (key, value) →
      History.Reflects Buffer.write? ((moment.datalets tail).log.map Served.req) key
        ((moment.datalets tail).state key) req

/-- What clients with one outstanding request each can rely on. -/
structure Linearizable (cfg : Config) : Prop where
  /-- a write is acknowledged after every datalet of the chain has applied it -/
  writes : ∀ state : State mapEngine,
    Transition.Runs (State.step cfg) OneOutstanding (State.init mapEngine) state →
    ∀ client, ∀ req ∈ state.acknowledged client, req.isSet = true →
    ∀ addr ∈ cfg.chain, req ∈ state.applied addr client
  /-- the reply to a read comes from the tail -/
  reads : ∀ (before arrived after : State mapEngine) (client : LinkPtr) (key : Key)
    (freed : Nat → Key → Key) (reply : Buffer),
    Transition.Runs (State.step cfg) OneOutstanding (State.init mapEngine) before →
    OneOutstanding before (.request client (some [.get key]) freed) →
    before.step cfg (.request client (some [.get key]) freed) = .ok arrived →
    Transition.Runs (State.step cfg) OneOutstanding arrived after →
    (after.proxy.delivered client)[(before.proxy.received client).length]? = some reply →
    ReadsTail cfg before arrived after key reply.content

section Reads

variable {cfg : Config} {before arrived after : State mapEngine} {client : LinkPtr}
variable {key : Key} {freed : Nat → Key → Key} {reply : Buffer}

theorem acknowledged_everywhere (chain : cfg.IsChain) {state : State mapEngine}
    (run : Transition.Runs (State.step cfg) OneOutstanding (State.init mapEngine) state)
    {req : Buffer} (acknowledged : req ∈ state.acknowledged client) (isSet : req.isSet = true)
    {addr : AddrType} (datalet : addr ∈ cfg.chain) : req ∈ state.applied addr client := by
  obtain ⟨sessions, sane, lines⟩ := chained_everywhere chain run
  obtain ⟨session, member, rfl⟩ := sane.client_of_received (List.mem_of_mem_take acknowledged)
  obtain ⟨lane, of, chained⟩ := lines session member
  have isLocal := Sane.local_of_run run
  exact chained.applied_everywhere of chain sane member isLocal acknowledged isSet datalet

/-- A write in the history of the tail is reflected by the tail at any later moment. -/
theorem reflects_of_applied {tail : AddrType} {moment : State mapEngine} {req : Buffer}
    {value : Value}
    (run : Transition.Runs (State.step cfg) OneOutstanding (State.init mapEngine) before)
    (later : Transition.Runs (State.step cfg) OneOutstanding before moment)
    (applied : req ∈ before.applied tail client) (writes : req.write? = some (key, value)) :
    History.Reflects Buffer.write? ((moment.datalets tail).log.map Served.req) key
      ((moment.datalets tail).state key) req := by
  obtain ⟨pair, answered, rfl⟩ := List.mem_map.mp applied
  obtain ⟨entry, listed, rfl⟩ := List.mem_map.mp answered
  have logged := (log_of_run later tail).subset (List.mem_of_mem_filter listed)
  rw [replayed_of_run (run.trans later) tail]
  exact History.replay_reflects (List.mem_map_of_mem logged) writes

/-- The read is answered by the tail, and not before it arrives. -/
theorem read_answered (chain : cfg.IsChain)
    (run : Transition.Runs (State.step cfg) OneOutstanding (State.init mapEngine) before)
    (admitted : OneOutstanding before (.request client (some [.get key]) freed))
    (moved : before.step cfg (.request client (some [.get key]) freed) = .ok arrived)
    (later : Transition.Runs (State.step cfg) OneOutstanding arrived after)
    (delivered :
      (after.proxy.delivered client)[(before.proxy.received client).length]? = some reply)
    {tail : AddrType} (last : cfg.chain.getLast? = some tail) :
    ∃ entry, entry ∉ (arrived.datalets tail).log ∧ entry ∈ (after.datalets tail).log ∧
      entry.req.content = .frames [.get key] ∧ reply.content = .reply entry.reply := by
  have toArrived := run.tail admitted moved
  have toAfter := toArrived.trans later
  have unlocked : cfg.consistencyTechnique ≠ .rl := by
    rw [chain.technique]
    decide
  have alert := alert_of_run unlocked (fun _ _ admitted => admitted.1) run
  obtain ⟨req, content, received⟩ := Sane.received_single (alert client).healthy moved
  obtain ⟨sessions, sane, lines⟩ := chained_everywhere chain run
  obtain ⟨session, member, rfl, _⟩ := sane.request_within moved
  obtain ⟨lane, of, chained⟩ := lines session member
  obtain ⟨sessionsArrived, steps⟩ := sane.step moved
  have stamped := steps.sane.stamped session (steps.kept session member)
  -- the same client when the reply has been written
  obtain ⟨others, saneOthers, stays⟩ :=
    sane.session_of_run member ((Transition.Runs.single admitted moved).trans later)
  have connected : (after.proxy.links session.client).nwFunc = .request :=
    congrArg LinkInfo.nwFunc (saneOthers.client_info stays)
  obtain ⟨sessionsAfter, saneAfter, linesAfter⟩ := chained_everywhere chain toAfter
  obtain ⟨sessionAfter, memberAfter, same⟩ := saneAfter.wired.clients _ connected
  obtain ⟨laneAfter, ofAfter, chainedAfter⟩ := linesAfter sessionAfter memberAfter
  have place : (arrived.proxy.received session.client)[(before.proxy.received
      session.client).length]? = some req := by
    rw [received]
    simp
  have grown := steps.sane.received_prefix later session.client
  have placeAfter : (after.proxy.received session.client)[(before.proxy.received
      session.client).length]? = some req := by
    obtain ⟨more, whole⟩ := grown
    obtain ⟨bound, _⟩ := List.getElem?_eq_some_iff.mp place
    rw [← whole, List.getElem?_append_left bound, place]
  rw [← same] at delivered placeAfter
  obtain ⟨entry, logged, isReq, answer⟩ :=
    chainedAfter.served_of_delivered ofAfter chain saneAfter memberAfter
      (Sane.local_of_run toAfter) last delivered placeAfter
  refine ⟨entry, fun early => ?_, logged, by rw [isReq, content], answer⟩
  rw [State.request_datalets moved] at early
  refine chained.new_unserved of chain sane member
    (Sane.local_of_run run) stamped received
    (List.mem_of_getLast? last) ?_
  rw [← isReq]
  exact List.mem_map_of_mem early

/-- **Linearizability at the tail.** -/
theorem chain_linearizable (chain : cfg.IsChain) : Linearizable cfg := by
  constructor
  · intro state run client req acknowledged isSet addr datalet
    exact acknowledged_everywhere chain run acknowledged isSet datalet
  · intro before arrived after client key freed reply run admitted moved later delivered tail last
    obtain ⟨entry, absent, present, content, answer⟩ :=
      read_answered chain run admitted moved later delivered last
    obtain ⟨moment, frame, first, rest, framed, computed⟩ :=
      moment_of_answer later absent present
    have isGet : frame = .get key := by
      simp only [Buffer.frame?, content, Option.some.injEq] at framed
      exact framed.symm
    refine ⟨moment, first, rest, ?_, ?_⟩
    · rw [answer, computed, isGet]
      rfl
    · intro other req value acknowledged writes
      have applied := acknowledged_everywhere chain run acknowledged
        (Buffer.isSet_of_write writes) (List.mem_of_getLast? last)
      have toMoment := (Transition.Runs.single admitted moved).trans first
      exact reflects_of_applied run toMoment applied writes

end Reads

/-- A write by one client, acknowledged. -/
def sampleWrite : List Event :=
  [.accept fun _ => ⟨false, false⟩, .accept fun _ => ⟨true, true⟩,
    .request 0 (some [.set [7] [1]]) fun _ => id, .writable 2 true, .serve 2, .response 2,
    .writable 1 true, .serve 1, .response 1, .writable 3 true, .serve 3, .response 3,
    .writable 0 true]

/-- A read of the same key by another client, up to its reply. -/
def sampleRead : List Event := [.writable 7 true, .serve 7, .response 7, .writable 4 true]

theorem chain_linearizable_sample : Config.sampleChain.IsChain ∧
    ∃ before arrived after : State mapEngine, ∃ reply : Buffer,
      reply.content = .reply ⟨0, some [1]⟩ ∧ before.acknowledged 0 ≠ [] ∧
      ReadsTail Config.sampleChain before arrived after [7] reply.content := by
  obtain ⟨before, arrived, after, run, admitted, moved, later, post⟩ :=
    Transition.Runs.exists_around (State.step Config.sampleChain) OneOutstanding
      (State.init mapEngine) sampleWrite (.request 4 (some [.get [7]]) fun _ => id)
      sampleRead
      (fun before after => before.acknowledged 0 ≠ [] ∧ before.proxy.received 4 = [] ∧
        (after.proxy.delivered 4)[0]? =
          some { id := -1, content := .reply ⟨0, some [1]⟩ }) (by decide)
  simp only [decide_eq_true_eq] at post
  refine ⟨Config.sampleChain_isChain, before, arrived, after,
    { id := -1, content := .reply ⟨0, some [1]⟩ }, rfl, post.1, ?_⟩
  refine (chain_linearizable Config.sampleChain_isChain).reads before arrived after 4 [7] _ _ run
    admitted moved later ?_
  rw [post.2.1]
  exact post.2.2

end BespoKV
