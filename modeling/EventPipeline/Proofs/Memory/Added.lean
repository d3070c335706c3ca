import Mathlib.Data.List.Nodup
import EventPipeline.Proofs.Memory.Worker

/-! # What a dispatch adds to the topics

If the handlers publish nothing, the records that a worker's steps add to the broker in memory are
those of its escalations. So all that a worker adds for one message is one record, which it adds if a
handler failed on the event and the broker takes the record.
-/

namespace EventPipeline.Memory

open Worker

variable {σ : Type}

/-- The broker has the same records, and refuses the same topics. -/
structure World.SameTopics (world world' : World σ) : Prop where
  arrivals : world'.broker.arrivals = world.broker.arrivals
  refusing : world'.broker.refusing = world.broker.refusing

theorem World.SameTopics.refl (world : World σ) : world.SameTopics world := ⟨rfl, rfl⟩

theorem World.SameLogs.topics {world world' : World σ} (same : world.SameLogs world') :
    world.SameTopics world' := ⟨same.arrivals, same.refusing⟩

/-- The worker publishes to the broker of its world, and its handlers publish nothing. -/
structure OnlyEscalates (w : Worker (World σ)) : Prop where
  sink : w.publisher.sink = World.sink
  handlers : ∀ a ∈ w.registry.accepted, ∀ e world,
    World.SameTopics world (a.listener.handler.handle e world).2.1

/-- The offsets of the records that a move added to a topic. -/
def added (topic : String) (m : Move (World σ) Consumer) : List Nat :=
  List.range' (m.found.broker.nextOffset topic)
    (m.left.broker.nextOffset topic - m.found.broker.nextOffset topic)

/-- The offsets of the records that were added to a topic with this message at hand. -/
def addedFor (topic : String) (d : Delivery) (moves : List (Move (World σ) Consumer)) : List Nat :=
  (handling d moves).flatMap (added topic)

theorem added_of_sameTopics {m : Move (World σ) Consumer} (same : m.found.SameTopics m.left)
    (topic : String) : added topic m = [] := by
  rw [added, Broker.nextOffset, Broker.nextOffset, Broker.records_congr same.arrivals, Nat.sub_self]
  rfl

theorem added_append_self {m : Move (World σ) Consumer} {topic : String} {r : Record}
    (append : m.left.broker = m.found.broker.append topic r) :
    added topic m = [m.found.broker.nextOffset topic] := by
  rw [added, append, Broker.nextOffset, Broker.nextOffset, Broker.records_append_self,
    List.length_append, Nat.add_sub_cancel_left]
  rfl

theorem added_append_of_ne {m : Move (World σ) Consumer} {topic topic' : String} {r : Record}
    (append : m.left.broker = m.found.broker.append topic' r) (other : topic ≠ topic') :
    added topic m = [] := by
  rw [added, append, Broker.nextOffset, Broker.nextOffset, Broker.records_append_of_ne _ _ other,
    Nat.sub_self]
  rfl

/-! ### One step -/

section Step

variable {w : Worker (World σ)} {s s' : WorkerState Consumer} {world world' : World σ}
  {happened : List Occurrence}

/-- Outside of a dispatch a step adds no record. -/
theorem sameTopics_of_finished (does : Does World.host w s world s' world' happened)
    (finished : ¬ s.phase.IsOpen) : world.SameTopics world' := by
  rcases (works_of_does does).sameLogs_or_settled finished with same | ⟨c, d, outcome, -, broker⟩
  · exact same.topics
  · constructor
    · rw [broker]
      rfl
    · rw [broker]
      rfl

theorem OnlyEscalates.sameTopics_of_handle (only : OnlyEscalates w) {r : Routed} {ran : Nat}
    {l : Listener (Handler (World σ))} (next : (w.listenersFor r)[ran]? = some l) {e : Envelope}
    {result : Except Failure Unit} {log : List LogEntry}
    (answer : l.handler.handle e world = (result, world', log)) : world.SameTopics world' := by
  obtain ⟨a, accepted, -, rfl⟩ := Registry.exists_of_mem_matching (List.mem_of_getElem? next)
  have same := only.handlers a accepted e world
  rw [answer] at same
  exact same

/-- A record that the worker publishes is added to its topic, which does not refuse it. -/
theorem OnlyEscalates.append_of_produce (only : OnlyEscalates w) {record : Outgoing}
    {log : List LogEntry}
    (answer : w.publisher.sink.produce record world = (.ok (), world', log)) :
    world'.broker = world.broker.append record.topic ⟨record.key, some record.payload⟩ := by
  rw [only.sink] at answer
  rcases World.produce_cases answer with ⟨-, ⟨_, refused⟩, -⟩ | ⟨-, -, rfl⟩
  · cases refused
  · rfl

/-- A record that the worker cannot publish is refused by its topic and changes nothing. -/
theorem OnlyEscalates.refused_of_produce (only : OnlyEscalates w) {record : Outgoing}
    {error : BrokerError} {log : List LogEntry}
    (answer : w.publisher.sink.produce record world = (.error error, world', log)) :
    world.broker.refusing ≠ [] ∧ world.SameTopics world' := by
  rw [only.sink] at answer
  rcases World.produce_cases answer with ⟨refuses, -, rfl⟩ | ⟨-, accepted, -⟩
  · refine ⟨?_, .refl _⟩
    intro none
    rw [none] at refuses
    cases refuses
  · cases accepted

/-- A step leaves the topics as they are, or it adds the record of an event that failed or that does
not say where it came from. -/
theorem OnlyEscalates.step_cases (only : OnlyEscalates w)
    (does : Does World.host w s world s' world' happened) :
    world.SameTopics world' ∨
      (∃ topic r, world'.broker = world.broker.append topic r) ∧
        ∃ c d outcome, s'.phase = .settling c d outcome ∧
          (outcome = .orphaned ∨ ∃ path, outcome = .escalated path) := by
  by_cases unfinished : s.phase.IsOpen
  · cases does <;> first
      | exact unfinished.elim
      | exact .inl (.refl _)
      | skip
    case pos.accepted next answer => exact .inl (only.sameTopics_of_handle next answer)
    case pos.failed next answer => exact .inl (only.sameTopics_of_handle next answer)
    case pos.escalated answer =>
      exact .inr ⟨⟨_, _, only.append_of_produce answer⟩, _, _, _, rfl, .inr ⟨_, rfl⟩⟩
    case pos.notEscalated answer => exact .inl (only.refused_of_produce answer).2
    case pos.buried answer =>
      exact .inr ⟨⟨_, _, only.append_of_produce answer⟩, _, _, _, rfl, .inl rfl⟩
    case pos.notBuried answer => exact .inl (only.refused_of_produce answer).2
  · exact .inl (sameTopics_of_finished does unfinished)

theorem OnlyEscalates.grows (only : OnlyEscalates w)
    (does : Does World.host w s world s' world' happened) :
    world.broker.Grows world'.broker ∧ world'.broker.refusing = world.broker.refusing := by
  rcases only.step_cases does with same | ⟨⟨topic, r, append⟩, -⟩
  · exact ⟨Broker.grows_of_arrivals_eq same.arrivals, same.refusing⟩
  · rw [append]
    exact ⟨Broker.grows_append .., rfl⟩

end Step

/-! ### One dispatch -/

section Dispatch

variable {w : Worker (World σ)} {c : Consumer} {d : Delivery} {s : WorkerState Consumer}
  {dispatch : List (Move (World σ) Consumer)}

/-- As long as a dispatch goes on it has added nothing. -/
theorem OnlyEscalates.added_of_open (only : OnlyEscalates w)
    (run : w.Dispatches World.host c d dispatch s) (unfinished : s.phase.IsOpen) (topic : String) :
    dispatch.flatMap (added topic) = [] := by
  induction run with
  | received => rfl
  | @step moves s s' world world' happened first before made ih =>
    have same : world.SameTopics world' := by
      rcases only.step_cases (does_step made) with same | ⟨-, c', d', outcome, settling, -⟩
      · exact same
      · rw [settling] at unfinished
        exact unfinished.elim
    rw [List.flatMap_append, ih before, List.nil_append, List.flatMap_singleton,
      added_of_sameTopics same]

/-- What a dispatch has added when it comes to its end: the record of the event, if a handler failed
on it and there was a place for it that took it, and nothing otherwise. -/
inductive Adds (w : Worker (World σ)) (d : Delivery) (r : Routed)
    (dispatch : List (Move (World σ) Consumer)) : Prop where
  | escalated {path : Escalation} {e : Envelope} {last : Move (World σ) Consumer}
    (fails : ∃ m ∈ dispatch, Fails m.happened)
    (planned : w.failureTopics.plan? r.event r.group r.topic = some (path, e))
    (mem : last ∈ dispatch)
    (append : last.left.broker = last.found.broker.append (w.failureTopics.topicOf path)
      ⟨d.keyText?, some e.payload⟩)
    (all : ∀ topic, dispatch.flatMap (added topic) = added topic last)
  | refused (fails : ∃ m ∈ dispatch, Fails m.happened)
    (nowhere : w.failureTopics.plan? r.event r.group r.topic = none ∨
      ∃ m ∈ dispatch, m.found.broker.refusing ≠ [])
    (nothing : ∀ topic, dispatch.flatMap (added topic) = [])
  | handled (well : ¬ ∃ m ∈ dispatch, Fails m.happened)
    (nothing : ∀ topic, dispatch.flatMap (added topic) = [])

/-- All that a dispatch has added when it comes to its end was added by its last step. -/
theorem OnlyEscalates.added_of_settling (only : OnlyEscalates w)
    (run : w.Dispatches World.host c d dispatch s) {outcome : Outcome}
    (settling : s.phase = .settling c d outcome) :
    ∃ earlier last, dispatch = earlier ++ [last] ∧ last.after = s ∧
      Does World.host w last.before last.found last.after last.left last.happened ∧
      ∀ topic, dispatch.flatMap (added topic) = added topic last := by
  cases run with
  | received => cases settling
  | step first unfinished made =>
    refine ⟨_, _, rfl, rfl, does_step made, ?_⟩
    intro topic
    rw [List.flatMap_append, only.added_of_open first unfinished, List.nil_append,
      List.flatMap_singleton]

theorem OnlyEscalates.adds (only : OnlyEscalates w) (run : w.Dispatches World.host c d dispatch s)
    {outcome : Outcome} (settling : s.phase = .settling c d outcome) {r : Routed}
    (routes : w.Routes d r) : Adds w d r dispatch := by
  have failed_iff := run.hasFailed_iff
  rw [settling] at failed_iff
  obtain ⟨earlier, last, rfl, rfl, does, all⟩ := only.added_of_settling run settling
  have mem : last ∈ earlier ++ [last] := List.mem_append_right _ (List.mem_singleton_self _)
  have nothing (same : last.found.SameTopics last.left) (topic : String) :
      (earlier ++ [last]).flatMap (added topic) = [] :=
    (all topic).trans (added_of_sameTopics same topic)
  cases outcome with
  | escalated path =>
    obtain ⟨earlier', last', r', e, log, split, -, routes', -, planned, answer, -⟩ :=
      run.escalated settling
    obtain ⟨-, same⟩ := List.append_inj' split rfl
    cases same
    cases routes.unique routes'
    exact .escalated (failed_iff.mp rfl) planned mem (only.append_of_produce answer) all
  | escalationFailed =>
    obtain ⟨earlier', last', r', split, routes', -, failed⟩ := run.escalationFailed settling
    obtain ⟨-, same⟩ := List.append_inj' split rfl
    cases same
    cases routes.unique routes'
    rcases failed with ⟨unplanned, left⟩ | ⟨path, e, error, log, planned, answer⟩
    · exact .refused (failed_iff.mp rfl) (.inl unplanned) (nothing (left ▸ .refl _))
    · obtain ⟨refuses, same⟩ := only.refused_of_produce answer
      exact .refused (failed_iff.mp rfl) (.inr ⟨last, mem, refuses⟩) (nothing same)
  | orphaned =>
    obtain ⟨_, _, e, _, _, _, orphan, -⟩ := run.orphaned settling
    exact absurd orphan routes.not_orphans
  | handled | unrouted | empty | malformed =>
    refine .handled (fun fails => nomatch failed_iff.mpr fails) (nothing ?_)
    rcases only.step_cases does with same | ⟨-, c', d', outcome', settling', escalated⟩
    · exact same
    · rw [settling] at settling'
      cases settling'
      rcases escalated with orphaned | ⟨path, escalated⟩
      · cases orphaned
      · cases escalated

/-- What was added for a message does not change when the message is committed. -/
theorem Adds.commit {r : Routed} {outcome : Outcome} {last : Move (World σ) Consumer}
    (adds : Adds w d r dispatch) (settling : last.before.phase = .settling c d outcome)
    (does : Does World.host w last.before last.found last.after last.left last.happened) :
    Adds w d r (dispatch ++ [last]) := by
  have same := sameTopics_of_finished does (by rw [settling]; exact id)
  have well : ¬ Fails last.happened := by
    rintro ⟨name, e, f, offers⟩
    obtain ⟨_, _, _, _, _, _, offering, -⟩ := does.offered offers
    rw [settling] at offering
    cases offering
  have total (topic : String) :
      (dispatch ++ [last]).flatMap (added topic) = dispatch.flatMap (added topic) := by
    rw [List.flatMap_append, List.flatMap_singleton, added_of_sameTopics same, List.append_nil]
  cases adds with
  | escalated fails planned mem append all =>
    obtain ⟨m, dispatched, fails⟩ := fails
    exact .escalated ⟨m, List.mem_append_left _ dispatched, fails⟩ planned
      (List.mem_append_left _ mem) append fun topic => (total topic).trans (all topic)
  | refused fails nowhere nothing =>
    obtain ⟨m, dispatched, fails⟩ := fails
    refine .refused ⟨m, List.mem_append_left _ dispatched, fails⟩ (nowhere.imp_right ?_)
      fun topic => (total topic).trans (nothing topic)
    rintro ⟨m, dispatched, refuses⟩
    exact ⟨m, List.mem_append_left _ dispatched, refuses⟩
  | handled well' nothing =>
    refine .handled ?_ fun topic => (total topic).trans (nothing topic)
    rintro ⟨m, dispatched, fails⟩
    rcases List.mem_append.mp dispatched with earlier | now
    · exact well' ⟨m, earlier, fails⟩
    · exact well (List.mem_singleton.mp now ▸ fails)

end Dispatch

/-! ### One life -/

section Life

variable {w : Worker (World σ)} {s : WorkerState Consumer} {d : Delivery}
  {moves : List (Move (World σ) Consumer)}

/-- A worker has added nothing for a message whose dispatch it has not finished. -/
theorem OnlyEscalates.adds_of_finished (only : OnlyEscalates w)
    (run : w.Makes World.host .initial moves s) {r : Routed} (routes : w.Routes d r) :
    (d ∈ finished moves ∧ Adds w d r (handling d moves)) ∨
      (d ∉ finished moves ∧ ∀ topic, addedFor topic d moves = []) := by
  have distinct : (fetched moves).Nodup := List.Nodup.of_map _ (fetched_nodup run)
  have parts := run.fetched_eq rfl
  obtain ⟨-, -, apart⟩ := List.nodup_append.mp (parts ▸ distinct)
  cases run.handles rfl distinct d with
  | unfetched none untouched =>
    refine .inr ⟨fun done => none ?_, fun topic => ?_⟩
    · rw [parts]
      exact List.mem_append_left _ done
    · rw [addedFor, untouched]
      rfl
  | present held dispatches =>
    rcases Phase.open_or_settling held with unfinished | ⟨outcome, settling⟩
    · refine .inr ⟨?_, only.added_of_open dispatches unfinished⟩
      intro done
      have pending := Phase.pending?_eq_some_iff.mpr ⟨unfinished, _, held⟩
      exact apart d done d (by simp [pending]) rfl
    · refine .inl ⟨?_, only.adds dispatches settling routes⟩
      have fetches := run.mem_fetched_of_held rfl held
      rw [parts, settling] at fetches
      simpa [Phase.pending?] using fetches
  | committed fetches left dispatches settling made split =>
    left
    constructor
    · rw [parts] at fetches
      rcases List.mem_append.mp fetches with done | pending
      · exact done
      · obtain ⟨-, c, held⟩ := Phase.pending?_eq_some_iff.mp (Option.mem_toList.mp pending)
        exact absurd held (left c)
    · rw [split]
      exact (only.adds dispatches settling routes).commit settling (does_step made)

end Life

end EventPipeline.Memory
