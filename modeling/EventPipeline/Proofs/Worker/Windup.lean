import EventPipeline.Proofs.Worker.Settlements

/-! # How a worker winds up

Once shutdown has been triggered, a worker finishes what it has at hand and leaves. `Worker.Closes` says
for each phase what it still does with messages then: the listeners that have not had the event are
asked up to the first that fails, a failed event is moved on, and the message is settled and committed
once. A worker that was already at its poll may fetch one more message, for which it does the same. Every
step keeps this (`Does.closes`), and every step takes the worker nearer to its end
(`Does.movesLeft_lt`).
-/

namespace EventPipeline

variable {ω κ : Type}

/-- What a worker does with messages: it fetches them, offers their events, publishes records, settles
them and commits them. -/
def Occurrence.deed? : Occurrence → Option Occurrence
  | .polled timeout (.ok (some d)) => some (.polled timeout (.ok (some d)))
  | .offered handler e result => some (.offered handler e result)
  | .published record => some (.published record)
  | .settled d outcome => some (.settled d outcome)
  | .committed d answer => some (.committed d answer)
  | _ => none

@[simp] theorem filterMap_deed?_logged (log : List LogEntry) :
    (logged log).filterMap Occurrence.deed? = [] := filterMap_logged fun _ _ => rfl

@[simp] theorem Worker.filterMap_deed?_afterCommit (w : Worker ω) (outcome : Outcome) (stats : Stats)
    (streak : Nat) : (w.afterCommit outcome stats streak).filterMap Occurrence.deed? = [] :=
  w.filterMap_afterCommit outcome stats streak (fun _ => rfl) (fun _ _ => rfl) fun _ => rfl

/-! ### The rest of a dispatch -/

/-- An event is offered to listeners, one after another, until one fails or all have had it. -/
inductive Asked (e : Envelope) :
    List (Listener (Handler ω)) → List Occurrence → Option Failure → Prop where
  | all : Asked e [] [] none
  | accepted {l : Listener (Handler ω)} {ls : List (Listener (Handler ω))} {deeds : List Occurrence}
    {failure? : Option Failure} (later : Asked e ls deeds failure?) :
    Asked e (l :: ls) (.offered l.handler.name e (.ok ()) :: deeds) failure?
  | failed {l : Listener (Handler ω)} {ls : List (Listener (Handler ω))} (f : Failure) :
    Asked e (l :: ls) [.offered l.handler.name e (.error f)] (some f)

/-- A message is settled and then committed once. -/
def SettlesOnce (d : Delivery) (outcome : Outcome) (deeds : List Occurrence) : Prop :=
  ∃ answer, deeds = [.settled d outcome, .committed d answer]

/-- How many steps a worker makes at most until it has ended if shutdown has been triggered and so many
listeners are registered. -/
def Phase.movesLeft (listeners : Nat) : Phase κ → Nat
  | .unopened => 3
  | .checking _ => 2
  | .waiting _ => listeners + 7
  | .leaving _ _ => 1
  | .ended _ => 0
  | phase => phase.stepsLeft listeners + 2

theorem Phase.movesLeft_le (listeners : Nat) (phase : Phase κ) :
    phase.movesLeft listeners ≤ listeners + 7 := by
  cases phase <;> simp only [movesLeft, stepsLeft] <;> omega

theorem Phase.movesLeft_of_held? {listeners : Nat} {phase : Phase κ} {c : κ} {d : Delivery}
    (held : phase.held? = some (c, d)) :
    phase.movesLeft listeners = phase.stepsLeft listeners + 2 := by
  cases phase <;> cases held <;> rfl

theorem WorkerState.exit?_eq_some_iff {s : WorkerState κ} {exit : Exit} :
    s.exit? = some exit ↔ s.phase = .ended exit := by
  obtain ⟨phase, stats, streak⟩ := s
  cases phase <;> simp [exit?]

theorem WorkerState.movesLeft_pos (s : WorkerState κ) (listeners : Nat) (unended : s.exit? = none) :
    0 < s.phase.movesLeft listeners := by
  obtain ⟨phase, stats, streak⟩ := s
  cases phase <;> first
    | exact Nat.succ_pos _
    | cases unended

namespace Worker

/-- An event on which a listener failed is published on the retry path, unless it may not be, and its
message is settled. -/
def MovesOn (w : Worker ω) (d : Delivery) (r : Routed) (deeds : List Occurrence) : Prop :=
  match w.failureTopics.plan? r.event r.group r.topic with
  | none => SettlesOnce d .escalationFailed deeds
  | some (path, e) => ∃ rest,
    deeds = .published (Publisher.record (w.failureTopics.topicOf path) e d.keyText?) :: rest ∧
    (SettlesOnce d (.escalated path) rest ∨ SettlesOnce d .escalationFailed rest)

/-- An event of unknown origin is published on the dead-letter topic, and its message is settled. -/
def Buries (w : Worker ω) (d : Delivery) (e : Envelope) (deeds : List Occurrence) : Prop :=
  ∃ rest, deeds = .published (Publisher.record w.failureTopics.deadTopic e d.keyText?) :: rest ∧
    SettlesOnce d .orphaned rest

/-- An event that `ran` listeners have had is offered to the others up to the first that fails. If one
fails, the event is moved on; in any case the message is settled. -/
def Offers (w : Worker ω) (d : Delivery) (r : Routed) (ran : Nat) (deeds : List Occurrence) : Prop :=
  ∃ offers failure? rest, deeds = offers ++ rest ∧
    Asked r.event ((w.listenersFor r).drop ran) offers failure? ∧
    match failure? with
    | some _ => w.MovesOn d r rest
    | none =>
      SettlesOnce d (if ran + offers.length = 0 then .unrouted else .handled (ran + offers.length)) rest

/-- A message is dropped if it holds no event; an event of unknown origin is buried, and any other is
offered to all listeners that it is meant for. -/
def Dispatched (w : Worker ω) (d : Delivery) (deeds : List Occurrence) : Prop :=
  (d.content? = none ∧ SettlesOnce d .empty deeds) ∨
  (∃ bs e, d.content? = some bs ∧ Envelope.read bs = .error e ∧ SettlesOnce d .malformed deeds) ∨
  (∃ e, w.Orphans d e ∧ w.Buries d e deeds) ∨
  ∃ r, w.Routes d r ∧ w.Offers d r 0 deeds

/-- What a worker still does with messages if shutdown has been triggered. -/
def Closes (w : Worker ω) : Phase κ → List Occurrence → Prop
  | .waiting _, deeds => deeds = [] ∨ ∃ d rest,
    deeds = .polled w.settings.pollTimeout (.ok (some d)) :: rest ∧ w.Dispatched d rest
  | .received _ d, deeds => w.Dispatched d deeds
  | .offering _ d r ran, deeds => w.Offers d r ran deeds
  | .failing _ d r, deeds => w.MovesOn d r deeds
  | .orphaned _ d e, deeds => w.Buries d e deeds
  | .settling _ d outcome, deeds => SettlesOnce d outcome deeds
  | .unopened, deeds | .checking _, deeds | .leaving _ _, deeds | .ended _, deeds => deeds = []

theorem closes_nil {w : Worker ω} {phase : Phase κ} (unheld : phase.held? = none) :
    w.Closes phase [] := by
  cases phase <;> first
    | rfl
    | exact .inl rfl
    | cases unheld

theorem eq_nil_of_closes_resume {w : Worker ω} {c : κ} {outcome : Outcome} {streak : Nat}
    {deeds : List Occurrence} (closes : w.Closes (w.resume c outcome streak) deeds) : deeds = [] := by
  rcases w.resume_cases c outcome streak with resumes | ⟨exit, resumes⟩
  · rw [resumes] at closes
    exact closes
  · rw [resumes] at closes
    exact closes

/-- No listener is left to be asked. -/
theorem offers_of_none {w : Worker ω} {d : Delivery} {r : Routed} {ran : Nat} {deeds : List Occurrence}
    (done : (w.listenersFor r)[ran]? = none)
    (settles : SettlesOnce d (if ran = 0 then .unrouted else .handled ran) deeds) :
    w.Offers d r ran deeds := by
  refine ⟨[], none, deeds, rfl, ?_, settles⟩
  rw [List.drop_of_length_le (List.getElem?_eq_none_iff.mp done)]
  exact .all

/-- The next listener accepts the event, and the others are asked. -/
theorem offers_of_accepted {w : Worker ω} {d : Delivery} {r : Routed} {ran : Nat}
    {l : Listener (Handler ω)} {deeds : List Occurrence} (next : (w.listenersFor r)[ran]? = some l)
    (later : w.Offers d r (ran + 1) deeds) :
    w.Offers d r ran (.offered l.handler.name r.event (.ok ()) :: deeds) := by
  obtain ⟨offers, failure?, rest, rfl, asked, ends⟩ := later
  obtain ⟨inside, rfl⟩ := List.getElem?_eq_some_iff.mp next
  refine ⟨_ :: offers, failure?, rest, rfl, ?_, ?_⟩
  · rw [List.drop_eq_getElem_cons inside]
    exact .accepted asked
  · rw [List.length_cons, Nat.add_comm offers.length 1, ← Nat.add_assoc]
    exact ends

/-- The next listener fails on the event, which is moved on. -/
theorem offers_of_failed {w : Worker ω} {d : Delivery} {r : Routed} {ran : Nat}
    {l : Listener (Handler ω)} {f : Failure} {deeds : List Occurrence}
    (next : (w.listenersFor r)[ran]? = some l) (moves : w.MovesOn d r deeds) :
    w.Offers d r ran (.offered l.handler.name r.event (.error f) :: deeds) := by
  obtain ⟨inside, rfl⟩ := List.getElem?_eq_some_iff.mp next
  refine ⟨[_], some f, deeds, rfl, ?_, moves⟩
  rw [List.drop_eq_getElem_cons inside]
  exact .failed f

section Step

variable {h : Host ω κ} {w : Worker ω} {s s' : WorkerState κ} {world world' : ω}
  {happened : List Occurrence}

/-- What a worker does in a step after the trigger, and what it still does after this step, is what it
still did before it. -/
theorem Does.closes (does : Does h w s world s' world' happened) (stopping : h.stopping world = true)
    {deeds : List Occurrence} (later : w.Closes s'.phase deeds) :
    w.Closes s.phase (happened.filterMap Occurrence.deed? ++ deeds) := by
  cases does <;> simp only [List.filterMap_cons, List.filterMap_append, List.filterMap_nil,
    Occurrence.deed?, entered, filterMap_deed?_logged, filterMap_deed?_afterCommit, List.append_nil,
    List.nil_append, List.cons_append]
  case proceeded going => cases going.symm.trans stopping
  case fetched => exact .inr ⟨_, _, rfl, later⟩
  case timedOut => exact .inl later
  case pollStopped => exact .inl later
  case pollFailed => exact .inl later
  case empty absent => exact .inl ⟨absent, later⟩
  case malformed bs e present unread => exact .inr (.inl ⟨bs, e, present, unread, later⟩)
  case lost e orphan => exact .inr (.inr (.inl ⟨e, orphan, later⟩))
  case routed r routes => exact .inr (.inr (.inr ⟨r, routes, later⟩))
  case unrouted nobody => exact offers_of_none nobody later
  case handled some done =>
    apply offers_of_none done
    rw [if_neg some]
    exact later
  case accepted next _ => exact offers_of_accepted next later
  case failed next _ => exact offers_of_failed next later
  case misrouted unplanned =>
    simp only [Closes, MovesOn, unplanned]
    exact later
  case escalated planned _ =>
    simp only [Closes, MovesOn, planned]
    exact ⟨_, rfl, .inl later⟩
  case notEscalated planned _ =>
    simp only [Closes, MovesOn, planned]
    exact ⟨_, rfl, .inr later⟩
  case buried => exact ⟨_, rfl, later⟩
  case notBuried => exact ⟨_, rfl, later⟩
  case committed answer =>
    rw [eq_nil_of_closes_resume later]
    exact ⟨_, rfl⟩
  case commitFailed =>
    rw [eq_nil_of_closes_resume later]
    exact ⟨_, rfl⟩
  case commitStopped =>
    have nothing : deeds = [] := later
    rw [nothing]
    exact ⟨_, rfl⟩
  all_goals exact later

theorem movesLeft_resume_le (w : Worker ω) (listeners : Nat) (c : κ) (outcome : Outcome)
    (streak : Nat) : (w.resume c outcome streak).movesLeft listeners ≤ 2 := by
  rcases w.resume_cases c outcome streak with resumes | ⟨exit, resumes⟩
  · rw [resumes]
    exact Nat.le_refl 2
  · rw [resumes]
    exact Nat.zero_le 2

/-- After the trigger each step takes a worker nearer to its end. -/
theorem Does.movesLeft_lt (does : Does h w s world s' world' happened)
    (stopping : h.stopping world = true) (unended : s.exit? = none) :
    s'.phase.movesLeft w.registry.accepted.length < s.phase.movesLeft w.registry.accepted.length := by
  have dispatch (unfinished : s.phase.IsOpen) :
      s'.phase.movesLeft w.registry.accepted.length <
        s.phase.movesLeft w.registry.accepted.length := by
    obtain ⟨c, d, held⟩ := unfinished.held
    have less := does.stepsLeft_lt unfinished
    rw [Phase.movesLeft_of_held? held,
      Phase.movesLeft_of_held? ((does.held unfinished).trans held)]
    omega
  cases does
  case proceeded going => cases going.symm.trans stopping
  case committed => exact Nat.lt_succ_of_le (w.movesLeft_resume_le ..)
  case commitFailed => exact Nat.lt_succ_of_le (w.movesLeft_resume_le ..)
  case rested => cases unended
  all_goals first
    | exact dispatch trivial
    | (simp only [Phase.movesLeft, Phase.stepsLeft]; omega)

/-- A worker polls only from where it waits to. -/
theorem Does.waiting_of_polled (does : Does h w s world s' world' happened) {timeout : Duration}
    {answer : Except BrokerError (Option Delivery)}
    (polls : Occurrence.polled timeout answer ∈ happened) : ∃ c, s.phase = .waiting c := by
  have call : ConsumerCall.polled answer ∈ happened.filterMap Occurrence.call? :=
    List.mem_filterMap.mpr ⟨_, polls, rfl⟩
  cases does <;> first
    | exact ⟨_, rfl⟩
    | simp [List.filterMap_cons, Occurrence.call?, entered] at call

theorem Does.waiting_of_fetched (does : Does h w s world s' world' happened)
    (fetches : s'.phase.fetched? ≠ none) : ∃ c, s.phase = .waiting c := by
  cases does <;> first
    | exact ⟨_, rfl⟩
    | exact absurd rfl fetches
    | exact absurd (Phase.fetched?_of_unheld (w.held?_resume ..)) fetches

theorem Does.exit?_eq (does : Does h w s world s' world' happened) {exit : Exit}
    (ended : s.exit? = some exit) : s'.exit? = some exit := by
  cases does <;> first
    | exact ended
    | cases ended

theorem Does.stopped_stats (does : Does h w s world s' world' happened)
    (before : ∀ stats, s.phase = .ended (.stopped stats) → stats = s.stats) {stats : Stats}
    (stopped : s'.phase = .ended (.stopped stats)) : stats = s'.stats := by
  cases does <;> try cases stopped
  case committed c' _ outcome _ _ | commitFailed c' _ outcome _ _ _ _ =>
    exact absurd (.inr ⟨_, stopped⟩) (w.not_isStopping_resume c' outcome _)
  case closed => rfl
  case rested => exact before _ rfl

/-- After the trigger a worker does not come to wait. -/
theorem Does.not_waiting (does : Does h w s world s' world' happened)
    (stopping : h.stopping world = true) (c : κ) : s'.phase ≠ .waiting c := by
  intro waiting
  cases does <;> try cases waiting
  case proceeded going => cases going.symm.trans stopping
  case committed c' _ outcome _ _ | commitFailed c' _ outcome _ _ _ _ =>
    rcases w.resume_cases c' outcome _ with resumes | ⟨exit, resumes⟩ <;>
      cases resumes.symm.trans waiting

end Step

/-! ### After the trigger -/

section Life

variable {h : Host ω κ} {w : Worker ω} {s₀ s : WorkerState κ} {moves : List (Move ω κ)}

/-- What a worker does with messages after the trigger is what it still had to do. -/
theorem Makes.closes (run : w.Makes h s₀ moves s)
    (stopping : ∀ m ∈ moves, h.stopping m.found = true) {deeds : List Occurrence}
    (later : w.Closes s.phase deeds) :
    w.Closes s₀.phase (observed Occurrence.deed? moves ++ deeds) := by
  induction run generalizing deeds with
  | start => exact later
  | @step moves s s' world world' happened _ made ih =>
    have now := stopping _ (List.mem_append_right _ (List.mem_singleton_self _))
    rw [observed_snoc, List.append_assoc]
    apply ih fun m mem => stopping m (List.mem_append_left _ mem)
    exact (does_step made).closes now later

theorem Makes.movesLeft (run : w.Makes h s₀ moves s)
    (stopping : ∀ m ∈ moves, h.stopping m.found = true) (unended : s.exit? = none) :
    moves.length + s.phase.movesLeft w.registry.accepted.length ≤
      s₀.phase.movesLeft w.registry.accepted.length := by
  induction run with
  | start => simp
  | @step moves s s' world world' happened _ made ih =>
    have now := stopping _ (List.mem_append_right _ (List.mem_singleton_self _))
    have before : s.exit? = none := by
      cases exit : s.exit? with
      | none => rfl
      | some exit =>
        rw [(does_step made).exit?_eq exit] at unended
        cases unended
    have less := (does_step made).movesLeft_lt now before
    have earlier := ih (fun m mem => stopping m (List.mem_append_left _ mem)) before
    rw [List.length_append, List.length_singleton]
    omega

/-- After the trigger a worker waits before its first move only. -/
theorem Makes.start_of_waiting (run : w.Makes h s₀ moves s)
    (stopping : ∀ m ∈ moves, h.stopping m.found = true) {c : κ} (waiting : s.phase = .waiting c) :
    moves = [] ∧ s = s₀ := by
  cases run with
  | start => exact ⟨rfl, rfl⟩
  | step _ made =>
    have now := stopping _ (List.mem_append_right _ (List.mem_singleton_self _))
    exact absurd waiting ((does_step made).not_waiting now c)

/-- After the trigger a worker fetches at most one message, if it waited for it before. -/
theorem Makes.fetched_le (run : w.Makes h s₀ moves s)
    (stopping : ∀ m ∈ moves, h.stopping m.found = true) :
    (fetched moves).length ≤ 1 ∧ (fetched moves ≠ [] → ∃ c, s₀.phase = .waiting c) := by
  induction run with
  | start => exact ⟨Nat.zero_le 1, fun some => absurd rfl some⟩
  | @step moves s s' world world' happened run made ih =>
    have before := fun m mem => stopping m (List.mem_append_left _ mem)
    rw [fetched_snoc]
    cases fetches : s'.phase.fetched? with
    | none => simpa using ih before
    | some d =>
      have new : s'.phase.fetched? ≠ none := by simp [fetches]
      obtain ⟨c, waiting⟩ := (does_step made).waiting_of_fetched new
      obtain ⟨rfl, rfl⟩ := run.start_of_waiting before waiting
      exact ⟨Nat.le_refl 1, fun _ => ⟨c, waiting⟩⟩

/-- After the trigger a worker that has looked whether it should stop does not poll. -/
theorem Makes.not_polled (run : w.Makes h s₀ moves s)
    (stopping : ∀ m ∈ moves, h.stopping m.found = true) {earlier later : List (Move ω κ)}
    {m : Move ω κ} (split : moves = earlier ++ m :: later) {c : κ}
    (looks : m.before.phase = .checking c) :
    ∀ m' ∈ m :: later, ∀ timeout answer, Occurrence.polled timeout answer ∉ m'.happened := by
  have first {earlier later : List (Move ω κ)} {m : Move ω κ} (split : moves = earlier ++ m :: later)
      {timeout : Duration} {answer : Except BrokerError (Option Delivery)}
      (polls : Occurrence.polled timeout answer ∈ m.happened) :
      (∃ c, m.before.phase = .waiting c) ∧ earlier = [] := by
    obtain ⟨before, made⟩ := run.before split
    obtain ⟨c, waiting⟩ := (does_step made).waiting_of_polled polls
    refine ⟨⟨c, waiting⟩, (before.start_of_waiting (fun m mem => stopping m ?_) waiting).1⟩
    rw [split]
    exact List.mem_append_left _ mem
  intro m' mem timeout answer polls
  rcases List.mem_cons.mp mem with rfl | mem
  · obtain ⟨⟨c, waiting⟩, -⟩ := first split polls
    rw [looks] at waiting
    cases waiting
  · obtain ⟨between, rest, rfl⟩ := List.append_of_mem mem
    have split' : moves = (earlier ++ m :: between) ++ m' :: rest := by
      rw [split, List.append_assoc, List.cons_append]
    obtain ⟨-, none⟩ := first split' polls
    simp at none

/-- What a worker does from where it stood when shutdown was triggered. -/
structure WindsUp (w : Worker ω) (s₀ : WorkerState κ) (moves : List (Move ω κ)) (s : WorkerState κ) :
    Prop where
  /-- It fetches at most one more message, and only by a poll that it was at already. -/
  fetches : (fetched moves).length ≤ 1 ∧ (fetched moves ≠ [] → ∃ c, s₀.phase = .waiting c)
  /-- When it has looked whether it should stop, it does not poll any more. -/
  checks : ∀ earlier m later, moves = earlier ++ m :: later → (∃ c, m.before.phase = .checking c) →
    ∀ m' ∈ m :: later, ∀ timeout answer, Occurrence.polled timeout answer ∉ m'.happened
  /-- Once it has nothing at hand, it has done what it still had to do with messages, and nothing else:
  the message that it had at hand, or the one that it fetched, has been offered to the listeners that had
  not had it up to the first that failed, moved on if one failed, and settled and committed once. -/
  closes : s.phase.held? = none → w.Closes s₀.phase (observed Occurrence.deed? moves)
  /-- It has ended after a number of moves that depends on the number of listeners only. -/
  ends : w.registry.accepted.length + 7 ≤ moves.length → ∃ exit, s.phase = .ended exit

theorem Makes.windsUp (run : w.Makes h s₀ moves s)
    (stopping : ∀ m ∈ moves, h.stopping m.found = true) : w.WindsUp s₀ moves s where
  fetches := run.fetched_le stopping
  checks _ _ _ split := fun ⟨_, looks⟩ => run.not_polled stopping split looks
  closes unheld := by
    simpa using run.closes stopping (closes_nil unheld)
  ends enough := by
    cases exit? : s.exit? with
    | none =>
      have left := run.movesLeft stopping exit?
      have all := s₀.phase.movesLeft_le w.registry.accepted.length
      have some := s.movesLeft_pos w.registry.accepted.length exit?
      omega
    | some exit => exact ⟨exit, WorkerState.exit?_eq_some_iff.mp exit?⟩

/-! ### How a worker returns -/

/-- A worker returns that it was told to stop, with the counts of all messages that it has fetched, each
counted as it was settled; or that it got no consumer; or the fatal error that a call of its consumer
answered. -/
def Returns (w : Worker ω) (moves : List (Move ω κ)) (exit : Exit) : Prop :=
  (∃ stats, exit = .stopped stats ∧ stats.total = (fetched moves).length ∧
    (observed Occurrence.settlement? moves).map Prod.fst = fetched moves ∧
    stats = ((observed Occurrence.settlement? moves).map Prod.snd).foldl Stats.record .none) ∨
  (∃ e, exit = .failed (.consumer w.group e) ∧
    observed Occurrence.connection? moves = [some e]) ∨
  ∃ e, exit = .failed (.fatal w.group e) ∧
    ∃ call ∈ observed Occurrence.call? moves, call.fatal? = some e

theorem Makes.stopped_stats (run : w.Makes h .initial moves s) {stats : Stats}
    (stopped : s.phase = .ended (.stopped stats)) : stats = s.stats := by
  induction run generalizing stats with
  | start => cases stopped
  | step _ made ih => exact (does_step made).stopped_stats (fun _ => ih) stopped

/-- A worker that has ended has returned, or a pause that outlasts the clock tore it down. -/
theorem Makes.returns (run : w.Makes h .initial moves s) {exit : Exit}
    (ended : s.phase = .ended exit) :
    w.Returns moves exit ∨ (∃ text, exit = .panicked text) ∧ ∃ m ∈ moves, m.Overlong w := by
  have conducted := run.conducted
  have connections := run.connections_eq
  rw [ended] at conducted connections
  match exit with
  | .stopped stats =>
    have unheld : s.phase.held? = none := by rw [ended]; rfl
    have settled := run.settled_eq rfl unheld
    have counts : stats = ((observed Occurrence.settlement? moves).map Prod.snd).foldl Stats.record
        .none := by
      rw [run.stopped_stats ended, run.stats_eq, List.foldl_map]
      rfl
    refine .inl (.inl ⟨stats, rfl, ?_, settled, counts⟩)
    rw [counts, Stats.total_foldl_record, ← settled, List.length_map, List.length_map]
    exact Nat.zero_add _
  | .failed (.consumer group e) =>
    obtain ⟨rfl, -⟩ := conducted
    exact .inl (.inr (.inl ⟨e, rfl, connections⟩))
  | .failed (.fatal group e) =>
    obtain ⟨rfl, rounds, ⟨-, -, last⟩, calls⟩ := conducted
    obtain ⟨call, same, fatal⟩ := Option.bind_eq_some_iff.mp last
    refine .inl (.inr (.inr ⟨e, rfl, call, ?_, fatal⟩))
    rw [calls]
    exact List.mem_append_left _ (List.mem_of_getLast? same)
  | .panicked text => exact .inr ⟨⟨text, rfl⟩, run.isTorn_iff.mp ⟨text, ended⟩⟩

end Life

end Worker

end EventPipeline
