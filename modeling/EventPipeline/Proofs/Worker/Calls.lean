import EventPipeline.Memory.World
import EventPipeline.Proofs.Worker.Entries
import EventPipeline.Proofs.Worker.Life
import EventPipeline.Proofs.Worker.Republish

/-! # What a worker asks of its consumer

A worker calls its consumer in rounds: a poll and, if that answered a message, one commit of this
message. `Conducted` says for each phase which calls have been made by then, and every step keeps it.
So a worker that has ended has closed its consumer after its last round, unless a pause that outlasts
the clock tore it down, and the call that made it end is the last one before.
-/

namespace EventPipeline

variable {ω κ : Type}

/-- A call of a consumer and its answer. -/
inductive ConsumerCall where
  | polled (answer : Except BrokerError (Option Delivery))
  | committed (d : Delivery) (answer : Except BrokerError Unit)
  | closed

/-- The error that a call answered, if it is one after which the consumer must stop. -/
def ConsumerCall.fatal? : ConsumerCall → Option BrokerError
  | .polled (.error e) | .committed _ (.error e) => if e.isFatal then some e else none
  | _ => none

namespace ConsumerCall

theorem fatal?_polled {e : BrokerError} (passing : e.isFatal = false) :
    (polled (.error e)).fatal? = none := by
  rw [fatal?, passing]
  rfl

theorem fatal?_committed {d : Delivery} {e : BrokerError} (passing : e.isFatal = false) :
    (committed d (.error e)).fatal? = none := by
  rw [fatal?, passing]
  rfl

end ConsumerCall

/-- Polls, each of which is followed by one commit of the message that it answered, if it answered
one. -/
inductive Rounds : List ConsumerCall → Prop where
  | start : Rounds []
  | idle {calls : List ConsumerCall} {answer : Except BrokerError (Option Delivery)}
    (earlier : Rounds calls) (nothing : ∀ d, answer ≠ .ok (some d)) :
    Rounds (calls ++ [.polled answer])
  | round {calls : List ConsumerCall} {d : Delivery} {answer : Except BrokerError Unit}
    (earlier : Rounds calls) : Rounds (calls ++ [.polled (.ok (some d)), .committed d answer])

/-- Rounds in which no call answered an error that stops the consumer. -/
def Passing (calls : List ConsumerCall) : Prop :=
  Rounds calls ∧ ∀ call ∈ calls, call.fatal? = none

/-- Rounds of which the last call, and no other, answered an error that stops the consumer. -/
def Breaking (e : BrokerError) (calls : List ConsumerCall) : Prop :=
  Rounds calls ∧ (∀ call ∈ calls.dropLast, call.fatal? = none) ∧
    calls.getLast?.bind ConsumerCall.fatal? = some e

namespace Passing

variable {calls : List ConsumerCall}

theorem start : Passing [] := ⟨.start, fun _ none => nomatch none⟩

theorem idle {answer : Except BrokerError (Option Delivery)} (passing : Passing calls)
    (nothing : ∀ d, answer ≠ .ok (some d)) (survived : (ConsumerCall.polled answer).fatal? = none) :
    Passing (calls ++ [.polled answer]) := by
  refine ⟨passing.1.idle nothing, ?_⟩
  intro call mem
  rcases List.mem_append.mp mem with earlier | last
  · exact passing.2 call earlier
  · rw [List.mem_singleton.mp last]
    exact survived

theorem round {d : Delivery} {answer : Except BrokerError Unit} (passing : Passing calls)
    (survived : (ConsumerCall.committed d answer).fatal? = none) :
    Passing (calls ++ [.polled (.ok (some d)), .committed d answer]) := by
  refine ⟨passing.1.round, ?_⟩
  intro call mem
  rcases List.mem_append.mp mem with earlier | last
  · exact passing.2 call earlier
  · rcases List.mem_pair.mp last with rfl | rfl
    · rfl
    · exact survived

theorem pollBreaks {e : BrokerError} (passing : Passing calls) (fatal : e.isFatal = true) :
    Breaking e (calls ++ [.polled (.error e)]) := by
  refine ⟨passing.1.idle fun _ => nofun, ?_, ?_⟩
  · rw [List.dropLast_concat]
    exact passing.2
  · rw [List.getLast?_concat]
    exact if_pos fatal

theorem commitBreaks {d : Delivery} {e : BrokerError} (passing : Passing calls)
    (fatal : e.isFatal = true) :
    Breaking e (calls ++ [.polled (.ok (some d)), .committed d (.error e)]) := by
  refine ⟨passing.1.round, ?_, ?_⟩
  · rw [List.dropLast_append_cons]
    intro call mem
    rcases List.mem_append.mp mem with earlier | last
    · exact passing.2 call earlier
    · rw [List.mem_singleton.mp last]
      rfl
  · rw [List.getLast?_append]
    exact if_pos fatal

theorem dropLast (passing : Passing calls) : ∀ call ∈ calls.dropLast, call.fatal? = none :=
  fun call mem => passing.2 call (List.mem_of_mem_dropLast mem)

theorem getLast? (passing : Passing calls) : calls.getLast?.bind ConsumerCall.fatal? = none := by
  cases last : calls.getLast? with
  | none => rfl
  | some call => exact passing.2 call (List.mem_of_getLast? last)

end Passing

/-! ### Observations -/

/-- A call of the consumer. -/
def Occurrence.call? : Occurrence → Option ConsumerCall
  | .polled _ answer => some (.polled answer)
  | .committed d answer => some (.committed d answer)
  | .closed => some .closed
  | _ => none

/-- The answer to the request for a consumer: none, or an error. -/
def Occurrence.connection? : Occurrence → Option (Option BrokerError)
  | .connected _ error? => some error?
  | _ => none

/-- A change of stage that an entry reports. -/
def LogEntry.stages? : LogEntry → Option (Stage × Stage)
  | .stageChanged before after => some (before, after)
  | _ => none

/-- A change of stage that is logged. -/
def Occurrence.stages? : Occurrence → Option (Stage × Stage)
  | .logged e => e.stages?
  | _ => none

/-- What a worker observed in its moves, as far as it is of one kind. -/
def observed {α : Type} (kind : Occurrence → Option α) (moves : List (Move ω κ)) : List α :=
  moves.flatMap fun m => m.happened.filterMap kind

theorem observed_snoc {α : Type} (kind : Occurrence → Option α) (moves : List (Move ω κ))
    (m : Move ω κ) :
    observed kind (moves ++ [m]) = observed kind moves ++ m.happened.filterMap kind := by
  rw [observed, List.flatMap_append, List.flatMap_singleton]
  rfl

@[simp] theorem filterMap_call?_logged (log : List LogEntry) :
    (logged log).filterMap Occurrence.call? = [] := filterMap_logged fun _ _ => rfl

@[simp] theorem filterMap_connection?_logged (log : List LogEntry) :
    (logged log).filterMap Occurrence.connection? = [] := filterMap_logged fun _ _ => rfl

namespace Worker

theorem filterMap_afterCommit {α : Type} {kind : Occurrence → Option α} (w : Worker ω)
    (outcome : Outcome) (stats : Stats) (streak : Nat)
    (progress : ∀ stats, kind (.logged (.progress stats)) = none)
    (backing : ∀ streak pause, kind (.logged (.backingOff streak pause)) = none)
    (paused : ∀ pause, kind (.paused pause) = none) :
    (w.afterCommit outcome stats streak).filterMap kind = [] := by
  unfold afterCommit
  rw [List.filterMap_append, List.append_eq_nil_iff]
  constructor
  · split <;> simp [progress]
  · split
    · rfl
    · split <;> simp [backing, paused]

@[simp] theorem filterMap_call?_afterCommit (w : Worker ω) (outcome : Outcome) (stats : Stats)
    (streak : Nat) : (w.afterCommit outcome stats streak).filterMap Occurrence.call? = [] :=
  w.filterMap_afterCommit outcome stats streak (fun _ => rfl) (fun _ _ => rfl) fun _ => rfl

@[simp] theorem filterMap_connection?_afterCommit (w : Worker ω) (outcome : Outcome)
    (stats : Stats) (streak : Nat) :
    (w.afterCommit outcome stats streak).filterMap Occurrence.connection? = [] :=
  w.filterMap_afterCommit outcome stats streak (fun _ => rfl) (fun _ _ => rfl) fun _ => rfl

@[simp] theorem filterMap_stages?_afterCommit (w : Worker ω) (outcome : Outcome)
    (stats : Stats) (streak : Nat) :
    (w.afterCommit outcome stats streak).filterMap Occurrence.stages? = [] :=
  w.filterMap_afterCommit outcome stats streak (fun _ => rfl) (fun _ _ => rfl) fun _ => rfl

/-! ### The calls made by each phase -/

/-- The calls that a worker has made when it is in a phase. -/
def Conducted (w : Worker ω) (calls : List ConsumerCall) : Phase κ → Prop
  | .unopened => calls = []
  | .checking _ | .waiting _ | .leaving _ none | .ended (.panicked _) => Passing calls
  | .received _ d | .offering _ d _ _ | .failing _ d _ | .orphaned _ d _ | .settling _ d _ =>
    ∃ earlier, Passing earlier ∧ calls = earlier ++ [.polled (.ok (some d))]
  | .leaving _ (some error) => ∃ e, error = .fatal w.group e ∧ Breaking e calls
  | .ended (.stopped _) => ∃ earlier, Passing earlier ∧ calls = earlier ++ [.closed]
  | .ended (.failed (.consumer group _)) => group = w.group ∧ calls = []
  | .ended (.failed (.fatal group e)) =>
    group = w.group ∧ ∃ earlier, Breaking e earlier ∧ calls = earlier ++ [.closed]

variable {h : Host ω κ} {w : Worker ω} {s s' : WorkerState κ} {world world' : ω}
  {happened : List Occurrence}

theorem Conducted.resume {calls : List ConsumerCall} (passing : Passing calls) (c : κ)
    (outcome : Outcome) (streak : Nat) : w.Conducted calls (w.resume c outcome streak) := by
  unfold Worker.resume
  split <;> exact passing

/-- Each step adds the calls that its phase asks for. -/
theorem Does.conducted (does : Does h w s world s' world' happened) {calls : List ConsumerCall}
    (before : w.Conducted calls s.phase) :
    w.Conducted (calls ++ happened.filterMap Occurrence.call?) s'.phase := by
  cases does <;> simp only [List.filterMap_cons, List.filterMap_append, List.filterMap_nil,
    Occurrence.call?, entered, filterMap_call?_logged, filterMap_call?_afterCommit, List.append_nil]
  case connected =>
    cases before
    exact .start
  case refused => exact ⟨rfl, before⟩
  case fetched => exact ⟨_, before, rfl⟩
  case timedOut => exact before.idle (by simp) rfl
  case pollStopped fatal _ => exact ⟨_, rfl, before.pollBreaks fatal⟩
  case pollFailed passing _ =>
    exact before.idle (by simp) (ConsumerCall.fatal?_polled passing)
  case committed =>
    obtain ⟨earlier, passing, rfl⟩ := before
    rw [List.append_assoc]
    exact .resume (passing.round rfl) ..
  case commitFailed surviving _ =>
    obtain ⟨earlier, passing, rfl⟩ := before
    rw [List.append_assoc]
    exact .resume (passing.round (ConsumerCall.fatal?_committed surviving)) ..
  case commitStopped fatal _ =>
    obtain ⟨earlier, passing, rfl⟩ := before
    rw [List.append_assoc]
    exact ⟨_, rfl, passing.commitBreaks fatal⟩
  case closed => exact ⟨_, before, rfl⟩
  case gaveUp =>
    obtain ⟨e, rfl, breaking⟩ := before
    exact ⟨rfl, _, breaking, rfl⟩
  all_goals exact before

end Worker

/-! ### Why a worker ends -/

/-- The worker has been told to stop. -/
def Phase.IsStopping (phase : Phase κ) : Prop :=
  (∃ c, phase = .leaving c none) ∨ ∃ stats, phase = .ended (.stopped stats)

/-- The answers that a worker has got to its requests for a consumer. -/
def Phase.connections : Phase κ → List (Option BrokerError)
  | .unopened => []
  | .ended (.failed (.consumer _ e)) => [some e]
  | _ => [none]

/-- The changes of stage that a worker has reported. -/
def Phase.stages : Phase κ → List (Stage × Stage)
  | .unopened | .ended (.failed (.consumer _ _)) => []
  | .ended (.stopped _) | .ended (.failed (.fatal _ _)) =>
    [(.init, .subscribed), (.subscribed, .polling), (.polling, .shuttingDown),
      (.shuttingDown, .closed)]
  | _ => [(.init, .subscribed), (.subscribed, .polling)]

/-- The worker was torn down outside of its handlers. -/
def Phase.IsTorn (phase : Phase κ) : Prop := ∃ text, phase = .ended (.panicked text)

@[simp] theorem Phase.isStopping_ended {exit : Exit} :
    (.ended exit : Phase κ).IsStopping ↔ ∃ stats, exit = .stopped stats := by
  simp [IsStopping]

@[simp] theorem Phase.isTorn_ended {exit : Exit} :
    (.ended exit : Phase κ).IsTorn ↔ ∃ text, exit = .panicked text := by
  simp [IsTorn]

/-- In this move the worker saw that shutdown had been triggered. -/
def Move.SeesShutdown (h : Host ω κ) (m : Move ω κ) : Prop :=
  (∃ c, m.before.phase = .checking c) ∧ h.stopping m.found = true

/-- In this move the worker committed a message and would then have had to pause for longer than a
clock can tell. -/
def Move.Overlong (w : Worker ω) (m : Move ω κ) : Prop :=
  ∃ c d outcome, m.before.phase = .settling c d outcome ∧
    (∀ call ∈ m.happened.filterMap Occurrence.call?, call.fatal? = none) ∧
    (w.pause? outcome m.after.streak).any w.timer.outlastedBy = true

namespace Worker

variable {h : Host ω κ} {w : Worker ω} {s s' : WorkerState κ} {world world' : ω}
  {happened : List Occurrence}

theorem not_isStopping_resume (w : Worker ω) (c : κ) (outcome : Outcome) (streak : Nat) :
    ¬ (w.resume c outcome streak).IsStopping := by
  unfold resume
  split <;> simp [Phase.IsStopping]

theorem isTorn_resume (w : Worker ω) (c : κ) (outcome : Outcome) (streak : Nat) :
    (w.resume c outcome streak).IsTorn ↔
      (w.pause? outcome streak).any w.timer.outlastedBy = true := by
  unfold resume
  split
  · next outlasts => exact iff_of_true ⟨_, rfl⟩ outlasts
  · next bearable => exact iff_of_false (by simp [Phase.IsTorn]) bearable

/-- A worker is told to stop when it looks and shutdown has been triggered. -/
theorem Does.isStopping (does : Does h w s world s' world' happened) :
    s'.phase.IsStopping ↔
      s.phase.IsStopping ∨ Move.SeesShutdown h ⟨s, world, s', world', happened⟩ := by
  cases does
  case committed | commitFailed =>
    apply iff_of_false (w.not_isStopping_resume _ _ _)
    simp [Phase.IsStopping, Move.SeesShutdown]
  all_goals simp_all [Phase.IsStopping, Move.SeesShutdown]

/-- A worker is torn down by a pause that outlasts the clock. -/
theorem Does.isTorn (does : Does h w s world s' world' happened) :
    s'.phase.IsTorn ↔ s.phase.IsTorn ∨ Move.Overlong w ⟨s, world, s', world', happened⟩ := by
  cases does
  case committed =>
    rw [isTorn_resume]
    simp [Phase.IsTorn, Move.Overlong, List.filterMap_cons, Occurrence.call?, ConsumerCall.fatal?]
  case commitFailed passing _ =>
    rw [isTorn_resume]
    simp [Phase.IsTorn, Move.Overlong, List.filterMap_cons, Occurrence.call?,
      ConsumerCall.fatal?_committed passing]
  case commitStopped fatal _ =>
    simp [Phase.IsTorn, Move.Overlong, List.filterMap_cons, Occurrence.call?, ConsumerCall.fatal?,
      fatal]
  all_goals simp [Phase.IsTorn, Move.Overlong]

/-- What begins in a step of one kind and then lasts has begun in some move. -/
theorem Makes.iff_exists {P : Phase κ → Prop} {Q : Move ω κ → Prop} {start s : WorkerState κ}
    {moves : List (Move ω κ)} (run : w.Makes h start moves s)
    (step : ∀ {s s' : WorkerState κ} {world world' : ω} {happened : List Occurrence},
      Does h w s world s' world' happened →
        (P s'.phase ↔ P s.phase ∨ Q ⟨s, world, s', world', happened⟩)) :
    P s.phase ↔ P start.phase ∨ ∃ m ∈ moves, Q m := by
  induction run with
  | start => simp
  | step _ made ih =>
    rw [step (does_step made), ih]
    simp [or_and_right, exists_or, or_assoc]

theorem connections_resume (w : Worker ω) (c : κ) (outcome : Outcome) (streak : Nat) :
    (w.resume c outcome streak).connections = [none] := by
  unfold resume
  split <;> rfl

theorem stages_resume (w : Worker ω) (c : κ) (outcome : Outcome) (streak : Nat) :
    (w.resume c outcome streak).stages = [(.init, .subscribed), (.subscribed, .polling)] := by
  unfold resume
  split <;> rfl

/-- A worker asks for a consumer once, at first. -/
theorem Does.connections (does : Does h w s world s' world' happened) {calls : List ConsumerCall}
    (conducted : w.Conducted calls s.phase) :
    s.phase.connections ++ happened.filterMap Occurrence.connection? = s'.phase.connections := by
  cases does <;> simp only [List.filterMap_cons, List.filterMap_append, List.filterMap_nil,
    Occurrence.connection?, entered, filterMap_connection?_logged,
    filterMap_connection?_afterCommit, connections_resume]
  case gaveUp =>
    obtain ⟨e, rfl, -⟩ := conducted
    rfl
  case rested => exact List.append_nil _
  all_goals rfl

/-- Nobody but the worker itself reports changes of its stage. -/
structure ReportsAlone (h : Host ω κ) (w : Worker ω) : Prop where
  connect : ∀ world, ∀ entry ∈ (h.connect w.subscription world).2.2, entry.stages? = none
  poll : ∀ c world, ∀ entry ∈ (h.poll c w.settings.pollTimeout world).2.2, entry.stages? = none
  commit : ∀ c d world, ∀ entry ∈ (h.commit c d world).2.2, entry.stages? = none
  close : ∀ c world, ∀ entry ∈ (h.close c world).2.2, entry.stages? = none
  handlers : ∀ a ∈ w.registry.accepted, ∀ e world,
    ∀ entry ∈ (a.listener.handler.handle e world).2.2, entry.stages? = none
  sink : ∀ record world, ∀ entry ∈ (w.publisher.sink.produce record world).2.2,
    entry.stages? = none

theorem ReportsAlone.othersLog (alone : w.ReportsAlone h) :
    w.OthersLog h fun e => e.stages? = none :=
  ⟨alone.connect, alone.poll, alone.commit, alone.close, alone.handlers, alone.sink⟩

theorem LogEntry.stages?_of_tellsOfPublishing {e : LogEntry} (tells : e.tellsOfPublishing = true) :
    e.stages? = none := by
  cases e <;> first
    | rfl
    | cases tells

/-- A worker whose stages nobody else reports reports each change of its stage. -/
theorem stages_step (alone : w.ReportsAlone h) {calls : List ConsumerCall}
    (conducted : w.Conducted calls s.phase) (made : w.step h s world = (s', world', happened)) :
    s.phase.stages ++ happened.filterMap Occurrence.stages? = s'.phase.stages := by
  have same : (w.step h s world).2.2 = happened := congrArg (fun stepped => stepped.2.2) made
  have others := alone.othersLog
  have skipped : ∀ e : LogEntry, e.stages? = none → Occurrence.stages? (.logged e) = none :=
    fun _ none => none
  have publishing (e : LogEntry) := LogEntry.stages?_of_tellsOfPublishing (e := e)
  cases does_step made
  case misrouted | escalated | notEscalated =>
    rw [← same, step, entries_escalate others skipped publishing fun _ => rfl]
    rfl
  case buried | notBuried =>
    rw [← same, step, entries_bury others skipped publishing fun _ => rfl]
    rfl
  case gaveUp answer =>
    obtain ⟨e, rfl, -⟩ := conducted
    have told := OthersLog.filterMap_logged skipped (others.close _ world) answer
    simp only [List.filterMap_append, List.filterMap_cons, told]
    rfl
  case closed answer =>
    have told := OthersLog.filterMap_logged skipped (others.close _ world) answer
    simp only [List.filterMap_append, List.filterMap_cons, told]
    rfl
  case connected answer | refused answer =>
    have told := OthersLog.filterMap_logged skipped (others.connect world) answer
    simp only [List.filterMap_append, List.filterMap_cons, told]
    rfl
  case fetched answer | timedOut answer | pollStopped answer | pollFailed answer =>
    have told := OthersLog.filterMap_logged skipped (others.poll _ world) answer
    simp only [List.filterMap_append, List.filterMap_cons, told]
    rfl
  case accepted next answer | failed next answer =>
    have told := OthersLog.filterMap_logged skipped (others.handler next _ world) answer
    simp only [List.filterMap_append, List.filterMap_cons, told]
    rfl
  case committed answer | commitFailed answer =>
    have told := OthersLog.filterMap_logged skipped (others.commit _ _ world) answer
    simp only [List.filterMap_append, List.filterMap_cons, told, filterMap_stages?_afterCommit,
      stages_resume]
    rfl
  case commitStopped answer =>
    have told := OthersLog.filterMap_logged skipped (others.commit _ _ world) answer
    simp only [List.filterMap_cons, told]
    rfl
  all_goals simp [Phase.stages, Occurrence.stages?, LogEntry.stages?]

/-! ### Whole lives -/

variable {moves : List (Move ω κ)}

theorem Makes.conducted (run : w.Makes h .initial moves s) :
    w.Conducted (observed Occurrence.call? moves) s.phase := by
  induction run with
  | start => rfl
  | step _ made ih =>
    rw [observed_snoc]
    exact (does_step made).conducted ih

theorem Makes.connections_eq (run : w.Makes h .initial moves s) :
    observed Occurrence.connection? moves = s.phase.connections := by
  induction run with
  | start => rfl
  | step run made ih =>
    rw [observed_snoc, ih]
    exact (does_step made).connections run.conducted

theorem Makes.stages_eq (run : w.Makes h .initial moves s) (alone : w.ReportsAlone h) :
    observed Occurrence.stages? moves = s.phase.stages := by
  induction run with
  | start => rfl
  | step run made ih =>
    rw [observed_snoc, ih]
    exact stages_step alone run.conducted made

theorem Makes.isStopping_iff (run : w.Makes h .initial moves s) :
    s.phase.IsStopping ↔ ∃ m ∈ moves, m.SeesShutdown h := by
  have begun : ¬ (WorkerState.initial : WorkerState κ).phase.IsStopping := by
    simp [WorkerState.initial, Phase.IsStopping]
  rw [run.iff_exists Does.isStopping, or_iff_right begun]

theorem Makes.isTorn_iff (run : w.Makes h .initial moves s) :
    s.phase.IsTorn ↔ ∃ m ∈ moves, m.Overlong w := by
  have begun : ¬ (WorkerState.initial : WorkerState κ).phase.IsTorn := by
    simp [WorkerState.initial, Phase.IsTorn]
  rw [run.iff_exists Does.isTorn, or_iff_right begun]

/-- A run of a worker is a sequence of moves in which nobody else changes the world. -/
theorem exists_makes_of_run {start : WorkerState κ} {earlier : List (Move ω κ)}
    (before : w.Makes h start earlier s) (fuel : Nat) (world : ω) :
    ∃ moves, w.Makes h start (earlier ++ moves) (w.run h fuel s world).1 ∧
      (w.run h fuel s world).2.2 = moves.flatMap Move.happened := by
  induction fuel generalizing s world earlier with
  | zero => exact ⟨[], by simpa [run] using before, rfl⟩
  | succ fuel ih =>
    cases exit : s.exit? with
    | some exit' => exact ⟨[], by simpa [run, exit] using before, by simp [run, exit]⟩
    | none =>
      rcases made : w.step h s world with ⟨s', world', happened⟩
      obtain ⟨moves, makes, told⟩ := ih (before.step made) world'
      refine ⟨⟨s, world, s', world', happened⟩ :: moves, ?_, ?_⟩
      · simpa [run, exit, made] using makes
      · simp [run, exit, made, told]

/-- A worker that has ended has asked for a consumer once. If it got an error, it made no call and
failed with this error. If it got a consumer, it called it in rounds of one poll and, after a poll
that answered a message, one commit of that message, and no call but the last one answered an error
that stops the consumer. It was told to stop if and only if it saw that shutdown had been triggered,
and it failed if and only if the last call answered an error that stops the consumer, namely with
that error. Then it closed the consumer and had reported each stage once, unless a pause after a
commit outlasted the clock: this, and nothing else, tears it down and leaves the consumer open. -/
theorem Makes.consumer_of_ended (run : w.Makes h .initial moves s) {exit : Exit}
    (ended : s.phase = .ended exit) :
    (∃ e, observed Occurrence.connection? moves = [some e] ∧
      exit = .failed (.consumer w.group e) ∧ observed Occurrence.call? moves = []) ∨
    observed Occurrence.connection? moves = [none] ∧ ∃ rounds,
      Rounds rounds ∧ (∀ call ∈ rounds.dropLast, call.fatal? = none) ∧
      ((∃ stats, exit = .stopped stats) ↔ ∃ m ∈ moves, m.SeesShutdown h) ∧
      (∀ error, exit = .failed error ↔ ∃ e, error = .fatal w.group e ∧
        rounds.getLast?.bind ConsumerCall.fatal? = some e) ∧
      ((∃ text, exit = .panicked text) ↔ ∃ m ∈ moves, m.Overlong w) ∧
      ((∀ m ∈ moves, ¬ m.Overlong w) →
        observed Occurrence.call? moves = rounds ++ [.closed] ∧
        (w.ReportsAlone h → observed Occurrence.stages? moves =
          [(.init, .subscribed), (.subscribed, .polling), (.polling, .shuttingDown),
            (.shuttingDown, .closed)])) ∧
      ∀ m ∈ moves, m.Overlong w →
        observed Occurrence.call? moves = rounds ∧
        (w.ReportsAlone h → observed Occurrence.stages? moves =
          [(.init, .subscribed), (.subscribed, .polling)]) := by
  have conducted := run.conducted
  have connections := run.connections_eq
  have stopping := run.isStopping_iff
  have torn := run.isTorn_iff
  rw [ended] at conducted connections stopping torn
  rw [Phase.isStopping_ended] at stopping
  rw [Phase.isTorn_ended] at torn
  have whole (closing : ∀ text, exit ≠ .panicked text) : ∀ m ∈ moves, ¬ m.Overlong w := by
    intro m made overlong
    obtain ⟨text, same⟩ := torn.mpr ⟨m, made, overlong⟩
    exact closing text same
  match exit with
  | .failed (.consumer group e) =>
    obtain ⟨rfl, calls⟩ := conducted
    exact .inl ⟨e, connections, rfl, calls⟩
  | .stopped stats =>
    obtain ⟨rounds, passing, calls⟩ := conducted
    refine .inr ⟨connections, rounds, passing.1, passing.dropLast, stopping, ?_, torn,
      fun _ => ⟨calls, fun alone => ?_⟩, fun m made overlong => ?_⟩
    · intro error
      simp [passing.getLast?]
    · rw [run.stages_eq alone, ended]
      rfl
    · exact absurd overlong (whole (fun _ => nofun) m made)
  | .failed (.fatal group e) =>
    obtain ⟨rfl, rounds, ⟨sound, before, last⟩, calls⟩ := conducted
    refine .inr ⟨connections, rounds, sound, before, stopping, ?_, torn,
      fun _ => ⟨calls, fun alone => ?_⟩, fun m made overlong => ?_⟩
    · intro error
      simp [last, eq_comm]
    · rw [run.stages_eq alone, ended]
      rfl
    · exact absurd overlong (whole (fun _ => nofun) m made)
  | .panicked text =>
    refine .inr ⟨connections, _, conducted.1, conducted.dropLast, stopping, ?_, torn,
      fun bearable => ?_, fun m made overlong => ⟨rfl, fun alone => ?_⟩⟩
    · intro error
      simp [conducted.getLast?]
    · obtain ⟨m, made, overlong⟩ := torn.mp ⟨text, rfl⟩
      exact absurd overlong (bearable m made)
    · rw [run.stages_eq alone, ended]
      rfl

/-! ### A worker that is told to stop after a message -/

/-- What a worker does when it finds these worlds before its steps, and where it stands then. -/
def live (h : Host ω κ) (w : Worker ω) (s : WorkerState κ) :
    List ω → List (Move ω κ) × WorkerState κ
  | [] => ([], s)
  | world :: worlds =>
    let (s', world', happened) := w.step h s world
    let (moves, last) := live h w s' worlds
    (⟨s, world, s', world', happened⟩ :: moves, last)

theorem makes_live {start : WorkerState κ} {earlier : List (Move ω κ)}
    (before : w.Makes h start earlier s) (worlds : List ω) :
    w.Makes h start (earlier ++ (live h w s worlds).1) (live h w s worlds).2 := by
  induction worlds generalizing s earlier with
  | nil => simpa [live] using before
  | cons world worlds ih =>
    rcases made : w.step h s world with ⟨s', world', happened⟩
    simpa [live, made] using ih (before.step made)

end Worker

namespace Sample

open Memory

/-- Worlds in which shutdown is triggered when a message has been dealt with. -/
def closingWorlds : List (World Unit) :=
  List.replicate 7 world ++ List.replicate 2 { world with stopping := true }

/-- The worker of the sample deals with its message and then sees that shutdown was triggered. -/
def stoppedLife : List (Move (World Unit) Consumer) × WorkerState Consumer :=
  worker.live World.host .initial closingWorlds

/-- The worker of the sample with pauses that no clock can tell. -/
def tiredWorker : Worker (World Unit) := { worker with settings := ⟨.zero, .greatest, .greatest⟩ }

/-- The worker with the long pauses deals with its message. -/
def tornLife : List (Move (World Unit) Consumer) × WorkerState Consumer :=
  tiredWorker.live World.host .initial closingWorlds

end Sample

namespace Worker

/-- The worker of the sample polls and commits its message and closes its consumer. -/
theorem sample_consumer_of_ended : ∃ rounds stats,
    Sample.stoppedLife.2.phase = .ended (.stopped stats) ∧ Rounds rounds ∧
    observed Occurrence.call? Sample.stoppedLife.1 = rounds ++ [.closed] ∧
    rounds = [.polled (.ok (some Sample.message)), .committed Sample.message (.ok ())] := by
  have run : Sample.worker.Makes Memory.World.host .initial [] .initial := .start
  have lived : Sample.worker.Makes Memory.World.host .initial Sample.stoppedLife.1
      Sample.stoppedLife.2 := makes_live run Sample.closingWorlds
  have ended : Sample.stoppedLife.2.phase = .ended (.stopped ⟨0, 1, 0⟩) := rfl
  rcases lived.consumer_of_ended ended with ⟨e, -, same, -⟩ |
    ⟨-, rounds, sound, -, -, -, torn, closes, -⟩
  · cases same
  · have bearable : ∀ m ∈ Sample.stoppedLife.1, ¬ m.Overlong Sample.worker := by
      intro m made overlong
      obtain ⟨text, same⟩ := torn.mpr ⟨m, made, overlong⟩
      cases same
    obtain ⟨calls, -⟩ := closes bearable
    have made : observed Occurrence.call? Sample.stoppedLife.1 =
      [.polled (.ok (some Sample.message)), .committed Sample.message (.ok ())] ++ [.closed] := rfl
    exact ⟨rounds, _, ended, sound, calls, List.append_cancel_right (calls.symm.trans made)⟩

/-- A pause that outlasts the clock leaves the consumer open. -/
theorem sample_consumer_left_open :
    Sample.tiredWorker.Makes Memory.World.host .initial Sample.tornLife.1 Sample.tornLife.2 ∧
    (∃ text, Sample.tornLife.2.phase = .ended (.panicked text)) ∧
    observed Occurrence.call? Sample.tornLife.1 =
      [.polled (.ok (some Sample.message)), .committed Sample.message (.ok ())] ∧
    observed Occurrence.stages? Sample.tornLife.1 =
      [(.init, .subscribed), (.subscribed, .polling)] := by
  have run : Sample.tiredWorker.Makes Memory.World.host .initial [] .initial := .start
  exact ⟨makes_live run Sample.closingWorlds, ⟨_, rfl⟩, rfl, rfl⟩

end Worker

end EventPipeline
