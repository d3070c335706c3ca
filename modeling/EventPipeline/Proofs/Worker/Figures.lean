import EventPipeline.Proofs.Worker.Turns
import EventPipeline.Proofs.Worker.Windup

/-! # What the counts of a worker say

The counts of a worker are determined by its turns (`Worker.figures`): by what came, and by whether a
handler failed on it. `Kept.stats_eq` shows it for every turn that a worker can take, so the counts that a
worker reports on the way and at its end, and those that it returns, are these figures.
-/

namespace EventPipeline

variable {ω κ : Type}

/-- A message that a poll answered. -/
def Occurrence.delivery? : Occurrence → Option Delivery
  | .polled _ (.ok d?) => d?
  | _ => none

/-- The counts that an entry reports at the end. -/
def Occurrence.farewell? : Occurrence → Option Stats
  | .logged (.workerStopped stats) | .logged (.workerFailed _ stats) => some stats
  | _ => none

/-- The worker has closed its consumer at its end. -/
def Phase.hasClosed : Phase κ → Bool
  | .ended (.stopped _) | .ended (.failed (.fatal _ _)) => true
  | _ => false

/-- The messages that the polls answered are those of the turns. -/
theorem deliveries_turns (moves : List (Move ω κ)) :
    (turns moves).filterMap Turn.message? = observed Occurrence.delivery? moves := by
  have polled : Occurrence.delivery? = fun o => o.answer?.bind fun answer => answer.toOption.join := by
    funext o
    match o with
    | .polled _ (.ok (some _)) | .polled _ (.ok none) | .polled _ (.error _) => rfl
    | .logged _ | .connected .. | .offered .. | .published _ | .settled .. | .committed .. | .paused _
    | .closed => rfl
  have message : Turn.message? = fun t => t.answer.toOption.join := by
    funext t
    match t with
    | ⟨.ok (some _), _⟩ | ⟨.ok none, _⟩ | ⟨.error _, _⟩ => rfl
  have mapped := congrArg (List.filterMap fun answer => answer.toOption.join) (answers_turns moves)
  rw [List.filterMap_map] at mapped
  rw [message, polled]
  refine Eq.trans mapped ?_
  rw [observed, List.filterMap_flatMap, observed]
  simp only [List.filterMap_filterMap]

namespace Worker

/-- In this turn a message came that was neither dropped nor one that a handler failed on. -/
def succeeds (w : Worker ω) (t : Turn) : Bool := t.message?.any fun d => !w.drops d && !t.fails

/-- How many of the messages of these turns were processed, failed or were dropped. -/
def figures (w : Worker ω) (turns : List Turn) : Stats where
  processed := turns.countP w.succeeds
  failed := turns.countP fun t => t.message?.isSome && t.fails
  dropped := turns.countP fun t => t.message?.any w.drops

variable {h : Host ω κ} {w : Worker ω}

section Kept

variable {turns : List Turn} {t : Turn} {stats : Stats} {streak : Nat} {pause? : Option Duration}

theorem figures_snoc_of_idles (idles : w.Idles h t) (turns : List Turn) :
    w.figures (turns ++ [t]) = w.figures turns := by
  simp [figures, succeeds, idles.nothing]

theorem figures_snoc_of_serves {d : Delivery} {outcome : Outcome}
    (serves : w.Serves h t d outcome stats streak) (turns : List Turn) :
    w.figures (turns ++ [t]) = (w.figures turns).record outcome := by
  have drops := serves.drops
  cases outcome <;>
    simp_all [figures, succeeds, serves.message, serves.fails, Outcome.isFailure, Outcome.backsOff,
      Stats.record]

/-- The counts that turns leave are determined by what came and what failed in them. -/
theorem Kept.stats_eq (kept : w.Kept h turns stats streak pause?) : stats = w.figures turns := by
  induction kept with
  | start => rfl
  | idles _ _ idles ih => rw [figures_snoc_of_idles idles, ih]
  | serves _ _ serves ih => rw [figures_snoc_of_serves serves, ← ih]

theorem Kept.total_eq (kept : w.Kept h turns stats streak pause?) :
    stats.total = (turns.filterMap Turn.message?).length := by
  induction kept with
  | start => rfl
  | idles _ _ idles ih => simp [ih, idles.nothing]
  | serves _ _ serves ih => simp [ih, serves.message, Stats.total_record]

/-! ### What is reported -/

theorem filterMap_progress?_afterCommit (w : Worker ω) (outcome : Outcome) (stats : Stats)
    (streak : Nat) :
    (w.afterCommit outcome stats streak).filterMap Occurrence.progress? =
      if stats.total % progressInterval = 0 then [stats] else [] := by
  unfold afterCommit
  rw [List.filterMap_append]
  cases w.pause? outcome streak with
  | none => split <;> rfl
  | some pause =>
    cases outlasts : w.timer.outlastedBy pause <;> split <;> simp [outlasts, Occurrence.progress?]

/-- The counts are reported in the turns that complete a hundred messages, unless the commit stops the
worker, and in no others. -/
theorem Kept.progress_eq {before : List Turn} (kept : w.Kept h (before ++ [t]) stats streak pause?)
    (alone : w.CountsAlone h) :
    t.progress =
      if t.message?.isSome = true ∧ t.breaks = false ∧ 100 ∣ (w.figures (before ++ [t])).total then
        [w.figures (before ++ [t])]
      else [] := by
  have counts := kept.stats_eq
  obtain ⟨_, _, _, _, -, ⟨idles, -⟩ | ⟨d, outcome, serves, -⟩⟩ := kept.last_cases
  · rw [(idles.reports alone).1, idles.nothing]
    rfl
  · rw [(serves.reports alone).1, serves.message, counts, closing]
    cases t.breaks with
    | true => rfl
    | false =>
      rw [if_neg Bool.false_ne_true, filterMap_progress?_afterCommit]
      exact if_congr (by simp [progressInterval, Nat.dvd_iff_mod_eq_zero]) rfl rfl

end Kept

theorem farewell?_of_untold {e : LogEntry} (untold : e.tellsOfCounts = false) :
    Occurrence.farewell? (.logged e) = none := by
  cases e <;> first
    | rfl
    | cases untold

theorem filterMap_farewell?_afterCommit (w : Worker ω) (outcome : Outcome) (stats : Stats)
    (streak : Nat) : (w.afterCommit outcome stats streak).filterMap Occurrence.farewell? = [] :=
  w.filterMap_afterCommit outcome stats streak (fun _ => rfl) (fun _ _ => rfl) fun _ => rfl

theorem hasClosed_resume (w : Worker ω) (c : κ) (outcome : Outcome) (streak : Nat) :
    (w.resume c outcome streak).hasClosed = false := by
  unfold resume
  split <;> rfl

section Step

variable {s s' : WorkerState κ} {world world' : ω} {happened : List Occurrence}

/-- A worker reports its counts when it has closed its consumer. -/
theorem farewells_step (alone : w.CountsAlone h) {calls : List ConsumerCall}
    (conducted : w.Conducted calls s.phase) (made : w.step h s world = (s', world', happened)) :
    (if s.phase.hasClosed = true then [s.stats] else []) ++
      happened.filterMap Occurrence.farewell? =
        if s'.phase.hasClosed = true then [s'.stats] else [] := by
  have same : (w.step h s world).2.2 = happened := congrArg (fun stepped => stepped.2.2) made
  have skipped (e : LogEntry) := farewell?_of_untold (e := e)
  have publishing (e : LogEntry) (tells : e.tellsOfPublishing = true) : e.tellsOfCounts = false := by
    cases e <;> first
      | rfl
      | cases tells
  cases does_step made
  case misrouted | escalated | notEscalated =>
    rw [← same, step, entries_escalate alone skipped publishing fun _ => rfl]
    rfl
  case buried | notBuried =>
    rw [← same, step, entries_bury alone skipped publishing fun _ => rfl]
    rfl
  case closed answer =>
    have told := OthersLog.filterMap_logged skipped (alone.close _ world) answer
    simp only [List.filterMap_append, List.filterMap_cons, told]
    rfl
  case gaveUp answer =>
    obtain ⟨e, rfl, -⟩ := conducted
    have told := OthersLog.filterMap_logged skipped (alone.close _ world) answer
    simp only [List.filterMap_append, List.filterMap_cons, told]
    rfl
  case connected answer | refused answer =>
    have told := OthersLog.filterMap_logged skipped (alone.connect world) answer
    simp only [List.filterMap_append, List.filterMap_cons, told]
    rfl
  case fetched answer | timedOut answer | pollStopped answer | pollFailed answer =>
    have told := OthersLog.filterMap_logged skipped (alone.poll _ world) answer
    simp only [List.filterMap_append, List.filterMap_cons, told]
    rfl
  case accepted next answer | failed next answer =>
    have told := OthersLog.filterMap_logged skipped (alone.handler next _ world) answer
    simp only [List.filterMap_append, List.filterMap_cons, told]
    rfl
  case committed answer | commitFailed answer =>
    have told := OthersLog.filterMap_logged skipped (alone.commit _ _ world) answer
    have after := filterMap_farewell?_afterCommit w
    simp only [List.filterMap_append, List.filterMap_cons, told, after, hasClosed_resume]
    rfl
  case commitStopped answer =>
    have told := OthersLog.filterMap_logged skipped (alone.commit _ _ world) answer
    simp only [List.filterMap_cons, told]
    rfl
  all_goals simp [Phase.hasClosed, Occurrence.farewell?]

end Step

variable {s : WorkerState κ} {moves : List (Move ω κ)}

theorem Makes.farewells_eq (run : w.Makes h .initial moves s) (alone : w.CountsAlone h) :
    observed Occurrence.farewell? moves = if s.phase.hasClosed = true then [s.stats] else [] := by
  induction run with
  | start => rfl
  | step run made ih =>
    rw [observed_snoc, ih]
    exact farewells_step alone run.conducted made

/-- A worker that has nothing at hand has counted each message that its polls answered, once: as failed
if a handler failed on it, as dropped if it is one that is dropped, and otherwise as processed. It returns
these figures when it is told to stop, and it reports them when it has closed its consumer, also after a
commit or a poll that stopped it. On the way it reports the figures so far in the turn that completes a
hundred messages, once, unless the commit of that turn stops it, and at no other time. -/
theorem Makes.counts_every_message (run : w.Makes h .initial moves s)
    (unheld : s.phase.held? = none) :
    (turns moves).filterMap Turn.message? = observed Occurrence.delivery? moves ∧
    s.stats = w.figures (turns moves) ∧
    (w.figures (turns moves)).total = (observed Occurrence.delivery? moves).length ∧
    (∀ stats, s.phase = .ended (.stopped stats) → stats = w.figures (turns moves)) ∧
    (w.CountsAlone h →
      observed Occurrence.farewell? moves =
        (if s.phase.hasClosed = true then [w.figures (turns moves)] else []) ∧
      observed Occurrence.progress? moves = (turns moves).flatMap Turn.progress ∧
      ∀ before t after, turns moves = before ++ t :: after →
        t.progress =
          if t.message?.isSome = true ∧ t.breaks = false ∧ 100 ∣ (w.figures (before ++ [t])).total then
            [w.figures (before ++ [t])]
          else []) := by
  obtain ⟨pause?, kept, -⟩ := (keeping_unheld unheld).mp run.keeping
  have counts := kept.stats_eq
  refine ⟨deliveries_turns moves, counts, ?_, ?_, fun alone => ⟨?_, ?_, ?_⟩⟩
  · rw [← counts, kept.total_eq, deliveries_turns]
  · intro stats stopped
    rw [run.stopped_stats stopped, counts]
  · rw [run.farewells_eq alone, counts]
  · exact run.observed_turns ofRounds_progress? (alone.mono ofRounds_progress?.entries) fun _ _ => rfl
  · intro before t after split
    rw [split] at kept
    obtain ⟨_, _, _, kept, -⟩ := kept.upto
    exact kept.progress_eq alone

end Worker

namespace Memory

variable {σ : Type}

/-- A worker of a memory broker tells of its counts alone if its handlers do not tell of them. -/
theorem countsAlone_of_handlers {w : Worker (World σ)} (own : w.publisher.sink = World.sink)
    (handlers : ∀ a ∈ w.registry.accepted, ∀ e world,
      ∀ entry ∈ (a.listener.handler.handle e world).2.2, entry.tellsOfCounts = false) :
    w.CountsAlone World.host where
  connect world := by
    unfold World.host World.onBroker Consumer.connect
    dsimp only
    split <;> exact fun _ => nofun
  poll c world := by
    unfold World.host World.onBroker Consumer.poll
    dsimp only
    split <;> exact fun _ => nofun
  commit _ _ _ := fun _ => nofun
  close _ _ := fun _ => nofun
  handlers := handlers
  sink record world := by
    rw [own]
    unfold World.sink World.onBroker Broker.produce
    dsimp only
    split
    · exact fun _ => nofun
    · rintro entry mem
      rw [List.mem_singleton.mp mem]
      rfl

end Memory

namespace Worker

/-- The worker of the sample reports one failed message when it stops. -/
theorem sample_counts_every_message :
    Sample.stoppedLife.2.phase = .ended (.stopped ⟨0, 1, 0⟩) ∧
    Sample.worker.figures (turns Sample.stoppedLife.1) = ⟨0, 1, 0⟩ ∧
    observed Occurrence.delivery? Sample.stoppedLife.1 = [Sample.message] ∧
    observed Occurrence.farewell? Sample.stoppedLife.1 = [⟨0, 1, 0⟩] ∧
    observed Occurrence.progress? Sample.stoppedLife.1 = [] := by
  have run : Sample.worker.Makes Memory.World.host .initial Sample.stoppedLife.1
      Sample.stoppedLife.2 := makes_live .start Sample.closingWorlds
  have ended : Sample.stoppedLife.2.phase = .ended (.stopped ⟨0, 1, 0⟩) := rfl
  have alone : Sample.worker.CountsAlone Memory.World.host :=
    Memory.countsAlone_of_handlers rfl fun a accepted e world entry mem => by
      rw [List.mem_singleton.mp accepted] at mem
      cases mem
  obtain ⟨-, -, -, returned, reports⟩ := run.counts_every_message (by rw [ended]; rfl)
  have figures := (returned _ ended).symm
  obtain ⟨last, -⟩ := reports alone
  rw [figures] at last
  exact ⟨ended, figures, rfl, last, rfl⟩

end Worker

end EventPipeline
