import EventPipeline.Proofs.Worker.Offers
import Mathlib.Data.List.ModifyLast

/-! # The turns of a worker

Each poll begins a turn, which lasts until the next poll: the message that came, if one did, what the
handlers answered, the commit, and the pause. `Worker.Kept` lists the kinds of turns that a worker can
take, with what it counts meanwhile, and every step of a worker keeps to them (`Does.keeping`), so what
is said of all turns of a worker is shown by induction over `Kept`.
-/

namespace EventPipeline

variable {ω κ : Type}

/-! ### What happens in a turn -/

/-- A poll that was answered. -/
def Occurrence.answer? : Occurrence → Option (Except BrokerError (Option Delivery))
  | .polled _ answer => some answer
  | _ => none

/-- A handler that returned an error or was torn down. -/
def Occurrence.isFailure : Occurrence → Bool
  | .offered _ _ (.error _) => true
  | _ => false

/-- A pause that was taken. -/
def Occurrence.pause? : Occurrence → Option Duration
  | .paused pause => some pause
  | _ => none

/-- The counts that an entry reports on the way. -/
def Occurrence.progress? : Occurrence → Option Stats
  | .logged (.progress stats) => some stats
  | _ => none

/-- The streak and the pause that an entry announces. -/
def Occurrence.announcement? : Occurrence → Option (Nat × Duration)
  | .logged (.backingOff streak pause) => some (streak, pause)
  | _ => none

/-- Whether the answer to a commit is an error that stops the consumer. -/
def stopsConsumer : Except BrokerError Unit → Bool
  | .ok () => false
  | .error e => e.isFatal

/-- Whether an entry tells of the counts of a worker or of its pauses. -/
def LogEntry.tellsOfCounts : LogEntry → Bool
  | .progress _ | .backingOff .. | .workerStopped _ | .workerFailed .. => true
  | _ => false

/-- Nobody but the worker itself logs entries about its counts and pauses. -/
def Worker.CountsAlone (h : Host ω κ) (w : Worker ω) : Prop :=
  w.OthersLog h fun e => e.tellsOfCounts = false

/-- What a poll answered, and what happened from it to the next poll. -/
structure Turn where
  answer : Except BrokerError (Option Delivery)
  happened : List Occurrence

namespace Turn

/-- The turns after something more has happened. What happens before the first poll is in no turn. -/
def add (turns : List Turn) : Occurrence → List Turn
  | .polled _ answer => turns ++ [⟨answer, []⟩]
  | o => turns.modifyLast fun t => ⟨t.answer, t.happened ++ [o]⟩

/-- The message that came. -/
def message? (t : Turn) : Option Delivery :=
  match t.answer with
  | .ok d? => d?
  | .error _ => none

/-- Whether a handler returned an error or was torn down. -/
def fails (t : Turn) : Bool := t.happened.any Occurrence.isFailure

/-- What the commits were answered. -/
def commits (t : Turn) : List (Except BrokerError Unit) :=
  (t.happened.filterMap Occurrence.commit?).map Prod.snd

/-- Whether a commit was answered by an error that stops the consumer. -/
def breaks (t : Turn) : Bool := t.commits.any stopsConsumer

/-- The pauses that were taken. -/
def pauses (t : Turn) : List Duration := t.happened.filterMap Occurrence.pause?

/-- The counts that were reported. -/
def progress (t : Turn) : List Stats := t.happened.filterMap Occurrence.progress?

/-- The streaks and pauses that were announced. -/
def announced (t : Turn) : List (Nat × Duration) := t.happened.filterMap Occurrence.announcement?

end Turn

/-- The turns that a worker took in its moves. -/
def turns (moves : List (Move ω κ)) : List Turn :=
  (moves.flatMap Move.happened).foldl Turn.add []

theorem turns_snoc (moves : List (Move ω κ)) (m : Move ω κ) :
    turns (moves ++ [m]) = m.happened.foldl Turn.add (turns moves) := by
  rw [turns, List.flatMap_append, List.flatMap_singleton, List.foldl_append]
  rfl

namespace Turn

theorem add_of_unpolled {o : Occurrence} (unpolled : o.answer? = none) (turns : List Turn) :
    add turns o = turns.modifyLast fun t => ⟨t.answer, t.happened ++ [o]⟩ := by
  cases o <;> first
    | rfl
    | cases unpolled

/-- Without a poll what happens goes to the last turn. -/
theorem foldl_add_concat {happened : List Occurrence}
    (unpolled : happened.filterMap Occurrence.answer? = []) (turns : List Turn) (t : Turn) :
    happened.foldl add (turns ++ [t]) = turns ++ [⟨t.answer, t.happened ++ happened⟩] := by
  induction happened generalizing t with
  | nil => rw [List.append_nil, List.foldl_nil]
  | cons o happened ih =>
    obtain ⟨first, rest⟩ : o.answer? = none ∧ happened.filterMap Occurrence.answer? = [] := by
      rw [List.filterMap_eq_nil_iff] at unpolled ⊢
      exact List.forall_mem_cons.mp unpolled
    rw [List.foldl_cons, add_of_unpolled first, List.modifyLast_concat, ih rest, List.append_assoc,
      List.singleton_append]

theorem foldl_add_nil {happened : List Occurrence}
    (unpolled : happened.filterMap Occurrence.answer? = []) : happened.foldl add [] = [] := by
  induction happened with
  | nil => rfl
  | cons o happened ih =>
    rw [List.filterMap_eq_nil_iff, List.forall_mem_cons] at unpolled
    rw [List.foldl_cons, add_of_unpolled unpolled.1]
    exact ih (List.filterMap_eq_nil_iff.mpr unpolled.2)

/-- A poll begins a turn. -/
theorem foldl_add_polled {happened : List Occurrence}
    (unpolled : happened.filterMap Occurrence.answer? = []) (turns : List Turn) (timeout : Duration)
    (answer : Except BrokerError (Option Delivery)) :
    (.polled timeout answer :: happened).foldl add turns = turns ++ [⟨answer, happened⟩] :=
  foldl_add_concat unpolled turns ⟨answer, []⟩

/-- Once there has been a poll, everything that happens belongs to a turn. -/
theorem flatMap_foldl_add {α : Type} {kind : Occurrence → Option α}
    (unpolled : ∀ timeout answer, kind (.polled timeout answer) = none) (happened : List Occurrence)
    (turns : List Turn) (t : Turn) :
    (happened.foldl add (turns ++ [t])).flatMap (fun t => t.happened.filterMap kind) =
      (turns ++ [t]).flatMap (fun t => t.happened.filterMap kind) ++ happened.filterMap kind := by
  induction happened generalizing turns t with
  | nil => simp
  | cons o happened ih =>
    rw [List.foldl_cons]
    cases answer : o.answer? with
    | none =>
      rw [add_of_unpolled answer, List.modifyLast_concat, ih]
      cases seen : kind o <;> simp [seen]
    | some answered =>
      cases o <;> cases answer
      rw [add, ih, List.filterMap_cons_none (unpolled _ _)]
      simp

end Turn

/-- The turns are those of the polls, in their order. -/
theorem answers_turns (moves : List (Move ω κ)) :
    (turns moves).map Turn.answer = observed Occurrence.answer? moves := by
  have from_ (happened : List Occurrence) (earlier : List Turn) :
      (happened.foldl Turn.add earlier).map Turn.answer =
        earlier.map Turn.answer ++ happened.filterMap Occurrence.answer? := by
    induction happened generalizing earlier with
    | nil => simp
    | cons o happened ih =>
      rw [List.foldl_cons, ih]
      cases answer : o.answer? with
      | none =>
        rw [Turn.add_of_unpolled answer, List.filterMap_cons_none answer]
        rcases List.eq_nil_or_concat earlier with rfl | ⟨before, t, rfl⟩
        · rfl
        · rw [List.concat_eq_append, List.modifyLast_concat]
          simp
      | some answered =>
        cases o <;> cases answer
        simp [Turn.add, Occurrence.answer?]
  rw [turns, from_, observed, List.filterMap_flatMap]
  rfl

namespace Worker

/-! ### What a worker does in a turn -/

/-- Whether a message is dropped: it has no payload or a blank one, or is no envelope, or comes on the
retry topic without saying in full where from. -/
def drops (w : Worker ω) (d : Delivery) : Bool :=
  match d.content?.map Envelope.read with
  | some (.ok e) => w.isRetry && (e.originTopic.isNone || e.originGroup.isNone)
  | _ => true

theorem drops_of_absent {w : Worker ω} {d : Delivery} (absent : d.content? = none) :
    w.drops d = true := by
  rw [drops, absent]
  rfl

theorem drops_of_unreadable {w : Worker ω} {d : Delivery} {bs : Octets} {e : Json.Error}
    (present : d.content? = some bs) (unread : Envelope.read bs = .error e) : w.drops d = true := by
  rw [drops, present, Option.map_some, unread]

theorem drops_of_orphans {w : Worker ω} {d : Delivery} {e : Envelope} (orphan : w.Orphans d e) :
    w.drops d = true := by
  have lost : w.Loses e := by
    obtain ⟨-, -, -, nowhere⟩ := orphan
    by_contra keeps
    rw [route?_of_not_loses keeps] at nowhere
    cases nowhere
  have retry : w.isRetry = true := beq_iff_eq.mpr lost.1
  rw [drops, orphan.reads]
  rcases lost.2 with missing | missing <;> simp [retry, missing]

theorem drops_of_routes {w : Worker ω} {d : Delivery} {r : Routed} (routes : w.Routes d r) :
    w.drops d = false := by
  rw [drops, routes.reads]
  obtain ⟨-, -, -, somewhere⟩ := routes
  by_contra drops
  rw [Bool.not_eq_false, Bool.and_eq_true, Bool.or_eq_true, Option.isNone_iff_eq_none,
    Option.isNone_iff_eq_none] at drops
  have lost : w.Loses r.event := ⟨beq_iff_eq.mp drops.1, drops.2⟩
  rw [route?_of_loses lost] at somewhere
  cases somewhere

/-- A dispatch comes out as one after which the worker does not back off exactly if the message is
dropped. -/
theorem Concludes.backsOff {w : Worker ω} {d : Delivery} {moves : List (Move ω κ)} {outcome : Outcome}
    (concludes : Concludes w d moves outcome) : outcome.backsOff = !w.drops d := by
  cases concludes with
  | empty absent => rw [drops_of_absent absent]; rfl
  | malformed present unread => rw [drops_of_unreadable present unread]; rfl
  | orphaned orphan => rw [drops_of_orphans orphan]; rfl
  | unrouted routes => rw [drops_of_routes routes]; rfl
  | handled routes => rw [drops_of_routes routes]; rfl
  | failed routes _ _ _ failure =>
    rw [drops_of_routes routes]
    cases outcome <;> first
      | rfl
      | cases failure

/-- What comes after the answer to the commit of a message. -/
def closing (w : Worker ω) (stops : Bool) (outcome : Outcome) (stats : Stats) (streak : Nat) :
    List Occurrence :=
  if stops then [] else w.afterCommit outcome stats streak

/-- The pause that a worker asks for after a message. -/
def asked? (w : Worker ω) (stops : Bool) (outcome : Outcome) (streak : Nat) : Option Duration :=
  if stops then none else w.pause? outcome streak

/-- No message came in this turn. -/
structure Idles (h : Host ω κ) (w : Worker ω) (t : Turn) : Prop where
  nothing : t.message? = none
  fails : t.fails = false
  commits : t.commits = []
  pauses : t.pauses = []
  reports : w.CountsAlone h → t.progress = [] ∧ t.announced = []

/-- A message that came in this turn is not settled yet, and a handler has failed on it or not. -/
structure Holds (h : Host ω κ) (w : Worker ω) (t : Turn) (d : Delivery) (failed : Prop) : Prop where
  message : t.message? = some d
  fails : t.fails = true ↔ failed
  commits : t.commits = []
  pauses : t.pauses = []
  reports : w.CountsAlone h → t.progress = [] ∧ t.announced = []

/-- A message that came in this turn ended in this way and left these counts and this streak. -/
structure Serves (h : Host ω κ) (w : Worker ω) (t : Turn) (d : Delivery) (outcome : Outcome)
    (stats : Stats) (streak : Nat) : Prop where
  message : t.message? = some d
  fails : t.fails = outcome.isFailure
  drops : outcome.backsOff = !w.drops d
  commits : ∃ answer, t.commits = [answer]
  pauses : t.pauses = (w.closing t.breaks outcome stats streak).filterMap Occurrence.pause?
  reports : w.CountsAlone h →
    t.progress = (w.closing t.breaks outcome stats streak).filterMap Occurrence.progress? ∧
    t.announced = (w.closing t.breaks outcome stats streak).filterMap Occurrence.announcement?

/-- The turns that a worker can take, with the counts, the streak and the pause that they leave. A pause
that outlasts the clock is the last thing that it asks for. -/
inductive Kept (h : Host ω κ) (w : Worker ω) : List Turn → Stats → Nat → Option Duration → Prop where
  | start : Kept h w [] .none 0 none
  | idles {turns : List Turn} {t : Turn} {stats : Stats} {streak : Nat} {pause? : Option Duration}
    (earlier : Kept h w turns stats streak pause?)
    (bearable : pause?.any w.timer.outlastedBy = false) (idles : w.Idles h t) :
    Kept h w (turns ++ [t]) stats streak none
  | serves {turns : List Turn} {t : Turn} {stats : Stats} {streak : Nat} {pause? : Option Duration}
    {d : Delivery} {outcome : Outcome} (earlier : Kept h w turns stats streak pause?)
    (bearable : pause?.any w.timer.outlastedBy = false)
    (serves : w.Serves h t d outcome (stats.record outcome) (nextStreak streak outcome)) :
    Kept h w (turns ++ [t]) (stats.record outcome) (nextStreak streak outcome)
      (w.asked? t.breaks outcome (nextStreak streak outcome))

/-- The turns of a worker in this state, the last of which may still be at a message. -/
def Keeping (h : Host ω κ) (w : Worker ω) (turns : List Turn) (s : WorkerState κ) : Prop :=
  match s.phase.held? with
  | none => ∃ pause?, w.Kept h turns s.stats s.streak pause? ∧
    (pause?.any w.timer.outlastedBy = true ↔ s.phase.IsTorn)
  | some (_, d) => ∃ before t pause?, turns = before ++ [t] ∧
    w.Kept h before s.stats s.streak pause? ∧ pause?.any w.timer.outlastedBy = false ∧
    w.Holds h t d s.phase.HasFailed

/-! ### What happens between polls and commits -/

/-- A kind of occurrences that a worker sees at its polls and commits only. -/
structure OfRounds {α : Type} (kind : Occurrence → Option α) : Prop where
  connected : ∀ s error?, kind (.connected s error?) = none
  offered : ∀ handler e result, kind (.offered handler e result) = none
  published : ∀ record, kind (.published record) = none
  settled : ∀ d outcome, kind (.settled d outcome) = none
  closed : kind .closed = none
  entries : ∀ e, e.tellsOfCounts = false → kind (.logged e) = none
  stopped : ∀ stats, kind (.logged (.workerStopped stats)) = none
  failed : ∀ e stats, kind (.logged (.workerFailed e stats)) = none

/-- Nothing that happened is of a kind that the worker alone sees, at its polls and commits. -/
def Quiet (h : Host ω κ) (w : Worker ω) (happened : List Occurrence) : Prop :=
  ∀ {α : Type} {kind : Occurrence → Option α}, OfRounds kind →
    w.OthersLog h (fun e => kind (.logged e) = none) → happened.filterMap kind = []

theorem OfRounds.entered {α : Type} {kind : Occurrence → Option α} (of : OfRounds kind)
    (before after : Stage) : kind (EventPipeline.entered before after) = none := of.entries _ rfl

theorem ofRounds_answer? : OfRounds Occurrence.answer? := by constructor <;> intros <;> rfl

theorem ofRounds_commit? : OfRounds Occurrence.commit? := by constructor <;> intros <;> rfl

theorem ofRounds_pause? : OfRounds Occurrence.pause? := by constructor <;> intros <;> rfl

theorem ofRounds_progress? : OfRounds Occurrence.progress? := by
  constructor
  case entries =>
    intro e untold
    cases e <;> first
      | rfl
      | cases untold
  all_goals intros; rfl

theorem ofRounds_announcement? : OfRounds Occurrence.announcement? := by
  constructor
  case entries =>
    intro e untold
    cases e <;> first
      | rfl
      | cases untold
  all_goals intros; rfl

variable {h : Host ω κ} {w : Worker ω}

/-- Of a kind that is no entry nobody logs anything. -/
theorem othersLog_of_unlogged {P : LogEntry → Prop} (all : ∀ e, P e) : w.OthersLog h P :=
  ⟨fun _ e _ => all e, fun _ _ e _ => all e, fun _ _ _ e _ => all e, fun _ _ e _ => all e,
    fun _ _ _ _ e _ => all e, fun _ _ e _ => all e⟩

theorem OthersLog.mono {P Q : LogEntry → Prop} (others : w.OthersLog h P) (weaker : ∀ e, P e → Q e) :
    w.OthersLog h Q where
  connect world e mem := weaker e (others.connect world e mem)
  poll c world e mem := weaker e (others.poll c world e mem)
  commit c d world e mem := weaker e (others.commit c d world e mem)
  close c world e mem := weaker e (others.close c world e mem)
  handlers a accepted event world e mem := weaker e (others.handlers a accepted event world e mem)
  sink record world e mem := weaker e (others.sink record world e mem)

namespace Quiet

variable {happened : List Occurrence}

theorem unpolled (quiet : w.Quiet h happened) : happened.filterMap Occurrence.answer? = [] :=
  quiet ofRounds_answer? (othersLog_of_unlogged fun _ => rfl)

theorem uncommitted (quiet : w.Quiet h happened) : happened.filterMap Occurrence.commit? = [] :=
  quiet ofRounds_commit? (othersLog_of_unlogged fun _ => rfl)

theorem unpaused (quiet : w.Quiet h happened) : happened.filterMap Occurrence.pause? = [] :=
  quiet ofRounds_pause? (othersLog_of_unlogged fun _ => rfl)

theorem unreported (quiet : w.Quiet h happened) (alone : w.CountsAlone h) :
    happened.filterMap Occurrence.progress? = [] ∧
      happened.filterMap Occurrence.announcement? = [] :=
  ⟨quiet ofRounds_progress? (alone.mono ofRounds_progress?.entries),
    quiet ofRounds_announcement? (alone.mono ofRounds_announcement?.entries)⟩

end Quiet

section Step

variable {s s' : WorkerState κ} {world world' : ω} {happened : List Occurrence}

/-- Between its polls and commits a worker sees nothing that it sees there only. -/
theorem quiet_step (made : w.step h s world = (s', world', happened))
    (unwaiting : ∀ c, s.phase ≠ .waiting c) (unsettling : ∀ c d outcome, s.phase ≠ .settling c d outcome) :
    w.Quiet h happened := by
  intro α kind of others
  have same : (w.step h s world).2.2 = happened := congrArg (fun stepped => stepped.2.2) made
  have skipped (e : LogEntry) (none : kind (.logged e) = none) := none
  have publishing (e : LogEntry) (tells : e.tellsOfPublishing = true) : kind (.logged e) = none := by
    apply of.entries
    cases e <;> first
      | rfl
      | cases tells
  cases does_step made
  case fetched | timedOut | pollStopped | pollFailed => exact absurd rfl (unwaiting _)
  case committed | commitFailed | commitStopped => exact absurd rfl (unsettling _ _ _)
  case misrouted | escalated | notEscalated =>
    rw [← same]
    exact entries_escalate others skipped publishing of.published ..
  case buried | notBuried =>
    rw [← same]
    exact entries_bury others skipped publishing of.published ..
  case closed answer =>
    have told := OthersLog.filterMap_logged skipped (others.close _ world) answer
    simp [-List.filterMap_eq_nil_iff, told, of.entered, of.closed, of.stopped]
  case gaveUp answer =>
    have told := OthersLog.filterMap_logged skipped (others.close _ world) answer
    simp [-List.filterMap_eq_nil_iff, told, of.entered, of.closed, of.failed]
  case connected answer =>
    have told := OthersLog.filterMap_logged skipped (others.connect world) answer
    simp [-List.filterMap_eq_nil_iff, told, of.entered, of.connected,
      of.entries .workerStarting rfl]
  case refused answer =>
    have told := OthersLog.filterMap_logged skipped (others.connect world) answer
    simp [-List.filterMap_eq_nil_iff, told, of.connected,
      of.entries .workerStarting rfl, of.entries (.openFailed _) rfl]
  case accepted next answer =>
    have told := OthersLog.filterMap_logged skipped (others.handler next _ world) answer
    simp [-List.filterMap_eq_nil_iff, told, of.offered]
  case failed next answer =>
    have told := OthersLog.filterMap_logged skipped (others.handler next _ world) answer
    simp [-List.filterMap_eq_nil_iff, told, of.offered,
      of.entries (.handlerFailed ..) rfl]
  case stopped | empty | malformed | lost | unrouted => exact List.filterMap_cons_none (of.entries _ rfl)
  case proceeded | routed | handled | rested => rfl

theorem quiet_logged {β : Type} {stepped : β × ω × List LogEntry} {b : β} {log : List LogEntry}
    (answer : stepped = (b, world', log))
    (logs : ∀ {P : LogEntry → Prop}, w.OthersLog h P → ∀ e ∈ stepped.2.2, P e) :
    w.Quiet h (logged log) := by
  intro α kind of others
  subst answer
  exact filterMap_logged (logs others)

theorem Quiet.append {first second : List Occurrence} (quiet : w.Quiet h first)
    (quiet' : w.Quiet h second) : w.Quiet h (first ++ second) := by
  intro α kind of others
  rw [List.filterMap_append, quiet of others, quiet' of others]
  rfl

theorem quiet_entry {e : LogEntry} (untold : e.tellsOfCounts = false) : w.Quiet h [.logged e] :=
  fun of _ => List.filterMap_cons_none (of.entries e untold)

theorem any_isFailure_iff : happened.any Occurrence.isFailure = true ↔ Fails happened := by
  rw [List.any_eq_true]
  constructor
  · rintro ⟨o, mem, failure⟩
    cases o <;> try cases failure
    case offered name e result =>
      cases result
      · exact ⟨name, e, _, mem⟩
      · cases failure
  · rintro ⟨name, e, f, mem⟩
    exact ⟨_, mem, rfl⟩

/-- A handler is called only while an event is offered. -/
theorem Does.calm (does : Does h w s world s' world' happened) (unopen : ¬ s.phase.IsOpen) :
    happened.any Occurrence.isFailure = false := by
  rw [Bool.eq_false_iff, Ne, any_isFailure_iff]
  rintro ⟨name, e, f, offers⟩
  obtain ⟨c, d, r, ran, l, log, offering, -⟩ := does.offered offers
  rw [offering] at unopen
  exact unopen trivial

/-- A poll brings a message, or no message comes and the worker goes on or leaves. -/
theorem step_of_waiting (made : w.step h s world = (s', world', happened)) {c : κ}
    (waiting : s.phase = .waiting c) :
    ∃ answer rest, happened = .polled w.settings.pollTimeout answer :: rest ∧ w.Quiet h rest ∧
      s'.stats = s.stats ∧ s'.streak = s.streak ∧
      ((∃ c' d, answer = .ok (some d) ∧ s'.phase = .received c' d) ∨
        (⟨answer, rest⟩ : Turn).message? = none ∧ s'.phase.held? = none ∧ ¬ s'.phase.IsTorn) := by
  cases does_step made <;> cases waiting
  case fetched answer =>
    exact ⟨_, _, rfl, quiet_logged answer fun others => others.poll c world, rfl, rfl,
      .inl ⟨_, _, rfl, rfl⟩⟩
  case timedOut answer =>
    exact ⟨_, _, rfl, quiet_logged answer fun others => others.poll c world, rfl, rfl,
      .inr ⟨rfl, rfl, nofun⟩⟩
  case pollStopped answer =>
    exact ⟨_, _, rfl, quiet_logged answer fun others => others.poll c world, rfl, rfl,
      .inr ⟨rfl, rfl, nofun⟩⟩
  case pollFailed answer =>
    exact ⟨_, _, rfl, Quiet.append (quiet_logged answer fun others => others.poll c world)
      (quiet_entry rfl), rfl, rfl, .inr ⟨rfl, rfl, nofun⟩⟩

/-- A message is counted and committed, and what comes then depends on the answer to the commit. -/
theorem step_of_settling (made : w.step h s world = (s', world', happened)) {c : κ} {d : Delivery}
    {outcome : Outcome} (settling : s.phase = .settling c d outcome) :
    s'.stats = s.stats.record outcome ∧ s'.streak = nextStreak s.streak outcome ∧
    s'.phase.held? = none ∧ ∃ answer first,
      happened = .settled d outcome :: .committed d answer ::
        (first ++ w.closing (stopsConsumer answer) outcome s'.stats s'.streak) ∧
      w.Quiet h first ∧
      ((w.asked? (stopsConsumer answer) outcome s'.streak).any w.timer.outlastedBy = true ↔
        s'.phase.IsTorn) := by
  cases does_step made <;> cases settling
  case committed answer =>
    refine ⟨rfl, rfl, w.held?_resume .., .ok (), _, ?_,
      Quiet.append (quiet_logged answer fun others => others.commit c d world)
        (quiet_entry (e := .offsetCommitted d.topic d.partition d.offset) rfl), ?_⟩
    · simp [closing, stopsConsumer]
    · exact (w.isTorn_resume ..).symm
  case commitFailed e log passing answer =>
    have passing : stopsConsumer (.error e) = false := passing
    refine ⟨rfl, rfl, w.held?_resume .., .error e, _, ?_,
      Quiet.append (quiet_logged answer fun others => others.commit c d world)
        (quiet_entry (e := .commitFailed e d.topic d.offset) rfl), ?_⟩
    · simp [closing, passing]
    · rw [passing]
      exact (w.isTorn_resume ..).symm
  case commitStopped e log fatal answer =>
    have fatal : stopsConsumer (.error e) = true := fatal
    refine ⟨rfl, rfl, rfl, .error e, _, ?_,
      quiet_logged answer fun others => others.commit c d world, ?_⟩
    · simp [closing, fatal]
    · rw [fatal]
      exact iff_of_false Bool.false_ne_true nofun

/-! ### Every step keeps to the turns -/

/-- What happens quietly after a turn belongs to the same turn. -/
theorem Kept.quietly {turns : List Turn} {stats : Stats} {streak : Nat} {pause? : Option Duration}
    (kept : w.Kept h turns stats streak pause?) (quiet : w.Quiet h happened)
    (calm : happened.any Occurrence.isFailure = false) :
    w.Kept h (happened.foldl Turn.add turns) stats streak pause? := by
  cases kept with
  | start =>
    rw [Turn.foldl_add_nil quiet.unpolled]
    exact .start
  | @idles turns t _ _ _ earlier bearable idles =>
    rw [Turn.foldl_add_concat quiet.unpolled]
    refine .idles earlier bearable ⟨idles.nothing, ?_, ?_, ?_, fun alone => ⟨?_, ?_⟩⟩
    · simpa [Turn.fails, calm] using idles.fails
    · simpa [Turn.commits, quiet.uncommitted] using idles.commits
    · simpa [Turn.pauses, quiet.unpaused] using idles.pauses
    · simpa [Turn.progress, (quiet.unreported alone).1] using (idles.reports alone).1
    · simpa [Turn.announced, (quiet.unreported alone).2] using (idles.reports alone).2
  | @serves turns t _ _ _ d outcome earlier bearable serves =>
    rw [Turn.foldl_add_concat quiet.unpolled]
    have commits : (⟨t.answer, t.happened ++ happened⟩ : Turn).commits = t.commits := by
      simp [Turn.commits, quiet.uncommitted]
    have breaks : (⟨t.answer, t.happened ++ happened⟩ : Turn).breaks = t.breaks := by
      rw [Turn.breaks, commits, Turn.breaks]
    rw [← breaks]
    refine .serves earlier bearable ⟨serves.message, ?_, serves.drops, ?_, ?_, fun alone => ⟨?_, ?_⟩⟩
    · simpa [Turn.fails, calm] using serves.fails
    · rw [commits]
      exact serves.commits
    · rw [breaks, ← serves.pauses]
      simp [Turn.pauses, quiet.unpaused]
    · rw [breaks, ← (serves.reports alone).1]
      simp [Turn.progress, (quiet.unreported alone).1]
    · rw [breaks, ← (serves.reports alone).2]
      simp [Turn.announced, (quiet.unreported alone).2]

/-- A message that is not settled stays so while nothing but its dispatch happens. -/
theorem Holds.quietly {t : Turn} {d : Delivery} {failed failed' : Prop} (holds : w.Holds h t d failed)
    (quiet : w.Quiet h happened) (fails : failed' ↔ failed ∨ Fails happened) :
    w.Holds h ⟨t.answer, t.happened ++ happened⟩ d failed' := by
  refine ⟨holds.message, ?_, ?_, ?_, fun alone => ⟨?_, ?_⟩⟩
  · rw [fails, ← holds.fails, ← any_isFailure_iff, Turn.fails, List.any_append, Bool.or_eq_true,
      Turn.fails]
  · simpa [Turn.commits, quiet.uncommitted] using holds.commits
  · simpa [Turn.pauses, quiet.unpaused] using holds.pauses
  · simpa [Turn.progress, (quiet.unreported alone).1] using (holds.reports alone).1
  · simpa [Turn.announced, (quiet.unreported alone).2] using (holds.reports alone).2

theorem idles_of_quiet {answer : Except BrokerError (Option Delivery)}
    (nothing : (⟨answer, happened⟩ : Turn).message? = none) (quiet : w.Quiet h happened)
    (calm : happened.any Occurrence.isFailure = false) : w.Idles h ⟨answer, happened⟩ where
  nothing := nothing
  fails := calm
  commits := congrArg (List.map Prod.snd) quiet.uncommitted
  pauses := quiet.unpaused
  reports := quiet.unreported

theorem holds_of_quiet {d : Delivery} (quiet : w.Quiet h happened)
    (calm : happened.any Occurrence.isFailure = false) :
    w.Holds h ⟨.ok (some d), happened⟩ d False where
  message := rfl
  fails := iff_false_intro (Bool.eq_false_iff.mp calm)
  commits := congrArg (List.map Prod.snd) quiet.uncommitted
  pauses := quiet.unpaused
  reports := quiet.unreported

theorem unpolled_closing (w : Worker ω) (stops : Bool) (outcome : Outcome) (stats : Stats)
    (streak : Nat) :
    (w.closing stops outcome stats streak).filterMap Occurrence.answer? = [] ∧
      (w.closing stops outcome stats streak).filterMap Occurrence.commit? = [] ∧
      (w.closing stops outcome stats streak).any Occurrence.isFailure = false := by
  unfold closing
  split
  · exact ⟨rfl, rfl, rfl⟩
  · refine ⟨w.filterMap_afterCommit outcome stats streak (fun _ => rfl) (fun _ _ => rfl) fun _ => rfl,
      w.filterMap_commit?_afterCommit .., ?_⟩
    rw [Bool.eq_false_iff, Ne, any_isFailure_iff]
    rintro ⟨_, _, _, offers⟩
    exact not_mem_afterCommit offers

/-- The commit of a message ends what its turn is about. -/
theorem Holds.serves {t : Turn} {d : Delivery} {outcome : Outcome} {stats : Stats} {streak : Nat}
    {answer : Except BrokerError Unit} {first : List Occurrence}
    (holds : w.Holds h t d (outcome.isFailure = true)) (drops : outcome.backsOff = !w.drops d)
    (quiet : w.Quiet h first) (calm : first.any Occurrence.isFailure = false) {u : Turn}
    (same : u.answer = t.answer)
    (then_ : u.happened = t.happened ++ .settled d outcome :: .committed d answer ::
      (first ++ w.closing (stopsConsumer answer) outcome stats streak)) :
    w.Serves h u d outcome stats streak ∧ u.breaks = stopsConsumer answer := by
  obtain ⟨-, uncommitted, calm'⟩ := w.unpolled_closing (stopsConsumer answer) outcome stats streak
  -- what the message has seen of a kind that begins with its commit is what the end of the turn shows
  have ends {α : Type} {kind : Occurrence → Option α} (before : t.happened.filterMap kind = [])
      (skipped : first.filterMap kind = []) (unsettled : kind (.settled d outcome) = none) :
      u.happened.filterMap kind = (kind (.committed d answer)).toList ++
        (w.closing (stopsConsumer answer) outcome stats streak).filterMap kind := by
    rw [then_, List.filterMap_append, before, List.nil_append, List.filterMap_cons_none unsettled,
      List.filterMap_cons, List.filterMap_append, skipped, List.nil_append]
    cases kind (.committed d answer) <;> rfl
  have commits : u.commits = [answer] := by
    rw [Turn.commits, ends (List.map_eq_nil_iff.mp holds.commits) quiet.uncommitted rfl, uncommitted]
    rfl
  have breaks : u.breaks = stopsConsumer answer := by
    rw [Turn.breaks, commits]
    exact Bool.or_false _
  refine ⟨⟨?_, ?_, drops, ⟨answer, commits⟩, ?_, fun alone => ⟨?_, ?_⟩⟩, breaks⟩
  · rw [Turn.message?, same]
    exact holds.message
  · have before : t.fails = outcome.isFailure := Bool.eq_iff_iff.mpr holds.fails
    rw [← before]
    simp only [Turn.fails, then_, List.any_append, List.any_cons, calm, calm', Occurrence.isFailure,
      Bool.or_false]
  · rw [breaks, Turn.pauses, ends holds.pauses quiet.unpaused rfl]
    rfl
  · rw [breaks, Turn.progress, ends (holds.reports alone).1 (quiet.unreported alone).1 rfl]
    rfl
  · rw [breaks, Turn.announced, ends (holds.reports alone).2 (quiet.unreported alone).2 rfl]
    rfl

theorem keeping_unheld {turns : List Turn} (unheld : s.phase.held? = none) :
    w.Keeping h turns s ↔ ∃ pause?, w.Kept h turns s.stats s.streak pause? ∧
      (pause?.any w.timer.outlastedBy = true ↔ s.phase.IsTorn) := by
  rw [Keeping, unheld]

theorem keeping_held {turns : List Turn} {c : κ} {d : Delivery}
    (held : s.phase.held? = some (c, d)) :
    w.Keeping h turns s ↔ ∃ before t pause?, turns = before ++ [t] ∧
      w.Kept h before s.stats s.streak pause? ∧ pause?.any w.timer.outlastedBy = false ∧
      w.Holds h t d s.phase.HasFailed := by
  rw [Keeping, held]

/-- A poll begins a turn. -/
theorem keeping_poll {turns : List Turn} (keeping : w.Keeping h turns s)
    (made : w.step h s world = (s', world', happened)) {c : κ} (waiting : s.phase = .waiting c) :
    w.Keeping h (happened.foldl Turn.add turns) s' := by
  obtain ⟨pause?, kept, torn⟩ := (keeping_unheld (by rw [waiting]; rfl)).mp keeping
  have bearable : pause?.any w.timer.outlastedBy = false := by
    rw [Bool.eq_false_iff, Ne, torn, waiting]
    exact nofun
  have calm := (does_step made).calm (by rw [waiting]; exact id)
  obtain ⟨answer, rest, rfl, quiet, stats, streak, next⟩ := step_of_waiting made waiting
  rw [Turn.foldl_add_polled quiet.unpolled]
  rw [← stats, ← streak] at kept
  rcases next with ⟨c', d, rfl, received⟩ | ⟨nothing, unheld, untorn⟩
  · refine (keeping_held (by rw [received]; rfl)).mpr ⟨turns, _, pause?, rfl, kept, bearable, ?_⟩
    rw [received]
    exact holds_of_quiet quiet calm
  · refine (keeping_unheld unheld).mpr ⟨none, .idles kept bearable ?_, ?_⟩
    · exact idles_of_quiet nothing quiet calm
    · exact iff_of_false Bool.false_ne_true untorn

/-- The commit of a message ends its turn. -/
theorem keeping_commit {turns : List Turn} (keeping : w.Keeping h turns s)
    (made : w.step h s world = (s', world', happened)) {c : κ} {d : Delivery} {outcome : Outcome}
    (settling : s.phase = .settling c d outcome) (drops : outcome.backsOff = !w.drops d) :
    w.Keeping h (happened.foldl Turn.add turns) s' := by
  obtain ⟨before, t, pause?, rfl, kept, bearable, holds⟩ :=
    (keeping_held (by rw [settling]; rfl)).mp keeping
  rw [settling] at holds
  have calm := (does_step made).calm (by rw [settling]; exact id)
  obtain ⟨stats, streak, unheld, answer, first, rfl, quiet, torn⟩ := step_of_settling made settling
  have calm' : first.any Occurrence.isFailure = false := by
    simp only [List.any_cons, List.any_append, Bool.or_eq_false_iff] at calm
    exact calm.2.2.1
  have unpolled : (.settled d outcome :: .committed d answer ::
      (first ++ w.closing (stopsConsumer answer) outcome s'.stats s'.streak)).filterMap
        Occurrence.answer? = [] := by
    rw [List.filterMap_cons_none rfl, List.filterMap_cons_none rfl, List.filterMap_append,
      quiet.unpolled, (w.unpolled_closing ..).1]
    rfl
  rw [Turn.foldl_add_concat unpolled]
  obtain ⟨serves, breaks⟩ := holds.serves drops quiet calm'
    (u := ⟨t.answer, t.happened ++ .settled d outcome :: .committed d answer ::
      (first ++ w.closing (stopsConsumer answer) outcome s'.stats s'.streak)⟩) rfl rfl
  rw [← breaks] at torn
  rw [stats, streak] at serves torn
  rw [keeping_unheld unheld, stats, streak]
  exact ⟨_, .serves kept bearable serves, torn⟩

/-- Between its polls and commits a worker stays in its turn. -/
theorem keeping_rest {turns : List Turn} (keeping : w.Keeping h turns s)
    (made : w.step h s world = (s', world', happened)) (unwaiting : ∀ c, s.phase ≠ .waiting c)
    (unsettling : ∀ c d outcome, s.phase ≠ .settling c d outcome) :
    w.Keeping h (happened.foldl Turn.add turns) s' := by
  have quiet : w.Quiet h happened := quiet_step made unwaiting unsettling
  have does := does_step made
  have counts : s'.stats = s.stats ∧ s'.streak = s.streak := by
    cases does <;> first
      | exact ⟨rfl, rfl⟩
      | exact absurd rfl (unsettling _ _ _)
  by_cases unfinished : s.phase.IsOpen
  · obtain ⟨c, d, held⟩ := unfinished.held
    obtain ⟨before, t, pause?, rfl, kept, bearable, holds⟩ := (keeping_held held).mp keeping
    rw [Turn.foldl_add_concat quiet.unpolled, keeping_held ((does.held unfinished).trans held),
      counts.1, counts.2]
    exact ⟨before, _, pause?, rfl, kept, bearable,
      holds.quietly quiet (does.hasFailed unfinished)⟩
  · have calm := does.calm unfinished
    have unheld : s.phase.held? = none ∧ s'.phase.held? = none ∧
        (s'.phase.IsTorn ↔ s.phase.IsTorn) := by
      cases does <;> first
        | exact absurd trivial unfinished
        | exact absurd rfl (unwaiting _)
        | exact absurd rfl (unsettling _ _ _)
        | exact ⟨rfl, rfl, by simp [Phase.IsTorn]⟩
    obtain ⟨pause?, kept, torn⟩ := (keeping_unheld unheld.1).mp keeping
    rw [keeping_unheld unheld.2.1, counts.1, counts.2, unheld.2.2]
    exact ⟨pause?, kept.quietly quiet calm, torn⟩

/-- Every step keeps to the turns that a worker can take. -/
theorem keeping_step {turns : List Turn} (keeping : w.Keeping h turns s)
    (made : w.step h s world = (s', world', happened))
    (drops : ∀ c d outcome, s.phase = .settling c d outcome → outcome.backsOff = !w.drops d) :
    w.Keeping h (happened.foldl Turn.add turns) s' := by
  by_cases waits : ∃ c, s.phase = .waiting c
  · obtain ⟨c, waiting⟩ := waits
    exact keeping_poll keeping made waiting
  by_cases settles : ∃ c d outcome, s.phase = .settling c d outcome
  · obtain ⟨c, d, outcome, settling⟩ := settles
    exact keeping_commit keeping made settling (drops c d outcome settling)
  exact keeping_rest keeping made (fun c waiting => waits ⟨c, waiting⟩)
    fun c d outcome settling => settles ⟨c, d, outcome, settling⟩

end Step

/-- What a worker does from its start are turns that it can take. -/
theorem Makes.keeping {s : WorkerState κ} {moves : List (Move ω κ)}
    (run : w.Makes h .initial moves s) : w.Keeping h (turns moves) s := by
  induction run with
  | start => exact ⟨none, .start, iff_of_false Bool.false_ne_true nofun⟩
  | step run made ih =>
    rw [turns_snoc]
    apply keeping_step ih made
    intro c d outcome settling
    obtain ⟨-, dispatch, -, dispatches⟩ := run.dispatches rfl (congrArg Phase.held? settling)
    exact (dispatches.concludes settling).backsOff

/-- What a worker sees at its polls and commits only, it sees in its turns. -/
theorem Makes.observed_turns {s : WorkerState κ} {moves : List (Move ω κ)}
    (run : w.Makes h .initial moves s) {α : Type} {kind : Occurrence → Option α} (of : OfRounds kind)
    (others : w.OthersLog h fun e => kind (.logged e) = none)
    (unpolled : ∀ timeout answer, kind (.polled timeout answer) = none) :
    observed kind moves = (turns moves).flatMap fun t => t.happened.filterMap kind := by
  induction run with
  | start => rfl
  | @step moves s s' world world' happened run made ih =>
    rw [observed_snoc, turns_snoc, ih]
    rcases List.eq_nil_or_concat (turns moves) with first | ⟨before, t, last⟩
    · rw [first]
      by_cases waits : ∃ c, s.phase = .waiting c
      · obtain ⟨c, waiting⟩ := waits
        obtain ⟨answer, rest, rfl, -⟩ := step_of_waiting made waiting
        have single := Turn.flatMap_foldl_add unpolled rest [] ⟨answer, []⟩
        rw [List.filterMap_cons_none (unpolled _ _)]
        exact single.symm
      · have unsettling (c : κ) (d : Delivery) (outcome : Outcome) :
            s.phase ≠ .settling c d outcome := by
          intro settling
          obtain ⟨before, t, -, more, -⟩ :=
            (keeping_held (congrArg Phase.held? settling)).mp run.keeping
          rw [first] at more
          exact List.append_ne_nil_of_right_ne_nil _ (List.cons_ne_nil _ _) more.symm
        have quiet : w.Quiet h happened :=
          quiet_step made (fun c waiting => waits ⟨c, waiting⟩) unsettling
        rw [quiet of others, Turn.foldl_add_nil quiet.unpolled]
        rfl
    · rw [last, List.concat_eq_append, Turn.flatMap_foldl_add unpolled]

/-- A turn follows turns that the worker could take, and either no message came in it or one was
served. -/
theorem Kept.last_cases {before : List Turn} {t : Turn} {stats : Stats} {streak : Nat}
    {pause? : Option Duration} (kept : w.Kept h (before ++ [t]) stats streak pause?) :
    ∃ stats' streak' pause'?, w.Kept h before stats' streak' pause'? ∧
      pause'?.any w.timer.outlastedBy = false ∧
      (w.Idles h t ∧ stats = stats' ∧ streak = streak' ∧ pause? = none ∨
        ∃ d outcome, w.Serves h t d outcome stats streak ∧ stats = stats'.record outcome ∧
          streak = nextStreak streak' outcome ∧ pause? = w.asked? t.breaks outcome streak) := by
  generalize whole : before ++ [t] = turns at kept
  cases kept with
  | start => exact absurd whole (List.append_ne_nil_of_right_ne_nil _ (List.cons_ne_nil _ _))
  | idles earlier bearable idles =>
    obtain ⟨rfl, same⟩ := List.append_inj' whole rfl
    cases same
    exact ⟨_, _, _, earlier, bearable, .inl ⟨idles, rfl, rfl, rfl⟩⟩
  | serves earlier bearable serves =>
    obtain ⟨rfl, same⟩ := List.append_inj' whole rfl
    cases same
    exact ⟨_, _, _, earlier, bearable, .inr ⟨_, _, serves, rfl, rfl, rfl⟩⟩

theorem Kept.earlier {before after : List Turn} {t : Turn} {stats : Stats} {streak : Nat}
    {pause? : Option Duration} (kept : w.Kept h (before ++ t :: after) stats streak pause?) :
    ∃ stats streak pause?, w.Kept h before stats streak pause? ∧
      pause?.any w.timer.outlastedBy = false := by
  induction after using List.reverseRecOn generalizing stats streak pause? with
  | nil =>
    obtain ⟨_, _, _, earlier, bearable, -⟩ := kept.last_cases
    exact ⟨_, _, _, earlier, bearable⟩
  | append_singleton after last ih =>
    rw [← List.cons_append, ← List.append_assoc] at kept
    obtain ⟨_, _, _, earlier, -⟩ := kept.last_cases
    exact ih earlier

/-- The turns up to one of them are turns that the worker can take, and nothing comes after a pause that
outlasts the clock. -/
theorem Kept.upto {before after : List Turn} {t : Turn} {stats : Stats} {streak : Nat}
    {pause? : Option Duration} (kept : w.Kept h (before ++ t :: after) stats streak pause?) :
    ∃ stats' streak' pause'?, w.Kept h (before ++ [t]) stats' streak' pause'? ∧
      (pause'?.any w.timer.outlastedBy = true → after = [] ∧ pause'? = pause?) := by
  cases after with
  | nil => exact ⟨_, _, _, kept, fun _ => ⟨rfl, rfl⟩⟩
  | cons t' after =>
    rw [List.append_cons] at kept
    obtain ⟨stats', streak', pause'?, earlier, bearable⟩ := kept.earlier
    refine ⟨stats', streak', pause'?, earlier, fun outlasts => ?_⟩
    rw [bearable] at outlasts
    cases outlasts

/-- A turn of a worker is at a message that is not settled and is the last one, or it is one that the
worker could take; and if it ended with a pause that outlasts the clock, that tore the worker down. -/
theorem Makes.turn_cases {s : WorkerState κ} {moves : List (Move ω κ)}
    (run : w.Makes h .initial moves s) {before after : List Turn} {t : Turn}
    (split : turns moves = before ++ t :: after) :
    (∃ d failed, w.Holds h t d failed ∧ after = []) ∨
      ∃ stats streak pause?, w.Kept h (before ++ [t]) stats streak pause? ∧
        (pause?.any w.timer.outlastedBy = true → s.phase.IsTorn ∧ after = []) := by
  have keeping := run.keeping
  rw [split] at keeping
  cases held : s.phase.held? with
  | none =>
    obtain ⟨pause?, kept, torn⟩ := (keeping_unheld held).mp keeping
    obtain ⟨stats, streak, pause'?, kept, last⟩ := kept.upto
    refine .inr ⟨stats, streak, pause'?, kept, fun outlasts => ?_⟩
    obtain ⟨ended, rfl⟩ := last outlasts
    exact ⟨torn.mp outlasts, ended⟩
  | some held' =>
    obtain ⟨before', t', pause?, whole, kept, bearable, holds⟩ := (keeping_held held).mp keeping
    rcases List.eq_nil_or_concat after with rfl | ⟨after, last, rfl⟩
    · obtain ⟨-, same⟩ := List.append_inj' whole rfl
      cases same
      exact .inl ⟨_, _, holds, rfl⟩
    · rw [List.concat_eq_append, ← List.cons_append, ← List.append_assoc] at whole
      obtain ⟨rfl, -⟩ := List.append_inj' whole rfl
      obtain ⟨stats, streak, pause'?, kept, last⟩ := kept.upto
      refine .inr ⟨stats, streak, pause'?, kept, fun outlasts => ?_⟩
      obtain ⟨-, rfl⟩ := last outlasts
      rw [bearable] at outlasts
      cases outlasts

end Worker

end EventPipeline
