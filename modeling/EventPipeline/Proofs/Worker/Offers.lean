import EventPipeline.Proofs.Registry.Reserved
import EventPipeline.Proofs.Worker.Settlements

/-! # Which handlers a dispatch calls

A dispatch first looks whether there is an event, then whom it is meant for, and only then calls
handlers: those of the listeners that it is meant for, one after another, until one fails or all have
had the event (`AskedInTurn`). `Underway` says for each phase of a dispatch which moves led to it, and
every step keeps it; what became of the message is read off at the end (`Worker.Dispatches.offers`).
-/

namespace EventPipeline

variable {ω κ : Type}

/-- A move that calls no handler, hands no record to the sink and leaves the world as it found it. -/
structure Move.Idle (m : Move ω κ) : Prop where
  still : m.left = m.found
  uncalled : m.happened.filterMap Occurrence.offer? = []
  unpublished : m.happened.filterMap Occurrence.record? = []

/-- A move that calls the handler of this listener with this event, and does nothing else to the world. -/
structure Move.Asks (m : Move ω κ) (l : Listener (Handler ω)) (e : Envelope)
    (result : Except Failure Unit) : Prop where
  called : ∃ log, l.handler.handle e m.found = (result, m.left, log)
  alone : m.happened.filterMap Occurrence.offer? = [(l.handler.name, e)]
  unpublished : m.happened.filterMap Occurrence.record? = []

/-- The moves ask these listeners in turn, one each, until one fails or all have been asked. -/
inductive AskedInTurn (e : Envelope) :
    List (Listener (Handler ω)) → List (Move ω κ) → Option Failure → Prop where
  | done : AskedInTurn e [] [] none
  | accepted {l : Listener (Handler ω)} {ls : List (Listener (Handler ω))} {m : Move ω κ}
    {moves : List (Move ω κ)} {failure? : Option Failure} (asks : m.Asks l e (.ok ()))
    (rest : AskedInTurn e ls moves failure?) : AskedInTurn e (l :: ls) (m :: moves) failure?
  | failed {l : Listener (Handler ω)} {ls : List (Listener (Handler ω))} {m : Move ω κ} {f : Failure}
    (asks : m.Asks l e (.error f)) : AskedInTurn e (l :: ls) [m] (some f)

namespace AskedInTurn

variable {e : Envelope} {l : Listener (Handler ω)} {ls more : List (Listener (Handler ω))}
  {m : Move ω κ} {moves later : List (Move ω κ)} {failure? : Option Failure}

/-- Listeners that have all accepted the event may be followed by others. -/
theorem append (asked : AskedInTurn e ls moves none) (next : AskedInTurn e more later failure?) :
    AskedInTurn e (ls ++ more) (moves ++ later) failure? := by
  -- that nobody has failed so far goes through the induction as an equation
  generalize accepting : (none : Option Failure) = first at asked
  induction asked with
  | done => exact next
  | accepted asks _ ih => exact .accepted asks (ih accepting)
  | failed => cases accepting

theorem next_accepts {ran : Nat} (asked : AskedInTurn e (ls.take ran) moves none)
    (next : ls[ran]? = some l) (asks : m.Asks l e (.ok ())) :
    AskedInTurn e (ls.take (ran + 1)) (moves ++ [m]) none := by
  rw [List.take_add_one, next]
  exact asked.append (.accepted asks .done)

theorem next_fails {ran : Nat} {f : Failure} (asked : AskedInTurn e (ls.take ran) moves none)
    (next : ls[ran]? = some l) (asks : m.Asks l e (.error f)) :
    AskedInTurn e ls (moves ++ [m]) (some f) := by
  have split : ls = ls.take ran ++ l :: ls.drop (ran + 1) := by
    obtain ⟨among, rfl⟩ := List.getElem?_eq_some_iff.mp next
    rw [← List.drop_eq_getElem_cons, List.take_append_drop]
  rw [split]
  exact asked.append (.failed asks)

theorem unpublished (asked : AskedInTurn e ls moves failure?) : published moves = [] := by
  induction asked with
  | done => rfl
  | accepted asks _ ih => rw [published_cons, asks.unpublished, ih, List.append_nil]
  | failed asks => rw [published_singleton, asks.unpublished]

end AskedInTurn

/-- The event was offered to these listeners in turn, up to the failure if there was one, and the
dispatch came out accordingly. -/
structure OfferedTo (e : Envelope) (ls : List (Listener (Handler ω))) (moves : List (Move ω κ))
    (outcome : Outcome) (failure? : Option Failure) : Prop where
  /-- Between looking at the message and the end of the dispatch the listeners are asked, and nobody is
  asked at any other time. -/
  asked : ∃ first asked last, moves = first :: (asked ++ [last]) ∧ first.Idle ∧
    AskedInTurn e ls asked failure? ∧ last.happened.filterMap Occurrence.offer? = []
  unrouted : outcome = .unrouted ↔ ls = []
  handled : ∀ n, outcome = .handled n ↔ ls ≠ [] ∧ failure? = none ∧ n = ls.length
  failed : (∃ path, outcome = .escalated path) ∨ outcome = .escalationFailed ↔ failure? ≠ none
  /-- Only an event that failed is handed to the sink. -/
  unpublished : failure? = none → published moves = []

namespace Worker

/-- What a dispatch has done with a message that ended in this way. -/
inductive Concludes (w : Worker ω) (d : Delivery) : List (Move ω κ) → Outcome → Prop where
  | empty {only : Move ω κ} (absent : d.content? = none) (idle : only.Idle) :
    Concludes w d [only] .empty
  | malformed {only : Move ω κ} {bs : Octets} {error : Json.Error} (present : d.content? = some bs)
    (unread : Envelope.read bs = .error error) (idle : only.Idle) : Concludes w d [only] .malformed
  | orphaned {first last : Move ω κ} {e : Envelope} (orphan : w.Orphans d e) (idle : first.Idle)
    (uncalled : last.happened.filterMap Occurrence.offer? = []) :
    Concludes w d [first, last] .orphaned
  | unrouted {first last : Move ω κ} {r : Routed} (routes : w.Routes d r) (idle : first.Idle)
    (nobody : w.listenersFor r = []) (still : last.Idle) : Concludes w d [first, last] .unrouted
  | handled {first last : Move ω κ} {asked : List (Move ω κ)} {r : Routed} (routes : w.Routes d r)
    (idle : first.Idle) (somebody : w.listenersFor r ≠ [])
    (all : AskedInTurn r.event (w.listenersFor r) asked none) (still : last.Idle) :
    Concludes w d (first :: (asked ++ [last])) (.handled (w.listenersFor r).length)
  | failed {first last : Move ω κ} {asked : List (Move ω κ)} {r : Routed} {f : Failure}
    {outcome : Outcome} (routes : w.Routes d r) (idle : first.Idle)
    (cut : AskedInTurn r.event (w.listenersFor r) asked (some f))
    (uncalled : last.happened.filterMap Occurrence.offer? = []) (failure : outcome.isFailure = true) :
    Concludes w d (first :: (asked ++ [last])) outcome

/-- The moves that a dispatch has made when it comes to a phase. -/
inductive Underway (w : Worker ω) (c : κ) (d : Delivery) : List (Move ω κ) → Phase κ → Prop where
  | received : Underway w c d [] (.received c d)
  | orphaned {first : Move ω κ} {e : Envelope} (orphan : w.Orphans d e) (idle : first.Idle) :
    Underway w c d [first] (.orphaned c d e)
  | offering {first : Move ω κ} {asked : List (Move ω κ)} {r : Routed} {ran : Nat}
    (routes : w.Routes d r) (idle : first.Idle) (among : ran ≤ (w.listenersFor r).length)
    (accepted : AskedInTurn r.event ((w.listenersFor r).take ran) asked none) :
    Underway w c d (first :: asked) (.offering c d r ran)
  | failing {first : Move ω κ} {asked : List (Move ω κ)} {r : Routed} {f : Failure}
    (routes : w.Routes d r) (idle : first.Idle)
    (cut : AskedInTurn r.event (w.listenersFor r) asked (some f)) :
    Underway w c d (first :: asked) (.failing c d r)
  | settling {moves : List (Move ω κ)} {outcome : Outcome} (concludes : Concludes w d moves outcome) :
    Underway w c d moves (.settling c d outcome)

variable {h : Host ω κ} {w : Worker ω} {c : κ} {d : Delivery} {moves : List (Move ω κ)}

section Step

variable {s s' : WorkerState κ} {world world' : ω} {happened : List Occurrence}

/-- Each step of a dispatch leads to the moves of the next phase. -/
theorem Underway.step (underway : Underway w c d moves s.phase) (unfinished : s.phase.IsOpen)
    (does : Does h w s world s' world' happened) :
    Underway w c d (moves ++ [⟨s, world, s', world', happened⟩]) s'.phase := by
  have uncalled := does.offers_eq_nil
  cases does <;> first
    | exact unfinished.elim
    | cases underway
  case empty.received absent =>
    exact .settling (.empty absent ⟨rfl, rfl, rfl⟩)
  case malformed.received unread present =>
    exact .settling (.malformed present unread ⟨rfl, rfl, rfl⟩)
  case lost.received orphan => exact .orphaned orphan ⟨rfl, rfl, rfl⟩
  case routed.received routes => exact .offering routes ⟨rfl, rfl, rfl⟩ (Nat.zero_le _) .done
  case unrouted.offering r nobody first asked idle routes among accepted =>
    -- nobody was asked, so the only move before this one is the first
    rw [List.take_zero] at accepted
    cases accepted
    have nobody : w.listenersFor r = [] :=
      List.eq_nil_of_length_eq_zero (Nat.le_zero.mp (List.getElem?_eq_none_iff.mp nobody))
    exact .settling (.unrouted routes idle nobody ⟨rfl, rfl, rfl⟩)
  case handled.offering r ran some done first asked idle routes among accepted =>
    have all : ran = (w.listenersFor r).length :=
      Nat.le_antisymm among (List.getElem?_eq_none_iff.mp done)
    subst all
    rw [List.take_length] at accepted
    exact .settling (.handled routes idle (List.length_pos_iff.mp (Nat.pos_of_ne_zero some))
      accepted ⟨rfl, rfl, rfl⟩)
  case accepted.offering r ran l log next answer first asked idle routes among accepted =>
    refine .offering routes idle (List.getElem?_eq_some_iff.mp next).1
      (accepted.next_accepts next ⟨⟨log, answer⟩, ?_, ?_⟩)
    · simp [-List.filterMap_eq_nil_iff, Occurrence.offer?]
    · simp [List.filterMap_cons, -List.filterMap_eq_nil_iff]
  case failed.offering r ran l f log next answer first asked idle routes among accepted =>
    refine .failing routes idle (accepted.next_fails next ⟨⟨log, answer⟩, ?_, ?_⟩)
    · simp [List.filterMap_cons, -List.filterMap_eq_nil_iff, Occurrence.offer?]
    · simp [List.filterMap_cons, -List.filterMap_eq_nil_iff]
  case misrouted.failing unplanned first asked f idle routes cut =>
    exact .settling (.failed routes idle cut rfl rfl)
  case escalated.failing first asked f idle _ routes cut =>
    refine .settling (.failed routes idle cut ?_ rfl)
    exact uncalled fun _ _ _ _ other => by cases other
  case notEscalated.failing first asked f idle _ routes cut =>
    refine .settling (.failed routes idle cut ?_ rfl)
    exact uncalled fun _ _ _ _ other => by cases other
  case buried.orphaned first idle _ orphan =>
    refine .settling (.orphaned orphan idle ?_)
    exact uncalled fun _ _ _ _ other => by cases other
  case notBuried.orphaned first idle _ orphan =>
    refine .settling (.orphaned orphan idle ?_)
    exact uncalled fun _ _ _ _ other => by cases other

end Step

variable {s : WorkerState κ}

theorem Dispatches.underway (run : Dispatches h w c d moves s) : Underway w c d moves s.phase := by
  induction run with
  | received => exact .received
  | step _ unfinished made ih => exact ih.step unfinished (does_step made)

/-- What a dispatch has done and can still do is bounded by the number of listeners. -/
theorem Dispatches.length_add_stepsLeft_le (run : Dispatches h w c d moves s) :
    moves.length + s.phase.stepsLeft w.registry.accepted.length ≤
      w.registry.accepted.length + 4 := by
  induction run with
  | received => exact Nat.le_of_eq (Nat.zero_add _)
  | step _ unfinished made ih =>
    have fewer := (does_step made).stepsLeft_lt unfinished
    rw [List.length_append, List.length_singleton]
    omega

theorem Dispatches.concludes (run : Dispatches h w c d moves s) {outcome : Outcome}
    (settling : s.phase = .settling c d outcome) : Concludes w d moves outcome := by
  have underway := run.underway
  rw [settling] at underway
  cases underway
  assumption

/-! ### By what the message is -/

/-- The worker of the retry topic cannot tell whose listeners failed on this event. -/
def Loses (w : Worker ω) (e : Envelope) : Prop :=
  w.group = w.failureTopics.retryGroup ∧ (e.originTopic = none ∨ e.originGroup = none)

theorem route?_of_loses {e : Envelope} (loses : w.Loses e) (d : Delivery) : w.route? d e = none := by
  have retry : w.isRetry = true := beq_iff_eq.mpr loses.1
  rw [route?, Envelope.origin?_eq_none_iff.mpr loses.2, retry]
  rfl

theorem route?_of_not_loses {e : Envelope} (keeps : ¬ w.Loses e) (d : Delivery) :
    w.route? d e = some (e.origin?.getD (w.group, d.topic)) := by
  unfold route?
  cases origin : e.origin? with
  | some => rfl
  | none =>
    have other : w.isRetry ≠ true := fun retry =>
      keeps ⟨beq_iff_eq.mp retry, Envelope.origin?_eq_none_iff.mp origin⟩
    exact if_neg other

/-- The listeners that an event of a message is meant for: those of its recorded origin, or else those
of the group and the topic that it was fetched from. -/
def meantFor (w : Worker ω) (d : Delivery) (e : Envelope) : List (Listener (Handler ω)) :=
  let (group, topic) := e.origin?.getD (w.group, d.topic)
  w.registry.matching group topic e.ns

/-- What a dispatch that came out in this way has done, by what its message is. -/
structure Treats (w : Worker ω) (d : Delivery) (moves : List (Move ω κ)) (outcome : Outcome) :
    Prop where
  /-- With a message that has no payload, or a blank one, nothing is done. -/
  blank : (∀ bs, d.payload = some bs → bs.all isBlankOctet = true) →
    outcome = .empty ∧ ∀ m ∈ moves, m.Idle
  /-- Neither with one that is no envelope. -/
  unreadable : ∀ bs error, d.payload = some bs → bs.all isBlankOctet = false →
    Envelope.read bs = .error error → outcome = .malformed ∧ ∀ m ∈ moves, m.Idle
  /-- An event of unknown origin on the retry topic is handed to the sink as it is, for the dead-letter
  topic, and to nobody else. -/
  lost : ∀ bs e, d.payload = some bs → Envelope.read bs = .ok e → w.Loses e →
    outcome = .orphaned ∧ (∀ m ∈ moves, m.happened.filterMap Occurrence.offer? = []) ∧
      (∃ answer, Republishes w d moves w.failureTopics.deadTopic e answer) ∧
      ∀ record ∈ published moves, record.topic ≠ w.failureTopics.retryTopic
  /-- Any other event is offered to the listeners that it is meant for. -/
  meant : ∀ bs e, d.payload = some bs → Envelope.read bs = .ok e → ¬ w.Loses e →
    ∃ failure?, OfferedTo e (w.meantFor d e) moves outcome failure?

theorem Routes.reads {r : Routed} (routes : w.Routes d r) :
    d.content?.map Envelope.read = some (.ok r.event) := by
  obtain ⟨bs, present, reads, -⟩ := routes
  rw [present, Option.map_some, reads]

theorem Orphans.reads {e : Envelope} (orphan : w.Orphans d e) :
    d.content?.map Envelope.read = some (.ok e) := by
  obtain ⟨bs, present, reads, -⟩ := orphan
  rw [present, Option.map_some, reads]

section Concludes

variable {outcome : Outcome}

theorem Concludes.of_absent (concludes : Concludes w d moves outcome) (absent : d.content? = none) :
    outcome = .empty ∧ ∀ m ∈ moves, m.Idle := by
  have nothing : d.content?.map Envelope.read = none := by rw [absent, Option.map_none]
  cases concludes with
  | empty _ idle => exact ⟨rfl, List.forall_mem_singleton.mpr idle⟩
  | malformed present => cases absent.symm.trans present
  | orphaned orphan => cases nothing.symm.trans orphan.reads
  | unrouted routes | handled routes | failed routes => cases nothing.symm.trans routes.reads

theorem Concludes.of_unreadable (concludes : Concludes w d moves outcome) {error : Json.Error}
    (unread : d.content?.map Envelope.read = some (.error error)) :
    outcome = .malformed ∧ ∀ m ∈ moves, m.Idle := by
  cases concludes with
  | empty absent =>
    rw [absent] at unread
    cases unread
  | malformed _ _ idle => exact ⟨rfl, List.forall_mem_singleton.mpr idle⟩
  | orphaned orphan => cases unread.symm.trans orphan.reads
  | unrouted routes | handled routes | failed routes => cases unread.symm.trans routes.reads

theorem Concludes.of_orphan (concludes : Concludes w d moves outcome) {e : Envelope}
    (orphan : w.Orphans d e) :
    outcome = .orphaned ∧ ∀ m ∈ moves, m.happened.filterMap Occurrence.offer? = [] := by
  cases concludes with
  | empty absent =>
    have reads := orphan.reads
    rw [absent] at reads
    cases reads
  | malformed present unread =>
    have reads := orphan.reads
    rw [present, Option.map_some, unread] at reads
    cases reads
  | orphaned _ idle uncalled =>
    refine ⟨rfl, ?_⟩
    intro m mem
    rcases List.mem_pair.mp mem with rfl | rfl
    · exact idle.uncalled
    · exact uncalled
  | unrouted routes | handled routes | failed routes => exact absurd orphan routes.not_orphans

theorem Concludes.of_routes (concludes : Concludes w d moves outcome) {r : Routed}
    (routes : w.Routes d r) : ∃ failure?, OfferedTo r.event (w.listenersFor r) moves outcome failure? := by
  cases concludes with
  | empty absent =>
    have reads := routes.reads
    rw [absent] at reads
    cases reads
  | malformed present unread =>
    have reads := routes.reads
    rw [present, Option.map_some, unread] at reads
    cases reads
  | orphaned orphan => exact absurd orphan routes.not_orphans
  | @unrouted first last _ routes' idle nobody still =>
    cases routes.unique routes'
    refine ⟨none, ⟨first, [], last, rfl, idle, nobody ▸ .done, still.uncalled⟩, ?_, ?_, ?_, ?_⟩
    · simp [nobody]
    · simp [nobody]
    · simp
    · simp [published_cons, idle.unpublished, still.unpublished]
  | @handled first last asked _ routes' idle somebody all still =>
    cases routes.unique routes'
    refine ⟨none, ⟨first, asked, last, rfl, idle, all, still.uncalled⟩, ?_, ?_, ?_, ?_⟩
    · simp [somebody]
    · simp [somebody, eq_comm]
    · simp
    · simp [published_cons, idle.unpublished, all.unpublished, still.unpublished]
  | @failed first last asked _ f _ routes' idle cut uncalled failure =>
    cases routes.unique routes'
    have somebody : w.listenersFor r ≠ [] := by
      intro nobody
      rw [nobody] at cut
      cases cut
    refine ⟨some f, ⟨first, asked, last, rfl, idle, cut, uncalled⟩, ?_, ?_, ?_, nofun⟩
    all_goals cases outcome <;> simp_all [Outcome.isFailure]

end Concludes

theorem Dispatches.treats (run : Dispatches h w c d moves s) {outcome : Outcome}
    (settling : s.phase = .settling c d outcome) : w.Treats d moves outcome := by
  have concludes := run.concludes settling
  refine ⟨?_, ?_, ?_, ?_⟩
  · intro blank
    exact concludes.of_absent (Delivery.content?_eq_none_iff.mpr blank)
  · intro bs error payload visible unread
    apply concludes.of_unreadable
    rw [Delivery.content?_eq_some_iff.mpr ⟨payload, visible⟩, Option.map_some, unread]
  · intro bs e payload reads loses
    have orphan : w.Orphans d e :=
      ⟨bs, Delivery.content?_of_read payload reads, reads, route?_of_loses loses d⟩
    obtain ⟨rfl, uncalled⟩ := concludes.of_orphan orphan
    obtain ⟨answer, buries⟩ := run.republishes_of_orphaned settling payload reads
    refine ⟨rfl, uncalled, ⟨answer, buries⟩, ?_⟩
    obtain ⟨_, _, _, _, -, single, -⟩ := buries
    rw [single, List.forall_mem_singleton]
    exact (FailureTopics.retryTopic_ne_deadTopic w.publisher.app).symm
  · intro bs e payload reads keeps
    exact concludes.of_routes (r := ⟨e, _, _⟩) ⟨bs, Delivery.content?_of_read payload reads, reads,
      route?_of_not_loses keeps d⟩

/-- Every dispatch comes to an end, within a number of steps that the listeners bound, and then its
outcome, the handlers that it called and the records that it handed to the sink are those that its
message asks for. -/
theorem Dispatches.offers_in_turn (run : Dispatches h w c d moves s) :
    moves.length + s.phase.stepsLeft w.registry.accepted.length ≤ w.registry.accepted.length + 4 ∧
    (s.phase.IsOpen ∧
        (∀ world, ∃ m, Dispatches h w c d (moves ++ [m]) (w.step h s world).1) ∨
      ∃ outcome, s.phase = .settling c d outcome ∧ w.Treats d moves outcome) := by
  refine ⟨run.length_add_stepsLeft_le, ?_⟩
  rcases Phase.open_or_settling run.held with unfinished | ⟨outcome, settling⟩
  · exact .inl ⟨unfinished, run.next unfinished⟩
  · exact .inr ⟨outcome, settling, run.treats settling⟩

/-- The event of the sample is offered to the broken handler, and to nobody else. -/
theorem sample_offers_in_turn :
    ∃ (moves : List (Move (Memory.World Unit) Memory.Consumer)) (s : WorkerState Memory.Consumer)
      (asked : Move (Memory.World Unit) Memory.Consumer) (l : Listener (Handler (Memory.World Unit))),
      Sample.worker.Dispatches Memory.World.host Sample.consumer Sample.message moves s ∧
      moves.length + s.phase.stepsLeft 1 ≤ 5 ∧
      s.phase = .settling Sample.consumer Sample.message (.escalated (.retry 1)) ∧
      asked ∈ moves ∧ l ∈ Sample.registry.listeners "billing" ∧
      asked.Asks l .blank (.error (.failed "broken")) := by
  obtain ⟨moves, s, run, settling⟩ := Sample.dispatches
  obtain ⟨bounded, ⟨unfinished, -⟩ | ⟨outcome, settling', treats⟩⟩ := run.offers_in_turn
  · rw [settling] at unfinished
    exact unfinished.elim
  · cases settling.symm.trans settling'
    have reads : Envelope.read (octetsOf "\x7b\x7d") = .ok .blank := rfl
    have keeps : ¬ Sample.worker.Loses .blank := by
      rintro ⟨retry, -⟩
      exact absurd retry (by decide)
    have one : Sample.worker.meantFor Sample.message .blank =
        [⟨["orders"], none, Sample.brokenHandler⟩] := rfl
    obtain ⟨failure?, ⟨first, asked, last, rfl, -, turn, -⟩, -⟩ := treats.meant _ _ rfl reads keeps
    rw [one] at turn
    cases turn with
    | accepted asks =>
      obtain ⟨_, called⟩ := asks.called
      cases (Prod.mk.inj called).1
    | @failed _ _ m _ asks =>
      obtain ⟨_, called⟩ := asks.called
      cases (Prod.mk.inj called).1
      exact ⟨_, s, m, _, run, bounded, settling, by simp, by simp [Sample.registry, Registry.listeners],
        asks⟩

end Worker

end EventPipeline
