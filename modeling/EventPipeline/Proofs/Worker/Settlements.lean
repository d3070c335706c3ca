import EventPipeline.Proofs.Worker.Calls

/-! # How messages are settled

A worker settles the messages that it has fetched, each after one dispatch of it, and counts how they
ended. A message that is dropped had no payload, or one that is no envelope.
-/

namespace EventPipeline

/-- A handler and the event that is offered to it. -/
def Occurrence.offer? : Occurrence → Option (String × Envelope)
  | .offered handler e _ => some (handler, e)
  | _ => none

/-- A message and how it ended. -/
def Occurrence.settlement? : Occurrence → Option (Delivery × Outcome)
  | .settled d outcome => some (d, outcome)
  | _ => none

/-- A message that was committed, and the answer. -/
def Occurrence.commit? : Occurrence → Option (Delivery × Except BrokerError Unit)
  | .committed d answer => some (d, answer)
  | _ => none

@[simp] theorem filterMap_offer?_logged (log : List LogEntry) :
    (logged log).filterMap Occurrence.offer? = [] := filterMap_logged fun _ _ => rfl

@[simp] theorem filterMap_settlement?_logged (log : List LogEntry) :
    (logged log).filterMap Occurrence.settlement? = [] := filterMap_logged fun _ _ => rfl

@[simp] theorem filterMap_commit?_logged (log : List LogEntry) :
    (logged log).filterMap Occurrence.commit? = [] := filterMap_logged fun _ _ => rfl

namespace Stats

/-- Every message counts once. -/
theorem total_record (stats : Stats) (outcome : Outcome) :
    (stats.record outcome).total = stats.total + 1 := by
  cases outcome <;> simp only [record, total] <;> omega

theorem total_foldl_record (stats : Stats) (outcomes : List Outcome) :
    (outcomes.foldl record stats).total = stats.total + outcomes.length := by
  induction outcomes generalizing stats with
  | nil => rfl
  | cons outcome outcomes ih =>
    rw [List.foldl_cons, ih, total_record, List.length_cons]
    omega

end Stats

namespace Worker

variable {ω : Type}

@[simp] theorem filterMap_offer?_afterCommit (w : Worker ω) (outcome : Outcome) (stats : Stats)
    (streak : Nat) : (w.afterCommit outcome stats streak).filterMap Occurrence.offer? = [] :=
  w.filterMap_afterCommit outcome stats streak (fun _ => rfl) (fun _ _ => rfl) fun _ => rfl

@[simp] theorem filterMap_settlement?_afterCommit (w : Worker ω) (outcome : Outcome) (stats : Stats)
    (streak : Nat) : (w.afterCommit outcome stats streak).filterMap Occurrence.settlement? = [] :=
  w.filterMap_afterCommit outcome stats streak (fun _ => rfl) (fun _ _ => rfl) fun _ => rfl

@[simp] theorem filterMap_commit?_afterCommit (w : Worker ω) (outcome : Outcome) (stats : Stats)
    (streak : Nat) : (w.afterCommit outcome stats streak).filterMap Occurrence.commit? = [] :=
  w.filterMap_afterCommit outcome stats streak (fun _ => rfl) (fun _ _ => rfl) fun _ => rfl

/-- A message has no event, or one that cannot be read, or one of unknown origin, or one that is meant
for somebody. -/
theorem examined_cases (w : Worker ω) (d : Delivery) :
    d.content? = none ∨
      (∃ bs e, d.content? = some bs ∧ Envelope.read bs = .error e) ∨
      (∃ e, w.Orphans d e) ∨ ∃ r, w.Routes d r := by
  cases present : d.content? with
  | none => exact .inl rfl
  | some bs =>
    cases reads : Envelope.read bs with
    | error e => exact .inr (.inl ⟨bs, e, rfl, reads⟩)
    | ok e =>
      cases route : w.route? d e with
      | none => exact .inr (.inr (.inl ⟨e, bs, present, reads, route⟩))
      | some origin => exact .inr (.inr (.inr ⟨⟨e, origin.1, origin.2⟩, bs, present, reads, route⟩))

section Step

variable {κ : Type} {h : Host ω κ} {w : Worker ω} {s s' : WorkerState κ} {world world' : ω}
  {happened : List Occurrence}

/-- Only a step that offers an event offers one. -/
theorem Does.offers_eq_nil (does : Does h w s world s' world' happened)
    (other : ∀ c d r ran, s.phase ≠ .offering c d r ran) :
    happened.filterMap Occurrence.offer? = [] := by
  cases does <;> first
    | exact absurd rfl (other _ _ _ _)
    | simp [List.filterMap_cons, -List.filterMap_eq_nil_iff, Occurrence.offer?, entered]

/-- Only a step that commits a message settles one. -/
theorem Does.settlements_eq_nil (does : Does h w s world s' world' happened)
    (other : ∀ c d outcome, s.phase ≠ .settling c d outcome) :
    happened.filterMap Occurrence.settlement? = [] := by
  cases does <;> first
    | exact absurd rfl (other _ _ _)
    | simp [List.filterMap_cons, -List.filterMap_eq_nil_iff, Occurrence.settlement?, entered]

theorem Does.settlements_eq (does : Does h w s world s' world' happened) {c : κ} {d : Delivery}
    {outcome : Outcome} (settling : s.phase = .settling c d outcome) :
    happened.filterMap Occurrence.settlement? = [(d, outcome)] ∧
      s'.stats = s.stats.record outcome ∧ s'.phase.held? = none := by
  cases does <;> cases settling <;> refine ⟨?_, rfl, ?_⟩ <;> first
    | rfl
    | exact w.held?_resume ..
    | simp [List.filterMap_cons, -List.filterMap_eq_nil_iff, Occurrence.settlement?]

theorem Does.stats_eq (does : Does h w s world s' world' happened)
    (other : ∀ c d outcome, s.phase ≠ .settling c d outcome) : s'.stats = s.stats := by
  cases does <;> first
    | rfl
    | exact absurd rfl (other _ _ _)

/-- A step counts the messages that it settles. -/
theorem Does.stats_eq_foldl (does : Does h w s world s' world' happened) :
    s'.stats =
      (happened.filterMap Occurrence.settlement?).foldl (fun stats x => stats.record x.2)
        s.stats := by
  by_cases settles : ∃ c d outcome, s.phase = .settling c d outcome
  · obtain ⟨c, d, outcome, settling⟩ := settles
    obtain ⟨settled, stats, -⟩ := does.settlements_eq settling
    rw [settled, stats]
    rfl
  · have other : ∀ c d outcome, s.phase ≠ .settling c d outcome :=
      fun c d outcome settling => settles ⟨c, d, outcome, settling⟩
    rw [does.settlements_eq_nil other, does.stats_eq other]
    rfl

/-- A step settles the message whose dispatch is finished. -/
theorem Does.finished_eq (does : Does h w s world s' world' happened) :
    (happened.filterMap Occurrence.settlement?).map Prod.fst = s.phase.finished?.toList := by
  by_cases settles : ∃ c d outcome, s.phase = .settling c d outcome
  · obtain ⟨c, d, outcome, settling⟩ := settles
    rw [(does.settlements_eq settling).1, settling]
    rfl
  · have none : s.phase.finished? = none := by
      cases phase : s.phase <;> first
        | rfl
        | exact absurd ⟨_, _, _, phase⟩ settles
    rw [does.settlements_eq_nil fun c d outcome settling => settles ⟨c, d, outcome, settling⟩, none]
    rfl

end Step

section Life

variable {κ : Type} {h : Host ω κ} {w : Worker ω} {start s : WorkerState κ} {moves : List (Move ω κ)}

/-- A worker has counted the messages that it has settled. -/
theorem Makes.stats_eq (run : w.Makes h start moves s) :
    s.stats = (observed Occurrence.settlement? moves).foldl
      (fun stats x => stats.record x.2) start.stats := by
  induction run with
  | start => rfl
  | step _ made ih => rw [observed_snoc, List.foldl_append, ← ih, (does_step made).stats_eq_foldl]

/-- The messages whose dispatch is finished are those that are settled, and the one that is about to
be. -/
theorem Makes.finished_eq (run : w.Makes h start moves s) (idle : start.phase.held? = none) :
    finished moves =
      (observed Occurrence.settlement? moves).map Prod.fst ++ s.phase.finished?.toList := by
  induction run with
  | start =>
    rw [Phase.finished?_of_unheld idle]
    rfl
  | step run made ih =>
    rw [finished_snoc, observed_snoc, List.map_append, (does_step made).finished_eq, ih]

/-- A worker with nothing at hand has settled all messages that it has fetched. -/
theorem Makes.settled_eq (run : w.Makes h start moves s) (idle : start.phase.held? = none)
    (unheld : s.phase.held? = none) :
    (observed Occurrence.settlement? moves).map Prod.fst = fetched moves := by
  have whole := (run.fetched_eq idle).symm
  rw [run.finished_eq idle, Phase.pending?_of_unheld unheld, Phase.finished?_of_unheld unheld] at whole
  simpa using whole

/-- A message is settled at the end of a dispatch, and as this dispatch came out. -/
theorem Makes.exists_dispatch_of_settled (run : w.Makes h start moves s)
    (idle : start.phase.held? = none) {d : Delivery} {outcome : Outcome}
    (settled : (d, outcome) ∈ observed Occurrence.settlement? moves) :
    ∃ c dispatch last, Dispatches h w c d dispatch last ∧ last.phase = .settling c d outcome := by
  induction run with
  | start => cases settled
  | @step moves s s' world world' happened earlier made ih =>
    rw [observed_snoc] at settled
    rcases List.mem_append.mp settled with before | now
    · exact ih before
    · by_cases settles : ∃ c d outcome, s.phase = .settling c d outcome
      · obtain ⟨c, d', outcome', settling⟩ := settles
        rw [((does_step made).settlements_eq settling).1] at now
        cases List.mem_singleton.mp now
        obtain ⟨-, dispatch, -, dispatches⟩ :=
          earlier.dispatches idle (congrArg Phase.held? settling)
        exact ⟨c, dispatch, s, dispatches, settling⟩
      · rw [(does_step made).settlements_eq_nil fun c d outcome settling =>
          settles ⟨c, d, outcome, settling⟩] at now
        cases now

end Life

section Dispatch

variable {κ : Type} {h : Host ω κ} {w : Worker ω} {s : WorkerState κ} {moves : List (Move ω κ)}
  {c c' : κ} {d d' : Delivery} {outcome : Outcome}

/-- A dispatch ends in a message that is empty or malformed exactly when the message is. -/
theorem Dispatches.dropped_iff (run : Dispatches h w c d moves s)
    (settling : s.phase = .settling c' d' outcome) :
    (outcome = .empty ↔ d.content? = none) ∧
      (outcome = .malformed ↔ ∃ bs e, d.content? = some bs ∧ Envelope.read bs = .error e) := by
  have readable {e : Envelope} (reads : ∃ bs, d.content? = some bs ∧ Envelope.read bs = .ok e) :
      d.content? ≠ none ∧ ¬ ∃ bs e, d.content? = some bs ∧ Envelope.read bs = .error e := by
    obtain ⟨bs, present, reads⟩ := reads
    simp [present, reads]
  cases run with
  | received => cases settling
  | @step earlier before _ world world' happened first unfinished made =>
    have held := first.held
    cases does_step made <;> first
      | exact unfinished.elim
      | cases settling
    all_goals cases held
    case step.empty.refl.refl absent => simp [absent]
    case step.malformed.refl.refl bs e present unread => simp [present, unread]
    case step.unrouted.refl.refl | step.handled.refl.refl | step.misrouted.refl.refl |
        step.escalated.refl.refl | step.notEscalated.refl.refl =>
      obtain ⟨bs, present, reads, -⟩ := first.routes rfl
      simpa using readable ⟨bs, present, reads⟩
    case step.buried.refl.refl | step.notBuried.refl.refl =>
      obtain ⟨bs, present, reads, -⟩ := first.orphan rfl
      simpa using readable ⟨bs, present, reads⟩

end Dispatch

end Worker

end EventPipeline
