import EventPipeline.Proofs.Worker.Dispatch

/-! # The messages of one life of a worker

A worker has one message at hand at a time. What it does between receiving and settling a message is
one dispatch, which no other of its moves interrupts, and it finishes the messages in the order in
which it fetched them.
-/

namespace EventPipeline

variable {ω κ : Type}

/-- The message that the worker has just fetched. -/
def Phase.fetched? : Phase κ → Option Delivery
  | .received _ d => some d
  | _ => none

/-- The message that the worker is done with and has not committed. -/
def Phase.finished? : Phase κ → Option Delivery
  | .settling _ d _ => some d
  | _ => none

/-- The message that the worker is not done with. -/
def Phase.pending? : Phase κ → Option Delivery
  | .received _ d | .offering _ d _ _ | .failing _ d _ | .orphaned _ d _ => some d
  | _ => none

theorem Phase.fetched?_of_unheld {κ : Type} {phase : Phase κ} (unheld : phase.held? = none) :
    phase.fetched? = none := by
  cases phase <;> first
    | rfl
    | cases unheld

theorem Phase.held?_ne_of_unheld {κ : Type} {phase : Phase κ} (unheld : phase.held? = none)
    (x : κ × Delivery) : phase.held? ≠ some x := by
  rw [unheld]
  exact nofun

theorem Phase.pending?_of_unheld {κ : Type} {phase : Phase κ} (unheld : phase.held? = none) :
    phase.pending? = none := by
  cases phase <;> first
    | rfl
    | cases unheld

theorem Phase.finished?_of_unheld {κ : Type} {phase : Phase κ} (unheld : phase.held? = none) :
    phase.finished? = none := by
  cases phase <;> first
    | rfl
    | cases unheld

theorem Phase.IsOpen.held {κ : Type} {phase : Phase κ} (unfinished : phase.IsOpen) :
    ∃ c d, phase.held? = some (c, d) := by
  cases phase <;> first
    | exact unfinished.elim
    | exact ⟨_, _, rfl⟩

theorem Phase.pending?_eq_some_iff {κ : Type} {phase : Phase κ} {d : Delivery} :
    phase.pending? = some d ↔ phase.IsOpen ∧ ∃ c, phase.held? = some (c, d) := by
  cases phase <;> simp [pending?, IsOpen, held?]

theorem Phase.open_or_settling {κ : Type} {phase : Phase κ} {c : κ} {d : Delivery}
    (held : phase.held? = some (c, d)) :
    phase.IsOpen ∨ ∃ outcome, phase = .settling c d outcome := by
  cases phase <;> cases held <;> first
    | exact .inl trivial
    | exact .inr ⟨_, rfl⟩

/-- The messages that a worker fetched in its moves, in their order. -/
def fetched (moves : List (Move ω κ)) : List Delivery :=
  moves.filterMap fun m => m.after.phase.fetched?

/-- The messages whose dispatch a worker finished in its moves, in their order. -/
def finished (moves : List (Move ω κ)) : List Delivery :=
  moves.filterMap fun m => m.after.phase.finished?

/-- The moves that were made with this message at hand. -/
def handling (d : Delivery) (moves : List (Move ω κ)) : List (Move ω κ) :=
  moves.filter fun m => m.before.phase.held?.map Prod.snd = some d

theorem mem_handling {d : Delivery} {moves : List (Move ω κ)} {m : Move ω κ} :
    m ∈ handling d moves ↔ m ∈ moves ∧ ∃ c, m.before.phase.held? = some (c, d) := by
  simp [handling]

theorem fetched_snoc (moves : List (Move ω κ)) (m : Move ω κ) :
    fetched (moves ++ [m]) = fetched moves ++ m.after.phase.fetched?.toList := by
  rw [fetched, List.filterMap_append]
  cases found : m.after.phase.fetched? <;> simp [fetched, found]

theorem fetched_eq_flatMap (moves : List (Move ω κ)) :
    fetched moves = moves.flatMap fun m => m.after.phase.fetched?.toList := by
  induction moves with
  | nil => rfl
  | cons m moves ih =>
    rw [List.flatMap_cons, ← ih, fetched, List.filterMap_cons]
    cases m.after.phase.fetched? <;> rfl

theorem fetched_snoc_of_unfetched {m : Move ω κ} (unfetched : m.after.phase.fetched? = none)
    (moves : List (Move ω κ)) : fetched (moves ++ [m]) = fetched moves := by
  rw [fetched_snoc, unfetched, Option.toList_none, List.append_nil]

theorem finished_snoc (moves : List (Move ω κ)) (m : Move ω κ) :
    finished (moves ++ [m]) = finished moves ++ m.after.phase.finished?.toList := by
  rw [finished, List.filterMap_append]
  cases found : m.after.phase.finished? <;> simp [finished, found]

theorem handling_snoc_self {d : Delivery} {m : Move ω κ} {c : κ}
    (held : m.before.phase.held? = some (c, d)) (moves : List (Move ω κ)) :
    handling d (moves ++ [m]) = handling d moves ++ [m] := by
  simp [handling, held]

theorem handling_snoc_of_ne {d : Delivery} {m : Move ω κ}
    (other : ∀ c, m.before.phase.held? ≠ some (c, d)) (moves : List (Move ω κ)) :
    handling d (moves ++ [m]) = handling d moves := by
  have skipped : m.before.phase.held?.map Prod.snd ≠ some d := by
    intro held
    obtain ⟨⟨c, d'⟩, at', rfl⟩ := Option.map_eq_some_iff.mp held
    exact other c at'
  simp [handling, skipped]

namespace Worker

variable {h : Host ω κ} {w : Worker ω}

/-- After a message a worker goes on, or a pause that it cannot make ends it. -/
theorem resume_cases (w : Worker ω) (c : κ) (outcome : Outcome) (streak : Nat) :
    w.resume c outcome streak = .checking c ∨ ∃ exit, w.resume c outcome streak = .ended exit := by
  unfold resume
  split
  · exact .inr ⟨_, rfl⟩
  · exact .inl rfl

@[simp] theorem held?_resume (w : Worker ω) (c : κ) (outcome : Outcome) (streak : Nat) :
    (w.resume c outcome streak).held? = none := by
  rcases w.resume_cases c outcome streak with resumes | ⟨exit, resumes⟩ <;> rw [resumes] <;> rfl

section Step

variable {s s' : WorkerState κ} {world world' : ω} {happened : List Occurrence}

/-- A message at hand was just received, or the step before dealt with it. -/
theorem Does.received_or_open (does : Does h w s world s' world' happened) {c : κ} {d : Delivery}
    (held : s'.phase.held? = some (c, d)) : s'.phase = .received c d ∨ s.phase.IsOpen := by
  cases does
  case fetched =>
    cases held
    exact .inl rfl
  all_goals first
    | exact .inr trivial
    | cases held
    | cases (w.held?_resume ..).symm.trans held

/-- A step waits or fetches, deals with the message at hand, or commits it. -/
theorem Does.handover (does : Does h w s world s' world' happened) :
    (s.phase.held? = none ∧ (s'.phase.held? = none ∨ ∃ c d, s'.phase = .received c d)) ∨
      (s.phase.IsOpen ∧ s'.phase.fetched? = none) ∨
      ∃ c d outcome, s.phase = .settling c d outcome ∧ s'.phase.held? = none := by
  cases does <;> first
    | exact .inl ⟨rfl, .inl rfl⟩
    | exact .inr (.inl ⟨trivial, rfl⟩)
    | exact .inr (.inr ⟨_, _, _, rfl, rfl⟩)
    | skip
  case fetched => exact .inl ⟨rfl, .inr ⟨_, _, rfl⟩⟩
  case committed => exact .inr (.inr ⟨_, _, _, rfl, w.held?_resume ..⟩)
  case commitFailed => exact .inr (.inr ⟨_, _, _, rfl, w.held?_resume ..⟩)

/-- A step fetches a message, finishes the one at hand, or leaves them as they are. -/
theorem Does.pending (does : Does h w s world s' world' happened) :
    s.phase.pending?.toList ++ s'.phase.fetched?.toList =
      s'.phase.finished?.toList ++ s'.phase.pending?.toList := by
  cases does
  case committed c' _ outcome _ _ | commitFailed c' _ outcome _ _ _ _ =>
    rcases w.resume_cases c' outcome _ with resumes | ⟨exit, resumes⟩ <;> rw [resumes] <;> rfl
  all_goals rfl

end Step

variable {start s : WorkerState κ} {moves : List (Move ω κ)}

/-- Whatever a worker has at hand, its latest moves are the dispatch of that message so far. -/
theorem Makes.dispatches (run : w.Makes h start moves s) (idle : start.phase.held? = none) {c : κ}
    {d : Delivery} (held : s.phase.held? = some (c, d)) :
    ∃ earlier dispatch, moves = earlier ++ dispatch ∧ Dispatches h w c d dispatch s := by
  induction run with
  | start =>
    rw [idle] at held
    cases held
  | @step moves s s' world world' happened run made ih =>
    rcases (does_step made).received_or_open held with received | unfinished
    · obtain ⟨phase, stats, streak⟩ := s'
      cases received
      exact ⟨_, [], (List.append_nil _).symm, .received stats streak⟩
    · have before : s.phase.held? = some (c, d) :=
        ((does_step made).held unfinished).symm.trans held
      obtain ⟨earlier, dispatch, rfl, dispatches⟩ := ih before
      exact ⟨earlier, _, List.append_assoc .., dispatches.step unfinished made⟩

/-- The messages that were fetched are those that are finished, and the pending one. -/
theorem Makes.fetched_eq (run : w.Makes h start moves s) (idle : start.phase.held? = none) :
    fetched moves = finished moves ++ s.phase.pending?.toList := by
  induction run with
  | start =>
    rw [Phase.pending?_of_unheld idle]
    rfl
  | step run made ih =>
    rw [fetched_snoc, finished_snoc, ih, List.append_assoc, List.append_assoc,
      (does_step made).pending]

theorem Makes.mem_fetched_of_held (run : w.Makes h start moves s)
    (idle : start.phase.held? = none) {c : κ} {d : Delivery} (held : s.phase.held? = some (c, d)) :
    d ∈ fetched moves := by
  induction run with
  | start =>
    rw [idle] at held
    cases held
  | step run made ih =>
    rw [fetched_snoc]
    rcases (does_step made).received_or_open held with received | unfinished
    · exact List.mem_append_right _ (by rw [received]; exact List.mem_singleton_self d)
    · exact List.mem_append_left _ (ih (((does_step made).held unfinished).symm.trans held))

/-- What a worker has done with one message: nothing, its dispatch so far, or its dispatch and then
its commit. -/
inductive Handles (h : Host ω κ) (w : Worker ω) (d : Delivery) (moves : List (Move ω κ))
    (s : WorkerState κ) : Prop where
  | unfetched (none : d ∉ fetched moves) (untouched : handling d moves = [])
  | present {c : κ} (held : s.phase.held? = some (c, d))
    (run : Dispatches h w c d (handling d moves) s)
  | committed {c : κ} {dispatch : List (Move ω κ)} {last : Move ω κ} {outcome : Outcome}
    (fetches : d ∈ fetched moves) (left : ∀ c, s.phase.held? ≠ some (c, d))
    (run : Dispatches h w c d dispatch last.before)
    (settling : last.before.phase = .settling c d outcome)
    (made : w.step h last.before last.found = (last.after, last.left, last.happened))
    (split : handling d moves = dispatch ++ [last])

section Handles

variable {d : Delivery} {s' : WorkerState κ} {world world' : ω} {happened : List Occurrence}

/-- While the worker has nothing at hand, it does nothing with any message. -/
theorem Handles.waits (handles : Handles h w d moves s) (unheld : s.phase.held? = none)
    (unheld' : s'.phase.held? = none) :
    Handles h w d (moves ++ [⟨s, world, s', world', happened⟩]) s' := by
  have other : ∀ c, s.phase.held? ≠ some (c, d) := fun c => Phase.held?_ne_of_unheld unheld (c, d)
  have same : handling d (moves ++ [⟨s, world, s', world', happened⟩]) = handling d moves :=
    handling_snoc_of_ne other moves
  have fetches : fetched (moves ++ [⟨s, world, s', world', happened⟩]) = fetched moves :=
    fetched_snoc_of_unfetched (Phase.fetched?_of_unheld unheld') moves
  cases handles with
  | unfetched none untouched => exact .unfetched (fetches ▸ none) (same ▸ untouched)
  | present held => exact absurd held (other _)
  | committed mem _ run settling made split =>
    have left (c : κ) := Phase.held?_ne_of_unheld unheld' (c, d)
    exact .committed (fetches ▸ mem) left run settling made (same ▸ split)

/-- A message that was never fetched before may be fetched while the worker has nothing at hand. -/
theorem Handles.fetches (handles : Handles h w d moves s) (unheld : s.phase.held? = none) {c' : κ}
    {d' : Delivery} (received : s'.phase = .received c' d') (fresh : d' ∉ fetched moves) :
    Handles h w d (moves ++ [⟨s, world, s', world', happened⟩]) s' := by
  have other : ∀ c, s.phase.held? ≠ some (c, d) := fun c => Phase.held?_ne_of_unheld unheld (c, d)
  have same : handling d (moves ++ [⟨s, world, s', world', happened⟩]) = handling d moves :=
    handling_snoc_of_ne other moves
  have last : fetched (moves ++ [⟨s, world, s', world', happened⟩]) = fetched moves ++ [d'] := by
    rw [fetched_snoc, received]
    rfl
  obtain ⟨phase, stats, streak⟩ := s'
  cases received
  cases handles with
  | unfetched none untouched =>
    by_cases this : d = d'
    · subst this
      refine .present rfl ?_
      rw [same, untouched]
      exact .received stats streak
    · refine .unfetched ?_ (same ▸ untouched)
      intro mem
      rw [last] at mem
      rcases List.mem_append.mp mem with earlier | now
      · exact none earlier
      · exact this (List.mem_singleton.mp now)
  | present held => exact absurd held (other _)
  | committed mem _ run settling made split =>
    refine .committed (last ▸ List.mem_append_left _ mem) ?_ run settling made
      (same ▸ split)
    intro c held
    cases held
    exact fresh mem

/-- A step of the dispatch at hand belongs to the message at hand. -/
theorem Handles.deals (handles : Handles h w d moves s)
    (made : w.step h s world = (s', world', happened)) (unfinished : s.phase.IsOpen)
    (unfetched : s'.phase.fetched? = none) (mem : ∀ c, s.phase.held? = some (c, d) → d ∈ fetched moves) :
    Handles h w d (moves ++ [⟨s, world, s', world', happened⟩]) s' := by
  have held' := (does_step made).held unfinished
  have fetches : fetched (moves ++ [⟨s, world, s', world', happened⟩]) = fetched moves :=
    fetched_snoc_of_unfetched unfetched moves
  cases handles with
  | unfetched none untouched =>
    have other : ∀ c, s.phase.held? ≠ some (c, d) := fun c held => none (mem c held)
    exact .unfetched (fetches ▸ none) ((handling_snoc_of_ne other moves).trans untouched)
  | present held run =>
    refine .present (held'.trans held) ?_
    rw [handling_snoc_self held]
    exact run.step unfinished made
  | committed mem left run settling made' split =>
    refine .committed (fetches ▸ mem) (fun c held => left c (held'.symm.trans held)) run settling made' ?_
    rw [handling_snoc_of_ne left, split]

/-- The commit of a message ends what the worker does with it. -/
theorem Handles.commits (handles : Handles h w d moves s)
    (made : w.step h s world = (s', world', happened)) {c : κ} {d' : Delivery} {outcome : Outcome}
    (settling : s.phase = .settling c d' outcome) (unheld' : s'.phase.held? = none)
    (mem : ∀ c, s.phase.held? = some (c, d) → d ∈ fetched moves) :
    Handles h w d (moves ++ [⟨s, world, s', world', happened⟩]) s' := by
  have fetches : fetched (moves ++ [⟨s, world, s', world', happened⟩]) = fetched moves :=
    fetched_snoc_of_unfetched (Phase.fetched?_of_unheld unheld') moves
  have left' (c : κ) := Phase.held?_ne_of_unheld unheld' (c, d)
  cases handles with
  | unfetched none untouched =>
    have other : ∀ c, s.phase.held? ≠ some (c, d) := fun c held => none (mem c held)
    exact .unfetched (fetches ▸ none) ((handling_snoc_of_ne other moves).trans untouched)
  | present held run =>
    have same := held
    rw [settling] at same
    cases same
    exact .committed (fetches ▸ mem _ held) left' run settling made (handling_snoc_self held moves)
  | committed mem left run settling' made' split =>
    refine .committed (fetches ▸ mem) left' run settling' made' ?_
    rw [handling_snoc_of_ne left, split]

end Handles

/-- A worker that fetches no message twice handles each of them in one dispatch. -/
theorem Makes.handles (run : w.Makes h start moves s) (idle : start.phase.held? = none)
    (distinct : (fetched moves).Nodup) (d : Delivery) : Handles h w d moves s := by
  induction run with
  | start => exact .unfetched List.not_mem_nil rfl
  | @step moves s s' world world' happened run made ih =>
    rw [fetched_snoc] at distinct
    obtain ⟨before, -, apart⟩ := List.nodup_append.mp distinct
    have handles := ih before
    have mem : ∀ c, s.phase.held? = some (c, d) → d ∈ fetched moves :=
      fun _ => run.mem_fetched_of_held idle
    rcases (does_step made).handover with ⟨unheld, next⟩ | ⟨unfinished, unfetched⟩ |
      ⟨c, d', outcome, settling, unheld'⟩
    · rcases next with unheld' | ⟨c', d', received⟩
      · exact handles.waits unheld unheld'
      · apply handles.fetches unheld received
        intro earlier
        exact apart d' earlier d' (by simp [received, Phase.fetched?]) rfl
    · exact handles.deals made unfinished unfetched mem
    · exact handles.commits made settling unheld' mem

/-- A part of a worker's moves that comes first is a life up to some point. -/
theorem Makes.before (run : w.Makes h start moves s) {earlier later : List (Move ω κ)}
    {m : Move ω κ} (split : moves = earlier ++ m :: later) :
    w.Makes h start earlier m.before ∧
      w.step h m.before m.found = (m.after, m.left, m.happened) := by
  induction run generalizing later with
  | start => simp at split
  | @step moves s s' world world' happened run made ih =>
    rcases List.eq_nil_or_concat later with rfl | ⟨later', last, rfl⟩
    · obtain ⟨rfl, same⟩ := List.append_inj' split rfl
      cases same
      exact ⟨run, made⟩
    · rw [List.concat_eq_append, ← List.cons_append, ← List.append_assoc] at split
      exact ih (List.append_inj' split rfl).1

end Worker

end EventPipeline
