import EventPipeline.Proofs.Pipeline.Runs
import EventPipeline.Proofs.Worker.Windup

/-! # The report of a pipeline

Workers come to their ends in any order, some of them torn down outside of their handlers. A pipeline
`Unfolds` by the moves of its workers and by such mishaps, and `Returned` says from these alone how a
worker came to its end. The report holds just that, in the order of the workers, and the publisher is
flushed once, when the last worker has returned (`Pipeline.Unfolds.reported`).
-/

namespace EventPipeline

variable {ω κ : Type}

/-! ### Subscriptions -/

/-- What a worker asked for a consumer with. -/
def Occurrence.subscription? : Occurrence → Option Subscription
  | .connected s _ => some s
  | _ => none

@[simp] theorem filterMap_subscription?_logged (log : List LogEntry) :
    (logged log).filterMap Occurrence.subscription? = [] := filterMap_logged fun _ _ => rfl

namespace Worker

variable {h : Host ω κ} {w : Worker ω} {s s' : WorkerState κ} {world world' : ω}
  {happened : List Occurrence} {moves : List (Move ω κ)}

@[simp] theorem filterMap_subscription?_afterCommit (w : Worker ω) (outcome : Outcome) (stats : Stats)
    (streak : Nat) : (w.afterCommit outcome stats streak).filterMap Occurrence.subscription? = [] :=
  w.filterMap_afterCommit outcome stats streak (fun _ => rfl) (fun _ _ => rfl) fun _ => rfl

theorem resume_ne_unopened (w : Worker ω) (c : κ) (outcome : Outcome) (streak : Nat) :
    w.resume c outcome streak ≠ .unopened := by
  rcases w.resume_cases c outcome streak with resumes | ⟨exit, resumes⟩ <;> rw [resumes] <;> nofun

/-- The first step of a worker asks for a consumer, and no other does. -/
theorem Does.subscriptions (does : Does h w s world s' world' happened) :
    (s.phase = .unopened ∧ happened.filterMap Occurrence.subscription? = [w.subscription] ∨
      s.phase ≠ .unopened ∧ happened.filterMap Occurrence.subscription? = []) ∧
    s'.phase ≠ .unopened := by
  cases does <;> simp [List.filterMap_cons, -List.filterMap_eq_nil_iff, Occurrence.subscription?,
    entered, resume_ne_unopened]

theorem Makes.subscriptions (run : w.Makes h .initial moves s) :
    moves = [] ∧ s.phase = .unopened ∨
      observed Occurrence.subscription? moves = [w.subscription] ∧ s.phase ≠ .unopened := by
  induction run with
  | start => exact .inl ⟨rfl, rfl⟩
  | step _ made ih =>
    obtain ⟨asks, opened⟩ := (does_step made).subscriptions
    rw [observed_snoc]
    rcases ih with ⟨rfl, unopened⟩ | ⟨once, before⟩
    · rcases asks with ⟨-, first⟩ | ⟨other, -⟩
      · exact .inr ⟨first, opened⟩
      · exact absurd unopened other
    · rcases asks with ⟨unopened, -⟩ | ⟨-, later⟩
      · exact absurd unopened before
      · exact .inr ⟨by rw [once, later, List.append_nil], opened⟩

end Worker

/-! ### Workers that may be torn down -/

namespace Pipeline

/-- A pipeline has got from its start to here by these moves of workers that had not ended, while these
workers were torn down with these words. In between others have changed the world in the given way. -/
inductive Unfolds (h : Host ω κ) (others : ω → ω → Prop) (start : Pipeline ω κ) :
    List (Nat × Move ω κ) → List (Nat × String) → Pipeline ω κ → Prop where
  | start : Unfolds h others start [] [] start
  | moved {moves : List (Nat × Move ω κ)} {torn : List (Nat × String)} {line : Pipeline ω κ} {i : Nat}
    {w : Worker ω} {s s' : WorkerState κ} {world' : ω} {happened : List Occurrence}
    (earlier : Unfolds h others start moves torn line) (chosen : line.crew[i]? = some (w, s))
    (living : s.exit? = none) (made : w.step h s line.world = (s', world', happened)) :
    Unfolds h others start (moves ++ [(i, ⟨s, line.world, s', world', happened⟩)]) torn
      ⟨line.crew.set i (w, s'), world'⟩
  | torn {moves : List (Nat × Move ω κ)} {torn : List (Nat × String)} {line : Pipeline ω κ} {i : Nat}
    {w : Worker ω} {s : WorkerState κ} {text : String}
    (earlier : Unfolds h others start moves torn line) (chosen : line.crew[i]? = some (w, s))
    (living : s.exit? = none) :
    Unfolds h others start moves (torn ++ [(i, text)]) (line.tearDown i text)
  | changed {moves : List (Nat × Move ω κ)} {torn : List (Nat × String)} {line : Pipeline ω κ}
    {world' : ω} (earlier : Unfolds h others start moves torn line)
    (change : others line.world world') : Unfolds h others start moves torn ⟨line.crew, world'⟩

/-- A worker came to this end in one of its moves, or because it was torn down. -/
def Returned (moves : List (Nat × Move ω κ)) (torn : List (Nat × String)) (i : Nat) (exit : Exit) :
    Prop :=
  (∃ m, (i, m) ∈ moves ∧ m.after.phase = .ended exit) ∨
    ∃ text, (i, text) ∈ torn ∧ exit = .panicked text

variable {h : Host ω κ} {others : ω → ω → Prop} {moves : List (Nat × Move ω κ)}
  {torn : List (Nat × String)} {line : Pipeline ω κ} {i j : Nat} {exit : Exit}

theorem returned_snoc_move (m : Move ω κ) :
    Returned (moves ++ [(j, m)]) torn i exit ↔
      Returned moves torn i exit ∨ (i = j ∧ m.after.phase = .ended exit) := by
  simp only [Returned, List.mem_append, List.mem_singleton, Prod.mk.injEq, or_and_right, exists_or]
  grind

theorem returned_snoc_torn (text : String) :
    Returned moves (torn ++ [(j, text)]) i exit ↔
      Returned moves torn i exit ∨ (i = j ∧ exit = .panicked text) := by
  simp only [Returned, List.mem_append, List.mem_singleton, Prod.mk.injEq, or_and_right, exists_or]
  grind

theorem tearDown_eq {w : Worker ω} {s : WorkerState κ} (chosen : line.crew[i]? = some (w, s))
    (text : String) : line.tearDown i text =
      ⟨line.crew.set i (w, { s with phase := .ended (.panicked text) }), line.world⟩ := by
  rw [tearDown, List.modify_eq_set_getElem?, chosen]
  rfl

/-- After one worker's state has changed, a worker is that one or stands where it stood. -/
theorem stands_cases {w w' : Worker ω} {s before after : WorkerState κ}
    (chosen : line.crew[j]? = some (w', before))
    (present : (line.crew.set j (w', after))[i]? = some (w, s)) :
    (i = j ∧ w = w' ∧ s = after) ∨ (i ≠ j ∧ line.crew[i]? = some (w, s)) := by
  by_cases same : i = j
  · subst same
    rw [List.getElem?_set_self (List.getElem?_eq_some_iff.mp chosen).1] at present
    cases present
    exact .inl ⟨rfl, rfl, rfl⟩
  · rw [List.getElem?_set_ne (Ne.symm same)] at present
    exact .inr ⟨same, present⟩

variable {workers : List (Worker ω)} {world : ω} {w : Worker ω} {s : WorkerState κ}

theorem initial_of_start (present : (start workers world : Pipeline ω κ).crew[i]? = some (w, s)) :
    s = .initial := by
  rw [start, List.getElem?_map, Option.map_eq_some_iff] at present
  obtain ⟨_, -, initial⟩ := present
  exact (Prod.mk.inj initial).2.symm

theorem Unfolds.map_crew (run : Unfolds h others (.start workers world) moves torn line) :
    line.crew.map Prod.fst = workers := by
  induction run with
  | start => exact map_fst_start workers world
  | moved _ chosen _ _ ih => exact (map_fst_set chosen _).trans ih
  | torn _ chosen _ ih =>
    rw [tearDown_eq chosen]
    exact (map_fst_set chosen _).trans ih
  | changed _ _ ih => exact ih

theorem Unfolds.worker_iff (run : Unfolds h others (.start workers world) moves torn line) :
    workers[i]? = some w ↔ ∃ s, line.crew[i]? = some (w, s) := by
  rw [← run.map_crew, List.getElem?_map, Option.map_eq_some_iff]
  simp

/-- Where a worker stands is where its own moves have led it, unless it was torn down. -/
theorem Unfolds.lives (run : Unfolds h others (.start workers world) moves torn line)
    (present : line.crew[i]? = some (w, s)) :
    ∃ s', w.Makes h .initial (own i moves) s' ∧
      ((∀ text, (i, text) ∉ torn) ∧ s = s' ∨
        ∃ text, (i, text) ∈ torn ∧ s.phase = .ended (.panicked text)) := by
  induction run generalizing w s with
  | start => exact ⟨.initial, .start, .inl ⟨fun _ => nofun, initial_of_start present⟩⟩
  | moved _ chosen living made ih =>
    rcases stands_cases chosen present with ⟨rfl, rfl, rfl⟩ | ⟨other, before⟩
    · rw [own_snoc_self]
      obtain ⟨led, makes, ⟨whole, rfl⟩ | ⟨text, -, ended⟩⟩ := ih chosen
      · exact ⟨_, makes.step made, .inl ⟨whole, rfl⟩⟩
      · -- a worker that was torn down makes no further move
        rw [WorkerState.exit?_eq_some_iff.mpr ended] at living
        cases living
    · rw [own_snoc_of_ne (Ne.symm other)]
      exact ih before
  | @torn moves torn line j _ _ text _ chosen living ih =>
    rw [tearDown_eq chosen] at present
    rcases stands_cases chosen present with ⟨rfl, rfl, rfl⟩ | ⟨other, before⟩
    · obtain ⟨led, makes, -⟩ := ih chosen
      exact ⟨led, makes, .inr ⟨text, List.mem_append_right _ (List.mem_singleton_self _), rfl⟩⟩
    · have unaffected : ∀ text', (i, text') ∈ torn ++ [(j, text)] ↔ (i, text') ∈ torn := by
        simp [other]
      simpa only [unaffected] using ih before
  | changed _ _ ih => exact ih present

/-- A worker has ended exactly if it has returned, and as it has returned. -/
theorem Unfolds.ended_iff_returned (run : Unfolds h others (.start workers world) moves torn line)
    (present : line.crew[i]? = some (w, s)) : s.exit? = some exit ↔ Returned moves torn i exit := by
  induction run generalizing w s with
  | start =>
    rw [initial_of_start present]
    simp [Returned, WorkerState.exit?, WorkerState.initial]
  | moved _ chosen living _ ih =>
    rw [returned_snoc_move]
    rcases stands_cases chosen present with ⟨rfl, rfl, rfl⟩ | ⟨other, before⟩
    · rw [← ih chosen, living, WorkerState.exit?_eq_some_iff]
      simp
    · simp [ih before, other]
  | torn _ chosen living ih =>
    rw [tearDown_eq chosen] at present
    rw [returned_snoc_torn]
    rcases stands_cases chosen present with ⟨rfl, rfl, rfl⟩ | ⟨other, before⟩
    · rw [← ih chosen, living, WorkerState.exit?_eq_some_iff]
      simp [eq_comm]
    · simp [ih before, other]
  | changed _ _ ih => exact ih present

/-- Following a schedule is a run in which nobody is torn down and nobody else does anything. -/
theorem Unfolds.exec {start : Pipeline ω κ} (run : Unfolds h others start moves torn line)
    (schedule : List Nat) :
    ∃ later, Unfolds h others start (moves ++ later) torn (line.exec h schedule).1 := by
  induction schedule generalizing moves line with
  | nil => exact ⟨[], by simpa [Pipeline.exec] using run⟩
  | cons i schedule ih =>
    have goesOn (later : List (Nat × Move ω κ))
        (next : Unfolds h others start (moves ++ later) torn (line.step h i).1) :
        ∃ later, Unfolds h others start (moves ++ later) torn (line.exec h (i :: schedule)).1 := by
      obtain ⟨rest, unfolds⟩ := ih next
      rw [List.append_assoc] at unfolds
      exact ⟨_, unfolds⟩
    cases chosen : line.crew[i]? with
    | none =>
      have stepped : (line.step h i).1 = line := by simp only [Pipeline.step, chosen]
      exact goesOn [] (by simpa [stepped] using run)
    | some present =>
      obtain ⟨w, s⟩ := present
      rcases made : w.step h s line.world with ⟨s', world', happened⟩
      have stepped : (line.step h i).1 = ⟨line.crew.set i (w, s'), world'⟩ := by
        simp only [Pipeline.step, chosen, made]
      cases living : s.exit? with
      | none => exact goesOn _ (stepped ▸ run.moved chosen living made)
      | some exit =>
        rw [Worker.step, WorkerState.exit?_eq_some_iff.mp living] at made
        cases made
        obtain ⟨inside, same⟩ := List.getElem?_eq_some_iff.mp chosen
        rw [← same, List.set_getElem_self] at stepped
        exact goesOn [] (by simpa [stepped] using run)

/-! ### The report -/

theorem ended_iff : line.ended = true ↔ ∀ entry ∈ line.crew, entry.2.exit?.isSome = true := by
  rw [ended, List.all_eq_true]

theorem map_some_report (complete : line.ended = true) :
    line.report.map some = line.crew.map fun entry =>
      entry.2.exit?.map fun exit => (entry.1.group, exit) := by
  rw [report, List.map_filterMap_some_eq_filter_map_isSome, List.filter_eq_self]
  intro entry listed
  obtain ⟨present, mem, rfl⟩ := List.mem_map.mp listed
  rw [Option.isSome_map]
  exact ended_iff.mp complete present mem

theorem getElem?_report (complete : line.ended = true)
    (present : line.crew[i]? = some (w, s)) :
    line.report[i]? = some (w.group, exit) ↔ s.exit? = some exit := by
  have same := congrArg (fun entries => entries[i]?) (map_some_report complete)
  simp only [List.getElem?_map, present, Option.map_some] at same
  obtain ⟨exit', ended⟩ := Option.isSome_iff_exists.mp
    (ended_iff.mp complete (w, s) (List.mem_of_getElem? present))
  have reported : line.report[i]? = some (w.group, exit') := by simpa [ended] using same
  rw [reported, ended]
  simp

theorem map_fst_report (complete : line.ended = true) :
    line.report.map Prod.fst = (line.crew.map Prod.fst).map Worker.group := by
  obtain ⟨crew, world⟩ := line
  induction crew with
  | nil => rfl
  | cons entry crew ih =>
    have ends := ended_iff.mp complete
    have later := ih (ended_iff.mpr fun other mem => ends other (List.mem_cons_of_mem _ mem))
    obtain ⟨exit, ended⟩ := Option.isSome_iff_exists.mp (ends entry (List.mem_cons_self ..))
    simpa [report, ended] using later

end Pipeline

/-- In a report that names no group twice a group is looked up by its entry. -/
theorem exitOf?_eq_some_iff {report : List (String × Exit)} (distinct : (report.map Prod.fst).Nodup)
    {group : String} {exit : Exit} : exitOf? report group = some exit ↔ (group, exit) ∈ report := by
  induction report with
  | nil => simp [exitOf?]
  | cons entry report ih =>
    obtain ⟨first, exit'⟩ := entry
    obtain ⟨apart, distinct'⟩ := List.nodup_cons.mp distinct
    by_cases same : first = group
    · subst same
      have elsewhere : (first, exit) ∉ report := fun mem =>
        apart (List.mem_map.mpr ⟨_, mem, rfl⟩)
      simp [exitOf?, elsewhere, eq_comm]
    · simp only [List.mem_cons, Prod.mk.injEq, Ne.symm same, false_and, false_or, ← ih distinct']
      simp [exitOf?, same]

theorem Exit.isFailure_iff {exit : Exit} :
    exit.isFailure = true ↔ ∀ stats, exit ≠ .stopped stats := by
  cases exit <;> simp [isFailure]

/-! ### The flush -/

/-- The publisher with another way to wait for what was published. -/
def Publisher.flushing (p : Publisher ω) (flush : Duration → Act ω (Except BrokerError Unit)) :
    Publisher ω :=
  { p with sink := { p.sink with flush } }

/-- The worker with this publisher. -/
def Worker.flushing (w : Worker ω) (flush : Duration → Act ω (Except BrokerError Unit)) : Worker ω :=
  { w with publisher := w.publisher.flushing flush }

/-- The plan with this publisher. -/
def Plan.flushing (p : Plan ω) (flush : Duration → Act ω (Except BrokerError Unit)) : Plan ω :=
  { p with publisher := p.publisher.flushing flush }

/-- The pipeline with these workers. -/
def Pipeline.flushing (line : Pipeline ω κ) (flush : Duration → Act ω (Except BrokerError Unit)) :
    Pipeline ω κ :=
  { line with crew := line.crew.map fun entry => (entry.1.flushing flush, entry.2) }

/-- No step of a worker waits for what was published. -/
theorem Worker.step_flushing (w : Worker ω) (flush : Duration → Act ω (Except BrokerError Unit))
    (h : Host ω κ) (s : WorkerState κ) (world : ω) :
    (w.flushing flush).step h s world = w.step h s world := rfl

section Flush

variable {p : Plan ω} {workers : List (Worker ω)} {h : Host ω κ} {others : ω → ω → Prop}
  {moves : List (Nat × Move ω κ)} {torn : List (Nat × String)} {start line : Pipeline ω κ}
  (flush : Duration → Act ω (Except BrokerError Unit))

theorem Plan.workers_flushing (accepted : p.workers = .ok workers) :
    (p.flushing flush).workers = .ok (workers.map fun w => w.flushing flush) := by
  have free := Plan.reservedCollision?_of_workers accepted
  have free' : (p.flushing flush).registry.reservedCollision?
      (p.flushing flush).publisher.failureTopics = none := free
  rw [Plan.workers_eq accepted, Plan.workers, free', List.map_append, List.map_map]
  rfl

/-- Pipelines unfold in the same way whatever waiting for what was published would do. -/
theorem Pipeline.Unfolds.flushing (run : Unfolds h others start moves torn line) :
    Unfolds h others (start.flushing flush) moves torn (line.flushing flush) := by
  induction run with
  | start => exact .start
  | @moved moves torn line i w s s' world' happened _ chosen living made ih =>
    have chosen' : (line.flushing flush).crew[i]? = some (w.flushing flush, s) := by
      simp [Pipeline.flushing, chosen]
    have next := ih.moved chosen' living ((w.step_flushing flush h s line.world).trans made)
    simpa [Pipeline.flushing, List.map_set] using next
  | @torn moves torn line i w s text _ chosen living ih =>
    have chosen' : (line.flushing flush).crew[i]? = some (w.flushing flush, s) := by
      simp [Pipeline.flushing, chosen]
    have next : Unfolds h others _ moves (torn ++ [(i, text)]) _ := ih.torn chosen' living
    rw [tearDown_eq chosen'] at next
    rw [tearDown_eq chosen]
    simpa [Pipeline.flushing, List.map_set] using next
  | changed _ change ih => exact ih.changed change

end Flush

/-! ### The whole pipeline -/

/-- The workers of a plan whose registry was asked for these registrations. -/
structure Plan.Staffs (p : Plan ω) (asked : List (Request (Handler ω) × Option RegistryError))
    (workers : List (Worker ω)) : Prop where
  /-- There is one worker for each group, and then the worker of the retry topic. -/
  groups : workers.map Worker.group = p.registry.groups ++ [p.publisher.failureTopics.retryGroup]
  increasing : p.registry.groups.Pairwise (· < ·)
  registered : ∀ group, group ∈ p.registry.groups ↔ ∃ q, (q, none) ∈ asked ∧ q.group = group
  distinct : (workers.map Worker.group).Nodup
  /-- The worker of a group reads the topics of which some event has listeners in the group. -/
  reads : ∀ w ∈ workers, w.group ≠ p.publisher.failureTopics.retryGroup → ∀ topic,
    topic ∈ w.subscription.topics ↔ ∃ ns, p.registry.matching w.group topic ns ≠ []
  retries : ∀ w ∈ workers, w.group = p.publisher.failureTopics.retryGroup →
    w.subscription.topics = [p.publisher.failureTopics.retryTopic]
  unread : ∀ w ∈ workers, p.publisher.failureTopics.deadTopic ∉ w.subscription.topics

theorem Plan.staffs {p : Plan ω} {workers : List (Worker ω)} {start : Registry (Handler ω)}
    {asked : List (Request (Handler ω) × Option RegistryError)}
    (history : Registry.History start asked p.registry) (fresh : start.accepted = [])
    (accepted : p.workers = .ok workers) : p.Staffs asked workers where
  groups := groups_of_workers accepted
  increasing := Names.pairwise_ofList _
  registered group := by
    simp only [Registry.mem_groups, history.mem_accepted fresh]
    constructor
    · rintro ⟨_, ⟨q, granted, rfl⟩, ours⟩
      exact ⟨q, granted, ours⟩
    · rintro ⟨q, granted, ours⟩
      exact ⟨_, ⟨q, granted, rfl⟩, ours⟩
  distinct := nodup_groups_of_workers accepted
  reads w worker business topic := by
    rcases (mem_workers accepted).mp worker with ⟨group, -, rfl⟩ | rfl
    · exact history.mem_topicsFor_iff fresh
    · exact absurd rfl business
  retries w worker retry := by
    rcases (mem_workers accepted).mp worker with ⟨group, registered, rfl⟩ | rfl
    · exact absurd retry (ne_retryGroup_of_workers accepted registered)
    · rfl
  unread w worker := by
    rcases (mem_workers accepted).mp worker with ⟨group, -, rfl⟩ | rfl
    · intro subscribed
      have unreserved := (free_of_workers accepted subscribed).2
      rw [FailureTopics.isReservedTopic_iff.mpr (.inr rfl)] at unreserved
      cases unreserved
    · intro subscribed
      exact FailureTopics.retryTopic_ne_deadTopic _ (List.mem_singleton.mp subscribed).symm

/-- A report of these workers, by how they came to their ends. -/
structure Pipeline.Reports (h : Host ω κ) (workers : List (Worker ω)) (moves : List (Nat × Move ω κ))
    (torn : List (Nat × String)) (report : List (String × Exit)) : Prop where
  /-- The workers are reported in their order. -/
  groups : report.map Prod.fst = workers.map Worker.group
  exits : ∀ i w exit, workers[i]? = some w →
    (report[i]? = some (w.group, exit) ↔ Returned moves torn i exit)
  lookup : ∀ i w exit, workers[i]? = some w →
    (exitOf? report w.group = some exit ↔ Returned moves torn i exit)
  failures : hasFailures report = true ↔
    ∃ i < workers.length, ∀ stats, ¬ Returned moves torn i (.stopped stats)
  /-- A worker was told to stop if it saw that shutdown had been triggered and was not torn down. -/
  shutdown : ∀ i < workers.length, (∃ stats, Returned moves torn i (.stopped stats)) ↔
    (∃ m ∈ own i moves, m.SeesShutdown h) ∧ ∀ text, (i, text) ∉ torn

namespace Pipeline

variable {h : Host ω κ} {others : ω → ω → Prop} {workers : List (Worker ω)} {world : ω}
  {moves : List (Nat × Move ω κ)} {torn : List (Nat × String)} {line : Pipeline ω κ}

/-- All workers have ended when each of them has returned. -/
theorem Unfolds.ended_iff_all (run : Unfolds h others (.start workers world) moves torn line) :
    line.ended = true ↔ ∀ i < workers.length, ∃ exit, Returned moves torn i exit := by
  rw [ended_iff]
  constructor
  · intro complete i inside
    obtain ⟨s, present⟩ := run.worker_iff.mp (List.getElem?_eq_getElem inside)
    obtain ⟨exit, ended⟩ := Option.isSome_iff_exists.mp (complete _ (List.mem_of_getElem? present))
    exact ⟨exit, (run.ended_iff_returned present).mp ended⟩
  · rintro returned ⟨w, s⟩ mem
    obtain ⟨i, present⟩ := List.mem_iff_getElem?.mp mem
    obtain ⟨exit, returns⟩ :=
      returned i (List.getElem?_eq_some_iff.mp (run.worker_iff.mpr ⟨s, present⟩)).1
    exact Option.isSome_iff_exists.mpr ⟨exit, (run.ended_iff_returned present).mpr returns⟩

/-- A worker returns once. -/
theorem Unfolds.returned_unique (run : Unfolds h others (.start workers world) moves torn line)
    {i : Nat} (inside : i < workers.length) {exit exit' : Exit} (returned : Returned moves torn i exit)
    (returned' : Returned moves torn i exit') : exit = exit' := by
  obtain ⟨s, present⟩ := run.worker_iff.mp (List.getElem?_eq_getElem inside)
  rw [← run.ended_iff_returned present] at returned returned'
  rw [returned] at returned'
  exact Option.some.inj returned'

/-- A worker that was told to stop has seen the trigger, and was not torn down on its way out. -/
theorem Unfolds.stopped_iff (run : Unfolds h others (.start workers world) moves torn line) {i : Nat}
    (inside : i < workers.length) {exit : Exit} (returned : Returned moves torn i exit) :
    (∃ stats, exit = .stopped stats) ↔
      (∃ m ∈ own i moves, m.SeesShutdown h) ∧ ∀ text, (i, text) ∉ torn := by
  obtain ⟨s, present⟩ := run.worker_iff.mp (List.getElem?_eq_getElem inside)
  obtain ⟨s', makes, ⟨whole, rfl⟩ | ⟨text, torn', ended⟩⟩ := run.lives present
  · have ended := WorkerState.exit?_eq_some_iff.mp ((run.ended_iff_returned present).mpr returned)
    have stopping := makes.isStopping_iff
    rw [ended, Phase.isStopping_ended] at stopping
    rw [stopping, and_iff_left whole]
  · have torn'' := (run.ended_iff_returned present).mpr returned
    rw [WorkerState.exit?_eq_some_iff.mpr ended] at torn''
    cases torn''
    refine iff_of_false (by simp) ?_
    rintro ⟨-, whole⟩
    exact whole text torn'

/-- When all workers have ended, the report tells of each of them how it came to its end. -/
theorem Unfolds.reports (run : Unfolds h others (.start workers world) moves torn line)
    (complete : line.ended = true) (distinct : (workers.map Worker.group).Nodup) :
    Reports h workers moves torn line.report := by
  have groups : line.report.map Prod.fst = workers.map Worker.group := by
    rw [map_fst_report complete, run.map_crew]
  have exits (i : Nat) (w : Worker ω) (exit : Exit) (worker : workers[i]? = some w) :
      line.report[i]? = some (w.group, exit) ↔ Returned moves torn i exit := by
    obtain ⟨s, present⟩ := run.worker_iff.mp worker
    rw [getElem?_report complete present, run.ended_iff_returned present]
  have returns := run.ended_iff_all.mp complete
  refine ⟨groups, exits, ?_, ?_, ?_⟩
  · intro i w exit worker
    rw [exitOf?_eq_some_iff (groups ▸ distinct), List.mem_iff_getElem?, ← exits i w exit worker]
    refine ⟨?_, fun entry => ⟨i, entry⟩⟩
    rintro ⟨j, entry⟩
    have inside : j < (line.report.map Prod.fst).length := by
      rw [List.length_map]
      exact (List.getElem?_eq_some_iff.mp entry).1
    have same : (line.report.map Prod.fst)[j]? = (line.report.map Prod.fst)[i]? := by
      rw [List.getElem?_map, entry, groups, List.getElem?_map, worker]
      rfl
    rwa [← (List.getElem?_inj inside (groups ▸ distinct)).mp same]
  · rw [hasFailures, List.any_eq_true]
    constructor
    · rintro ⟨⟨group, exit⟩, mem, failed⟩
      obtain ⟨i, entry⟩ := List.mem_iff_getElem?.mp mem
      have named : (workers.map Worker.group)[i]? = some group := by
        rw [← groups, List.getElem?_map, entry]
        rfl
      rw [List.getElem?_map, Option.map_eq_some_iff] at named
      obtain ⟨w, worker, rfl⟩ := named
      have inside := (List.getElem?_eq_some_iff.mp worker).1
      refine ⟨i, inside, fun stats stopped => ?_⟩
      exact Exit.isFailure_iff.mp failed stats
        (run.returned_unique inside ((exits i w exit worker).mp entry) stopped)
    · rintro ⟨i, inside, unstopped⟩
      obtain ⟨exit, returned⟩ := returns i inside
      have entry := (exits i _ exit (List.getElem?_eq_getElem inside)).mpr returned
      refine ⟨_, List.mem_of_getElem? entry, Exit.isFailure_iff.mpr ?_⟩
      rintro stats rfl
      exact unstopped stats returned
  · intro i inside
    obtain ⟨exit, returned⟩ := returns i inside
    rw [← run.stopped_iff inside returned]
    constructor
    · rintro ⟨stats, stopped⟩
      exact ⟨stats, run.returned_unique inside returned stopped⟩
    · rintro ⟨stats, rfl⟩
      exact ⟨stats, returned⟩

end Pipeline

section Conclusion

open Pipeline

variable {p : Plan ω} {h : Host ω κ} {others : ω → ω → Prop} {workers : List (Worker ω)} {world : ω}
  {moves : List (Nat × Move ω κ)} {torn : List (Nat × String)} {line : Pipeline ω κ}

/-- A pipeline whose workers follow a schedule unfolds by their moves, and then it is concluded. -/
theorem Plan.exists_unfolds_of_run (accepted : p.workers = .ok workers) (h : Host ω κ)
    (others : ω → ω → Prop) (schedule : List Nat) (world : ω) :
    ∃ moves line, Unfolds h others (.start workers world) moves [] line ∧
      (p.run h schedule world).1 = (p.conclude line).1 ∧
      (p.run h schedule world).2.1 = (p.conclude line).2.1 := by
  have begun : Unfolds h others (.start workers world) [] [] (.start workers world) := .start
  obtain ⟨moves, unfolds⟩ := begun.exec schedule
  refine ⟨_, _, unfolds, ?_⟩
  simp only [run, accepted, and_self]

theorem Plan.conclude_eq_finished_iff {report : List (String × Exit)} :
    (p.conclude line).1 = .finished report ↔ line.ended = true ∧ line.report = report := by
  unfold conclude
  cases line.ended <;> simp

/-- Closing a publisher is one flush of its sink. -/
theorem Publisher.close_flushes (publisher : Publisher ω) (timeout : Duration) (world : ω) :
    (publisher.close timeout world).2.1 = (publisher.sink.flush timeout world).2.1 := by
  rcases flushed : publisher.sink.flush timeout world with ⟨answer, world', log⟩
  cases answer <;> simp [close, flushed]

theorem Pipeline.ended_flushing (line : Pipeline ω κ)
    (flush : Duration → Act ω (Except BrokerError Unit)) :
    (line.flushing flush).ended = line.ended := by
  simp [ended, Pipeline.flushing, Function.comp_def]

theorem Pipeline.report_flushing (line : Pipeline ω κ)
    (flush : Duration → Act ω (Except BrokerError Unit)) :
    (line.flushing flush).report = line.report := by
  simp [report, Pipeline.flushing, List.filterMap_map, Worker.flushing]

theorem Pipeline.flushing_start (workers : List (Worker ω)) (world : ω)
    (flush : Duration → Act ω (Except BrokerError Unit)) :
    (start workers world : Pipeline ω κ).flushing flush =
      start (workers.map fun w => w.flushing flush) world := by
  simp [start, Pipeline.flushing]

/-- With another way to wait for what was published the plan has workers that do exactly the same. Only
when all of them have ended, this is done, and it is all that is done then. -/
structure Plan.FlushesLast (p : Plan ω) (h : Host ω κ) (others : ω → ω → Prop)
    (workers : List (Worker ω)) (world : ω) (moves : List (Nat × Move ω κ)) (torn : List (Nat × String))
    (line : Pipeline ω κ) (flush : Duration → Act ω (Except BrokerError Unit)) : Prop where
  accepted : (p.flushing flush).workers = .ok (workers.map fun w => w.flushing flush)
  unfolds : Unfolds h others (.start (workers.map fun w => w.flushing flush) world) moves torn
    (line.flushing flush)
  verdict : ((p.flushing flush).conclude (line.flushing flush)).1 = (p.conclude line).1
  once : ((p.flushing flush).conclude (line.flushing flush)).2.1 =
    if line.ended = true then (flush p.flushTimeout line.world).2.1 else line.world

theorem Plan.flushesLast (accepted : p.workers = .ok workers)
    (run : Unfolds h others (.start workers world) moves torn line)
    (flush : Duration → Act ω (Except BrokerError Unit)) :
    p.FlushesLast h others workers world moves torn line flush := by
  refine ⟨p.workers_flushing flush accepted, ?_, ?_, ?_⟩
  · rw [← Pipeline.flushing_start]
    exact run.flushing flush
  all_goals
    simp only [conclude, line.ended_flushing flush, line.report_flushing flush]
    cases line.ended
  case refine_2.false | refine_2.true | refine_3.false => rfl
  case refine_3.true => exact (p.publisher.flushing flush).close_flushes p.flushTimeout line.world

/-- One worker for each group, with the right subscription, and a faithful report. The workers of a plan
are those of the groups for which requests were accepted, in increasing order, and the worker of the retry
topic; each asks once for a consumer, for the topics that it has to read. In whatever order they make their
moves, and whoever of them is torn down, the pipeline is finished when each has returned; then the report
tells in their order how each of them returned, and the publisher's sink is flushed, which it was not
before. Any schedule makes the workers unfold in such a way. -/
theorem Pipeline.Unfolds.reported (run : Unfolds h others (.start workers world) moves torn line)
    {start : Registry (Handler ω)} {asked : List (Request (Handler ω) × Option RegistryError)}
    (history : Registry.History start asked p.registry) (fresh : start.accepted = [])
    (accepted : p.workers = .ok workers) :
    p.Staffs asked workers ∧
    (∀ i w, workers[i]? = some w → own i moves ≠ [] →
      observed Occurrence.subscription? (own i moves) = [w.subscription]) ∧
    ((∃ report, (p.conclude line).1 = .finished report) ↔
      ∀ i < workers.length, ∃ exit, Returned moves torn i exit) ∧
    (∀ report, (p.conclude line).1 = .finished report → Reports h workers moves torn report) ∧
    (∀ flush, p.FlushesLast h others workers world moves torn line flush) ∧
    ∀ schedule, ∃ moves line, Unfolds h others (.start workers world) moves [] line ∧
      (p.run h schedule world).1 = (p.conclude line).1 ∧
      (p.run h schedule world).2.1 = (p.conclude line).2.1 := by
  refine ⟨p.staffs history fresh accepted, ?_, ?_, ?_, Plan.flushesLast accepted run,
    fun schedule => Plan.exists_unfolds_of_run accepted h others schedule world⟩
  · intro i w worker moved
    obtain ⟨s, present⟩ := run.worker_iff.mp worker
    obtain ⟨s', makes, -⟩ := run.lives present
    rcases makes.subscriptions with ⟨unmoved, -⟩ | ⟨once, -⟩
    · exact absurd unmoved moved
    · exact once
  · simp only [Plan.conclude_eq_finished_iff, exists_and_left, exists_eq', and_true]
    exact run.ended_iff_all
  · intro report finished
    obtain ⟨complete, rfl⟩ := Plan.conclude_eq_finished_iff.mp finished
    exact run.reports complete (Plan.nodup_groups_of_workers accepted)

end Conclusion

/-! ### A pipeline that is shut down while a worker breaks -/

namespace Sample

open Memory

/-- A shop with one listener. -/
def smallPlan : Plan (World Unit) := shopPlan (some (.ofApp "shop")) [orderRequest]

/-- Its workers are those of the listener's group and of the retry topic. -/
def smallCrew : List (Worker (World Unit)) :=
  [.business "billing" [] smallPlan.registry smallPlan.publisher .standard .standard,
    .retry [] smallPlan.registry smallPlan.publisher .standard .standard]

/-- A world in which shutdown has been triggered. -/
def stoppingWorld : World Unit := { calmWorld with stopping := true }

/-- The first worker opens its consumer, sees the trigger and leaves; the second one is torn down. -/
def brokenLine : Pipeline (World Unit) Consumer :=
  ((Pipeline.start smallCrew stoppingWorld).exec World.host [0, 0, 0]).1.tearDown 1 "out of memory"

end Sample

namespace Pipeline

open Memory

/-- The report tells which worker was shut down and which one broke. -/
theorem sample_reported : ∃ moves report,
    Unfolds World.host (fun _ _ => False) (.start Sample.smallCrew Sample.stoppingWorld) moves
      [(1, "out of memory")] Sample.brokenLine ∧
    (Sample.smallPlan.conclude Sample.brokenLine).1 = .finished report ∧
    report.map Prod.fst = ["billing", "shop_failure_consumer"] ∧
    exitOf? report "billing" = some (.stopped .none) ∧ hasFailures report = true := by
  have history : Registry.History (.reserving (.ofApp "shop")) [(Sample.orderRequest, none)]
      Sample.smallPlan.registry := .accepted .start rfl
  have accepted : Sample.smallPlan.workers = .ok Sample.smallCrew := rfl
  have begun : Unfolds World.host (fun _ _ => False) (.start Sample.smallCrew Sample.stoppingWorld) [] []
      (.start Sample.smallCrew Sample.stoppingWorld) := .start
  obtain ⟨moves, run⟩ := begun.exec [0, 0, 0]
  have broken : Unfolds World.host (fun _ _ => False) _ _ [(1, "out of memory")] Sample.brokenLine :=
    run.torn (i := 1) (w := Sample.smallCrew[1]) (s := .initial) rfl rfl
  have finished : (Sample.smallPlan.conclude Sample.brokenLine).1 =
      .finished [("billing", .stopped .none), ("shop_failure_consumer", .panicked "out of memory")] := rfl
  obtain ⟨-, -, -, reports, -⟩ := broken.reported history rfl accepted
  obtain ⟨groups, exits, lookup, failures, -⟩ := reports _ finished
  have stopped := (exits 0 _ _ rfl).mp rfl
  have torn : Returned moves [(1, "out of memory")] 1 (.panicked "out of memory") :=
    .inr ⟨_, List.mem_singleton_self _, rfl⟩
  refine ⟨_, _, broken, finished, groups, (lookup 0 _ _ rfl).mpr stopped, failures.mpr ?_⟩
  refine ⟨1, Nat.one_lt_two, fun stats stopped' => ?_⟩
  cases broken.returned_unique Nat.one_lt_two torn stopped'

end Pipeline

end EventPipeline
