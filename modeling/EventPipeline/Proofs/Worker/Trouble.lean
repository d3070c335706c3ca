import EventPipeline.Bench.Script
import EventPipeline.Proofs.Worker.Life
import EventPipeline.Proofs.Worker.Republish

/-! # Trouble with the broker that stops nobody

A script in the calm is one without the polls that find nothing and without the errors after which a
worker goes on. A worker that follows a script and one that follows it in the calm do the same, except
that the former has idle rounds: it polls without a message, looks whether it should stop, and stands
again where it stood before (`idle_round`). All other steps of both agree (`step_calm`), so they end in
the same way and in the same world, and all that happens with events is the same (`run_calm`).
-/

namespace EventPipeline

open Bench

/-! ### Workers with other consumers -/

section Map

variable {ω κ κ' : Type}

/-- A phase with other consumers. -/
def Phase.map (f : κ → κ') : Phase κ → Phase κ'
  | .unopened => .unopened
  | .checking c => .checking (f c)
  | .waiting c => .waiting (f c)
  | .received c d => .received (f c) d
  | .offering c d r ran => .offering (f c) d r ran
  | .failing c d r => .failing (f c) d r
  | .orphaned c d e => .orphaned (f c) d e
  | .settling c d outcome => .settling (f c) d outcome
  | .leaving c error? => .leaving (f c) error?
  | .ended exit => .ended exit

/-- A worker with other consumers. -/
def WorkerState.map (f : κ → κ') (s : WorkerState κ) : WorkerState κ' :=
  ⟨s.phase.map f, s.stats, s.streak⟩

@[simp] theorem WorkerState.exit?_map (f : κ → κ') (s : WorkerState κ) :
    (s.map f).exit? = s.exit? := by
  obtain ⟨phase, stats, streak⟩ := s
  cases phase <;> rfl

/-- A worker that has ended has no consumer. -/
theorem WorkerState.map_of_exit {s : WorkerState κ} {exit : Exit} (ended : s.exit? = some exit)
    (f : κ → κ) : s.map f = s := by
  obtain ⟨phase, stats, streak⟩ := s
  cases phase <;> first
    | rfl
    | cases ended

namespace Worker

theorem map_resume (f : κ → κ') (w : Worker ω) (c : κ) (outcome : Outcome) (stats : Stats)
    (streak : Nat) :
    WorkerState.map f ⟨w.resume c outcome streak, stats, streak⟩ =
      ⟨w.resume (f c) outcome streak, stats, streak⟩ := by
  unfold WorkerState.map resume
  split <;> rfl

/-- A dispatch does not ask which consumer its message came from. -/
theorem step_map (f : κ → κ') {h : Host ω κ} {h' : Host ω κ'} {w : Worker ω} {s : WorkerState κ}
    (unfinished : s.phase.IsOpen) (world : ω) :
    w.step h' (s.map f) world = ((w.step h s world).1.map f, (w.step h s world).2) := by
  obtain ⟨phase, stats, streak⟩ := s
  cases phase with
  | received c d =>
    simp only [WorkerState.map, Phase.map, step, examine]
    split
    · rfl
    split
    · rfl
    split <;> rfl
  | offering c d r ran =>
    simp only [WorkerState.map, Phase.map, step, offer]
    split
    · split <;> rfl
    split <;> rfl
  | failing c d r =>
    simp only [WorkerState.map, Phase.map, step, escalate]
    split <;> split <;> rfl
  | orphaned c d e => rfl
  | _ => exact unfinished.elim

/-- More steps do nothing to a worker that has ended. -/
theorem run_of_ended {h : Host ω κ} {w : Worker ω} {fuel more : Nat} {s : WorkerState κ} {world : ω}
    (ended : (w.run h fuel s world).1.exit?.isSome) (le : fuel ≤ more) :
    w.run h more s world = w.run h fuel s world := by
  induction fuel generalizing more s world with
  | zero =>
    obtain ⟨exit, some⟩ := Option.isSome_iff_exists.mp ended
    cases more with
    | zero => rfl
    | succ more =>
      rw [run] at some
      simp only [run, some]
  | succ fuel ih =>
    obtain ⟨more, rfl⟩ := Nat.exists_eq_add_one_of_ne_zero (Nat.ne_zero_of_lt le)
    cases exit : s.exit? with
    | some exit => simp only [run, exit]
    | none =>
      simp only [run, exit] at ended ⊢
      rw [ih ended (Nat.le_of_succ_le_succ le)]

end Worker

end Map

/-! ### The calm -/

namespace Bench

/-- The answer of a poll that brings nothing and after which a worker goes on. -/
def isIdle : Except BrokerError (Option Delivery) → Bool
  | .ok (some _) => false
  | .ok none => true
  | .error e => !e.isFatal

/-- The answer to a commit, or that it is done if a worker would go on anyway. -/
def calmCommit : Except BrokerError Unit → Except BrokerError Unit
  | .ok () => .ok ()
  | .error e => if e.isFatal then .error e else .ok ()

/-- A script without idle polls and with commits that fail only for good. -/
def ScriptedConsumer.calm (c : ScriptedConsumer) : ScriptedConsumer :=
  ⟨c.polls.filter fun answer => !isIdle answer, c.commits.map calmCommit⟩

end Bench

/-- What is left of an occurrence in the calm: idle polls and the reports on polls and commits are
dropped, and commits fail only for good. -/
def Occurrence.calm? : Occurrence → Option Occurrence
  | .polled timeout answer => if isIdle answer then none else some (.polled timeout answer)
  | .committed d answer => some (.committed d (calmCommit answer))
  | .logged (.pollFailed _) | .logged (.commitFailed _ _ _) | .logged (.offsetCommitted _ _ _) => none
  | o => some o

namespace Worker

variable {σ : Type} (refusal? : Option BrokerError) (script : ScriptedConsumer)
  {w : Worker (Memory.World σ)} {s s' : WorkerState ScriptedConsumer} {world world' : Memory.World σ}
  {happened : List Occurrence} {c : ScriptedConsumer}

/-- A worker is not before a poll that brings nothing. -/
def IsBusy (s : WorkerState ScriptedConsumer) : Prop :=
  ∀ c answer polls, s.phase = .waiting c → c.polls = answer :: polls → isIdle answer = false

theorem not_isBusy : ¬ IsBusy s ↔ ∃ c answer polls, s.phase = .waiting c ∧
    c.polls = answer :: polls ∧ isIdle answer = true := by
  simp [IsBusy]

/-- In the calm a poll that brings nothing is left out. -/
theorem map_waiting {answer : Except BrokerError (Option Delivery)}
    {polls : List (Except BrokerError (Option Delivery))} (waiting : s.phase = .waiting c)
    (next : c.polls = answer :: polls) (idle : isIdle answer = true) :
    s.map ScriptedConsumer.calm =
      WorkerState.map .calm ⟨.waiting ⟨polls, c.commits⟩, s.stats, s.streak⟩ := by
  have same : c.calm = ScriptedConsumer.calm ⟨polls, c.commits⟩ := by
    simp [ScriptedConsumer.calm, next, idle]
  rw [WorkerState.map, waiting, Phase.map, same]
  rfl

/-- A poll that is not idle in a script is the next one in the calm. -/
theorem poll_calm {answer : Except BrokerError (Option Delivery)}
    {polls : List (Except BrokerError (Option Delivery))} {commits : List (Except BrokerError Unit)}
    (brings : isIdle answer = false) (stats : Stats) (streak : Nat)
    (made : w.poll (scriptedHost refusal? script) ⟨.waiting ⟨answer :: polls, commits⟩, stats, streak⟩
      ⟨answer :: polls, commits⟩ world = (s', world', happened)) :
    w.poll (scriptedHost refusal? script.calm)
      ⟨.waiting (ScriptedConsumer.calm ⟨answer :: polls, commits⟩), stats, streak⟩
      (.calm ⟨answer :: polls, commits⟩) world = (s'.map .calm, world', happened) := by
  have next : ScriptedConsumer.calm ⟨answer :: polls, commits⟩ =
      ⟨answer :: (ScriptedConsumer.calm ⟨polls, commits⟩).polls, commits.map calmCommit⟩ := by
    simp [ScriptedConsumer.calm, brings]
  rw [next]
  match answer with
  | .ok (some d) =>
    cases made
    rfl
  | .ok none => cases brings
  | .error e =>
    have fatal : e.isFatal = true := by simpa [isIdle] using brings
    simp only [poll, scriptedHost, Act.pure_apply, fatal, if_true] at made ⊢
    cases made
    rfl

theorem commit_calm (c : ScriptedConsumer) (d : Delivery) (world : Memory.World σ) : ∃ answer c',
    (scriptedHost refusal? script).commit c d world = ((answer, c'), world, []) ∧
    (scriptedHost refusal? script.calm).commit c.calm d world =
      ((calmCommit answer, c'.calm), world, []) := by
  obtain ⟨polls, commits⟩ := c
  cases commits with
  | nil => exact ⟨_, _, rfl, rfl⟩
  | cons answer commits => exact ⟨answer, _, rfl, rfl⟩

/-- A message is counted and followed by a pause in the calm as it is outside of it. -/
theorem settle_calm (stats : Stats) (streak : Nat) (c : ScriptedConsumer) (d : Delivery)
    (outcome : Outcome)
    (made : w.settle (scriptedHost refusal? script) ⟨.settling c d outcome, stats, streak⟩ c d outcome
      world = (s', world', happened)) :
    ∃ happened', w.settle (scriptedHost refusal? script.calm)
        ⟨.settling c.calm d outcome, stats, streak⟩ c.calm d outcome world =
          (s'.map .calm, world', happened') ∧
      happened'.filterMap Occurrence.calm? = happened.filterMap Occurrence.calm? := by
  obtain ⟨answer, c', commits, commits'⟩ := commit_calm refusal? script c d world
  simp only [settle, commits, commits'] at made ⊢
  cases answer with
  | ok =>
    cases made
    rw [map_resume]
    exact ⟨_, rfl, rfl⟩
  | error e =>
    cases fatal : e.isFatal with
    | true =>
      simp only [calmCommit, fatal, if_true] at made ⊢
      cases made
      exact ⟨_, rfl, rfl⟩
    | false =>
      -- the worker goes on in both runs, and only the reports on the commit differ
      simp only [calmCommit, fatal, Bool.false_eq_true, if_false] at made ⊢
      cases made
      rw [map_resume]
      refine ⟨_, rfl, ?_⟩
      simp [List.filterMap_cons, Occurrence.calm?, calmCommit, fatal]

/-- A step in the calm is the step of the worker outside of it, unless this one polls in vain. -/
theorem step_calm (busy : IsBusy s)
    (made : w.step (scriptedHost refusal? script) s world = (s', world', happened)) :
    ∃ happened', w.step (scriptedHost refusal? script.calm) (s.map .calm) world =
        (s'.map .calm, world', happened') ∧
      happened'.filterMap Occurrence.calm? = happened.filterMap Occurrence.calm? := by
  by_cases unfinished : s.phase.IsOpen
  · refine ⟨happened, ?_, rfl⟩
    rw [step_map ScriptedConsumer.calm unfinished, made]
  obtain ⟨phase, stats, streak⟩ := s
  cases phase with
  | unopened =>
    cases refusal? with
    | none =>
      cases made
      exact ⟨_, rfl, rfl⟩
    | some e =>
      cases made
      exact ⟨_, rfl, rfl⟩
  | checking c =>
    simp only [step, check] at made
    split at made
    · next stopping =>
      cases made
      exact ⟨_, if_pos stopping, rfl⟩
    · next going =>
      cases made
      exact ⟨_, if_neg going, rfl⟩
  | waiting c =>
    obtain ⟨polls, commits⟩ := c
    cases polls with
    | nil =>
      cases made
      exact ⟨_, rfl, rfl⟩
    | cons answer polls =>
      have brings := busy _ _ _ rfl rfl
      exact ⟨happened, poll_calm refusal? script brings stats streak made, rfl⟩
  | settling c d outcome => exact settle_calm refusal? script stats streak c d outcome made
  | leaving c error? =>
    cases error? with
    | none =>
      cases made
      exact ⟨_, rfl, rfl⟩
    | some e =>
      cases made
      exact ⟨_, rfl, rfl⟩
  | ended exit =>
    cases made
    exact ⟨_, rfl, rfl⟩
  | _ => exact absurd trivial unfinished

/-! ### Rounds in which nothing happens -/

/-- After a poll that brings nothing a worker looks whether it should stop. -/
theorem step_idle {answer : Except BrokerError (Option Delivery)}
    {polls : List (Except BrokerError (Option Delivery))} (waiting : s.phase = .waiting c)
    (next : c.polls = answer :: polls) (idle : isIdle answer = true) :
    ∃ happened, w.step (scriptedHost refusal? script) s world =
        (⟨.checking ⟨polls, c.commits⟩, s.stats, s.streak⟩, world, happened) ∧
      happened.filterMap Occurrence.calm? = [] := by
  obtain ⟨phase, stats, streak⟩ := s
  obtain ⟨_, commits⟩ := c
  cases waiting
  cases next
  match answer with
  | .ok (some d) => cases idle
  | .ok none => exact ⟨_, rfl, rfl⟩
  | .error e =>
    have passing : e.isFatal = false := by simpa [isIdle] using idle
    simp only [step, poll, scriptedHost, Act.pure_apply, passing, Bool.false_eq_true, if_false]
    refine ⟨_, rfl, ?_⟩
    simp [logged, List.filterMap_cons, Occurrence.calm?, isIdle, passing]

/-- A worker that polls in vain and ends later does not stop, and polls again. -/
theorem idle_round {answer : Except BrokerError (Option Delivery)}
    {polls : List (Except BrokerError (Option Delivery))} (waiting : s.phase = .waiting c)
    (next : c.polls = answer :: polls) (idle : isIdle answer = true)
    (going : world.stopping = false) {fuel : Nat}
    (ended : (w.run (scriptedHost refusal? script) fuel s world).1.exit?.isSome) :
    ∃ happened fuel', fuel = fuel' + 2 ∧ happened.filterMap Occurrence.calm? = [] ∧
      w.run (scriptedHost refusal? script) fuel s world =
        let later := w.run (scriptedHost refusal? script) fuel'
          ⟨.waiting ⟨polls, c.commits⟩, s.stats, s.streak⟩ world
        (later.1, later.2.1, happened ++ later.2.2) := by
  obtain ⟨happened, polled, nothing⟩ : ∃ happened, w.step (scriptedHost refusal? script) s world =
      (⟨.checking ⟨polls, c.commits⟩, s.stats, s.streak⟩, world, happened) ∧ _ :=
    step_idle refusal? script waiting next idle
  have looks : w.step (scriptedHost refusal? script)
      ⟨.checking ⟨polls, c.commits⟩, s.stats, s.streak⟩ world =
        (⟨.waiting ⟨polls, c.commits⟩, s.stats, s.streak⟩, world, []) :=
    if_neg (by simp [scriptedHost, going])
  have unended : s.exit? = none := by rw [WorkerState.exit?, waiting]
  match fuel with
  | 0 =>
    rw [run, unended] at ended
    cases ended
  | 1 =>
    simp only [run, unended, polled] at ended
    cases ended
  | fuel + 2 =>
    refine ⟨happened, fuel, rfl, nothing, ?_⟩
    rw [run]
    simp only [unended, polled]
    rw [run]
    simp only [WorkerState.exit?, looks, List.nil_append]

/-- A worker that is about to poll has looked whether it should stop. -/
def IsAwake (s : WorkerState ScriptedConsumer) (world : Memory.World σ) : Prop :=
  ∀ c, s.phase = .waiting c → world.stopping = false

theorem isAwake_initial (world : Memory.World σ) : IsAwake .initial world := fun _ => nofun

theorem isAwake_step (made : w.step (scriptedHost refusal? script) s world = (s', world', happened)) :
    IsAwake s' world' := by
  intro c waiting
  cases does_step made
  case proceeded going => exact going
  case committed | commitFailed =>
    unfold resume at waiting
    dsimp only at waiting
    split at waiting <;> cases waiting
  case rested => cases waiting
  all_goals cases waiting

/-- A run in the calm comes to the same as one outside of it. -/
def Agrees (rough calm : Stepped (Memory.World σ) ScriptedConsumer) : Prop :=
  calm.1 = rough.1.map .calm ∧ calm.2.1 = rough.2.1 ∧
    calm.2.2.filterMap Occurrence.calm? = rough.2.2.filterMap Occurrence.calm?

/-- A worker that ends does the same in the calm, in no more steps. -/
theorem exists_run_calm (fuel : Nat) (awake : IsAwake s world)
    (ended : (w.run (scriptedHost refusal? script) fuel s world).1.exit?.isSome) :
    ∃ fuel' ≤ fuel, Agrees (w.run (scriptedHost refusal? script) fuel s world)
      (w.run (scriptedHost refusal? script.calm) fuel' (s.map .calm) world) := by
  induction fuel using Nat.strongRecOn generalizing s world with
  | ind fuel ih =>
    by_cases busy : IsBusy s
    · cases fuel with
      | zero => exact ⟨0, Nat.le_refl 0, rfl, rfl, rfl⟩
      | succ fuel =>
        cases exit : s.exit? with
        | some exit =>
          refine ⟨0, Nat.zero_le _, ?_⟩
          simp only [run, exit]
          exact ⟨rfl, rfl, rfl⟩
        | none =>
          rcases made : w.step (scriptedHost refusal? script) s world with ⟨s', world', happened⟩
          obtain ⟨happened', made', same⟩ := step_calm refusal? script busy made
          simp only [run, exit, made] at ended ⊢
          obtain ⟨fuel', less, state, world, later⟩ :=
            ih fuel (Nat.lt_succ_self fuel) (isAwake_step refusal? script made) ended
          refine ⟨fuel' + 1, Nat.succ_le_succ less, ?_⟩
          simp only [run, WorkerState.exit?_map, exit, made']
          refine ⟨state, world, ?_⟩
          rw [List.filterMap_append, List.filterMap_append, same, later]
    · -- the idle round is left out in the calm, where the worker stands after it already
      obtain ⟨c, answer, polls, waiting, next, idle⟩ := not_isBusy.mp busy
      have going := awake c waiting
      obtain ⟨happened, rest, rfl, nothing, round⟩ :=
        idle_round refusal? script waiting next idle going ended
      rw [round] at ended ⊢
      obtain ⟨fuel', less, state, world, later⟩ := ih rest (by omega) (fun _ _ => going) ended
      refine ⟨fuel', by omega, ?_⟩
      rw [map_waiting waiting next idle]
      refine ⟨state, world, ?_⟩
      rw [List.filterMap_append, nothing, List.nil_append, later]

/-! ### The end of a script -/

/-- A bound on the steps that a worker still makes, from a poll on, if so many listeners are
registered. -/
def waitBound (listeners : Nat) (c : ScriptedConsumer) : Nat :=
  c.polls.length * (listeners + 6) + 3

/-- A bound on the steps that a worker still makes, if so many listeners are registered. -/
def endBound (listeners : Nat) (s : WorkerState ScriptedConsumer) (world : Memory.World σ) : Nat :=
  match s.phase with
  | .unopened => waitBound listeners script + 2
  | .checking c => if world.stopping then 2 else waitBound listeners c + 1
  | .waiting c => waitBound listeners c
  | .received c _ | .offering c _ _ _ | .failing c _ _ | .orphaned c _ _ | .settling c _ _ =>
    waitBound listeners c + 1 + s.phase.stepsLeft listeners
  | .leaving _ _ => 1
  | .ended _ => 0

theorem endBound_held {listeners : Nat} {d : Delivery} (held : s.phase.held? = some (c, d)) :
    endBound script listeners s world = waitBound listeners c + 1 + s.phase.stepsLeft listeners := by
  obtain ⟨phase, stats, streak⟩ := s
  cases phase <;> cases held <;> rfl

theorem endBound_checking_le (listeners : Nat) (c : ScriptedConsumer) (stats : Stats) (streak : Nat)
    (world : Memory.World σ) :
    endBound script listeners ⟨.checking c, stats, streak⟩ world ≤ waitBound listeners c + 1 := by
  simp only [endBound]
  split
  · rw [waitBound]
    omega
  · exact Nat.le_refl _

/-- A poll takes the next answer of the script, or triggers shutdown when there is none. -/
theorem polls_cases {timeout : Duration} {answer : Except BrokerError (Option Delivery)}
    {c' : ScriptedConsumer} {log : List LogEntry}
    (polled : (scriptedHost refusal? script).poll c timeout world = ((answer, c'), world', log)) :
    c.polls = answer :: c'.polls ∨ answer = .ok none ∧ c' = c ∧ world'.stopping = true := by
  obtain ⟨polls, commits⟩ := c
  cases polls with
  | nil =>
    cases polled
    exact .inr ⟨rfl, rfl, rfl⟩
  | cons answer polls =>
    cases polled
    exact .inl rfl

theorem polls_eq_of_commit {d : Delivery} {answer : Except BrokerError Unit} {c' : ScriptedConsumer}
    {log : List LogEntry}
    (committed : (scriptedHost refusal? script).commit c d world = ((answer, c'), world', log)) :
    c'.polls = c.polls := by
  obtain ⟨polls, commits⟩ := c
  cases commits <;> cases committed <;> rfl

theorem waitBound_of_polls {answer : Except BrokerError (Option Delivery)} {c' : ScriptedConsumer}
    (polls : c.polls = answer :: c'.polls) (listeners : Nat) :
    waitBound listeners c = waitBound listeners c' + listeners + 6 := by
  rw [waitBound, waitBound, polls, List.length_cons, Nat.succ_mul]
  omega

theorem endBound_resume_le (listeners : Nat) {c' : ScriptedConsumer} (same : c'.polls = c.polls)
    (outcome : Outcome) (stats : Stats) (streak : Nat) (world : Memory.World σ) :
    endBound script listeners ⟨w.resume c' outcome streak, stats, streak⟩ world ≤
      waitBound listeners c + 1 := by
  rcases w.resume_cases c' outcome streak with resumes | ⟨exit, resumes⟩
  · rw [resumes, waitBound, ← same]
    exact endBound_checking_le script listeners c' stats streak world
  · rw [resumes]
    exact Nat.zero_le _

/-- Each step of a worker brings it nearer to its end. -/
theorem Does.endBound_lt (does : Does (scriptedHost refusal? script) w s world s' world' happened)
    (going : s.exit? = none) :
    endBound script w.registry.accepted.length s' world' <
      endBound script w.registry.accepted.length s world := by
  have positive (c : ScriptedConsumer) : 3 ≤ waitBound w.registry.accepted.length c :=
    Nat.le_add_left ..
  have dispatch (unfinished : s.phase.IsOpen) :
      endBound script w.registry.accepted.length s' world' <
        endBound script w.registry.accepted.length s world := by
    obtain ⟨c, d, held⟩ := unfinished.held
    have less := does.stepsLeft_lt unfinished
    rw [endBound_held script held, endBound_held script ((does.held unfinished).trans held)]
    omega
  cases does <;> first
    | exact dispatch trivial
    | cases going
  case connected stats streak c log answer =>
    cases refusal? with
    | none =>
      cases answer
      exact Nat.lt_succ_of_le (endBound_checking_le ..)
    | some e => cases answer
  case refused => exact Nat.succ_pos _
  case stopped stopping => simp [endBound, show world.stopping = true from stopping]
  case proceeded unstopped => simp [endBound, show world.stopping = false from unstopped]
  case fetched stats streak c c' d log answer =>
    rcases polls_cases refusal? script answer with polls | ⟨none, -⟩
    · simp only [endBound, Phase.stepsLeft, waitBound_of_polls polls]
      omega
    · cases none
  case timedOut stats streak c c' log answer =>
    rcases polls_cases refusal? script answer with polls | ⟨-, -, stopping⟩
    · refine Nat.lt_of_le_of_lt (endBound_checking_le ..) ?_
      simp only [endBound, waitBound_of_polls polls]
      omega
    · simp only [endBound, stopping, if_true]
      exact positive c
  case pollStopped stats streak c c' e log fatal answer =>
    exact Nat.lt_of_lt_of_le (by decide : 1 < 3) (positive c)
  case pollFailed stats streak c c' e log passing answer =>
    rcases polls_cases refusal? script answer with polls | ⟨none, -⟩
    · refine Nat.lt_of_le_of_lt (endBound_checking_le ..) ?_
      simp only [endBound, waitBound_of_polls polls]
      omega
    · cases none
  case committed stats streak c c' d outcome log answer =>
    have same := polls_eq_of_commit refusal? script answer
    exact Nat.lt_succ_of_le (endBound_resume_le script _ same ..)
  case commitFailed stats streak c c' d outcome e log passing answer =>
    have same := polls_eq_of_commit refusal? script answer
    exact Nat.lt_succ_of_le (endBound_resume_le script _ same ..)
  case commitStopped c _ _ _ _ _ _ _ =>
    have wait := positive c
    simp only [endBound]
    omega
  case closed => exact Nat.zero_lt_one
  case gaveUp => exact Nat.zero_lt_one

theorem ended_of_endBound_le {fuel : Nat}
    (enough : endBound script w.registry.accepted.length s world ≤ fuel) :
    (w.run (scriptedHost refusal? script) fuel s world).1.exit?.isSome := by
  induction fuel generalizing s world with
  | zero =>
    cases exit : s.exit? with
    | some exit => simp [run, exit]
    | none =>
      rcases made : w.step (scriptedHost refusal? script) s world with ⟨s', world', happened⟩
      have less := (does_step made).endBound_lt refusal? script exit
      omega
  | succ fuel ih =>
    cases exit : s.exit? with
    | some exit => simp [run, exit]
    | none =>
      rcases made : w.step (scriptedHost refusal? script) s world with ⟨s', world', happened⟩
      have less := (does_step made).endBound_lt refusal? script exit
      simp only [run, exit, made]
      exact ih (by omega)

/-- A worker that follows a script ends within the steps that the test bench gives it. -/
theorem ended_of_stepBound_le (w : Worker (Memory.World σ)) (world : Memory.World σ) {fuel : Nat}
    (enough : stepBound script.polls.length w.registry.accepted.length ≤ fuel) :
    (w.run (scriptedHost refusal? script) fuel .initial world).1.exit?.isSome := by
  apply ended_of_endBound_le
  refine Nat.le_trans ?_ enough
  show script.polls.length * (w.registry.accepted.length + 6) + 3 + 2 ≤
    (script.polls.length + 2) * (w.registry.accepted.length + 8) + 8
  have more : script.polls.length * (w.registry.accepted.length + 6) ≤
      (script.polls.length + 2) * (w.registry.accepted.length + 8) :=
    Nat.mul_le_mul (Nat.le_add_right ..) (Nat.add_le_add_left (by decide) _)
  omega

/-- Trouble with the broker that stops nobody is invisible. A worker that follows a script ends, and if
all polls that bring nothing and all errors that are not fatal are taken out of the script, it ends in
the same way, with the same counts and in the same world; and all that happens is the same, in the same
order, but for the idle polls and the answers and reports of commits: the messages that are
dispatched, the events that are offered and how the handlers answer, the records that are published, how
each message is settled, the pauses that are taken, and everything else that is logged. -/
theorem run_calm (w : Worker (Memory.World σ)) (world : Memory.World σ) {fuel : Nat}
    (enough : stepBound script.polls.length w.registry.accepted.length ≤ fuel) :
    let rough := w.run (scriptedHost refusal? script) fuel .initial world
    let calm := w.run (scriptedHost refusal? script.calm) fuel .initial world
    ∃ exit, rough.1.exit? = some exit ∧ calm.1 = rough.1 ∧ calm.2.1 = rough.2.1 ∧
      calm.2.2.filterMap Occurrence.calm? = rough.2.2.filterMap Occurrence.calm? := by
  have ended := ended_of_stepBound_le refusal? script w world enough
  obtain ⟨fuel', less, state, world', same⟩ :=
    exists_run_calm refusal? script fuel (isAwake_initial world) ended
  obtain ⟨exit, exits⟩ := Option.isSome_iff_exists.mp ended
  have exits' : (w.run (scriptedHost refusal? script.calm) fuel'
      (WorkerState.initial.map .calm) world).1.exit?.isSome := by
    rw [state, WorkerState.exit?_map]
    exact ended
  have more : w.run (scriptedHost refusal? script.calm) fuel .initial world = _ :=
    run_of_ended exits' less
  refine ⟨exit, exits, ?_⟩
  rw [more]
  exact ⟨state.trans (WorkerState.map_of_exit exits _), world', same⟩

end Worker

/-- A script with a message between polls that bring nothing, and with a commit that fails. -/
def Sample.trouble : ScriptedConsumer :=
  ⟨[.error (.transient "no leader"), .ok (some message), .ok none], [.error (.transient "rebalance")]⟩

namespace Worker

/-- The trouble does not count: the one failure is that of the handler. -/
theorem sample_run_calm :
    let rough := Sample.worker.run (scriptedHost none Sample.trouble) 53 .initial Sample.world
    let calm := Sample.worker.run (scriptedHost none Sample.trouble.calm) 53 .initial Sample.world
    calm.1.exit? = some (.stopped ⟨0, 1, 0⟩) ∧ calm.1 = rough.1 ∧
      calm.2.2.filterMap Occurrence.calm? = rough.2.2.filterMap Occurrence.calm? := by
  have enough : stepBound Sample.trouble.polls.length Sample.worker.registry.accepted.length ≤ 53 := by
    decide
  obtain ⟨exit, -, state, -, same⟩ := run_calm none Sample.trouble Sample.worker Sample.world enough
  exact ⟨rfl, state, same⟩

end Worker

end EventPipeline
