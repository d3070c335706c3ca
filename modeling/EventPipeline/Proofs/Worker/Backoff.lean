import EventPipeline.Proofs.Duration
import EventPipeline.Proofs.Worker.Figures

/-! # Pauses and the streak of failures

The streak of a worker is determined by its turns (`Worker.streakOf`): it is the number of messages that a
handler failed on since the last message that was processed. `Kept.streak_eq` shows it for every turn that
a worker can take, and with it the pause after each message.
-/

namespace EventPipeline

variable {ω κ : Type}

namespace Worker

/-- How many messages a handler failed on since the last that was processed, or since the start. -/
def streakOf (w : Worker ω) (turns : List Turn) : Nat :=
  min ((turns.reverse.takeWhile fun t => !w.succeeds t).countP Turn.fails) 0xFFFF_FFFF

variable {h : Host ω κ} {w : Worker ω}

section Kept

variable {turns : List Turn} {t : Turn} {stats : Stats} {streak : Nat} {pause? : Option Duration}

theorem streakOf_snoc (w : Worker ω) (turns : List Turn) (t : Turn) :
    w.streakOf (turns ++ [t]) =
      if w.succeeds t = true then 0
      else if t.fails = true then min (w.streakOf turns + 1) 0xFFFF_FFFF
      else w.streakOf turns := by
  rw [streakOf, List.reverse_append, List.reverse_singleton, List.singleton_append,
    List.takeWhile_cons]
  cases w.succeeds t with
  | true => rfl
  | false =>
    rw [Bool.not_false, if_pos rfl, if_neg Bool.false_ne_true, List.countP_cons, streakOf]
    cases t.fails with
    | true =>
      rw [if_pos rfl, if_pos rfl]
      omega
    | false => rfl

theorem succeeds_of_idles (idles : w.Idles h t) : w.succeeds t = false := by
  rw [succeeds, idles.nothing]
  rfl

theorem succeeds_of_serves {d : Delivery} {outcome : Outcome}
    (serves : w.Serves h t d outcome stats streak) :
    w.succeeds t = (!w.drops d && !outcome.isFailure) := by
  rw [succeeds, serves.message, serves.fails]
  rfl

/-- The streak that turns leave is determined by what came and what failed in them. -/
theorem Kept.streak_eq (kept : w.Kept h turns stats streak pause?) : streak = w.streakOf turns := by
  induction kept with
  | start => rfl
  | idles _ _ idles ih =>
    rw [streakOf_snoc, succeeds_of_idles idles, idles.fails, ih]
    rfl
  | serves _ _ serves ih =>
    rw [streakOf_snoc, succeeds_of_serves serves, serves.fails, ← ih]
    have drops := serves.drops
    rename_i outcome _ _
    cases outcome <;> simp_all [nextStreak, Outcome.isFailure, Outcome.backsOff]

/-- While no message is processed, the streak does not become shorter. -/
theorem streakOf_le_append (w : Worker ω) (turns : List Turn) {more : List Turn}
    (unprocessed : ∀ t ∈ more, w.succeeds t = false) :
    w.streakOf turns ≤ w.streakOf (turns ++ more) := by
  have all : ∀ t ∈ more.reverse, (!w.succeeds t) = true := by
    intro t mem
    rw [unprocessed t (List.mem_reverse.mp mem)]
    rfl
  rw [streakOf, streakOf, List.reverse_append, List.takeWhile_append_of_pos all, List.countP_append]
  omega

/-! ### The pause after a message -/

theorem filterMap_pause?_afterCommit (w : Worker ω) (outcome : Outcome) (stats : Stats)
    (streak : Nat) :
    (w.afterCommit outcome stats streak).filterMap Occurrence.pause? =
      ((w.pause? outcome streak).filter fun pause => !w.timer.outlastedBy pause).toList := by
  have progress : (if stats.total % progressInterval = 0 then [Occurrence.logged (.progress stats)]
      else []).filterMap Occurrence.pause? = [] := by split <;> rfl
  unfold afterCommit
  rw [List.filterMap_append, progress, List.nil_append]
  cases w.pause? outcome streak with
  | none => rfl
  | some pause =>
    cases outlasts : w.timer.outlastedBy pause <;>
      simp [outlasts, Option.filter, Occurrence.pause?, List.filterMap_cons]

theorem filterMap_announcement?_afterCommit (w : Worker ω) (outcome : Outcome) (stats : Stats)
    (streak : Nat) :
    (w.afterCommit outcome stats streak).filterMap Occurrence.announcement? =
      ((w.pause? outcome streak).map fun pause => (streak, pause)).toList := by
  have progress : (if stats.total % progressInterval = 0 then [Occurrence.logged (.progress stats)]
      else []).filterMap Occurrence.announcement? = [] := by split <;> rfl
  unfold afterCommit
  rw [List.filterMap_append, progress, List.nil_append]
  cases w.pause? outcome streak with
  | none => rfl
  | some pause => cases outlasts : w.timer.outlastedBy pause <;> simp [outlasts, Occurrence.announcement?]

theorem pause?_of_dropped {outcome : Outcome} (dropped : outcome.backsOff = false) (w : Worker ω)
    (streak : Nat) : w.pause? outcome streak = none := by
  rw [pause?, dropped]
  rfl

theorem pause?_of_counted {outcome : Outcome} (counted : outcome.backsOff = true) (w : Worker ω)
    (streak : Nat) : w.pause? outcome streak =
      if (w.settings.backoff streak).toNanos = 0 then none else some (w.settings.backoff streak) := by
  rw [pause?, counted, Bool.true_and]
  cases zero : (w.settings.backoff streak).isZero with
  | true => rw [if_pos (Duration.isZero_iff.mp zero)]; rfl
  | false => rw [if_neg fun none => Bool.eq_false_iff.mp zero (Duration.isZero_iff.mpr none)]; rfl

/-- A pause is taken if it is any time at all and a clock can tell when it is over. -/
theorem toList_filter_asked (pause : Duration) :
    ((if pause.toNanos = 0 then none else some pause).filter fun p => !w.timer.outlastedBy p).toList =
      if pause.toNanos = 0 ∨ w.timer.outlastedBy pause = true then [] else [pause] := by
  by_cases zero : pause.toNanos = 0
  · rw [if_pos zero, if_pos (.inl zero)]
    rfl
  · rw [if_neg zero]
    cases outlasts : w.timer.outlastedBy pause with
    | true =>
      rw [if_pos (.inr rfl), Option.filter, outlasts]
      rfl
    | false =>
      rw [if_neg (not_or.mpr ⟨zero, Bool.false_ne_true⟩), Option.filter, outlasts]
      rfl

section Serves

variable {d : Delivery} {outcome : Outcome}

/-- What a worker pauses for in a turn is what it asks for, unless that outlasts the clock. -/
theorem Serves.pauses_eq (serves : w.Serves h t d outcome stats streak) :
    t.pauses = ((w.asked? t.breaks outcome streak).filter fun pause =>
      !w.timer.outlastedBy pause).toList := by
  rw [serves.pauses, closing, asked?]
  cases t.breaks with
  | true => rfl
  | false => exact filterMap_pause?_afterCommit w outcome stats streak

theorem Serves.announced_eq (serves : w.Serves h t d outcome stats streak) (alone : w.CountsAlone h) :
    t.announced = ((w.asked? t.breaks outcome streak).map fun pause => (streak, pause)).toList := by
  rw [(serves.reports alone).2, closing, asked?]
  cases t.breaks with
  | true => rfl
  | false => exact filterMap_announcement?_afterCommit w outcome stats streak

theorem Serves.unpaused (serves : w.Serves h t d outcome stats streak)
    (none : w.asked? t.breaks outcome streak = none) :
    t.pauses = [] ∧ (w.CountsAlone h → t.announced = []) := by
  refine ⟨?_, fun alone => ?_⟩
  · rw [serves.pauses_eq, none]
    rfl
  · rw [serves.announced_eq alone, none]
    rfl

end Serves

/-- How a turn of a worker ends that comes after these turns, when the worker is in this state after some
more. -/
structure Paces (h : Host ω κ) (w : Worker ω) (s : WorkerState κ) (before : List Turn) (t : Turn)
    (after : List Turn) : Prop where
  /-- There is no pause if no message came, or if it is not committed, or if its commit stopped the
  worker. -/
  unpaused : t.message? = none ∨ t.commits = [] ∨ t.breaks = true →
    t.pauses = [] ∧ (w.CountsAlone h → t.announced = [])
  /-- There is none after a message that is dropped, and the streak is what it was before. -/
  dropped : ∀ d, t.message? = some d → t.commits ≠ [] → w.drops d = true →
    t.pauses = [] ∧ (w.CountsAlone h → t.announced = []) ∧
      w.streakOf (before ++ [t]) = w.streakOf before
  /-- There is none after a message that is processed. -/
  processed : w.succeeds t = true → t.pauses = [] ∧ (w.CountsAlone h → t.announced = [])
  /-- After any other message the pause is so many units as the streak says, up to the longest pause. It
  is announced and taken if it is any time at all, and it tears the worker down if it outlasts the
  clock. -/
  counted : ∀ d, t.message? = some d → t.commits ≠ [] → t.breaks = false → w.drops d = false →
    ∃ pause : Duration,
      pause.toNanos =
        min (w.streakOf (before ++ [t]) * w.settings.backoffUnit.toNanos)
          w.settings.maxBackoff.toNanos ∧
      t.pauses = (if pause.toNanos = 0 ∨ w.timer.outlastedBy pause = true then [] else [pause]) ∧
      (w.timer.outlastedBy pause = true → s.phase.IsTorn ∧ after = []) ∧
      (w.CountsAlone h →
        t.announced = if pause.toNanos = 0 then [] else [(w.streakOf (before ++ [t]), pause)])

theorem Holds.paces {s : WorkerState κ} {before after : List Turn} {d : Delivery} {failed : Prop}
    (holds : w.Holds h t d failed) : w.Paces h s before t after where
  unpaused _ := ⟨holds.pauses, fun alone => (holds.reports alone).2⟩
  dropped _ _ committed := absurd holds.commits committed
  processed _ := ⟨holds.pauses, fun alone => (holds.reports alone).2⟩
  counted _ _ committed := absurd holds.commits committed

theorem Idles.paces {s : WorkerState κ} {before after : List Turn} (idles : w.Idles h t) :
    w.Paces h s before t after where
  unpaused _ := ⟨idles.pauses, fun alone => (idles.reports alone).2⟩
  dropped _ _ committed := absurd idles.commits committed
  processed _ := ⟨idles.pauses, fun alone => (idles.reports alone).2⟩
  counted _ _ committed := absurd idles.commits committed

theorem Kept.paces {s : WorkerState κ} {before after : List Turn}
    (kept : w.Kept h (before ++ [t]) stats streak pause?)
    (torn : pause?.any w.timer.outlastedBy = true → s.phase.IsTorn ∧ after = []) :
    w.Paces h s before t after := by
  have streaks := kept.streak_eq
  obtain ⟨_, streak', _, earlier, -, ⟨idles, -⟩ | ⟨d, outcome, serves, -, next, rfl⟩⟩ := kept.last_cases
  · exact idles.paces
  have streaks' := earlier.streak_eq
  have resting (none : w.pause? outcome streak = none) : w.asked? t.breaks outcome streak = .none := by
    rw [asked?, none, ite_self]
  refine ⟨?_, ?_, ?_, ?_⟩
  · rintro (nothing | uncommitted | stops)
    · rw [serves.message] at nothing
      cases nothing
    · obtain ⟨answer, commits⟩ := serves.commits
      rw [commits] at uncommitted
      cases uncommitted
    · exact serves.unpaused (if_pos stops)
  · intro d' message _ drops
    rw [serves.message] at message
    cases message
    have dropped : outcome.backsOff = false := by rw [serves.drops, drops]; rfl
    obtain ⟨unpaused, unannounced⟩ := serves.unpaused (resting (pause?_of_dropped dropped w streak))
    refine ⟨unpaused, unannounced, ?_⟩
    rw [← streaks, ← streaks', next, nextStreak, dropped]
    cases outcome <;> first
      | rfl
      | cases dropped
  · intro processed
    have zero : streak = 0 := by rw [streaks, streakOf_snoc, if_pos processed]
    have keeps : outcome.backsOff = true := by
      rw [succeeds_of_serves serves, ← serves.drops, Bool.and_eq_true] at processed
      exact processed.1
    apply serves.unpaused
    apply resting
    rw [pause?_of_counted keeps, Settings.toNanos_backoff, zero, Nat.zero_mul, Nat.zero_min, if_pos rfl]
  · intro d' message _ survived keeps
    rw [serves.message] at message
    cases message
    have counted : outcome.backsOff = true := by rw [serves.drops, keeps]; rfl
    have asked : w.asked? t.breaks outcome streak =
        if (w.settings.backoff streak).toNanos = 0 then none else some (w.settings.backoff streak) := by
      rw [asked?, survived, if_neg Bool.false_ne_true, pause?_of_counted counted]
    rw [← streaks]
    refine ⟨w.settings.backoff streak, w.settings.toNanos_backoff streak, ?_, fun outlasts => ?_,
      fun alone => ?_⟩
    · rw [serves.pauses_eq, asked]
      exact toList_filter_asked _
    · apply torn
      rw [asked, if_neg (Duration.toNanos_ne_zero_of_outlastedBy outlasts)]
      exact outlasts
    · rw [serves.announced_eq alone, asked]
      by_cases zero : (w.settings.backoff streak).toNanos = 0 <;> simp [zero]

end Kept

variable {s : WorkerState κ} {moves : List (Move ω κ)}

theorem Makes.paces (run : w.Makes h .initial moves s) {before after : List Turn} {t : Turn}
    (split : turns moves = before ++ t :: after) : w.Paces h s before t after := by
  rcases run.turn_cases split with ⟨d, failed, holds, -⟩ | ⟨_, _, _, kept, torn⟩
  · exact holds.paces
  · exact kept.paces torn

/-- A pause that was taken is as long as the streak says. -/
theorem Paces.toNanos_eq {before after : List Turn} {t : Turn} (paces : w.Paces h s before t after)
    {pause : Duration} (taken : pause ∈ t.pauses) :
    pause.toNanos = min (w.streakOf (before ++ [t]) * w.settings.backoffUnit.toNanos)
      w.settings.maxBackoff.toNanos := by
  have some : t.pauses ≠ [] := List.ne_nil_of_mem taken
  have resumes : ¬ (t.message? = none ∨ t.commits = [] ∨ t.breaks = true) :=
    fun none => some (paces.unpaused none).1
  simp only [not_or, Bool.not_eq_true] at resumes
  obtain ⟨message, committed, survived⟩ := resumes
  obtain ⟨d, message⟩ := Option.ne_none_iff_exists'.mp message
  cases drops : w.drops d with
  | true => exact absurd (paces.dropped d message committed drops).1 some
  | false =>
    obtain ⟨asked, long, pauses, -⟩ := paces.counted d message committed survived drops
    rw [pauses] at taken
    split at taken
    · cases taken
    · rw [List.mem_singleton.mp taken]
      exact long

/-- Everything that a worker pauses for is in its turns, and each turn ends in a pause as long as the
streak of failures says; while no message is processed, no pause is shorter than one before it. -/
theorem Makes.pauses_follow_streak (run : w.Makes h .initial moves s) :
    observed Occurrence.pause? moves = (turns moves).flatMap Turn.pauses ∧
    (∀ before t after, turns moves = before ++ t :: after → w.Paces h s before t after) ∧
    ∀ before t between t' after, turns moves = before ++ t :: between ++ t' :: after →
      (∀ u ∈ between ++ [t'], w.succeeds u = false) →
      ∀ pause ∈ t.pauses, ∀ pause' ∈ t'.pauses, pause.toNanos ≤ pause'.toNanos := by
  refine ⟨?_, fun before t after split => run.paces split, ?_⟩
  · exact run.observed_turns ofRounds_pause? (othersLog_of_unlogged fun _ => rfl) fun _ _ => rfl
  · intro before t between t' after split unprocessed pause taken pause' taken'
    have long := (run.paces (by rw [split, List.append_assoc, List.cons_append])).toNanos_eq taken
    have long' := (run.paces split).toNanos_eq taken'
    have grows := w.streakOf_le_append (before ++ [t]) unprocessed
    have same : before ++ [t] ++ (between ++ [t']) = before ++ t :: between ++ [t'] := by simp
    rw [same] at grows
    rw [long, long']
    exact min_le_min_right _ (Nat.mul_le_mul_right _ grows)

/-- The worker of the sample pauses for a second after the message that its handler failed on. -/
theorem sample_pauses_follow_streak : ∃ t pause,
    turns Sample.stoppedLife.1 = [t] ∧ t.message? = some Sample.message ∧ t.fails = true ∧
    Sample.worker.streakOf [t] = 1 ∧ t.pauses = [pause] ∧ pause.toNanos = 1_000_000_000 := by
  have run : Sample.worker.Makes Memory.World.host .initial Sample.stoppedLife.1
      Sample.stoppedLife.2 := makes_live .start Sample.closingWorlds
  obtain ⟨-, paces, -⟩ := run.pauses_follow_streak
  have only : turns Sample.stoppedLife.1 = [⟨.ok (some Sample.message), _⟩] := rfl
  have streak : Sample.worker.streakOf (turns Sample.stoppedLife.1) = 1 := by decide +kernel
  have drops : Sample.worker.drops Sample.message = false := rfl
  rw [only] at streak
  obtain ⟨pause, long, pauses, torn, -⟩ :=
    (paces [] _ [] only).counted _ rfl (List.cons_ne_nil _ _) rfl drops
  have second : pause.toNanos = 1_000_000_000 := by
    rw [long, List.nil_append, streak]
    decide
  have bearable : Sample.worker.timer.outlastedBy pause ≠ true := by
    intro outlasts
    obtain ⟨⟨text, same⟩, -⟩ := torn outlasts
    cases same
  rw [if_neg (not_or.mpr ⟨by rw [second]; decide, bearable⟩)] at pauses
  exact ⟨_, pause, only, rfl, rfl, streak, pauses, second⟩

end Worker

end EventPipeline
