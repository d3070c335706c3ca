import Mathlib.Data.List.Perm.Basic
import EventPipeline.Pipeline
import EventPipeline.Proofs.Registry.Reserved
import EventPipeline.Proofs.Worker.Life

/-! # Runs of a pipeline

In a run the workers make their steps in any order, and others may change the world in between. A run
is recorded as the moves that were made, each with the index of its worker. The moves of one worker
are what it does alone in a world that others change, so all that holds of one worker holds of each
worker of a pipeline.
-/

namespace EventPipeline

variable {ω κ : Type}

/-- The moves of the worker with this index. -/
def own (i : Nat) (moves : List (Nat × Move ω κ)) : List (Move ω κ) :=
  (moves.filter fun made => made.1 = i).map Prod.snd

theorem own_snoc_self (i : Nat) (moves : List (Nat × Move ω κ)) (m : Move ω κ) :
    own i (moves ++ [(i, m)]) = own i moves ++ [m] := by
  simp [own]

theorem own_snoc_of_ne {i j : Nat} (other : j ≠ i) (moves : List (Nat × Move ω κ)) (m : Move ω κ) :
    own i (moves ++ [(j, m)]) = own i moves := by
  simp [own, other]

theorem mem_of_mem_own {i : Nat} {moves : List (Nat × Move ω κ)} {m : Move ω κ}
    (mem : m ∈ own i moves) : (i, m) ∈ moves := by
  obtain ⟨⟨j, m'⟩, chosen, rfl⟩ := List.mem_map.mp mem
  obtain ⟨made, same⟩ := List.mem_filter.mp chosen
  have same' : j = i := by simpa using same
  exact same' ▸ made

theorem mem_own {i : Nat} {moves : List (Nat × Move ω κ)} {m : Move ω κ} :
    m ∈ own i moves ↔ (i, m) ∈ moves := by
  refine ⟨mem_of_mem_own, fun made => ?_⟩
  exact List.mem_map_of_mem (List.mem_filter.mpr ⟨made, decide_eq_true rfl⟩)

theorem own_cons (i j : Nat) (m : Move ω κ) (moves : List (Nat × Move ω κ)) :
    own i ((j, m) :: moves) = (if j = i then [m] else []) ++ own i moves := by
  by_cases same : j = i <;> simp [own, same]

theorem flatMap_range_single {α : Type} (j : Nat) (xs : List α) (n : Nat) :
    ((List.range n).flatMap fun i => if j = i then xs else []) = if j < n then xs else [] := by
  induction n with
  | zero => rfl
  | succ n ih =>
    rw [List.range_succ, List.flatMap_append, ih, List.flatMap_singleton]
    rcases Nat.lt_trichotomy j n with less | rfl | greater
    · rw [if_pos less, if_neg (Nat.ne_of_lt less), if_pos (Nat.lt_succ_of_lt less), List.append_nil]
    · rw [if_neg (Nat.lt_irrefl j), if_pos rfl, if_pos (Nat.lt_succ_self j), List.nil_append]
    · rw [if_neg (Nat.lt_asymm greater), if_neg (Nat.ne_of_gt greater),
        if_neg (Nat.not_lt.mpr greater)]
      rfl

/-- The moves of all workers are those of the first one, those of the second one and so on. -/
theorem perm_own {n : Nat} {moves : List (Nat × Move ω κ)} (all : ∀ made ∈ moves, made.1 < n) :
    (moves.map Prod.snd).Perm ((List.range n).flatMap fun i => own i moves) := by
  induction moves with
  | nil => simp [own]
  | cons made moves ih =>
    obtain ⟨j, m⟩ := made
    have inside : j < n := all (j, m) (List.mem_cons_self ..)
    have later := ih fun made mem => all made (List.mem_cons_of_mem _ mem)
    simp only [own_cons]
    refine .trans ?_ (List.flatMap_append_perm ..)
    rw [flatMap_range_single, if_pos inside]
    exact later.cons m

theorem perm_flatMap_own {α : Type} {n : Nat} {moves : List (Nat × Move ω κ)}
    (all : ∀ made ∈ moves, made.1 < n) (f : Move ω κ → List α) :
    ((moves.map Prod.snd).flatMap f).Perm
      ((List.range n).flatMap fun i => (own i moves).flatMap f) := by
  rw [← List.flatMap_assoc]
  exact (perm_own all).flatMap_right f

namespace Pipeline

/-- A pipeline has got from its start to here by these moves of its workers. In between others have
changed the world in the given way. -/
inductive Runs (h : Host ω κ) (others : ω → ω → Prop) (start : Pipeline ω κ) :
    List (Nat × Move ω κ) → Pipeline ω κ → Prop where
  | start : Runs h others start [] start
  | moved {moves : List (Nat × Move ω κ)} {line : Pipeline ω κ} {i : Nat} {w : Worker ω}
    {s s' : WorkerState κ} {world' : ω} {happened : List Occurrence}
    (earlier : Runs h others start moves line) (chosen : line.crew[i]? = some (w, s))
    (made : w.step h s line.world = (s', world', happened)) :
    Runs h others start (moves ++ [(i, ⟨s, line.world, s', world', happened⟩)])
      ⟨line.crew.set i (w, s'), world'⟩
  | changed {moves : List (Nat × Move ω κ)} {line : Pipeline ω κ} {world' : ω}
    (earlier : Runs h others start moves line) (change : others line.world world') :
    Runs h others start moves ⟨line.crew, world'⟩

variable {h : Host ω κ} {others : ω → ω → Prop} {moves : List (Nat × Move ω κ)}
  {line : Pipeline ω κ}

theorem Runs.mono {others' : ω → ω → Prop} {start : Pipeline ω κ}
    (run : Runs h others start moves line) (weaker : ∀ world world', others world world' →
      others' world world') : Runs h others' start moves line := by
  induction run with
  | start => exact .start
  | moved _ chosen made ih => exact ih.moved chosen made
  | changed _ change ih => exact ih.changed (weaker _ _ change)

/-- What happens after a run belongs to a longer run. -/
theorem Runs.append {start line' : Pipeline ω κ} {later : List (Nat × Move ω κ)}
    (run : Runs h others start moves line) (after : Runs h others line later line') :
    Runs h others start (moves ++ later) line' := by
  induction after with
  | start => simpa using run
  | moved _ chosen made ih =>
    rw [← List.append_assoc]
    exact ih.moved chosen made
  | changed _ change ih => exact ih.changed change

/-- A worker stays the same worker whatever it does. -/
theorem map_fst_set {i : Nat} {w : Worker ω} {s : WorkerState κ} (chosen : line.crew[i]? = some (w, s))
    (s' : WorkerState κ) : (line.crew.set i (w, s')).map Prod.fst = line.crew.map Prod.fst := by
  have among : (line.crew.map Prod.fst)[i]? = some w := by rw [List.getElem?_map, chosen]; rfl
  obtain ⟨inside, same⟩ := List.getElem?_eq_some_iff.mp among
  have unchanged : (line.crew.map Prod.fst).set i w = line.crew.map Prod.fst :=
    same ▸ List.set_getElem_self inside
  rw [List.map_set, unchanged]

theorem map_fst_start (workers : List (Worker ω)) (world : ω) :
    (start workers world : Pipeline ω κ).crew.map Prod.fst = workers := by
  simp [Pipeline.start, Function.comp_def]

/-- The workers of a run are those that it began with. -/
theorem Runs.map_crew {start : Pipeline ω κ} (run : Runs h others start moves line) :
    line.crew.map Prod.fst = start.crew.map Prod.fst := by
  induction run with
  | start => rfl
  | moved _ chosen _ ih => exact (map_fst_set chosen _).trans ih
  | changed _ _ ih => exact ih

/-- What a worker does in a run of its pipeline it does alone, from where it stood. -/
theorem Runs.makes_from {start : Pipeline ω κ} (run : Runs h others start moves line) {i : Nat}
    {w : Worker ω} {s₀ : WorkerState κ} (stood : start.crew[i]? = some (w, s₀)) :
    ∃ s, line.crew[i]? = some (w, s) ∧ w.Makes h s₀ (own i moves) s := by
  induction run with
  | start => exact ⟨s₀, stood, .start⟩
  | @moved moves line j w' s s' world' happened earlier chosen made ih =>
    obtain ⟨now, present, makes⟩ := ih
    by_cases same : j = i
    · subst same
      rw [chosen] at present
      cases present
      refine ⟨s', ?_, ?_⟩
      · exact List.getElem?_set_self (List.getElem?_eq_some_iff.mp chosen).1
      · rw [own_snoc_self]
        exact makes.step made
    · refine ⟨now, ?_, ?_⟩
      · rw [List.getElem?_set_ne same, present]
      · rw [own_snoc_of_ne same]
        exact makes
  | changed _ _ ih => exact ih

/-- What a worker does in a run of its pipeline it does in a life of its own. -/
theorem Runs.makes {workers : List (Worker ω)} {world : ω}
    (run : Runs h others (.start workers world) moves line) {i : Nat} {w : Worker ω}
    (worker : workers[i]? = some w) :
    ∃ s, line.crew[i]? = some (w, s) ∧ w.Makes h .initial (own i moves) s :=
  run.makes_from (by simp [Pipeline.start, worker])

theorem Runs.worker_of_mem {workers : List (Worker ω)} {world : ω}
    (run : Runs h others (.start workers world) moves line) {i : Nat} {w : Worker ω}
    {s : WorkerState κ} (present : line.crew[i]? = some (w, s)) : workers[i]? = some w := by
  have among : (line.crew.map Prod.fst)[i]? = some w := by rw [List.getElem?_map, present]; rfl
  rwa [run.map_crew, map_fst_start] at among

/-- The move was made by one of the workers. -/
theorem Runs.lt_of_mem {workers : List (Worker ω)} {world : ω}
    (run : Runs h others (.start workers world) moves line) :
    ∀ made ∈ moves, made.1 < workers.length := by
  induction run with
  | start => exact fun _ => nofun
  | moved earlier chosen _ ih =>
    intro made mem
    rcases List.mem_append.mp mem with old | new
    · exact ih made old
    · rw [List.mem_singleton.mp new]
      exact (List.getElem?_eq_some_iff.mp (earlier.worker_of_mem chosen)).1
  | changed _ _ ih => exact ih

/-- A move of a run is a step of a worker in a state that this worker had come to. -/
theorem Runs.made {workers : List (Worker ω)} {world : ω}
    (run : Runs h others (.start workers world) moves line) {i : Nat} {m : Move ω κ}
    (mem : (i, m) ∈ moves) :
    ∃ w, workers[i]? = some w ∧
      ∃ earlier later, own i moves = earlier ++ m :: later ∧ w.Makes h .initial earlier m.before ∧
        w.step h m.before m.found = (m.after, m.left, m.happened) := by
  have worker := List.getElem?_eq_getElem (run.lt_of_mem _ mem)
  obtain ⟨s, -, makes⟩ := run.makes worker
  obtain ⟨earlier, later, split⟩ := List.append_of_mem (mem_own.mpr mem)
  exact ⟨_, worker, earlier, later, split, makes.before split⟩

theorem flatMap_range_eq {α β : Type} {l : List α} {f : Nat → List β} {g : α → List β}
    (each : ∀ i a, l[i]? = some a → f i = g a) :
    (List.range l.length).flatMap f = l.flatMap g := by
  induction l generalizing f with
  | nil => rfl
  | cons a l ih =>
    rw [List.length_cons, List.range_succ_eq_map, List.flatMap_cons, List.flatMap_map,
      List.flatMap_cons, each 0 a rfl, ih fun i b at' => each (i + 1) b at']

/-- What is in the moves of a run is what is in those of each worker. -/
theorem Runs.perm_flatMap {α : Type} {workers : List (Worker ω)} {world : ω}
    (run : Runs h others (.start workers world) moves line) {f : Move ω κ → List α}
    {g : Worker ω → List α} (each : ∀ i w, workers[i]? = some w → (own i moves).flatMap f = g w) :
    ((moves.map Prod.snd).flatMap f).Perm (workers.flatMap g) := by
  rw [← flatMap_range_eq each]
  exact perm_flatMap_own run.lt_of_mem f

/-- If every step of a worker, and everything that others do, relates the world before to the world
after it, then each world of a run is related to all later ones. -/
theorem Runs.related {workers : List (Worker ω)} {world : ω}
    (run : Runs h others (.start workers world) moves line) {R : ω → ω → Prop}
    (refl : ∀ world, R world world) (trans : ∀ {a b c}, R a b → R b c → R a c)
    (steps : ∀ w ∈ workers, ∀ made s, w.Makes h .initial made s → ∀ found s' left happened,
      w.step h s found = (s', left, happened) → R found left)
    (changes : ∀ before after, others before after → R before after) :
    R world line.world ∧
      ∀ made ∈ moves, R world made.2.found ∧ R made.2.found made.2.left ∧
        R made.2.left line.world := by
  induction run with
  | start => exact ⟨refl world, fun _ => nofun⟩
  | @moved moves line i w s s' world' happened earlier chosen step ih =>
    obtain ⟨now, before⟩ := ih
    have worker := earlier.worker_of_mem chosen
    obtain ⟨_, present, makes⟩ := earlier.makes worker
    rw [chosen] at present
    cases present
    have onward := steps w (List.mem_of_getElem? worker) _ _ makes _ _ _ _ step
    refine ⟨trans now onward, ?_⟩
    intro made mem
    rcases List.mem_append.mp mem with old | new
    · obtain ⟨found, made, left⟩ := before made old
      exact ⟨found, made, trans left onward⟩
    · rw [List.mem_singleton.mp new]
      exact ⟨now, onward, refl world'⟩
  | changed _ change ih =>
    obtain ⟨now, before⟩ := ih
    have onward := changes _ _ change
    refine ⟨trans now onward, ?_⟩
    intro made mem
    obtain ⟨found, made, left⟩ := before made mem
    exact ⟨found, made, trans left onward⟩

/-- What every step of a worker and everything that others do keeps still holds in every later world of a
run. -/
theorem Runs.keeps {start : Pipeline ω κ} (run : Runs h others start moves line) {P : ω → Prop}
    (now : P start.world)
    (steps : ∀ w ∈ start.crew.map Prod.fst, ∀ s world s' world' happened,
      w.step h s world = (s', world', happened) → P world → P world')
    (changes : ∀ world world', others world world' → P world → P world') :
    P line.world ∧ ∀ made ∈ moves, P made.2.found := by
  induction run with
  | start => exact ⟨now, fun _ => nofun⟩
  | @moved moves line i w s s' world' happened earlier chosen made ih =>
    obtain ⟨present, before⟩ := ih
    have worker : w ∈ start.crew.map Prod.fst := by
      rw [← earlier.map_crew]
      exact List.mem_map_of_mem (List.mem_of_getElem? chosen)
    refine ⟨steps w worker s _ s' world' happened made present, ?_⟩
    intro made mem
    rcases List.mem_append.mp mem with old | new
    · exact before made old
    · rw [List.mem_singleton.mp new]
      exact present
  | changed _ change ih => exact ⟨changes _ _ change ih.1, ih.2⟩

/-- The moves that the workers make when they follow a schedule. -/
def trace (h : Host ω κ) (line : Pipeline ω κ) : List Nat → List (Nat × Move ω κ)
  | [] => []
  | i :: schedule =>
    let later := trace h (line.step h i).1 schedule
    match line.crew[i]? with
    | none => later
    | some (w, s) =>
      let (s', world', happened) := w.step h s line.world
      (i, ⟨s, line.world, s', world', happened⟩) :: later

/-- Following a schedule is a run in which nobody else does anything. -/
theorem Runs.exec {start : Pipeline ω κ} (run : Runs h others start moves line)
    (schedule : List Nat) :
    Runs h others start (moves ++ line.trace h schedule) (line.exec h schedule).1 ∧
      (line.exec h schedule).2 =
        (line.trace h schedule).flatMap fun (i, m) => m.happened.map fun o => (i, o) := by
  induction schedule generalizing moves line with
  | nil => exact ⟨by simpa [trace, Pipeline.exec] using run, rfl⟩
  | cons i schedule ih =>
    cases chosen : line.crew[i]? with
    | none =>
      have idle : line.step h i = (line, []) := by simp only [Pipeline.step, chosen]
      simpa only [trace, chosen, Pipeline.exec, idle, List.nil_append] using ih run
    | some present =>
      obtain ⟨w, s⟩ := present
      rcases made : w.step h s line.world with ⟨s', world', happened⟩
      have step : line.step h i =
          (⟨line.crew.set i (w, s'), world'⟩, happened.map fun o => (i, o)) := by
        simp only [Pipeline.step, chosen, made]
      obtain ⟨runs, told⟩ := ih (run.moved chosen made)
      constructor
      · simpa only [trace, chosen, made, Pipeline.exec, step, List.append_assoc,
          List.singleton_append] using runs
      · simp only [trace, chosen, made, Pipeline.exec, step, told, List.flatMap_cons]

end Pipeline

/-! ### The workers of a plan -/

namespace Plan

variable {p : Plan ω} {workers : List (Worker ω)}

theorem workers_eq (accepted : p.workers = .ok workers) :
    workers = (p.registry.groups.map fun group =>
      Worker.business group p.brokers p.registry p.publisher p.settings p.timer) ++
        [Worker.retry p.brokers p.registry p.publisher p.settings p.timer] := by
  unfold Plan.workers at accepted
  split at accepted
  · cases accepted
  · cases accepted
    rfl

/-- A worker is that of a registered group, or the worker of the retry topic. -/
theorem mem_workers (accepted : p.workers = .ok workers) {w : Worker ω} :
    w ∈ workers ↔
      (∃ group ∈ p.registry.groups,
        w = .business group p.brokers p.registry p.publisher p.settings p.timer) ∨
      w = .retry p.brokers p.registry p.publisher p.settings p.timer := by
  rw [workers_eq accepted, List.mem_append, List.mem_map, List.mem_singleton]
  simp only [eq_comm]

theorem flatMap_workers {α : Type} (accepted : p.workers = .ok workers) (f : Worker ω → List α) :
    workers.flatMap f =
      (p.registry.groups.flatMap fun group =>
        f (.business group p.brokers p.registry p.publisher p.settings p.timer)) ++
      f (.retry p.brokers p.registry p.publisher p.settings p.timer) := by
  rw [workers_eq accepted, List.flatMap_append, List.flatMap_singleton, List.flatMap_map]

theorem business_of_workers (accepted : p.workers = .ok workers) {i : Nat} {group : String}
    (serves : p.registry.groups[i]? = some group) :
    workers[i]? = some (.business group p.brokers p.registry p.publisher p.settings p.timer) := by
  have inside := (List.getElem?_eq_some_iff.mp serves).1
  rw [workers_eq accepted, List.getElem?_append_left (by simpa using inside), List.getElem?_map,
    serves]
  rfl

theorem retry_of_workers (accepted : p.workers = .ok workers) :
    workers[p.registry.groups.length]? =
      some (.retry p.brokers p.registry p.publisher p.settings p.timer) := by
  rw [workers_eq accepted, List.getElem?_append_right (by simp), List.length_map, Nat.sub_self]
  rfl

/-- All workers have the listeners and the publisher of the plan. -/
theorem same_of_workers (accepted : p.workers = .ok workers) {w : Worker ω} (worker : w ∈ workers) :
    w.registry = p.registry ∧ w.publisher = p.publisher := by
  rcases (mem_workers accepted).mp worker with ⟨group, -, rfl⟩ | rfl
  · exact ⟨rfl, rfl⟩
  · exact ⟨rfl, rfl⟩

/-- All workers pause as the plan says. -/
theorem timings_of_workers (accepted : p.workers = .ok workers) {w : Worker ω} (worker : w ∈ workers) :
    w.settings = p.settings ∧ w.timer = p.timer := by
  rcases (mem_workers accepted).mp worker with ⟨group, -, rfl⟩ | rfl
  · exact ⟨rfl, rfl⟩
  · exact ⟨rfl, rfl⟩

theorem reservedCollision?_of_workers (accepted : p.workers = .ok workers) :
    p.registry.reservedCollision? p.publisher.failureTopics = none := by
  unfold Plan.workers at accepted
  split at accepted
  · cases accepted
  · assumption

theorem ne_retryGroup_of_workers (accepted : p.workers = .ok workers) {group : String}
    (registered : group ∈ p.registry.groups) : group ≠ p.publisher.failureTopics.retryGroup := by
  have free := reservedCollision?_of_workers accepted
  obtain ⟨a, present, rfl⟩ := Registry.mem_groups.mp registered
  exact (Registry.reservedCollision?_eq_none_iff.mp free a present).1

theorem groups_of_workers (accepted : p.workers = .ok workers) :
    workers.map Worker.group = p.registry.groups ++ [p.publisher.failureTopics.retryGroup] := by
  rw [workers_eq accepted, List.map_append, List.map_map]
  congr 1
  exact List.map_id _

/-- No two workers have the same group. -/
theorem nodup_groups_of_workers (accepted : p.workers = .ok workers) :
    (workers.map Worker.group).Nodup := by
  rw [groups_of_workers accepted, List.nodup_append]
  refine ⟨Names.nodup_ofList _, List.pairwise_singleton _ _, ?_⟩
  intro group registered _ retry
  rw [List.mem_singleton.mp retry]
  exact ne_retryGroup_of_workers accepted registered

theorem group_ne_of_workers (accepted : p.workers = .ok workers) {i j : Nat} {w w' : Worker ω}
    (worker : workers[i]? = some w) (worker' : workers[j]? = some w') (other : i ≠ j) :
    w.group ≠ w'.group := by
  intro same
  have nodup := nodup_groups_of_workers accepted
  have inside : i < (workers.map Worker.group).length := by
    rw [List.length_map]
    exact (List.getElem?_eq_some_iff.mp worker).1
  apply other
  apply (List.getElem?_inj inside nodup).mp
  rw [List.getElem?_map, List.getElem?_map, worker, worker', Option.map_some, Option.map_some, same]

/-- No listener uses a name of the retry path. -/
theorem free_of_workers (accepted : p.workers = .ok workers) {group topic : String}
    (subscribed : topic ∈ p.registry.topicsFor group) :
    group ≠ p.publisher.failureTopics.retryGroup ∧
      p.publisher.failureTopics.isReservedTopic topic = false := by
  obtain ⟨a, present, rfl, named⟩ := Registry.mem_topicsFor.mp subscribed
  have free := reservedCollision?_of_workers accepted
  obtain ⟨other, unreserved⟩ := Registry.reservedCollision?_eq_none_iff.mp free a present
  exact ⟨other, unreserved topic named⟩

end Plan

end EventPipeline
