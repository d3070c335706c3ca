import EventPipeline.Proofs.Memory.Course

/-! # The order of turns does not matter

When all workers have read everything, what they have done follows from what they have fetched. What
the groups fetch was there at the start. What the retry worker fetches are the records that were there
and those that were added, and which were added follows again from what was fetched. As a retry leads
only to retries with a smaller budget, this settles which records there are, whatever the order: two
runs from one start end alike.
-/

namespace EventPipeline

namespace Memory

open Worker

variable {σ : Type}

/-! ### Lists that feed on themselves -/

section Feedback

variable {α : Type} {rank : α → Nat} {f : α → List α} {given xs ys : List α}

/-- What has rank `n` or more comes from what has rank `n + 1` or more. -/
theorem filter_flatMap_of_lowers (lowers : ∀ a, ∀ b ∈ f a, rank b < rank a) (l : List α) (n : Nat) :
    ((l.flatMap f).filter fun b => n ≤ rank b) =
      (l.filter fun a => n + 1 ≤ rank a).flatMap fun a => (f a).filter fun b => n ≤ rank b := by
  induction l with
  | nil => rfl
  | cons a l ih =>
    rw [List.flatMap_cons, List.filter_append, ih]
    by_cases high : n + 1 ≤ rank a
    · rw [List.filter_cons_of_pos (by simpa using high), List.flatMap_cons]
    · have nothing : ((f a).filter fun b => n ≤ rank b) = [] := by
        rw [List.filter_eq_nil_iff]
        intro b comes reaches
        have lower := lowers a b comes
        have reaches := of_decide_eq_true reaches
        omega
      rw [List.filter_cons_of_neg (by simpa using high), nothing, List.nil_append]

theorem perm_filter_of_feedback (lowers : ∀ a, ∀ b ∈ f a, rank b < rank a)
    (feedback : xs.Perm (given ++ xs.flatMap f)) (n : Nat) :
    (xs.filter fun a => n ≤ rank a).Perm ((given.filter fun a => n ≤ rank a) ++
      (xs.filter fun a => n + 1 ≤ rank a).flatMap fun a => (f a).filter fun b => n ≤ rank b) := by
  rw [← filter_flatMap_of_lowers lowers, ← List.filter_append]
  exact feedback.filter _

/-- If all members of a list are given or come from members of greater rank, there is one such list
only, up to the order. -/
theorem perm_of_feedback {top : Nat} (bounded : ∀ a, rank a < top)
    (lowers : ∀ a, ∀ b ∈ f a, rank b < rank a) (first : xs.Perm (given ++ xs.flatMap f))
    (second : ys.Perm (given ++ ys.flatMap f)) : xs.Perm ys := by
  -- downwards from the top, the members of rank `n` or more agree
  have descend : ∀ k n, top ≤ n + k →
      (xs.filter fun a => n ≤ rank a).Perm (ys.filter fun a => n ≤ rank a) := by
    intro k
    induction k with
    | zero =>
      intro n beyond
      have nothing : ∀ l : List α, (l.filter fun a => n ≤ rank a) = [] := by
        intro l
        rw [List.filter_eq_nil_iff]
        intro a _ reaches
        have below := bounded a
        have reaches := of_decide_eq_true reaches
        omega
      rw [nothing, nothing]
    | succ k ih =>
      intro n beyond
      have above := ih (n + 1) (by omega)
      have left := perm_filter_of_feedback lowers first n
      have right := perm_filter_of_feedback lowers second n
      exact left.trans (((above.flatMap_right _).append_left _).trans right.symm)
  simpa using descend top 0 (Nat.le_add_left ..)

end Feedback

theorem recordsOn_flatMap {α : Type} (topic : String) (l : List α)
    (f : α → List (String × Record)) :
    recordsOn topic (l.flatMap f) = l.flatMap fun a => recordsOn topic (f a) := by
  rw [recordsOn, List.filter_flatMap, List.map_flatMap]
  rfl

/-- The counts do not depend on the order of the outcomes. -/
instance : RightCommutative Stats.record := by
  constructor
  intro stats first second
  cases first <;> cases second <;> rfl

/-- A group that has got anywhere has committed. -/
theorem Broker.committed?_of_reached_pos {b : Broker} {group topic : String}
    (positive : 0 < b.reached group topic) :
    b.committed? group topic = some (b.reached group topic) := by
  cases committed : b.committed? group topic with
  | none =>
    rw [reached, committed] at positive
    cases positive
  | some offset =>
    rw [reached, committed]
    rfl

/-! ### What workers leave alone -/

/-- The same topics refuse records, and only these groups may have committed anything. -/
structure World.Keeps (groups : List String) (world world' : World σ) : Prop where
  refusing : world'.broker.refusing = world.broker.refusing
  commits : ∀ group topic, group ∉ groups →
    world'.broker.committed? group topic = world.broker.committed? group topic

namespace World.Keeps

variable {groups : List String} {world world' world'' : World σ}

theorem of_sameLogs (same : world.SameLogs world') : world.Keeps groups world' := by
  refine ⟨same.refusing, fun group topic _ => ?_⟩
  exact Broker.committed?_congr same.offsets group topic

theorem refl (groups : List String) (world : World σ) : world.Keeps groups world :=
  of_sameLogs ⟨rfl, rfl, rfl⟩

theorem trans (first : world.Keeps groups world') (second : world'.Keeps groups world'') :
    world.Keeps groups world'' := by
  refine ⟨second.refusing.trans first.refusing, fun group topic nobody => ?_⟩
  rw [second.commits group topic nobody, first.commits group topic nobody]

end World.Keeps

theorem Obeys.keeps {rules : Rules σ} {w : Worker (World σ)} (obeys : Obeys rules w)
    {s s' : WorkerState Consumer} {world world' : World σ} {happened : List Occurrence}
    (does : Does World.host w s world s' world' happened)
    (ours : ∀ c, s.phase.consumer? = some c → c.group = w.group) {groups : List String}
    (among : w.group ∈ groups) : world.Keeps groups world' := by
  by_cases unfinished : s.phase.IsOpen
  · rcases obeys.sameLogs_or_append does unfinished with same | ⟨topic, r, -, append⟩
    · exact .of_sameLogs same
    · constructor
      · rw [append]
        rfl
      · intro group topic _
        rw [append]
        rfl
  · rcases (works_of_does does).sameLogs_or_settled unfinished with
      same | ⟨c, d, outcome, settling, broker⟩
    · exact .of_sameLogs same
    · constructor
      · rw [broker]
        rfl
      · intro group topic nobody
        rw [broker, Broker.committed?_commit_of_group_ne]
        rintro rfl
        rw [ours c (congrArg Phase.consumer? settling)] at nobody
        exact nobody among

/-- In a run the same topics refuse records, and only the workers' groups commit anything. -/
theorem keeps_of_runs {rules : Rules σ} {workers : List (Worker (World σ))} {world : World σ}
    {others : World σ → World σ → Prop} {moves : List (Nat × Move (World σ) Consumer)}
    {line : Pipeline (World σ) Consumer} (obeys : ∀ w ∈ workers, Obeys rules w)
    (spare : ∀ before after, others before after → before.SameLogs after)
    (run : Pipeline.Runs World.host others (.start workers world) moves line) :
    let groups := workers.map Worker.group
    world.Keeps groups line.world ∧ ∀ made ∈ moves, world.Keeps groups made.2.found ∧
      made.2.found.Keeps groups made.2.left ∧ made.2.left.Keeps groups line.world := by
  intro groups
  apply run.related (World.Keeps.refl groups) World.Keeps.trans
  · intro w worker _ _ makes _ _ _ _ step
    have serves := serves_of_makes makes fun _ _ topic => Nat.zero_le _
    apply (obeys w worker).keeps (does_step step) fun c consumer => (serves c consumer).group
    exact List.mem_map_of_mem worker
  · exact fun before after change => .of_sameLogs (spare before after change)

/-! ### Runs to the end -/

/-- In this run nobody but the workers touches logs or commits, and at its end no worker has a record
that is unread or not committed. -/
structure Finishes (workers : List (Worker (World σ))) (world : World σ)
    (moves : List (Nat × Move (World σ) Consumer)) (line : Pipeline (World σ) Consumer) : Prop where
  run : Pipeline.Runs World.host World.SameLogs (.start workers world) moves line
  allRead : ∀ w ∈ workers, ∀ topic ∈ w.topics,
    line.world.broker.nextOffset topic ≤ line.world.broker.reached w.group topic

/-- The workers of this plan start in this world and obey these rules, and the group of the retry worker
does not stand beyond the end of the retry topic. -/
structure Governed (rules : Rules σ) (p : Plan (World σ)) (workers : List (Worker (World σ)))
    (world : World σ) : Prop where
  accepted : p.workers = .ok workers
  obeys : ∀ w ∈ workers, Obeys rules w
  refusing : world.broker.refusing = rules.refusing
  inside : world.broker.reached p.publisher.failureTopics.retryGroup
    p.publisher.failureTopics.retryTopic ≤
      world.broker.nextOffset p.publisher.failureTopics.retryTopic

namespace Governed

variable {rules : Rules σ} {p : Plan (World σ)} {workers : List (Worker (World σ))} {world : World σ}

theorem quietly (governed : Governed rules p workers world) : ∀ w ∈ workers, HandlesQuietly w :=
  fun w worker => (governed.obeys w worker).quietly

/-- Every worker follows its agenda, and always finds that the same topics refuse records. -/
theorem follows (governed : Governed rules p workers world) {others : World σ → World σ → Prop}
    (spare : ∀ before after, others before after → before.SameLogs after)
    {moves : List (Nat × Move (World σ) Consumer)} {line : Pipeline (World σ) Consumer}
    (run : Pipeline.Runs World.host others (.start workers world) moves line) {i : Nat}
    {w : Worker (World σ)} (worker : workers[i]? = some w) :
    ∃ s, line.crew[i]? = some (w, s) ∧ w.Makes World.host .initial (own i moves) s ∧
      Follows w world.broker line.world (own i moves) s ∧
      ∀ m ∈ own i moves, m.found.broker.refusing = rules.refusing := by
  obtain ⟨s, present, makes, follows⟩ :=
    follows_of_runs governed.accepted governed.obeys governed.inside spare run worker
  obtain ⟨-, keeps⟩ := keeps_of_runs governed.obeys spare run
  refine ⟨s, present, makes, follows, ?_⟩
  intro m made
  rw [(keeps (i, m) (mem_of_mem_own made)).1.refusing, governed.refusing]

end Governed

section Agenda

variable {α : Type} {p : Plan (World σ)} {start b : Broker}

/-- What the retry worker has to read is what it had to read at the start and what was added since. -/
theorem map_agenda_retry (f : Delivery → α)
    (anywhere : ∀ (r : Record) i, f (r.message p.publisher.failureTopics.retryTopic i) =
      f (r.message p.publisher.failureTopics.retryTopic 0))
    (inside : start.reached p.publisher.failureTopics.retryGroup p.publisher.failureTopics.retryTopic ≤
      start.nextOffset p.publisher.failureTopics.retryTopic)
    {added : List Record}
    (records : b.records p.publisher.failureTopics.retryTopic =
      start.records p.publisher.failureTopics.retryTopic ++ added) :
    let w := Worker.retry p.brokers p.registry p.publisher p.settings p.timer
    (agenda w start b).map f = (agenda w start start).map f ++
      added.map fun r => f (r.message p.publisher.failureTopics.retryTopic 0) := by
  intro w
  have single : ∀ b : Broker, agenda w start b =
      b.messages p.publisher.failureTopics.retryTopic
        (start.reached p.publisher.failureTopics.retryGroup p.publisher.failureTopics.retryTopic) :=
    fun _ => List.append_nil _
  rw [single, single, Broker.map_messages _ fun i r => anywhere r i,
    Broker.map_messages _ fun i r => anywhere r i, records, List.drop_append_of_le_length inside,
    List.map_append]

theorem flatMap_agenda_retry (f : Delivery → List α)
    (anywhere : ∀ (r : Record) i, f (r.message p.publisher.failureTopics.retryTopic i) =
      f (r.message p.publisher.failureTopics.retryTopic 0))
    (inside : start.reached p.publisher.failureTopics.retryGroup p.publisher.failureTopics.retryTopic ≤
      start.nextOffset p.publisher.failureTopics.retryTopic)
    {added : List Record}
    (records : b.records p.publisher.failureTopics.retryTopic =
      start.records p.publisher.failureTopics.retryTopic ++ added) :
    let w := Worker.retry p.brokers p.registry p.publisher p.settings p.timer
    (agenda w start b).flatMap f = (agenda w start start).flatMap f ++
      added.flatMap fun r => f (r.message p.publisher.failureTopics.retryTopic 0) := by
  intro w
  rw [List.flatMap_def, map_agenda_retry f anywhere inside records, List.flatten_append,
    ← List.flatMap_def, ← List.flatMap_def]

end Agenda

section Finished

variable {p : Plan (World σ)} {workers : List (Worker (World σ))} {rules : Rules σ} {world : World σ}
  {moves moves' : List (Nat × Move (World σ) Consumer)} {line line' : Pipeline (World σ) Consumer}

theorem Finishes.quiet (one : Finishes workers world moves line) :
    Pipeline.Runs World.host World.Quiet (.start workers world) moves line :=
  one.run.mono fun _ _ same => same.quiet

/-- The records that were added to the retry topic. -/
def retried (p : Plan (World σ)) (moves : List (Nat × Move (World σ) Consumer)) : List Record :=
  recordsOn p.publisher.failureTopics.retryTopic ((moves.map Prod.snd).flatMap gain)

variable (governed : Governed rules p workers world)
include governed

/-- Each worker has fetched its whole agenda and has nothing at hand. -/
theorem Finishes.worker (one : Finishes workers world moves line) {i : Nat} {w : Worker (World σ)}
    (worker : workers[i]? = some w) :
    ∃ s, line.crew[i]? = some (w, s) ∧ w.Makes World.host .initial (own i moves) s ∧
      Follows w world.broker line.world (own i moves) s ∧ s.phase.held? = none ∧
      fetched (own i moves) = agenda w world.broker line.world.broker ∧
      ∀ m ∈ own i moves, m.found.broker.refusing = rules.refusing := by
  obtain ⟨s, present, makes, follows, refuses⟩ :=
    governed.follows (fun _ _ same => same) one.run worker
  obtain ⟨idle, all⟩ := follows.of_allRead makes (one.allRead w (List.mem_of_getElem? worker))
  exact ⟨s, present, makes, follows, idle, all, refuses⟩

/-- The records that are added come from what was there at the start and from the records that were
added to the retry topic. -/
theorem Finishes.perm_gain (one : Finishes workers world moves line) :
    let w := Worker.retry p.brokers p.registry p.publisher p.settings p.timer
    ((moves.map Prod.snd).flatMap gain).Perm
      ((workers.flatMap fun w =>
        (agenda w world.broker world.broker).flatMap fun d => (rules.fate w d).adds) ++
      (retried p moves).flatMap fun r =>
        (rules.fate w (r.message p.publisher.failureTopics.retryTopic 0)).adds) := by
  intro w
  have total : ((moves.map Prod.snd).flatMap gain).Perm
      (workers.flatMap fun w =>
        (agenda w world.broker line.world.broker).flatMap fun d => (rules.fate w d).adds) := by
    apply one.run.perm_flatMap
    intro i w worker
    obtain ⟨s, -, makes, -, idle, all, refuses⟩ := one.worker governed worker
    rw [(governed.obeys w (List.mem_of_getElem? worker)).adds_eq makes refuses idle, all]
  refine total.trans (.of_eq ?_)
  -- only the agenda of the retry worker has grown
  rw [Plan.flatMap_workers governed.accepted, Plan.flatMap_workers governed.accepted,
    List.append_assoc]
  congr 1
  · apply List.flatMap_congr
    intro group registered
    rw [agenda_business governed.accepted governed.quietly one.quiet]
  · exact flatMap_agenda_retry (fun d => (rules.fate w d).adds)
      (fun r i => congrArg Fate.adds (rules.fate_message w _ r i 0)) governed.inside
      (records_of_runs governed.quietly one.quiet _)

/-! ### Two runs from one start -/

/-- The same records are added to the retry topic, but for their order. -/
theorem Finishes.perm_retried (one : Finishes workers world moves line)
    (other : Finishes workers world moves' line') : (retried p moves).Perm (retried p moves') := by
  let w := Worker.retry p.brokers p.registry p.publisher p.settings p.timer
  let added := fun r : Record =>
    (rules.fate w (r.message p.publisher.failureTopics.retryTopic 0)).adds
  have feedback : ∀ {moves line}, Finishes workers world moves line →
      (retried p moves).Perm (recordsOn w.failureTopics.retryTopic
        (workers.flatMap fun w =>
          (agenda w world.broker world.broker).flatMap fun d => (rules.fate w d).adds) ++
        (retried p moves).flatMap fun r => recordsOn w.failureTopics.retryTopic (added r)) := by
    intro moves line one
    have total := recordsOn_perm (one.perm_gain governed) w.failureTopics.retryTopic
    rw [recordsOn_append, recordsOn_flatMap _ (retried p moves)] at total
    exact total
  -- a retry costs its budget and one more, so its budget is less than that of the record it is for
  apply perm_of_feedback (fun r => Nat.lt_succ_of_le (retryBudget_le r.payload)) ?_
    (feedback one) (feedback other)
  intro r r' comes
  exact Nat.lt_of_lt_of_le (retryBudget_lt_cost comes) (rules.mayAdd_fate w _).cost_le

/-- Every worker has the same messages to read, but for their order and their offsets. -/
theorem Finishes.perm_agenda {α : Type} (one : Finishes workers world moves line)
    (other : Finishes workers world moves' line') {w : Worker (World σ)} (worker : w ∈ workers)
    {f : Delivery → α} (anywhere : ∀ topic (r : Record) i, f (r.message topic i) =
      f (r.message topic 0)) :
    ((agenda w world.broker line.world.broker).map f).Perm
      ((agenda w world.broker line'.world.broker).map f) := by
  rcases (Plan.mem_workers governed.accepted).mp worker with ⟨group, registered, rfl⟩ | rfl
  · rw [agenda_business governed.accepted governed.quietly one.quiet,
      agenda_business governed.accepted governed.quietly other.quiet]
  · have records := records_of_runs governed.quietly one.quiet
    have records' := records_of_runs governed.quietly other.quiet
    rw [map_agenda_retry f (anywhere _) governed.inside (records _),
      map_agenda_retry f (anywhere _) governed.inside (records' _)]
    exact ((one.perm_retried governed other).map _).append_left _

/-- What all workers have done is the same, but for the order, if what each of them has done is what
its messages bring, wherever they stand. -/
theorem Finishes.perm_flatMap {α : Type} (one : Finishes workers world moves line)
    (other : Finishes workers world moves' line') {f : Move (World σ) Consumer → List α}
    {brings : Worker (World σ) → Delivery → List α}
    (anywhere : ∀ w topic (r : Record) i, brings w (r.message topic i) = brings w (r.message topic 0))
    (each : ∀ w ∈ workers, ∀ s moves, w.Makes World.host .initial moves s → s.phase.held? = none →
      (∀ m ∈ moves, m.found.broker.refusing = rules.refusing) →
      moves.flatMap f = (fetched moves).flatMap (brings w)) :
    ((moves.map Prod.snd).flatMap f).Perm ((moves'.map Prod.snd).flatMap f) := by
  have whole : ∀ {moves line}, Finishes workers world moves line →
      ((moves.map Prod.snd).flatMap f).Perm
        (workers.flatMap fun w => (agenda w world.broker line.world.broker).flatMap (brings w)) := by
    intro moves line one
    apply one.run.perm_flatMap
    intro i w worker
    obtain ⟨s, -, makes, -, idle, all, refuses⟩ := one.worker governed worker
    rw [each w (List.mem_of_getElem? worker) s _ makes idle refuses, all]
  have same : (workers.flatMap fun w =>
      (agenda w world.broker line.world.broker).flatMap (brings w)).Perm
        (workers.flatMap fun w => (agenda w world.broker line'.world.broker).flatMap (brings w)) := by
    apply List.Perm.flatMap_left
    intro w worker
    rw [List.flatMap_def, List.flatMap_def]
    exact (one.perm_agenda governed other worker (anywhere w)).flatten
  exact (whole one).trans (same.trans (whole other).symm)

theorem Finishes.perm_offers (one : Finishes workers world moves line)
    (other : Finishes workers world moves' line') :
    (observed Occurrence.offer? (moves.map Prod.snd)).Perm
      (observed Occurrence.offer? (moves'.map Prod.snd)) := by
  refine one.perm_flatMap governed other ?_
    fun w worker s moves makes idle refuses => (governed.obeys w worker).calls_eq makes refuses idle
  exact fun w topic r i => congrArg Fate.calls (rules.fate_message w topic r i 0)

theorem Finishes.perm_records (one : Finishes workers world moves line)
    (other : Finishes workers world moves' line') (topic : String) :
    (line.world.broker.records topic).Perm (line'.world.broker.records topic) := by
  rw [records_of_runs governed.quietly one.quiet, records_of_runs governed.quietly other.quiet]
  apply List.Perm.append_left
  apply recordsOn_perm
  refine one.perm_flatMap governed other ?_
    fun w worker s moves makes idle refuses => (governed.obeys w worker).adds_eq makes refuses idle
  exact fun w topic r i => congrArg Fate.adds (rules.fate_message w topic r i 0)

/-- The counts of a worker do not depend on the order of its messages. -/
theorem Finishes.stats_eq (one : Finishes workers world moves line)
    (other : Finishes workers world moves' line') {i : Nat} {w : Worker (World σ)}
    {s s' : WorkerState Consumer} (present : line.crew[i]? = some (w, s))
    (present' : line'.crew[i]? = some (w, s')) : s.stats = s'.stats := by
  have worker := one.run.worker_of_mem present
  have counts : ∀ {moves line s}, Finishes workers world moves line →
      line.crew[i]? = some (w, s) → s.stats =
        ((agenda w world.broker line.world.broker).map fun d => (rules.fate w d).outcome).foldl
          Stats.record .none := by
    intro moves line s one present
    obtain ⟨_, present', makes, -, idle, all, refuses⟩ := one.worker governed worker
    rw [present] at present'
    cases present'
    rw [makes.stats_eq,
      (governed.obeys w (List.mem_of_getElem? worker)).settlements_eq makes refuses idle, all,
      List.foldl_map, List.foldl_map]
    rfl
  have member := List.mem_of_getElem? worker
  rw [counts one present, counts other present']
  apply List.Perm.foldl_eq
  apply one.perm_agenda governed other member
  exact fun topic r i => congrArg Fate.outcome (rules.fate_message w topic r i 0)

theorem Finishes.crew_eq (one : Finishes workers world moves line)
    (other : Finishes workers world moves' line') :
    (line.crew.map fun (w, s) => (w.group, s.stats)) =
      line'.crew.map fun (w, s) => (w.group, s.stats) := by
  apply List.ext_getElem?
  intro i
  rw [List.getElem?_map, List.getElem?_map]
  cases worker : workers[i]? with
  | none =>
    have absent : ∀ {moves line}, Finishes workers world moves line → line.crew[i]? = none := by
      intro moves line one
      cases present : line.crew[i]? with
      | none => rfl
      | some x =>
        have here := one.run.worker_of_mem present
        rw [worker] at here
        cases here
    rw [absent one, absent other]
  | some w =>
    obtain ⟨s, present, -⟩ := one.run.makes worker
    obtain ⟨s', present', -⟩ := other.run.makes worker
    have same := one.stats_eq governed other present present'
    rw [present, present']
    exact congrArg (fun stats => some (w.group, stats)) same

/-- Where a worker's group has got further than at the start it has got to the end of the topic. -/
theorem Finishes.committed?_of_moved (one : Finishes workers world moves line)
    (other : Finishes workers world moves' line') {i : Nat} {w : Worker (World σ)}
    (worker : workers[i]? = some w) {topic : String} (subscribed : topic ∈ w.topics)
    (moved : world.broker.reached w.group topic < line.world.broker.reached w.group topic) :
    line.world.broker.committed? w.group topic = line'.world.broker.committed? w.group topic := by
  -- where the group ends follows from the length of the topic, which is the same in both runs
  have ends : ∀ {moves line}, Finishes workers world moves line →
      line.world.broker.reached w.group topic =
        max (world.broker.reached w.group topic) (line.world.broker.nextOffset topic) := by
    intro moves line one
    obtain ⟨s, -, -, follows, -⟩ := one.worker governed worker
    exact follows.reached_eq (one.allRead w (List.mem_of_getElem? worker) topic subscribed)
  have length : line.world.broker.nextOffset topic = line'.world.broker.nextOffset topic :=
    (one.perm_records governed other topic).length_eq
  have same : line'.world.broker.reached w.group topic = line.world.broker.reached w.group topic := by
    rw [ends one, ends other, length]
  have positive := Nat.zero_lt_of_lt moved
  rw [Broker.committed?_of_reached_pos positive, Broker.committed?_of_reached_pos (same ▸ positive),
    same]

theorem Finishes.committed?_eq (one : Finishes workers world moves line)
    (other : Finishes workers world moves' line') (group topic : String) :
    line.world.broker.committed? group topic = line'.world.broker.committed? group topic := by
  by_cases somebody : group ∈ workers.map Worker.group
  · obtain ⟨w, member, rfl⟩ := List.mem_map.mp somebody
    obtain ⟨i, worker⟩ := List.mem_iff_getElem?.mp member
    obtain ⟨s, -, -, follows, -⟩ := one.worker governed worker
    obtain ⟨s', -, -, follows', -⟩ := other.worker governed worker
    rcases follows.advanced topic with unmoved | ⟨subscribed, moved⟩
    · rcases follows'.advanced topic with unmoved' | ⟨subscribed, moved⟩
      · rw [unmoved, unmoved']
      · exact (other.committed?_of_moved governed one worker subscribed moved).symm
    · exact one.committed?_of_moved governed other worker subscribed moved
  · have keeps := (keeps_of_runs governed.obeys (fun _ _ same => same) one.run).1
    have keeps' := (keeps_of_runs governed.obeys (fun _ _ same => same) other.run).1
    rw [keeps.commits group topic somebody, keeps'.commits group topic somebody]

end Finished

/-- Let the success of a handler depend on the event alone, and let handlers not touch the logs and
commits. Let the retry worker's group not stand beyond the end of the retry topic at the start. If the
workers take turns in two ways until nothing is unread or uncommitted, then the commits are equal and
so are the counts of each worker; the same events were offered to the same handlers equally often; and
each topic holds the same records, in whatever order. -/
theorem schedule_irrelevant {p : Plan (World σ)} {workers : List (Worker (World σ))}
    (accepted : p.workers = .ok workers) (sink : p.publisher.sink = World.sink)
    {succeeds : Handler (World σ) → Envelope → Bool}
    (decided : ∀ a ∈ p.registry.accepted, ∀ e world,
      (a.listener.handler.handle e world).1.isOk = succeeds a.listener.handler e)
    (handlers : ∀ a ∈ p.registry.accepted, ∀ e world,
      World.SameLogs world (a.listener.handler.handle e world).2.1)
    {world : World σ}
    (inside : world.broker.reached p.publisher.failureTopics.retryGroup
      p.publisher.failureTopics.retryTopic ≤
        world.broker.nextOffset p.publisher.failureTopics.retryTopic)
    {moves moves' : List (Nat × Move (World σ) Consumer)} {line line' : Pipeline (World σ) Consumer}
    (one : Finishes workers world moves line) (other : Finishes workers world moves' line') :
    (∀ group topic, line.world.broker.committed? group topic =
      line'.world.broker.committed? group topic) ∧
    ((line.crew.map fun (w, s) => (w.group, s.stats)) =
      line'.crew.map fun (w, s) => (w.group, s.stats)) ∧
    (observed Occurrence.offer? (moves.map Prod.snd)).Perm
      (observed Occurrence.offer? (moves'.map Prod.snd)) ∧
    ∀ topic, (line.world.broker.records topic).Perm (line'.world.broker.records topic) := by
  let rules : Rules σ := ⟨succeeds, world.broker.refusing⟩
  have governed : Governed rules p workers world := by
    constructor
    case accepted => exact accepted
    case obeys => exact obeys_of_workers accepted sink handlers decided
    case refusing => rfl
    case inside => exact inside
  refine ⟨?_, ?_, ?_, ?_⟩
  · exact one.committed?_eq governed other
  · exact one.crew_eq governed other
  · exact one.perm_offers governed other
  · exact one.perm_records governed other

end Memory

/-! ### Two groups that fail on one event -/

namespace Sample

open Memory

/-- Whether an event has failed before. -/
def isRetried (e : Envelope) : Bool := e.retryCount != 0

/-- A handler that fails on every event that has not failed before. -/
def waryHandler (name : String) : Handler (World Unit) :=
  ⟨name, fun e world => (if isRetried e then .ok () else .error (.failed name), world, [])⟩

/-- Two groups with one listener each. -/
def waryRegistry : Registry (Handler (World Unit)) :=
  ⟨none, [⟨"billing", ⟨["orders"], none, waryHandler "bill"⟩⟩,
    ⟨"stock", ⟨["orders"], none, waryHandler "count"⟩⟩]⟩

def waryPlan : Plan (World Unit) := ⟨[], waryRegistry, publisher, .standard, .standard, .ofSecs 1⟩

def waryWorkers : List (Worker (World Unit)) :=
  [.business "billing" [] waryRegistry publisher .standard .standard,
    .business "stock" [] waryRegistry publisher .standard .standard,
    .retry [] waryRegistry publisher .standard .standard]

/-- The world of the sample, where the retry worker's group has committed this offset. -/
def committedWorld (offset : Nat) : World Unit :=
  { world with broker := { world.broker with
      offsets := [(("shop_failure_consumer", "shop_failure_topic"), offset)] } }

/-- The pipeline that begins there. -/
def waryLine (offset : Nat) : Pipeline (World Unit) Consumer :=
  .start waryWorkers (committedWorld offset)

/-- One group fails on the event, then the other one, and then the retry worker reads what there is. -/
def turns (first second : Nat) : List Nat :=
  List.replicate 7 first ++ List.replicate 7 second ++ List.replicate 13 2

/-- The records that the retry topic holds after these turns. -/
def retriedRecords (offset first second : Nat) : List Record :=
  ((waryLine offset).exec World.host (turns first second)).1.world.broker.records "shop_failure_topic"

/-- The events that were offered in these turns. -/
def waryOffers (offset first second : Nat) : List (String × Envelope) :=
  observed Occurrence.offer? (((waryLine offset).trace World.host (turns first second)).map Prod.snd)

theorem decided_wary : ∀ a ∈ waryPlan.registry.accepted, ∀ e world,
    (a.listener.handler.handle e world).1.isOk = isRetried e := by
  intro a accepted e world
  rcases List.mem_pair.mp accepted with rfl | rfl <;>
    cases retried : isRetried e <;> simp [waryHandler, retried, Except.isOk, Except.toBool]

theorem sameLogs_wary : ∀ a ∈ waryPlan.registry.accepted, ∀ e world,
    World.SameLogs world (a.listener.handler.handle e world).2.1 := by
  intro a accepted e world
  rcases List.mem_pair.mp accepted with rfl | rfl <;> exact ⟨rfl, rfl, rfl⟩

theorem finishes_wary {offset first second : Nat}
    (allRead : ∀ w ∈ waryWorkers, ∀ topic ∈ w.topics,
      let b := ((waryLine offset).exec World.host (turns first second)).1.world.broker
      b.nextOffset topic ≤ b.reached w.group topic) :
    Finishes waryWorkers (committedWorld offset)
      ((waryLine offset).trace World.host (turns first second))
      ((waryLine offset).exec World.host (turns first second)).1 := by
  have begun : Pipeline.Runs World.host World.SameLogs (.start waryWorkers (committedWorld offset)) []
      (waryLine offset) := .start
  obtain ⟨run, -⟩ := begun.exec (turns first second)
  exact ⟨run, allRead⟩

end Sample

namespace Memory

/-- The retry topic holds the records of the two groups in the order of their failures, and the same
records in any order. -/
theorem sample_schedule_irrelevant :
    Sample.retriedRecords 0 0 1 ≠ Sample.retriedRecords 0 1 0 ∧
      (Sample.retriedRecords 0 0 1).Perm (Sample.retriedRecords 0 1 0) := by
  have first := @Sample.finishes_wary 0 0 1 (by decide +kernel)
  have second := @Sample.finishes_wary 0 1 0 (by decide +kernel)
  obtain ⟨-, -, -, same⟩ := @schedule_irrelevant _ Sample.waryPlan Sample.waryWorkers rfl rfl
    (fun _ e => Sample.isRetried e) Sample.decided_wary Sample.sameLogs_wary _ (by decide +kernel)
    _ _ _ _ first second
  exact ⟨by decide +kernel, same "shop_failure_topic"⟩

/-- When the retry worker's group has committed an offset beyond the end of the retry topic, the group
that fails first is the one whose retry is never read. -/
theorem sample_schedule_matters :
    Sample.waryPlan.workers = .ok Sample.waryWorkers ∧
    (∀ a ∈ Sample.waryPlan.registry.accepted, ∀ e world,
      (a.listener.handler.handle e world).1.isOk = Sample.isRetried e) ∧
    (∀ a ∈ Sample.waryPlan.registry.accepted, ∀ e world,
      World.SameLogs world (a.listener.handler.handle e world).2.1) ∧
    Finishes Sample.waryWorkers (Sample.committedWorld 1)
      ((Sample.waryLine 1).trace World.host (Sample.turns 0 1))
      ((Sample.waryLine 1).exec World.host (Sample.turns 0 1)).1 ∧
    Finishes Sample.waryWorkers (Sample.committedWorld 1)
      ((Sample.waryLine 1).trace World.host (Sample.turns 1 0))
      ((Sample.waryLine 1).exec World.host (Sample.turns 1 0)).1 ∧
    ¬ (Sample.waryOffers 1 0 1).Perm (Sample.waryOffers 1 1 0) := by
  refine ⟨rfl, Sample.decided_wary, Sample.sameLogs_wary, Sample.finishes_wary (by decide +kernel),
    Sample.finishes_wary (by decide +kernel), ?_⟩
  intro same
  have names := same.map Prod.fst
  have differ : ¬ ((Sample.waryOffers 1 0 1).map Prod.fst).Perm
      ((Sample.waryOffers 1 1 0).map Prod.fst) := by decide +kernel
  exact differ names

end Memory

end EventPipeline
