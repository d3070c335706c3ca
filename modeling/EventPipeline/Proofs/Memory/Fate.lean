import EventPipeline.Proofs.Memory.Exhaustion
import EventPipeline.Proofs.Worker.Settlements

/-! # What becomes of a message

If the success of a handler depends on the event alone, and which topics refuse records is fixed, then
what becomes of a message can be told from the message: how it ends, to whom its event is offered, and
which record is added for it. So what a worker has done can be told from what it has fetched.
-/

namespace EventPipeline

namespace Memory

open Worker

variable {σ : Type}

/-- What becomes of a message: how it ends, to whom its event is offered, and what is added to the
topics. -/
structure Fate where
  outcome : Outcome
  calls : List (String × Envelope)
  adds : List (String × Record)

/-- The fate of a message to which something has happened before. -/
def Fate.after (f : Fate) (calls : List (String × Envelope)) (adds : List (String × Record)) : Fate :=
  ⟨f.outcome, calls ++ f.calls, adds ++ f.adds⟩

@[simp] theorem Fate.after_nil (f : Fate) : f.after [] [] = f := rfl

/-- What decides the fate of messages: which handlers succeed on which events, and which topics refuse
records. -/
structure Rules (σ : Type) where
  succeeds : Handler (World σ) → Envelope → Bool
  refusing : List String

namespace Rules

/-- The fate of a message with this key whose event a handler failed on. -/
def failed (rules : Rules σ) (w : Worker (World σ)) (key : Option String) (r : Routed) : Fate :=
  match w.failureTopics.plan? r.event r.group r.topic with
  | none => ⟨.escalationFailed, [], []⟩
  | some (path, e) =>
    if rules.refusing.contains (w.failureTopics.topicOf path) then ⟨.escalationFailed, [], []⟩
    else ⟨.escalated path, [], [(w.failureTopics.topicOf path, ⟨key, some e.payload⟩)]⟩

/-- The fate of a message with this key whose event is of unknown origin. -/
def orphaned (rules : Rules σ) (w : Worker (World σ)) (key : Option String) (e : Envelope) : Fate :=
  ⟨.orphaned, [], if rules.refusing.contains w.failureTopics.deadTopic then []
    else [(w.failureTopics.deadTopic, ⟨key, some e.payload⟩)]⟩

/-- The fate of a message with this key whose event `ran` listeners have had, and which these have
still to get. -/
def offered (rules : Rules σ) (w : Worker (World σ)) (key : Option String) (r : Routed) (ran : Nat) :
    List (Listener (Handler (World σ))) → Fate
  | [] => ⟨if ran = 0 then .unrouted else .handled ran, [], []⟩
  | l :: ls =>
    let next :=
      if rules.succeeds l.handler r.event then rules.offered w key r (ran + 1) ls
      else rules.failed w key r
    next.after [(l.handler.name, r.event)] []

/-- The fate of a message. -/
def fate (rules : Rules σ) (w : Worker (World σ)) (d : Delivery) : Fate :=
  match d.content? with
  | none => ⟨.empty, [], []⟩
  | some payload =>
    match Envelope.read payload with
    | .error _ => ⟨.malformed, [], []⟩
    | .ok e =>
      match w.route? d e with
      | none => rules.orphaned w d.keyText? e
      | some (group, topic) =>
        rules.offered w d.keyText? ⟨e, group, topic⟩ 0 (w.listenersFor ⟨e, group, topic⟩)

/-- The message at hand and what is still to become of it. -/
def due (rules : Rules σ) (w : Worker (World σ)) : Phase Consumer → Option (Delivery × Fate)
  | .received _ d => some (d, rules.fate w d)
  | .offering _ d r ran => some (d, rules.offered w d.keyText? r ran ((w.listenersFor r).drop ran))
  | .failing _ d r => some (d, rules.failed w d.keyText? r)
  | .orphaned _ d e => some (d, rules.orphaned w d.keyText? e)
  | .settling _ d outcome => some (d, ⟨outcome, [], []⟩)
  | _ => none

/-- The offset of a message has no part in its fate. -/
theorem fate_message (rules : Rules σ) (w : Worker (World σ)) (topic : String) (r : Record)
    (i j : Nat) : rules.fate w (r.message topic i) = rules.fate w (r.message topic j) := by
  unfold fate
  rfl

/-- When all listeners have had an event, its message is handled, or nobody wanted it. -/
theorem offered_of_none (rules : Rules σ) (w : Worker (World σ)) (key : Option String) (r : Routed)
    {ls : List (Listener (Handler (World σ)))} {ran : Nat} (done : ls[ran]? = none) :
    rules.offered w key r ran (ls.drop ran) =
      ⟨if ran = 0 then .unrouted else .handled ran, [], []⟩ := by
  rw [List.drop_of_length_le (List.getElem?_eq_none_iff.mp done), offered]

/-- The next listener succeeds, and the others are to have the event, or it fails. -/
theorem offered_of_some (rules : Rules σ) (w : Worker (World σ)) (key : Option String) (r : Routed)
    {ls : List (Listener (Handler (World σ)))} {ran : Nat} {l : Listener (Handler (World σ))}
    (next : ls[ran]? = some l) :
    rules.offered w key r ran (ls.drop ran) =
      (if rules.succeeds l.handler r.event then
        rules.offered w key r (ran + 1) (ls.drop (ran + 1))
      else rules.failed w key r).after [(l.handler.name, r.event)] [] := by
  obtain ⟨inside, rfl⟩ := List.getElem?_eq_some_iff.mp next
  rw [List.drop_eq_getElem_cons inside, offered]

section Examined

variable {rules : Rules σ} {w : Worker (World σ)} {d : Delivery}

theorem fate_of_empty (absent : d.content? = none) : rules.fate w d = ⟨.empty, [], []⟩ := by
  rw [fate, absent]

theorem fate_of_malformed {bs : Octets} {e : Json.Error} (present : d.content? = some bs)
    (unread : Envelope.read bs = .error e) : rules.fate w d = ⟨.malformed, [], []⟩ := by
  simp only [fate, present, unread]

theorem fate_of_orphans {e : Envelope} (orphan : w.Orphans d e) :
    rules.fate w d = rules.orphaned w d.keyText? e := by
  obtain ⟨bs, present, reads, nowhere⟩ := orphan
  simp only [fate, present, reads, nowhere]

theorem fate_of_routes {r : Routed} (routes : w.Routes d r) :
    rules.fate w d = rules.offered w d.keyText? r 0 (w.listenersFor r) := by
  obtain ⟨bs, present, reads, route⟩ := routes
  simp only [fate, present, reads, route]

end Examined

section Congr

variable {rules : Rules σ} {w w' : Worker (World σ)}

theorem failed_congr (names : w'.failureTopics = w.failureTopics) (key : Option String)
    (r : Routed) : rules.failed w' key r = rules.failed w key r := by
  rw [failed, failed, names]

theorem offered_congr (names : w'.failureTopics = w.failureTopics) (key : Option String)
    (r : Routed) (ran : Nat) (ls : List (Listener (Handler (World σ)))) :
    rules.offered w' key r ran ls = rules.offered w key r ran ls := by
  induction ls generalizing ran with
  | nil => rfl
  | cons l ls ih => rw [offered, offered, ih, failed_congr names]

/-- A message has the same fate with two workers that ask the same listeners and use the same retry
path. -/
theorem fate_congr {d : Delivery} (names : w'.failureTopics = w.failureTopics)
    (routes : ∀ bs e, d.content? = some bs → Envelope.read bs = .ok e →
      w'.route? d e = w.route? d e)
    (listeners : ∀ r, w.Routes d r → w'.listenersFor r = w.listenersFor r) :
    rules.fate w' d = rules.fate w d := by
  rcases w.examined_cases d with empty | ⟨bs, e, present, unread⟩ | ⟨e, orphans⟩ | ⟨r, meant⟩
  · rw [fate_of_empty empty, fate_of_empty empty]
  · rw [fate_of_malformed present unread, fate_of_malformed present unread]
  · have orphans' : w'.Orphans d e := by
      obtain ⟨bs, present, reads, nowhere⟩ := orphans
      exact ⟨bs, present, reads, (routes bs e present reads).trans nowhere⟩
    rw [fate_of_orphans orphans', fate_of_orphans orphans, orphaned, orphaned, names]
  · have meant' : w'.Routes d r := by
      obtain ⟨bs, present, reads, route⟩ := meant
      exact ⟨bs, present, reads, (routes bs _ present reads).trans route⟩
    rw [fate_of_routes meant', fate_of_routes meant, listeners r meant, offered_congr names]

end Congr

/-! ### What a fate adds -/

section Adds

variable {rules : Rules σ} {w : Worker (World σ)}

theorem mayAdd_failed {d : Delivery} {r : Routed} (routes : w.Routes d r) :
    MayAdd w d (rules.failed w d.keyText? r).adds := by
  cases planned : w.failureTopics.plan? r.event r.group r.topic with
  | none =>
    simp only [failed, planned]
    exact .nothing
  | some plan =>
    obtain ⟨path, e⟩ := plan
    simp only [failed, planned]
    split
    · exact .nothing
    · exact .escalated routes planned

theorem mayAdd_offered {d : Delivery} {r : Routed} (routes : w.Routes d r)
    (ls : List (Listener (Handler (World σ)))) (ran : Nat) :
    MayAdd w d (rules.offered w d.keyText? r ran ls).adds := by
  induction ls generalizing ran with
  | nil => exact .nothing
  | cons l ls ih =>
    rw [offered]
    dsimp only [Fate.after]
    rw [List.nil_append]
    split
    · exact ih (ran + 1)
    · exact mayAdd_failed routes

theorem mayAdd_fate (rules : Rules σ) (w : Worker (World σ)) (d : Delivery) :
    MayAdd w d (rules.fate w d).adds := by
  rcases w.examined_cases d with empty | ⟨bs, e, present, unread⟩ | ⟨e, orphans⟩ | ⟨r, routes⟩
  · rw [fate_of_empty empty]
    exact .nothing
  · rw [fate_of_malformed present unread]
    exact .nothing
  · rw [fate_of_orphans orphans, orphaned]
    dsimp only
    split
    · exact .nothing
    · exact .buried orphans
  · rw [fate_of_routes routes]
    exact mayAdd_offered routes _ _

end Adds

end Rules

/-! ### Workers that obey -/

/-- The worker publishes to the broker of its world. Its handlers leave the logs and commits alone, and
they succeed on the events that the rules say. -/
structure Obeys (rules : Rules σ) (w : Worker (World σ)) : Prop where
  sink : w.publisher.sink = World.sink
  handlers : ∀ a ∈ w.registry.accepted, ∀ e world,
    World.SameLogs world (a.listener.handler.handle e world).2.1
  decided : ∀ a ∈ w.registry.accepted, ∀ e world,
    (a.listener.handler.handle e world).1.isOk = rules.succeeds a.listener.handler e

theorem Obeys.quietly {rules : Rules σ} {w : Worker (World σ)} (obeys : Obeys rules w) :
    HandlesQuietly w :=
  ⟨obeys.sink, fun a accepted e world => (obeys.handlers a accepted e world).quiet⟩

/-- What a move is to the fate of the message at hand. -/
inductive Fulfils (rules : Rules σ) (w : Worker (World σ)) (m : Move (World σ) Consumer) : Prop where
  | waited (before : rules.due w m.before.phase = none) (after : rules.due w m.after.phase = none)
    (unfetched : m.after.phase.fetched? = none)
    (calls : m.happened.filterMap Occurrence.offer? = []) (adds : gain m = [])
    (settled : m.happened.filterMap Occurrence.settlement? = [])
  | fetched {d : Delivery} (before : rules.due w m.before.phase = none)
    (after : rules.due w m.after.phase = some (d, rules.fate w d))
    (fetched : m.after.phase.fetched? = some d)
    (calls : m.happened.filterMap Occurrence.offer? = []) (adds : gain m = [])
    (settled : m.happened.filterMap Occurrence.settlement? = [])
  | dealt {d : Delivery} {f : Fate} {calls : List (String × Envelope)}
    {adds : List (String × Record)}
    (before : rules.due w m.before.phase = some (d, f.after calls adds))
    (after : rules.due w m.after.phase = some (d, f)) (unfetched : m.after.phase.fetched? = none)
    (calls : m.happened.filterMap Occurrence.offer? = calls) (adds : gain m = adds)
    (settled : m.happened.filterMap Occurrence.settlement? = [])
  | settled {d : Delivery} {outcome : Outcome}
    (before : rules.due w m.before.phase = some (d, ⟨outcome, [], []⟩))
    (after : rules.due w m.after.phase = none) (unfetched : m.after.phase.fetched? = none)
    (calls : m.happened.filterMap Occurrence.offer? = []) (adds : gain m = [])
    (settled : m.happened.filterMap Occurrence.settlement? = [(d, outcome)])

section Step

variable {rules : Rules σ} {w : Worker (World σ)} {s s' : WorkerState Consumer}
  {world world' : World σ} {happened : List Occurrence}

/-- The handlers that are asked leave the logs and commits alone and succeed as the rules say. -/
theorem Obeys.of_handle (obeys : Obeys rules w) {r : Routed} {ran : Nat}
    {l : Listener (Handler (World σ))} (next : (w.listenersFor r)[ran]? = some l)
    {result : Except Failure Unit} {log : List LogEntry}
    (answer : l.handler.handle r.event world = (result, world', log)) :
    world.SameLogs world' ∧ result.isOk = rules.succeeds l.handler r.event := by
  obtain ⟨a, accepted, -, rfl⟩ := Registry.exists_of_mem_matching (List.mem_of_getElem? next)
  have same := obeys.handlers a accepted r.event world
  have decided := obeys.decided a accepted r.event world
  rw [answer] at same decided
  exact ⟨same, decided⟩

/-- A record that is produced is added, unless the rules say that its topic refuses it. -/
theorem Obeys.of_produce (obeys : Obeys rules w) (refusing : world.broker.refusing = rules.refusing)
    {record : Outgoing} {answer : Except BrokerError Unit} {log : List LogEntry}
    (produced : w.publisher.sink.produce record world = (answer, world', log)) :
    (rules.refusing.contains record.topic = true ∧ (∃ e, answer = .error e) ∧ world' = world) ∨
      (rules.refusing.contains record.topic = false ∧ answer = .ok () ∧
        world'.broker = world.broker.append record.topic ⟨record.key, some record.payload⟩) := by
  rw [obeys.sink] at produced
  rw [← refusing]
  rcases World.produce_cases produced with refused | ⟨takes, accepted, rfl⟩
  · exact .inl refused
  · exact .inr ⟨takes, accepted, rfl⟩

section Dispatch

variable {c : Consumer} {d : Delivery}

/-- The step after a failure does what the fate of the message says. -/
theorem Obeys.fulfils_of_failing (obeys : Obeys rules w)
    (refusing : world.broker.refusing = rules.refusing) {r : Routed}
    (failing : s.phase = .failing c d r) (does : Does World.host w s world s' world' happened) :
    Fulfils rules w ⟨s, world, s', world', happened⟩ := by
  have calls := does.offers_eq_nil (by simp [failing])
  have settled := does.settlements_eq_nil (by simp [failing])
  cases does <;> cases failing
  case misrouted.refl unplanned =>
    have fate : rules.failed w d.keyText? r = Fate.after ⟨.escalationFailed, [], []⟩ [] [] := by
      simp only [Rules.failed, unplanned, Fate.after_nil]
    exact .dealt (congrArg some (congrArg _ fate)) rfl rfl calls (gain_of_quiet (.refl _)) settled
  case escalated.refl path e log more answer planned =>
    rcases obeys.of_produce refusing answer with ⟨-, ⟨_, refused⟩, -⟩ | ⟨takes, -, append⟩
    · cases refused
    have fate : rules.failed w d.keyText? r = Fate.after ⟨.escalated path, [], []⟩ []
        [(w.failureTopics.topicOf path, ⟨d.keyText?, some e.payload⟩)] := by
      change rules.refusing.contains (w.failureTopics.topicOf path) = false at takes
      simp only [Rules.failed, planned, takes]
      rfl
    exact .dealt (congrArg some (congrArg _ fate)) rfl rfl calls (gain_of_append append) settled
  case notEscalated.refl path e error log more answer planned =>
    rcases obeys.of_produce refusing answer with ⟨refuses, -, rfl⟩ | ⟨-, accepted, -⟩
    · have fate : rules.failed w d.keyText? r = Fate.after ⟨.escalationFailed, [], []⟩ [] [] := by
        change rules.refusing.contains (w.failureTopics.topicOf path) = true at refuses
        simp only [Rules.failed, planned, refuses]
        rfl
      exact .dealt (congrArg some (congrArg _ fate)) rfl rfl calls (gain_of_quiet (.refl _)) settled
    · cases accepted

/-- The step that buries an event of unknown origin does what the fate of the message says. -/
theorem Obeys.fulfils_of_orphaned (obeys : Obeys rules w)
    (refusing : world.broker.refusing = rules.refusing) {e : Envelope}
    (orphaned : s.phase = .orphaned c d e) (does : Does World.host w s world s' world' happened) :
    Fulfils rules w ⟨s, world, s', world', happened⟩ := by
  have calls := does.offers_eq_nil (by simp [orphaned])
  have settled := does.settlements_eq_nil (by simp [orphaned])
  cases does <;> cases orphaned
  case buried.refl log more answer =>
    rcases obeys.of_produce refusing answer with ⟨-, ⟨_, refused⟩, -⟩ | ⟨takes, -, append⟩
    · cases refused
    have fate : rules.orphaned w d.keyText? e = Fate.after ⟨.orphaned, [], []⟩ []
        [(w.failureTopics.deadTopic, ⟨d.keyText?, some e.payload⟩)] := by
      change rules.refusing.contains w.failureTopics.deadTopic = false at takes
      simp only [Rules.orphaned, takes]
      rfl
    exact .dealt (congrArg some (congrArg _ fate)) rfl rfl calls (gain_of_append append) settled
  case notBuried.refl error log more answer =>
    rcases obeys.of_produce refusing answer with ⟨refuses, -, rfl⟩ | ⟨-, accepted, -⟩
    · have fate : rules.orphaned w d.keyText? e = Fate.after ⟨.orphaned, [], []⟩ [] [] := by
        change rules.refusing.contains w.failureTopics.deadTopic = true at refuses
        simp only [Rules.orphaned, refuses]
        rfl
      exact .dealt (congrArg some (congrArg _ fate)) rfl rfl calls (gain_of_quiet (.refl _)) settled
    · cases accepted

/-- A step that offers an event to a listener does what the fate of the message says. -/
theorem Obeys.fulfils_of_offering (obeys : Obeys rules w) {r : Routed} {ran : Nat}
    (offering : s.phase = .offering c d r ran)
    (does : Does World.host w s world s' world' happened) :
    Fulfils rules w ⟨s, world, s', world', happened⟩ := by
  have settled := does.settlements_eq_nil (by simp [offering])
  cases does <;> cases offering
  case unrouted.refl nobody =>
    exact .dealt (congrArg some (congrArg _ (rules.offered_of_none w _ r nobody))) rfl rfl rfl
      (gain_of_quiet (.refl _)) settled
  case handled.refl some done =>
    have fate : rules.offered w d.keyText? r ran ((w.listenersFor r).drop ran) =
        Fate.after ⟨.handled ran, [], []⟩ [] [] := by
      rw [rules.offered_of_none w _ r done, if_neg some]
      rfl
    exact .dealt (congrArg Option.some (congrArg _ fate)) rfl rfl rfl (gain_of_quiet (.refl _)) settled
  case accepted.refl l log answer next =>
    obtain ⟨same, decided⟩ := obeys.of_handle next answer
    have succeeds : rules.succeeds l.handler r.event = true := decided.symm
    have fate := rules.offered_of_some w d.keyText? r next
    rw [if_pos succeeds] at fate
    refine .dealt (congrArg some (congrArg _ fate)) rfl rfl ?_ (gain_of_quiet same.quiet) settled
    simp [Occurrence.offer?]
  case failed.refl l f log answer next =>
    obtain ⟨same, decided⟩ := obeys.of_handle next answer
    have fails : rules.succeeds l.handler r.event = false := decided.symm
    have fate := rules.offered_of_some w d.keyText? r next
    rw [if_neg (Bool.eq_false_iff.mp fails)] at fate
    refine .dealt (congrArg some (congrArg _ fate)) rfl rfl ?_ (gain_of_quiet same.quiet) settled
    simp [Occurrence.offer?, List.filterMap_cons]

/-- The step that looks at a message leads to the fate of the message. -/
theorem fulfils_of_received (received : s.phase = .received c d)
    (does : Does World.host w s world s' world' happened) :
    Fulfils rules w ⟨s, world, s', world', happened⟩ := by
  have calls := does.offers_eq_nil (by simp [received])
  have settled := does.settlements_eq_nil (by simp [received])
  cases does <;> cases received
  case empty.refl absent =>
    exact .dealt (congrArg some (congrArg _ (Rules.fate_of_empty absent))) rfl rfl calls
      (gain_of_quiet (.refl _)) settled
  case malformed.refl unread present =>
    exact .dealt (congrArg some (congrArg _ (Rules.fate_of_malformed present unread))) rfl rfl calls
      (gain_of_quiet (.refl _)) settled
  case lost.refl orphan =>
    exact .dealt (congrArg some (congrArg _ (Rules.fate_of_orphans orphan))) rfl rfl calls
      (gain_of_quiet (.refl _)) settled
  case routed.refl routes =>
    exact .dealt (congrArg some (congrArg _ (Rules.fate_of_routes routes))) rfl rfl calls
      (gain_of_quiet (.refl _)) settled

end Dispatch

theorem due_of_unheld {phase : Phase Consumer} (unheld : phase.held? = none) :
    rules.due w phase = none := by
  cases phase <;> first
    | rfl
    | cases unheld

/-- A worker with nothing at hand waits or fetches a message. -/
theorem fulfils_of_unheld (unheld : s.phase.held? = none)
    (does : Does World.host w s world s' world' happened) :
    Fulfils rules w ⟨s, world, s', world', happened⟩ := by
  have before : rules.due w s.phase = none := due_of_unheld unheld
  have finished : ¬ s.phase.IsOpen := by
    intro unfinished
    obtain ⟨c, d, held⟩ := unfinished.held
    rw [unheld] at held
    cases held
  have notSettling : ∀ c d outcome, s.phase ≠ .settling c d outcome := by
    intro c d outcome settling
    rw [settling] at unheld
    cases unheld
  have notOffering : ∀ c d r ran, s.phase ≠ .offering c d r ran := by
    intro c d r ran offering
    rw [offering] at unheld
    cases unheld
  have calls := does.offers_eq_nil notOffering
  have settled := does.settlements_eq_nil notSettling
  have adds : gain ⟨s, world, s', world', happened⟩ = [] := by
    rcases (works_of_does does).sameLogs_or_settled finished with same | ⟨c, d, outcome, settling, -⟩
    · exact gain_of_quiet same.quiet
    · exact absurd settling (notSettling _ _ _)
  rcases does.handover with ⟨-, unheld' | ⟨c, d, received⟩⟩ | ⟨unfinished, -⟩ |
    ⟨c, d, outcome, settling, -⟩
  · exact .waited before (due_of_unheld unheld') (Phase.fetched?_of_unheld unheld') calls adds settled
  · have after : rules.due w s'.phase = some (d, rules.fate w d) := by
      rw [received]
      rfl
    exact .fetched before after (congrArg Phase.fetched? received) calls adds settled
  · exact absurd unfinished finished
  · exact absurd settling (notSettling _ _ _)

/-- Every step does what the fate of the message at hand says. -/
theorem Obeys.fulfils (obeys : Obeys rules w) (refusing : world.broker.refusing = rules.refusing)
    (does : Does World.host w s world s' world' happened) :
    Fulfils rules w ⟨s, world, s', world', happened⟩ := by
  cases phase : s.phase with
  | received => exact fulfils_of_received phase does
  | offering => exact obeys.fulfils_of_offering phase does
  | failing => exact obeys.fulfils_of_failing refusing phase does
  | orphaned => exact obeys.fulfils_of_orphaned refusing phase does
  | settling c d outcome =>
    obtain ⟨settled, -, unheld'⟩ := does.settlements_eq phase
    have finished : ¬ s.phase.IsOpen := by
      rw [phase]
      exact id
    have adds : gain ⟨s, world, s', world', happened⟩ = [] := by
      rcases (works_of_does does).sameLogs_or_settled finished with same | ⟨_, _, _, -, broker⟩
      · exact gain_of_quiet same.quiet
      · exact gain_of_quiet (quiet_of_commit broker)
    refine .settled (congrArg (rules.due w) phase) (due_of_unheld unheld')
      (Phase.fetched?_of_unheld unheld') ?_ adds settled
    exact does.offers_eq_nil (by simp [phase])
  | _ => exact fulfils_of_unheld (by rw [phase]; rfl) does

/-- A message is committed when it is settled, and the broker always commits it. -/
theorem commits_eq (does : Does World.host w s world s' world' happened) :
    happened.filterMap Occurrence.commit? =
      (happened.filterMap Occurrence.settlement?).map fun (d, _) => (d, .ok ()) := by
  cases does
  -- a broker in memory accepts every commit
  case commitFailed answer | commitStopped answer =>
    obtain ⟨accepted, -⟩ := World.commit_cases answer
    cases accepted
  all_goals simp [List.filterMap_cons, -List.filterMap_eq_nil_iff, Occurrence.commit?,
    Occurrence.settlement?, entered]

end Step

/-! ### One life -/

section Life

variable {rules : Rules σ} {w : Worker (World σ)} {s : WorkerState Consumer}
  {moves : List (Move (World σ) Consumer)}

/-- If with each step what is done and what is then owed is what was owed before and what the message
brings that is fetched, then what is done in a life and is owed at its end is what all messages
brought. -/
theorem balance {α : Type} (done : Move (World σ) Consumer → List α)
    (owed : Phase Consumer → List α) (brings : Delivery → List α)
    (run : w.Makes World.host .initial moves s) (nothing : owed .unopened = [])
    (step : ∀ m ∈ moves, done m ++ owed m.after.phase =
      owed m.before.phase ++ m.after.phase.fetched?.toList.flatMap brings) :
    moves.flatMap done ++ owed s.phase = (fetched moves).flatMap brings := by
  induction run with
  | start => exact nothing
  | @step moves s s' world world' happened earlier made ih =>
    -- what was owed before this step cancels out
    have before := ih fun m mem => step m (List.mem_append_left _ mem)
    have now := step _ (List.mem_append_right _ (List.mem_singleton_self _))
    rw [List.flatMap_append, List.flatMap_singleton, List.append_assoc, now, ← List.append_assoc,
      before, fetched_snoc, List.flatMap_append]

theorem Obeys.fulfils_of_makes (obeys : Obeys rules w) (run : w.Makes World.host .initial moves s)
    (refusing : ∀ m ∈ moves, m.found.broker.refusing = rules.refusing) :
    ∀ m ∈ moves, Fulfils rules w m := by
  intro m made
  obtain ⟨earlier, later, split⟩ := List.append_of_mem made
  exact obeys.fulfils (refusing m made) (does_step (run.before split).2)

/-- A worker has committed each message that it has settled. -/
theorem commits_of_makes (run : w.Makes World.host .initial moves s) :
    observed Occurrence.commit? moves =
      (observed Occurrence.settlement? moves).map fun (d, _) => (d, .ok ()) := by
  induction run with
  | start => rfl
  | step _ made ih =>
    rw [observed_snoc, observed_snoc, List.map_append, ih, commits_eq (does_step made)]

variable (obeys : Obeys rules w) (run : w.Makes World.host .initial moves s)
  (refusing : ∀ m ∈ moves, m.found.broker.refusing = rules.refusing)
  (idle : s.phase.held? = none)
include obeys run refusing idle

/-- If each step does its part of the fate of the message at hand, a life does this part of the fates of
all messages that were fetched. -/
theorem Obeys.observes {α : Type} (done : Move (World σ) Consumer → List α)
    (part : Delivery × Fate → List α)
    (step : ∀ m, Fulfils rules w m →
      done m ++ ((rules.due w m.after.phase).map part).getD [] =
        ((rules.due w m.before.phase).map part).getD [] ++
          m.after.phase.fetched?.toList.flatMap fun d => part (d, rules.fate w d)) :
    moves.flatMap done = (fetched moves).flatMap fun d => part (d, rules.fate w d) := by
  have total := balance done (fun phase => ((rules.due w phase).map part).getD [])
    (fun d => part (d, rules.fate w d)) run rfl
    fun m made => step m (obeys.fulfils_of_makes run refusing m made)
  simpa [due_of_unheld idle] using total

/-- The events that a worker has offered are those of the messages that it has fetched. -/
theorem Obeys.calls_eq :
    observed Occurrence.offer? moves = (fetched moves).flatMap fun d => (rules.fate w d).calls := by
  refine obeys.observes run refusing idle _ (fun x => x.2.calls) ?_
  intro m fulfils
  cases fulfils with
  | waited before after unfetched calls => simp [before, after, unfetched, calls]
  | fetched before after fetched calls => simp [before, after, fetched, calls]
  | dealt before after unfetched calls => simp [before, after, unfetched, calls, Fate.after]
  | settled before after unfetched calls => simp [before, after, unfetched, calls]

/-- The records that a worker has added are those of the messages that it has fetched. -/
theorem Obeys.adds_eq :
    moves.flatMap gain = (fetched moves).flatMap fun d => (rules.fate w d).adds := by
  refine obeys.observes run refusing idle _ (fun x => x.2.adds) ?_
  intro m fulfils
  cases fulfils with
  | waited before after unfetched _ adds => simp [before, after, unfetched, adds]
  | fetched before after fetched _ adds => simp [before, after, fetched, adds]
  | dealt before after unfetched _ adds => simp [before, after, unfetched, adds, Fate.after]
  | settled before after unfetched _ adds => simp [before, after, unfetched, adds]

/-- The messages that a worker has settled are those that it has fetched, each as its fate is. -/
theorem Obeys.settlements_eq :
    observed Occurrence.settlement? moves =
      (fetched moves).map fun d => (d, (rules.fate w d).outcome) := by
  rw [List.map_eq_flatMap]
  refine obeys.observes run refusing idle _ (fun x => [(x.1, x.2.outcome)]) ?_
  intro m fulfils
  cases fulfils with
  | waited before after unfetched _ _ settled => simp [before, after, unfetched, settled]
  | fetched before after fetched _ _ settled => simp [before, after, fetched, settled]
  | dealt before after unfetched _ _ settled =>
    simp [before, after, unfetched, settled, Fate.after]
  | settled before after unfetched _ _ settled => simp [before, after, unfetched, settled]

end Life

end Memory

end EventPipeline
