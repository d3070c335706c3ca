import EventPipeline.Proofs.Config.Loading
import EventPipeline.Proofs.Toml.Shapes

/-! # The strings of a configuration

A string of a document is a setting of the configuration that the document describes, or a member that
no field has: `Setting.at?` says which by the place of the string. With another string in that place
the document describes the same configuration but for that setting.
-/

namespace EventPipeline

open Toml (Value Place Edits Touches Edited settingAt? edits_of_fields beside_of_set put_of_take)

/-! ### Settings -/

/-- The strings of a connection. -/
inductive ConnectionSetting where
  | broker (i : Nat)
  | mechanism
  | username
  | password
  | clientId
  deriving DecidableEq

/-- The strings of a listener. -/
inductive ListenerSetting where
  | group
  | topic (i : Nat)
  | inNamespace (i : Nat)
  | handler
  deriving DecidableEq

/-- The strings of a configuration. -/
inductive Setting where
  | app
  | connection (s : ConnectionSetting)
  | listener (i : Nat) (s : ListenerSetting)
  deriving DecidableEq

namespace ConnectionSetting

/-- What a connection has for a setting. -/
def get? : ConnectionSetting → Connection → Option String
  | broker i, c => c.brokers[i]?
  | mechanism, c => c.mechanism
  | username, c => c.username
  | password, c => c.password
  | clientId, c => c.clientId

/-- A connection with a text for a setting. -/
def set (s : ConnectionSetting) (v : String) (c : Connection) : Connection :=
  match s with
  | broker i => { c with brokers := c.brokers.set i v }
  | mechanism => { c with mechanism := some v }
  | username => { c with username := some v }
  | password => { c with password := some v }
  | clientId => { c with clientId := some v }

/-- The field that a setting is in. -/
def field : ConnectionSetting → String
  | broker _ => "brokers"
  | mechanism => "sasl_mechanism"
  | username => "sasl_username"
  | password => "sasl_password"
  | clientId => "client_id"

/-- The setting that a place in a field leads to. -/
def ofField? : String → Place → Option ConnectionSetting
  | "brokers", [.item i] => some (broker i)
  | "sasl_mechanism", [] => some mechanism
  | "sasl_username", [] => some username
  | "sasl_password", [] => some password
  | "client_id", [] => some clientId
  | _, _ => none

theorem get?_set {s : ConnectionSetting} {c : Connection} (present : (s.get? c).isSome) (v : String) :
    s.get? (s.set v c) = some v := by
  cases s with
  | broker i => exact List.getElem?_set_self (by simpa [get?] using present)
  | _ => rfl

theorem get?_set_of_ne {s t : ConnectionSetting} (other : s ≠ t) (v : String) (c : Connection) :
    t.get? (s.set v c) = t.get? c := by
  cases s <;> cases t <;> first | rfl | exact absurd rfl other | skip
  next i j => exact List.getElem?_set_ne fun same => other (congrArg broker same)

end ConnectionSetting

namespace ListenerSetting

/-- What a listener has for a setting. -/
def get? : ListenerSetting → ListenerEntry → Option String
  | group, l => some l.group
  | topic i, l => l.topics[i]?
  | inNamespace i, l => l.namespaces.bind fun names => names[i]?
  | handler, l => some l.handler

/-- A listener with a text for a setting. -/
def set (s : ListenerSetting) (v : String) (l : ListenerEntry) : ListenerEntry :=
  match s with
  | group => { l with group := v }
  | topic i => { l with topics := l.topics.set i v }
  | inNamespace i => { l with namespaces := l.namespaces.map fun names => names.set i v }
  | handler => { l with handler := v }

/-- The field that a setting is in. -/
def field : ListenerSetting → String
  | group => "group"
  | topic _ => "topics"
  | inNamespace _ => "namespaces"
  | handler => "handler"

/-- The setting that a place in a field leads to. -/
def ofField? : String → Place → Option ListenerSetting
  | "group", [] => some group
  | "topics", [.item i] => some (topic i)
  | "namespaces", [.item i] => some (inNamespace i)
  | "handler", [] => some handler
  | _, _ => none

theorem get?_set {s : ListenerSetting} {l : ListenerEntry} (present : (s.get? l).isSome) (v : String) :
    s.get? (s.set v l) = some v := by
  cases s with
  | topic i => exact List.getElem?_set_self (by simpa [get?] using present)
  | inNamespace i =>
    obtain ⟨group, topics, _ | names, handler⟩ := l
    · cases present
    · exact List.getElem?_set_self (by simpa [get?] using present)
  | _ => rfl

theorem get?_set_of_ne {s t : ListenerSetting} (other : s ≠ t) (v : String) (l : ListenerEntry) :
    t.get? (s.set v l) = t.get? l := by
  cases s <;> cases t <;> first | rfl | exact absurd rfl other | skip
  · next i j => exact List.getElem?_set_ne fun same => other (congrArg topic same)
  · next i j =>
    obtain ⟨group, topics, _ | names, handler⟩ := l
    · rfl
    · exact List.getElem?_set_ne fun same => other (congrArg inNamespace same)

end ListenerSetting

/-- The only string of the part that names the application, at a place in a field of it. -/
def nameOfField? : String → Place → Option Unit
  | "name", [] => some ()
  | _, _ => none

namespace Setting

/-- What a configuration has for a setting. -/
def get? : Setting → Config → Option String
  | app, c => some c.app
  | connection s, c => s.get? c.connection
  | listener i s, c => c.listeners[i]?.bind s.get?

/-- A configuration with a text for a setting. -/
def set (s : Setting) (v : String) (c : Config) : Config :=
  match s with
  | app => { c with app := v }
  | connection s => { c with connection := s.set v c.connection }
  | listener i s => { c with listeners := c.listeners.modify i (s.set v) }

/-- The field that a setting is in. -/
def field : Setting → String
  | app => "app"
  | connection _ => "kafka"
  | listener .. => "listeners"

/-- The setting that a place in a field leads to. -/
def ofField? : String → Place → Option Setting
  | "app", q => (settingAt? appFields nameOfField? q).map fun _ => app
  | "kafka", q => (settingAt? Connection.fields ConnectionSetting.ofField? q).map connection
  | "listeners", .item i :: q =>
    (settingAt? ListenerEntry.fields ListenerSetting.ofField? q).map (listener i)
  | _, _ => none

/-- The setting that a place in a document leads to. -/
def at? (p : Place) : Option Setting := settingAt? (Config.fields (.standard "")) ofField? p

theorem get?_set {s : Setting} {c : Config} (present : (s.get? c).isSome) (v : String) :
    s.get? (s.set v c) = some v := by
  cases s with
  | app => rfl
  | connection s => exact ConnectionSetting.get?_set present v
  | listener i s =>
    obtain ⟨l, here, present⟩ : ∃ l, c.listeners[i]? = some l ∧ (s.get? l).isSome := by
      simpa [get?, Option.isSome_bind, Option.any_eq_true] using present
    simp only [get?, set, List.getElem?_modify_eq, here]
    exact ListenerSetting.get?_set present v

theorem get?_set_of_ne {s t : Setting} (other : s ≠ t) (v : String) (c : Config) :
    t.get? (s.set v c) = t.get? c := by
  cases s <;> cases t <;> first | rfl | exact absurd rfl other | skip
  · next s t =>
    exact ConnectionSetting.get?_set_of_ne (fun same => other (congrArg connection same)) v _
  · next i s j t =>
    simp only [get?, set]
    by_cases same : i = j
    · subst same
      have other : s ≠ t := fun same => other (congrArg (listener i) same)
      rw [List.getElem?_modify_eq]
      cases c.listeners[i]? with
      | none => rfl
      | some l => exact ListenerSetting.get?_set_of_ne other v l
    · rw [List.getElem?_modify_ne _ _ same]

end Setting

/-! ### What another string edits -/

/-- Texts with another one in the place of one. -/
theorem asStrings_put {y : Value} {q : Place} {texts : List String} (holds : y.Holds q)
    (made : y.asStrings = .ok texts) :
    ∃ i, q = [.item i] ∧ i < texts.length ∧ ∀ v, (y.put v q).asStrings = .ok (texts.set i v) := by
  obtain ⟨i, q, z, text, rfl, inner, here, taken, each⟩ := Toml.asList_put holds made
  obtain ⟨rfl, put⟩ := Toml.asString_put inner taken
  refine ⟨i, rfl, (List.getElem?_eq_some_iff.mp here).1, fun v => ?_⟩
  rw [Value.asStrings, each v (fun _ => v) (put v), List.modify_eq_set]

theorem asSomeString_put {y : Value} {q : Place} {text : Option String} (holds : y.Holds q)
    (made : y.asSomeString = .ok text) :
    q = [] ∧ text.isSome ∧ ∀ v, (y.put v q).asSomeString = .ok (some v) := by
  obtain ⟨s, taken, rfl⟩ := map_eq_ok.mp made
  obtain ⟨rfl, put⟩ := Toml.asString_put holds taken
  exact ⟨rfl, rfl, fun v => by rw [Value.asSomeString, put]; rfl⟩

theorem ConnectionSetting.touches (s : ConnectionSetting) (v : String) :
    Touches Connection.fields s.field (Edited get? set (some s) v) where
  own := by
    intro f member named c c' edited y
    obtain ⟨-, rfl⟩ := edited
    simp only [Connection.fields, List.mem_cons, List.not_mem_nil, or_false] at member
    rcases member with rfl | rfl | rfl | rfl | rfl | rfl <;> cases s <;>
      first | rfl | simp [Toml.Field.optional, field] at named
  others := by
    intro f member other
    simp only [Connection.fields, List.mem_cons, List.not_mem_nil, or_false] at member
    rcases member with rfl | rfl | rfl | rfl | rfl | rfl <;> cases s <;>
      first
        | exact absurd rfl other
        | exact beside_of_set (fun _ _ => rfl) fun ⟨present, edited⟩ _ => ⟨present, by rw [edited]; rfl⟩

theorem Connection.edits : Edits fields fun p =>
    Edited ConnectionSetting.get? ConnectionSetting.set
      (settingAt? fields ConnectionSetting.ofField? p) := by
  refine edits_of_fields ConnectionSetting.field (by decide) ?_ ConnectionSetting.touches ?_
  · intro name q s here
    unfold ConnectionSetting.ofField? at here
    split at here <;> cases here <;> rfl
  · intro f member q y c c' holds made v
    simp only [fields, List.mem_cons, List.not_mem_nil, or_false] at member
    rcases member with rfl | rfl | rfl | rfl | rfl | rfl
    case inr.inl =>
      obtain ⟨b, taken, -⟩ := map_eq_ok.mp made
      exact absurd taken (Toml.asBoolean_ne holds)
    case inl =>
      refine put_of_take (fun _ _ => rfl) made fun taken => ?_
      obtain ⟨i, rfl, bound, put⟩ := asStrings_put holds taken
      exact ⟨_, put v, by simpa [ConnectionSetting.get?] using bound, rfl⟩
    all_goals
      refine put_of_take (fun _ _ => rfl) made fun taken => ?_
      obtain ⟨rfl, present, put⟩ := asSomeString_put holds taken
      exact ⟨_, put v, present, rfl⟩

theorem ListenerSetting.touches (s : ListenerSetting) (v : String) :
    Touches ListenerEntry.fields s.field (Edited get? set (some s) v) where
  own := by
    intro f member named l l' edited y
    obtain ⟨-, rfl⟩ := edited
    simp only [ListenerEntry.fields, List.mem_cons, List.not_mem_nil, or_false] at member
    rcases member with rfl | rfl | rfl | rfl <;> cases s <;>
      first | rfl | simp [Toml.Field.needed, Toml.Field.optional, field] at named
  others := by
    intro f member other
    simp only [ListenerEntry.fields, List.mem_cons, List.not_mem_nil, or_false] at member
    rcases member with rfl | rfl | rfl | rfl <;> cases s <;>
      first
        | exact absurd rfl other
        | exact beside_of_set (fun _ _ => rfl) fun ⟨present, edited⟩ _ => ⟨present, by rw [edited]; rfl⟩

theorem ListenerEntry.edits : Edits fields fun p =>
    Edited ListenerSetting.get? ListenerSetting.set (settingAt? fields ListenerSetting.ofField? p) := by
  refine edits_of_fields ListenerSetting.field (by decide) ?_ ListenerSetting.touches ?_
  · intro name q s here
    unfold ListenerSetting.ofField? at here
    split at here <;> cases here <;> rfl
  · intro f member q y l l' holds made v
    simp only [fields, List.mem_cons, List.not_mem_nil, or_false] at member
    rcases member with rfl | rfl | rfl | rfl
    · refine put_of_take (fun _ _ => rfl) made fun taken => ?_
      obtain ⟨rfl, put⟩ := Toml.asString_put holds taken
      exact ⟨_, put v, rfl, rfl⟩
    · refine put_of_take (fun _ _ => rfl) made fun taken => ?_
      obtain ⟨i, rfl, bound, put⟩ := asStrings_put holds taken
      exact ⟨_, put v, by simpa [ListenerSetting.get?] using bound, rfl⟩
    · refine put_of_take (fun _ _ => rfl) made fun taken => ?_
      obtain ⟨names, listed, rfl⟩ := map_eq_ok.mp taken
      obtain ⟨i, rfl, bound, put⟩ := asStrings_put holds listed
      exact ⟨_, by rw [put v]; rfl, by simpa [ListenerSetting.get?] using bound, rfl⟩
    · refine put_of_take (fun _ _ => rfl) made fun taken => ?_
      obtain ⟨rfl, put⟩ := Toml.asString_put holds taken
      exact ⟨_, put v, rfl, rfl⟩

/-- The application's name as a setting. -/
abbrev NameEdited : Option Unit → String → String → String → Prop :=
  Edited (fun _ name => some name) fun _ v _ => v

theorem name_edits : Edits appFields fun p => NameEdited (settingAt? appFields nameOfField? p) := by
  refine edits_of_fields (fun _ => "name") (by decide) ?_ (fun s v => ⟨?_, ?_⟩) ?_
  · intro name q s here
    unfold nameOfField? at here
    split at here
    · cases here
      rfl
    · cases here
  · intro f member _ r r' _ y
    obtain rfl := List.mem_singleton.mp member
    rfl
  · intro f member other
    obtain rfl := List.mem_singleton.mp member
    exact absurd rfl other
  · intro f member q y r r' holds made v
    obtain rfl := List.mem_singleton.mp member
    refine put_of_take (fun _ _ => rfl) made fun taken => ?_
    obtain ⟨rfl, put⟩ := Toml.asString_put holds taken
    exact ⟨_, put v, rfl, rfl⟩

theorem number_refuses {ρ : Type} {name : String} {set : Nat → ρ → ρ} {y : Value} {q : Place} {r r' : ρ}
    (holds : y.Holds q) : (Toml.Field.optional name Value.asNatural set).put y r ≠ .ok r' := by
  intro made
  obtain ⟨n, taken, -⟩ := map_eq_ok.mp made
  exact Toml.asNatural_ne holds taken

theorem Polling.edits : Edits fields fun _ _ p p' => p' = p := by
  refine Toml.edits_of_no_string (by decide) fun f member {_ _ _ _} holds => ?_
  simp only [fields, List.mem_cons, List.not_mem_nil, or_false] at member
  rcases member with rfl | rfl | rfl <;> exact number_refuses holds

theorem Producing.edits : Edits fields fun _ _ p p' => p' = p := by
  refine Toml.edits_of_no_string (by decide) fun f member {_ _ _ _} holds => ?_
  simp only [fields, List.mem_cons, List.not_mem_nil, or_false] at member
  rcases member with rfl | rfl <;> exact number_refuses holds

theorem Setting.touches (blank : Config) (s : Setting) (v : String) :
    Touches (Config.fields blank) s.field (Edited get? set (some s) v) where
  own := by
    intro f member named c c' edited y
    obtain ⟨-, rfl⟩ := edited
    simp only [Config.fields, List.mem_cons, List.not_mem_nil, or_false] at member
    rcases member with rfl | rfl | rfl | rfl | rfl <;> cases s <;>
      first | rfl | simp [Toml.Field.optional, field] at named
  others := by
    intro f member other
    simp only [Config.fields, List.mem_cons, List.not_mem_nil, or_false] at member
    rcases member with rfl | rfl | rfl | rfl | rfl <;> cases s <;>
      first
        | exact absurd rfl other
        | exact beside_of_set (fun _ _ => rfl) fun ⟨present, edited⟩ _ => ⟨present, by rw [edited]; rfl⟩

theorem modify_congr {α : Type} {as : List α} {i : Nat} {a : α} (here : as[i]? = some a) (f g : α → α)
    (same : f a = g a) : as.modify i f = as.modify i g := by
  refine List.ext_getElem? fun j => ?_
  by_cases at_i : i = j
  · subst at_i
    rw [List.getElem?_modify_eq, List.getElem?_modify_eq, here]
    exact congrArg some same
  · rw [List.getElem?_modify_ne _ _ at_i, List.getElem?_modify_ne _ _ at_i]

/-- An edit of a part is an edit of the configuration. -/
theorem edited_part {σ ρ : Type} {get? : σ → ρ → Option String} {set : σ → String → ρ → ρ}
    {o : Option σ} {v : String} {r r' : ρ} (edited : Edited get? set o v r r') {c c' : Config}
    {part : σ → Setting} (same : r' = r → c' = c)
    (gets : ∀ s, (part s).get? c = get? s r) (sets : ∀ s, r' = set s v r → c' = (part s).set v c) :
    Edited Setting.get? Setting.set (o.map part) v c c' := by
  cases o with
  | none => exact same edited
  | some s => exact ⟨by rw [gets]; exact edited.1, sets s edited.2⟩

theorem Config.edits (blank : Config) : Edits (fields blank) fun p =>
    Edited Setting.get? Setting.set (settingAt? (fields blank) Setting.ofField? p) := by
  have distinct : ["app", "kafka", "worker", "producer", "listeners"].Nodup := by decide
  refine edits_of_fields Setting.field distinct ?_ (Setting.touches blank) ?_
  · intro name q s here
    unfold Setting.ofField? at here
    split at here
    · obtain ⟨_, -, rfl⟩ := Option.map_eq_some_iff.mp here
      rfl
    · obtain ⟨_, -, rfl⟩ := Option.map_eq_some_iff.mp here
      rfl
    · obtain ⟨_, -, rfl⟩ := Option.map_eq_some_iff.mp here
      rfl
    · cases here
  · intro f member q y c c' holds made v
    simp only [fields, List.mem_cons, List.not_mem_nil, or_false] at member
    rcases member with rfl | rfl | rfl | rfl | rfl
    · refine put_of_take (fun _ _ => rfl) made fun taken => ?_
      obtain ⟨name, put, edited⟩ := Toml.asRecord_put name_edits holds taken v
      refine ⟨name, put, edited_part edited (fun same => by rw [same]) (fun _ => rfl) fun _ same => ?_⟩
      rw [same]
      rfl
    · refine put_of_take (fun _ _ => rfl) made fun taken => ?_
      obtain ⟨part, put, edited⟩ := Toml.asRecord_put Connection.edits holds taken v
      refine ⟨part, put, edited_part edited (fun same => by rw [same]) (fun _ => rfl) fun _ same => ?_⟩
      rw [same]
      rfl
    · refine put_of_take (fun _ _ => rfl) made fun taken => ?_
      obtain ⟨_, put, rfl⟩ := Toml.asRecord_put Polling.edits holds taken v
      exact ⟨_, put, rfl⟩
    · refine put_of_take (fun _ _ => rfl) made fun taken => ?_
      obtain ⟨_, put, rfl⟩ := Toml.asRecord_put Producing.edits holds taken v
      exact ⟨_, put, rfl⟩
    · refine put_of_take (fun _ _ => rfl) made fun taken => ?_
      obtain ⟨i, q, z, l, rfl, inner, here, one, each⟩ := Toml.asList_put holds taken
      obtain ⟨l', put, edited⟩ := Toml.asRecord_put ListenerEntry.edits inner one v
      refine ⟨_, each v (fun _ => l') put, edited_part edited ?_ ?_ ?_⟩
      · rintro rfl
        rw [modify_congr here (fun _ => l') id rfl, List.modify_id]
      · intro s
        simp only [Setting.get?, here]
        rfl
      · rintro s rfl
        rw [modify_congr here (fun _ => s.set v l) (s.set v) rfl]
        rfl

/-- The configuration that members with another string in one of them describe. -/
theorem Config.ofMembers_put {app : String} {ms : Toml.Members} {c : Config} {p : Place}
    (holds : ms.Holds p) (made : ofMembers app ms = .ok c) (v : String) :
    ∃ c', ofMembers app (ms.put v p) = .ok c' ∧
      Edited Setting.get? Setting.set (Setting.at? p) v c c' :=
  Toml.takeMembers_put (Config.edits (.standard app)) holds made v

/-! ### The name of the application -/

/-- A member of the part that names the application gives one name whatever it was before, or keeps it. -/
theorem putMember_appFields {m : String × Value} {r r' : String}
    (made : Toml.putMember appFields r m = .ok r') :
    r' = r ∧ (∀ app, Toml.putMember appFields app m = .ok app) ∨
      ∀ app, Toml.putMember appFields app m = .ok r' := by
  cases found : Toml.fieldAt? appFields (.key m.1) with
  | none =>
    rw [Toml.putMember_of_none found] at made
    cases made
    exact .inl ⟨rfl, Toml.putMember_of_none found⟩
  | some f =>
    rw [Toml.putMember_of_field found] at made
    obtain rfl := List.mem_singleton.mp (Toml.mem_of_fieldAt? found)
    obtain ⟨name, taken, rfl⟩ := map_eq_ok.mp made
    refine .inr fun app => ?_
    rw [Toml.putMember_of_field found]
    exact map_eq_ok.mpr ⟨name, taken, rfl⟩

/-- Members of the part that names the application give one name whatever it was before, or keep it. -/
theorem foldlM_appFields {ms : Toml.Members} {app r : String}
    (made : ms.foldlM (Toml.putMember appFields) app = .ok r) :
    ∃ named : Option String, ∀ app,
      ms.foldlM (Toml.putMember appFields) app = .ok (named.getD app) := by
  induction ms generalizing app with
  | nil => exact ⟨none, fun app => rfl⟩
  | cons m ms ih =>
    obtain ⟨r₁, one, others⟩ := bind_eq_ok.mp made
    rcases putMember_appFields one with ⟨-, keeps⟩ | gives
    · obtain ⟨named, each⟩ := ih others
      exact ⟨named, fun app => by rw [List.foldlM_cons, keeps]; exact each app⟩
    · exact ⟨some r, fun app => by rw [List.foldlM_cons, gives]; exact others⟩

theorem asRecord_appFields {x : Value} {app r : String}
    (made : x.asRecord "AppConfig" appFields app = .ok r) :
    ∃ named : Option String, ∀ app, x.asRecord "AppConfig" appFields app = .ok (named.getD app) := by
  rcases x with _ | _ | _ | _ | _ | ⟨grows, _ | ⟨y, items⟩⟩ | ⟨origin, ms⟩
  case moment => exact ⟨none, fun app => rfl⟩
  case array.nil => exact ⟨none, fun app => rfl⟩
  case array.cons =>
    obtain ⟨r₁, one, rest⟩ := bind_eq_ok.mp made
    obtain ⟨name, taken, rfl⟩ := map_eq_ok.mp one
    exact ⟨some name, fun app => bind_eq_ok.mpr ⟨name, map_eq_ok.mpr ⟨name, taken, rfl⟩, rfl⟩⟩
  case table =>
    obtain ⟨folded, complete⟩ := Toml.takeMembers_eq_ok.mp made
    obtain ⟨named, each⟩ := foldlM_appFields folded
    exact ⟨named, fun app => Toml.takeMembers_eq_ok.mpr ⟨each app, complete⟩⟩
  all_goals cases made

/-- A member of a configuration gives the application a name, or leaves it as it is. -/
theorem putMember_fields {m : String × Value} {app : String} {named : Option String} {c c' : Config}
    (made : Toml.putMember (Config.fields (.standard app)) { c with app := named.getD app } m =
      .ok c') : ∃ named' : Option String, ∀ app,
      Toml.putMember (Config.fields (.standard app)) { c with app := named.getD app } m =
        .ok { c' with app := named'.getD app } := by
  obtain ⟨k, y⟩ := m
  cases found : Toml.fieldAt? (Config.fields (.standard app)) (.key k) with
  | none =>
    rw [Toml.putMember_of_none found] at made
    cases made
    refine ⟨named, fun app' => ?_⟩
    have none : Toml.fieldAt? (Config.fields (.standard app')) (.key k) = none := by
      have same := Toml.nameAt?_eq (Config.fields (.standard app)) (.key k)
      have same' := Toml.nameAt?_eq (Config.fields (.standard app')) (.key k)
      rw [found] at same
      exact Option.map_eq_none_iff.mp (same'.symm.trans same)
    rw [Toml.putMember_of_none none]
  | some f =>
    obtain ⟨member, rfl⟩ := Toml.name_of_fieldAt? found
    rw [Toml.putMember_of_field found] at made
    simp only [Config.fields, List.mem_cons, List.not_mem_nil, or_false] at member
    rcases member with rfl | rfl | rfl | rfl | rfl
    case inl =>
      obtain ⟨name, taken, rfl⟩ := map_eq_ok.mp made
      obtain ⟨named', each⟩ := asRecord_appFields taken
      exact ⟨named', fun app => map_eq_ok.mpr ⟨_, each app, rfl⟩⟩
    all_goals
      obtain ⟨part, taken, rfl⟩ := map_eq_ok.mp made
      exact ⟨named, fun app => map_eq_ok.mpr ⟨part, taken, rfl⟩⟩

theorem foldlM_fields {app : String} {ms : Toml.Members} (named : Option String) (c : Config)
    {c' : Config} (made : ms.foldlM (Toml.putMember (Config.fields (.standard app)))
      { c with app := named.getD app } = .ok c') :
    ∃ named' : Option String, ∀ app,
      ms.foldlM (Toml.putMember (Config.fields (.standard app))) { c with app := named.getD app } =
        .ok { c' with app := named'.getD app } := by
  induction ms generalizing named c with
  | nil =>
    cases made
    exact ⟨named, fun app => rfl⟩
  | cons m ms ih =>
    obtain ⟨c₁, one, others⟩ := bind_eq_ok.mp made
    obtain ⟨named₁, each⟩ := putMember_fields one
    have same : c₁ = { c₁ with app := named₁.getD app } := Except.ok.inj (one.symm.trans (each app))
    obtain ⟨named', rest⟩ := ih named₁ c₁ (same ▸ others)
    exact ⟨named', fun app => by rw [List.foldlM_cons, each app]; exact rest app⟩

/-- A document gives the application a name, or has it named by what stands for none. All else in the
configuration is the same for every such name. -/
theorem Config.ofMembers_named {app : String} {ms : Toml.Members} {c : Config}
    (made : ofMembers app ms = .ok c) :
    ∃ named : Option String, ∀ app, ofMembers app ms = .ok { c with app := named.getD app } := by
  obtain ⟨folded, complete⟩ := Toml.takeMembers_eq_ok.mp made
  obtain ⟨named, each⟩ := foldlM_fields none (standard app) folded
  exact ⟨named, fun app => Toml.takeMembers_eq_ok.mpr ⟨each app, complete⟩⟩

/-! ### Faults -/

/-- Why a text cannot be used for a setting. -/
def Setting.fault? (s : Setting) (v : String) (c : Config) : Option ConfigFault :=
  match s with
  | app => if v = "" then some .emptyApp else none
  | connection (.broker _) => if v = "" then some .noBroker else none
  | listener _ .group => if v = "" then some .incompleteListener else none
  | listener i .handler =>
    if (labelOf? v).isNone then c.listeners[i]?.map fun l => .unknownHandlerOf l.group v else none
  | _ => none

theorem findSome?_modify {α β : Type} {f : α → Option β} {as : List α} (none : as.findSome? f = none)
    {i : Nat} {a : α} (here : as[i]? = some a) (g : α → α) :
    (as.modify i g).findSome? f = f (g a) := by
  induction as generalizing i with
  | nil => simp at here
  | cons b as ih =>
    obtain ⟨first, others⟩ : f b = .none ∧ as.findSome? f = .none := by
      cases found : f b <;> simp_all
    cases i with
    | zero =>
      cases here
      rw [List.modify_zero_cons, List.findSome?_cons, others]
      cases f (g a) <;> rfl
    | succ i =>
      rw [List.modify_succ_cons, List.findSome?_cons, first]
      exact ih others (by simpa using here)

/-- A listener that can be used, with a text for one of its settings. -/
theorem ListenerSetting.fault?_set (s : ListenerSetting) {l : ListenerEntry} (valid : l.fault? = none)
    (v : String) :
    (s.set v l).fault? = match s with
      | group => if v = "" then some .incompleteListener else none
      | handler => if (labelOf? v).isNone then some (.unknownHandlerOf l.group v) else none
      | _ => none := by
  simp only [ListenerEntry.fault?] at valid ⊢
  split_ifs at valid with incomplete unknown
  cases s <;> simp_all [set]

/-- A configuration that can be used, with a text for one of its settings: nothing but the text can be a
reason against it. -/
theorem Setting.fault?_set {s : Setting} {c : Config} (valid : c.fault? = none)
    (present : (s.get? c).isSome) (v : String) : (s.set v c).fault? = s.fault? v c := by
  obtain ⟨app, brokers, timeout, listeners⟩ := Config.fault?_eq_none.mp valid
  rcases s with _ | (i | _ | _ | _ | _) | ⟨i, s⟩
  case app =>
    simp only [set, fault?]
    split_ifs with empty
    · simp [Config.fault?, empty]
    · exact Config.fault?_eq_none.mpr ⟨empty, brokers, timeout, listeners⟩
  case connection.broker =>
    obtain ⟨some, noBlank⟩ := Config.hasBrokers_iff.mp brokers
    have bound : i < c.connection.brokers.length := by
      simpa [get?, ConnectionSetting.get?] using present
    simp only [set, ConnectionSetting.set, fault?]
    split_ifs with empty
    · have blank : "" ∈ c.connection.brokers.set i v := empty ▸ List.mem_set bound v
      simp [Config.fault?, Config.hasBrokers, app, blank]
    · have noBlank' : "" ∉ c.connection.brokers.set i v := by
        intro member
        rcases List.mem_or_eq_of_mem_set member with member | same
        · exact noBlank member
        · exact empty same.symm
      refine Config.fault?_eq_none.mpr ⟨app, Config.hasBrokers_iff.mpr ⟨?_, noBlank'⟩, timeout, listeners⟩
      simpa using some
  case listener =>
    obtain ⟨l, here, -⟩ : ∃ l, c.listeners[i]? = some l ∧ (s.get? l).isSome := by
      simpa [get?, Option.isSome_bind, Option.any_eq_true] using present
    have valid : l.fault? = none :=
      List.findSome?_eq_none_iff.mp listeners l (List.mem_of_getElem? here)
    have listed : (set (.listener i s) v c).fault? =
        (c.listeners.modify i (s.set v)).findSome? ListenerEntry.fault? :=
      Config.fault?_of_named app brokers timeout
    rw [listed, findSome?_modify listeners here, ListenerSetting.fault?_set s valid]
    cases s <;> simp [fault?, here]
  all_goals exact Config.fault?_eq_none.mpr ⟨app, brokers, timeout, listeners⟩

end EventPipeline
