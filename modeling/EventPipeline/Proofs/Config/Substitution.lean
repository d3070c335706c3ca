import EventPipeline.Proofs.Config.Placeholders
import EventPipeline.Proofs.Config.Settings
import EventPipeline.Proofs.Toml.Holes

/-! # What a placeholder puts into a configuration

A variable's text is put into a file before the file is read as a document. Where a string of the
document is just a placeholder, the text reaches the setting that the string is for and nothing else,
if it stands for itself between quotation marks (`Toml.Plain`). Besides this, the environment only
names an application that the file does not name, and gives addresses of brokers.
-/

namespace EventPipeline

open Placeholder (Piece pieces substitute)
open Toml (Plain ComesTo quoting unmarked Edited Place)

/-! ### Filling in -/

/-- An environment in which a variable holds a text. -/
def Environment.holding (env : Environment) (name v : String) : Environment :=
  Table.set env name (octetsOf v)

namespace Environment

variable {env : Environment} {name : String}

theorem text?_holding (v : String) : (env.holding name v).text? name = some v := by
  rw [text?, holding, Table.get?_set_self]
  exact textOf?_octetsOf v

theorem text?_holding_of_ne {other : String} (h : other ≠ name) (v : String) :
    (env.holding name v).text? other = env.text? other := by
  rw [text?, text?, holding, Table.get?_set_of_ne env _ h]

end Environment

namespace Placeholder

/-- The text of pieces in an environment. -/
def filled (env : Environment) (ps : List Piece) : List Char := ps.flatMap (Piece.fill env)

/-- A text in which a string is a placeholder for a variable that has no other placeholder: the pieces
before and after the string. -/
structure Alone (text name : String) (before after : List Piece) : Prop where
  written :
    pieces text.toList = before ++ .plain '"' :: .placeholder name.toList :: .plain '"' :: after
  before : .placeholder name.toList ∉ before
  after : .placeholder name.toList ∉ after

variable {env : Environment} {name : String}

theorem filled_holding {ps : List Piece} (absent : .placeholder name.toList ∉ ps) (v : String) :
    filled (env.holding name v) ps = filled env ps := by
  refine List.flatMap_congr fun piece member => ?_
  cases piece with
  | plain c => rfl
  | placeholder other =>
    have ne : String.ofList other ≠ name := by
      rintro rfl
      exact absent (by rwa [String.toList_ofList])
    simp only [Piece.fill, Environment.text?_holding_of_ne ne]

theorem Alone.substitute_eq {text : String} {before after : List Piece}
    (alone : Alone text name before after) (v : String) :
    substitute (env.holding name v) text.toList =
      quoting (filled env before) v (filled env after) := by
  have value : Piece.fill (env.holding name v) (.placeholder name.toList) = v.toList := by
    simp only [Piece.fill, String.ofList_toList, Environment.text?_holding]
  rw [substitute, alone.written, List.flatMap_append, List.flatMap_cons, List.flatMap_cons,
    List.flatMap_cons, value, ← filled_holding alone.before v, ← filled_holding alone.after v]
  rfl

/-! #### Texts with one placeholder -/

/-- A text with a string that is a placeholder. -/
def placing (before name after : String) : String :=
  String.ofList (before.toList ++ '"' :: (spelling name.toList ++ '"' :: after.toList))

theorem filled_plain (env : Environment) (cs : List Char) : filled env (cs.map .plain) = cs := by
  rw [filled, List.flatMap_map]
  exact List.flatMap_singleton' cs

theorem alone_placing {before after : String} (valid : isName name.toList = true)
    (nowhere : '$' ∉ before.toList ∧ '$' ∉ after.toList) :
    Alone (placing before name after) name (before.toList.map .plain) (after.toList.map .plain) where
  written := by
    have mark : ∀ ds, first? ('"' :: ds) = none := fun ds => rfl
    rw [placing, String.toList_ofList, pieces_append nowhere.1,
      pieces_of_first?_none (mark _), pieces_spelling _ (first?_spelling valid _),
      pieces_of_first?_none (mark _), pieces_of_plain nowhere.2]
  before := by simp
  after := by simp

end Placeholder

namespace Config

/-! ### What the environment says besides -/

theorem overriding?_holding {env : Environment} {name : String}
    (other : name ≠ "KAFKA_BOOTSTRAP_SERVERS") (v : String) :
    overriding? (env.holding name v) = overriding? env := by
  rw [overriding?, overriding?, Environment.text?_holding_of_ne other.symm]

theorem defaultApp_holding {env : Environment} {name : String} (other : name ≠ "APP_NAME")
    (v : String) : defaultApp (env.holding name v) = defaultApp env := by
  rw [defaultApp, defaultApp, Environment.text?_holding_of_ne other.symm]

/-! ### A text in the place of a string -/

/-- A configuration with a text for the string at a place of its document. -/
def put (p : Place) (v : String) (c : Config) : Config :=
  match Setting.at? p with
  | none => c
  | some s => s.set v c

/-- Why a text cannot be used for the string at a place, if the environment gives these addresses of
brokers. -/
def faultAt? (p : Place) (v : String) (c : Config) (brokers : Option (List String)) :
    Option ConfigFault :=
  match Setting.at? p with
  | none => none
  | some (.connection (.broker i)) =>
    if brokers.isSome then none else Setting.fault? (.connection (.broker i)) v c
  | some s => s.fault? v c

variable {p : Place} {c : Config} {brokers : Option (List String)}

theorem fault?_put (present : ∀ s, Setting.at? p = some s → (s.get? c).isSome)
    (valid : (c.withBrokers brokers).fault? = none) (v : String) :
    ((c.put p v).withBrokers brokers).fault? = c.faultAt? p v brokers := by
  cases setting : Setting.at? p with
  | none => simpa [put, faultAt?, setting] using valid
  | some s =>
    have present := present s setting
    cases brokers with
    | none =>
      have same : c.faultAt? p v none = s.fault? v c := by
        simp only [faultAt?, setting]
        split <;> simp_all
      rw [same, put, setting]
      exact Setting.fault?_set valid present v
    | some brokers =>
      -- Other addresses take the place of those with the text, and change no other setting.
      have edited := fun present => Setting.fault?_set (s := s) valid present v
      rw [put, faultAt?, setting]
      rcases s with _ | (i | _ | _ | _ | _) | ⟨i, s⟩
      case connection.broker => exact valid
      all_goals exact edited present

theorem put_of_edited {v : String} {c' : Config}
    (edited : Edited Setting.get? Setting.set (Setting.at? p) v c c') :
    c' = c.put p v ∧ ∀ s, Setting.at? p = some s → (s.get? c).isSome := by
  rw [put]
  cases setting : Setting.at? p with
  | none =>
    rw [setting] at edited
    exact ⟨edited, fun s found => by cases found⟩
  | some s =>
    rw [setting] at edited
    refine ⟨edited.2, fun t found => ?_⟩
    cases found
    exact edited.1

theorem get?_put {s : Setting} (setting : Setting.at? p = some s) (present : (s.get? c).isSome)
    (v : String) : s.get? (c.put p v) = some v ∧ ∀ t ≠ s, t.get? (c.put p v) = t.get? c := by
  rw [put, setting]
  exact ⟨Setting.get?_set present v, fun t other => Setting.get?_set_of_ne other.symm v c⟩

/-- What is loaded from a file in an environment where a variable puts a text into the place `p` of the
document. `c` is what the document describes but for the text, under the name that the environment gives
the application if `named` is none. -/
structure Takes (env : Environment) (text name : String) (ms : Toml.Members) (p : Place)
    (named : Option String) (c : Config) (v : String) : Prop where
  /-- The document is another one at the place only. -/
  document : Toml.read? (String.ofList (substitute env text.toList)) = some (ms.put v p)
  /-- The setting at the place is the text, and the others stay. -/
  setting : ∀ s, Setting.at? p = some s →
    s.get? (c.put p v) = some v ∧ ∀ t ≠ s, t.get? (c.put p v) = t.get? c
  /-- The environment gives addresses of brokers, if it has any, and nothing else. -/
  loaded : (load (.file (octetsOf text)) env).1 = ((c.put p v).withBrokers (overriding? env)).checked
  /-- Nothing but the setting is a reason against the text, unless it is also the empty name of the
  application, or gives no addresses to a file that needs some. -/
  accepted : (name = "APP_NAME" → named = none → v ≠ "") →
    (name = "KAFKA_BOOTSTRAP_SERVERS" → overriding? env = none → c.hasBrokers = true) →
    ((c.put p v).withBrokers (overriding? env)).fault? = c.faultAt? p v (overriding? env)

/-- A configuration that can be used in one environment can be used in another, unless it gets an empty
name there, or has no brokers of its own and gets none. -/
theorem fault?_of_environment {env env' : Environment} {named : Option String}
    (valid : ({ c with app := named.getD (defaultApp env) }.withBrokers (overriding? env)).fault? = none)
    (app : named = none → defaultApp env' ≠ "")
    (brokers : overriding? env' = none → c.hasBrokers = true) :
    ({ c with app := named.getD (defaultApp env') }.withBrokers (overriding? env')).fault? = none := by
  obtain ⟨app₀, -, timeout, listeners⟩ := fault?_eq_none.mp valid
  simp only [withBrokers_app, withBrokers_polling, withBrokers_listeners] at app₀ timeout listeners
  have app' : named.getD (defaultApp env') ≠ "" := by
    cases named with
    | none => exact app rfl
    | some name => exact app₀
  cases given : overriding? env' with
  | none => exact fault?_eq_none.mpr ⟨app', brokers given, timeout, listeners⟩
  | some addresses =>
    exact fault?_eq_none.mpr ⟨app', hasBrokers_of_overriding? given _, timeout, listeners⟩

/-- If reading a file comes to a string that is the only placeholder for a variable, every plain text of
the variable gets into the place of the string in the document, and into nothing else: the setting there
is the text, and all else is the same for every text. The environment, with the text in it, only names an
application that the document does not name, and gives addresses of brokers. No further mark may follow
the string, since three of them would open a block if the text is empty. -/
theorem value_reaches_setting {env : Environment} {text name : String} {before after : List Piece}
    {v₀ : String} {c₀ : Config} (alone : Placeholder.Alone text name before after)
    (value : ComesTo (quoting [] v₀ (Placeholder.filled env after)) .lines
      (unmarked (quoting (Placeholder.filled env before) v₀ (Placeholder.filled env after))))
    (closed : (Placeholder.filled env after).head? ≠ some '"') (plain : Plain v₀)
    (valid : (load (.file (octetsOf text)) (env.holding name v₀)).1 = .ok c₀) :
    ∃ (ms : Toml.Members) (p : Place) (named : Option String) (c : Config), ms.Holds p ∧
      (∀ app, ofMembers app ms = .ok { c with app := named.getD app }) ∧
      ∀ v, Plain v → ∀ env', env' = env.holding name v →
        Takes env' text name ms p named { c with app := named.getD (defaultApp env') } v := by
  rw [load_file, bind_eq_ok] at valid
  obtain ⟨c, described, accepted⟩ := valid
  rw [alone.substitute_eq] at described
  obtain ⟨ms, read, made⟩ := ofText_eq_ok.mp described
  obtain ⟨-, faultless⟩ := checked_eq_ok.mp accepted
  obtain ⟨p, holds, each⟩ := Toml.read?_put plain closed value read
  obtain ⟨named, names⟩ := ofMembers_named made
  have same := Except.ok.inj (made.symm.trans (names _))
  refine ⟨ms, p, named, c, holds, names, ?_⟩
  rintro v plain env' rfl
  obtain ⟨c', put, edited⟩ := ofMembers_put holds (names _) v
  obtain ⟨rfl, present⟩ := put_of_edited edited
  have read' := each v plain
  rw [← alone.substitute_eq] at read'
  refine ⟨read', fun s setting => get?_put setting (present s setting) v, ?_, fun app brokers => ?_⟩
  · rw [load_file, ofText_eq_ok.mpr ⟨_, read', put⟩]
    rfl
  · have usable : ({ c with app := named.getD (defaultApp (env.holding name v₀)) }.withBrokers
        (overriding? (env.holding name v₀))).fault? = none := by rwa [← same]
    refine fault?_put present (fault?_of_environment usable ?_ ?_) v
    · intro unnamed
      by_cases here : name = "APP_NAME"
      · rw [here, defaultApp, Environment.text?_holding]
        exact app here unnamed
      · have app₀ := (fault?_eq_none.mp faultless).1
        rw [withBrokers_app, same, unnamed, defaultApp_holding here] at app₀
        rwa [defaultApp_holding here]
    · intro without
      by_cases here : name = "KAFKA_BOOTSTRAP_SERVERS"
      · exact brokers here without
      · have brokers₀ := (fault?_eq_none.mp faultless).2.1
        rw [overriding?_holding here] at without brokers₀
        rwa [without] at brokers₀

/-- A file that only gives a password. -/
def passwordFile (name : String) : String :=
  Placeholder.placing "kafka=\x7bsasl_password=" name "\x7d"

/-- The configuration with a password and nothing else. -/
def ofPassword (app password : String) : Config :=
  { standard app with connection := { Connection.standard with password := some password } }

theorem load_placing {env : Environment} {before name after : String}
    (valid : Placeholder.isName name.toList = true)
    (nowhere : '$' ∉ before.toList ∧ '$' ∉ after.toList) (v : String) :
    (load (.file (octetsOf (Placeholder.placing before name after))) (env.holding name v)).1 =
      ofText (env.holding name v) (String.ofList (quoting before.toList v after.toList)) >>= fun c =>
        (c.withBrokers (overriding? (env.holding name v))).checked := by
  have alone := Placeholder.alone_placing valid nowhere
  rw [load_file, alone.substitute_eq, Placeholder.filled_plain, Placeholder.filled_plain]

/-- A password reaches its setting. -/
theorem password_reaches_setting :
    ∃ (ms : Toml.Members) (p : Place) (named : Option String) (c : Config), ms.Holds p ∧
      (∀ app, ofMembers app ms = .ok { c with app := named.getD app }) ∧
      ∀ v, Plain v → ∀ env', env' = Environment.holding [] "P" v →
        Takes env' (passwordFile "P") "P" ms p named
          { c with app := named.getD (defaultApp env') } v := by
  have alone : Placeholder.Alone (passwordFile "P") "P" _ _ :=
    Placeholder.alone_placing (by decide) (by decide)
  have valid : (load (.file (octetsOf (passwordFile "P"))) (Environment.holding [] "P" "s")).1 =
      .ok (ofPassword "Kafka" "s") := by
    rw [passwordFile, load_placing (by decide) (by decide)]
    exact ok_of_toOption (by decide +kernel)
  refine value_reaches_setting alone ?_ ?_ (by decide) valid
  · rw [Placeholder.filled_plain, Placeholder.filled_plain]
    refine @ComesTo.line _ _ ([], "kafka") "=\x7bsasl_password=\"s\"\x7d".toList _
      (by decide +kernel) rfl (.table ?_)
    exact @ComesTo.member _ _ _ ([], "sasl_password") "=\"s\"\x7d".toList _ (by decide +kernel) rfl .here
  · decide

/-- What is loaded from a file when a variable holds a text. -/
def loaded? (env : Environment) (text name v : String) : Option Config :=
  (load (.file (octetsOf text)) (env.holding name v)).1.toOption

theorem loaded?_placing {env : Environment} {before name after : String}
    (valid : Placeholder.isName name.toList = true)
    (nowhere : '$' ∉ before.toList ∧ '$' ∉ after.toList) (v : String) :
    loaded? env (Placeholder.placing before name after) name v =
      (ofText (env.holding name v) (String.ofList (quoting before.toList v after.toList)) >>= fun c =>
        (c.withBrokers (overriding? (env.holding name v))).checked).toOption := by
  rw [loaded?, load_placing valid nowhere]

/-- A text does not always reach its setting unchanged, or nothing else. A quotation mark ends the
string, and the rest is read as part of the document; a backslash starts an escape sequence. `APP_NAME`
names an application that the file does not name, and addresses in `KAFKA_BOOTSTRAP_SERVERS` are taken
for the brokers, in place of those that the file lists. -/
theorem value_misses_setting :
    loaded? [] (passwordFile "P") "P" "s" = some (ofPassword "Kafka" "s") ∧
    loaded? [] (passwordFile "P") "P" "s\"" = none ∧
    loaded? [] (passwordFile "P") "P" "s\",ssl_enabled=true,client_id=\"i" =
      some { standard "Kafka" with connection :=
        { Connection.standard with password := some "s", tls := true, clientId := some "i" } } ∧
    loaded? [] (passwordFile "P") "P" "\\u0041" = some (ofPassword "Kafka" "A") ∧
    loaded? [] (passwordFile "APP_NAME") "APP_NAME" "s" = some (ofPassword "s" "s") ∧
    loaded? [] (passwordFile "KAFKA_BOOTSTRAP_SERVERS") "KAFKA_BOOTSTRAP_SERVERS" "s" =
      some { standard "Kafka" with connection :=
        { Connection.standard with password := some "s", brokers := ["s"] } } ∧
    loaded? (Environment.holding [] "KAFKA_BOOTSTRAP_SERVERS" "a")
      (Placeholder.placing "kafka=\x7bbrokers=[" "B" "]\x7d") "B" "b" =
      some { standard "Kafka" with connection := { Connection.standard with brokers := ["a"] } } := by
  unfold passwordFile
  refine ⟨?_, ?_, ?_, ?_, ?_, ?_, ?_⟩ <;> rw [loaded?_placing (by decide) (by decide)] <;> decide +kernel

end Config

end EventPipeline
