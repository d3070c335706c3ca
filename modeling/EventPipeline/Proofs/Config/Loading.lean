import Mathlib.Tactic.SplitIfs
import EventPipeline.Config.Load

/-! # How a configuration is loaded

What is loaded is what the file makes, with the addresses of brokers that the environment gives, if it gives
any, and it is loaded only if it has no fault (`Config.load_eq`). Logging changes none of this, and neither
does looking at the environment.
-/

namespace EventPipeline

namespace Config

variable {c : Config}

/-! ### Faults -/

theorem hasBrokers_iff :
    c.hasBrokers = true ↔ c.connection.brokers ≠ [] ∧ "" ∉ c.connection.brokers := by
  simp [hasBrokers]

theorem fault?_of_named (app : c.app ≠ "") (brokers : c.hasBrokers = true)
    (timeout : c.polling.pollTimeoutSecs ≠ 0) :
    c.fault? = c.listeners.findSome? ListenerEntry.fault? := by
  simp [fault?, app, brokers, timeout]

theorem fault?_eq_none : c.fault? = none ↔ c.app ≠ "" ∧ c.hasBrokers = true ∧
    c.polling.pollTimeoutSecs ≠ 0 ∧ c.listeners.findSome? ListenerEntry.fault? = none := by
  simp only [fault?]
  split_ifs with noApp noBroker noTimeout
  · simp [noApp]
  · simp at noBroker
    simp [noBroker]
  · simp [noTimeout]
  · simp at noBroker
    simp [noApp, noBroker, noTimeout]

/-! ### Loading -/

/-- A configuration with addresses of brokers from elsewhere, if there are any. -/
def withBrokers (c : Config) : Option (List String) → Config
  | none => c
  | some brokers => { c with connection := { c.connection with brokers } }

section

variable (c : Config) (brokers : Option (List String))

@[simp] theorem withBrokers_app : (c.withBrokers brokers).app = c.app := by cases brokers <;> rfl

@[simp] theorem withBrokers_polling : (c.withBrokers brokers).polling = c.polling := by
  cases brokers <;> rfl

@[simp] theorem withBrokers_listeners : (c.withBrokers brokers).listeners = c.listeners := by
  cases brokers <;> rfl

end

/-- A configuration, if it can be used. -/
def checked (c : Config) : Except ConfigError Config :=
  match c.fault? with
  | some f => .error (.invalid f)
  | none => .ok c

theorem reportUnset_world (env : Environment) (names : List String) :
    (reportUnset names env).2.1 = env := by
  induction names with
  | nil => rfl
  | cons name names ih => simp [reportUnset, ih]

theorem parse_world (env : Environment) (source : Source) : (parse source env).2.1 = env := by
  cases source with
  | missing => rfl
  | directory => rfl
  | file content => cases read : textOf? content <;> simp [parse, read, reportUnset_world]

theorem parse_file (env : Environment) (text : String) : (parse (.file (octetsOf text)) env).1 =
    ofText env (String.ofList (Placeholder.substitute env text.toList)) := by
  simp [parse, textOf?_octetsOf, reportUnset_world]

theorem override_eq (env : Environment) (c : Config) :
    (override c env).1 = c.withBrokers (overriding? env) := by
  simp only [override, Act.bind_apply, Act.read_apply]
  cases overriding? env <;> rfl

theorem validate_eq (env : Environment) (c : Config) :
    (validate c env).1 = c.checked.map fun _ => () := by
  simp only [validate, checked]
  split_ifs <;> cases c.fault? <;> rfl

theorem validate_eq_ok_iff {env : Environment} : (validate c env).1 = .ok () ↔ c.fault? = none := by
  rw [validate_eq, checked]
  cases c.fault? <;> simp [Except.map]

/-- What is found makes a configuration, the environment may give it other brokers, and then it is
checked. -/
theorem load_eq (env : Environment) (source : Source) : (load source env).1 =
    (parse source env).1 >>= fun c => (c.withBrokers (overriding? env)).checked := by
  simp only [load, Act.bind_apply, parse_world]
  cases (parse source env).1 with
  | error e => rfl
  | ok c =>
    have joined : (Except.ok c >>= fun c => (c.withBrokers (overriding? env)).checked) =
        (c.withBrokers (overriding? env)).checked := rfl
    rw [joined]
    simp only [Act.bind_apply, override_eq, validate_eq, checked]
    cases (c.withBrokers (overriding? env)).fault? <;> rfl

/-- Loading a file: the document in it makes a configuration, the environment may give it other brokers,
and then it is checked. -/
theorem load_file (env : Environment) (text : String) : (load (.file (octetsOf text)) env).1 =
    ofText env (String.ofList (Placeholder.substitute env text.toList)) >>= fun c =>
      (c.withBrokers (overriding? env)).checked := by
  rw [load_eq, parse_file]

theorem ofText_eq_ok {env : Environment} {text : String} {c : Config} : ofText env text = .ok c ↔
    ∃ ms, Toml.read? text = some ms ∧ ofMembers (defaultApp env) ms = .ok c := by
  simp only [ofText]
  cases Toml.read? text with
  | none => simp
  | some ms => cases made : ofMembers (defaultApp env) ms <;> simp [made]

theorem ok_of_toOption {ε α : Type} {x : Except ε α} {a : α} (h : x.toOption = some a) : x = .ok a := by
  cases x with
  | error e => cases h
  | ok b => exact congrArg Except.ok (Option.some.inj h)

theorem checked_eq_ok {c c' : Config} : c.checked = .ok c' ↔ c' = c ∧ c.fault? = none := by
  simp only [checked]
  cases c.fault? <;> simp [eq_comm]

/-! ### Addresses from the environment -/

theorem empty_notMem_addresses (list : String) : "" ∉ Addresses.ofText list := by
  intro member
  obtain ⟨part, kept, same⟩ := List.mem_map.mp member
  have some := (List.mem_filter.mp kept).2
  obtain rfl : part = [] := String.ofList_injective same
  cases some

theorem hasBrokers_of_overriding? {env : Environment} {brokers : List String}
    (given : overriding? env = some brokers) (c : Config) :
    (c.withBrokers (some brokers)).hasBrokers = true := by
  simp only [overriding?] at given
  split at given
  · cases given
  · cases given
  · next listed some found =>
    cases given
    obtain ⟨list, -, rfl⟩ := Option.map_eq_some_iff.mp found
    exact hasBrokers_iff.mpr ⟨some, empty_notMem_addresses list⟩

end Config

end EventPipeline
