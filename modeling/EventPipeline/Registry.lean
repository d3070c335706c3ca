import EventPipeline.FailureTopics
import EventPipeline.Names
import EventPipeline.Text.Quoted

/-! # Listeners

A listener takes events of certain topics, and of certain namespaces if it names any. The registry
is the list of registrations that were accepted, in their order; everything that can be asked of it
is read off that list. `register` accepts a registration that names a group and topics, none of them
empty or, when names are reserved, on the retry path.
-/

namespace EventPipeline

variable {η θ : Type}

/-- A handler of type `η` with the events it takes. -/
structure Listener (η : Type) where
  /-- The topics, in increasing order. -/
  topics : List String
  /-- The namespaces in increasing order, or none when every namespace will do. -/
  namespaces : Option (List String)
  handler : η

/-- Whether a listener takes an event of a topic and a namespace. -/
def Listener.takes (l : Listener η) (topic : String) (ns : Option String) : Bool :=
  l.topics.contains topic &&
    match l.namespaces, ns with
    | none, _ => true
    | some allowed, some ns => allowed.contains ns
    | some _, none => false

/-- Why a registration was refused. -/
inductive RegistryError where
  | emptyGroup
  | noTopics (group : String)
  | emptyTopic (group : String)
  | reservedName (name : String)
  deriving DecidableEq

/-- The words for a refusal. -/
def RegistryError.message : RegistryError → String
  | .emptyGroup => "group id must not be empty"
  | .noTopics group => "listener for group '" ++ group ++ "' has no topics"
  | .emptyTopic group => "listener for group '" ++ group ++ "' has an empty topic name"
  | .reservedName name => "'" ++ name ++ "' is reserved for retry and dead-letter traffic"

/-- A listener registered under a group. -/
structure Registration (η : Type) where
  group : String
  listener : Listener η

/-- The accepted registrations, in their order. -/
structure Registry (η : Type) where
  /-- The names that registrations may not use. -/
  reserved : Option FailureTopics
  accepted : List (Registration η)

namespace Registry

/-- A registry without registrations. -/
def empty : Registry η := ⟨none, []⟩

/-- A registry without registrations that refuses the names of a retry path. -/
def reserving (f : FailureTopics) : Registry η := ⟨some f, []⟩

/-- Why a registration would be refused, if it would be. -/
def refusal? (r : Registry η) (group : String) (topics : List String) : Option RegistryError :=
  if group = "" then some .emptyGroup
  else if topics = [] then some (.noTopics group)
  else if topics.contains "" then some (.emptyTopic group)
  else
    (r.reserved.bind fun f => f.collision? group (Names.ofList topics)).map RegistryError.reservedName

/-- The set of namespaces that a list names; an empty list names none in particular. -/
def namespaceSet (namespaces : Option (List String)) : Option (List String) :=
  match namespaces.map Names.ofList with
  | some [] => none
  | set => set

/-- Adds a registration, unless it is refused. -/
def register (r : Registry η) (group : String) (topics : List String)
    (namespaces : Option (List String)) (handler : η) : Except RegistryError (Registry η) :=
  match r.refusal? group topics with
  | some e => .error e
  | none =>
    let listener := ⟨Names.ofList topics, namespaceSet namespaces, handler⟩
    .ok { r with accepted := r.accepted ++ [⟨group, listener⟩] }

/-- The registered groups, in increasing order. -/
def groups (r : Registry η) : List String := Names.ofList (r.accepted.map Registration.group)

/-- The listeners of a group, in the order of their registration. -/
def listeners (r : Registry η) (group : String) : List (Listener η) :=
  (r.accepted.filter fun a => a.group == group).map Registration.listener

/-- All topics that the listeners of a group take, in increasing order. -/
def topicsFor (r : Registry η) (group : String) : List String :=
  Names.ofList ((r.listeners group).flatMap Listener.topics)

/-- The listeners of a group that take an event of a topic and a namespace. -/
def matching (r : Registry η) (group topic : String) (ns : Option String) : List (Listener η) :=
  (r.listeners group).filter fun l => l.takes topic ns

/-- The first group or topic that is a name of a retry path. -/
def reservedCollision? (r : Registry η) (f : FailureTopics) : Option String :=
  r.groups.findSome? fun group =>
    f.collision? group ((r.listeners group).flatMap Listener.topics)

/-- The number of groups. -/
def size (r : Registry η) : Nat := r.groups.length

/-- The registry with another handler in place of each. -/
def map (f : η → θ) (r : Registry η) : Registry θ :=
  { reserved := r.reserved
    accepted := r.accepted.map fun a =>
      ⟨a.group, ⟨a.listener.topics, a.listener.namespaces, f a.listener.handler⟩⟩ }

end Registry

/-- The quoted names of a set between braces. -/
def describeNames (names : List String) : String :=
  "\x7b" ++ ", ".intercalate (names.map Text.quoted) ++ "\x7d"

/-- A listener in readable form, its handler shown by name. -/
def Listener.describe (l : Listener η) (name : η → String) : String :=
  let namespaces :=
    match l.namespaces with
    | none => "None"
    | some names => "Some(" ++ describeNames names ++ ")"
  "ListenerItem \x7b topics: " ++ describeNames l.topics ++ ", namespaces: " ++ namespaces ++
    ", handler: " ++ Text.quoted (name l.handler) ++ " \x7d"

end EventPipeline
