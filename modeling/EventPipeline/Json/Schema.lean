import EventPipeline.Json.Shape

/-! # Schemas of event data

A `Schema` is the shape that a handler expects of an event's data. `Schema.accept` takes a document
to the value that the handler sees, with absent members filled in, or says what does not fit. A
record may be written as an object, whose other members are ignored, or as an array of its members
in their order.
-/

namespace EventPipeline.Json

/-- The shape of a document. A record's member has a key, a schema and perhaps a default. -/
inductive Schema where
  | integer (low high : Int) (name : String)
  | boolean
  | text
  | unit
  | optional (s : Schema)
  | list (s : Schema)
  | map (s : Schema)
  | record (name : String) (fields : List (String × Schema × Option Value))

namespace Schema

/-- How one member of a record is taken. -/
structure Slot where
  key : String
  take : Value → Except Mismatch Value
  /-- The value of a member that is absent from an array. -/
  default? : Option Value
  /-- The value of a member that is absent from an object. -/
  absent? : Option Value

/-- The values of the members of an object that a record knows, in the order of the object. -/
def takeMembers (slots : List Slot) :
    List (String × Value) → Except Mismatch (List (String × Value))
  | [] => .ok []
  | (k, v) :: rest => do
    match slots.find? fun slot => slot.key == k with
    | none => takeMembers slots rest
    | some slot =>
      let taken ← slot.take v
      let others ← takeMembers slots rest
      pure ((k, taken) :: others)

/-- Fills in the members that an object lacks, in the order of the record. -/
def fillMembers (taken : List (String × Value)) :
    List Slot → Except Mismatch (List (String × Value))
  | [] => .ok []
  | slot :: rest => do
    let v ←
      match taken.lookup slot.key, slot.absent? with
      | some v, _ => .ok v
      | none, some v => .ok v
      | none, none => .error (.missingField slot.key)
    let others ← fillMembers taken rest
    pure ((slot.key, v) :: others)

/-- The members of a record written as an array; `index` counts those already taken. -/
def takeItems (expected : String) :
    (index : Nat) → List Slot → List Value → Except Mismatch (List (String × Value))
  | _, [], _ => .ok []
  | index, slot :: rest, v :: vs => do
    let taken ← slot.take v
    let others ← takeItems expected (index + 1) rest vs
    pure ((slot.key, taken) :: others)
  | index, slot :: rest, [] =>
    match slot.default? with
    | none => .error (.wrongLength index expected)
    | some v => do
      let others ← takeItems expected (index + 1) rest []
      pure ((slot.key, v) :: others)

/-- Takes a record of the given name. -/
def takeRecord (name : String) (slots : List Slot) (v : Value) : Except Mismatch Value :=
  match v with
  | .object members => do
    let taken ← takeMembers slots members
    let filled ← fillMembers taken slots
    pure (.ofMembers filled)
  | .array items => do
    let count := toString slots.length ++ if slots.length = 1 then " element" else " elements"
    let taken ← takeItems ("struct " ++ name ++ " with " ++ count) 0 slots items
    if items.length ≤ slots.length then pure (.ofMembers taken)
    else .error (.wrongLength items.length "fewer elements in array")
  | v => .error (v.refusedAs ("struct " ++ name))

/-- Takes each value of a list. -/
def takeEach (take : Value → Except Mismatch Value) : List Value → Except Mismatch (List Value)
  | [] => .ok []
  | v :: vs => do
    let taken ← take v
    let others ← takeEach take vs
    pure (taken :: others)

/-- The value of an absent member: null when the schema allows it. -/
def absent? : Schema → Option Value
  | .optional _ => some .null
  | _ => none

mutual

/-- The value that a handler with this schema sees. -/
def accept : Schema → Value → Except Mismatch Value
  | .integer low high name, v => do
    let _ ← v.asInteger low high name
    pure v
  | .boolean, v => v.asBoolean.map Value.boolean
  | .text, v => v.asString.map Value.string
  | .unit, .null => .ok .null
  | .unit, v => .error (v.refusedAs "unit")
  | .optional _, .null => .ok .null
  | .optional s, v => accept s v
  | .list s, v => do
    let items ← v.asArray
    let taken ← takeEach (accept s) items
    pure (.array taken)
  | .map s, v => do
    let members ← v.asObject
    let taken ← takeEach (accept s) (members.map Prod.snd)
    pure (.object ((members.map Prod.fst).zip taken))
  | .record name fields, v => takeRecord name (slots fields) v

/-- How the members of a record are taken. -/
def slots : List (String × Schema × Option Value) → List Slot
  | [] => []
  | (key, s, default?) :: rest =>
    ⟨key, accept s, default?, default?.or s.absent?⟩ :: slots rest

end

end Schema

end EventPipeline.Json
