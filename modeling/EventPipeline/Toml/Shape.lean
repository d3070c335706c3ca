import EventPipeline.Text.Quoted
import EventPipeline.Toml.Value

/-! # Values of a given shape

A value can be taken for a text, a number and so on, or for a record: a structure whose fields are
the members of a table, in any order, or the items of an array, in the order of the record. What
fits no field is ignored. Of several faults the first in the order of the document is told, and a
field that is missing only when all that is there fits.
-/

namespace EventPipeline.Toml

/-- A value that does not have the shape asked for. -/
inductive Mismatch where
  | wrongType (found : Value) (expected : String)
  /-- A negative integer where a natural number is asked for. -/
  | negative (n : Int) (expected : String)
  /-- An array with too few items for a record. -/
  | tooShort (length : Nat) (expected : String)
  | missingField (name : String)

/-- The words for what was found. -/
def Value.described : Value → String
  | .string s => "string " ++ Text.quoted s
  | .integer n => "integer `" ++ toString n ++ "`"
  | .float x => "floating point `" ++ x.text ++ "`"
  | .boolean b => "boolean `" ++ (if b then "true" else "false") ++ "`"
  | .array .. => "sequence"
  | .moment | .table .. => "map"

/-- The words for a value of the wrong shape. -/
def Mismatch.message : Mismatch → String
  | .wrongType found expected => "invalid type: " ++ found.described ++ ", expected " ++ expected
  | .negative n expected => "invalid value: integer `" ++ toString n ++ "`, expected " ++ expected
  | .tooShort length expected =>
    "invalid length " ++ toString length ++ ", expected " ++ expected
  | .missingField name => "missing field `" ++ name ++ "`"

namespace Value

/-- The value as a text. -/
def asString : Value → Except Mismatch String
  | .string s => .ok s
  | v => .error (.wrongType v "a string")

/-- The value as a truth value. -/
def asBoolean : Value → Except Mismatch Bool
  | .boolean b => .ok b
  | v => .error (.wrongType v "a boolean")

/-- The value as a natural number. -/
def asNatural : Value → Except Mismatch Nat
  | .integer n => if 0 ≤ n then .ok n.toNat else .error (.negative n "u64")
  | v => .error (.wrongType v "u64")

/-- The value as a list, given how its items are taken. -/
def asList {α : Type} (take : Value → Except Mismatch α) : Value → Except Mismatch (List α)
  | .array _ items => items.mapM take
  | v => .error (.wrongType v "a sequence")

end Value

/-- A field of a record of type `ρ`. -/
structure Field (ρ : Type) where
  name : String
  /-- Whether the record needs the field. -/
  required : Bool
  /-- Puts a value into the record. -/
  put : Value → ρ → Except Mismatch ρ

namespace Field

variable {ρ α : Type}

/-- A field that may be missing. -/
def optional (name : String) (take : Value → Except Mismatch α) (set : α → ρ → ρ) : Field ρ :=
  ⟨name, false, fun v r => (take v).map fun a => set a r⟩

/-- A field that must be there. -/
def needed (name : String) (take : Value → Except Mismatch α) (set : α → ρ → ρ) : Field ρ :=
  ⟨name, true, fun v r => (take v).map fun a => set a r⟩

end Field

/-- Puts the members of a table into a record. -/
def takeMembers {ρ : Type} (fields : List (Field ρ)) (r : ρ) (ms : Members) : Except Mismatch ρ := do
  let r ← ms.foldlM (fun r m =>
    match fields.find? fun f => f.name = m.1 with
    | some f => f.put m.2 r
    | none => .ok r) r
  match fields.find? fun f => f.required && !(ms.any fun m => m.1 = f.name) with
  | some f => .error (.missingField f.name)
  | none => .ok r

/-- Puts the items of an array into a record; `index` counts the fields before. -/
def takeItems {ρ : Type} (expected : String) :
    (index : Nat) → List (Field ρ) → ρ → List Value → Except Mismatch ρ
  | _, [], r, _ => .ok r
  | index, f :: fields, r, v :: items => do
    let r ← f.put v r
    takeItems expected (index + 1) fields r items
  | index, f :: fields, r, [] =>
    if f.required then .error (.tooShort index expected)
    else takeItems expected (index + 1) fields r []

/-- The value as the record `blank` with the fields filled in that it names. -/
def Value.asRecord {ρ : Type} (name : String) (fields : List (Field ρ)) (blank : ρ) :
    Value → Except Mismatch ρ
  | .table _ ms => takeMembers fields blank ms
  | .moment => takeMembers fields blank []
  | .array _ items =>
    let count := toString fields.length ++ (if fields.length = 1 then " element" else " elements")
    takeItems ("struct " ++ name ++ " with " ++ count) 0 fields blank items
  | v => .error (.wrongType v ("struct " ++ name))

end EventPipeline.Toml
