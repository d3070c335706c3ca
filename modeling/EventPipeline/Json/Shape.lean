import EventPipeline.Json.Reader

/-! # Documents of a given shape

The `as…` functions take a document for a value of a given kind or say how it differs. `scalarAt`
reads such a value from a text; an array or object is refused at its bracket, before its inside is
read, so the first thing wrong in the text is still what is reported.
-/

namespace EventPipeline.Json

/-- The refusal of a document that is not of the kind asked for. -/
def Value.refusedAs (v : Value) (expected : String) : Mismatch := .wrongType v.found expected

/-- The document as an integer between two bounds. -/
def Value.asInteger (low high : Int) (expected : String) : Value → Except Mismatch Int
  | .number (.integer n) =>
    if low ≤ n.val ∧ n.val ≤ high then .ok n.val
    else .error (.wrongValue (.integer n.val) expected)
  | v => .error (v.refusedAs expected)

/-- The document as a signed 64-bit integer. -/
def Value.asInt64 (v : Value) : Except Mismatch Int :=
  v.asInteger (-0x8000_0000_0000_0000) 0x7FFF_FFFF_FFFF_FFFF "i64"

/-- The document as an unsigned 32-bit integer. -/
def Value.asUInt32 (v : Value) : Except Mismatch Int := v.asInteger 0 0xFFFF_FFFF "u32"

/-- The document as a string. -/
def Value.asString : Value → Except Mismatch String
  | .string s => .ok s
  | v => .error (v.refusedAs "a string")

/-- The document as a truth value. -/
def Value.asBoolean : Value → Except Mismatch Bool
  | .boolean b => .ok b
  | v => .error (v.refusedAs "a boolean")

/-- The document as an array. -/
def Value.asArray : Value → Except Mismatch (List Value)
  | .array items => .ok items
  | v => .error (v.refusedAs "a sequence")

/-- The document as an object. -/
def Value.asObject : Value → Except Mismatch (List (String × Value))
  | .object members => .ok members
  | v => .error (v.refusedAs "a map")

/-- The document as a value of some kind, or as none when it is null. -/
def Value.orNull (accept : Value → Except Mismatch α) : Value → Except Mismatch (Option α)
  | .null => .ok none
  | v => (accept v).map some

/-- The refusal of the document that starts with the octet `b`. -/
def refusalAt (b : UInt8) (rest : Octets) (expected : String) : Error :=
  if b = octet '[' then .mismatch (.wrongType .sequence expected)
  else if b = octet '\x7b' then .mismatch (.wrongType .map expected)
  else
    match scalar b rest with
    | .ok (v, _) => .mismatch (v.refusedAs expected)
    | .error e => e

/-- Reads a value that is neither array nor object. -/
def scalarAt (expected : String) (accept : Value → Except Mismatch α) (bs : Octets) :
    Except Error (α × Octets) :=
  match skipGap bs with
  | [] => .error (.unfinished .value)
  | b :: rest =>
    if b = octet '[' ∨ b = octet '\x7b' then .error (refusalAt b rest expected)
    else
      match scalar b rest with
      | .error e => .error e
      | .ok (v, rest) =>
        match accept v with
        | .ok a => .ok (a, rest)
        | .error m => .error (.mismatch m)

end EventPipeline.Json
