import EventPipeline.Envelope.Basic
import EventPipeline.Json.Shape

/-! # Reading envelopes

The members of an envelope are taken in the order of the text. A known member may occur once and is
read as the kind it has; any other is read as a document, and its last occurrence stays.
-/

namespace EventPipeline

/-- An envelope being read: the known members met so far and what they said. -/
structure Draft where
  met : List Field
  envelope : Envelope

namespace Draft

/-- Nothing read yet. -/
def empty : Draft := ⟨[], .blank⟩

/-- Reads the value of a known member. -/
def readField (e : Envelope) (field : Field) (bs : Octets) :
    Except Json.Error (Envelope × Octets) :=
  let string (set : String → Envelope) :=
    (Json.scalarAt "a string" Json.Value.asString bs).map fun (s, rest) => (set s, rest)
  let stringOrNull (set : Option String → Envelope) :=
    (Json.scalarAt "a string" (Json.Value.orNull Json.Value.asString) bs).map
      fun (s, rest) => (set s, rest)
  match field with
  | .ts =>
    (Json.scalarAt "i64" Json.Value.asInt64 bs).map
      fun (n, rest) => ({ e with ts := Int64.ofInt n }, rest)
  | .trace => stringOrNull fun s => { e with trace := s }
  | .app => string fun s => { e with app := s }
  | .ns => stringOrNull fun s => { e with ns := s }
  | .data => (Json.value (Json.maxDepth - 1) bs).map fun (v, rest) => ({ e with data := v }, rest)
  | .retries =>
    (Json.scalarAt "u32" (Json.Value.orNull Json.Value.asUInt32) bs).map
      fun (n, rest) => ({ e with retries := n.map fun n => UInt32.ofNat n.toNat }, rest)
  | .originTopic => stringOrNull fun s => { e with originTopic := s }
  | .originGroup => stringOrNull fun s => { e with originGroup := s }

/-- Takes one member, given its key and the octets from its colon on. -/
def member (draft : Draft) (key : String) (bs : Octets) : Except Json.Error (Draft × Octets) :=
  match Field.ofKey? key with
  | some field =>
    if field ∈ draft.met then .error (.mismatch (.repeatedField field.key))
    else do
      let bs ← Json.colon bs
      let (e, bs) ← readField draft.envelope field bs
      pure (⟨field :: draft.met, e⟩, bs)
  | none => do
    let bs ← Json.colon bs
    let (v, bs) ← Json.value (Json.maxDepth - 1) bs
    let e := draft.envelope
    pure (⟨draft.met, { e with extra := Json.insertMember key v e.extra }⟩, bs)

end Draft

/-- The envelope that a payload holds. -/
def Envelope.read (bs : Octets) : Except Json.Error Envelope :=
  match Json.skipGap bs with
  | [] => .error (.unfinished .value)
  | b :: rest =>
    if b = Json.octet '\x7b' then
      (Json.complete (Json.foldMembers Draft.member (rest.length + 1) true Draft.empty rest)).map
        Draft.envelope
    else .error (Json.refusalAt b rest "struct Envelope")

/-- The envelope that a text holds. -/
def Envelope.readText (s : String) : Except Json.Error Envelope := Envelope.read (octetsOf s)

end EventPipeline
