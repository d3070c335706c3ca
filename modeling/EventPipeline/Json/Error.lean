import EventPipeline.Json.Value
import EventPipeline.Number.Shortest
import EventPipeline.Text.Quoted

/-! # What can be wrong with a JSON text

A text can be cut short, it can break the grammar, or it can be a document of another shape than
the one asked for. `Error.message` words each cause.
-/

namespace EventPipeline.Json

/-- How floating-point numbers are written in JSON texts. -/
def numberStyle : DecimalStyle := ⟨-4, 16, true⟩

/-- The text of a floating-point number. -/
def doubleText (x : Double) : String := String.ofList (x.write numberStyle)

/-- What was being read when the text ended. -/
inductive Unfinished where
  | value | string | list | object
  deriving DecidableEq

/-- A breach of the JSON grammar. -/
inductive Fault where
  | expectedColon
  | expectedListCommaOrEnd
  | expectedObjectCommaOrEnd
  | expectedIdent
  | expectedValue
  | invalidEscape
  | invalidNumber
  | numberOutOfRange
  | invalidCodePoint
  | controlCharacter
  | keyNotString
  | loneSurrogate
  | unfinishedSurrogatePair
  | trailingComma
  | trailingCharacters
  | recursionLimit
  deriving DecidableEq

/-- The kind of document that was found where another was asked for. -/
inductive Found where
  | null
  | boolean (b : Bool)
  | integer (n : Int)
  | double (x : Double)
  | string (s : String)
  | sequence
  | map
  deriving DecidableEq

/-- A document that does not have the shape asked for. -/
inductive Mismatch where
  | wrongType (found : Found) (expected : String)
  | wrongValue (found : Found) (expected : String)
  | wrongLength (length : Nat) (expected : String)
  | missingField (name : String)
  | repeatedField (name : String)
  deriving DecidableEq

/-- What is wrong with a JSON text. -/
inductive Error where
  | unfinished (what : Unfinished)
  | malformed (fault : Fault)
  | mismatch (m : Mismatch)
  deriving DecidableEq

/-- The words for what a text ended in. -/
def Unfinished.message : Unfinished → String
  | .value => "EOF while parsing a value"
  | .string => "EOF while parsing a string"
  | .list => "EOF while parsing a list"
  | .object => "EOF while parsing an object"

/-- The words for a breach of the grammar. -/
def Fault.message : Fault → String
  | .expectedColon => "expected `:`"
  | .expectedListCommaOrEnd => "expected `,` or `]`"
  | .expectedObjectCommaOrEnd => "expected `,` or `\x7d`"
  | .expectedIdent => "expected ident"
  | .expectedValue => "expected value"
  | .invalidEscape => "invalid escape"
  | .invalidNumber => "invalid number"
  | .numberOutOfRange => "number out of range"
  | .invalidCodePoint => "invalid unicode code point"
  | .controlCharacter =>
    "control character (\\u0000-\\u001F) found while parsing a string"
  | .keyNotString => "key must be a string"
  | .loneSurrogate => "lone leading surrogate in hex escape"
  | .unfinishedSurrogatePair => "unexpected end of hex escape"
  | .trailingComma => "trailing comma"
  | .trailingCharacters => "trailing characters"
  | .recursionLimit => "recursion limit exceeded"

/-- The spelling of a truth value. -/
def booleanText (b : Bool) : String := if b then "true" else "false"

/-- The words for what was found. -/
def Found.message : Found → String
  | .null => "null"
  | .boolean b => "boolean `" ++ booleanText b ++ "`"
  | .integer n => "integer `" ++ toString n ++ "`"
  | .double x => "floating point `" ++ doubleText x ++ "`"
  | .string s => "string " ++ Text.quoted s
  | .sequence => "sequence"
  | .map => "map"

/-- The words for a document of the wrong shape. -/
def Mismatch.message : Mismatch → String
  | .wrongType found expected => "invalid type: " ++ found.message ++ ", expected " ++ expected
  | .wrongValue found expected => "invalid value: " ++ found.message ++ ", expected " ++ expected
  | .wrongLength length expected =>
    "invalid length " ++ toString length ++ ", expected " ++ expected
  | .missingField name => "missing field `" ++ name ++ "`"
  | .repeatedField name => "duplicate field `" ++ name ++ "`"

/-- The words for what is wrong with a text. -/
def Error.message : Error → String
  | .unfinished what => what.message
  | .malformed fault => fault.message
  | .mismatch m => m.message

/-- What a document is, when it is not what was asked for. -/
def Value.found : Value → Found
  | .null => .null
  | .boolean b => .boolean b
  | .number (.integer n) => .integer n.val
  | .number (.double x) => .double x
  | .string s => .string s
  | .array _ => .sequence
  | .object _ => .map

end EventPipeline.Json
