import EventPipeline.Text.Parts
import EventPipeline.Text.Quoted

/-! # Log filters

A log filter is a list of directives with commas between them, each a target, a level, or a target
and its level with an equals sign between them; a target may end with a list of fields. A variable of
the environment may hold one. A filter that cannot be read is ignored, which is told before anything
else.
-/

namespace EventPipeline.LogFilter

/-- The variable that holds the filter. -/
def variableName : String := "RUST_LOG"

/-- Why a filter cannot be read. -/
inductive Fault where
  | manyLevels
  | manyFieldLists
  | unclosedFieldList
  | unknownLevel
  deriving DecidableEq

/-- The words for a filter that cannot be read. -/
def Fault.message : Fault → String
  | .manyLevels =>
    "invalid filter directive: too many '=' in filter directive, expected 0 or 1"
  | .manyFieldLists =>
    "invalid filter directive: too many '[\x7b' in filter directive, expected 0 or 1"
  | .unclosedFieldList =>
    "invalid filter directive: expected fields list to end with '\x7d]'"
  | .unknownLevel =>
    "error parsing level filter: expected one of \"off\", \"error\", \"warn\", \"info\", " ++
      "\"debug\", \"trace\", or a number 0-5"

/-- The number of a level, with or without a plus sign. -/
def levelNumber? (cs : List Char) : Option Nat :=
  let digits := if cs.head? = some '+' then cs.tail else cs
  if digits.isEmpty || !digits.all Char.isDigit then none else some (Nat.ofDigitChars 10 digits 0)

/-- Whether characters are a level: its name in letters of any case, its number, or nothing. -/
def isLevel (cs : List Char) : Bool :=
  (levelNumber? cs).any (· ≤ 5) ||
    ["", "error", "warn", "info", "debug", "trace", "off"].contains
      (String.ofList (cs.map Char.toLower))

/-- The characters after the beginning of a list of fields. -/
def fields? : List Char → Option (List Char)
  | '[' :: '\x7b' :: rest => some rest
  | _ :: rest => fields? rest
  | [] => none

/-- The fault of a target. -/
def targetFault? (cs : List Char) : Option Fault :=
  match fields? cs with
  | none => none
  | some fields =>
    if (fields? fields).isSome then some .manyFieldLists
    else if ['\x7d', ']'].isSuffixOf fields then none
    else some .unclosedFieldList

/-- The fault of a directive. -/
def directiveFault? (cs : List Char) : Option Fault :=
  match Text.parts '=' cs with
  | [target, level] =>
    (targetFault? target).or (if isLevel level then none else some .unknownLevel)
  | _ :: _ :: _ :: _ => some .manyLevels
  | _ => none

/-- The first fault of a filter. -/
def fault? (filter : String) : Option Fault :=
  (Text.parts ',' filter.toList).findSome? directiveFault?

/-- What is told of the filter that a variable holds, if it cannot be read. -/
def complaint? (value : Octets) : Option String :=
  match textOf? value with
  | none =>
    some ("Ignoring `RUST_LOG`: environment variable was not valid unicode: " ++
      Text.quotedOctets value)
  | some filter =>
    (fault? filter).map fun f => "Ignoring `RUST_LOG=" ++ Text.quoted filter ++ "`: " ++ f.message

end EventPipeline.LogFilter
