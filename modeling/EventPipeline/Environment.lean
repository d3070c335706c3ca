import EventPipeline.Table
import EventPipeline.Text.Octets
import EventPipeline.Text.Parts

/-! # Environments

The variables that a program is started with. A variable holds octets; it counts as a text only when
they are UTF-8.
-/

namespace EventPipeline

/-- Variables and what they hold. -/
abbrev Environment := Table String Octets

namespace Environment

/-- The text that a variable holds. -/
def text? (env : Environment) (name : String) : Option String := (env.get? name).bind textOf?

/-- What the entries `NAME=value` of an environment have after a name and an equals sign. This is what
the variable holds, unless the name has an equals sign in it. No variable has an empty name. -/
def after? (env : Environment) (name : String) : Option Octets :=
  if name = "" then none
  else
    env.findSome? fun (other, value) =>
      (octetsOf name ++ [0x3D]).isPrefixOf? (octetsOf other ++ 0x3D :: value)

/-- Binds a variable, unless it holds a text already. -/
def setDefault (env : Environment) (name value : String) : Environment :=
  match env.text? name with
  | some _ => env
  | none => env.set name (octetsOf value)

/-- The variable in an octet sequence with an equals sign after its name. -/
def ofEntry? (entry : Octets) : Option (String × Octets) :=
  match entry.dropWhile (· ≠ 0x3D) with
  | _ :: value => (textOf? (entry.takeWhile (· ≠ 0x3D))).map fun name => (name, value)
  | [] => none

/-- The environment that is given as entries with a zero octet after each. -/
def ofBlock (block : Octets) : Environment := (Text.parts 0 block).filterMap ofEntry?

end Environment

end EventPipeline
