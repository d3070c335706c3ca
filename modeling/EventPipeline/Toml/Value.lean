import EventPipeline.Number.Shortest

/-! # TOML values

What a TOML document is made of. A table remembers how it came to be, since that decides what may
still be added to it, and an array remembers whether further headers may add tables to it. Of a date
or a time only the fact is kept that there is one.
-/

namespace EventPipeline.Toml

/-- A floating-point number. -/
inductive Floating where
  | finite (x : Double)
  | infinite (negative : Bool)
  | nan
  deriving DecidableEq

/-- How a table came to be. -/
inductive Origin where
  /-- It was written between braces. -/
  | inline
  /-- A key with dots led through it. -/
  | dotted
  /-- The header of a table inside it led through it. -/
  | implied
  /-- It has a header of its own. -/
  | declared
  deriving DecidableEq

/-- A value of a document. -/
inductive Value where
  | string (s : String)
  | integer (n : Int)
  | float (x : Floating)
  | boolean (b : Bool)
  | moment
  | array (grows : Bool) (items : List Value)
  | table (origin : Origin) (members : List (String × Value))

/-- The members of a table, in the order in which they came to be. -/
abbrev Members := List (String × Value)

/-- How finite numbers are written: always positionally. -/
def numberStyle : DecimalStyle := ⟨-400, 400, false⟩

/-- The text of a floating-point number. -/
def Floating.text : Floating → String
  | .finite x => String.ofList (x.write numberStyle)
  | .infinite negative => if negative then "-inf" else "inf"
  | .nan => "NaN"

end EventPipeline.Toml
