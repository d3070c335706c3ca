import EventPipeline.Text.Blank
import EventPipeline.Text.Parts

/-! # Lists of addresses

A list of addresses is written with commas between them. Blanks around an address do not belong to
it, and what is blank is no address.
-/

namespace EventPipeline.Addresses

/-- The addresses in a list. -/
def ofText (list : String) : List String :=
  (((Text.parts ',' list.toList).map Text.trimChars).filter fun part => !part.isEmpty).map String.ofList

/-- The list of addresses. -/
def toText (addresses : List String) : String := ",".intercalate addresses

end EventPipeline.Addresses
