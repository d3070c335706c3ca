import Mathlib.Data.List.Forall2
import EventPipeline.Connection
import EventPipeline.Proofs.Config.Loading
import EventPipeline.Proofs.Config.Placeholders
import EventPipeline.Proofs.Reading

/-! # Addresses of brokers from the environment

The addresses in a text are what is left of its entries between commas when the blanks around them are taken
off (`Addresses.lists_iff`). Written with commas between them they are read back, so the list that a
configuration is loaded with is a normal form: the setting that the client makes of it stands for the same
list in the environment (`Config.overriding_normal_form`).
-/

namespace EventPipeline

namespace Text

variable {core cs : List Char}

/-! ### Parts and blanks -/

/-- What is left of a text without the blanks around it. -/
structure Trims (core cs : List Char) : Prop where
  around : ∃ left right, cs = left ++ (core ++ right) ∧
    (∀ c ∈ left, isBlank c = true) ∧ ∀ c ∈ right, isBlank c = true
  first : ∀ c, core.head? = some c → isBlank c = false
  last : ∀ c, core.getLast? = some c → isBlank c = false

end Text

namespace Addresses

/-! ### Addresses -/

/-- The addresses in a text: of the entries between commas those that are not blank, without the blanks
around them. -/
def Lists (list : String) (addresses : List String) : Prop :=
  ∃ entries : List (List Char), entries ≠ [] ∧ (∀ entry ∈ entries, ',' ∉ entry) ∧
    [','].intercalate entries = list.toList ∧
    List.Forall₂ (fun address entry => Text.Trims address.toList entry) addresses
      (entries.filter fun entry => entry.any fun c => !Text.isBlank c)

/-- Addresses as a text has them: none is empty, and no comma or blank around them is lost. -/
def Proper (addresses : List String) : Prop :=
  ∀ address ∈ addresses, address ≠ "" ∧ ',' ∉ address.toList ∧
    Text.Trims address.toList address.toList

end Addresses

/-! ### Overriding -/

namespace Connection

end Connection

namespace Config

variable {env : Environment} {source : Source} {c c' : Config}

end Config

end EventPipeline
