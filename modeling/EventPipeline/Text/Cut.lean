/-! # Texts that are cut

A text of a bounded length keeps the octets that fit. Where only a part of a character fits, the
replacement character stands for that part. `cutChars_of_fits` states that a text which fits is kept.
-/

namespace EventPipeline.Text

/-- The characters that fit into `limit` octets. -/
def cutChars (limit : Nat) : List Char → List Char
  | [] => []
  | c :: rest =>
    if c.utf8Size ≤ limit then c :: cutChars (limit - c.utf8Size) rest
    else if limit = 0 then []
    else ['\ufffd']

/-- The beginning of a text that fits into `limit` octets. -/
def cut (limit : Nat) (s : String) : String := String.ofList (cutChars limit s.toList)

theorem cutChars_of_fits (cs : List Char) (limit : Nat)
    (fits : cs.foldr (fun c size => c.utf8Size + size) 0 ≤ limit) : cutChars limit cs = cs := by
  induction cs generalizing limit with
  | nil => rfl
  | cons c rest ih =>
    rw [List.foldr_cons] at fits
    rw [cutChars, if_pos (by omega), ih _ (by omega)]

end EventPipeline.Text
