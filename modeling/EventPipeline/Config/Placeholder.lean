import EventPipeline.Environment

/-! # Placeholders

A placeholder is a dollar sign and a variable's name between braces. A text splits in exactly one
way into placeholders and single characters (`flatMap_source_pieces` puts it together again), and
`substitute` puts a variable's text in the place of each placeholder whose variable has one. What is
put in is not looked at again.
-/

namespace EventPipeline.Placeholder

/-- Whether a variable's name may start with a character. -/
def isNameStart (c : Char) : Bool := c.isAlpha || c == '_'

/-- Whether a variable's name may go on with a character. -/
def isNamePart (c : Char) : Bool := c.isAlphanum || c == '_'

/-- The name in the placeholder that a text starts with, and the text after that. -/
def first? : List Char → Option (List Char × List Char)
  | '$' :: '\x7b' :: c :: rest =>
    if isNameStart c then
      match rest.dropWhile isNamePart with
      | '\x7d' :: after => some (c :: rest.takeWhile isNamePart, after)
      | _ => none
    else none
  | _ => none

/-- The spelling of a placeholder. -/
def spelling (name : List Char) : List Char := '$' :: '\x7b' :: name ++ ['\x7d']

theorem eq_append_of_first? {cs name after : List Char} (h : first? cs = some (name, after)) :
    cs = spelling name ++ after := by
  unfold first? at h
  split at h
  · rename_i c rest
    split at h
    · split at h
      · rename_i tail ends
        obtain ⟨rfl, rfl⟩ : c :: rest.takeWhile isNamePart = name ∧ tail = after := by simpa using h
        have whole : rest = rest.takeWhile isNamePart ++ '\x7d' :: tail := by
          rw [← ends, List.takeWhile_append_dropWhile]
        rw [spelling]
        simpa using whole
      · simp at h
    · simp at h
  · simp at h

theorem length_lt_of_first? {cs name after : List Char} (h : first? cs = some (name, after)) :
    after.length < cs.length := by
  rw [eq_append_of_first? h]
  simp [spelling]
  omega

/-- A part of a text. -/
inductive Piece where
  | plain (c : Char)
  | placeholder (name : List Char)
  deriving DecidableEq

/-- The spelling of a piece. -/
def Piece.source : Piece → List Char
  | .plain c => [c]
  | .placeholder name => spelling name

/-- The pieces of a text. -/
def pieces (cs : List Char) : List Piece :=
  match found : first? cs with
  | some (name, after) =>
    have := length_lt_of_first? found
    .placeholder name :: pieces after
  | none =>
    match cs with
    | [] => []
    | c :: rest => .plain c :: pieces rest
termination_by cs.length

theorem flatMap_source_pieces (cs : List Char) : (pieces cs).flatMap Piece.source = cs := by
  fun_induction pieces cs with
  | case1 cs name after starts _ ih =>
    rw [List.flatMap_cons, ih, eq_append_of_first? starts]
    rfl
  | case2 => rfl
  | case3 _ c rest ih => rw [List.flatMap_cons, ih]; rfl

/-- What stands for a piece in an environment. -/
def Piece.fill (env : Environment) : Piece → List Char
  | .plain c => [c]
  | .placeholder name =>
    match env.text? (String.ofList name) with
    | some value => value.toList
    | none => spelling name

/-- The name in a placeholder that is kept. -/
def Piece.unset? (env : Environment) : Piece → Option String
  | .plain _ => none
  | .placeholder name =>
    match env.text? (String.ofList name) with
    | some _ => none
    | none => some (String.ofList name)

/-- The text with each placeholder replaced whose variable has a text. -/
def substitute (env : Environment) (cs : List Char) : List Char :=
  (pieces cs).flatMap (Piece.fill env)

/-- The names in the placeholders that `substitute` keeps, in the order of the text. -/
def unset (env : Environment) (cs : List Char) : List String :=
  (pieces cs).filterMap (Piece.unset? env)

/-- Whether a text has the opening of a placeholder in it. -/
def opens : List Char → Bool
  | '$' :: '\x7b' :: _ => true
  | _ :: rest => opens rest
  | [] => false

end EventPipeline.Placeholder
