import EventPipeline.Environment
import EventPipeline.Text.Alphanumeric
import EventPipeline.Text.Blank

/-! # Files of variables

A file of variables has one entry on a line, a name, an equals sign and a value; a quoted value may
go over several lines. A value may hold the values of variables, of the environment or of entries
above it. The entries are added to an environment in their order, up to the first that is malformed
or on a line that is no text, and change no variable that has a text already.
-/

namespace EventPipeline.VariableFile

/-! ### Lines -/

/-- Where in an entry the end of a line has been met. -/
inductive Place where
  /-- Outside of quotes. -/
  | outside
  /-- Outside of quotes, right after a blank. -/
  | blank
  /-- Right after a backslash outside of quotes. -/
  | escape
  /-- Inside quotes with a given mark. -/
  | quoted (mark : Char)
  /-- Right after a backslash inside quotes. -/
  | quotedEscape (mark : Char)
  deriving DecidableEq

/-- The place after one more character, or none where a comment begins. -/
def Place.next? (place : Place) (c : Char) : Option Place :=
  let opening (otherwise : Place) : Place :=
    if c = '\\' then .escape else if c = '"' ∨ c = '\'' then .quoted c else otherwise
  match place with
  | .outside =>
    some (opening (if Text.isBlank c ∧ c ≠ '\n' ∧ c ≠ '\r' then .blank else .outside))
  | .blank => if c = '#' then none else some (opening .outside)
  | .escape => some .outside
  | .quoted mark =>
    some (if c = '\\' then .quotedEscape mark else if c = mark then .outside else .quoted mark)
  | .quotedEscape mark => some (.quoted mark)

/-- The characters of a line before its comment, and the place at its end if it has none. -/
def upToComment : Place → List Char → List Char × Option Place
  | place, [] => ([], some place)
  | place, c :: cs =>
    match place.next? c with
    | none => ([], none)
    | some place =>
      let (kept, place) := upToComment place cs
      (c :: kept, place)

/-- The lines of an octet sequence, each with the break that ends it. -/
def lines : Octets → List Octets
  | [] => []
  | b :: bs =>
    if b = 0x0A then [b] :: lines bs
    else
      match lines bs with
      | [] => [[b]]
      | line :: others => (b :: line) :: others

/-- The lines before the first that is no text. -/
def textLines : List Octets → List (List Char)
  | [] => []
  | line :: others =>
    match textOf? line with
    | some text => text.toList :: textLines others
    | none => []

/-- A line without the break that ends it. -/
def withoutBreak (line : List Char) : List Char :=
  match line.reverse with
  | '\n' :: '\r' :: rest => rest.reverse
  | '\n' :: rest => rest.reverse
  | _ => line

/-- The entries on the given lines, of which `begun` is the part of one already met; an entry that
does not end is none. -/
def entries : (begun : List Char) → Place → List (List Char) → List (Option (List Char))
  | _, place, [] => if place = .outside then [] else [none]
  | begun, place, line :: others =>
    let whole := begun ++ line
    if (whole.dropWhile Text.isBlank).head? = some '#' then
      some [] :: entries [] .outside others
    else
      match upToComment place line with
      | (kept, none) => some (begun ++ kept) :: entries [] .outside others
      | (_, some .outside) => some (withoutBreak whole) :: entries [] .outside others
      | (_, some place) => entries whole place others

/-! ### Values -/

/-- How the next character of a value is to be taken. -/
inductive Mode where
  /-- As it is, inside double quotes or outside of quotes. -/
  | text (quoted : Bool)
  /-- As it is, between apostrophes. -/
  | verbatim
  /-- As escaped by a backslash. -/
  | escaped (quoted : Bool)
  /-- As part of a variable's name. -/
  | name (quoted : Bool) (soFar : List Char)
  /-- As part of a variable's name between braces. -/
  | braced (quoted : Bool) (soFar : List Char)
  /-- As coming after the value. -/
  | ended
  deriving DecidableEq

/-- Takes one character: how the next is to be taken, and what the value gains. -/
def Mode.next? (value : List Char → List Char) (mode : Mode) (c : Char) :
    Option (Mode × List Char) :=
  match mode with
  | .text quoted =>
    if c = '$' then some (.name quoted [], [])
    else if c = '\\' then some (.escaped quoted, [])
    else if c = '"' then some (.text !quoted, [])
    else if quoted then some (.text true, [c])
    else if c = '\'' then some (.verbatim, [])
    else if c = ' ' ∨ c = '\t' then some (.ended, [])
    else some (.text false, [c])
  | .verbatim => some (if c = '\'' then (.text false, []) else (.verbatim, [c]))
  | .escaped quoted =>
    if c = 'n' then some (.text quoted, ['\n'])
    else if c ∈ ['\\', '\'', '"', '$', ' '] then some (.text quoted, [c])
    else none
  | .name quoted soFar =>
    if Text.isAlphanumeric c then some (.name quoted (soFar ++ [c]), [])
    else if c = '\x7b' ∧ soFar = [] then some (.braced quoted [], [])
    else if c = '$' then some (.name quoted [], value soFar)
    else some (.text quoted, value soFar ++ [c])
  | .braced quoted soFar =>
    if c = '\x7d' then some (.text quoted, value soFar) else some (.braced quoted (soFar ++ [c]), [])
  | .ended => if c = ' ' ∨ c = '\t' then some (.ended, []) else none

/-- What a value still gains at its end, unless it is not complete there. -/
def Mode.finish? (value : List Char → List Char) : Mode → Option (List Char)
  | .text false | .escaped false | .ended => some []
  | .name false soFar => some (value soFar)
  | _ => none

/-- The value that is written with the given characters. -/
def value? (value : List Char → List Char) : Mode → List Char → Option (List Char)
  | mode, [] => mode.finish? value
  | mode, c :: cs =>
    if mode = .ended ∧ c = '#' then some []
    else do
      let (mode, gained) ← mode.next? value c
      let others ← value? value mode cs
      pure (gained ++ others)

/-! ### Entries -/

/-- Whether a name may start with a character. -/
def isNameStart (c : Char) : Bool := c.isAlpha || c == '_'

/-- Whether a name may go on with a character. -/
def isNamePart (c : Char) : Bool := c.isAlphanum || c == '_' || c == '.'

/-- The characters after blanks. -/
def skipBlanks (cs : List Char) : List Char := cs.dropWhile Text.isBlank

/-- A name, and the characters after the blanks after it. -/
def name? (cs : List Char) : Option (String × List Char) :=
  if cs.head?.any isNameStart then
    some (String.ofList (cs.takeWhile isNamePart), skipBlanks (cs.dropWhile isNamePart))
  else none

/-- The characters after an equals sign. -/
def equals? : List Char → Option (List Char)
  | '=' :: rest => some rest
  | _ => none

/-- The name of an entry, and the characters after the equals sign; before the name there may be the
word `export`. -/
def assigned? (cs : List Char) : Option (String × List Char) := do
  let (name, rest) ← name? cs
  match equals? rest with
  | some rest => pure (name, rest)
  | none =>
    if name = "export" then
      let (name, rest) ← name? rest
      let rest ← equals? rest
      pure (name, rest)
    else none

/-- What has been read so far. -/
structure Progress where
  env : Environment
  /-- The values of the entries. -/
  known : Table String String

/-- The text that a variable stands for in a value. -/
def Progress.value (p : Progress) (name : List Char) : List Char :=
  let name := String.ofList name
  ((((p.env.after? name).bind textOf?).or (p.known.get? name)).getD "").toList

/-- Adds an entry, unless it is malformed. -/
def Progress.add? (p : Progress) (entry : List Char) : Option Progress :=
  let cs := Text.trimChars entry
  if cs = [] ∨ cs.head? = some '#' then some p
  else do
    let (name, rest) ← assigned? cs
    let rest := skipBlanks rest
    let value ← if rest.head? = some '#' then some [] else value? p.value (.text false) rest
    let text := String.ofList value
    pure ⟨p.env.setDefault name text, p.known.set name text⟩

/-- Adds entries up to the first that is malformed. -/
def addAll (p : Progress) : List (Option (List Char)) → Progress
  | some entry :: others =>
    match p.add? entry with
    | some p => addAll p others
    | none => p
  | none :: _ | [] => p

/-- The octets after a byte order mark, if one begins them. -/
def withoutMark : Octets → Octets
  | 0xEF :: 0xBB :: 0xBF :: bs => bs
  | bs => bs

/-- The environment with the variables of a file. -/
def load (content : Octets) (env : Environment) : Environment :=
  (addAll ⟨env, []⟩ (entries [] .outside (textLines (lines (withoutMark content))))).env

end EventPipeline.VariableFile
