import EventPipeline.Toml.Members
import EventPipeline.Toml.Number

/-! # Reading TOML documents

A document is a list of statements, one on each line at most: headers, and keys with their values.
`statements?` reads them, and `build?` puts the table together that they describe. Arrays and tables
between braces nest at most `maxDepth` deep; the depth still allowed is what the recursion descends
on.
-/

namespace EventPipeline.Toml

/-! ### Values -/

/-- The items of an array and its closing bracket; `fuel` bounds their number. -/
def items? (value? : List Char → Option (Value × List Char)) :
    (fuel : Nat) → List Char → Option (List Value × List Char)
  | 0, _ => none
  | fuel + 1, cs =>
    match skipFiller false cs with
    | ']' :: rest => some ([], rest)
    | cs => do
      let (v, cs) ← value? cs
      match skipFiller false cs with
      | ',' :: rest =>
        let (vs, rest) ← items? value? fuel rest
        pure (v :: vs, rest)
      | ']' :: rest => pure ([v], rest)
      | _ => none

/-- A key with its value, blanks around them allowed. -/
def assignment? (value? : List Char → Option (Value × List Char)) (cs : List Char) :
    Option ((List String × String × Value) × List Char) := do
  let ((path, key), cs) ← path? cs
  let cs ← after? '=' cs
  let (v, cs) ← value? (skipBlanks cs)
  pure ((path, key, v), cs)

/-- The members of a table between braces and its closing brace, added to those before them; `fuel`
bounds their number. -/
def inlineMembers? (value? : List Char → Option (Value × List Char)) :
    (fuel : Nat) → Members → List Char → Option (Members × List Char)
  | 0, _, _ => none
  | fuel + 1, ms, cs => do
    let ((path, key, v), cs) ← assignment? value? cs
    let ms ← Members.assign v key path ms
    match skipBlanks cs with
    | ',' :: rest => inlineMembers? value? fuel ms rest
    | '\x7d' :: rest => pure (ms, rest)
    | _ => none

/-- The words for the truth values and the numbers without digits. -/
def word? : List Char → Option (Value × List Char)
  | 't' :: 'r' :: 'u' :: 'e' :: rest => some (.boolean true, rest)
  | 'f' :: 'a' :: 'l' :: 's' :: 'e' :: rest => some (.boolean false, rest)
  | cs => special? cs

/-- A value that is neither array nor table, given its first character. -/
def scalar? (c : Char) (rest : List Char) : Option (Value × List Char) :=
  match Quoting.ofMark? c with
  | some q => (content? q rest).map fun (content, rest) => (.string (String.ofList content), rest)
  | none =>
    if isDigit c ∨ c = '+' ∨ c = '-' then number? (c :: rest) else word? (c :: rest)

/-- A value whose arrays and tables nest at most `depth` deep. -/
def value? (depth : Nat) (cs : List Char) : Option (Value × List Char) :=
  match cs with
  | [] => none
  | c :: rest =>
    if c = '[' then
      match depth with
      | 0 => none
      | depth + 1 =>
        (items? (value? depth) (rest.length + 1) rest).map
          fun (items, rest) => (.array false items, rest)
    else if c = '\x7b' then
      match depth with
      | 0 => none
      | depth + 1 =>
        match skipBlanks rest with
        | '\x7d' :: rest => some (.table .inline [], rest)
        | _ =>
          (inlineMembers? (value? depth) (rest.length + 1) [] rest).map
            fun (ms, rest) => (.table .inline ms, rest)
    else scalar? c rest

/-! ### Statements -/

/-- A statement of a document. -/
inductive Statement where
  /-- A key, to which the keys of `path` lead, has a value. -/
  | assign (path : List String) (key : String) (v : Value)
  /-- What follows belongs to this table. -/
  | table (path : List String) (key : String)
  /-- What follows belongs to a new table in this array of tables. -/
  | item (path : List String) (key : String)

/-- A statement, up to the end of its line. -/
def statement? (cs : List Char) : Option (Statement × List Char) :=
  match cs with
  | '[' :: '[' :: cs => do
    let ((path, key), cs) ← path? cs
    let cs ← after? ']' cs
    let cs ← after? ']' cs
    pure (.item path key, cs)
  | '[' :: cs => do
    let ((path, key), cs) ← path? cs
    let cs ← after? ']' cs
    pure (.table path key, cs)
  | cs => do
    let ((path, key, v), cs) ← assignment? (value? maxDepth) cs
    pure (.assign path key v, cs)

/-- The statements of a text; `fuel` bounds the number of its lines. -/
def statements? : (fuel : Nat) → List Char → Option (List Statement)
  | 0, _ => none
  | fuel + 1, cs =>
    match skipBlanks cs with
    | [] => some []
    | c :: rest =>
      if c = '#' ∨ c = '\n' ∨ c = '\r' then (lineEnd? (c :: rest)).bind (statements? fuel)
      else do
        let (s, rest) ← statement? (c :: rest)
        let rest ← lineEnd? rest
        let others ← statements? fuel rest
        pure (s :: others)

/-! ### Documents -/

/-- A document being put together. -/
structure Building where
  root : Members
  /-- The keys that lead to the table of the last header. -/
  current : List String

/-- The document with one more statement. -/
def Building.add? (b : Building) : Statement → Option Building
  | .assign path key v =>
    (Members.within (Members.assign v key path) b.current b.root).map fun root =>
      { b with root }
  | .table path key =>
    (Members.within (Members.declare key) path b.root).map fun root => ⟨root, path ++ [key]⟩
  | .item path key =>
    (Members.within (Members.extend key) path b.root).map fun root => ⟨root, path ++ [key]⟩

/-- The table that statements describe. -/
def build? (statements : List Statement) : Option Members :=
  (statements.foldlM Building.add? ⟨[], []⟩).map Building.root

/-- The table that a text describes, if it is a document; a byte order mark may come first. -/
def read? (s : String) : Option Members :=
  let cs :=
    match s.toList with
    | '\ufeff' :: rest => rest
    | cs => cs
  (statements? (cs.length + 1) cs).bind build?

end EventPipeline.Toml
