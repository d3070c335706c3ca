/-! # Blanks, strings and keys of TOML

Every reader takes the characters that are left and returns what it read with the characters after
it, or none when they do not start with such a thing. A string stands on one line between single
marks, or on several between triple ones. Between double quotes a backslash escapes, between
apostrophes it does not.
-/

namespace EventPipeline.Toml

/-- Whether a character is a blank inside a line. -/
def isBlank (c : Char) : Bool := c == ' ' || c == '\t'

/-- The characters after the blanks. -/
def skipBlanks (cs : List Char) : List Char := cs.dropWhile isBlank

/-- Whether a character may stand as it is in comments and strings: no control but the tab. -/
def isPrintable (c : Char) : Bool := c == '\t' || (0x20 ≤ c.toNat && c.toNat != 0x7F)

/-- The characters after a line break. -/
def lineBreak? : List Char → Option (List Char)
  | '\n' :: rest => some rest
  | '\r' :: '\n' :: rest => some rest
  | _ => none

/-- The characters after the end of a line, before which blanks and a comment may stand. -/
def lineEnd? (cs : List Char) : Option (List Char) :=
  let cs := skipBlanks cs
  let cs :=
    match cs with
    | '#' :: rest => rest.dropWhile isPrintable
    | _ => cs
  match cs with
  | [] => some []
  | _ => lineBreak? cs

/-- The characters after blanks, line breaks and comments; each comment ends with its line. -/
def skipFiller : (inComment : Bool) → List Char → List Char
  | _, [] => []
  | _, '\n' :: rest => skipFiller false rest
  | _, '\r' :: '\n' :: rest => skipFiller false rest
  | true, c :: rest => if isPrintable c then skipFiller true rest else c :: rest
  | false, c :: rest =>
    if isBlank c then skipFiller false rest
    else if c = '#' then skipFiller true rest
    else c :: rest

/-! ### Strings -/

/-- The kinds of marks around a string. -/
structure Quoting where
  mark : Char
  /-- Whether a backslash escapes. -/
  escapes : Bool

/-- Double quotes. -/
def Quoting.basic : Quoting := ⟨'"', true⟩

/-- Apostrophes. -/
def Quoting.literal : Quoting := ⟨'\'', false⟩

/-- The value of a hexadecimal digit. -/
def hexValue? (c : Char) : Option Nat :=
  if '0' ≤ c ∧ c ≤ '9' then some (c.toNat - '0'.toNat)
  else if 'a' ≤ c ∧ c ≤ 'f' then some (c.toNat - 'a'.toNat + 10)
  else if 'A' ≤ c ∧ c ≤ 'F' then some (c.toNat - 'A'.toNat + 10)
  else none

/-- The character with a code point of `count` hexadecimal digits. -/
def codePoint? (count : Nat) (cs : List Char) : Option (Char × List Char) := do
  let digits ← (cs.take count).mapM hexValue?
  let n := digits.foldl (fun n d => 16 * n + d) 0
  if digits.length = count ∧ n.isValidChar then some (Char.ofNat n, cs.drop count) else none

/-- The character that the characters after a backslash stand for. -/
def escape? : List Char → Option (Char × List Char)
  | 'b' :: rest => some ('\x08', rest)
  | 't' :: rest => some ('\t', rest)
  | 'n' :: rest => some ('\n', rest)
  | 'f' :: rest => some ('\x0c', rest)
  | 'r' :: rest => some ('\r', rest)
  | '"' :: rest => some ('"', rest)
  | '\\' :: rest => some ('\\', rest)
  | 'u' :: rest => codePoint? 4 rest
  | 'U' :: rest => codePoint? 8 rest
  | _ => none

/-- The content of a string on one line, up to its closing mark; `fuel` bounds the characters. -/
def lineContent? (q : Quoting) : (fuel : Nat) → List Char → Option (List Char × List Char)
  | 0, _ => none
  | fuel + 1, cs =>
    match cs with
    | [] => none
    | c :: rest =>
      if c = q.mark then some ([], rest)
      else if q.escapes ∧ c = '\\' then do
        let (c, rest) ← escape? rest
        let (content, rest) ← lineContent? q fuel rest
        pure (c :: content, rest)
      else if isPrintable c then do
        let (content, rest) ← lineContent? q fuel rest
        pure (c :: content, rest)
      else none

/-- The characters after a line break that follows a backslash, and after all blanks and breaks. -/
def joined? (cs : List Char) : Option (List Char) :=
  (lineBreak? (skipBlanks cs)).map skipBreaks
where
  /-- The characters after blanks and line breaks. -/
  skipBreaks : List Char → List Char
    | [] => []
    | '\n' :: rest => skipBreaks rest
    | '\r' :: '\n' :: rest => skipBreaks rest
    | c :: rest => if isBlank c then skipBreaks rest else c :: rest

/-- The content of a string on several lines, up to its three closing marks, before which up to two
more may stand; `fuel` bounds the characters. -/
def blockContent? (q : Quoting) : (fuel : Nat) → List Char → Option (List Char × List Char)
  | 0, _ => none
  | fuel + 1, cs =>
    match cs with
    | [] => none
    | c :: rest =>
      if c = q.mark then
        let marks := (cs.takeWhile (· == q.mark)).take 5
        if 3 ≤ marks.length then some (marks.drop 3, cs.drop marks.length)
        else do
          let (content, rest) ← blockContent? q fuel rest
          pure (c :: content, rest)
      else if q.escapes ∧ c = '\\' then
        match joined? rest with
        | some rest => blockContent? q fuel rest
        | none => do
          let (c, rest) ← escape? rest
          let (content, rest) ← blockContent? q fuel rest
          pure (c :: content, rest)
      else
        match lineBreak? cs with
        | some rest => do
          let (content, rest) ← blockContent? q fuel rest
          pure ('\n' :: content, rest)
        | none =>
          if isPrintable c then do
            let (content, rest) ← blockContent? q fuel rest
            pure (c :: content, rest)
          else none

/-- The content of a string after its first mark; a line break right after three marks is no part
of it. -/
def content? (q : Quoting) (cs : List Char) : Option (List Char × List Char) :=
  match cs with
  | a :: b :: rest =>
    if a = q.mark ∧ b = q.mark then blockContent? q (cs.length + 1) ((lineBreak? rest).getD rest)
    else lineContent? q (cs.length + 1) cs
  | _ => lineContent? q (cs.length + 1) cs

/-- The marks that a character opens. -/
def Quoting.ofMark? (c : Char) : Option Quoting :=
  if c = '"' then some .basic else if c = '\'' then some .literal else none

/-! ### Keys -/

/-- Whether a character may stand in a key without marks. -/
def isBareKey (c : Char) : Bool := c.isAlphanum || c == '_' || c == '-'

/-- A key without dots. -/
def simpleKey? (cs : List Char) : Option (String × List Char) :=
  match cs with
  | [] => none
  | c :: rest =>
    match Quoting.ofMark? c with
    | some q =>
      (lineContent? q (rest.length + 1) rest).map fun (content, rest) =>
        (String.ofList content, rest)
    | none =>
      if isBareKey c then
        some (String.ofList (cs.takeWhile isBareKey), cs.dropWhile isBareKey)
      else none

/-- How many keys dots may join at most, and how deep values may nest. -/
def maxDepth : Nat := 79

/-- The keys that dots join, with the blanks around them; `fuel` bounds their number. -/
def keys? : (fuel : Nat) → List Char → Option (List String × List Char)
  | 0, _ => none
  | fuel + 1, cs => do
    let (key, rest) ← simpleKey? (skipBlanks cs)
    match skipBlanks rest with
    | '.' :: rest =>
      let (keys, rest) ← keys? fuel rest
      pure (key :: keys, rest)
    | rest => pure ([key], rest)

/-- The last of the keys that dots join, and those before it. -/
def path? (cs : List Char) : Option ((List String × String) × List Char) := do
  let (keys, rest) ← keys? maxDepth cs
  let key ← keys.getLast?
  pure ((keys.dropLast, key), rest)

end EventPipeline.Toml
