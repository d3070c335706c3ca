import EventPipeline.Text.Octets

/-! # Extended regular expressions

Which texts are extended regular expressions. One pass over the characters keeps what decides the
next one: which groups are open, which are complete in the alternative at hand, and whether there is
something that a repetition could apply to. An expression is read octet by octet, and every octet
counts as a character by itself. Nothing is matched here.
-/

namespace EventPipeline.Text.Pattern

/-! ### Brackets -/

/-- The names of the classes that a bracket may hold. -/
def classNames : List String :=
  ["alpha", "upper", "lower", "digit", "alnum", "space", "blank", "punct", "cntrl", "graph", "print",
    "xdigit"]

/-- The characters before a mark with a bracket after it, and those after. -/
def symbol? (mark : Char) : List Char → Option (List Char × List Char)
  | c :: d :: rest =>
    if c = mark ∧ d = ']' then some ([], rest)
    else (symbol? mark (d :: rest)).map fun (name, rest) => (c :: name, rest)
  | _ => none

/-- What stands in a bracket. -/
inductive Element where
  /-- A character, which may begin or end a range. -/
  | single (c : Char)
  /-- A class of characters. -/
  | several

/-- One element of a bracket. -/
def element? : List Char → Option (Element × List Char)
  | '[' :: ':' :: rest => do
    let (name, rest) ← symbol? ':' rest
    if classNames.contains (String.ofList name) then pure (.several, rest) else none
  | '[' :: '=' :: rest => do
    let (name, rest) ← symbol? '=' rest
    if name.length = 1 then pure (.several, rest) else none
  | '[' :: '.' :: rest => do
    let (name, rest) ← symbol? '.' rest
    match name with
    | [c] => pure (.single c, rest)
    | _ => none
  | c :: rest => some (.single c, rest)
  | [] => none

/-- The characters after a bracket; `fuel` bounds its elements. A hyphen stands for itself only at
the two ends, and a closing bracket only at the beginning. -/
def bracket? : (fuel : Nat) → (first : Bool) → List Char → Option (List Char)
  | 0, _, _ => none
  | fuel + 1, first, cs =>
    match cs with
    | [] => none
    | c :: rest =>
      if c = ']' ∧ !first then some rest
      else if c = '-' ∧ !first ∧ rest.head? ≠ some ']' then none
      else do
        let (start, rest) ← element? cs
        match start, rest with
        | .single low, '-' :: d :: tail =>
          if d = ']' then bracket? fuel false rest
          else do
            let (stop, rest) ← element? (d :: tail)
            match stop with
            | .single high => if low ≤ high then bracket? fuel false rest else none
            | .several => none
        | _, _ => bracket? fuel false rest

/-- The characters after a bracket that has been opened. -/
def afterBracket? (cs : List Char) : Option (List Char) :=
  match cs with
  | '^' :: rest => bracket? (cs.length + 1) true rest
  | _ => bracket? (cs.length + 1) true cs

/-! ### Bounds -/

/-- The most repetitions that a bound may ask for. -/
def maxRepetitions : Nat := 32767

/-- A number that may be left out, after the digits of it that came before: its value, the mark that
ends it, and the characters after that. A backslash before a zero or a comma changes nothing. -/
def number? (soFar : Option Nat) : List Char → Option (Option Nat × Char × List Char)
  | '\\' :: '0' :: rest => number? (some (soFar.getD 0 * 10)) rest
  | '\\' :: ',' :: rest => some (soFar, ',', rest)
  | c :: rest =>
    if c = ',' ∨ c = '\x7d' then some (soFar, c, rest)
    else if c.isDigit then number? (some (soFar.getD 0 * 10 + (c.toNat - '0'.toNat))) rest
    else none
  | [] => none

/-- The characters after the bounds of a repetition. -/
def bounds? (cs : List Char) : Option (List Char) := do
  let (least, mark, rest) ← number? none cs
  if mark = '\x7d' then
    if least.any (· ≤ maxRepetitions) then some rest else none
  else
    let (most, mark, rest) ← number? none rest
    let low := least.getD 0
    let high := most.getD low
    if mark = '\x7d' ∧ low ≤ high ∧ high ≤ maxRepetitions then some rest else none

/-! ### Expressions -/

/-- A group that is open, or the whole expression. -/
structure Level where
  /-- The number of the group; the whole expression has none. -/
  number : Nat
  /-- The groups that were complete where it began. -/
  before : List Nat
  /-- The groups that its earlier alternatives have completed. -/
  gained : List Nat

/-- What the characters so far mean for the next one. -/
structure Progress where
  /-- Whether a repetition may follow. -/
  repeatable : Bool
  /-- How many groups have begun. -/
  groups : Nat
  /-- The groups that a reference may name: those that are complete in this alternative. -/
  complete : List Nat
  level : Level
  /-- The levels around this one, the innermost first. -/
  outer : List Level

namespace Progress

/-- Before the first character. -/
def initial : Progress := ⟨false, 0, [], ⟨0, [], []⟩, []⟩

/-- Begins a group. -/
def enter (p : Progress) : Progress :=
  ⟨false, p.groups + 1, p.complete, ⟨p.groups + 1, p.complete, []⟩, p.level :: p.outer⟩

/-- Begins another alternative, which cannot refer to the groups of the one before. -/
def alternate (p : Progress) : Progress :=
  { p with
    repeatable := false
    complete := p.level.before
    level := { p.level with gained := p.complete ++ p.level.gained } }

/-- Ends a group, whose alternatives have completed their groups and itself. -/
def leave? (p : Progress) : Option Progress :=
  match p.outer with
  | [] => none
  | level :: outer =>
    some ⟨true, p.groups, p.level.number :: p.complete ++ p.level.gained, level, outer⟩

end Progress

/-- The next character, or the construct that it begins. -/
def next? (p : Progress) (c : Char) (rest : List Char) : Option (Progress × List Char) :=
  let atom : Progress := { p with repeatable := true }
  match c with
  | '(' => some (p.enter, rest)
  | ')' => some (p.leave?.getD atom, rest)
  | '|' => some (p.alternate, rest)
  | '^' | '$' => some ({ p with repeatable := false }, rest)
  | '*' | '+' | '?' => if p.repeatable then some (atom, rest) else none
  | '\x7b' => if p.repeatable then (bounds? rest).map fun rest => (atom, rest) else none
  | '[' => (afterBracket? rest).map fun rest => (atom, rest)
  | '\\' =>
    match rest with
    | [] => none
    | d :: rest =>
      if '1' ≤ d ∧ d ≤ '9' ∧ !p.complete.contains (d.toNat - '0'.toNat) then none
      else some ({ p with repeatable := !(['b', 'B', '<', '>', '`', '\''].contains d) }, rest)
  | _ => some (atom, rest)

/-- Whether the characters that are left complete an expression; `fuel` bounds their number. -/
def completes : (fuel : Nat) → Progress → List Char → Bool
  | _, p, [] => p.outer.isEmpty
  | 0, _, _ => false
  | fuel + 1, p, c :: rest =>
    match next? p c rest with
    | some (p, rest) => completes fuel p rest
    | none => false

/-- Whether octets are an extended regular expression. -/
def isExpression (bs : Octets) : Bool :=
  completes bs.length .initial (bs.map fun b => Char.ofNat b.toNat)

/-- Whether a text is an extended regular expression. -/
def isValid (s : String) : Bool := isExpression (octetsOf s)

end EventPipeline.Text.Pattern
