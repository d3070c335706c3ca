import EventPipeline.Json.Error
import EventPipeline.Text.Octets

/-! # Reading JSON texts

A text is a sequence of octets. Every reader takes the octets that are left and returns a value with
the octets after it, or the first thing wrong, in the order of the text. Arrays and objects nest at
most `maxDepth` deep; the depth still allowed is what the recursion descends on. A string is checked
to be UTF-8 only once its closing quote is reached.

`elements` and `foldMembers` read the inside of an array and of an object with any reader for what
stands in them, so that a document of a fixed shape can be read without building a `Value` first.
-/

namespace EventPipeline.Json

/-- How deep arrays and objects may nest. -/
def maxDepth : Nat := 127

/-- The octet of an ASCII character. -/
def octet (c : Char) : UInt8 := c.toNat.toUInt8

/-- Whether an octet is one of the four blanks between tokens. -/
def isGap (b : UInt8) : Bool := b == 0x20 || b == 0x0A || b == 0x09 || b == 0x0D

/-- The octets from the next token on. -/
def skipGap (bs : Octets) : Octets := bs.dropWhile isGap

/-- Whether an octet is a decimal digit. -/
def isDigit (b : UInt8) : Bool := 0x30 ≤ b && b ≤ 0x39

/-! ### Words and numbers -/

/-- Reads the rest of one of the words `null`, `true` and `false`. -/
def word (expected : List Char) (v : α) (bs : Octets) : Except Error (α × Octets) :=
  match expected, bs with
  | [], bs => .ok (v, bs)
  | _ :: _, [] => .error (.unfinished .value)
  | c :: cs, b :: bs => if b = octet c then word cs v bs else .error (.malformed .expectedIdent)

/-- The value of a run of decimal digits. -/
def digitsValue (digits : Octets) : Nat :=
  digits.foldl (fun n b => 10 * n + (b.toNat - 0x30)) 0

/-- Reads one digit or more. -/
def digitRun (bs : Octets) : Except Error (Octets × Octets) :=
  match bs with
  | [] => .error (.unfinished .value)
  | b :: _ =>
    if isDigit b then .ok (bs.takeWhile isDigit, bs.dropWhile isDigit)
    else .error (.malformed .invalidNumber)

/-- Reads the digits before the point: a zero stands alone. -/
def integerPart (bs : Octets) : Except Error (Octets × Octets) :=
  match bs with
  | [] => .error (.unfinished .value)
  | b :: rest =>
    if b = octet '0' then
      match rest with
      | [] => .ok ([b], rest)
      | d :: _ => if isDigit d then .error (.malformed .invalidNumber) else .ok ([b], rest)
    else digitRun bs

/-- Reads the digits after the point, if there is one. -/
def fractionPart (bs : Octets) : Except Error (Option Octets × Octets) :=
  match bs with
  | [] => .ok (none, bs)
  | b :: rest =>
    if b = octet '.' then (digitRun rest).map fun (digits, rest) => (some digits, rest)
    else .ok (none, bs)

/-- Reads the exponent, if there is one. -/
def exponentPart (bs : Octets) : Except Error (Option Int × Octets) :=
  match bs with
  | [] => .ok (none, bs)
  | b :: rest =>
    if b = octet 'e' ∨ b = octet 'E' then
      let negative := rest.head? == some (octet '-')
      let unsigned := if negative ∨ rest.head? = some (octet '+') then rest.drop 1 else rest
      (digitRun unsigned).map fun (digits, rest) =>
        let size : Int := digitsValue digits
        (some (if negative then -size else size), rest)
    else .ok (none, bs)

/-- The number with the given parts. Without a fraction and an exponent it is an integer, unless it
is out of range or a negative zero. -/
def numberOfParts (negative : Bool) (whole : Octets) (fraction : Option Octets)
    (exponent : Option Int) : Except Error Number :=
  let digits := digitsValue (whole ++ fraction.getD [])
  let scale := exponent.getD 0 - (fraction.getD []).length
  let asDouble : Except Error Number :=
    match Double.ofDecimal negative digits scale with
    | some x => .ok (.double x)
    | none => .error (.malformed .numberOutOfRange)
  match fraction, exponent with
  | none, none =>
    if negative ∧ digits = 0 then asDouble
    else
      match Integer.ofInt? (if negative then -digits else digits) with
      | some n => .ok (.integer n)
      | none => asDouble
  | _, _ => asDouble

/-- Reads a number after its sign. -/
def unsignedNumber (negative : Bool) (bs : Octets) : Except Error (Number × Octets) := do
  let (whole, bs) ← integerPart bs
  let (fraction, bs) ← fractionPart bs
  let (exponent, bs) ← exponentPart bs
  let n ← numberOfParts negative whole fraction exponent
  pure (n, bs)

/-! ### Strings -/

/-- The value of a hexadecimal digit. -/
def hexValue? (b : UInt8) : Option Nat :=
  if isDigit b then some (b.toNat - 0x30)
  else if 0x61 ≤ b ∧ b ≤ 0x66 then some (b.toNat - 0x57)
  else if 0x41 ≤ b ∧ b ≤ 0x46 then some (b.toNat - 0x37)
  else none

/-- Reads the four hexadecimal digits of an escape. -/
def hexUnit (bs : Octets) : Except Error (Nat × Octets) :=
  match bs with
  | a :: b :: c :: d :: rest =>
    match hexValue? a, hexValue? b, hexValue? c, hexValue? d with
    | some a, some b, some c, some d => .ok (((a * 16 + b) * 16 + c) * 16 + d, rest)
    | _, _, _, _ => .error (.malformed .invalidEscape)
  | _ => .error (.unfinished .string)

/-- The UTF-8 form of a code point. -/
def codePoint (n : Nat) : Octets := String.utf8EncodeChar (Char.ofNat n)

/-- Reads what follows `\u`: one unit, or the two units of a surrogate pair. -/
def unicodeEscape (bs : Octets) : Except Error (Octets × Octets) := do
  let (first, bs) ← hexUnit bs
  if 0xDC00 ≤ first ∧ first ≤ 0xDFFF then .error (.malformed .loneSurrogate)
  else if first < 0xD800 ∨ 0xDBFF < first then .ok (codePoint first, bs)
  else
    match bs with
    | [] => .error (.unfinished .string)
    | b :: bs =>
      if b ≠ octet '\\' then .error (.malformed .unfinishedSurrogatePair)
      else
        match bs with
        | [] => .error (.unfinished .string)
        | b :: bs =>
          if b ≠ octet 'u' then .error (.malformed .unfinishedSurrogatePair)
          else do
            let (second, bs) ← hexUnit bs
            if second < 0xDC00 ∨ 0xDFFF < second then .error (.malformed .loneSurrogate)
            else .ok (codePoint (0x10000 + (first - 0xD800) * 0x400 + (second - 0xDC00)), bs)

/-- Reads what follows a backslash. -/
def escape (bs : Octets) : Except Error (Octets × Octets) :=
  match bs with
  | [] => .error (.unfinished .string)
  | b :: rest =>
    if b = octet '"' ∨ b = octet '\\' ∨ b = octet '/' then .ok ([b], rest)
    else if b = octet 'b' then .ok ([0x08], rest)
    else if b = octet 'f' then .ok ([0x0C], rest)
    else if b = octet 'n' then .ok ([0x0A], rest)
    else if b = octet 'r' then .ok ([0x0D], rest)
    else if b = octet 't' then .ok ([0x09], rest)
    else if b = octet 'u' then unicodeEscape rest
    else .error (.malformed .invalidEscape)

/-- Reads the octets of a string up to its closing quote; `fuel` bounds the characters read. -/
def stringOctets : (fuel : Nat) → Octets → Except Error (Octets × Octets)
  | 0, _ => .error (.unfinished .string)
  | fuel + 1, bs =>
    match bs with
    | [] => .error (.unfinished .string)
    | b :: rest =>
      if b = octet '"' then .ok ([], rest)
      else if b = octet '\\' then do
        let (c, rest) ← escape rest
        let (tail, rest) ← stringOctets fuel rest
        pure (c ++ tail, rest)
      else if b < 0x20 then .error (.malformed .controlCharacter)
      else do
        let (tail, rest) ← stringOctets fuel rest
        pure (b :: tail, rest)

/-- Reads a string after its opening quote. -/
def string (bs : Octets) : Except Error (String × Octets) := do
  let (content, rest) ← stringOctets bs.length bs
  match textOf? content with
  | some s => pure (s, rest)
  | none => .error (.malformed .invalidCodePoint)

/-! ### Arrays and objects -/

/-- Goes past a comma to the item after it, or finds the closing bracket. -/
def nextElement (first : Bool) (bs : Octets) : Except Error (Option Octets) :=
  match skipGap bs with
  | [] => .error (.unfinished .list)
  | b :: rest =>
    if b = octet ']' then .ok none
    else if first then .ok (some (b :: rest))
    else if b = octet ',' then
      match skipGap rest with
      | [] => .error (.unfinished .value)
      | c :: rest =>
        if c = octet ']' then .error (.malformed .trailingComma) else .ok (some (c :: rest))
    else .error (.malformed .expectedListCommaOrEnd)

/-- Reads the items of an array and its closing bracket; `fuel` bounds their number. -/
def elements (item : Octets → Except Error (α × Octets)) :
    (fuel : Nat) → (first : Bool) → Octets → Except Error (List α × Octets)
  | 0, _, _ => .error (.unfinished .list)
  | fuel + 1, first, bs => do
    match ← nextElement first bs with
    | none => pure ([], (skipGap bs).drop 1)
    | some bs =>
      let (v, bs) ← item bs
      let (vs, bs) ← elements item fuel false bs
      pure (v :: vs, bs)

/-- Goes past a comma to the quote of the next key, or finds the closing brace. -/
def nextKey (first : Bool) (bs : Octets) : Except Error (Option Octets) :=
  match skipGap bs with
  | [] => .error (.unfinished .object)
  | b :: rest =>
    if b = octet '\x7d' then .ok none
    else if first then
      if b = octet '"' then .ok (some rest) else .error (.malformed .keyNotString)
    else if b = octet ',' then
      match skipGap rest with
      | [] => .error (.unfinished .value)
      | c :: rest =>
        if c = octet '"' then .ok (some rest)
        else if c = octet '\x7d' then .error (.malformed .trailingComma)
        else .error (.malformed .keyNotString)
    else .error (.malformed .expectedObjectCommaOrEnd)

/-- Goes past the colon after a key. -/
def colon (bs : Octets) : Except Error Octets :=
  match skipGap bs with
  | [] => .error (.unfinished .object)
  | b :: rest => if b = octet ':' then .ok rest else .error (.malformed .expectedColon)

/-- Reads the members of an object and its closing brace, handing each key, with the octets from its
colon on, to `member`; `fuel` bounds their number. -/
def foldMembers (member : σ → String → Octets → Except Error (σ × Octets)) :
    (fuel : Nat) → (first : Bool) → σ → Octets → Except Error (σ × Octets)
  | 0, _, _, _ => .error (.unfinished .object)
  | fuel + 1, first, s, bs => do
    match ← nextKey first bs with
    | none => pure (s, (skipGap bs).drop 1)
    | some bs =>
      let (key, bs) ← string bs
      let (s, bs) ← member s key bs
      foldMembers member fuel false s bs

/-! ### Documents -/

/-- Reads a document that is neither array nor object, given its first octet. -/
def scalar (b : UInt8) (rest : Octets) : Except Error (Value × Octets) :=
  if b = octet 'n' then word ['u', 'l', 'l'] .null rest
  else if b = octet 't' then word ['r', 'u', 'e'] (.boolean true) rest
  else if b = octet 'f' then word ['a', 'l', 's', 'e'] (.boolean false) rest
  else if b = octet '-' then (unsignedNumber true rest).map fun (n, rest) => (.number n, rest)
  else if isDigit b then (unsignedNumber false (b :: rest)).map fun (n, rest) => (.number n, rest)
  else if b = octet '"' then (string rest).map fun (s, rest) => (.string s, rest)
  else .error (.malformed .expectedValue)

/-- Reads the members of an object with a reader for their values, in the order of the text. -/
def members (value : Octets → Except Error (α × Octets)) (bs : Octets) :
    Except Error (List (String × α) × Octets) :=
  (foldMembers (fun read key bs => do
    let bs ← colon bs
    let (v, bs) ← value bs
    pure ((key, v) :: read, bs)) (bs.length + 1) true [] bs).map
      fun (read, rest) => (read.reverse, rest)

/-- Reads a document whose arrays and objects nest at most `depth` deep. -/
def value (depth : Nat) (bs : Octets) : Except Error (Value × Octets) :=
  match skipGap bs with
  | [] => .error (.unfinished .value)
  | b :: rest =>
    if b = octet '[' then
      match depth with
      | 0 => .error (.malformed .recursionLimit)
      | depth + 1 =>
        (elements (value depth) (rest.length + 1) true rest).map
          fun (items, rest) => (.array items, rest)
    else if b = octet '\x7b' then
      match depth with
      | 0 => .error (.malformed .recursionLimit)
      | depth + 1 => (members (value depth) rest).map fun (ms, rest) => (.ofMembers ms, rest)
    else scalar b rest

/-- A reading that nothing but blanks may follow. -/
def complete (reading : Except Error (α × Octets)) : Except Error α := do
  let (v, rest) ← reading
  if skipGap rest = [] then .ok v else .error (.malformed .trailingCharacters)

/-- The document that a text holds. -/
def Value.read (bs : Octets) : Except Error Value := complete (value maxDepth bs)

/-- The document that a text holds. -/
def Value.readText (s : String) : Except Error Value := Value.read (octetsOf s)

end EventPipeline.Json
