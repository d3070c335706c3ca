import EventPipeline.Toml.Text
import EventPipeline.Toml.Value

/-! # Numbers, dates and times of TOML

What starts with a digit or a sign is a date or a time, or else a floating-point number, or else an
integer; the first of these that fits is taken. Between two digits of a number an underscore may
stand. Integers are those of 64 bits with a sign.
-/

namespace EventPipeline.Toml

/-! ### Digits -/

/-- Whether a character is a decimal digit. -/
def isDigit (c : Char) : Bool := '0' ≤ c && c ≤ '9'

/-- The digits of a number's part, underscores between two of them left out. -/
def digitRun (isDigit : Char → Bool) : List Char → List Char × List Char
  | '_' :: d :: rest =>
    if isDigit d then
      let (digits, rest) := digitRun isDigit rest
      (d :: digits, rest)
    else ([], '_' :: d :: rest)
  | c :: rest =>
    if isDigit c then
      let (digits, rest) := digitRun isDigit rest
      (c :: digits, rest)
    else ([], c :: rest)
  | [] => ([], [])

/-- One digit or more. -/
def digits? (isDigit : Char → Bool) (cs : List Char) : Option (List Char × List Char) :=
  match cs with
  | [] => none
  | c :: _ => if isDigit c then some (digitRun isDigit cs) else none

/-- The value of digits to a base. -/
def digitsValue (base : Nat) (digits : List Char) : Nat :=
  digits.foldl (fun n c => base * n + (hexValue? c).getD 0) 0

/-- Whether a number starts with a minus sign, and the characters after its sign. -/
def sign (cs : List Char) : Bool × List Char :=
  match cs with
  | '-' :: rest => (true, rest)
  | '+' :: rest => (false, rest)
  | _ => (false, cs)

/-- The digits of an integer without a sign: a zero stands alone. -/
def wholeDigits? (cs : List Char) : Option (List Char × List Char) :=
  match cs with
  | '0' :: rest => some (['0'], rest)
  | _ => digits? isDigit cs

/-! ### Integers -/

/-- An integer that fits into 64 bits. -/
def boundedInteger? (n : Int) : Option Value :=
  if -0x8000_0000_0000_0000 ≤ n ∧ n < 0x8000_0000_0000_0000 then some (.integer n) else none

/-- The digits to a base, read as an integer. -/
def radixInteger? (base : Nat) (cs : List Char) : Option (Value × List Char) := do
  let (digits, rest) ←
    digits? (fun c => match hexValue? c with | some d => d < base | none => false) cs
  let v ← boundedInteger? (digitsValue base digits)
  pure (v, rest)

/-- An integer. -/
def integer? (cs : List Char) : Option (Value × List Char) :=
  match cs with
  | '0' :: 'x' :: rest => radixInteger? 16 rest
  | '0' :: 'o' :: rest => radixInteger? 8 rest
  | '0' :: 'b' :: rest => radixInteger? 2 rest
  | _ => do
    let (negative, unsigned) := sign cs
    let (digits, rest) ← wholeDigits? unsigned
    let size : Int := digitsValue 10 digits
    let v ← boundedInteger? (if negative then -size else size)
    pure (v, rest)

/-! ### Floating-point numbers -/

/-- The digits after the point, if there are any. -/
def fraction? : List Char → Option (List Char × List Char)
  | '.' :: rest => digits? isDigit rest
  | _ => none

/-- The exponent, if there is one. -/
def exponent? : List Char → Option (Int × List Char)
  | c :: rest =>
    if c = 'e' ∨ c = 'E' then do
      let (negative, unsigned) := sign rest
      let (digits, rest) ← digits? isDigit unsigned
      let size : Int := digitsValue 10 digits
      pure (if negative then -size else size, rest)
    else none
  | [] => none

/-- The number nearest to a decimal; below zero there is an infinite one, above there is not. -/
def nearest? (negative : Bool) (digits : Nat) (scale : Int) : Option Floating :=
  match Double.ofDecimal negative digits scale with
  | some x => some (.finite x)
  | none => if negative then some (.infinite true) else none

/-- A number with a fraction or an exponent. -/
def decimal? (cs : List Char) : Option (Value × List Char) := do
  let (negative, unsigned) := sign cs
  let (whole, rest) ← wholeDigits? unsigned
  let (fraction, rest) ←
    match fraction? rest, exponent? rest with
    | some (fraction, rest), _ => some (fraction, rest)
    | none, some _ => some ([], rest)
    | none, none => none
  let (exponent, rest) := (exponent? rest).getD (0, rest)
  let x ← nearest? negative (digitsValue 10 (whole ++ fraction)) (exponent - fraction.length)
  pure (.float x, rest)

/-- An infinite number or one that is no number. -/
def special? (cs : List Char) : Option (Value × List Char) :=
  let (negative, unsigned) := sign cs
  match unsigned with
  | 'i' :: 'n' :: 'f' :: rest => some (.float (.infinite negative), rest)
  | 'n' :: 'a' :: 'n' :: rest => some (.float .nan, rest)
  | _ => none

/-! ### Dates and times -/

/-- A number of exactly `count` digits between two bounds. -/
def fixedDigits? (count low high : Nat) (cs : List Char) : Option (Nat × List Char) :=
  let digits := cs.take count
  let n := digitsValue 10 digits
  if digits.length = count ∧ digits.all isDigit ∧ low ≤ n ∧ n ≤ high then some (n, cs.drop count)
  else none

/-- The characters after a given one. -/
def after? (c : Char) : List Char → Option (List Char)
  | d :: rest => if d = c then some rest else none
  | [] => none

/-- The number of days of a month. -/
def daysOf (year month : Nat) : Nat :=
  if month = 2 then
    if year % 4 = 0 ∧ (year % 100 ≠ 0 ∨ year % 400 = 0) then 29 else 28
  else if month = 4 ∨ month = 6 ∨ month = 9 ∨ month = 11 then 30
  else 31

/-- The characters after a date. -/
def date? (cs : List Char) : Option (List Char) := do
  let (year, cs) ← fixedDigits? 4 0 9999 cs
  let cs ← after? '-' cs
  let (month, cs) ← fixedDigits? 2 1 12 cs
  let cs ← after? '-' cs
  let (_, cs) ← fixedDigits? 2 1 (daysOf year month) cs
  pure cs

/-- The characters after a time of the day; the last second may be a leap second. -/
def time? (cs : List Char) : Option (List Char) := do
  let (_, cs) ← fixedDigits? 2 0 23 cs
  let cs ← after? ':' cs
  let (_, cs) ← fixedDigits? 2 0 59 cs
  let cs ← after? ':' cs
  let (_, cs) ← fixedDigits? 2 0 60 cs
  match cs with
  | '.' :: rest =>
    if rest.head?.any isDigit then pure (rest.dropWhile isDigit) else pure cs
  | _ => pure cs

/-- The characters after an offset from universal time. -/
def offset? (cs : List Char) : Option (List Char) :=
  match cs with
  | [] => none
  | c :: rest =>
    if c = 'Z' ∨ c = 'z' then some rest
    else if c = '+' ∨ c = '-' then do
      let (_, rest) ← fixedDigits? 2 0 23 rest
      let rest ← after? ':' rest
      let (_, rest) ← fixedDigits? 2 0 59 rest
      pure rest
    else none

/-- The characters after the time that follows a date. -/
def timeAfterDate? (cs : List Char) : Option (List Char) :=
  match cs with
  | [] => none
  | c :: rest =>
    if c = 'T' ∨ c = 't' ∨ c = ' ' then (time? rest).map fun rest => (offset? rest).getD rest
    else none

/-- A date, a time, or both. -/
def moment? (cs : List Char) : Option (Value × List Char) :=
  match date? cs with
  | some rest => some (.moment, (timeAfterDate? rest).getD rest)
  | none => (time? cs).map fun rest => (.moment, rest)

/-- What starts with a digit or a sign. -/
def number? (cs : List Char) : Option (Value × List Char) :=
  ((moment? cs).or (decimal? cs)).or ((special? cs).or (integer? cs))

end EventPipeline.Toml
