/-! # Finite binary floating-point numbers

A `Double` is one of the finite numbers of the 64-bit binary format: a sign and the position of its
magnitude in the increasing sequence of all finite magnitudes, so that neighbouring codes are
neighbouring numbers and equality is decidable. `Double.ofDecimal` rounds an exact decimal to the
nearest such number, a tie going to the even code, and answers `none` when the decimal is too large
for every one of them. All of it is integer arithmetic.
-/

namespace EventPipeline

/-- A finite 64-bit binary floating-point number; zero has two signs. -/
structure Double where
  negative : Bool
  /-- The number of finite magnitudes below this one. -/
  code : Nat
  code_lt : code < 0x7FF0_0000_0000_0000
  deriving DecidableEq

namespace Double

/-- The integer `m` of the form `m * 2 ^ exponent` that the magnitude has. -/
def significand (x : Double) : Nat :=
  if x.code < 0x10_0000_0000_0000 then x.code
  else x.code % 0x10_0000_0000_0000 + 0x10_0000_0000_0000

/-- The power of two of the last binary place. -/
def exponent (x : Double) : Int :=
  (max (x.code / 0x10_0000_0000_0000) 1 : Nat) - 1075

/-- Whether the number is one of the two zeros. -/
def isZero (x : Double) : Bool := x.code == 0

/-- Zero with the given sign. -/
def zero (negative : Bool) : Double := ⟨negative, 0, by decide⟩

/-- `num / den` rounded to an integer, a tie going to the even one. -/
def roundHalfEven (num den : Nat) : Nat :=
  let quotient := num / den
  let twice := 2 * (num % den)
  if twice < den then quotient
  else if den < twice then quotient + 1
  else quotient + quotient % 2

/-- The greatest `e` with `2 ^ e ≤ num / den`, for positive arguments. -/
def floorLog2 (num den : Nat) : Int :=
  let guess : Int := (num.log2 : Int) - den.log2
  if den * Nat.pow 2 guess.toNat ≤ num * Nat.pow 2 (-guess).toNat then guess else guess - 1

/-- The code nearest to the positive ratio `num / den`; it is not a finite number's code when the
ratio is too large. -/
def nearestCode (num den : Nat) : Nat :=
  let place := max (floorLog2 num den - 52) (-1074)
  let m := roundHalfEven (num * Nat.pow 2 (-place).toNat) (den * Nat.pow 2 place.toNat)
  (place + 1074).toNat * 0x10_0000_0000_0000 + m

/-- The number with the given sign nearest to the ratio `num / den`. -/
def ofRatio (negative : Bool) (num den : Nat) : Option Double :=
  let code := nearestCode num den
  if h : code < 0x7FF0_0000_0000_0000 then some ⟨negative, code, h⟩ else none

/-- The number nearest to `digits * 10 ^ scale`, or `none` when that is beyond the largest one. A
scale that decides the answer by itself is not raised to a power. A JSON reader that scales in
floating point can come out at a neighbour of this number, so what it reads may differ, except for
integers of 64 bits, which are not read as doubles. -/
def ofDecimal (negative : Bool) (digits : Nat) (scale : Int) : Option Double :=
  if digits = 0 then some (zero negative)
  else if 400 < scale then none
  else if scale < -(400 + digits.log2 : Nat) then some (zero negative)
  else ofRatio negative (digits * Nat.pow 10 scale.toNat) (Nat.pow 10 (-scale).toNat)

end Double

end EventPipeline
