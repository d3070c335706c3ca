import EventPipeline.Number.Double

/-! # The shortest decimal of a floating-point number

A decimal reads back as a given number when it lies in the number's rounding interval: the reals
that are nearer to it than to its neighbours, the two ends included when the significand is even.
`Double.shortest` takes the coarsest power of ten that has a multiple in the interval, and of its
multiples the one nearest to the number, so no decimal with fewer digits reads back.
-/

namespace EventPipeline

/-- The decimal `digits * 10 ^ scale`. -/
structure Decimal where
  digits : Nat
  scale : Int
  deriving DecidableEq, Repr

/-- A positive rational interval around a point, all over one denominator. -/
structure RoundingInterval where
  low : Nat
  point : Nat
  high : Nat
  den : Nat
  /-- Whether the two ends belong to the interval. -/
  closed : Bool

namespace RoundingInterval

/-- Whether `digits * 10 ^ scale` lies in the interval. -/
def contains (i : RoundingInterval) (digits : Nat) (scale : Int) : Bool :=
  let value := digits * Nat.pow 10 scale.toNat * i.den
  let unit := Nat.pow 10 (-scale).toNat
  if i.closed then i.low * unit ≤ value && value ≤ i.high * unit
  else i.low * unit < value && value < i.high * unit

/-- The multiple of `10 ^ scale` in the interval that is nearest to the point, if there is one; a
tie goes to the even multiple. -/
def onGrid? (i : RoundingInterval) (scale : Int) : Option Nat :=
  let num := i.point * Nat.pow 10 (-scale).toNat
  let den := i.den * Nat.pow 10 scale.toNat
  let below := num / den
  let twice := 2 * (num % den)
  let lowFits := i.contains below scale
  let highFits := i.contains (below + 1) scale
  if lowFits && highFits then
    some (if twice < den then below else if den < twice then below + 1 else below + below % 2)
  else if lowFits && below != 0 then some below
  else if highFits then some (below + 1)
  else none

/-- The first grid with a multiple in the interval, going from `scale` to finer ones. -/
def coarsest (i : RoundingInterval) : Nat → Int → Option Decimal
  | 0, _ => none
  | fuel + 1, scale =>
    match i.onGrid? scale with
    | some digits => some ⟨digits, scale⟩
    | none => i.coarsest fuel (scale - 1)

end RoundingInterval

namespace Double

/-- The reals that round to the magnitude of a number other than zero. The gap below a power of two
is half of the one above it. -/
def roundingInterval (x : Double) : RoundingInterval :=
  let m := x.significand
  let place := x.exponent - 2
  let unit := Nat.pow 2 place.toNat
  let gapBelow := if m = 0x10_0000_0000_0000 ∧ 1 < x.code / 0x10_0000_0000_0000 then 1 else 2
  { low := (4 * m - gapBelow) * unit
    point := 4 * m * unit
    high := (4 * m + 2) * unit
    den := Nat.pow 2 (-place).toNat
    closed := m % 2 == 0 }

/-- A power of ten above the magnitude, at most three places too high. -/
def topScale (x : Double) : Int :=
  ((x.significand.log2 : Int) + x.exponent + 1) * 30103 / 100000 + 1

/-- The decimal with the fewest digits that reads back as the magnitude. Seventeen digits always
suffice, so the search of twenty-four grids ends. -/
def shortest (x : Double) : Decimal :=
  if x.isZero then ⟨0, 0⟩
  else (x.roundingInterval.coarsest 24 x.topScale).getD ⟨x.significand, 0⟩

end Double

/-- How a decimal is written: where positional notation ends and how an exponent looks. -/
structure DecimalStyle where
  /-- The smallest position of the point, counted from the first digit, written positionally. -/
  leastPoint : Int
  /-- The largest such position. -/
  greatestPoint : Int
  /-- Whether a positive exponent carries a sign. -/
  plusSign : Bool

namespace DecimalStyle

/-- The digits of a decimal, written positionally or with one digit before the point. -/
def write (style : DecimalStyle) (d : Decimal) : List Char :=
  let digits := Nat.toDigits 10 d.digits
  let point : Int := digits.length + d.scale
  if d.digits = 0 then ['0', '.', '0']
  else if 0 ≤ d.scale ∧ point ≤ style.greatestPoint then
    digits ++ List.replicate d.scale.toNat '0' ++ ['.', '0']
  else if 0 < point ∧ point ≤ style.greatestPoint then
    digits.take point.toNat ++ '.' :: digits.drop point.toNat
  else if style.leastPoint ≤ point ∧ point ≤ 0 then
    '0' :: '.' :: List.replicate (-point).toNat '0' ++ digits
  else
    let exponent := point - 1
    let sign := if exponent < 0 then ['-'] else if style.plusSign then ['+'] else []
    let fraction := if digits.length = 1 then [] else '.' :: digits.drop 1
    digits.take 1 ++ fraction ++ 'e' :: sign ++ Nat.toDigits 10 exponent.natAbs

end DecimalStyle

/-- The shortest decimal of a number in a given style, with a sign also on the negative zero. -/
def Double.write (style : DecimalStyle) (x : Double) : List Char :=
  (if x.negative then ['-'] else []) ++ style.write x.shortest

end EventPipeline
