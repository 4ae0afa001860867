import EntityStore.Number.Binary

/-!
# Shortest decimals

How a floating-point number is written in a message: with the fewest decimal digits that still
read back as the same number, of those the nearest to it, and always in positional notation.

`shortestDecimal` looks for the first number of digits for which one of the two neighbours on the
decimal grid lies among the reals that round to the number (`Basin`), and takes the nearer of
them, the larger when both are equally near.
-/

namespace EntityStore

/-- The reals that round to one number: an interval, with its ends when the significand is even. -/
structure Basin where
  /-- The lower end. -/
  low : Rat
  /-- The number itself. -/
  centre : Rat
  /-- The upper end. -/
  high : Rat
  /-- Do the ends belong to the interval? -/
  closed : Bool

namespace Basin

/-- Does a real round to the number? -/
def contains (b : Basin) (x : Rat) : Bool :=
  if b.closed then decide (b.low ≤ x ∧ x ≤ b.high) else decide (b.low < x ∧ x < b.high)

/-- The interval of a positive finite magnitude pattern.  Below a power of two the numbers are
twice as close, except at the bottom of the range. -/
def ofMagnitude (f : BinaryFormat) (magnitude : Nat) : Basin :=
  let (significand, exponent) := f.scaled magnitude
  let step := twoPow exponent
  let centre := (significand : Rat) * step
  let atPower := significand = f.leadingUnit ∧ f.lowestExponent < exponent
  let below := if atPower then step / 4 else step / 2
  ⟨centre - below, centre, centre + step / 2, significand % 2 = 0⟩

end Basin

/-- A decimal number `digits * 10 ^ exponent`. -/
structure Decimal where
  /-- The digits, read as a whole number. -/
  digits : Nat
  /-- The place of the last digit. -/
  exponent : Int
  deriving DecidableEq, Repr

/-- Ten to an integer power. -/
def tenPow (k : Int) : Rat :=
  if 0 ≤ k then ((Nat.pow 10 k.toNat : Nat) : Rat) else 1 / ((Nat.pow 10 (-k).toNat : Nat) : Rat)

/-- The decimal number as a rational. -/
def Decimal.value (d : Decimal) : Rat := (d.digits : Rat) * tenPow d.exponent

/-- The number of decimal places that a positive rational has before the point: the least `p`
with `x < 10 ^ p`.  The search goes up from a lower bound that the binary size gives. -/
def decimalPlaces (x : Rat) : Int :=
  let start : Int := floorLog2 x * 30103 / 100000 - 1
  let steps : Nat := (List.range 5).findIdx fun step => decide (x < tenPow (start + (step : Nat)))
  start + steps

/-- The neighbour of the centre with so many digits that rounds to it, if there is one. -/
def Basin.neighbour? (b : Basin) (places : Int) (count : Nat) : Option Decimal :=
  let exponent := places - count
  let unit := tenPow exponent
  let lower := (b.centre / unit).floor.toNat
  let down : Decimal := ⟨lower, exponent⟩
  let up : Decimal := ⟨lower + 1, exponent⟩
  match b.contains down.value, b.contains up.value with
  | true, true => if b.centre - down.value < up.value - b.centre then some down else some up
  | true, false => some down
  | false, true => some up
  | false, false => none

/-- The shortest decimal that reads back; seventeen digits are always enough. -/
def shortestDecimal (f : BinaryFormat) (magnitude : Nat) : Decimal :=
  let basin := Basin.ofMagnitude f magnitude
  let places := decimalPlaces basin.centre
  ((List.range' 1 17).findSome? (basin.neighbour? places)).getD ⟨0, 0⟩

/-- A decimal without an exponent: as many zeros as the place of the last digit asks for, and no
zero at the end of a fraction. -/
def Decimal.positional (d : Decimal) : String :=
  let digits := (toString d.digits).toList
  let significant := (digits.reverse.dropWhile (· = '0')).reverse
  let point : Int := digits.length + d.exponent
  if point ≤ 0 then
    String.ofList ('0' :: '.' :: List.replicate (-point).toNat '0' ++ significant)
  else if significant.length ≤ point.toNat then
    String.ofList (significant ++ List.replicate (point.toNat - significant.length) '0')
  else
    String.ofList (significant.take point.toNat ++ '.' :: significant.drop point.toNat)

/-- How a number is written in a message: whole numbers without a point, zero with its sign, and
words for what is not a finite number. -/
def BinaryFormat.text (f : BinaryFormat) (bits : Nat) : String :=
  let sign := if f.isNegative bits then "-" else ""
  let magnitude := f.magnitude bits
  if f.isNaN bits then "NaN"
  else if magnitude = f.infinite then sign ++ "inf"
  else if magnitude = 0 then sign ++ "0"
  else sign ++ (shortestDecimal f magnitude).positional

/-- How a double is written in a message. -/
def Binary64.text (x : Binary64) : String := BinaryFormat.binary64.text x.toNat

end EntityStore
