/-!
# Binary interchange formats

A floating-point number is kept as its bit pattern: a sign, a biased exponent and a fraction.
This module reads such patterns and makes them.

* `BinaryFormat.rank?` is the order: a pattern that is a number has a rank among the integers,
  both zeros have rank zero, and a pattern that is not a number has none.
* `BinaryFormat.value?` is the exact rational value of a finite pattern.
* `BinaryFormat.nearest` rounds a rational to the format's grid, ties to even, and
  `BinaryFormat.encode` is the pattern of the result.  The grid has no upper end: a number too
  large for the format keeps its value under `nearest` and becomes infinite under `encode`.

Arithmetic is done on exact rationals and rounded once, so nothing here depends on the machine.
-/

namespace EntityStore

/-- Two to an integer power. -/
def twoPow (k : Int) : Rat :=
  if 0 ≤ k then ((Nat.pow 2 k.toNat : Nat) : Rat) else 1 / ((Nat.pow 2 (-k).toNat : Nat) : Rat)

/-- The integer nearest to a rational, the even one of two equally near. -/
def roundHalfEven (x : Rat) : Int :=
  let below := x.floor
  let excess := x - below
  if excess < 1 / 2 then below
  else if 1 / 2 < excess then below + 1
  else if below % 2 = 0 then below
  else below + 1

/-- The greatest integer power of two that is at most a positive rational. -/
def floorLog2 (x : Rat) : Int :=
  let estimate : Int := (Nat.log2 x.num.natAbs : Int) - (Nat.log2 x.den : Int)
  if twoPow estimate ≤ x then estimate else estimate - 1

/-- The widths of the two variable fields of a binary format. -/
structure BinaryFormat where
  /-- Bits of the biased exponent. -/
  exponentBits : Nat
  /-- Bits of the fraction. -/
  fractionBits : Nat
  deriving DecidableEq, Repr

namespace BinaryFormat

/-- Single precision. -/
def binary32 : BinaryFormat := ⟨8, 23⟩

/-- Double precision. -/
def binary64 : BinaryFormat := ⟨11, 52⟩

variable (f : BinaryFormat)

/-- The number of magnitude patterns of one sign. -/
def signUnit : Nat := Nat.pow 2 (f.exponentBits + f.fractionBits)

/-- The weight of the lowest exponent bit in a pattern, which is also the implied leading bit. -/
def leadingUnit : Nat := Nat.pow 2 f.fractionBits

/-- The magnitude pattern of infinity: every exponent bit set and no fraction bit. -/
def infinite : Nat := (Nat.pow 2 f.exponentBits - 1) * f.leadingUnit

/-- The exponent of the lowest bit of the smallest numbers. -/
def lowestExponent : Int := 2 - (Nat.pow 2 (f.exponentBits - 1) : Nat) - f.fractionBits

/-- Is the sign bit set? -/
def isNegative (bits : Nat) : Bool := bits / f.signUnit % 2 = 1

/-- The pattern without its sign. -/
def magnitude (bits : Nat) : Nat := bits % f.signUnit

/-- A pattern past infinity is not a number. -/
def isNaN (bits : Nat) : Bool := f.infinite < f.magnitude bits

/-- Is the pattern a finite number? -/
def isFinite (bits : Nat) : Bool := f.magnitude bits < f.infinite

/-- The rank of a number among the numbers of its format; a pattern that is not a number has none.
Magnitude patterns ascend with the magnitudes, so the signed magnitude is the order. -/
def rank? (bits : Nat) : Option Int :=
  if f.isNaN bits then none
  else some (if f.isNegative bits then -(f.magnitude bits : Int) else f.magnitude bits)

/-- The whole-number significand of a finite magnitude pattern and the exponent of its lowest bit. -/
def scaled (magnitude : Nat) : Nat × Int :=
  let exponent := magnitude / f.leadingUnit
  let fraction := magnitude % f.leadingUnit
  if exponent = 0 then (fraction, f.lowestExponent)
  else (f.leadingUnit + fraction, f.lowestExponent + (exponent - 1 : Nat))

/-- The exact value of a finite magnitude pattern. -/
def magnitudeValue (magnitude : Nat) : Rat :=
  let (significand, exponent) := f.scaled magnitude
  (significand : Rat) * twoPow exponent

/-- The exact value of a finite pattern. -/
def value? (bits : Nat) : Option Rat :=
  if f.isFinite bits then
    let size := f.magnitudeValue (f.magnitude bits)
    some (if f.isNegative bits then -size else size)
  else none

/-- A positive rational on the format's grid: the nearest significand and its exponent. -/
def nearestScaled (x : Rat) : Nat × Int :=
  let exponent := max (floorLog2 x - f.fractionBits) f.lowestExponent
  ((roundHalfEven (x / twoPow exponent)).toNat, exponent)

/-- The nearest value of the format, ties to the even significand, without an upper end. -/
def nearest (x : Rat) : Rat :=
  if x = 0 then 0
  else
    let (significand, exponent) := f.nearestScaled (if x < 0 then -x else x)
    let size := (significand : Rat) * twoPow exponent
    if x < 0 then -size else size

/-- The pattern of the nearest value; a number too large for the format is infinite.  A significand
that rounds up to the next power of two carries into the exponent field by itself. -/
def encode (x : Rat) : Nat :=
  if x = 0 then 0
  else
    let (significand, exponent) := f.nearestScaled (if x < 0 then -x else x)
    let magnitude := min ((exponent - f.lowestExponent).toNat * f.leadingUnit + significand) f.infinite
    if x < 0 then f.signUnit + magnitude else magnitude

end BinaryFormat

/-- A double-precision number, by its bit pattern. -/
abbrev Binary64 := BitVec 64

namespace Binary64

/-- The exact value of a finite number. -/
def value? (x : Binary64) : Option Rat := BinaryFormat.binary64.value? x.toNat

/-- The rank of a number in the order, none when it is not a number. -/
def rank? (x : Binary64) : Option Int := BinaryFormat.binary64.rank? x.toNat

/-- Is the pattern a finite number? -/
def isFinite (x : Binary64) : Bool := BinaryFormat.binary64.isFinite x.toNat

/-- The double nearest to a rational, infinite when the rational is too large. -/
def ofRat (x : Rat) : Binary64 := BitVec.ofNat 64 (BinaryFormat.binary64.encode x)

/-- The number with the other sign. -/
def negate (x : Binary64) : Binary64 := x ^^^ BitVec.ofNat 64 BinaryFormat.binary64.signUnit

/-- The order of doubles: false as soon as one side is not a number, and both zeros are equal. -/
def less (x y : Binary64) : Bool :=
  match x.rank?, y.rank? with
  | some a, some b => a < b
  | _, _ => false

/-- Less or equal, likewise false when one side is not a number. -/
def lessOrEqual (x y : Binary64) : Bool :=
  match x.rank?, y.rank? with
  | some a, some b => a ≤ b
  | _, _ => false

end Binary64

end EntityStore
