import EntityStore.Number.Binary
import EntityStore.Number.Limits
import EntityStore.Settings.Json

/-!
# Reading numerals

What number a numeral is, for a reader that asks for a count and for one that asks for a double.

A double is not the nearest to the decimal in every case.  The digits are gathered into a
significand of one machine word, further digits only count (before the point) or are dropped
(after it), and the significand is multiplied or divided once by a power of ten that is itself
rounded.  Exponents below the table of powers are reached in two steps.
-/

namespace EntityStore

/-- Gather digits behind a significand as long as it fits a machine word: the significand, and how
many digits it took. -/
def gatherDigits (significand : Nat) : List Nat → Nat × Nat
  | [] => (significand, 0)
  | d :: ds =>
    if significand * 10 + d ≤ maxCount then
      let (gathered, taken) := gatherDigits (significand * 10 + d) ds
      (gathered, taken + 1)
    else (significand, 0)

/-- A power of ten as a double. -/
def roundedPowerOfTen (k : Nat) : Rat := BinaryFormat.binary64.nearest ((Nat.pow 10 k : Nat) : Rat)

/-- The largest power of ten that a double holds. -/
def largestPowerOfTen : Nat := 308

/-- A double times a power of ten, none when the result is too large. -/
def scaleByPowerOfTen (x : Rat) (exponent : Int) : Option Rat :=
  let nearest := BinaryFormat.binary64.nearest
  if x = 0 then some 0
  else if 0 ≤ exponent then
    if largestPowerOfTen < exponent.toNat then none
    else
      let scaled := nearest (x * roundedPowerOfTen exponent.toNat)
      if twoPow 1024 ≤ scaled then none else some scaled
  else
    let depth := (-exponent).toNat
    if depth ≤ largestPowerOfTen then some (nearest (x / roundedPowerOfTen depth))
    else
      let part := nearest (x / roundedPowerOfTen largestPowerOfTen)
      let remaining := depth - largestPowerOfTen
      if remaining ≤ largestPowerOfTen then some (nearest (part / roundedPowerOfTen remaining))
      else some 0

namespace Numeral

variable (n : Numeral)

/-- The count that a numeral is: a plain integer without a sign, up to a limit. -/
def toCount? (limit : Nat) : Option Nat :=
  match n.negative, n.fraction, n.exponent with
  | false, none, none =>
    let count := Text.ofDigits 10 n.whole
    if count ≤ limit then some count else none
  | _, _, _ => none

/-- The significand and the power of ten of a numeral. -/
def decimal : Nat × Int :=
  let (significand, taken) := gatherDigits 0 n.whole
  let exponent : Int := n.whole.length - taken
  let (significand, places) := gatherDigits significand (n.fraction.getD [])
  let exponent := exponent - places
  match n.exponent with
  | none => (significand, exponent)
  | some (true, ds) => (significand, exponent - Text.ofDigits 10 ds)
  | some (false, ds) => (significand, exponent + Text.ofDigits 10 ds)

/-- The double that a numeral is, none when it is too large for one. -/
def toBinary64? : Option Binary64 :=
  let (significand, exponent) := n.decimal
  (scaleByPowerOfTen (BinaryFormat.binary64.nearest significand) exponent).map fun x =>
    if n.negative then (Binary64.ofRat x).negate else Binary64.ofRat x

end Numeral

end EntityStore
