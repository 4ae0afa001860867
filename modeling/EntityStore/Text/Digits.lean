/-!
# Digits

Numbers as runs of digits.  A digit is one of the ASCII digits and letters; no other character has
a value.  Runs are read with the first digit weighing most, and a run without digits is no number.
-/

namespace EntityStore.Text

/-- The value of a decimal digit. -/
def decimalDigit? (c : Char) : Option Nat :=
  if '0' ≤ c ∧ c ≤ '9' then some (c.toNat - '0'.toNat) else none

/-- The value of a hexadecimal digit, letters in lower case only. -/
def lowerHexDigit? (c : Char) : Option Nat :=
  if 'a' ≤ c ∧ c ≤ 'f' then some (c.toNat - 'a'.toNat + 10) else decimalDigit? c

/-- The value of a hexadecimal digit, letters in either case. -/
def hexDigit? (c : Char) : Option Nat :=
  if 'A' ≤ c ∧ c ≤ 'F' then some (c.toNat - 'A'.toNat + 10) else lowerHexDigit? c

/-- The number of a run of digit values. -/
def ofDigits (base : Nat) (ds : List Nat) : Nat := ds.foldl (fun n d => n * base + d) 0

/-- The number of a run of digits that is not empty. -/
def ofRun? (base : Nat) (digit? : Char → Option Nat) (cs : List Char) : Option Nat :=
  if cs.isEmpty then none else (cs.mapM digit?).map (ofDigits base)

/-- The lower-case hexadecimal digits of a number, without leading zeros. -/
def toLowerHex (n : Nat) : List Char := Nat.toDigits 16 n

/-- The lower-case hexadecimal digits of a number, filled with zeros to a least count. -/
def toPaddedHex (count n : Nat) : List Char :=
  List.replicate (count - (toLowerHex n).length) '0' ++ toLowerHex n

end EntityStore.Text
