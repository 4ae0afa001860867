import EntityStore.Text.Digits
import EntityStore.Value.Basic

/-!
# Written values

How values are written where a scenario gives them and where a report shows them: numbers of up to
thirty-two bits as numbers, wider integers as decimal text, floating-point numbers as the
hexadecimal digits of their bit patterns, and everything else as it is.  How the values of an
application are written is for the application to say (`CustomNotation`).  `ValueType.ofWritten?`
reads what `ValueType.toWritten` writes.
-/

namespace EntityStore

/-- A written value. -/
inductive Written where
  | bool (b : Bool)
  | number (n : Int)
  | text (s : String)
  | list (items : List Written)

/-- The integer that a decimal text is, a minus sign before the digits of a negative one. -/
def decimalToInt? (s : String) : Option Int :=
  match s.toList with
  | '-' :: cs => (Text.ofRun? 10 Text.decimalDigit? cs).map fun n => -(n : Int)
  | cs => (Text.ofRun? 10 Text.decimalDigit? cs).map fun n => (n : Int)

/-- The number of so many hexadecimal digits. -/
def patternToNat? (digits : Nat) (s : String) : Option Nat :=
  if s.length = digits then Text.ofRun? 16 Text.lowerHexDigit? s.toList else none

/-- A number as so many hexadecimal digits at least. -/
def natToPattern (digits n : Nat) : String := String.ofList (Text.toPaddedHex digits n)

/-- The bytes of a text of two hexadecimal digits for each. -/
def bytesOfPattern? (s : String) : Option (List UInt8) :=
  let rec pairs : List Char → Option (List UInt8)
    | [] => some []
    | high :: low :: rest => do
      let byte ← Text.ofRun? 16 Text.hexDigit? [high, low]
      some (UInt8.ofNat byte :: (← pairs rest))
    | [_] => none
  pairs s.toList

/-- Bytes as two hexadecimal digits for each. -/
def bytesToPattern (bytes : List UInt8) : String :=
  String.ofList (bytes.flatMap fun byte => Text.toPaddedHex 2 byte.toNat)

/-- The double of a written bit pattern. -/
def Binary64.ofPattern? (s : String) : Option Binary64 :=
  (patternToNat? 16 s).map fun n => BitVec.ofNat 64 n

/-- The written bit pattern of a double. -/
def Binary64.toPattern (x : Binary64) : String := natToPattern 16 x.toNat

namespace WordType

/-- The word of an integer, if the type has it. -/
def ofInt? (w : WordType) (n : Int) : Option (BitVec w.bits) :=
  let x := BitVec.ofInt w.bits n
  let read :=
    match w with
    | signed _ => x.toInt
    | _ => (x.toNat : Int)
  if read = n then some x else none

/-- The integer of a word. -/
def toInt (w : WordType) (x : BitVec w.bits) : Int :=
  match w with
  | signed _ => x.toInt
  | _ => x.toNat

/-- The word that is written. -/
def ofWritten? (w : WordType) (written : Written) : Option (BitVec w.bits) :=
  match w, written with
  | binary32, .text s => (patternToNat? 8 s).map fun n => BitVec.ofNat 32 n
  | binary64, .text s => (patternToNat? 16 s).map fun n => BitVec.ofNat 64 n
  | signed .w64, .text s => (decimalToInt? s).bind (ofInt? (signed .w64))
  | unsigned .w64, .text s => (decimalToInt? s).bind (ofInt? (unsigned .w64))
  | signed .w64, _ => none
  | unsigned .w64, _ => none
  | signed width, .number n => ofInt? (signed width) n
  | unsigned width, .number n => ofInt? (unsigned width) n
  | _, _ => none

/-- How a word is written. -/
def toWritten (w : WordType) (x : BitVec w.bits) : Written :=
  match w with
  | binary32 => .text (natToPattern 8 x.toNat)
  | binary64 => .text (natToPattern 16 x.toNat)
  | signed .w64 => .text (toString x.toInt)
  | unsigned .w64 => .text (toString x.toNat)
  | w => .number (toInt w x)

end WordType

/-- How the values of the types of an application are written. -/
class CustomNotation [CustomTypes] where
  /-- The value that is written. -/
  ofWritten? : (key : CustomTypes.Key) → Written → Option (CustomTypes.type key).Carrier
  /-- How a value is written. -/
  toWritten : (key : CustomTypes.Key) → (CustomTypes.type key).Carrier → Written
  /-- A whole number added to a value, none when the type has no such sum. -/
  plus? : (key : CustomTypes.Key) → (CustomTypes.type key).Carrier → Int →
    Option (CustomTypes.type key).Carrier

namespace ValueType

variable [CustomTypes] [CustomNotation]

/-- The value that is written. -/
def ofWritten? : (t : ValueType) → Written → Option t.Carrier
  | word type, written => type.ofWritten? written
  | bool, .bool b => some b
  | text, .text s => some s
  | list element, .list items => items.mapM element.ofWritten?
  | custom key, written => CustomNotation.ofWritten? key written
  | _, _ => none

/-- How a value is written. -/
def toWritten : (t : ValueType) → t.Carrier → Written
  | word type, x => type.toWritten x
  | bool, b => .bool b
  | text, s => .text s
  | list element, items => .list (List.map element.toWritten items)
  | custom key, x => CustomNotation.toWritten key x

/-- A whole number added to a value of an integer type, none for other types or when the type
does not have the sum. -/
def plus? : (t : ValueType) → t.Carrier → Int → Option t.Carrier
  | word type, x, n =>
    match type with
    | .binary32 => none
    | .binary64 => none
    | type => type.ofInt? (type.toInt x + n)
  | custom key, x, n => CustomNotation.plus? key x n
  | _, _, _ => none

end ValueType

end EntityStore
