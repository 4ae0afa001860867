import EntityStore.Number.Binary
import EntityStore.Value.Codec

/-!
# Types of property values

A property holds values of one type.  A type that is built in is either a *word*, a fixed number of
bytes under one of several readings, or a truth value, which takes one byte, or it has no fixed
width: texts and lists.  An application may bring along types of its own (`CustomTypes`); each has
a codec if its values have a fixed width, and what the codec does is left to the application.  Values
of fixed width live in packed blocks, all others beside them.

`ValueType.compare?` is the order of values.  It is partial: a pattern that is not a number is
comparable with nothing, and neither are two lists whose first difference is such a pair.
-/

namespace EntityStore

/-! ## Words and truth values -/

/-- The widths of machine words. -/
inductive Width where
  | w8 | w16 | w32 | w64
  deriving DecidableEq, Repr

/-- The width in bytes. -/
def Width.bytes : Width → Nat
  | .w8 => 1
  | .w16 => 2
  | .w32 => 4
  | .w64 => 8

/-- A fixed number of bytes under one reading. -/
inductive WordType where
  | signed (width : Width)
  | unsigned (width : Width)
  | binary32
  | binary64
  deriving DecidableEq, Repr

namespace WordType

/-- The width in bytes. -/
def bytes : WordType → Nat
  | signed width => width.bytes
  | unsigned width => width.bytes
  | binary32 => 4
  | binary64 => 8

/-- The width in bits. -/
def bits (w : WordType) : Nat := 8 * w.bytes

/-- The name of the type. -/
def name : WordType → String
  | signed width => s!"i{8 * width.bytes}"
  | unsigned width => s!"u{8 * width.bytes}"
  | binary32 => "f32"
  | binary64 => "f64"

/-- The place of a word in the order of its type; none for a pattern that is not a number. -/
def rank? : (w : WordType) → BitVec w.bits → Option Int
  | signed _, x => some x.toInt
  | unsigned _, x => some x.toNat
  | binary32, x => BinaryFormat.binary32.rank? x.toNat
  | binary64, x => BinaryFormat.binary64.rank? x.toNat

/-- A word stands with its lowest byte first. -/
def codec (w : WordType) : Codec (BitVec w.bits) where
  width := w.bytes
  encode x _ := (littleEndian w.bytes x.toNat, true)
  decode? bytes := some (BitVec.ofNat w.bits (ofLittleEndian bytes))
  length_encode _ _ _ := length_littleEndian _ _

end WordType

/-- A truth value stands as one byte that is zero for false. -/
def truthCodec : Codec Bool where
  width := 1
  encode x _ := ([if x then 1 else 0], true)
  decode? bytes := some (decide (ofLittleEndian bytes ≠ 0))
  length_encode _ _ _ := rfl

/-! ## Types of an application -/

/-- A type that an application brings along. -/
structure CustomType where
  /-- The values. -/
  Carrier : Type
  /-- The name of the type in messages. -/
  name : String
  /-- How the values stand in a block, none if they do not live in blocks. -/
  codec? : Option (Codec Carrier)
  /-- The order of two values, none when they are not comparable. -/
  compare? : Carrier → Carrier → Option Ordering
  /-- The order is the same from either side. -/
  compare?_swap : ∀ x y, compare? y x = (compare? x y).map Ordering.swap
  /-- The description of a value. -/
  describe : Carrier → String

/-- The types that an application brings along, each under a key of its own. -/
class CustomTypes where
  /-- The keys. -/
  Key : Type
  /-- Keys can be told apart. -/
  decEq : DecidableEq Key
  /-- The type of a key. -/
  type : Key → CustomType

instance [CustomTypes] : DecidableEq CustomTypes.Key := CustomTypes.decEq

/-- An application that has no types of its own. -/
@[reducible] def CustomTypes.none : CustomTypes := ⟨Empty, inferInstance, Empty.elim⟩

/-! ## All types -/

variable [CustomTypes]

/-- The types a property may have. -/
inductive ValueType where
  | word (type : WordType)
  | bool
  | text
  | list (element : ValueType)
  | custom (key : CustomTypes.Key)
  deriving DecidableEq

/-- The order of two lists under a partial order of their members: the first pair that is not
equal decides, and then the shorter list is the lesser. -/
def compareLists {α : Type} (order : α → α → Option Ordering) : List α → List α → Option Ordering
  | [], [] => some .eq
  | [], _ :: _ => some .lt
  | _ :: _, [] => some .gt
  | x :: xs, y :: ys =>
    match order x y with
    | some .eq => compareLists order xs ys
    | decided => decided

namespace ValueType

/-- The values of a type. -/
def Carrier : ValueType → Type
  | word type => BitVec type.bits
  | bool => Bool
  | text => String
  | list element => List element.Carrier
  | custom key => (CustomTypes.type key).Carrier

/-- The name of the type in messages; lists have one name whatever they hold. -/
def name : ValueType → String
  | word type => type.name
  | bool => "bool"
  | text => "String"
  | list _ => "Vec"
  | custom key => (CustomTypes.type key).name

/-- Does every application have the type? -/
def isBuiltIn : ValueType → Bool
  | custom _ => false
  | _ => true

/-- How the values of a type stand in a block, none for the types that do not live in blocks. -/
def codec? : (t : ValueType) → Option (Codec t.Carrier)
  | word type => some type.codec
  | bool => some truthCodec
  | text => none
  | list _ => none
  | custom key => (CustomTypes.type key).codec?

/-- The width of a value in a block, none for the types that do not live in blocks. -/
def width? (t : ValueType) : Option Nat := t.codec?.map Codec.width

/-- Do the values have a fixed width? -/
def isFixedSize (t : ValueType) : Bool := t.width?.isSome

/-- The number of bytes that a value takes in a block. -/
def byteWidth (t : ValueType) : Nat := t.width?.getD 0

/-- The value at an offset of a buffer. -/
def read? (t : ValueType) (buffer : List UInt8) (offset : Nat) : Option t.Carrier :=
  t.codec?.bind fun codec => codec.read? buffer offset

/-- Write a value at an offset of a buffer: the buffer as it stands afterwards, and whether the
value was written. -/
def write (t : ValueType) (x : t.Carrier) (buffer : List UInt8) (offset : Nat) : List UInt8 × Bool :=
  match t.codec? with
  | none => (buffer, false)
  | some codec => codec.write x buffer offset

/-- The order of two values, none when they are not comparable. -/
def compare? : (t : ValueType) → t.Carrier → t.Carrier → Option Ordering
  | word type, x, y =>
    match type.rank? x, type.rank? y with
    | some a, some b => some (compare a b)
    | _, _ => none
  | bool, x, y => some (compare (α := Bool) x y)
  | text, x, y => some (compare (α := String) x y)
  | list element, x, y => compareLists element.compare? x y
  | custom key, x, y => (CustomTypes.type key).compare? x y

instance (t : ValueType) : LT t.Carrier where
  lt x y := t.compare? x y = some .lt

instance (t : ValueType) : DecidableLT t.Carrier := fun x y =>
  inferInstanceAs (Decidable (t.compare? x y = some .lt))

end ValueType

/-- A value together with its type. -/
structure TypedValue where
  /-- The type of the value. -/
  type : ValueType
  /-- The value. -/
  value : type.Carrier

namespace TypedValue

/-- The value read as one of a given type, none when its type is another. -/
def as? (v : TypedValue) (t : ValueType) : Option t.Carrier :=
  if h : v.type = t then some (h ▸ v.value) else none

end TypedValue

end EntityStore
