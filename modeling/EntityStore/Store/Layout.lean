import EntityStore.Store.Error
import EntityStore.Value.Basic

/-!
# Block layouts

Every block of a kind has the same shape: a tag of four bytes, then the properties of fixed width
in the order in which they were declared, without gaps.  Properties without fixed width live in
side maps, numbered in their own order.  The layout also keeps the *template*: the bytes of a block
that holds every default under a zero tag.

`Layout.push` declares a property.  The template is brought to its new length before the default
is written, so a default that its codec refuses leaves a longer template behind, with whatever the
codec has written by then; the next property of fixed width brings it to the right length again.
-/

namespace EntityStore

/-- The bytes of a block's tag. -/
def headerSize : Nat := 4

/-- Where the values of a property live. -/
inductive Slot where
  /-- In the blocks, at an offset behind the tag. -/
  | packed (offset : Nat)
  /-- In a side map. -/
  | side (index : Nat)
  deriving DecidableEq, Repr

variable [CustomTypes]

/-- A declared property of a layout. -/
structure Field where
  /-- The name, unique in the layout. -/
  name : String
  /-- The type of its values. -/
  type : ValueType
  /-- The value a new holder has. -/
  default : type.Carrier
  /-- Where the values live. -/
  slot : Slot

/-- The shape of a kind's blocks. -/
structure Layout where
  /-- The properties in the order of their declaration. -/
  fields : List Field
  /-- The bytes of a block behind the tag. -/
  dataSize : Nat
  /-- The bytes of a block with a zero tag and every default. -/
  template : List UInt8
  /-- The number of side maps. -/
  sideMaps : Nat

/-- Bytes cut or filled with zeros to a length. -/
def resizeBytes (length : Nat) (bytes : List UInt8) : List UInt8 :=
  bytes.take length ++ List.replicate (length - bytes.length) 0

namespace Layout

/-- The layout without properties. -/
def empty : Layout := ⟨[], 0, List.replicate headerSize 0, 0⟩

variable (l : Layout)

/-- The bytes of a block. -/
def blockSize : Nat := headerSize + l.dataSize

/-- Does a property live in the blocks? -/
def hasFixedStorage : Bool := 0 < l.dataSize

/-- The names in the order of declaration. -/
def names : List String := l.fields.map Field.name

/-- The property of a name. -/
def field? (name : String) : Option Field := l.fields.find? (·.name = name)

/-- Where the values of a name live. -/
def slotOf (name : String) : Option Slot := (l.field? name).map Field.slot

/-- The layout with one more property, whatever its name. -/
def declare (name : String) (type : ValueType) (default : type.Carrier) (slot : Slot) : Layout :=
  { l with fields := l.fields ++ [⟨name, type, default, slot⟩] }

/-- Declare a property of a fixed width: make room in the template, then write the default. -/
def pushPacked (name : String) (type : ValueType) (default : type.Carrier)
    (codec : Codec type.Carrier) : Layout × Except StoreError Slot :=
  let room := resizeBytes (headerSize + l.dataSize + codec.width) l.template
  match codec.write default room (headerSize + l.dataSize) with
  | (template, false) => ({ l with template := template }, .error (.valueTypeMismatch name type.name))
  | (template, true) =>
    let slot := Slot.packed l.dataSize
    ({ l.declare name type default slot with
        dataSize := l.dataSize + codec.width
        template := template }, .ok slot)

/-- Declare a property whose values live in a side map. -/
def pushSide (name : String) (type : ValueType) (default : type.Carrier) : Layout × Slot :=
  let slot := Slot.side l.sideMaps
  ({ l.declare name type default slot with sideMaps := l.sideMaps + 1 }, slot)

/-- Declare a property for a kind: the layout as it stands afterwards, and the slot or the cause
of the refusal. -/
def push (kind name : String) (type : ValueType) (default : type.Carrier) :
    Layout × Except StoreError Slot :=
  if (l.slotOf name).isSome then (l, .error (.duplicateProperty kind name))
  else
    match type.codec? with
    | some codec => l.pushPacked name type default codec
    | none =>
      let (layout, slot) := l.pushSide name type default
      (layout, .ok slot)

end Layout

end EntityStore
