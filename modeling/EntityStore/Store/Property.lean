import EntityStore.Store.Values
import EntityStore.Value.Bounds

/-!
# Properties

A property is a named and typed field of one kind.  `Property.declare` adds it to a store while
the list of properties is open; `Property.get` and `Property.set` read and write the value of one
holder.  A property with bounds brings its default and every value that is set into them.
-/

namespace EntityStore

variable [CustomTypes]

/-- A field of a kind. -/
structure Property where
  /-- The name, unique in its kind. -/
  name : String
  /-- The type of its values. -/
  type : ValueType
  /-- Where the values live. -/
  slot : Slot
  /-- The value of a new holder, already within the bounds. -/
  default : type.Carrier
  /-- The bounds of the values. -/
  bounds : Option (Bounds type.Carrier)

namespace Property

/-- A value within optional bounds. -/
def clampTo {type : ValueType} (bounds : Option (Bounds type.Carrier)) (x : type.Carrier) :
    type.Carrier :=
  match bounds with
  | none => x
  | some bounds => bounds.clamp x

/-- Declare a property: the store as it stands afterwards, and the property or the cause of the
refusal. -/
def declare (s : Store) (name : String) (type : ValueType) (default : type.Carrier)
    (bounds : Option (Bounds type.Carrier)) : Store × Except StoreError Property :=
  let default := clampTo bounds default
  let (store, result) := s.addField name type default
  (store, result.map fun slot => ⟨name, type, slot, default, bounds⟩)

variable (p : Property)

/-- Do the values live in blocks? -/
def isPacked : Bool :=
  match p.slot with
  | .packed _ => true
  | .side _ => false

/-- The offset of the values in a block behind the tag. -/
def offset? : Option Nat :=
  match p.slot with
  | .packed offset => some offset
  | .side _ => none

/-- The place of a holder's value in the buffer. -/
def bufferOffset (s : Store) (e : EntityId) : Except StoreError Nat :=
  match p.slot with
  | .packed offset => s.valueOffset e offset
  | .side _ => .error (.noFixedStorage s.name)

/-- The value of a holder. -/
def get (s : Store) (e : EntityId) : Except StoreError p.type.Carrier :=
  match p.slot with
  | .packed offset => s.readPacked p.type e offset p.name
  | .side side => (s.readSide p.type e side p.name).map fun stored => stored.getD p.default

/-- Give a holder another value, brought into the bounds: the store as it stands afterwards, and the
cause if the value was refused. -/
def set (s : Store) (e : EntityId) (x : p.type.Carrier) : Store × Except StoreError Unit :=
  match p.slot with
  | .packed offset => s.writePacked p.type e offset (clampTo p.bounds x) p.name
  | .side side => s.writeSide p.type e side (clampTo p.bounds x) p.name

end Property

end EntityStore
