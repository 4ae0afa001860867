import EntityStore.Store.Basic

/-!
# Stored values

Reading and writing the values of one holder: those of fixed width in its block, all others in
the side map of their property.  A holder without a stored value in a side map reads as none;
what that means is up to the property (`EntityStore.Store.Property`).
-/

namespace EntityStore.Store

variable [CustomTypes] (s : Store)

/-- The value at an offset of a holder's block. -/
def readPacked (type : ValueType) (e : EntityId) (offset : Nat) (property : String) :
    Except StoreError type.Carrier :=
  (s.blockIndex e).bind fun i =>
    match (s.blocks[i]?).bind fun block => type.read? block.data offset with
    | some x => .ok x
    | none => .error (.valueTypeMismatch property type.name)

/-- Write a value at an offset of a holder's block: the store as it stands afterwards, and the cause
if the write was refused.  A codec that refuses the value may have changed the bytes of its span. -/
def writePacked (type : ValueType) (e : EntityId) (offset : Nat) (x : type.Carrier)
    (property : String) : Store × Except StoreError Unit :=
  match s.blockIndex e with
  | .error cause => (s, .error cause)
  | .ok i =>
    match s.blocks[i]? with
    | none => (s, .error (.valueTypeMismatch property type.name))
    | some block =>
      let (data, accepted) := type.write x block.data offset
      ({ s with blocks := s.blocks.set i { block with data := data } },
        if accepted then .ok () else .error (.valueTypeMismatch property type.name))

/-- The value of a holder in a side map, none if it has not been set. -/
def readSide (type : ValueType) (e : EntityId) (side : Nat) (property : String) :
    Except StoreError (Option type.Carrier) :=
  if s.contains e then
    match s.sides[side]? with
    | none => .error (.valueTypeMismatch property type.name)
    | some values =>
      match values.lookup e with
      | none => .ok none
      | some stored =>
        match stored.as? type with
        | some x => .ok (some x)
        | none => .error (.valueTypeMismatch property type.name)
  else .error (s.missing e)

/-- Put a value of a holder into a side map: the store as it stands afterwards, and the cause if the
write was refused. -/
def writeSide (type : ValueType) (e : EntityId) (side : Nat) (x : type.Carrier)
    (property : String) : Store × Except StoreError Unit :=
  if s.contains e then
    if side < s.sides.length then
      ({ s with sides := s.sides.modify side fun values => values.insert e ⟨type, x⟩ }, .ok ())
    else (s, .error (.valueTypeMismatch property type.name))
  else (s, .error (s.missing e))

end EntityStore.Store
