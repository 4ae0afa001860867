import EntityStore.Id.Basic

/-!
# What a store refuses

The causes for which kinds, stores and properties refuse a call, and the wording of each.
-/

namespace EntityStore

/-- The causes of a refusal by a kind, its store or one of its properties. -/
inductive StoreError where
  /-- A property came after the first holder. -/
  | frozenSchema (kind : String)
  /-- The property name is taken. -/
  | duplicateProperty (kind property : String)
  /-- The entity already holds the kind. -/
  | duplicateComponent (kind : String) (entity : EntityId)
  /-- The entity does not hold the kind. -/
  | missingComponent (kind : String) (entity : EntityId)
  /-- The number is not an issuable id. -/
  | invalidEntity (entity : EntityId)
  /-- The kind has no block, or the property does not live in it. -/
  | noFixedStorage (kind : String)
  /-- The kind is already attached. -/
  | alreadyRegistered (kind : String)
  /-- A codec refused the value. -/
  | valueTypeMismatch (property expected : String)
  /-- The configuration breaks a constraint. -/
  | invalidConfig (detail : String)
  /-- The buffer cannot have so many blocks. -/
  | capacityOverflow (kind : String) (requested : Nat)
  /-- The template left by a refused property does not have the length of a block.  This is no answer
  to the call but its end: the copy of the template is given up half-way. -/
  | templateMisfit (kind : String)
  deriving DecidableEq, Repr

/-- The wording of each cause. -/
def StoreError.message : StoreError → String
  | frozenSchema kind => s!"component '{kind}' is in use; its property list is frozen"
  | duplicateProperty kind property => s!"component '{kind}' already has a property named '{property}'"
  | duplicateComponent kind entity => s!"{entity.label} already has a '{kind}' component"
  | missingComponent kind entity => s!"{entity.label} does not have a '{kind}' component"
  | invalidEntity entity => s!"{entity.label} is not a valid entity id"
  | noFixedStorage kind =>
    s!"component '{kind}' has no fixed-size properties stored in a packed buffer"
  | alreadyRegistered kind => s!"component '{kind}' is already registered with an entity manager"
  | valueTypeMismatch property expected =>
    s!"property '{property}' holds a value that does not decode as {expected}"
  | invalidConfig detail => s!"invalid store configuration: {detail}"
  | capacityOverflow kind requested =>
    s!"component '{kind}' cannot grow its buffer to {requested} blocks"
  | templateMisfit kind => s!"component '{kind}' has a template that does not fit its blocks"

end EntityStore
