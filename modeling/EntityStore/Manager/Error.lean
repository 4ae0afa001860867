import EntityStore.Store.Error

/-!
# What a manager refuses

The causes for which a manager refuses a call, and the wording of each.  A refusal by a store is
passed on with its own wording.
-/

namespace EntityStore

/-- The causes of a refusal by a manager. -/
inductive ManagerError where
  /-- A store refused. -/
  | store (cause : StoreError)
  /-- A kind with this name is registered. -/
  | duplicateKind (kind : String)
  /-- A processor with this name is registered. -/
  | duplicateProcessor (processor : String)
  /-- The listener is attached already. -/
  | duplicateListener (group : Nat)
  /-- The kind is not registered with this manager. -/
  | unregisteredKind (kind : String)
  /-- The kind was listed twice. -/
  | repeatedKind (kind : String)
  /-- The entity is not live. -/
  | unknownEntity (entity : EntityId)
  /-- Registration is over. -/
  | registrationClosed
  /-- Every id of the range is live. -/
  | idsExhausted (live : Nat)
  /-- A callback of a processor failed. -/
  | processor (name cause : String)
  /-- The processors are in use further up the call stack. -/
  | reentrant
  /-- The manager is shut down. -/
  | shutDown
  /-- The configuration breaks a constraint. -/
  | invalidConfig (detail : String)
  deriving DecidableEq, Repr

/-- The wording of each cause. -/
def ManagerError.message : ManagerError → String
  | store cause => cause.message
  | duplicateKind kind => s!"component type '{kind}' is already registered"
  | duplicateProcessor name => s!"processor '{name}' is already registered"
  | duplicateListener group => s!"listener is already attached to entity group {group}"
  | unregisteredKind kind =>
    s!"component type '{kind}' is not registered with this entity manager"
  | repeatedKind kind => s!"component type '{kind}' was listed more than once"
  | unknownEntity entity => s!"{entity.label} does not exist"
  | registrationClosed => "registration is closed once the entity manager has been initialised"
  | idsExhausted live => s!"entity id space exhausted ({live} live entities)"
  | processor name cause => s!"processor '{name}' failed: {cause}"
  | reentrant => "entity manager lifecycle called re-entrantly from a processor"
  | shutDown => "entity manager has been shut down"
  | invalidConfig detail => s!"invalid manager configuration: {detail}"

end EntityStore
