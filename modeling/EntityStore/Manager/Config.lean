import EntityStore.Manager.Error

/-!
# Manager configurations

The range of the ids that one manager issues.
-/

namespace EntityStore

/-- The ids that a manager may issue: a range with both ends. -/
structure ManagerConfig where
  /-- The smallest id. -/
  first : EntityId
  /-- The largest id. -/
  last : EntityId
  deriving DecidableEq, Repr

namespace ManagerConfig

/-- Every positive id but the three largest. -/
def default : ManagerConfig := ⟨1, 2147483644⟩

instance : Inhabited ManagerConfig := ⟨default⟩

variable (c : ManagerConfig)

/-- The number of ids in the range, none when its ends are out of order. -/
def idSpace? : Option Nat := if c.first ≤ c.last then some (c.last - c.first + 1) else none

/-- The first constraint that a configuration breaks. -/
def violation? : Option String :=
  let first := c.first
  let last := c.last
  let ceiling := EntityId.ceiling
  if first = 0 then some "first_entity_id must be at least 1"
  else if last < first then some s!"first_entity_id ({first}) is above last_entity_id ({last})"
  else if ceiling < last then some s!"last_entity_id ({last}) exceeds {ceiling}"
  else none

/-- Accept a configuration or name the first constraint it breaks. -/
def validate : Except ManagerError Unit :=
  match c.violation? with
  | some detail => .error (.invalidConfig detail)
  | none => .ok ()

end ManagerConfig

end EntityStore
