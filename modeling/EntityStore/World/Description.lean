import EntityStore.Value.Description
import EntityStore.World.Basic

/-!
# Descriptions

The one-line texts that describe kinds, properties, filters, groups and managers.
-/

namespace EntityStore

variable [Host]

open Text

/-- The description of a slot. -/
def Slot.describe : Slot → String
  | packed offset => described "Fixed" [("offset", toString offset)] false
  | side index => described "SideMap" [("index", toString index)] false

/-- The description of a property of a kind. -/
def Property.describe (p : Property) (kind : String) : String :=
  described "Property"
    [("component", quoted kind), ("name", quoted p.name), ("slot", p.slot.describe),
      ("default", p.type.describe p.default), ("range", describedOption (p.bounds.map Bounds.describe))]
    false

/-- The description of a kind. -/
def Kind.describe (k : Kind) : String :=
  let number := describedOption (k.number?.map fun n => s!"ComponentTypeId({n})")
  described "ComponentType" [("name", quoted k.store.name), ("id", number)] true

/-- The description of where a manager stands in its life. -/
def Lifecycle.describe : Lifecycle → String
  | setup => "Setup"
  | running => "Running"
  | shutDown => "ShutDown"

/-- The description of a range of ids. -/
def ManagerConfig.describe (c : ManagerConfig) : String :=
  described "ManagerConfig"
    [("first_entity_id", toString c.first), ("last_entity_id", toString c.last)] false

namespace World

variable (w : World)

/-- The names of some kinds. -/
def kindNames (kinds : List KindId) : List String := kinds.map w.kindName

/-- The description of a filter. -/
def describeFilter (f : Filter) : String :=
  described "GroupFilter"
    [("required", listed ((w.kindNames f.required).map quoted)),
      ("forbidden", listed ((w.kindNames f.forbidden).map quoted))] false

/-- The description of a group. -/
def describeGroup (g : GroupRef) : String :=
  let group := w.group g
  described "EntityGroup"
    [("id", s!"GroupId({g.number})"), ("filter", w.describeFilter group.filter),
      ("len", toString group.members.size)] true

/-- The description of a manager. -/
def describeManager (m : ManagerId) : String :=
  let manager := w.manager m
  described "EntityManager"
    [("config", manager.config.describe),
      ("component_types", listed (manager.kinds.map fun k => (w.kind k).describe)),
      ("entities", toString manager.allocator.live.size),
      ("pending_removals", toString manager.pending.size),
      ("lifecycle", manager.lifecycle.describe)] true

end World

end EntityStore
