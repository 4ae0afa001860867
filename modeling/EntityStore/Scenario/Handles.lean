import EntityStore.Scenario.Script
import EntityStore.World.Basic

/-!
# Handles

The names by which the steps of a scenario know what was made.  A handle that is given again stands
for the newer thing.  Handles of properties belong to a kind.
-/

namespace EntityStore.Scenario

variable [Host]

/-- A table of handles, the oldest first. -/
abbrev HandleTable (α : Type) := List (String × α)

namespace HandleTable

/-- What a handle stands for. -/
def find? {α : Type} (table : HandleTable α) (handle : String) : Option α :=
  (List.find? (·.1 = handle) table).map Prod.snd

/-- The table without a handle. -/
def unbind {α : Type} (table : HandleTable α) (handle : String) : HandleTable α :=
  List.filter (·.1 ≠ handle) table

/-- The table with a handle for something new. -/
def bind {α : Type} (table : HandleTable α) (handle : String) (x : α) : HandleTable α :=
  List.append (unbind table handle) [(handle, x)]

end HandleTable

/-- A property of a kind with its handle. -/
structure PropertyHandle where
  /-- The kind. -/
  kind : KindId
  /-- The handle. -/
  handle : String
  /-- The property. -/
  property : Property

/-- All handles of a scenario. -/
structure Handles where
  kinds : HandleTable KindId
  properties : List PropertyHandle
  managers : HandleTable ManagerId
  groups : HandleTable GroupRef
  listeners : HandleTable ListenerId
  observers : HandleTable ObserverId
  /-- The processors that no manager owns. -/
  alone : HandleTable ProcessorId

namespace Handles

/-- No handles. -/
def empty : Handles := ⟨[], [], [], [], [], [], []⟩

variable (h : Handles)

/-- The properties of a kind, in the order of their declaration. -/
def propertiesOf (k : KindId) : List Property :=
  (h.properties.filter (·.kind = k)).map PropertyHandle.property

/-- The property of a kind that a handle stands for. -/
def property? (k : KindId) (handle : String) : Option Property :=
  (h.properties.reverse.find? fun p => p.kind = k && p.handle = handle).map PropertyHandle.property

/-- The handle of a kind. -/
def handleOf? (k : KindId) : Option String :=
  (List.find? (fun entry => entry.2 = k) h.kinds).map Prod.fst

end Handles

end EntityStore.Scenario
