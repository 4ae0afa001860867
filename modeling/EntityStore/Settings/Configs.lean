import EntityStore.Manager.Config
import EntityStore.Settings.Numeral
import EntityStore.Store.Config

/-!
# Settings of stores and managers

The configurations of stores and managers, and ids, as settings text.  A record may leave out
fields, which then keep their defaults.
-/

namespace EntityStore

namespace Json

/-- A count up to a limit. -/
def toCount? (limit : Nat) : Json → Option Nat
  | number n => n.toCount? limit
  | _ => none

/-- A double. -/
def toBinary64? : Json → Option Binary64
  | number n => n.toBinary64?
  | _ => none

end Json

/-- A field that keeps its default when it is left out. -/
def fieldOr {α : Type} (default : α) (read : Json → Option α) : Option Json → Option α
  | none => some default
  | some value => read value

namespace StoreConfig

/-- The names of the fields in their order. -/
def fieldNames : List String :=
  ["expected_capacity", "growth_factor", "expansion_threshold", "compacting_threshold"]

/-- The configuration that a settings text describes. -/
def ofText? (text : String) : Option StoreConfig := do
  let value ← Json.read? text
  match ← value.fields? fieldNames with
  | [capacity, growth, expansion, compacting] =>
    some {
      expectedCapacity := ← fieldOr default.expectedCapacity (Json.toCount? maxCount) capacity
      growthFactor := ← fieldOr default.growthFactor Json.toBinary64? growth
      expansionThreshold := ← fieldOr default.expansionThreshold Json.toBinary64? expansion
      compactingThreshold := ← fieldOr default.compactingThreshold Json.toBinary64? compacting }
  | _ => none

/-- A double as settings text holds it: one that is not finite cannot be written. -/
def written (x : Binary64) : Option Binary64 := if x.isFinite then some x else none

/-- Are two doubles equal as numbers? -/
def sameNumber (x y : Binary64) : Bool :=
  match x.rank?, y.rank? with
  | some a, some b => a = b
  | _, _ => false

/-- Is a configuration equal to the default, field by field as numbers? -/
def isDefault (c : StoreConfig) : Bool :=
  c.expectedCapacity = default.expectedCapacity
    && sameNumber c.growthFactor default.growthFactor
    && sameNumber c.expansionThreshold default.expansionThreshold
    && sameNumber c.compactingThreshold default.compactingThreshold

end StoreConfig

namespace ManagerConfig

/-- The names of the fields in their order. -/
def fieldNames : List String := ["first_entity_id", "last_entity_id"]

/-- The configuration that a settings text describes. -/
def ofText? (text : String) : Option ManagerConfig := do
  let value ← Json.read? text
  match ← value.fields? fieldNames with
  | [first, last] =>
    some {
      first := ← fieldOr default.first (Json.toCount? maxWord32) first
      last := ← fieldOr default.last (Json.toCount? maxWord32) last }
  | _ => none

/-- The settings text of a configuration. -/
def toText (c : ManagerConfig) : String :=
  let first := toString c.first
  let last := toString c.last
  "\x7b\"first_entity_id\":" ++ first ++ ",\"last_entity_id\":" ++ last ++ "\x7d"

end ManagerConfig

/-- The id that a settings text is. -/
def EntityId.ofText? (text : String) : Option EntityId :=
  (Json.read? text).bind (Json.toCount? maxWord32)

end EntityStore
