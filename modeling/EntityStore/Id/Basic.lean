/-!
# Entity ids

An entity is known by a number and by nothing else.  This module holds the numbers that may be
issued, and the two that stand at the edges: zero, which tags a free block, and the ceiling.
What ids are in use is not decided here (`EntityStore.Allocator`).
-/

namespace EntityStore

/-- An entity is known by a number; components give it meaning. -/
abbrev EntityId := Nat

namespace EntityId

/-- The number no entity carries: it tags a free block. -/
def absent : EntityId := 0

/-- The largest number an entity may carry. -/
def ceiling : EntityId := 2147483647

/-- A number is issuable when it is positive and not past the ceiling. -/
def IsValid (e : EntityId) : Prop := e ≠ absent ∧ e ≤ ceiling

instance (e : EntityId) : Decidable e.IsValid :=
  inferInstanceAs (Decidable (e ≠ absent ∧ e ≤ ceiling))

/-- How an id is written in messages. -/
def label (e : EntityId) : String := s!"Entity({e})"

/-- How an id is described. -/
def describe (e : EntityId) : String := s!"EntityId({e})"

end EntityId

/-- How the number of a kind within one manager is written. -/
def kindNumberLabel (n : Nat) : String := s!"ComponentType({n})"

/-- How the number of a group within one manager is written. -/
def groupNumberLabel (n : Nat) : String := s!"Group({n})"

end EntityStore
