import EntityStore.Value.Basic

/-!
# Bounds

An inclusive interval into which values are brought.  The order of the values need not be total:
a value that is comparable with neither bound stays as it is, and incomparable bounds stay in the
order in which they were given.
-/

namespace EntityStore

/-- A lower and an upper bound. -/
structure Bounds (α : Type) where
  /-- The lower bound. -/
  min : α
  /-- The upper bound. -/
  max : α

namespace Bounds

variable {α : Type} [LT α] [DecidableLT α]

/-- The bounds given by two ends, in either order: the greater end becomes the upper bound. -/
def between (a b : α) : Bounds α := if b < a then ⟨b, a⟩ else ⟨a, b⟩

/-- The value itself if it is neither below nor above the bounds, else the bound it passed. -/
def clamp (bounds : Bounds α) (v : α) : α :=
  if v < bounds.min then bounds.min
  else if bounds.max < v then bounds.max
  else v

end Bounds

end EntityStore
