import EntityStore.Id.Set
import EntityStore.Manager.Config

/-!
# Id allocation

Ids are issued in cyclic order: the search starts just after the last issued id, wraps from the
end of the range to its start and passes over live ids.  A released id therefore comes back only
after the search has gone all the way round.
-/

namespace EntityStore

/-- The ids of one range, and which of them are live. -/
structure Allocator where
  /-- The smallest id. -/
  first : EntityId
  /-- The largest id. -/
  last : EntityId
  /-- The id issued last, none at first. -/
  lastIssued : Option EntityId
  /-- The live ids. -/
  live : IdSet
  deriving DecidableEq

namespace Allocator

/-- An allocator that has issued nothing. -/
def ofConfig (c : ManagerConfig) : Allocator := ⟨c.first, c.last, none, ∅⟩

variable (a : Allocator)

/-- The number of ids in the range. -/
def space : Nat := a.last + 1 - a.first

/-- The id that follows another one in cyclic order. -/
def following (e : EntityId) : EntityId := if e < a.last then e + 1 else a.first

/-- The id at which the search starts. -/
def start : EntityId :=
  match a.lastIssued with
  | some e => a.following e
  | none => a.first

/-- The first id that is not live among so many candidates in cyclic order. -/
def search : Nat → EntityId → Option EntityId
  | 0, _ => none
  | tries + 1, candidate =>
    if candidate ∈ a.live then search tries (a.following candidate) else some candidate

/-- Issue the next id.  As many live ids as there are can be passed over, so one candidate more
than that is enough. -/
def allocate : Except ManagerError (EntityId × Allocator) :=
  let exhausted := .error (.idsExhausted a.live.size)
  if a.space ≤ a.live.size then exhausted
  else
    match a.search (a.live.size + 1) a.start with
    | none => exhausted
    | some e => .ok (e, { a with lastIssued := some e, live := a.live.insert e })

/-- Is an id live? -/
def isLive (e : EntityId) : Bool := decide (e ∈ a.live)

/-- Make an id free for reuse; the answer is whether it was live. -/
def release (e : EntityId) : Allocator × Bool := ({ a with live := a.live.erase e }, a.isLive e)

end Allocator

end EntityStore
