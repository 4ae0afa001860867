import EntityStore.Group.Filter
import EntityStore.Id.Set

/-!
# Groups

A group keeps the entities that pass its filter.  It is never recomputed: it hears of single
events and re-tests the one entity that each is about.  Between two flushes it gathers the net
change of its members: who joined and who left, where joining and leaving cancel each other.  A
flush (`Group.drain`) hands the two sets out and empties them; `News.notices` are the calls that the
listeners then get.
-/

namespace EntityStore

/-- The identity of a listener. -/
structure ListenerId where
  /-- The place among all listeners that were ever made. -/
  place : Nat
  deriving DecidableEq, Repr

/-- What happened to a member. -/
inductive MemberChange where
  | joined
  | left
  deriving DecidableEq, Repr

/-- One call to one listener about one entity. -/
structure Notice where
  /-- Who is told. -/
  listener : ListenerId
  /-- What happened. -/
  change : MemberChange
  /-- To whom. -/
  entity : EntityId
  deriving DecidableEq, Repr

/-- A net change of members. -/
structure News where
  /-- Who was a member and is none now. -/
  left : IdSet
  /-- Who was none and is a member now. -/
  joined : IdSet
  deriving DecidableEq

namespace News

/-- How many left and how many joined. -/
def counts (n : News) : Nat × Nat := (n.left.size, n.joined.size)

/-- What listeners are to hear of a change: who left before who joined, each in ascending order,
and for each entity the listeners in the order of their attachment. -/
def notices (n : News) (listeners : List ListenerId) : List Notice :=
  let about (change : MemberChange) (s : IdSet) : List Notice :=
    s.toList.flatMap fun e => listeners.map fun l => ⟨l, change, e⟩
  about .left n.left ++ about .joined n.joined

end News

/-- The entities that pass a filter, with their undelivered change. -/
structure Group where
  /-- Who belongs to the group. -/
  filter : Filter
  /-- The members. -/
  members : IdSet
  /-- Members that were none at the last flush. -/
  added : IdSet
  /-- Members at the last flush that are none now. -/
  removed : IdSet
  /-- Who is told of changes, in the order of attachment. -/
  listeners : List ListenerId
  deriving DecidableEq

namespace Group

/-- A group without members. -/
def ofFilter (f : Filter) : Group := ⟨f, ∅, ∅, ∅, []⟩

variable (g : Group)

/-- A new member; one that had left since the last flush is as if it had stayed. -/
def join (e : EntityId) : Group :=
  if e ∈ g.members then g
  else if e ∈ g.removed then
    { g with members := g.members.insert e, removed := g.removed.erase e }
  else { g with members := g.members.insert e, added := g.added.insert e }

/-- One member less; one that had joined since the last flush is as if it had never come. -/
def leave (e : EntityId) : Group :=
  if e ∈ g.members then
    if e ∈ g.added then { g with members := g.members.erase e, added := g.added.erase e }
    else { g with members := g.members.erase e, removed := g.removed.insert e }
  else g

/-- Bring the membership of one entity in line with whether it passes the filter. -/
def refresh (e : EntityId) (accepted : Bool) : Group := if accepted then g.join e else g.leave e

/-- Take up an entity that was there before the group, without a change to deliver. -/
def seed (e : EntityId) (accepted : Bool) : Group :=
  if accepted then { g with members := g.members.insert e } else g

/-- An entity holds, or no longer holds, a kind. -/
def kindChanged (k : KindId) (e : EntityId) (holds : KindId → Bool) : Group :=
  if g.filter.mentions k then g.refresh e (g.filter.accepts holds) else g

/-- An entity was made with the listed kinds. -/
def entityCreated (e : EntityId) (kinds : List KindId) (holds : KindId → Bool) : Group :=
  if g.filter.acceptsKinds kinds then g.refresh e (g.filter.accepts holds) else g

/-- An entity ceased to be. -/
def entityRemoved (e : EntityId) : Group := g.leave e

/-- Hand the change out: the group without undelivered change, and the change. -/
def drain : Group × News := ({ g with added := ∅, removed := ∅ }, ⟨g.removed, g.added⟩)

/-- Attach a listener, once. -/
def listen (l : ListenerId) : Option Group :=
  if l ∈ g.listeners then none else some { g with listeners := g.listeners ++ [l] }

/-- Detach a listener; the answer is whether it was attached. -/
def unlisten (l : ListenerId) : Group × Bool :=
  ({ g with listeners := g.listeners.filter (· ≠ l) }, decide (l ∈ g.listeners))

end Group

end EntityStore
