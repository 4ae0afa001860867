import EntityStore.World.Registration

/-!
# Groups of a manager

A manager has one group for each filter that was ever asked for.  A new group takes up the live
entities that pass, without news of them.
-/

namespace EntityStore.World

variable [Host] (w : World)

/-- The first of some kinds that is not registered with a manager. -/
def stranger? (m : ManagerId) (kinds : List KindId) : Option KindId :=
  kinds.find? fun k => !w.isRegistered m k

/-- A group for a filter that takes up the live entities of a manager. -/
def seededGroup (m : ManagerId) (f : Filter) : Group :=
  (w.manager m).allocator.live.toList.foldl
    (fun g e => g.seed e (f.accepts fun k => w.holds k e)) (Group.ofFilter f)

/-- The number of the group of a filter. -/
def groupNumber? (m : ManagerId) (required forbidden : List KindId) : Option Nat :=
  (w.manager m).groups.findIdx? fun g => g.filter.sameAs required forbidden

/-- The group of a filter, made if there is none yet. -/
def openGroup (m : ManagerId) (required forbidden : List KindId) :
    World × Except ManagerError GroupRef :=
  match w.stranger? m (required ++ forbidden) with
  | some k => (w, .error (.unregisteredKind (w.kindName k)))
  | none =>
    match w.groupNumber? m required forbidden with
    | some number => (w, .ok ⟨m, number⟩)
    | none =>
      let number := (w.manager m).groups.length
      let group := w.seededGroup m (Filter.of required forbidden)
      (w.updateManager m fun manager => { manager with groups := manager.groups ++ [group] },
        .ok ⟨m, number⟩)

/-- Attach a listener to a group. -/
def listen (g : GroupRef) (l : ListenerId) : World × Except ManagerError Unit :=
  match (w.group g).listen l with
  | some group => (w.updateGroup g fun _ => group, .ok ())
  | none => (w, .error (.duplicateListener g.number))

/-- Detach a listener from a group; the answer is whether it was attached. -/
def unlisten (g : GroupRef) (l : ListenerId) : World × Bool :=
  let (group, attached) := (w.group g).unlisten l
  (w.updateGroup g fun _ => group, attached)

/-- Take the news of a group: the calls to its listeners, and the world without that news. -/
def takeNews (g : GroupRef) : World × List Notice :=
  let (group, news) := (w.group g).drain
  (w.updateGroup g fun _ => group, news.notices group.listeners)

end EntityStore.World
