import EntityStore.World.Registration

/-!
# Entities of a manager

Entities come to be at once and with all their kinds, or not at all; their removal is asked for at
any time and happens in the next tick, in ascending order of the ids.
-/

namespace EntityStore.World

variable [Host] (w : World)

/-- Is an id live? -/
def isAlive (m : ManagerId) (e : EntityId) : Bool := (w.manager m).allocator.isLive e

/-- Make an id of a manager free for reuse. -/
def release (m : ManagerId) (e : EntityId) : World :=
  w.updateManager m fun manager => { manager with allocator := (manager.allocator.release e).1 }

/-- What is wrong with a list of kinds: a kind is not registered, or came earlier in the list. -/
def kindFault? (m : ManagerId) (earlier : List KindId) : List KindId → Option ManagerError
  | [] => none
  | k :: rest =>
    if !w.isRegistered m k then some (.unregisteredKind (w.kindName k))
    else if k ∈ earlier then some (.repeatedKind (w.kindName k))
    else kindFault? m (earlier ++ [k]) rest

/-- Take some kinds from an entity. -/
def strip (e : EntityId) (kinds : List KindId) : World :=
  kinds.foldl (fun w k => (w.removeHolder k e).1) w

/-- Give kinds to an entity one by one; when one is refused, those it was given are taken away. -/
def equip (w : World) (e : EntityId) (given : List KindId) :
    List KindId → World × Except StoreError Unit
  | [] => (w, .ok ())
  | k :: rest =>
    match w.addHolder k e with
    | (w, .ok ()) => equip w e (given ++ [k]) rest
    | (w, .error cause) => (w.strip e given, .error cause)

/-- Make an entity that holds the listed kinds. -/
def create (m : ManagerId) (kinds : List KindId) : World × Except ManagerError EntityId :=
  if (w.manager m).lifecycle = .shutDown then (w, .error .shutDown)
  else
    match w.kindFault? m [] kinds with
    | some fault => (w, .error fault)
    | none =>
      match (w.manager m).allocator.allocate with
      | .error cause => (w, .error cause)
      | .ok (e, allocator) =>
        let w := w.updateManager m fun manager => { manager with allocator := allocator }
        match w.equip e [] kinds with
        | (w, .error cause) => (w.release m e, .error (.store cause))
        | (w, .ok ()) =>
          (w.updateGroups m fun g => g.entityCreated e kinds fun k => w.holds k e, .ok e)

/-- Ask for the removal of an id; the answer is whether it was not due already. -/
def scheduleRemoval (m : ManagerId) (e : EntityId) : World × Bool :=
  (w.updateManager m fun manager => { manager with pending := manager.pending.insert e },
    !(w.manager m).isPending e)

/-- What keeps a manager from changing a kind of an entity. -/
def changeFault? (m : ManagerId) (e : EntityId) (k : KindId) : Option ManagerError :=
  if !w.isRegistered m k then some (.unregisteredKind (w.kindName k))
  else if !w.isAlive m e then some (.unknownEntity e)
  else none

/-- Give a live entity another kind. -/
def addComponent (m : ManagerId) (e : EntityId) (k : KindId) : World × Except ManagerError Unit :=
  match w.changeFault? m e k with
  | some fault => (w, .error fault)
  | none =>
    let (w, result) := w.addHolder k e
    (w, result.mapError ManagerError.store)

/-- Take a kind from a live entity; the answer is whether it held it. -/
def removeComponent (m : ManagerId) (e : EntityId) (k : KindId) :
    World × Except ManagerError Bool :=
  match w.changeFault? m e k with
  | some fault => (w, .error fault)
  | none =>
    let (w, held) := w.removeHolder k e
    (w, .ok held)

/-- Carry out the removal of one id that is due: nothing happens to an id that is not live. -/
def removeDue (m : ManagerId) (e : EntityId) : World :=
  let w := w.updateManager m fun manager => { manager with pending := manager.pending.erase e }
  if w.isAlive m e then
    let w := w.strip e (w.manager m).kinds
    let w := w.updateGroups m fun g => g.entityRemoved e
    w.release m e
  else w

/-- Carry out every removal that is due, in ascending order of the ids. -/
def removeAllDue (m : ManagerId) : World :=
  (w.manager m).pending.toList.foldl (fun w e => w.removeDue m e) w

end EntityStore.World
