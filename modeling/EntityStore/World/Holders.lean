import EntityStore.World.Basic

/-!
# Holders of kinds

Giving a kind to an entity and taking it away, outside any manager.  The store changes first; then
the groups of the manager that the kind is attached to re-test the entity.  Whether an observer
outside is to be told as well is for the caller to ask (`World.outsideObserver?`).
-/

namespace EntityStore.World

variable [Host] (w : World)

/-- Let the groups that hear of a kind re-test an entity. -/
def informGroups (k : KindId) (e : EntityId) : World :=
  match (w.kind k).attachment with
  | some ⟨_, .manager m⟩ =>
    if (w.manager m).retired then w
    else w.updateGroups m fun g => g.kindChanged k e fun k => w.holds k e
  | _ => w

/-- Give a kind to an entity. -/
def addHolder (k : KindId) (e : EntityId) : World × Except StoreError Unit :=
  let (store, result) := (w.kind k).store.insert Host.machine e
  let changed := w.setStore k store
  match result with
  | .error cause => (changed, .error cause)
  | .ok () => (changed.informGroups k e, .ok ())

/-- Take a kind from an entity; the answer is whether it held it. -/
def removeHolder (k : KindId) (e : EntityId) : World × Bool :=
  let (store, held) := (w.kind k).store.remove Host.machine e
  let changed := w.setStore k store
  (if held then changed.informGroups k e else changed, held)

/-- The observer outside that hears of a kind, if it is still there: it was not dropped, or it is
being told of something at the moment and so cannot go yet. -/
def outsideObserver? (k : KindId) (told : ObserverId → Bool) : Option ObserverId :=
  match (w.kind k).attachment with
  | some ⟨_, .outside o⟩ => if w.observers.getD o.place false || told o then some o else none
  | _ => none

/-- Attach a kind, unless it is attached already. -/
def attach (k : KindId) (a : Attachment) : World × Except StoreError Unit :=
  match (w.kind k).attachment with
  | some _ => (w, .error (.alreadyRegistered (w.kindName k)))
  | none => (w.updateKind k fun kind => { kind with attachment := some a }, .ok ())

end EntityStore.World
