import EntityStore.Group.Basic
import EntityStore.Manager.Allocator
import EntityStore.Store.Property

/-!
# Worlds

All that lives beside each other: kinds, managers, processors and observers.  Each is known by its
place among all of its sort that were ever made, so a kind or a manager has one identity for good.

A kind may be attached once, either to a manager, whose groups then hear of its holders, or to an
observer outside.  A manager that is dropped is *retired*: its kinds stay attached, but its groups
hear nothing any more.

What a world needs from outside is its `Host`: the types of the application and the machine.

This module holds the parts and how they are looked up and replaced.  A place where nothing was
made reads as an empty kind or as a manager that is shut down, and replacing it changes nothing.
-/

namespace EntityStore

/-- The identity of a manager. -/
structure ManagerId where
  /-- The place among all managers that were ever made. -/
  place : Nat
  deriving DecidableEq, Repr

/-- The identity of a processor. -/
structure ProcessorId where
  /-- The place among all processors that were ever made. -/
  place : Nat
  deriving DecidableEq, Repr

/-- The identity of an observer. -/
structure ObserverId where
  /-- The place among all observers that were ever made. -/
  place : Nat
  deriving DecidableEq, Repr

/-- A group of a manager.  Numbers of groups have thirty-two bits; here they are not bounded, which
comes to the same as long as a manager makes no more than `2 ^ 32` groups. -/
structure GroupRef where
  /-- The manager. -/
  manager : ManagerId
  /-- The number of the group, its place among the groups of the manager. -/
  number : Nat
  deriving DecidableEq, Repr

/-- Who hears of the holders of an attached kind. -/
inductive Watcher where
  /-- The groups of a manager. -/
  | manager (m : ManagerId)
  /-- An observer outside. -/
  | outside (o : ObserverId)
  deriving DecidableEq, Repr

/-- How a kind is attached.  Numbers of kinds have thirty-two bits; here they are not bounded, which
comes to the same as long as no more than `2 ^ 32` kinds are registered with a manager, and an observer
is given numbers of thirty-two bits. -/
structure Attachment where
  /-- The number under which it is attached. -/
  number : Nat
  /-- Who hears of its holders. -/
  watcher : Watcher
  deriving DecidableEq, Repr

/-- What worlds are hosted by: an application with types of its own, and a machine. -/
class Host extends CustomTypes where
  /-- The machine that stores run on. -/
  machine : Machine

/-- An application without types of its own on the standard machine. -/
@[reducible] def Host.plain : Host := { CustomTypes.none with machine := .standard }

variable [Host]

/-- A kind: its store, and how it is attached. -/
structure Kind where
  /-- The properties and the holders. -/
  store : Store
  /-- How the kind is attached, once it is. -/
  attachment : Option Attachment

/-- Where a manager stands in its life. -/
inductive Lifecycle where
  | setup
  | running
  | shutDown
  deriving DecidableEq, Repr

/-- A manager: the ids it issues, the kinds registered with it, its groups and its processors. -/
structure Manager where
  /-- The range of ids. -/
  config : ManagerConfig
  /-- The registered kinds, in the order of registration. -/
  kinds : List KindId
  /-- The numbers of the registered kinds by their names, the newest first. -/
  names : List (String × Nat)
  /-- The live ids. -/
  allocator : Allocator
  /-- The ids whose removal is due at the next tick. -/
  pending : IdSet
  /-- The groups, in the order of their creation. -/
  groups : List Group
  /-- The processors, in the order of registration. -/
  processors : List ProcessorId
  /-- How many processors have completed their initialisation. -/
  initialised : Nat
  /-- Where the manager stands in its life. -/
  lifecycle : Lifecycle
  /-- Was the manager dropped? -/
  retired : Bool

/-- A processor that visits every member of a group in each tick. -/
structure Visitor where
  /-- The kinds a visited entity holds. -/
  required : List KindId
  /-- The kinds it does not hold. -/
  forbidden : List KindId
  /-- Is there a callback before the visits? -/
  hasBefore : Bool
  /-- Is there a callback after the visits? -/
  hasAfter : Bool
  /-- The visited group, once the processor is initialised. -/
  group : Option GroupRef
  deriving DecidableEq, Repr

/-- What a processor does when it is called. -/
inductive ProcessorBody where
  /-- Everything is left to callbacks. -/
  | custom
  /-- The members of a group are visited. -/
  | visitor (v : Visitor)
  deriving DecidableEq, Repr

/-- A processor: its name and what it does. -/
structure Processor where
  /-- The name, unique in its manager. -/
  name : String
  /-- What the processor does. -/
  body : ProcessorBody
  deriving DecidableEq, Repr

/-- A manager that has issued nothing. -/
def Manager.ofConfig (c : ManagerConfig) : Manager :=
  ⟨c, [], [], Allocator.ofConfig c, ∅, [], [], 0, .setup, false⟩

/-- What stands where no manager was made. -/
def Manager.absent : Manager :=
  { Manager.ofConfig ManagerConfig.default with lifecycle := .shutDown, retired := true }

/-- A kind without holders. -/
def Kind.make (name : String) (config : StoreConfig) : Kind := ⟨Store.empty name config, none⟩

/-- What stands where no kind was made. -/
def Kind.absent : Kind := Kind.make "" StoreConfig.default

/-- The number under which a kind is attached. -/
def Kind.number? (k : Kind) : Option Nat := k.attachment.map Attachment.number

/-- The group of a number; where there is none, an empty one. -/
def Manager.group (m : Manager) (number : Nat) : Group :=
  m.groups.getD number (Group.ofFilter ⟨[], []⟩)

/-- Is an id due for removal? -/
def Manager.isPending (m : Manager) (e : EntityId) : Bool := decide (e ∈ m.pending)

/-- The kinds, managers, processors and observers that were made. -/
structure World where
  /-- The kinds. -/
  kinds : List Kind
  /-- The managers. -/
  managers : List Manager
  /-- The processors. -/
  processors : List Processor
  /-- For each observer whether it is still there. -/
  observers : List Bool
  /-- The number of listeners. -/
  listeners : Nat

namespace World

/-- A world in which nothing was made. -/
def empty : World := ⟨[], [], [], [], 0⟩

variable (w : World)

/-- The kind of an identity. -/
def kind (k : KindId) : Kind := w.kinds.getD k.place Kind.absent

/-- The manager of an identity. -/
def manager (m : ManagerId) : Manager := w.managers.getD m.place Manager.absent

/-- The processor of an identity. -/
def processor (p : ProcessorId) : Processor := w.processors.getD p.place ⟨"", .custom⟩

/-- The group of a reference. -/
def group (g : GroupRef) : Group := (w.manager g.manager).group g.number

/-- The name of a kind. -/
def kindName (k : KindId) : String := (w.kind k).store.name

/-- Does an entity hold a kind? -/
def holds (k : KindId) (e : EntityId) : Bool := (w.kind k).store.contains e

/-- Replace a kind. -/
def updateKind (k : KindId) (change : Kind → Kind) : World :=
  { w with kinds := w.kinds.modify k.place change }

/-- Replace the store of a kind. -/
def setStore (k : KindId) (store : Store) : World :=
  w.updateKind k fun kind => { kind with store := store }

/-- Replace a manager. -/
def updateManager (m : ManagerId) (change : Manager → Manager) : World :=
  { w with managers := w.managers.modify m.place change }

/-- Replace the groups of a manager. -/
def updateGroups (m : ManagerId) (change : Group → Group) : World :=
  w.updateManager m fun manager => { manager with groups := manager.groups.map change }

/-- Replace one group. -/
def updateGroup (g : GroupRef) (change : Group → Group) : World :=
  w.updateManager g.manager fun manager =>
    { manager with groups := manager.groups.modify g.number change }

/-- Replace a processor. -/
def updateProcessor (p : ProcessorId) (change : Processor → Processor) : World :=
  { w with processors := w.processors.modify p.place change }

end World

end EntityStore
