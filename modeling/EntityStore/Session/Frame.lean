import EntityStore.World.Entities
import EntityStore.World.Groups
import EntityStore.Manager.Time

/-!
# Requests, callbacks and what waits for them

A session is driven from outside.  Code outside makes *requests*; some of them are answered only
after code outside has been *called back*, and while it runs it may make requests of its own.
So a session keeps a stack: one `Frame` for each callback that is running, with what is still to be
done when it returns.

Nothing is assumed of the code outside, neither that its callbacks end nor that they spare the
manager that called them.
-/

namespace EntityStore

variable [Host]

/-- What can be asked of a session. -/
inductive Request where
  /-- Make a kind. -/
  | makeKind (name : String) (config : StoreConfig)
  /-- Declare a property of a kind. -/
  | declare (k : KindId) (name : String) (type : ValueType) (default : type.Carrier)
      (bounds : Option (Bounds type.Carrier))
  /-- Set the value of a holder. -/
  | setValue (k : KindId) (p : Property) (e : EntityId) (x : p.type.Carrier)
  /-- Give a kind to an entity. -/
  | addHolder (k : KindId) (e : EntityId)
  /-- Take a kind from an entity. -/
  | removeHolder (k : KindId) (e : EntityId)
  /-- Visit every holder of a kind. -/
  | walk (k : KindId)
  /-- Make an observer. -/
  | makeObserver
  /-- Drop an observer. -/
  | dropObserver (o : ObserverId)
  /-- Attach a kind to an observer. -/
  | attach (k : KindId) (number : Nat) (o : ObserverId)
  /-- Make a manager. -/
  | makeManager (config : ManagerConfig)
  /-- Drop a manager. -/
  | retire (m : ManagerId)
  /-- Register a kind. -/
  | registerKind (m : ManagerId) (k : KindId)
  /-- Register a new processor. -/
  | registerProcessor (m : ManagerId) (p : Processor)
  /-- Make an entity. -/
  | create (m : ManagerId) (kinds : List KindId)
  /-- Ask for the removal of an entity. -/
  | scheduleRemoval (m : ManagerId) (e : EntityId)
  /-- Give a live entity another kind. -/
  | addComponent (m : ManagerId) (e : EntityId) (k : KindId)
  /-- Take a kind from a live entity. -/
  | removeComponent (m : ManagerId) (e : EntityId) (k : KindId)
  /-- Find or make the group of a filter. -/
  | openGroup (m : ManagerId) (required forbidden : List KindId)
  /-- Make a listener. -/
  | makeListener
  /-- Attach a listener to a group. -/
  | listen (g : GroupRef) (l : ListenerId)
  /-- Detach a listener from a group. -/
  | unlisten (g : GroupRef) (l : ListenerId)
  /-- Initialise the processors of a manager. -/
  | initialise (m : ManagerId)
  /-- Run one tick of a manager. -/
  | update (m : ManagerId) (time : Time)
  /-- Shut a manager down. -/
  | shutDown (m : ManagerId)
  /-- Make a processor that no manager owns. -/
  | makeProcessor (p : Processor)
  /-- Initialise a processor for a manager that does not own it. -/
  | initialiseAlone (p : ProcessorId) (m : ManagerId)
  /-- Run one tick of such a processor. -/
  | updateAlone (p : ProcessorId) (m : ManagerId) (time : Time)
  /-- Shut such a processor down. -/
  | shutDownAlone (p : ProcessorId) (m : ManagerId)

/-- Why a request is not granted. -/
inductive Refusal where
  /-- A store refused. -/
  | store (cause : StoreError)
  /-- A manager refused. -/
  | manager (cause : ManagerError)
  /-- A callback failed. -/
  | callback (message : String)
  deriving DecidableEq, Repr

/-- The wording of a refusal. -/
def Refusal.message : Refusal → String
  | store cause => cause.message
  | manager cause => cause.message
  | callback message => message

/-- What a granted request yields. -/
inductive Granted where
  | done
  | flag (b : Bool)
  | number (n : Nat)
  | entity (e : EntityId)
  | property (p : Property)
  | group (g : GroupRef)
  | kind (k : KindId)
  | manager (m : ManagerId)
  | processor (p : ProcessorId)
  | listener (l : ListenerId)
  | observer (o : ObserverId)

/-- The answer to a request. -/
abbrev Reply := Except Refusal Granted

/-- How a callback returns: well, or with a message. -/
abbrev Outcome := Except String Unit

/-- How far a visitor has come in one tick. -/
inductive VisitStage where
  /-- Before the visits. -/
  | before
  /-- At one entity, with those that follow. -/
  | each (e : EntityId) (rest : List EntityId)
  /-- After the visits. -/
  | after
  deriving DecidableEq, Repr

/-- For whom a visitor runs. -/
inductive Errand where
  /-- For a tick of the manager, with the processors that follow. -/
  | tick (rest : List ProcessorId)
  /-- For no manager's tick. -/
  | alone
  deriving DecidableEq, Repr

/-- A running callback, and what is to be done when it returns. -/
inductive Frame where
  /-- A processor is initialised; others follow, and then perhaps a tick. -/
  | initialising (m : ManagerId) (p : ProcessorId) (rest : List ProcessorId) (next : Option Time)
  /-- A processor is updated; others follow. -/
  | updating (m : ManagerId) (p : ProcessorId) (time : Time) (rest : List ProcessorId)
  /-- A visitor is at one stage of its tick. -/
  | visiting (m : ManagerId) (p : ProcessorId) (time : Time) (stage : VisitStage) (errand : Errand)
  /-- A processor is shut down; others follow.  The first failure so far is kept. -/
  | stopping (m : ManagerId) (p : ProcessorId) (rest : List ProcessorId)
      (failure : Option ManagerError)
  /-- A listener is told of a change; other notices of the group and other groups follow. -/
  | notifying (g : GroupRef) (notice : Notice) (rest : List Notice) (groups : List Nat)
  /-- An observer is told of a holder; then the request is answered. -/
  | observing (o : ObserverId) (k : KindId) (e : EntityId) (change : MemberChange) (reply : Reply)
  /-- A holder is visited; others follow. -/
  | walking (k : KindId) (e : EntityId) (rest : List EntityId)

/-- The manager that is lent out while a frame is running. -/
def Frame.manager? : Frame → Option ManagerId
  | initialising m _ _ _ => some m
  | updating m _ _ _ => some m
  | visiting m _ _ _ _ => some m
  | stopping m _ _ _ => some m
  | notifying g _ _ _ => some g.manager
  | _ => none

/-- The manager whose processors are in use while a frame is running. -/
def Frame.engaged? : Frame → Option ManagerId
  | initialising m _ _ _ => some m
  | updating m _ _ _ => some m
  | visiting m _ _ _ (.tick _) => some m
  | stopping m _ _ _ => some m
  | _ => none

/-- The observer that is told of something while a frame is running. -/
def Frame.told? : Frame → Option ObserverId
  | observing o _ _ _ _ => some o
  | _ => none

/-- How a session goes on: code outside is called, or a request is answered. -/
inductive Progress where
  /-- A callback begins. -/
  | calls (frame : Frame)
  /-- The request is answered. -/
  | replies (reply : Reply)

namespace Progress

/-- The request is granted without anything to tell. -/
def done : Progress := replies (.ok .done)

/-- The request is refused by a manager. -/
def refuses (cause : ManagerError) : Progress := replies (.error (.manager cause))

end Progress

end EntityStore
