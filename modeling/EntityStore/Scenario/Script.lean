import EntityStore.Manager.Config
import EntityStore.Manager.Time
import EntityStore.Store.Config
import EntityStore.Value.Notation

/-!
# Scripts

A scenario plays the code outside a session.  It is a list of steps; each step does one thing to
the kinds and managers, which it names by handles of its own.  Processors, listeners, observers and
walks are given scripts, which are lists of steps too and are run inside the callback.

A step of a script can be guarded, so that it runs only in one call of the callback, in one tick
or for one entity, and it can be an attempt, which ends the callback when it is refused.
-/

namespace EntityStore.Scenario

variable [CustomTypes]

/-- When a step of a script runs: in the call, tick and for the entity of these numbers. -/
structure Guard where
  /-- The number of the call of the callback. -/
  call : Option Nat
  /-- The number of the tick. -/
  tick : Option Nat
  /-- The entity of the callback. -/
  entity : Option EntityId

/-- A question to a filter. -/
inductive FilterTest where
  | requires (kind : String)
  | forbids (kind : String)
  | accepts (e : EntityId)
  | acceptsKinds (kinds : List String)
  | sameAs (required forbidden : List String)
  | sameAsRequired (required : List String)

/-- What is to be described. -/
inductive Subject where
  | kind (kind : String)
  | property (kind property : String)
  | group (group : String)
  | manager

mutual

/-- One thing that a step does. -/
inductive Operation where
  /-- End the callback with a failure. -/
  | fail (message : String)
  | makeKind (kind name : String) (config : StoreConfig)
  | declare (kind property name : String) (type : ValueType) (default : type.Carrier)
      (bounds : Option (type.Carrier × type.Carrier))
  | propertyCard (kind property : String)
  | kindCard (kind : String) (slots : List Nat) (has : Option String)
  | add (kind : String)
  | del (kind : String)
  | has (kind : String)
  | block (kind : String)
  | get (kind property : String)
  | set (kind property : String) (value : Written)
  | offset (kind property : String)
  | bump (kind property : String) (amount : Int)
  | walk (kind : String) (script : List Step)
  | dump (kind : String)
  | makeObserver (observer : String) (joined left : List Step)
  | attach (kind observer : String) (number : Nat)
  | dropObserver (observer : String)
  | filter (required forbidden : List String) (tests : List FilterTest)
  | makeManager (config : ManagerConfig)
  | dropManager
  | register (kind : String)
  | lookUp (name : String)
  | registered
  | processors
  | create (kinds : List String)
  | remove
  | addComponent (kind : String)
  | removeComponent (kind : String)
  | alive
  | pending
  | census
  | openGroup (group : String) (required forbidden : List String)
  | groups
  | groupCard (group : String)
  | groupHas (group : String)
  | groupMatches (group : String) (required forbidden : List String)
  | makeListener (listener : String) (joined left : List Step)
  | listen (group listener : String)
  | unlisten (group listener : String)
  | init
  | update
  | tick (delta : Duration)
  | shutDown
  | lifecycle
  | time
  | registerProcessor (p : ProcessorScript)
  | makeAlone (p : ProcessorScript)
  | initAlone (name : String)
  | updateAlone (name : String)
  | shutDownAlone (name : String)
  | groupAlone (name : String)
  | describe (subject : Subject)

/-- A step: when it runs, whether it is an attempt, the manager and the entity it names, and what
it does.  The label is what reports call it. -/
inductive Step where
  | mk (label : String) (guard : Guard) (attempt : Bool) (manager : Option String)
      (entity : Option EntityId) (operation : Operation)

/-- The scripts of a processor. -/
inductive ProcessorScript where
  /-- Everything is scripted; what has no script is left out. -/
  | scripted (name : String) (init update shutDown : Option (List Step))
  /-- The members of a group are visited. -/
  | visiting (name : String) (required forbidden : List String) (before : Option (List Step))
      (each : List Step) (after : Option (List Step))

end

end EntityStore.Scenario
