import EntityStore.Session.Frame

/-!
# Reports

What a scenario shows: the answer to each step, and a log of the callbacks that ran meanwhile and of
the steps of their scripts.
-/

namespace EntityStore.Scenario

variable [Host]

/-- What a step was answered with when it was granted. -/
inductive Shown where
  | nothing
  | flag (b : Bool)
  | number (n : Nat)
  | text (s : String)
  | texts (l : List String)
  | ids (l : List EntityId)
  | value (v : TypedValue)
  /-- A property and the name of its kind. -/
  | property (kind : String) (p : Property)
  /-- A kind, what stands at some of its blocks, and whether it has a property. -/
  | kind (k : Kind) (slots : List BlockState) (has : Option Bool)
  /-- The entities a walk visited, and what stopped its script. -/
  | walk (seen : List EntityId) (stopped : Option String)
  /-- The values of every property of every holder. -/
  | dump (rows : List (EntityId × List (Except StoreError TypedValue)))
  /-- The names in a filter, its description, and the answers to questions. -/
  | filter (required forbidden : List String) (description : String) (tests : List Bool)
  /-- The ends of a range of ids. -/
  | range (first last : EntityId)
  /-- How many entities are live, and which. -/
  | census (count : Nat) (ids : List EntityId)
  /-- The number and the members of a group. -/
  | opened (number : Nat) (members : List EntityId)
  /-- The number and the members of a group with their count. -/
  | group (number : Nat) (members : List EntityId)
  /-- The number, the names in the filter and the members of each group. -/
  | groups (rows : List (Nat × List String × List String × List EntityId))
  /-- Is a manager initialised, and is it shut down? -/
  | lifecycle (initialised shutDown : Bool)
  | time (t : Time)
  /-- The name of a processor and the number of its group. -/
  | alone (name : String) (group : Option Nat)

/-- The answer to a step. -/
abbrev Answer := Except Refusal Shown

/-- One line of a log. -/
inductive LogEntry where
  /-- A step of a script was answered. -/
  | answered (label step : String) (answer : Answer)
  /-- A processor was called. -/
  | called (label : String) (tick : Option Nat)
  /-- A visitor was called, perhaps for an entity. -/
  | visited (label : String) (tick : Nat) (entity : Option EntityId)
  /-- An observer was told of a holder of a kind. -/
  | observed (label : String) (entity : EntityId) (kind : String) (held : Bool) (count : Nat)
  /-- A listener was told of a member of a group. -/
  | notified (label : String) (entity : EntityId) (group : Nat) (member : Bool) (count : Nat)
  /-- A script of a listener or an observer failed. -/
  | stopped (label message : String)

end EntityStore.Scenario
