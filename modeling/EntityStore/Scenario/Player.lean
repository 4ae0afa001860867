import EntityStore.Scenario.Handles
import EntityStore.Scenario.Report
import EntityStore.Session.Basic

/-!
# Players

A player carries a scenario out.  It holds the session, the handles, the scripts of the callbacks
with the number of their calls, and a stack of what it is doing: steps that wait for their answer
and scripts that are run inside a callback.

This module holds that state and how a player speaks with its session.  What each operation of a
step asks for is in `EntityStore.Scenario.Performance`, and how a scenario goes on from move to
move is in `EntityStore.Scenario.Play`.
-/

namespace EntityStore.Scenario

variable [Host]

/-- Why a scenario cannot go on. -/
inductive Halt where
  /-- A step names what is not there or gives what does not fit. -/
  | unintelligible
  /-- A new block cannot be filled from its template. -/
  | misfit
  /-- The elapsed time grows past its limit. -/
  | timeOverflow
  deriving DecidableEq, Repr

/-- The callbacks that can have a script. -/
inductive CallbackKey where
  | init (p : ProcessorId)
  | update (p : ProcessorId)
  | shutDown (p : ProcessorId)
  | before (p : ProcessorId)
  | each (p : ProcessorId)
  | after (p : ProcessorId)
  | listener (l : ListenerId) (change : MemberChange)
  | observer (o : ObserverId) (change : MemberChange)
  deriving DecidableEq, Repr

/-- The script of a callback. -/
structure Routine where
  /-- The callback. -/
  key : CallbackKey
  /-- What logs call it. -/
  label : String
  /-- What is done in each call. -/
  script : List Step
  /-- How often it has been called. -/
  calls : Nat

/-- What the steps of a running script can refer to. -/
structure Context where
  /-- What logs call the callback. -/
  label : String
  /-- The manager the callback was given. -/
  manager : Option ManagerId
  /-- The entity the callback was given. -/
  entity : Option EntityId
  /-- The time the callback was given. -/
  time : Option Time
  /-- The number of this call, from one. -/
  call : Nat

/-- The context of the steps that are in no script. -/
def Context.outermost : Context := ⟨"", none, none, none, 0⟩

/-- A step that waits for its answer. -/
structure Waiting where
  /-- What reports call the step. -/
  label : String
  /-- The context in which it runs. -/
  context : Context
  /-- The manager that it names. -/
  named : Option String
  /-- Does a refusal end the callback? -/
  attempt : Bool
  /-- What the step does. -/
  operation : Operation
  /-- The entities that a walk has visited. -/
  seen : List EntityId
  /-- What stopped the script of a walk. -/
  stopped : Option String

/-- What the end of a script means. -/
inductive Purpose where
  /-- The callback returns as the script ended. -/
  | outcome
  /-- The callback returns well, and a failure is logged. -/
  | told
  /-- The callback returns well, and a failure stops the script of the walk. -/
  | visit
  deriving DecidableEq, Repr

/-- A script that is being run. -/
structure Running where
  /-- What its steps can refer to. -/
  context : Context
  /-- The steps still to be run. -/
  rest : List Step
  /-- What the end of the script means. -/
  purpose : Purpose

/-- What a player is doing. -/
inductive Activity where
  | waiting (w : Waiting)
  | running (r : Running)

/-- What a player has to take up next. -/
inductive Signal where
  /-- The next step of the innermost script. -/
  | proceed
  /-- What the session did. -/
  | progress (p : Progress)
  /-- The answer to the innermost waiting step. -/
  | answer (a : Answer)

/-- A scenario that is being carried out. -/
structure Player where
  session : Session
  handles : Handles
  routines : List Routine
  /-- The time of the last tick of the scenario. -/
  time : Time
  /-- The log of the current step, the newest entry first. -/
  log : List LogEntry
  /-- What is being done, the innermost first. -/
  stack : List Activity

/-- A move that may be impossible. -/
abbrev Move (α : Type) := Except Halt α

/-- What has to be there. -/
def required {α : Type} : Option α → Move α
  | some x => .ok x
  | none => .error .unintelligible

/-- The handle of the manager that a step means when nothing names one. -/
def mainManager : String := "main"

namespace Player

/-- A player at the start of a scenario. -/
def start : Player := ⟨Session.start, Handles.empty, [], Time.start, [], []⟩

variable (p : Player)

/-- The world of the session. -/
def world : World := p.session.world

/-- Write to the log. -/
def note (entry : LogEntry) : Player := { p with log := entry :: p.log }

/-- Begin to do something inside what is being done. -/
def push (a : Activity) : Player := { p with stack := a :: p.stack }

/-- Give a callback a script. -/
def addRoutine (key : CallbackKey) (label : String) (script : List Step) : Player :=
  { p with routines := p.routines ++ [⟨key, label, script, 0⟩] }

/-- Give a callback a script, if there is one. -/
def addRoutine? (key : CallbackKey) (label : String) : Option (List Step) → Player
  | some script => p.addRoutine key label script
  | none => p

/-! ## What steps refer to -/

/-- The kind of a handle. -/
def kind (handle : String) : Move KindId := required (p.handles.kinds.find? handle)

/-- The kinds of some handles. -/
def kinds (handles : List String) : Move (List KindId) := handles.mapM p.kind

/-- The group of a handle. -/
def group (handle : String) : Move GroupRef := required (p.handles.groups.find? handle)

/-- The property of a handle. -/
def property (k : KindId) (handle : String) : Move Property :=
  required (p.handles.property? k handle)

/-- The manager that a step means: the one it names, or that of its context, or the main one. -/
def manager (named : Option String) (c : Context) : Move ManagerId :=
  match named, c.manager with
  | some handle, _ => required (p.handles.managers.find? handle)
  | none, some m => .ok m
  | none, none => required (p.handles.managers.find? mainManager)

/-- The store of a kind. -/
def store (k : KindId) : Store := (p.world.kind k).store

/-! ## Requests and answers -/

/-- Make a request of the session. -/
def ask (r : Request) : Move (Player × Signal) :=
  match p.session.act (.request r) with
  | some (session, progress) => .ok ({ p with session := session }, .progress progress)
  | none => .error .unintelligible

/-- Return from the innermost callback of the session. -/
def finish (outcome : Outcome) : Move (Player × Signal) :=
  match p.session.act (.finish outcome) with
  | some (session, progress) => .ok ({ p with session := session }, .progress progress)
  | none => .error .unintelligible

/-- Answer a step at once. -/
def present (s : Shown) : Move (Player × Signal) := .ok (p, .answer (.ok s))

/-- Answer a step at once with what a store says. -/
def presentStored (result : Except StoreError Shown) : Move (Player × Signal) :=
  .ok (p, .answer (result.mapError Refusal.store))

end Player

end EntityStore.Scenario
