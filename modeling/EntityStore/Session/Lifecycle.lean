import EntityStore.Session.Frame

/-!
# Initialisation, ticks and shut-down

The phases of a manager's life, each up to the next callback.

* `World.runInits` initialises processors one after the other and then opens the manager for
  ticks, whatever has become of its life in between.
* `World.runUpdates` updates every processor, in order and up to the first failure.  Then, in
  `World.endTick`, the removals that are due are carried out and the news of every group is flushed
  (`World.flush`), group by group: the news of a group is taken when its turn comes.
* `World.runStops` shuts processors down, all of them, and keeps the first failure.
* `World.firstStage?` and `World.nextStage?` lead through the tick of a visitor, stage by stage.

A processor without callbacks of its own takes its step at once, and the phase goes on.
-/

namespace EntityStore.World

variable [Host] (w : World)

/-! ## Flushing -/

/-- Flush the groups of the listed numbers. -/
def flush (w : World) (m : ManagerId) : List Nat → World × Progress
  | [] => (w, .done)
  | number :: groups =>
    match w.takeNews ⟨m, number⟩ with
    | (w, []) => flush w m groups
    | (w, notice :: rest) => (w, .calls (.notifying ⟨m, number⟩ notice rest groups))

/-- The end of a tick: the removals that are due, and then the flush of every group. -/
def endTick (m : ManagerId) : World × Progress :=
  let w := w.removeAllDue m
  w.flush m (List.range (w.manager m).groups.length)

/-! ## Visitors -/

/-- Give a visitor the group of its filter. -/
def settleVisitor (p : ProcessorId) (v : Visitor) (m : ManagerId) :
    World × Except ManagerError Unit :=
  match w.openGroup m v.required v.forbidden with
  | (w, .ok g) =>
    (w.updateProcessor p fun processor =>
      { processor with body := .visitor { v with group := some g } }, .ok ())
  | (w, .error cause) => (w, .error cause)

/-- The callback of a visitor after its visits, if it has one. -/
def stageAfter? (v : Visitor) : Option VisitStage := if v.hasAfter then some .after else none

/-- The visit of the first of some entities, or what follows when there is none. -/
def stageEach? (v : Visitor) : List EntityId → Option VisitStage
  | [] => stageAfter? v
  | e :: rest => some (.each e rest)

/-- The first stage of a visitor's tick. -/
def firstStage? (v : Visitor) (g : GroupRef) : Option VisitStage :=
  if v.hasBefore then some .before else stageEach? v (w.group g).members.toList

/-- The stage that follows one that ended well.  The members are taken when the visits begin. -/
def nextStage? (v : Visitor) (g : GroupRef) : VisitStage → Option VisitStage
  | .before => stageEach? v (w.group g).members.toList
  | .each _ rest => stageEach? v rest
  | .after => none

/-- The text of the failure of a visitor that has no group yet. -/
def unpreparedText (name : String) : String := s!"entity processor '{name}' updated before init"

/-! ## Ticks -/

/-- Update the listed processors of a manager and end the tick. -/
def runUpdates (w : World) (m : ManagerId) (time : Time) : List ProcessorId → World × Progress
  | [] => w.endTick m
  | p :: rest =>
    match (w.processor p).body with
    | .custom => (w, .calls (.updating m p time rest))
    | .visitor v =>
      match v.group with
      | none =>
        let name := (w.processor p).name
        (w, .refuses (.processor name (unpreparedText name)))
      | some g =>
        match w.firstStage? v g with
        | some stage => (w, .calls (.visiting m p time stage (.tick rest)))
        | none => runUpdates w m time rest

/-- Initialise the listed processors, those that are not initialised yet, and go on with the tick
that asked for it. -/
def runInits (w : World) (m : ManagerId) (next : Option Time) : List ProcessorId → World × Progress
  | [] =>
    let w := w.updateManager m fun manager => { manager with lifecycle := .running }
    match next with
    | none => (w, .done)
    | some time => w.runUpdates m time (w.manager m).processors
  | p :: rest =>
    match (w.processor p).body with
    | .custom => (w, .calls (.initialising m p rest next))
    | .visitor v =>
      match w.settleVisitor p v m with
      | (w, .error cause) => (w, .refuses (.processor (w.processor p).name cause.message))
      | (w, .ok ()) =>
        let w := w.updateManager m fun manager =>
          { manager with initialised := manager.initialised + 1 }
        runInits w m next rest

/-- Shut the listed processors down. -/
def runStops (w : World) (m : ManagerId) (failure : Option ManagerError) :
    List ProcessorId → World × Progress
  | [] =>
    match failure with
    | none => (w, .done)
    | some cause => (w, .refuses cause)
  | p :: rest =>
    match (w.processor p).body with
    | .custom => (w, .calls (.stopping m p rest failure))
    | .visitor _ => runStops w m failure rest

/-- The processors of a manager that are not initialised yet. -/
def uninitialised (m : ManagerId) : List ProcessorId :=
  (w.manager m).processors.drop (w.manager m).initialised

/-- Answer a request to initialise a manager, whose processors may be engaged. -/
def initialise (m : ManagerId) (engaged : Bool) : World × Progress :=
  match (w.manager m).lifecycle with
  | .running => (w, .done)
  | .shutDown => (w, .refuses .shutDown)
  | .setup =>
    if engaged then (w, .refuses .reentrant) else w.runInits m none (w.uninitialised m)

/-- Answer a request for a tick. -/
def update (m : ManagerId) (time : Time) (engaged : Bool) : World × Progress :=
  match (w.manager m).lifecycle with
  | .shutDown => (w, .refuses .shutDown)
  | .running =>
    if engaged then (w, .refuses .reentrant) else w.runUpdates m time (w.manager m).processors
  | .setup =>
    if engaged then (w, .refuses .reentrant) else w.runInits m (some time) (w.uninitialised m)

/-- Answer a request to shut a manager down.  The life of the manager ends first; only then is it
asked whether its processors are engaged. -/
def shutDown (m : ManagerId) (engaged : Bool) : World × Progress :=
  let manager := w.manager m
  let w := w.updateManager m fun manager => { manager with lifecycle := .shutDown }
  if manager.lifecycle = .shutDown then (w, .done)
  else if engaged then (w, .refuses .reentrant)
  else w.runStops m none (manager.processors.take manager.initialised)

/-! ## Processors without a manager of their own -/

/-- Answer a request to initialise a processor that no manager owns. -/
def initialiseAlone (p : ProcessorId) (m : ManagerId) : World × Progress :=
  match (w.processor p).body with
  | .custom => (w, .done)
  | .visitor v =>
    match w.settleVisitor p v m with
    | (w, .error cause) => (w, .refuses cause)
    | (w, .ok ()) => (w, .done)

/-- Answer a request for a tick of a processor that no manager owns. -/
def updateAlone (p : ProcessorId) (m : ManagerId) (time : Time) : World × Progress :=
  match (w.processor p).body with
  | .custom => (w, .done)
  | .visitor v =>
    match v.group with
    | none => (w, .replies (.error (.callback (unpreparedText (w.processor p).name))))
    | some g =>
      match w.firstStage? v g with
      | some stage => (w, .calls (.visiting m p time stage .alone))
      | none => (w, .done)

/-! ## When a callback returns -/

/-- Go on after a processor has been initialised. -/
def afterInit (m : ManagerId) (p : ProcessorId) (rest : List ProcessorId) (next : Option Time) :
    Outcome → World × Progress
  | .error message => (w, .refuses (.processor (w.processor p).name message))
  | .ok () =>
    let w := w.updateManager m fun manager =>
      { manager with initialised := manager.initialised + 1 }
    w.runInits m next rest

/-- Go on after a processor has been updated. -/
def afterUpdate (m : ManagerId) (p : ProcessorId) (time : Time) (rest : List ProcessorId) :
    Outcome → World × Progress
  | .error message => (w, .refuses (.processor (w.processor p).name message))
  | .ok () => w.runUpdates m time rest

/-- Go on after a processor has been shut down. -/
def afterStop (m : ManagerId) (p : ProcessorId) (rest : List ProcessorId)
    (failure : Option ManagerError) : Outcome → World × Progress
  | .ok () => w.runStops m failure rest
  | .error message =>
    let cause := ManagerError.processor (w.processor p).name message
    w.runStops m (failure.or (some cause)) rest

/-- The stage that follows one of a visitor that ended well. -/
def followingStage? (p : ProcessorId) (stage : VisitStage) : Option VisitStage :=
  match (w.processor p).body with
  | .custom => none
  | .visitor v =>
    match v.group with
    | none => none
    | some g => w.nextStage? v g stage

/-- Go on after a stage of a visitor. -/
def afterVisit (m : ManagerId) (p : ProcessorId) (time : Time) (stage : VisitStage)
    (errand : Errand) : Outcome → World × Progress
  | .error message =>
    match errand with
    | .alone => (w, .replies (.error (.callback message)))
    | .tick _ => (w, .refuses (.processor (w.processor p).name message))
  | .ok () =>
    match w.followingStage? p stage, errand with
    | some stage, errand => (w, .calls (.visiting m p time stage errand))
    | none, .alone => (w, .done)
    | none, .tick rest => w.runUpdates m time rest

/-- Go on after a listener has been told. -/
def afterNotice (g : GroupRef) (rest : List Notice) (groups : List Nat) : World × Progress :=
  match rest with
  | notice :: rest => (w, .calls (.notifying g notice rest groups))
  | [] => w.flush g.manager groups

end EntityStore.World
