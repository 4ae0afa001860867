import EntityStore.Scenario.Performance

/-!
# Play

How a scenario goes on.  `Player.begin` takes up one step of it and `Player.advance` is the next
move; a step is carried out by advancing until it is answered.  Every move is a total function.
Nothing bounds their number, because nothing keeps scripts from calling each other for ever.
-/

namespace EntityStore.Scenario

variable [Host] [CustomNotation]

/-- Does a step of a script run in a context? -/
def Guard.admits (g : Guard) (c : Context) : Bool :=
  g.call.all (· = c.call)
    && g.tick.all (fun n => (c.time.map Time.tick) = some n)
    && g.entity.all (fun e => c.entity = some e)

/-- What comes of a move. -/
inductive Turn where
  /-- There is more to do. -/
  | next (p : Player) (s : Signal)
  /-- The step is answered. -/
  | answered (p : Player) (a : Answer)
  /-- The scenario cannot go on. -/
  | halted (h : Halt)

namespace Player

variable (p : Player)

/-! ## Scripts -/

/-- End the innermost script. -/
def leave (r : Running) (outcome : Outcome) : Move (Player × Signal) :=
  match r.purpose, outcome with
  | .outcome, outcome => p.finish outcome
  | .told, .error message => (p.note (.stopped r.context.label message)).finish (.ok ())
  | .told, .ok () => p.finish (.ok ())
  | .visit, .ok () => p.finish (.ok ())
  | .visit, .error message =>
    match p.stack with
    | .waiting w :: stack =>
      let told : Waiting := { w with stopped := some message }
      let p : Player := { p with stack := .waiting told :: stack }
      p.finish (.ok ())
    | _ => .error .unintelligible

/-- Run the next step of the innermost script, or end the script. -/
def runNext (r : Running) : Move (Player × Signal) :=
  match r.rest with
  | [] => p.leave r (.ok ())
  | step :: rest =>
    let p' := p.push (.running { r with rest := rest })
    match step with
    | .mk _ guard _ _ _ operation =>
      if guard.admits r.context then
        match operation with
        | .fail message => p.leave r (.error message)
        | _ => p'.take r.context step
      else .ok (p', .proceed)

/-- Begin a script for a callback. -/
def enterScript (c : Context) (script : List Step) (purpose : Purpose) : Move (Player × Signal) :=
  .ok (p.push (.running ⟨c, script, purpose⟩), .proceed)

/-- Count a call of a routine: the routine with its new count, if the callback has one. -/
def call? (key : CallbackKey) : Player × Option Routine :=
  let counted := p.routines.map fun r => if r.key = key then { r with calls := r.calls + 1 } else r
  ({ p with routines := counted }, counted.find? (·.key = key))

/-- Begin the script of a callback of a processor. -/
def enterProcessor (key : CallbackKey) (m : ManagerId) (time : Option Time)
    (entity : Option EntityId) (entry : String → LogEntry) : Move (Player × Signal) :=
  match p.call? key with
  | (p, none) => p.finish (.ok ())
  | (p, some r) =>
    (p.note (entry r.label)).enterScript ⟨r.label, some m, entity, time, r.calls⟩ r.script .outcome

/-- Begin the script of a callback of a listener or an observer. -/
def enterTold (key : CallbackKey) (e : EntityId) (entry : String → LogEntry) :
    Move (Player × Signal) :=
  match p.call? key with
  | (p, none) => p.finish (.ok ())
  | (p, some r) =>
    (p.note (entry r.label)).enterScript ⟨r.label, none, some e, none, r.calls⟩ r.script .told

/-- Take up one visit of a walk; once its script was stopped, the rest is visited without it. -/
def enterVisit (e : EntityId) : Move (Player × Signal) :=
  match p.stack with
  | .waiting w :: stack =>
    let seen := w.seen ++ [e]
    let told : Waiting := { w with seen := seen }
    let p : Player := { p with stack := .waiting told :: stack }
    match w.operation, w.stopped with
    | .walk _ script, none =>
      let outer := w.context
      let label := if outer.label.isEmpty then "for_each" else outer.label ++ "/for_each"
      p.enterScript ⟨label, outer.manager, some e, outer.time, seen.length⟩ script .visit
    | _, _ => p.finish (.ok ())
  | _ => .error .unintelligible

/-- Take up a callback of the session. -/
def enter : Frame → Move (Player × Signal)
  | .initialising m id _ _ => p.enterProcessor (.init id) m none none fun l => .called l none
  | .updating m id time _ =>
    p.enterProcessor (.update id) m (some time) none fun l => .called l (some time.tick)
  | .stopping m id _ _ => p.enterProcessor (.shutDown id) m none none fun l => .called l none
  | .visiting m id time stage _ =>
    let tick := time.tick
    match stage with
    | .before => p.enterProcessor (.before id) m (some time) none fun l => .visited l tick none
    | .each e _ =>
      p.enterProcessor (.each id) m (some time) (some e) fun l => .visited l tick (some e)
    | .after => p.enterProcessor (.after id) m (some time) none fun l => .visited l tick none
  | .notifying g notice _ _ =>
    let members := (p.world.group g).members
    let e := notice.entity
    p.enterTold (.listener notice.listener notice.change) e fun l =>
      .notified l e g.number (decide (e ∈ members)) members.size
  | .observing o k e change _ =>
    let store := p.store k
    p.enterTold (.observer o change) e fun l =>
      .observed l e store.name (store.contains e) store.count
  | .walking _ e _ => p.enterVisit e

/-! ## Moves -/

/-- Record the answer to a step of a script, and end the script if it was a failed attempt. -/
def record (w : Waiting) (r : Running) (a : Answer) : Move (Player × Signal) :=
  let p := p.note (.answered r.context.label w.label a)
  match a, w.attempt with
  | .error cause, true => p.leave r (.error cause.message)
  | _, _ => .ok (p.push (.running r), .proceed)

/-- What comes of a move that may be impossible. -/
def turn : Move (Player × Signal) → Turn
  | .ok (p, s) => .next p s
  | .error h => .halted h

/-- Take up one step of the scenario. -/
def begin (step : Step) : Turn := turn ({ p with log := [] }.take Context.outermost step)

/-- The next move. -/
def advance (s : Signal) : Turn :=
  match s, p.stack with
  | .progress (.calls frame), _ => turn (p.enter frame)
  | .progress (.replies (.error cause)), _ =>
    if isMisfit cause then .halted .misfit else .next p (.answer (.error cause))
  | .progress (.replies (.ok granted)), .waiting w :: _ =>
    match p.settle w granted with
    | .ok (p, shown) => .next p (.answer (.ok shown))
    | .error h => .halted h
  | .answer a, [.waiting _] => .answered { p with stack := [] } a
  | .answer a, .waiting w :: .running r :: stack => turn ({ p with stack := stack }.record w r a)
  | .proceed, .running r :: stack => turn ({ p with stack := stack }.runNext r)
  | _, _ => .halted .unintelligible

end Player

end EntityStore.Scenario
