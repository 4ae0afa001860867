import EntityStore.Proofs.Session.History
import EntityStore.Proofs.Session.Phases

/-!
# Which processors are initialised and shut down

An event may complete the initialisation of some processors of a manager (`Event.inits`) and shut
some down (`Event.stops`), of which the last one may have a callback.  Others wait for a callback to
return: `toInit` and `toStop` read them off the stack.
-/

namespace EntityStore

variable [Host]

namespace Session

/-! ## What an event completes -/

/-- The processors that a request initialises without a callback, if it begins the initialisation
of a manager. -/
def begun (s : Session) (m : ManagerId) : List ProcessorId :=
  if (s.world.manager m).lifecycle = .setup ∧ s.engaged m = false then
    s.world.settled m (s.world.uninitialised m)
  else []

/-- The processors of a manager whose initialisation an event completes, in order. -/
def Event.inits (e : Event) (m : ManagerId) : List ProcessorId :=
  match e.action with
  | .request r => if r.begins? = some m then e.before.begun m else []
  | .finish (.ok ()) =>
    match e.before.stack with
    | .initialising n p rest _ :: _ =>
      if n = m then p :: (e.before.world.countInit m).settled m rest else []
    | _ => []
  | .finish (.error _) => []

/-- The processors of a manager that are shut down in an event, in order. -/
def Event.stops (e : Event) (m : ManagerId) : List ProcessorId :=
  match e.action with
  | .request (.shutDown n) =>
    let manager := e.before.world.manager m
    if n = m ∧ manager.lifecycle ≠ .shutDown ∧ e.before.engaged m = false then
      e.before.world.called (manager.processors.take manager.initialised)
    else []
  | .finish _ =>
    match e.before.stack with
    | .stopping n _ rest _ :: _ => if n = m then e.before.world.called rest else []
    | _ => []
  | _ => []

/-- Is a manager asked to shut down while its processors are in use, and refuses? -/
def Event.RefusesStop (e : Event) (m : ManagerId) : Prop :=
  e.action = .request (.shutDown m) ∧ e.progress = .refuses .reentrant

/-! ## What waits on the stack -/

/-- The processors that wait for a frame to initialise them, the one of the frame first. -/
def frameInits? (m : ManagerId) : Frame → Option (List ProcessorId)
  | .initialising n p rest _ => if n = m then some (p :: rest) else none
  | _ => none

/-- The processors that wait for a frame to shut them down. -/
def frameStops (m : ManagerId) : Frame → List ProcessorId
  | .stopping n _ rest _ => if n = m then rest else []
  | _ => []

/-- For every running initialisation of a manager the processors that wait for it. -/
def toInit (m : ManagerId) (stack : List Frame) : List (List ProcessorId) :=
  stack.filterMap (frameInits? m)

/-- The processors of a manager that are still to be shut down. -/
def toStop (m : ManagerId) (stack : List Frame) : List ProcessorId := stack.flatMap (frameStops m)

variable {m : ManagerId} {s : Session}

theorem toInit_append (m : ManagerId) (above below : List Frame) :
    toInit m (above ++ below) = toInit m above ++ toInit m below :=
  List.filterMap_append

theorem toStop_append (m : ManagerId) (above below : List Frame) :
    toStop m (above ++ below) = toStop m above ++ toStop m below :=
  List.flatMap_append

theorem frameInits?_of_tended {frame : Frame} (h : frame.tended? ≠ some m) :
    frameInits? m frame = none := by
  cases frame with
  | initialising n p rest next =>
      have hn : n ≠ m := fun heq => h (congrArg some heq)
      simp [frameInits?, hn]
  | _ => rfl

theorem frameStops_of_tended {frame : Frame} (h : frame.tended? ≠ some m) :
    frameStops m frame = [] := by
  cases frame with
  | stopping n p rest failure =>
      have hn : n ≠ m := fun heq => h (congrArg some heq)
      simp [frameStops, hn]
  | _ => rfl

theorem toInit_of_tended {stack : List Frame} (h : ∀ frame ∈ stack, frame.tended? ≠ some m) :
    toInit m stack = [] := by
  unfold toInit
  rw [List.filterMap_eq_nil_iff]
  exact fun frame hframe => frameInits?_of_tended (h frame hframe)

theorem toStop_of_tended {stack : List Frame} (h : ∀ frame ∈ stack, frame.tended? ≠ some m) :
    toStop m stack = [] := by
  unfold toStop
  rw [List.flatMap_eq_nil_iff]
  exact fun frame hframe => frameStops_of_tended (h frame hframe)

theorem Frame.manager?_of_engaged {frame : Frame} (h : frame.engaged? = some m) :
    frame.manager? = some m := by
  cases frame with
  | visiting n p time stage errand =>
      cases errand with
      | tick rest => exact h
      | alone => cases h
  | notifying g notice rest groups => cases h
  | _ => exact h

/-- Who needs a manager for itself finds its processors free. -/
theorem not_engaged_of_exclusive {r : Request} (hopen : s.bars r = false)
    (hr : r.exclusive? = some m) : s.engaged m = false := by
  unfold bars at hopen
  rw [hr, Option.any_some] at hopen
  refine List.any_eq_false.2 fun frame hframe hengaged => ?_
  refine List.any_eq_false.1 hopen frame hframe ?_
  exact decide_eq_true (Frame.manager?_of_engaged (of_decide_eq_true hengaged))

/-- While the processors of a manager are free, none of them is being initialised. -/
theorem toInit_of_not_engaged (h : s.engaged m = false) : toInit m s.stack = [] := by
  apply toInit_of_tended
  intro frame hframe htended
  unfold engaged at h
  rw [List.any_eq_false] at h
  apply h frame hframe
  cases frame with
  | initialising n p rest next => simpa [Frame.tended?, Frame.engaged?] using htended
  | stopping n p rest failure => simpa [Frame.tended?, Frame.engaged?] using htended
  | _ => cases htended

/-! ## Callbacks of other managers -/

theorem life_resume (w : World) (outcome : Outcome) {frame : Frame} (h : frame.tended? ≠ some m) :
    (w.resume outcome frame).1.life m = w.life m := by
  have hresumed := w.resumed outcome frame
  generalize w.resume outcome frame = result at hresumed ⊢
  cases hresumed with
  | answers reply => rfl
  | inits n p rest next =>
      have hn : m ≠ n := fun heq => h (congrArg some heq.symm)
      show ((w.countInit n).runInits n next rest).1.life m = _
      rw [World.life_runInits_of_ne hn]
      exact World.life_updateManager_of_ne hn
  | updates n p time rest => exact World.life_runUpdates w n time rest m
  | visits n p time stage next errand => rfl
  | leaves n p time stage rest => exact World.life_runUpdates w n time rest m
  | stops n p rest failure cause => rw [World.runStops_world]
  | notifies g notice following rest groups => rfl
  | flushes g notice groups => exact World.life_flush w g.manager groups m
  | walks k e rest => rw [World.walkFrom_world]

/-- Whoever is to be shut down is shut down at once, or waits for the callback that begins. -/
theorem called_append_toStop (w : World) (n : ManagerId) (failure : Option ManagerError)
    (processors : List ProcessorId) :
    processors = w.called processors ++ toStop n (w.runStops n failure processors).2.pushed := by
  rcases w.runStops_cases n failure processors with ⟨hall, hreply⟩ | ⟨p, rest, hsplit, -, hcalls⟩
  · rw [hreply, World.pushed_stopReply, hall]
    simp [toStop]
  · rw [hcalls]
    simpa [toStop, Progress.pushed, frameStops] using hsplit

theorem toInit_runStops (w : World) (n : ManagerId) (failure : Option ManagerError)
    (processors : List ProcessorId) :
    toInit n (w.runStops n failure processors).2.pushed = [] := by
  rcases w.runStops_cases n failure processors with ⟨-, hreply⟩ | ⟨p, rest, -, -, hcalls⟩
  · rw [hreply, World.pushed_stopReply]
    rfl
  · rw [hcalls]
    rfl

theorem toInit_shutDown (w : World) (n : ManagerId) (engaged : Bool) :
    toInit n (w.shutDown n engaged).2.pushed = [] := by
  rcases w.shutDown_cases n engaged with ⟨-, h⟩ | ⟨-, -, h⟩ | ⟨-, -, h⟩
  · rw [h]
    rfl
  · rw [h]
    rfl
  · rw [h]
    exact toInit_runStops _ n none _

/-- Shutting processors down is never refused as such. -/
theorem runStops_ne_refuses (w : World) (n : ManagerId) (processors : List ProcessorId)
    (cause : ManagerError) : (w.runStops n none processors).2 ≠ .refuses cause := by
  rcases w.runStops_cases n none processors with ⟨-, hreply⟩ | ⟨p, rest, -, -, hcalls⟩
  · rw [hreply]
    exact nofun
  · rw [hcalls]
    exact nofun

theorem tended_resume (w : World) (outcome : Outcome) {frame : Frame}
    (h : frame.tended? ≠ some m) :
    ∀ next ∈ (w.resume outcome frame).2.pushed, next.tended? ≠ some m := by
  have hnone : ∀ next ∈ ([] : List Frame), next.tended? ≠ some m := List.forall_mem_nil _
  have huntended : ∀ {frames : List Frame}, (∀ next ∈ frames, next.tended? = none) →
      ∀ next ∈ frames, next.tended? ≠ some m := by
    intro frames hall next hnext
    rw [hall next hnext]
    exact nofun
  have hresumed := w.resumed outcome frame
  generalize w.resume outcome frame = result at hresumed ⊢
  cases hresumed with
  | answers reply => exact hnone
  | inits n p rest next =>
      intro frame hframe
      rcases (w.countInit n).pushed_runInits n next rest frame hframe with ⟨q, others, rfl⟩ | hfree
      · exact h
      · rw [hfree]
        exact nofun
  | updates n p time rest => exact huntended (w.untended_runUpdates n time rest)
  | visits n p time stage next errand => exact huntended (Progress.forall_pushed_calls rfl)
  | leaves n p time stage rest => exact huntended (w.untended_runUpdates n time rest)
  | stops n p rest failure cause =>
      intro frame hframe
      rw [w.tended_runStops n cause rest frame hframe]
      exact h
  | notifies g notice following rest groups => exact huntended (Progress.forall_pushed_calls rfl)
  | flushes g notice groups => exact huntended (w.untended_flush g.manager groups)
  | walks k e rest =>
      refine huntended fun next hnext => ?_
      exact Frame.tended?_of_isPlain (w.plain_walkFrom k rest next hnext)

end Session

end EntityStore
