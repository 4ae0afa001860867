import EntityStore.Proofs.World.Hearing
import EntityStore.Session.Basic

/-!
# What requests and returns come to

A session goes on for two reasons: code outside makes a request, or it returns from a callback.  What
each may come to is said once here, so that nothing later needs to look into it.

* `initialise_cases`, `update_cases`, `shutDown_cases`: what a phase of a manager's life comes to when
  it is asked for.
* `World.Served`, `served`: what a request comes to in the world.  There are many requests, and most of
  them are only heard of: they change kinds or values, or what no manager has a part in.
* `World.Resumed`, `resumed`: what a return comes to.
-/

namespace EntityStore.World

variable [Host]

/-! ## Phases -/

theorem runStops_world (w : World) (m : ManagerId) (failure : Option ManagerError)
    (processors : List ProcessorId) : (w.runStops m failure processors).1 = w := by
  induction processors with
  | nil => cases failure <;> rfl
  | cons p rest ih =>
      unfold runStops
      split
      · rfl
      · exact ih

/-- A manager that is asked to initialise its processors does so, if it is still being set up and
nobody uses them.  Otherwise it answers at once. -/
theorem initialise_cases (w : World) (m : ManagerId) (engaged : Bool) :
    ((w.manager m).lifecycle = .setup ∧ engaged = false ∧
        w.initialise m engaged = w.runInits m none (w.uninitialised m)) ∨
      ¬ ((w.manager m).lifecycle = .setup ∧ engaged = false) ∧
        ∃ reply, w.initialise m engaged = (w, .replies reply) := by
  unfold initialise
  cases (w.manager m).lifecycle with
  | setup =>
      cases engaged with
      | true => exact Or.inr ⟨fun h => absurd h.2 nofun, _, if_pos rfl⟩
      | false => exact Or.inl ⟨rfl, rfl, if_neg Bool.false_ne_true⟩
  | running => exact Or.inr ⟨fun h => absurd h.1 nofun, _, rfl⟩
  | shutDown => exact Or.inr ⟨fun h => absurd h.1 nofun, _, rfl⟩

/-- A manager that is asked for a tick initialises its processors before it, if it is still being
set up and nobody uses them.  Otherwise it updates them, or it answers at once. -/
theorem update_cases (w : World) (m : ManagerId) (time : Time) (engaged : Bool) :
    ((w.manager m).lifecycle = .setup ∧ engaged = false ∧
        w.update m time engaged = w.runInits m (some time) (w.uninitialised m)) ∨
      ¬ ((w.manager m).lifecycle = .setup ∧ engaged = false) ∧
        (w.update m time engaged = w.runUpdates m time (w.manager m).processors ∨
          ∃ reply, w.update m time engaged = (w, .replies reply)) := by
  unfold update
  cases (w.manager m).lifecycle with
  | setup =>
      cases engaged with
      | true => exact Or.inr ⟨fun h => absurd h.2 nofun, Or.inr ⟨_, if_pos rfl⟩⟩
      | false => exact Or.inl ⟨rfl, rfl, if_neg Bool.false_ne_true⟩
  | running =>
      refine Or.inr ⟨fun h => absurd h.1 nofun, ?_⟩
      cases engaged with
      | true => exact Or.inr ⟨_, if_pos rfl⟩
      | false => exact Or.inl (if_neg Bool.false_ne_true)
  | shutDown => exact Or.inr ⟨fun h => absurd h.1 nofun, Or.inr ⟨_, rfl⟩⟩

/-- The world after the life of a manager has ended. -/
def ended (w : World) (m : ManagerId) : World :=
  w.updateManager m fun manager => { manager with lifecycle := .shutDown }

/-- A manager that is asked to shut down is so already, or it ends its life and is refused the use
of its processors, or it ends its life and shuts them down. -/
theorem shutDown_cases (w : World) (m : ManagerId) (engaged : Bool) :
    ((w.manager m).lifecycle = .shutDown ∧ w.shutDown m engaged = (w.ended m, .done)) ∨
      ((w.manager m).lifecycle ≠ .shutDown ∧ engaged = true ∧
        w.shutDown m engaged = (w.ended m, .refuses .reentrant)) ∨
      (w.manager m).lifecycle ≠ .shutDown ∧ engaged = false ∧
        w.shutDown m engaged = (w.ended m).runStops m none
          ((w.manager m).processors.take (w.manager m).initialised) := by
  unfold shutDown
  dsimp only
  by_cases hover : (w.manager m).lifecycle = .shutDown
  · exact Or.inl ⟨hover, if_pos hover⟩
  · rw [if_neg hover]
    cases engaged with
    | true => exact Or.inr (Or.inl ⟨hover, rfl, if_pos rfl⟩)
    | false => exact Or.inr (Or.inr ⟨hover, rfl, if_neg Bool.false_ne_true⟩)

/-- The processors are told to stop, which changes nothing in the world itself. -/
theorem shutDown_world (w : World) (m : ManagerId) (engaged : Bool) :
    (w.shutDown m engaged).1 = w.ended m := by
  rcases w.shutDown_cases m engaged with ⟨-, h⟩ | ⟨-, -, h⟩ | ⟨-, -, h⟩
  · rw [h]
  · rw [h]
  · rw [h, runStops_world]

/-- The world after a manager has initialised one more processor. -/
def countInit (w : World) (m : ManagerId) : World :=
  w.updateManager m fun manager => { manager with initialised := manager.initialised + 1 }

/-! ## Requests -/

theorem answer_world {α : Type} (granted : α → Granted) (r : World × Except ManagerError α) :
    (answer granted r).1 = r.1 := by
  obtain ⟨v, result⟩ := r
  cases result <;> rfl

/-- A request that is granted was granted by the manager. -/
theorem eq_ok_of_answer {α : Type} {granted : α → Granted} {r : World × Except ManagerError α}
    {x : Granted} (h : (answer granted r).2 = .replies (.ok x)) : ∃ a, r.2 = .ok a ∧ granted a = x := by
  obtain ⟨w, result⟩ := r
  cases result with
  | error cause => cases h
  | ok a =>
      cases h
      exact ⟨a, rfl, rfl⟩

theorem tellObserver_world (w : World) (told : ObserverId → Bool) (k : KindId) (e : EntityId)
    (change : MemberChange) (reply : Reply) : (w.tellObserver told k e change reply).1 = w := by
  unfold tellObserver
  split <;> rfl

theorem giveAndTell_world (w : World) (told : ObserverId → Bool) (k : KindId) (e : EntityId) :
    (w.giveAndTell told k e).1 = (w.addHolder k e).1 := by
  unfold giveAndTell
  split
  · rename_i hadd
    rw [hadd]
  · rename_i hadd
    rw [hadd, tellObserver_world]

theorem takeAndTell_world (w : World) (told : ObserverId → Bool) (k : KindId) (e : EntityId) :
    (w.takeAndTell told k e).1 = (w.removeHolder k e).1 := by
  unfold takeAndTell
  split
  · rename_i htake
    rw [htake]
  · rename_i htake
    rw [htake, tellObserver_world]

theorem walkFrom_world (w : World) (k : KindId) (holders : List EntityId) :
    (w.walkFrom k holders).1 = w := by
  cases holders <;> rfl

theorem initialiseAlone_world (w : World) (p : ProcessorId) (m : ManagerId) :
    (w.initialiseAlone p m).1 = w ∨
      ∃ visitor, (w.initialiseAlone p m).1 = (w.settleVisitor p visitor m).1 := by
  unfold initialiseAlone
  split
  · exact Or.inl rfl
  · rename_i visitor hbody
    refine Or.inr ⟨visitor, ?_⟩
    split
    · rename_i hsettled
      rw [hsettled]
    · rename_i hsettled
      rw [hsettled]

theorem serve_attach_world (w : World) (engaged : ManagerId → Bool) (told : ObserverId → Bool)
    (k : KindId) (number : Nat) (o : ObserverId) :
    (w.serve engaged told (.attach k number o)).1 = (w.attach k ⟨number, .outside o⟩).1 := by
  unfold serve
  dsimp only
  split
  · rename_i hattached
    rw [hattached]
  · rename_i hattached
    rw [hattached]

theorem updateAlone_world (w : World) (p : ProcessorId) (m : ManagerId) (time : Time) :
    (w.updateAlone p m time).1 = w := by
  unfold updateAlone
  split
  · rfl
  · split
    · rfl
    · split <;> rfl

/-- What a request comes to in a world. -/
inductive Served (w : World) (engaged : ManagerId → Bool) : Request → World → Prop where
  /-- Groups hear of it, if it changes anything at all. -/
  | heard {r : Request} {v : World} (h : w.Tells v) : Served w engaged r v
  /-- A manager is made, if its configuration is valid. -/
  | makeManager (config : ManagerConfig) :
      Served w engaged (.makeManager config) (w.makeManager config).1
  /-- A manager is dropped. -/
  | retire (m : ManagerId) :
      Served w engaged (.retire m) (w.updateManager m fun manager => { manager with retired := true })
  /-- A kind is registered, or not. -/
  | registerKind (m : ManagerId) (k : KindId) :
      Served w engaged (.registerKind m k) (w.registerKind m k).1
  /-- A processor is registered, or not. -/
  | registerProcessor (m : ManagerId) (p : Processor) :
      Served w engaged (.registerProcessor m p) (w.registerProcessor m p).1
  /-- An entity is made, or not. -/
  | create (m : ManagerId) (kinds : List KindId) :
      Served w engaged (.create m kinds) (w.create m kinds).1
  /-- The removal of an entity is asked for. -/
  | scheduleRemoval (m : ManagerId) (e : EntityId) :
      Served w engaged (.scheduleRemoval m e) (w.scheduleRemoval m e).1
  /-- A group is found or made, or not. -/
  | openGroup (m : ManagerId) (required forbidden : List KindId) :
      Served w engaged (.openGroup m required forbidden) (w.openGroup m required forbidden).1
  /-- A listener is attached, or not. -/
  | listen (g : GroupRef) (l : ListenerId) : Served w engaged (.listen g l) (w.listen g l).1
  /-- A listener is detached. -/
  | unlisten (g : GroupRef) (l : ListenerId) : Served w engaged (.unlisten g l) (w.unlisten g l).1
  /-- A processor is made. -/
  | makeProcessor (p : Processor) :
      Served w engaged (.makeProcessor p) { w with processors := w.processors ++ [p] }
  /-- A visitor without a manager is given its group. -/
  | settles (p : ProcessorId) (visitor : Visitor) (m : ManagerId) :
      Served w engaged (.initialiseAlone p m) (w.settleVisitor p visitor m).1
  /-- The processors of a manager are initialised. -/
  | initialises (m : ManagerId) :
      Served w engaged (.initialise m) (w.runInits m none (w.uninitialised m)).1
  /-- A tick begins, or is refused. -/
  | updates (m : ManagerId) (time : Time) :
      Served w engaged (.update m time) (w.update m time (engaged m)).1
  /-- The life of a manager ends. -/
  | ends (m : ManagerId) : Served w engaged (.shutDown m) (w.ended m)

theorem served (w : World) (engaged : ManagerId → Bool) (told : ObserverId → Bool) (r : Request) :
    Served w engaged r (w.serve engaged told r).1 := by
  have hanswer : ∀ {α : Type} (granted : α → Granted) (result : World × Except ManagerError α),
      Served w engaged r result.1 → Served w engaged r (answer granted result).1 := by
    intro α granted result h
    rw [answer_world]
    exact h
  have hsame : Served w engaged r w := .heard .refl
  cases r with
  | makeKind name config => exact .heard (tells_makeKind w name config)
  | declare k name type default bounds => exact .heard (tells_declare w k name type default bounds)
  | setValue k p e x => exact .heard (tells_setValue w k p e x)
  | addHolder k e =>
      show Served w engaged _ (w.giveAndTell told k e).1
      rw [giveAndTell_world]
      exact .heard (tells_addHolder w k e)
  | removeHolder k e =>
      show Served w engaged _ (w.takeAndTell told k e).1
      rw [takeAndTell_world]
      exact .heard (tells_removeHolder w k e)
  | walk k =>
      show Served w engaged _ (w.walkFrom k _).1
      rw [walkFrom_world]
      exact hsame
  | makeObserver => exact .heard (.stored .refl rfl rfl)
  | dropObserver o => exact .heard (.stored .refl rfl rfl)
  | attach k number o =>
      rw [serve_attach_world]
      exact .heard (tells_attach w k _)
  | makeManager config => exact .makeManager config
  | retire m => exact .retire m
  | registerKind m k => exact hanswer _ _ (.registerKind m k)
  | registerProcessor m p => exact hanswer _ _ (.registerProcessor m p)
  | create m kinds => exact hanswer _ _ (.create m kinds)
  | scheduleRemoval m e => exact .scheduleRemoval m e
  | addComponent m e k => exact hanswer _ _ (.heard (tells_addComponent w m e k))
  | removeComponent m e k => exact hanswer _ _ (.heard (tells_removeComponent w m e k))
  | openGroup m required forbidden => exact hanswer _ _ (.openGroup m required forbidden)
  | makeListener => exact .heard (.stored .refl rfl rfl)
  | listen g l => exact hanswer _ _ (.listen g l)
  | unlisten g l => exact .unlisten g l
  | initialise m =>
      show Served w engaged _ (w.initialise m (engaged m)).1
      rcases w.initialise_cases m (engaged m) with ⟨-, -, h⟩ | ⟨-, reply, h⟩
      · rw [h]
        exact .initialises m
      · rw [h]
        exact hsame
  | update m time => exact .updates m time
  | shutDown m =>
      show Served w engaged _ (w.shutDown m (engaged m)).1
      rw [shutDown_world]
      exact .ends m
  | makeProcessor p => exact .makeProcessor p
  | initialiseAlone p m =>
      show Served w engaged _ (w.initialiseAlone p m).1
      rcases initialiseAlone_world w p m with h | ⟨visitor, hsettled⟩
      · rw [h]
        exact hsame
      · rw [hsettled]
        exact .settles p visitor m
  | updateAlone p m time =>
      show Served w engaged _ (w.updateAlone p m time).1
      rw [updateAlone_world]
      exact hsame
  | shutDownAlone p m => exact hsame

/-! ## Returns from callbacks -/

/-- Whatever a callback of a shut-down comes to, the others are shut down. -/
theorem afterStop_eq (w : World) (m : ManagerId) (p : ProcessorId) (rest : List ProcessorId)
    (failure : Option ManagerError) (outcome : Outcome) :
    ∃ cause, w.afterStop m p rest failure outcome = w.runStops m cause rest := by
  cases outcome with
  | error message => exact ⟨_, rfl⟩
  | ok done => exact ⟨failure, rfl⟩

/-- What a return from a callback comes to. -/
inductive Resumed (w : World) : Outcome → Frame → World × Progress → Prop where
  /-- There is an answer: the callback has failed, or it was the last one. -/
  | answers {outcome : Outcome} {frame : Frame} (reply : Reply) :
      Resumed w outcome frame (w, .replies reply)
  /-- A processor is initialised, and the next ones are. -/
  | inits (m : ManagerId) (p : ProcessorId) (rest : List ProcessorId) (next : Option Time) :
      Resumed w (.ok ()) (.initialising m p rest next) ((w.countInit m).runInits m next rest)
  /-- The next processors are updated. -/
  | updates (m : ManagerId) (p : ProcessorId) (time : Time) (rest : List ProcessorId) :
      Resumed w (.ok ()) (.updating m p time rest) (w.runUpdates m time rest)
  /-- The next stage of a visitor begins. -/
  | visits (m : ManagerId) (p : ProcessorId) (time : Time) (stage next : VisitStage)
      (errand : Errand) : Resumed w (.ok ()) (.visiting m p time stage errand)
        (w, .calls (.visiting m p time next errand))
  /-- A visitor is done, and the next processors are updated. -/
  | leaves (m : ManagerId) (p : ProcessorId) (time : Time) (stage : VisitStage)
      (rest : List ProcessorId) :
      Resumed w (.ok ()) (.visiting m p time stage (.tick rest)) (w.runUpdates m time rest)
  /-- The next processors are shut down, whatever the callback has come to. -/
  | stops {outcome : Outcome} (m : ManagerId) (p : ProcessorId) (rest : List ProcessorId)
      (failure cause : Option ManagerError) :
      Resumed w outcome (.stopping m p rest failure) (w.runStops m cause rest)
  /-- A listener is told the next notice. -/
  | notifies {outcome : Outcome} (g : GroupRef) (notice following : Notice) (rest : List Notice)
      (groups : List Nat) : Resumed w outcome (.notifying g notice (following :: rest) groups)
        (w, .calls (.notifying g following rest groups))
  /-- A group is flushed, and the next ones are. -/
  | flushes {outcome : Outcome} (g : GroupRef) (notice : Notice) (groups : List Nat) :
      Resumed w outcome (.notifying g notice [] groups) (w.flush g.manager groups)
  /-- The next holders are visited. -/
  | walks {outcome : Outcome} (k : KindId) (e : EntityId) (rest : List EntityId) :
      Resumed w outcome (.walking k e rest) (w.walkFrom k rest)

theorem resumed (w : World) (outcome : Outcome) (frame : Frame) :
    Resumed w outcome frame (w.resume outcome frame) := by
  cases frame with
  | initialising m p rest next =>
      cases outcome with
      | error message => exact .answers _
      | ok done => exact .inits m p rest next
  | updating m p time rest =>
      cases outcome with
      | error message => exact .answers _
      | ok done => exact .updates m p time rest
  | visiting m p time stage errand =>
      show Resumed w outcome _ (w.afterVisit m p time stage errand outcome)
      cases outcome with
      | error message => cases errand <;> exact .answers _
      | ok done =>
          unfold afterVisit
          dsimp only
          split
          · exact .visits m p time stage _ _
          · exact .answers _
          · exact .leaves m p time stage _
  | stopping m p rest failure =>
      obtain ⟨cause, h⟩ := w.afterStop_eq m p rest failure outcome
      show Resumed w outcome _ (w.afterStop m p rest failure outcome)
      rw [h]
      exact .stops m p rest failure cause
  | notifying g notice rest groups =>
      cases rest with
      | nil => exact .flushes g notice groups
      | cons following rest => exact .notifies g notice following rest groups
  | observing o k e change reply => exact .answers reply
  | walking k e rest => exact .walks k e rest

end EntityStore.World
