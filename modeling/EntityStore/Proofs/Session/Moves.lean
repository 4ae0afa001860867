import EntityStore.Proofs.Session.Serving

/-!
# The moves of a session

Code outside looks at a world only between the steps of a session, and one step of a session may be
a whole tick.  Here each step is taken apart into *moves*, the single changes that a world can
undergo.  What every move preserves is then true whenever code outside can look, however its
callbacks are nested.

* `Move`: the single changes.
* `Moves`: series of them.
* `moves_of_act`: every step of a session is a series of moves.
* `moves_of_reachesUnder`: so is every history.

Some laws hold only if code outside keeps to a rule, say to register kinds before they have holders.
A rule is a relation between the world and a request that is made in it.
-/

namespace EntityStore

variable [Host]

/-- A rule for the requests of code outside. -/
abbrev Rule := World → Request → Prop

/-- A single change of a world; a change that is asked for follows the rule. -/
inductive Move (rule : Rule) (w : World) : World → Prop where
  /-- A kind is made. -/
  | makeKind (name : String) (config : StoreConfig) : Move rule w (w.makeKind name config).1
  /-- A property is declared. -/
  | declare (k : KindId) (name : String) (type : ValueType) (default : type.Carrier)
      (bounds : Option (Bounds type.Carrier)) :
      Move rule w (w.declare k name type default bounds).1
  /-- A value is set. -/
  | setValue (k : KindId) (p : Property) (e : EntityId) (x : p.type.Carrier) :
      Move rule w (w.setValue k p e x).1
  /-- A kind is given to an entity, not through a manager. -/
  | addHolder (k : KindId) (e : EntityId) (h : rule w (.addHolder k e)) :
      Move rule w (w.addHolder k e).1
  /-- A kind is taken from an entity, not through a manager. -/
  | removeHolder (k : KindId) (e : EntityId) (h : rule w (.removeHolder k e)) :
      Move rule w (w.removeHolder k e).1
  /-- A kind is attached to an observer outside. -/
  | attach (k : KindId) (number : Nat) (o : ObserverId) (h : rule w (.attach k number o)) :
      Move rule w (w.attach k ⟨number, .outside o⟩).1
  /-- A manager is made. -/
  | makeManager (config : ManagerConfig) : Move rule w (w.makeManager config).1
  /-- A manager is dropped. -/
  | retire (m : ManagerId) :
      Move rule w (w.updateManager m fun manager => { manager with retired := true })
  /-- A kind is registered. -/
  | registerKind (m : ManagerId) (k : KindId) (h : rule w (.registerKind m k)) :
      Move rule w (w.registerKind m k).1
  /-- A processor is registered. -/
  | registerProcessor (m : ManagerId) (p : Processor) (h : rule w (.registerProcessor m p)) :
      Move rule w (w.registerProcessor m p).1
  /-- An entity is made, or not. -/
  | create (m : ManagerId) (kinds : List KindId) (h : rule w (.create m kinds)) :
      Move rule w (w.create m kinds).1
  /-- The removal of an entity is asked for. -/
  | scheduleRemoval (m : ManagerId) (e : EntityId) (h : rule w (.scheduleRemoval m e)) :
      Move rule w (w.scheduleRemoval m e).1
  /-- A live entity is given another kind. -/
  | addComponent (m : ManagerId) (e : EntityId) (k : KindId) (h : rule w (.addComponent m e k)) :
      Move rule w (w.addComponent m e k).1
  /-- A live entity loses a kind. -/
  | removeComponent (m : ManagerId) (e : EntityId) (k : KindId)
      (h : rule w (.removeComponent m e k)) : Move rule w (w.removeComponent m e k).1
  /-- A group is found or made, for code outside or for a visitor. -/
  | openGroup (m : ManagerId) (required forbidden : List KindId) :
      Move rule w (w.openGroup m required forbidden).1
  /-- A listener is attached. -/
  | listen (g : GroupRef) (l : ListenerId) : Move rule w (w.listen g l).1
  /-- A listener is detached. -/
  | unlisten (g : GroupRef) (l : ListenerId) : Move rule w (w.unlisten g l).1
  /-- The news of a group is taken. -/
  | takeNews (g : GroupRef) : Move rule w (w.takeNews g).1
  /-- A removal that is due is carried out. -/
  | removeDue (m : ManagerId) (e : EntityId) (h : e ∈ (w.manager m).pending) :
      Move rule w (w.removeDue m e)
  /-- A manager has initialised one more processor. -/
  | countInit (m : ManagerId) :
      Move rule w (w.updateManager m fun manager =>
        { manager with initialised := manager.initialised + 1 })
  /-- The life of a manager goes on. -/
  | setLifecycle (m : ManagerId) (life : Lifecycle) :
      Move rule w (w.updateManager m fun manager => { manager with lifecycle := life })
  /-- Something happens that neither kinds nor managers take part in. -/
  | elsewhere (v : World) (hkinds : v.kinds = w.kinds) (hmanagers : v.managers = w.managers)
      (hprocessors : w.processors.length ≤ v.processors.length) : Move rule w v

/-- A series of moves. -/
inductive Moves (rule : Rule) (w : World) : World → Prop where
  | refl : Moves rule w w
  | tail {v u : World} (moves : Moves rule w v) (move : Move rule v u) : Moves rule w u

variable {rule : Rule} {w v u : World}

theorem Move.moves (h : Move rule w v) : Moves rule w v :=
  Moves.refl.tail h

theorem Moves.trans (h : Moves rule w v) (g : Moves rule v u) : Moves rule w u := by
  induction g with
  | refl => exact h
  | tail _ move ih => exact ih.tail move

/-- What every move preserves holds after a series of them. -/
theorem Moves.preserves {P : World → Prop} (hstep : ∀ {w v}, Move rule w v → P w → P v)
    (h : Moves rule w v) (hw : P w) : P v := by
  induction h with
  | refl => exact hw
  | tail _ move ih => exact hstep move ih

/-- What every move had from before holds before a series of them if it holds after it. -/
theorem Moves.reflects {P : World → Prop} (hstep : ∀ {w v}, Move rule w v → P v → P w)
    (h : Moves rule w v) (hv : P v) : P w := by
  induction h with
  | refl => exact hv
  | tail _ move ih => exact ih (hstep move hv)

namespace World

/-! ## The removals of a tick -/

/-- One removal is carried out, and the others stay due. -/
theorem mem_pending_removeDue {m : ManagerId} {e x : EntityId} (hx : x ∈ (w.manager m).pending)
    (hne : x ≠ e) : x ∈ ((w.removeDue m e).manager m).pending := by
  rw [field_removeDue Manager.pending (fun _ _ => rfl) fun _ _ => rfl]
  unfold withoutDue
  rw [manager_updateManager]
  split
  · exact IdSet.mem_erase.2 ⟨hx, hne⟩
  · exact hx

theorem moves_of_removals (w : World) (m : ManagerId) (due : List EntityId)
    (hdistinct : due.Pairwise (· < ·)) (hdue : ∀ e ∈ due, e ∈ (w.manager m).pending) :
    Moves rule w (due.foldl (fun w e => w.removeDue m e) w) := by
  induction due generalizing w with
  | nil => exact .refl
  | cons e rest ih =>
      -- a removal takes only its own id off the list, and the ids are distinct: the rest stay due
      obtain ⟨hfirst, hrest⟩ := List.pairwise_cons.1 hdistinct
      have hstep : Move rule w (w.removeDue m e) := .removeDue m e (hdue e List.mem_cons_self)
      refine hstep.moves.trans (ih (w.removeDue m e) hrest fun x hx => ?_)
      exact mem_pending_removeDue (hdue x (List.mem_cons_of_mem e hx))
        (Nat.ne_of_gt (hfirst x hx))

theorem moves_removeAllDue (w : World) (m : ManagerId) : Moves rule w (w.removeAllDue m) :=
  moves_of_removals w m _ (w.manager m).pending.ascending fun _ he => he

/-! ## The phases of a manager's life -/

theorem moves_flush (w : World) (m : ManagerId) (numbers : List Nat) :
    Moves rule w (w.flush m numbers).1 := by
  -- one move for each group, until a group has listeners to tell
  induction numbers generalizing w with
  | nil => exact .refl
  | cons number groups ih =>
      have hstep : Move rule w (w.takeNews ⟨m, number⟩).1 := .takeNews _
      unfold flush
      split
      · rename_i hnews
        rw [hnews] at hstep
        exact hstep.moves.trans (ih _)
      · rename_i hnews
        rw [hnews] at hstep
        exact hstep.moves

theorem moves_endTick (w : World) (m : ManagerId) : Moves rule w (w.endTick m).1 :=
  (moves_removeAllDue w m).trans (moves_flush _ m _)

theorem moves_settleVisitor (w : World) (p : ProcessorId) (visitor : Visitor) (m : ManagerId) :
    Moves rule w (w.settleVisitor p visitor m).1 := by
  have hopen : Move rule w (w.openGroup m visitor.required visitor.forbidden).1 :=
    .openGroup m _ _
  unfold settleVisitor
  split
  · rename_i hgroup
    rw [hgroup] at hopen
    exact hopen.moves.tail (.elsewhere _ rfl rfl (by simp [updateProcessor]))
  · rename_i hgroup
    rw [hgroup] at hopen
    exact hopen.moves

theorem moves_runUpdates (w : World) (m : ManagerId) (time : Time) (processors : List ProcessorId) :
    Moves rule w (w.runUpdates m time processors).1 := by
  induction processors with
  | nil => exact moves_endTick w m
  | cons p rest ih =>
      unfold runUpdates
      split
      · exact .refl
      · split
        · exact .refl
        · split
          · exact .refl
          · exact ih

theorem moves_runInits (w : World) (m : ManagerId) (next : Option Time)
    (processors : List ProcessorId) : Moves rule w (w.runInits m next processors).1 := by
  induction processors generalizing w with
  | nil =>
      have hrun : Move rule w (w.updateManager m fun manager =>
          { manager with lifecycle := .running }) := .setLifecycle m .running
      unfold runInits
      -- the last processor is initialised; if a tick is waiting it goes on at once
      cases next with
      | none => exact hrun.moves
      | some time => exact hrun.moves.trans (moves_runUpdates _ m time _)
  | cons p rest ih =>
      unfold runInits
      split
      · exact .refl
      · -- a visitor has no callback of its own to run, so the walk over the processors goes on
        rename_i visitor hbody
        have hsettle : Moves rule w (w.settleVisitor p visitor m).1 :=
          moves_settleVisitor w p visitor m
        split
        · rename_i hsettled
          rw [hsettled] at hsettle
          exact hsettle
        · rename_i hsettled
          rw [hsettled] at hsettle
          exact (hsettle.tail (.countInit m)).trans (ih _)

theorem moves_initialise (w : World) (m : ManagerId) (engaged : Bool) :
    Moves rule w (w.initialise m engaged).1 := by
  rcases w.initialise_cases m engaged with ⟨-, -, h⟩ | ⟨-, reply, h⟩
  · rw [h]
    exact moves_runInits w m none _
  · rw [h]
    exact .refl

theorem moves_update (w : World) (m : ManagerId) (time : Time) (engaged : Bool) :
    Moves rule w (w.update m time engaged).1 := by
  rcases w.update_cases m time engaged with ⟨-, -, h⟩ | ⟨-, h | ⟨reply, h⟩⟩
  · rw [h]
    exact moves_runInits w m (some time) _
  · rw [h]
    exact moves_runUpdates w m time _
  · rw [h]
    exact .refl

theorem moves_shutDown (w : World) (m : ManagerId) (engaged : Bool) :
    Moves rule w (w.shutDown m engaged).1 := by
  have hstop : Move rule w (w.ended m) := .setLifecycle m .shutDown
  rw [shutDown_world]
  exact hstop.moves

/-! ## Requests -/

/-- A request that follows the rule. -/
theorem moves_serve (w : World) (engaged : ManagerId → Bool) (told : ObserverId → Bool)
    {r : Request} (hrule : rule w r) : Moves rule w (w.serve engaged told r).1 := by
  cases r with
  | makeKind name config => exact (Move.makeKind name config).moves
  | declare k name type default bounds => exact (Move.declare k name type default bounds).moves
  | setValue k p e x => exact (Move.setValue k p e x).moves
  | addHolder k e =>
      show Moves rule w (w.giveAndTell told k e).1
      rw [giveAndTell_world]
      exact (Move.addHolder k e hrule).moves
  | removeHolder k e =>
      show Moves rule w (w.takeAndTell told k e).1
      rw [takeAndTell_world]
      exact (Move.removeHolder k e hrule).moves
  | walk k =>
      show Moves rule w (w.walkFrom k _).1
      rw [walkFrom_world]
      exact .refl
  | makeObserver =>
      refine (Move.elsewhere _ ?_ ?_ ?_).moves
      · rfl
      · rfl
      · exact Nat.le_refl _
  | dropObserver o =>
      refine (Move.elsewhere _ ?_ ?_ ?_).moves
      · rfl
      · rfl
      · exact Nat.le_refl _
  | attach k number o =>
      rw [serve_attach_world]
      exact (Move.attach k number o hrule).moves
  | makeManager config => exact (Move.makeManager config).moves
  | retire m => exact (Move.retire m).moves
  | registerKind m k =>
      show Moves rule w (answer _ _).1
      rw [answer_world]
      exact (Move.registerKind m k hrule).moves
  | registerProcessor m p =>
      show Moves rule w (answer _ _).1
      rw [answer_world]
      exact (Move.registerProcessor m p hrule).moves
  | create m kinds =>
      show Moves rule w (answer _ _).1
      rw [answer_world]
      exact (Move.create m kinds hrule).moves
  | scheduleRemoval m e => exact (Move.scheduleRemoval m e hrule).moves
  | addComponent m e k =>
      show Moves rule w (answer _ _).1
      rw [answer_world]
      exact (Move.addComponent m e k hrule).moves
  | removeComponent m e k =>
      show Moves rule w (answer _ _).1
      rw [answer_world]
      exact (Move.removeComponent m e k hrule).moves
  | openGroup m required forbidden =>
      show Moves rule w (answer _ _).1
      rw [answer_world]
      exact (Move.openGroup m required forbidden).moves
  | makeListener =>
      refine (Move.elsewhere _ ?_ ?_ ?_).moves
      · rfl
      · rfl
      · exact Nat.le_refl _
  | listen g l =>
      show Moves rule w (answer _ _).1
      rw [answer_world]
      exact (Move.listen g l).moves
  | unlisten g l => exact (Move.unlisten g l).moves
  | initialise m => exact moves_initialise w m _
  | update m time => exact moves_update w m time _
  | shutDown m => exact moves_shutDown w m _
  | makeProcessor p =>
      refine (Move.elsewhere _ ?_ ?_ ?_).moves
      · rfl
      · rfl
      · show w.processors.length ≤ (w.processors ++ [p]).length
        simp
  | initialiseAlone p m =>
      show Moves rule w (w.initialiseAlone p m).1
      rcases initialiseAlone_world w p m with hsame | ⟨visitor, hsettled⟩
      · rw [hsame]
        exact .refl
      · rw [hsettled]
        exact moves_settleVisitor w p visitor m
  | updateAlone p m time =>
      show Moves rule w (w.updateAlone p m time).1
      rw [updateAlone_world]
      exact .refl
  | shutDownAlone p m => exact .refl

/-! ## Returns from callbacks -/

theorem moves_resume (w : World) (outcome : Outcome) (frame : Frame) :
    Moves rule w (w.resume outcome frame).1 := by
  have hresumed := w.resumed outcome frame
  generalize w.resume outcome frame = result at hresumed ⊢
  cases hresumed with
  | answers reply => exact .refl
  | inits m p rest next =>
      have hcount : Move rule w (w.countInit m) := .countInit m
      exact hcount.moves.trans (moves_runInits _ m next rest)
  | updates m p time rest => exact moves_runUpdates w m time rest
  | visits m p time stage next errand => exact .refl
  | leaves m p time stage rest => exact moves_runUpdates w m time rest
  | stops m p rest failure cause =>
      rw [runStops_world]
      exact .refl
  | notifies g notice following rest groups => exact .refl
  | flushes g notice groups => exact moves_flush w g.manager groups
  | walks k e rest =>
      rw [walkFrom_world]
      exact .refl

end World

/-! ## What was made stays -/

/-- Managers, their groups and processors are there for good. -/
structure World.Grows (w v : World) : Prop where
  managers : w.managers.length ≤ v.managers.length
  groups : ∀ m, (w.manager m).groups.length ≤ (v.manager m).groups.length
  processors : w.processors.length ≤ v.processors.length

namespace World

theorem Grows.refl (w : World) : Grows w w :=
  ⟨Nat.le_refl _, fun _ => Nat.le_refl _, Nat.le_refl _⟩

theorem Grows.trans (h : Grows w v) (g : Grows v u) : Grows w u :=
  ⟨Nat.le_trans h.managers g.managers, fun m => Nat.le_trans (h.groups m) (g.groups m),
    Nat.le_trans h.processors g.processors⟩

theorem grows_of_same_managers (hmanagers : v.managers = w.managers)
    (hprocessors : w.processors.length ≤ v.processors.length) : Grows w v := by
  refine ⟨Nat.le_of_eq ?_, fun m => Nat.le_of_eq ?_, hprocessors⟩
  · rw [hmanagers]
  · rw [manager_of_same_managers hmanagers]

theorem grows_updateManager {change : Manager → Manager}
    (h : ∀ manager, manager.groups.length ≤ (change manager).groups.length) (w : World)
    (m : ManagerId) : Grows w (w.updateManager m change) := by
  refine ⟨Nat.le_of_eq ?_, fun n => ?_, Nat.le_refl _⟩
  · unfold updateManager
    rw [List.length_modify]
  · rw [manager_updateManager]
    split
    · rename_i hn
      rw [hn.1]
      exact h _
    · exact Nat.le_refl _

theorem Tells.grows (h : Tells w v) : Grows w v := by
  refine ⟨Nat.le_of_eq ?_, fun m => Nat.le_of_eq ?_, Nat.le_of_eq ?_⟩
  · rw [h.length_managers]
  · rw [h.length_groups]
  · rw [h.processors]

theorem grows_updateGroup (w : World) (g : GroupRef) (change : Group → Group) :
    Grows w (w.updateGroup g change) := by
  refine grows_updateManager (fun manager => Nat.le_of_eq ?_) w g.manager
  dsimp only
  rw [List.length_modify]

theorem grows_makeManager (w : World) (config : ManagerConfig) :
    Grows w (w.makeManager config).1 := by
  unfold makeManager
  split
  · exact .refl w
  · refine ⟨by simp, fun m => ?_, Nat.le_refl _⟩
    unfold manager
    dsimp only
    rw [getD_concat]
    split
    · rename_i hplace
      rw [hplace, List.getD_eq_getElem?_getD, List.getElem?_eq_none (Nat.le_refl _)]
      exact Nat.le_refl _
    · exact Nat.le_refl _

end World

theorem Move.grows (h : Move rule w v) : World.Grows w v := by
  have hmanager : ∀ {change : Manager → Manager} (x : World) (m : ManagerId),
      (∀ manager, (change manager).groups = manager.groups) →
        World.Grows x (x.updateManager m change) := fun x m hgroups =>
    World.grows_updateManager (fun manager => Nat.le_of_eq (by rw [hgroups])) x m
  cases h with
  | makeKind name config => exact (World.tells_makeKind w name config).grows
  | declare k name type default bounds =>
      exact (World.tells_declare w k name type default bounds).grows
  | setValue k p e x => exact (World.tells_setValue w k p e x).grows
  | addHolder k e hrule => exact (World.tells_addHolder w k e).grows
  | removeHolder k e hrule => exact (World.tells_removeHolder w k e).grows
  | attach k number o hrule => exact (World.tells_attach w k _).grows
  | makeManager config => exact World.grows_makeManager w config
  | retire m => exact hmanager w m fun _ => rfl
  | registerKind m k hrule =>
      rcases World.registered_or_same w m k with hsame | ⟨-, -, hkind⟩
      · rw [hsame]
        exact .refl w
      · have hmarked : World.Grows w (w.updateKind k fun kind =>
            { kind with attachment := some ⟨(w.manager m).kinds.length, .manager m⟩ }) :=
          World.grows_of_same_managers rfl (Nat.le_refl _)
        rw [hkind]
        exact hmarked.trans (hmanager _ m fun _ => rfl)
  | registerProcessor m p hrule =>
      unfold World.registerProcessor
      split
      · exact .refl w
      · split
        · exact .refl w
        · have hmade : World.Grows w { w with processors := w.processors ++ [p] } := by
            refine World.grows_of_same_managers rfl ?_
            simp
          exact hmade.trans (hmanager _ m fun _ => rfl)
  | create m kinds hrule =>
      rcases World.create_tells w m kinds with hsame | ⟨a, x, htells, hend⟩
      · rw [hsame]
        exact .refl w
      · have hallocated : World.Grows w (w.withAllocator m a) := hmanager w m fun _ => rfl
        have hissued := hallocated.trans htells.grows
        rcases hend with hmade | ⟨e, hundone⟩
        · rw [hmade]
          exact hissued
        · rw [hundone]
          exact hissued.trans (hmanager x m fun _ => rfl)
  | scheduleRemoval m e hrule => exact hmanager w m fun _ => rfl
  | addComponent m e k hrule => exact (World.tells_addComponent w m e k).grows
  | removeComponent m e k hrule => exact (World.tells_removeComponent w m e k).grows
  | openGroup m required forbidden =>
      rcases World.opened_or_same w m required forbidden with hsame | ⟨-, hmade⟩
      · rw [hsame]
        exact .refl w
      · rw [hmade]
        refine World.grows_updateManager ?_ w m
        exact fun manager => by simp
  | listen g l =>
      unfold World.listen
      split
      · exact World.grows_updateGroup w g _
      · exact .refl w
  | unlisten g l => exact World.grows_updateGroup w g _
  | takeNews g => exact World.grows_updateGroup w g _
  | removeDue m e hdue =>
      obtain ⟨x, htells, hend⟩ := World.removeDue_tells w m e
      have hcleared : World.Grows w (w.withoutDue m e) := hmanager w m fun _ => rfl
      have hstripped := hcleared.trans htells.grows
      rcases hend with hdead | hremoved
      · rw [hdead]
        exact hstripped
      · rw [hremoved]
        exact hstripped.trans (hmanager x m fun _ => rfl)
  | countInit m => exact hmanager w m fun _ => rfl
  | setLifecycle m life => exact hmanager w m fun _ => rfl
  | elsewhere v hkinds hmanagers hprocessors =>
      exact World.grows_of_same_managers hmanagers hprocessors

theorem Moves.grows (h : Moves rule w v) : World.Grows w v := by
  induction h with
  | refl => exact .refl w
  | tail _ move ih => exact ih.trans move.grows

/-! ## Histories -/

namespace Session

variable {s t : Session}

/-- An action that follows a rule: what is requested does.  Returning from a callback always
does. -/
def Follows (rule : Rule) (s : Session) : Action → Prop
  | .request r => rule s.world r
  | .finish _ => True

instance {rule : Rule} [∀ w r, Decidable (rule w r)] : (a : Action) → Decidable (s.Follows rule a)
  | .request r => inferInstanceAs (Decidable (rule s.world r))
  | .finish _ => isTrue True.intro

/-- A history in which code outside follows a rule. -/
inductive ReachesUnder (rule : Rule) (s : Session) : Session → Prop where
  /-- Nothing happens. -/
  | refl : ReachesUnder rule s s
  /-- One more step happens. -/
  | step {t u : Session} (a : Action) (p : Progress) (h : ReachesUnder rule s t)
      (hrule : t.Follows rule a) (hact : t.act a = some (u, p)) : ReachesUnder rule s u

theorem proceed_world (stack : List Frame) (r : World × Progress) :
    (proceed stack r).1.world = r.1 := by
  obtain ⟨v, progress⟩ := r
  cases progress <;> rfl

/-- A step of a session is a series of moves. -/
theorem moves_of_act {a : Action} {p : Progress} (hrule : s.Follows rule a)
    (h : s.act a = some (t, p)) : Moves rule s.world t.world := by
  cases a with
  | request r =>
      unfold act at h
      dsimp only at h
      split at h
      · cases h
      · have ht := congrArg Prod.fst (Option.some.inj h)
        dsimp only at ht
        rw [← ht, proceed_world]
        exact World.moves_serve s.world s.engaged s.told hrule
  | finish outcome =>
      unfold act at h
      dsimp only at h
      split at h
      · cases h
      · rename_i frame stack hstack
        have ht := congrArg Prod.fst (Option.some.inj h)
        dsimp only at ht
        rw [← ht, proceed_world]
        exact World.moves_resume s.world outcome frame

/-- A history is a series of moves. -/
theorem moves_of_reachesUnder (h : ReachesUnder rule s t) : Moves rule s.world t.world := by
  induction h with
  | refl => exact .refl
  | step a p _ hrule hact ih => exact ih.trans (moves_of_act hrule hact)

/-- Without a rule every history counts. -/
theorem reachesUnder_true_iff : ReachesUnder (fun _ _ => True) s t ↔ Reaches s t := by
  constructor
  · intro h
    induction h with
    | refl => exact .refl s
    | step a p _ _ hact ih => exact .step a p ih hact
  · intro h
    induction h with
    | refl => exact .refl
    | step a p _ hact ih =>
        refine .step a p ih ?_ hact
        cases a with
        | request r => exact True.intro
        | finish outcome => exact True.intro

theorem ReachesUnder.mono {other : Rule} (himp : ∀ w r, rule w r → other w r)
    (h : ReachesUnder rule s t) : ReachesUnder other s t := by
  induction h with
  | refl => exact .refl
  | step a p _ hrule hact ih =>
      refine .step a p ih ?_ hact
      cases a with
      | request r => exact himp _ r hrule
      | finish outcome => exact True.intro

/-- The session after a request. -/
def after (s : Session) (r : Request) : Session :=
  (proceed s.stack (s.world.serve s.engaged s.told r)).1

/-- The session after some requests. -/
def afterAll (s : Session) (requests : List Request) : Session := requests.foldl after s

theorem ReachesUnder.request {r : Request} (h : ReachesUnder rule s t)
    (hopen : t.bars r = false) (hrule : rule t.world r) :
    ReachesUnder rule s (t.after r) := by
  refine .step (.request r) (proceed t.stack (t.world.serve t.engaged t.told r)).2 h hrule ?_
  unfold act
  dsimp only
  rw [hopen]
  rfl

end Session

end EntityStore
