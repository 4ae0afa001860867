import EntityStore.Proofs.Session.History
import EntityStore.Proofs.World.Lives

/-!
# What the phases of a life come to

A phase goes over the processors of a manager until one of them has a callback.  For each phase,
what it comes to is said once here, as far as lives and the stack go.

* `runUpdates_cases`: a processor is updated, or the tick ends.
* `runInits_outcome`: the processors that are initialised on the way are those of `World.settled`.
* `runStops_cases`: the processors that are shut down on the way are those of `World.called`.
* `begins_cases`: a request for initialisation or for a tick begins the one or the other, or it is
  answered at once.
* `aside_serve`, `plain_serve`: requests that are no phase begin only callbacks of observers, of
  walks and of processors that no manager owns.
* `act_answered`: a request that a manager grants or refuses leaves the stack.
-/

namespace EntityStore

variable [Host]

/-- The manager whose processors are initialised or shut down by what waits for a frame. -/
def Frame.tended? : Frame → Option ManagerId
  | initialising m _ _ _ => some m
  | stopping m _ _ _ => some m
  | _ => none

/-- Does a frame belong to no phase of any manager? -/
def Frame.isPlain : Frame → Bool
  | observing _ _ _ _ _ => true
  | walking _ _ _ => true
  | visiting _ _ _ _ .alone => true
  | _ => false

/-- Is an observer told of something, or a holder visited in a walk?  No processor has a part in it. -/
def Frame.isAside : Frame → Bool
  | observing _ _ _ _ _ => true
  | walking _ _ _ => true
  | _ => false

/-- Does a request begin a phase? -/
def Request.isPhase : Request → Bool
  | initialise _ => true
  | update _ _ => true
  | shutDown _ => true
  | _ => false

/-- The manager whose initialisation a request may begin. -/
def Request.begins? : Request → Option ManagerId
  | initialise m => some m
  | update m _ => some m
  | _ => none

theorem Frame.isPlain_of_isAside {frame : Frame} (h : frame.isAside = true) :
    frame.isPlain = true := by
  cases frame with
  | observing o k e change reply => rfl
  | walking k e rest => rfl
  | _ => cases h

theorem Frame.tended?_of_isPlain {frame : Frame} (h : frame.isPlain = true) :
    frame.tended? = none := by
  cases frame with
  | initialising m p rest next => cases h
  | stopping m p rest failure => cases h
  | _ => rfl

namespace World

variable {w : World} {m : ManagerId}

/-- The processors that are shut down in turn, up to the first that has a callback for it. -/
def called (w : World) : List ProcessorId → List ProcessorId
  | [] => []
  | p :: rest =>
    match (w.processor p).body with
    | .custom => [p]
    | .visitor _ => p :: called w rest

/-- The processors that are initialised in turn without a callback, up to the first that has one or
that cannot be initialised. -/
def settled (w : World) (m : ManagerId) : List ProcessorId → List ProcessorId
  | [] => []
  | p :: rest =>
    match (w.processor p).body with
    | .custom => []
    | .visitor v =>
      match w.settleVisitor p v m with
      | (_, .error _) => []
      | (w, .ok ()) => p :: settled (w.countInit m) m rest

/-! ## Ticks -/

theorem flush_pushed (w : World) (m : ManagerId) (numbers : List Nat) :
    ∀ frame ∈ (w.flush m numbers).2.pushed, ∃ number notice rest groups,
      frame = .notifying ⟨m, number⟩ notice rest groups := by
  induction numbers generalizing w with
  | nil => exact Progress.forall_pushed_of_nil rfl
  | cons number groups ih =>
      unfold flush
      split
      · exact ih _
      · intro frame hframe
        exact ⟨number, _, _, _, List.mem_singleton.1 hframe⟩

/-- Updating processors comes to the end of the tick, or to an answer or a callback that has changed
nothing yet. -/
theorem runUpdates_cases (w : World) (m : ManagerId) (time : Time)
    (processors : List ProcessorId) :
    w.runUpdates m time processors = w.endTick m ∨
      ∃ p, w.runUpdates m time processors = (w, p) ∧
        ∀ frame ∈ p.pushed, frame.engaged? = some m ∧ frame.tended? = none := by
  induction processors with
  | nil => exact Or.inl rfl
  | cons p rest ih =>
      unfold runUpdates
      split
      · exact Or.inr ⟨_, rfl, Progress.forall_pushed_calls ⟨rfl, rfl⟩⟩
      · split
        · exact Or.inr ⟨_, rfl, Progress.forall_pushed_of_nil rfl⟩
        · split
          · exact Or.inr ⟨_, rfl, Progress.forall_pushed_calls ⟨rfl, rfl⟩⟩
          · exact ih

theorem life_runUpdates (w : World) (m : ManagerId) (time : Time) (processors : List ProcessorId)
    (n : ManagerId) : (w.runUpdates m time processors).1.life n = w.life n := by
  rcases runUpdates_cases w m time processors with htick | ⟨p, hsame, -⟩
  · rw [htick, life_endTick]
  · rw [hsame]

theorem untended_flush (w : World) (m : ManagerId) (numbers : List Nat) :
    ∀ frame ∈ (w.flush m numbers).2.pushed, frame.tended? = none := by
  intro frame hframe
  obtain ⟨number, notice, rest, groups, rfl⟩ := flush_pushed w m numbers frame hframe
  rfl

theorem untended_runUpdates (w : World) (m : ManagerId) (time : Time)
    (processors : List ProcessorId) :
    ∀ frame ∈ (w.runUpdates m time processors).2.pushed, frame.tended? = none := by
  rcases runUpdates_cases w m time processors with htick | ⟨p, hsame, hpushed⟩
  · rw [htick]
    exact untended_flush _ m _
  · rw [hsame]
    exact fun frame hframe => (hpushed frame hframe).2

/-! ## Initialisation -/

/-- What becomes of the life of a manager when some of its processors are to be initialised, after
those that were initialised on the way. -/
inductive InitOutcome (m : ManagerId) (next : Option Time) (old : Life)
    (done rest : List ProcessorId) : Life → Progress → Prop where
  /-- All are initialised, and the manager is open for ticks. -/
  | opened (p : Progress) (hrest : rest = [])
      (hpushed : ∀ frame ∈ p.pushed, frame.tended? = none) :
      InitOutcome m next old done rest
        ⟨.running, old.processors, old.initialised + done.length⟩ p
  /-- One of them has a callback. -/
  | calling (q : ProcessorId) (others : List ProcessorId) (hrest : rest = q :: others) :
      InitOutcome m next old done rest
        ⟨old.lifecycle, old.processors, old.initialised + done.length⟩
        (.calls (.initialising m q others next))
  /-- One of them cannot be initialised. -/
  | failed (cause : ManagerError) (hrest : rest ≠ []) :
      InitOutcome m next old done rest
        ⟨old.lifecycle, old.processors, old.initialised + done.length⟩ (.refuses cause)

namespace InitOutcome

variable {next : Option Time} {old new : Life} {done rest : List ProcessorId} {p : Progress}

theorem processors (h : InitOutcome m next old done rest new p) :
    new.processors = old.processors := by
  cases h <;> rfl

theorem initialised (h : InitOutcome m next old done rest new p) :
    new.initialised = old.initialised + done.length := by
  cases h <;> rfl

/-- The manager is opened once all are initialised; before that its life stands where it stood. -/
theorem lifecycle (h : InitOutcome m next old done rest new p) :
    new.lifecycle = .running ∧ rest = [] ∨ new.lifecycle = old.lifecycle ∧ rest ≠ [] := by
  cases h with
  | opened p hrest hpushed => exact Or.inl ⟨rfl, hrest⟩
  | calling q others hrest =>
      refine Or.inr ⟨rfl, ?_⟩
      rw [hrest]
      exact List.cons_ne_nil q others
  | failed cause hrest => exact Or.inr ⟨rfl, hrest⟩

theorem pushed (h : InitOutcome m next old done rest new p) :
    (∀ frame ∈ p.pushed, frame.tended? = none) ∨
      ∃ q others, rest = q :: others ∧ p = .calls (.initialising m q others next) := by
  cases h with
  | opened p hrest hpushed => exact Or.inl hpushed
  | calling q others hrest => exact Or.inr ⟨q, others, hrest, rfl⟩
  | failed cause hrest => exact Or.inl (Progress.forall_pushed_of_nil rfl)

end InitOutcome

/-- One more processor was initialised before those that were initialised on the way. -/
theorem InitOutcome.cons {next : Option Time} {stage : Lifecycle} {processors : List ProcessorId}
    {count : Nat} {done rest : List ProcessorId} {new : Life} {p : Progress}
    (h : InitOutcome m next ⟨stage, processors, count + 1⟩ done rest new p) (q : ProcessorId) :
    InitOutcome m next ⟨stage, processors, count⟩ (q :: done) rest new p := by
  have hcount : count + 1 + done.length = count + (q :: done).length := by
    rw [List.length_cons]
    omega
  cases h with
  | opened p hrest hpushed =>
      dsimp only
      rw [hcount]
      exact .opened p hrest hpushed
  | calling p others hrest =>
      dsimp only
      rw [hcount]
      exact .calling p others hrest
  | failed cause hrest =>
      dsimp only
      rw [hcount]
      exact .failed cause hrest

theorem life_runInits_of_ne {n : ManagerId} (hn : n ≠ m) (w : World) (next : Option Time)
    (processors : List ProcessorId) : (w.runInits m next processors).1.life n = w.life n := by
  induction processors generalizing w with
  | nil =>
      unfold runInits
      cases next with
      | none => exact life_updateManager_of_ne hn
      | some time =>
          dsimp only
          rw [life_runUpdates, life_updateManager_of_ne hn]
  | cons p rest ih =>
      unfold runInits
      split
      · rfl
      · rename_i visitor hbody
        have hsettle := life_settleVisitor w p visitor m n
        split
        · rename_i hsettled
          rw [hsettled] at hsettle
          exact hsettle
        · rename_i hsettled
          rw [hsettled] at hsettle
          dsimp only
          rw [ih, life_updateManager_of_ne hn, hsettle]

/-- Initialising the processors of a manager calls one of them back that is to be initialised, or
goes on with the tick. -/
theorem pushed_runInits (w : World) (m : ManagerId) (next : Option Time)
    (processors : List ProcessorId) : ∀ frame ∈ (w.runInits m next processors).2.pushed,
      (∃ p rest, frame = .initialising m p rest next) ∨ frame.tended? = none := by
  induction processors generalizing w with
  | nil =>
      unfold runInits
      cases next with
      | none => exact Progress.forall_pushed_of_nil rfl
      | some time => exact fun frame hframe => Or.inr (untended_runUpdates _ m time _ frame hframe)
  | cons p rest ih =>
      unfold runInits
      split
      · exact fun frame hframe => Or.inl ⟨p, rest, List.mem_singleton.1 hframe⟩
      · split
        · exact Progress.forall_pushed_of_nil rfl
        · exact ih _

theorem grows_countInit (w : World) (m : ManagerId) : Grows w (w.countInit m) := by
  refine grows_updateManager ?_ w m
  exact fun _ => Nat.le_refl _

theorem life_countInit (h : m.place < w.managers.length) :
    (w.countInit m).life m =
      ⟨(w.life m).lifecycle, (w.life m).processors, (w.life m).initialised + 1⟩ :=
  life_updateManager_self h

/-- Initialising some processors initialises those that are settled on the way. -/
theorem runInits_outcome (hm : m.place < w.managers.length) (next : Option Time)
    (processors : List ProcessorId) :
    ∃ rest, processors = w.settled m processors ++ rest ∧
      InitOutcome m next (w.life m) (w.settled m processors) rest
        ((w.runInits m next processors).1.life m) (w.runInits m next processors).2 := by
  induction processors generalizing w with
  | nil =>
      have hrunning : (w.updateManager m fun manager =>
          { manager with lifecycle := .running }).life m =
            ⟨.running, (w.life m).processors, (w.life m).initialised + 0⟩ :=
        life_updateManager_self hm
      refine ⟨[], rfl, ?_⟩
      unfold runInits
      cases next with
      | none =>
          dsimp only
          rw [hrunning]
          exact .opened _ rfl (Progress.forall_pushed_of_nil rfl)
      | some time =>
          dsimp only
          rw [life_runUpdates, hrunning]
          exact .opened _ rfl (untended_runUpdates _ m time _)
  | cons p rest ih =>
      cases hbody : (w.processor p).body with
      | custom =>
          simp only [runInits, settled, hbody]
          exact ⟨p :: rest, rfl, .calling p rest rfl⟩
      | visitor visitor =>
          have hlife := life_settleVisitor w p visitor m m
          have hmoves : Moves (fun _ _ => True) w (w.settleVisitor p visitor m).1 :=
            moves_settleVisitor w p visitor m
          have hgrows := hmoves.grows
          cases hsettled : w.settleVisitor p visitor m with
          | mk u result =>
              rw [hsettled] at hlife hgrows
              dsimp only at hlife hgrows
              cases result with
              | error cause =>
                  simp only [runInits, settled, hbody, hsettled]
                  refine ⟨p :: rest, rfl, ?_⟩
                  rw [hlife]
                  exact .failed _ (List.cons_ne_nil p rest)
              | ok done =>
                  simp only [runInits, settled, hbody, hsettled]
                  -- the visitor counts as initialised, and the walk goes on behind it
                  have hu := Nat.lt_of_lt_of_le hm hgrows.managers
                  have hcounted : m.place < (u.countInit m).managers.length :=
                    Nat.lt_of_lt_of_le hu (grows_countInit u m).managers
                  obtain ⟨others, hsplit, houtcome⟩ := ih hcounted
                  rw [life_countInit hu, hlife] at houtcome
                  refine ⟨others, ?_, houtcome.cons p⟩
                  rw [List.cons_append, ← hsplit]

/-! ## Shut-down -/

/-- What is answered when all are shut down. -/
def stopReply : Option ManagerError → Progress
  | none => .done
  | some cause => .refuses cause

theorem pushed_stopReply (failure : Option ManagerError) : (stopReply failure).pushed = [] := by
  cases failure <;> rfl

/-- Shutting down some processors shuts down those that are called on the way. -/
theorem runStops_cases (w : World) (m : ManagerId) (failure : Option ManagerError)
    (processors : List ProcessorId) :
    (w.called processors = processors ∧
        (w.runStops m failure processors).2 = stopReply failure) ∨
      ∃ p rest, processors = w.called processors ++ rest ∧ p ∈ w.called processors ∧
        (w.runStops m failure processors).2 = .calls (.stopping m p rest failure) := by
  induction processors with
  | nil =>
      refine Or.inl ⟨rfl, ?_⟩
      cases failure <;> rfl
  | cons q others ih =>
      cases hbody : (w.processor q).body with
      | custom =>
          simp only [runStops, called, hbody]
          exact Or.inr ⟨q, others, rfl, List.mem_singleton.2 rfl, rfl⟩
      | visitor visitor =>
          simp only [runStops, called, hbody]
          rcases ih with ⟨hall, hreply⟩ | ⟨p, rest, hsplit, hp, hcalls⟩
          · exact Or.inl ⟨by rw [hall], hreply⟩
          · refine Or.inr ⟨p, rest, ?_, List.mem_cons_of_mem q hp, hcalls⟩
            rw [List.cons_append, ← hsplit]

theorem tended_runStops (w : World) (m : ManagerId) (failure : Option ManagerError)
    (processors : List ProcessorId) :
    ∀ frame ∈ (w.runStops m failure processors).2.pushed, frame.tended? = some m := by
  rcases runStops_cases w m failure processors with ⟨-, hreply⟩ | ⟨p, rest, -, -, hcalls⟩
  · rw [hreply]
    exact Progress.forall_pushed_of_nil (pushed_stopReply failure)
  · rw [hcalls]
    exact Progress.forall_pushed_calls rfl

theorem tended_shutDown (w : World) (m : ManagerId) (engaged : Bool) :
    ∀ frame ∈ (w.shutDown m engaged).2.pushed, frame.tended? = some m := by
  rcases w.shutDown_cases m engaged with ⟨-, h⟩ | ⟨-, -, h⟩ | ⟨-, -, h⟩
  · rw [h]
    exact Progress.forall_pushed_of_nil rfl
  · rw [h]
    exact Progress.forall_pushed_of_nil rfl
  · rw [h]
    exact tended_runStops _ m none _

theorem life_ended (h : m.place < w.managers.length) :
    (w.ended m).life m = ⟨.shutDown, (w.life m).processors, (w.life m).initialised⟩ :=
  life_updateManager_self h

theorem life_ended_of_ne {n : ManagerId} (h : n ≠ m) : (w.ended m).life n = w.life n :=
  life_updateManager_of_ne h

/-- Ending a life that is over changes nothing. -/
theorem life_ended_of_over (h : (w.manager m).lifecycle = .shutDown) (n : ManagerId) :
    (w.ended m).life n = w.life n := by
  unfold ended life
  rw [manager_updateManager]
  split
  · rename_i hn
    rw [hn.1]
    show Life.mk .shutDown _ _ = Life.mk _ _ _
    rw [h]
  · rfl

/-- Which processors are called depends on no manager. -/
theorem called_ended (w : World) (m : ManagerId) (processors : List ProcessorId) :
    (w.ended m).called processors = w.called processors := by
  have hprocessor : ∀ p, (w.ended m).processor p = w.processor p := fun _ => rfl
  induction processors with
  | nil => rfl
  | cons p rest ih =>
      unfold called
      rw [hprocessor, ih]

/-! ## Requests -/

/-- A request for initialisation or for a tick begins to initialise processors, or it updates them,
or it is answered at once. -/
theorem begins_cases (w : World) (engaged : ManagerId → Bool) (told : ObserverId → Bool)
    {r : Request} {n : ManagerId} (hr : r.begins? = some n) :
    ((w.manager n).lifecycle = .setup ∧ engaged n = false ∧
        ∃ next, w.serve engaged told r = w.runInits n next (w.uninitialised n)) ∨
      ¬ ((w.manager n).lifecycle = .setup ∧ engaged n = false) ∧
        ((∃ time, w.serve engaged told r = w.runUpdates n time (w.manager n).processors) ∨
          ∃ reply, w.serve engaged told r = (w, .replies reply)) := by
  cases r with
  | initialise k =>
      cases hr
      rcases w.initialise_cases n (engaged n) with ⟨hsetup, hfree, h⟩ | ⟨hbusy, h⟩
      · exact Or.inl ⟨hsetup, hfree, none, h⟩
      · exact Or.inr ⟨hbusy, Or.inr h⟩
  | update k time =>
      cases hr
      rcases w.update_cases n time (engaged n) with ⟨hsetup, hfree, h⟩ | ⟨hbusy, h | h⟩
      · exact Or.inl ⟨hsetup, hfree, some time, h⟩
      · exact Or.inr ⟨hbusy, Or.inl ⟨time, h⟩⟩
      · exact Or.inr ⟨hbusy, Or.inr h⟩
  | _ => cases hr

theorem pushed_answer {α : Type} (granted : α → Granted) (r : World × Except ManagerError α) :
    (answer granted r).2.pushed = [] := by
  obtain ⟨v, result⟩ := r
  cases result <;> rfl

theorem aside_tellObserver (w : World) (told : ObserverId → Bool) (k : KindId) (e : EntityId)
    (change : MemberChange) (reply : Reply) :
    ∀ frame ∈ (w.tellObserver told k e change reply).2.pushed, frame.isAside = true := by
  unfold tellObserver
  split
  · exact Progress.forall_pushed_calls rfl
  · exact Progress.forall_pushed_of_nil rfl

theorem aside_walkFrom (w : World) (k : KindId) (holders : List EntityId) :
    ∀ frame ∈ (w.walkFrom k holders).2.pushed, frame.isAside = true := by
  cases holders with
  | nil => exact Progress.forall_pushed_of_nil rfl
  | cons e rest => exact Progress.forall_pushed_calls rfl

/-- A request that is no phase calls no processor back, but for the tick of one that no manager
owns. -/
theorem aside_serve (w : World) (engaged : ManagerId → Bool) (told : ObserverId → Bool)
    {r : Request} (h : r.isPhase = false) (halone : ∀ p m time, r ≠ .updateAlone p m time) :
    ∀ frame ∈ (w.serve engaged told r).2.pushed, frame.isAside = true := by
  have hnone : ∀ frame ∈ ([] : List Frame), frame.isAside = true := List.forall_mem_nil _
  have hanswer : ∀ {α : Type} (granted : α → Granted) (result : World × Except ManagerError α),
      ∀ frame ∈ (answer granted result).2.pushed, frame.isAside = true :=
    fun granted result => Progress.forall_pushed_of_nil (pushed_answer granted result)
  cases r with
  | addHolder k e =>
      show ∀ frame ∈ (w.giveAndTell told k e).2.pushed, _
      unfold giveAndTell
      split
      · exact hnone
      · exact aside_tellObserver _ told k e .joined _
  | removeHolder k e =>
      show ∀ frame ∈ (w.takeAndTell told k e).2.pushed, _
      unfold takeAndTell
      split
      · exact hnone
      · exact aside_tellObserver _ told k e .left _
  | walk k => exact aside_walkFrom w k _
  | attach k number o =>
      unfold serve
      dsimp only
      split
      · exact hnone
      · exact hnone
  | registerKind m k => exact hanswer _ _
  | registerProcessor m p => exact hanswer _ _
  | create m kinds => exact hanswer _ _
  | addComponent m e k => exact hanswer _ _
  | removeComponent m e k => exact hanswer _ _
  | openGroup m required forbidden => exact hanswer _ _
  | listen g l => exact hanswer _ _
  | initialise m => cases h
  | update m time => cases h
  | shutDown m => cases h
  | initialiseAlone p m =>
      show ∀ frame ∈ (w.initialiseAlone p m).2.pushed, _
      unfold initialiseAlone
      split
      · exact hnone
      · split
        · exact hnone
        · exact hnone
  | updateAlone p m time => exact absurd rfl (halone p m time)
  | _ => exact hnone

theorem plain_walkFrom (w : World) (k : KindId) (holders : List EntityId) :
    ∀ frame ∈ (w.walkFrom k holders).2.pushed, frame.isPlain = true :=
  fun frame hframe => Frame.isPlain_of_isAside (w.aside_walkFrom k holders frame hframe)

theorem plain_updateAlone (w : World) (p : ProcessorId) (m : ManagerId) (time : Time) :
    ∀ frame ∈ (w.updateAlone p m time).2.pushed, frame.isPlain = true := by
  unfold updateAlone
  split
  · exact Progress.forall_pushed_of_nil rfl
  · split
    · exact Progress.forall_pushed_of_nil rfl
    · split
      · exact Progress.forall_pushed_calls rfl
      · exact Progress.forall_pushed_of_nil rfl

/-- A request that is no phase begins no callback that belongs to one. -/
theorem plain_serve (w : World) (engaged : ManagerId → Bool) (told : ObserverId → Bool)
    {r : Request} (h : r.isPhase = false) :
    ∀ frame ∈ (w.serve engaged told r).2.pushed, frame.isPlain = true := by
  by_cases halone : ∃ p m time, r = .updateAlone p m time
  · obtain ⟨p, m, time, rfl⟩ := halone
    exact plain_updateAlone w p m time
  · refine fun frame hframe => Frame.isPlain_of_isAside (w.aside_serve engaged told h ?_ frame hframe)
    exact fun p m time hr => halone ⟨p, m, time, hr⟩

/-- A request that is no phase and makes neither a manager nor a processor of one leaves all lives
as they are. -/
theorem life_serve (w : World) (engaged : ManagerId → Bool) (told : ObserverId → Bool)
    {r : Request} (hphase : r.isPhase = false) (hmanager : ∀ config, r ≠ .makeManager config)
    (hprocessor : ∀ m p, r ≠ .registerProcessor m p) (n : ManagerId) :
    (w.serve engaged told r).1.life n = w.life n := by
  have hserved := w.served engaged told r
  generalize (w.serve engaged told r).1 = v at hserved ⊢
  cases hserved with
  | heard htells => exact life_tells htells n
  | makeManager config => exact absurd rfl (hmanager config)
  | retire m =>
      refine life_updateManager ?_ w m n
      exact fun _ => rfl
  | registerKind m k => exact life_registerKind w m k n
  | registerProcessor m p => exact absurd rfl (hprocessor m p)
  | create m kinds => exact life_create w m kinds n
  | scheduleRemoval m e =>
      refine life_updateManager ?_ w m n
      exact fun _ => rfl
  | openGroup m required forbidden => exact life_openGroup w m required forbidden n
  | listen g l => exact life_listen w g l n
  | unlisten g l => exact life_updateGroup w g _ n
  | makeProcessor p => rfl
  | settles p visitor m => exact life_settleVisitor w p visitor m n
  | initialises m => cases hphase
  | updates m time => cases hphase
  | ends m => cases hphase

end World

namespace Session

variable {s t : Session} {p : Progress}

/-- A request that a manager grants or refuses is answered over the stack as it is. -/
theorem act_answered {α : Type} (granted : α → Granted) {r : Request}
    {result : World × Except ManagerError α} (hact : s.act (.request r) = some (t, p))
    (hserve : s.world.serve s.engaged s.told r = World.answer granted result) :
    t.world = result.1 ∧ t.stack = s.stack ∧ p = (World.answer granted result).2 := by
  obtain ⟨-, rfl, rfl⟩ := act_request hact
  rw [hserve, World.pushed_answer]
  exact ⟨World.answer_world granted result, rfl, rfl⟩

/-- Sessions with the same world and the same stack are one. -/
theorem eq_of_parts (hworld : t.world = s.world) (hstack : t.stack = s.stack) : t = s := by
  obtain ⟨w, stack⟩ := s
  obtain ⟨v, other⟩ := t
  dsimp only at hworld hstack
  rw [hworld, hstack]

end Session

end EntityStore
