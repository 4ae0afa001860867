import EntityStore.Proofs.Session.Callbacks
import EntityStore.Proofs.Session.Course
import EntityStore.Proofs.Session.Exclusion

/-!
# The marks of an event

`Event.marks` says what an event does to the processors of a manager, mark by mark.  A visitor takes
its steps without a callback of its own for each of them, so some marks begin and end within one
event; they are found by walking over the processors as the phases do.

* `Session.log`: the marks of a history.
* `Deed`, `deed_of_act`: what an event does to the processors of a manager, with its marks.
-/

namespace EntityStore

variable [Host]

namespace World

variable (w : World)

/-- The failure of a callback of a processor. -/
def failure? (p : ProcessorId) : Outcome → Option ManagerError
  | .ok () => none
  | .error message => some (.processor (w.processor p).name message)

/-- The marks of updating the listed processors, up to the first callback or failure. -/
def updateMarks : List ProcessorId → List Mark
  | [] => [.ticked]
  | p :: rest =>
    .begins .update p ::
      match (w.processor p).body with
      | .custom => []
      | .visitor v =>
        match v.group with
        | none => [.ends .update p (w.failure? p (.error (unpreparedText (w.processor p).name)))]
        | some g =>
          match w.firstStage? v g with
          | some _ => []
          | none => .ends .update p none :: updateMarks rest

/-- The marks of initialising the listed processors, and of the tick that asked for it. -/
def initMarks (w : World) (m : ManagerId) (next : Option Time) : List ProcessorId → List Mark
  | [] =>
    match next with
    | none => []
    | some _ =>
      let w := w.updateManager m fun manager => { manager with lifecycle := .running }
      .tick :: w.updateMarks (w.manager m).processors
  | p :: rest =>
    .begins .init p ::
      match (w.processor p).body with
      | .custom => []
      | .visitor v =>
        match w.settleVisitor p v m with
        | (w, .error cause) => [.ends .init p (w.failure? p (.error cause.message))]
        | (w, .ok ()) => .ends .init p none :: initMarks (w.countInit m) m next rest

/-- The marks of shutting the listed processors down. -/
def stopMarks (failure : Option ManagerError) : List ProcessorId → List Mark
  | [] => [.closed failure]
  | p :: rest =>
    .begins .stop p ::
      match (w.processor p).body with
      | .custom => []
      | .visitor _ => .ends .stop p none :: stopMarks failure rest

/-- The marks of a request, for one manager whose processors may be in use. -/
def serveMarks (m : ManagerId) (engaged : Bool) : Request → List Mark
  | .registerProcessor n p =>
    if n = m then
      match (w.registerProcessor m p).2 with
      | .ok id => [.registered id]
      | .error _ => []
    else []
  | .initialise n =>
    if n = m ∧ (w.manager m).lifecycle = .setup ∧ engaged = false then
      w.initMarks m none (w.uninitialised m)
    else []
  | .update n time =>
    if n = m ∧ engaged = false then
      match (w.manager m).lifecycle with
      | .setup => w.initMarks m (some time) (w.uninitialised m)
      | .running => .tick :: w.updateMarks (w.manager m).processors
      | .shutDown => []
    else []
  | .shutDown n =>
    if n = m ∧ (w.manager m).lifecycle ≠ .shutDown ∧ engaged = false then
      .closing :: (w.ended m).stopMarks none
        ((w.manager m).processors.take (w.manager m).initialised)
    else []
  | _ => []

/-- The marks of the return of a callback, for one manager. -/
def resumeMarks (m : ManagerId) (outcome : Outcome) : Frame → List Mark
  | .initialising n p rest next =>
    if n = m then
      .ends .init p (w.failure? p outcome) ::
        match outcome with
        | .error _ => []
        | .ok () => (w.countInit m).initMarks m next rest
    else []
  | .updating n p _ rest =>
    if n = m then
      .ends .update p (w.failure? p outcome) ::
        match outcome with
        | .error _ => []
        | .ok () => w.updateMarks rest
    else []
  | .visiting n p _ stage (.tick rest) =>
    if n = m then
      match outcome with
      | .error _ => [.ends .update p (w.failure? p outcome)]
      | .ok () =>
        match w.followingStage? p stage with
        | some _ => []
        | none => .ends .update p none :: w.updateMarks rest
    else []
  | .stopping n p rest failure =>
    if n = m then
      .ends .stop p (w.failure? p outcome) :: w.stopMarks (failure.or (w.failure? p outcome)) rest
    else []
  | _ => []

end World

/-- What the callback of a processor is for, if a frame is one. -/
def Frame.duty? (m : ManagerId) (p : ProcessorId) : Frame → Option Duty
  | initialising n q _ _ => if n = m ∧ q = p then some .init else none
  | updating n q _ _ => if n = m ∧ q = p then some .update else none
  | visiting n q _ _ (.tick _) => if n = m ∧ q = p then some .update else none
  | stopping n q _ _ => if n = m ∧ q = p then some .stop else none
  | _ => none

/-- The callback of a processor that begins, if one does. -/
def Progress.begins (m : ManagerId) (p : ProcessorId) (progress : Progress) : List Mark :=
  progress.pushed.filterMap fun frame => (frame.duty? m p).map fun duty => .begins duty p

namespace Session

/-- What an event does to the processors of a manager. -/
def Event.marks (m : ManagerId) (e : Event) : List Mark :=
  match e.action with
  | .request r => e.before.world.serveMarks m (e.before.engaged m) r
  | .finish outcome =>
    match e.before.stack with
    | [] => []
    | frame :: _ => e.before.world.resumeMarks m outcome frame

/-- What a history does to the processors of a manager. -/
def log (m : ManagerId) (events : List Event) : List Mark := events.flatMap fun e => e.marks m

theorem log_snoc (m : ManagerId) (events : List Event) (e : Event) :
    log m (events ++ [e]) = log m events ++ e.marks m := by
  simp [log]

/-- The callback of a processor that returns, if one does, with its failure. -/
def Event.returns (m : ManagerId) (p : ProcessorId) (e : Event) : List Mark :=
  match e.action with
  | .request _ => []
  | .finish outcome =>
    (e.before.stack.take 1).filterMap fun frame => (frame.duty? m p).map fun duty =>
      .ends duty p (e.before.world.failure? p outcome)

end Session

/-! ## What an event comes to -/

/-- The manager whose phase a request begins. -/
def Request.phase? : Request → Option ManagerId
  | initialise m => some m
  | update m _ => some m
  | shutDown m => some m
  | _ => none

theorem Request.isPhase_of_phase? {r : Request} (h : r.phase? = none) : r.isPhase = false := by
  cases r with
  | initialise m => cases h
  | update m time => cases h
  | shutDown m => cases h
  | _ => rfl

theorem Frame.engaged?_of_tended {frame : Frame} {m : ManagerId} (h : frame.tended? = some m) :
    frame.engaged? = some m := by
  cases frame with
  | initialising n p rest next => exact h
  | stopping n p rest failure => exact h
  | _ => cases h

namespace World

variable {w : World} {m n : ManagerId}

/-- A phase of a manager calls back its own processors and listeners. -/
theorem host_of_phase (w : World) (engaged : ManagerId → Bool) (told : ObserverId → Bool)
    {r : Request} (h : r.phase? = some n) :
    ∀ frame ∈ (w.serve engaged told r).2.pushed, frame.host? = some n := by
  cases r with
  | initialise k =>
      obtain rfl := Option.some.inj h
      show ∀ frame ∈ (w.initialise k (engaged k)).2.pushed, _
      rcases w.initialise_cases k (engaged k) with ⟨-, -, h⟩ | ⟨-, reply, h⟩
      · rw [h]
        intro frame hframe
        obtain ⟨p, rest, rfl⟩ := (readied_runInits w k _).2 frame hframe
        rfl
      · rw [h]
        exact Progress.forall_pushed_of_nil rfl
  | update k time =>
      obtain rfl := Option.some.inj h
      exact (tickOutcome_update w k time (engaged k)).host
  | shutDown k =>
      obtain rfl := Option.some.inj h
      exact fun frame hframe => Frame.host?_of_tended (tended_shutDown w k (engaged k) frame hframe)
  | _ => cases h

/-- A phase of a manager is no matter of the lives of others. -/
theorem life_of_other_phase (w : World) (engaged : ManagerId → Bool) (told : ObserverId → Bool)
    {r : Request} (h : r.phase? = some n) (hne : m ≠ n) :
    (w.serve engaged told r).1.life m = w.life m := by
  cases r with
  | initialise k =>
      obtain rfl := Option.some.inj h
      show (w.initialise k (engaged k)).1.life m = w.life m
      rcases w.initialise_cases k (engaged k) with ⟨-, -, h⟩ | ⟨-, reply, h⟩
      · rw [h, life_runInits_of_ne hne]
      · rw [h]
  | update k time =>
      obtain rfl := Option.some.inj h
      show (w.update k time (engaged k)).1.life m = w.life m
      rcases w.update_cases k time (engaged k) with ⟨-, -, h⟩ | ⟨-, h | ⟨reply, h⟩⟩
      · rw [h, life_runInits_of_ne hne]
      · rw [h, life_runUpdates]
      · rw [h]
  | shutDown k =>
      obtain rfl := Option.some.inj h
      show (w.shutDown k (engaged k)).1.life m = w.life m
      rw [shutDown_world, life_ended_of_ne hne]
  | _ => cases h

/-- What follows a callback is a callback of a manager's processor only if the first was one. -/
theorem unengaged_resume (w : World) (outcome : Outcome) {frame : Frame}
    (h : frame.engaged? ≠ some m) :
    ∀ next ∈ (w.resume outcome frame).2.pushed, next.engaged? ≠ some m := by
  intro next hnext hengaged
  have hhost := w.host_resume outcome frame next hnext
  rw [Frame.host?_of_engaged hengaged] at hhost
  cases frame with
  | notifying g notice rest groups =>
      cases rest with
      | nil =>
          obtain ⟨number, notice, rest, groups, rfl⟩ := flush_pushed w g.manager groups next hnext
          cases hengaged
      | cons following rest =>
          obtain rfl := List.mem_singleton.1 hnext
          cases hengaged
  | initialising n p rest time => exact h hhost.symm
  | updating n p time rest => exact h hhost.symm
  | visiting n p time stage errand => exact h hhost.symm
  | stopping n p rest failure => exact h hhost.symm
  | observing o k e change reply => cases hhost
  | walking k e rest => cases hhost

/-- The others are shut down, and the first failure is kept. -/
theorem resume_stopping (w : World) (outcome : Outcome) (m : ManagerId) (p : ProcessorId)
    (rest : List ProcessorId) (failure : Option ManagerError) :
    w.resume outcome (.stopping m p rest failure) =
      w.runStops m (failure.or (w.failure? p outcome)) rest := by
  cases outcome with
  | error message => rfl
  | ok done =>
      rw [failure?, Option.or_none]
      rfl

theorem resumeMarks_eq_nil (w : World) (outcome : Outcome) {frame : Frame}
    (h : frame.engaged? ≠ some m) : w.resumeMarks m outcome frame = [] := by
  have hn : ∀ {n : ManagerId}, some n ≠ some m → n ≠ m := fun hne heq => hne (congrArg some heq)
  cases frame with
  | initialising n p rest next => exact if_neg (hn h)
  | updating n p time rest => exact if_neg (hn h)
  | visiting n p time stage errand =>
      cases errand with
      | tick rest => exact if_neg (hn h)
      | alone => rfl
  | stopping n p rest failure => exact if_neg (hn h)
  | _ => rfl

end World

namespace Session

variable {m : ManagerId} {e : Event}

/-- What an event does to the processors of a manager. -/
inductive Deed (m : ManagerId) (e : Event) : Prop where
  /-- Nothing. -/
  | aside (below : List Frame) (hmarks : e.marks m = [])
      (hlife : e.after.world.life m = e.before.world.life m ∨
        e.before.world.managers.length ≤ m.place ∧ e.after.world.life m = ⟨.setup, [], 0⟩ ∨
        (e.before.world.life m).lifecycle ≠ .shutDown ∧ e.after.world.life m =
          ⟨.shutDown, (e.before.world.life m).processors, (e.before.world.life m).initialised⟩)
      (hafter : e.after.stack = e.progress.pushed ++ below)
      (hbefore : e.before.stack = below ∧ (∃ r, e.action = .request r) ∨
        ∃ frame, e.before.stack = frame :: below ∧ frame.engaged? ≠ some m)
      (hpushed : ∀ next ∈ e.progress.pushed, next.engaged? ≠ some m)
  /-- One is registered. -/
  | registers (p : ProcessorId) (hmarks : e.marks m = [.registered p])
      (hnew : p.place = e.before.world.processors.length)
      (hsetup : (e.before.world.life m).lifecycle = .setup)
      (hlife : e.after.world.life m = ⟨.setup, (e.before.world.life m).processors ++ [p],
        (e.before.world.life m).initialised⟩)
      (haction : ∃ processor, e.action = .request (.registerProcessor m processor))
      (hfree : e.before.engaged m = false) (hafter : e.after.stack = e.before.stack)
      (hprogress : e.progress = .replies (.ok (.processor p)))
  /-- Those that are left are initialised. -/
  | initialises (next : Option Time)
      (haction : e.action = .request (.initialise m) ∧ next = none ∨
        ∃ time, e.action = .request (.update m time) ∧ next = some time)
      (hmarks : e.marks m =
        e.before.world.initMarks m next (e.before.world.uninitialised m))
      (hsetup : (e.before.world.life m).lifecycle = .setup) (hfree : e.before.engaged m = false)
      (hresult : (e.after.world, e.progress) =
        e.before.world.runInits m next (e.before.world.uninitialised m))
      (hafter : e.after.stack = e.progress.pushed ++ e.before.stack)
  /-- All are updated. -/
  | ticks (time : Time) (haction : e.action = .request (.update m time))
      (hmarks : e.marks m =
        .tick :: e.before.world.updateMarks (e.before.world.life m).processors)
      (hrunning : (e.before.world.life m).lifecycle = .running) (hfree : e.before.engaged m = false)
      (hresult : (e.after.world, e.progress) =
        e.before.world.runUpdates m time (e.before.world.life m).processors)
      (hafter : e.after.stack = e.progress.pushed ++ e.before.stack)
  /-- Those that are initialised are shut down. -/
  | closes (haction : e.action = .request (.shutDown m))
      (hmarks : e.marks m = .closing :: (e.before.world.ended m).stopMarks none
        ((e.before.world.life m).processors.take (e.before.world.life m).initialised))
      (hopen : (e.before.world.life m).lifecycle ≠ .shutDown) (hfree : e.before.engaged m = false)
      (hresult : (e.after.world, e.progress) = (e.before.world.ended m).runStops m none
        ((e.before.world.life m).processors.take (e.before.world.life m).initialised))
      (hafter : e.after.stack = e.progress.pushed ++ e.before.stack)
  /-- A callback of one of them returns. -/
  | returns (outcome : Outcome) (frame : Frame) (below : List Frame)
      (hmarks : e.marks m = e.before.world.resumeMarks m outcome frame)
      (haction : e.action = .finish outcome) (hbefore : e.before.stack = frame :: below)
      (hengaged : frame.engaged? = some m)
      (hresult : (e.after.world, e.progress) = e.before.world.resume outcome frame)
      (hafter : e.after.stack = e.progress.pushed ++ below)

/-- A callback returns. -/
theorem deed_of_finish {outcome : Outcome} (ha : e.action = .finish outcome)
    (hact : e.before.act (.finish outcome) = some (e.after, e.progress)) : Deed m e := by
  obtain ⟨frame, below, htop, hafter, hprogress⟩ := act_finish hact
  have hmarks : e.marks m = e.before.world.resumeMarks m outcome frame := by
    unfold Event.marks
    rw [ha, htop]
  have hworld : e.after.world = (e.before.world.resume outcome frame).1 := by rw [hafter]
  have hstack : e.after.stack = e.progress.pushed ++ below := by rw [hafter]
  by_cases hengaged : frame.engaged? = some m
  · refine .returns outcome frame below hmarks ha htop hengaged ?_ hstack
    rw [hworld, hprogress]
  · have htended : frame.tended? ≠ some m := fun h => hengaged (Frame.engaged?_of_tended h)
    refine .aside below ?_ (Or.inl ?_) hstack (Or.inr ⟨frame, htop, hengaged⟩) ?_
    · rw [hmarks, World.resumeMarks_eq_nil _ outcome hengaged]
    · rw [hworld, life_resume _ outcome htended]
    · rw [hprogress]
      exact e.before.world.unengaged_resume outcome hengaged

/-- A request is made that begins no phase. -/
theorem deed_of_plain {r : Request} (hphase : r.phase? = none) (ha : e.action = .request r)
    (hact : e.before.act (.request r) = some (e.after, e.progress)) : Deed m e := by
  obtain ⟨hopen, hafter, hprogress⟩ := act_request hact
  have hplain := Request.isPhase_of_phase? hphase
  have hworld : e.after.world = (e.before.world.serve e.before.engaged e.before.told r).1 := by
    rw [hafter]
  have hstack : e.after.stack = e.progress.pushed ++ e.before.stack := by rw [hafter]
  have hpushed : ∀ next ∈ e.progress.pushed, next.engaged? ≠ some m := by
    intro next hnext hengaged
    rw [hprogress] at hnext
    have hhost := Frame.host?_of_isPlain (World.plain_serve _ _ _ hplain next hnext)
    rw [Frame.host?_of_engaged hengaged] at hhost
    cases hhost
  have hmarks : e.marks m = e.before.world.serveMarks m (e.before.engaged m) r := by
    unfold Event.marks
    rw [ha]
  by_cases hprocessor : ∃ n q, r = .registerProcessor n q
  · obtain ⟨n, q, rfl⟩ := hprocessor
    have hregistered : e.after.world = (e.before.world.registerProcessor n q).1 := by
      rw [hworld]
      exact World.answer_world _ _
    rcases life_registerProcessor e.before.world n q m with
      ⟨hsame, hrefused⟩ | ⟨rfl, hsetup, hnew, -, hgranted⟩
    · refine .aside e.before.stack ?_ (Or.inl ?_) hstack (Or.inl ⟨rfl, _, ha⟩) hpushed
      · rw [hmarks, World.serveMarks]
        split
        · rename_i hn
          obtain ⟨cause, herror⟩ := hrefused hn
          subst hn
          rw [herror]
        · rfl
      · rw [hregistered]
        exact hsame
    · have hanswer : e.progress = .replies (.ok (.processor ⟨e.before.world.processors.length⟩)) := by
        rw [hprogress]
        show (World.answer Granted.processor (e.before.world.registerProcessor n q)).2 = _
        generalize e.before.world.registerProcessor n q = result at hgranted
        obtain ⟨v, answer⟩ := result
        subst hgranted
        rfl
      have hfree := not_engaged_of_exclusive hopen rfl
      refine .registers _ ?_ rfl hsetup ?_ ⟨q, ha⟩ hfree ?_ hanswer
      · rw [hmarks, World.serveMarks, if_pos rfl, hgranted]
      · rw [hregistered]
        exact hnew
      · rw [hstack, hanswer]
        rfl
  · have hnone : e.marks m = [] := by
      rw [hmarks]
      cases r with
      | registerProcessor n q => exact absurd ⟨n, q, rfl⟩ hprocessor
      | initialise n => cases hphase
      | update n time => cases hphase
      | shutDown n => cases hphase
      | _ => rfl
    refine .aside e.before.stack hnone ?_ hstack (Or.inl ⟨rfl, r, ha⟩) hpushed
    by_cases hmanager : ∃ config, r = .makeManager config
    · obtain ⟨config, rfl⟩ := hmanager
      rw [hworld]
      rcases life_makeManager e.before.world config m with hsame | hnew
      · exact Or.inl hsame
      · exact Or.inr (Or.inl hnew)
    · refine Or.inl ?_
      rw [hworld]
      refine World.life_serve _ _ _ hplain (fun config heq => hmanager ⟨config, heq⟩) ?_ m
      exact fun n q heq => hprocessor ⟨n, q, heq⟩

/-- A request is made that begins a phase of another manager. -/
theorem deed_of_other_phase {r : Request} {n : ManagerId} (hphase : r.phase? = some n)
    (hne : n ≠ m) (ha : e.action = .request r)
    (hact : e.before.act (.request r) = some (e.after, e.progress)) : Deed m e := by
  obtain ⟨-, hafter, hprogress⟩ := act_request hact
  refine .aside e.before.stack ?_ (Or.inl ?_) (by rw [hafter]) (Or.inl ⟨rfl, r, ha⟩) ?_
  · unfold Event.marks
    rw [ha]
    cases r with
    | initialise k =>
        obtain rfl := Option.some.inj hphase
        exact if_neg fun h => hne h.1
    | update k time =>
        obtain rfl := Option.some.inj hphase
        exact if_neg fun h => hne h.1
    | shutDown k =>
        obtain rfl := Option.some.inj hphase
        exact if_neg fun h => hne h.1
    | _ => cases hphase
  · rw [hafter]
    exact e.before.world.life_of_other_phase _ _ hphase hne.symm
  · intro next hnext hengaged
    rw [hprogress] at hnext
    have hhost := e.before.world.host_of_phase _ _ hphase next hnext
    rw [Frame.host?_of_engaged hengaged] at hhost
    exact hne (Option.some.inj hhost).symm

/-- A request is made that begins a phase, if it is not refused. -/
theorem deed_of_phase {r : Request} (hphase : r.phase? = some m) (ha : e.action = .request r)
    (hact : e.before.act (.request r) = some (e.after, e.progress)) : Deed m e := by
  obtain ⟨-, hafter, hprogress⟩ := act_request hact
  have hworld : e.after.world = (e.before.world.serve e.before.engaged e.before.told r).1 := by
    rw [hafter]
  have hstack : e.after.stack = e.progress.pushed ++ e.before.stack := by rw [hafter]
  have hmarks : e.marks m = e.before.world.serveMarks m (e.before.engaged m) r := by
    unfold Event.marks
    rw [ha]
  have hresult : (e.after.world, e.progress) =
      e.before.world.serve e.before.engaged e.before.told r := by
    rw [hworld, hprogress]
  have hidle : e.marks m = [] → e.progress.pushed = [] →
      e.after.world.life m = e.before.world.life m → Deed m e := fun hnone hpushed hlife =>
    .aside e.before.stack hnone (Or.inl hlife) hstack (Or.inl ⟨rfl, r, ha⟩)
      (Progress.forall_pushed_of_nil hpushed)
  have hsame : ∀ {reply : Reply}, e.marks m = [] →
      e.before.world.serve e.before.engaged e.before.told r = (e.before.world, .replies reply) →
        Deed m e := by
    intro reply hnone hserved
    rw [hserved] at hresult
    obtain ⟨hkept, hreply⟩ := Prod.mk.inj hresult
    refine hidle hnone ?_ ?_
    · rw [hreply]
      rfl
    · rw [hkept]
  cases r with
  | initialise k =>
      obtain rfl := Option.some.inj hphase
      rcases e.before.world.initialise_cases k (e.before.engaged k) with
        ⟨hsetup, hfree, h⟩ | ⟨hbusy, reply, h⟩
      · refine .initialises none (Or.inl ⟨ha, rfl⟩) ?_ hsetup hfree (hresult.trans h) hstack
        rw [hmarks]
        exact if_pos ⟨rfl, hsetup, hfree⟩
      · refine hsame ?_ h
        rw [hmarks]
        exact if_neg fun hnow => hbusy hnow.2
  | update k time =>
      obtain rfl := Option.some.inj hphase
      have hserved : e.before.world.serve e.before.engaged e.before.told (.update k time) =
          e.before.world.update k time (e.before.engaged k) := rfl
      rw [hserved] at hresult
      cases hfree : e.before.engaged k with
      | true =>
          have hnone : e.marks k = [] := by
            rw [hmarks, World.serveMarks, hfree]
            exact if_neg fun h => absurd h.2 nofun
          rcases e.before.world.update_of_engaged k time with h | h
          · exact hsame hnone (by rw [hserved, hfree, h]; rfl)
          · exact hsame hnone (by rw [hserved, hfree, h]; rfl)
      | false =>
          rw [World.serveMarks, if_pos ⟨rfl, hfree⟩] at hmarks
          rw [hfree, World.update] at hresult
          cases hlife : (e.before.world.manager k).lifecycle with
          | setup =>
              rw [hlife] at hmarks hresult
              exact .initialises (some time) (Or.inr ⟨time, ha, rfl⟩) hmarks hlife hfree hresult hstack
          | running =>
              rw [hlife] at hmarks hresult
              exact .ticks time ha hmarks hlife hfree hresult hstack
          | shutDown =>
              rw [hlife] at hmarks
              have hrefused : e.before.world.serve e.before.engaged e.before.told
                  (.update k time) = (e.before.world, .refuses .shutDown) := by
                rw [hserved, World.update, hlife]
              exact hsame hmarks hrefused
  | shutDown k =>
      obtain rfl := Option.some.inj hphase
      have hserved : e.before.world.serve e.before.engaged e.before.told (.shutDown k) =
          e.before.world.shutDown k (e.before.engaged k) := rfl
      rcases e.before.world.shutDown_cases k (e.before.engaged k) with
        ⟨hover, h⟩ | ⟨hopen, hbusy, h⟩ | ⟨hopen, hfree, h⟩
      · rw [hserved, h] at hresult
        obtain ⟨hended, hdone⟩ := Prod.mk.inj hresult
        refine hidle ?_ ?_ ?_
        · rw [hmarks]
          exact if_neg fun hnow => hnow.2.1 hover
        · rw [hdone]
          rfl
        · rw [hended, World.life_ended_of_over hover]
      · rw [hserved, h] at hresult
        obtain ⟨hended, hrefused⟩ := Prod.mk.inj hresult
        have hpushed : e.progress.pushed = [] := by
          rw [hrefused]
          rfl
        refine .aside e.before.stack ?_ (Or.inr (Or.inr ⟨hopen, ?_⟩)) hstack (Or.inl ⟨rfl, _, ha⟩)
          (Progress.forall_pushed_of_nil hpushed)
        · rw [hmarks, World.serveMarks, hbusy]
          exact if_neg fun hnow => absurd hnow.2.2 nofun
        · rw [hended]
          exact World.life_ended (World.lt_length_of_lifecycle hopen)
      · refine .closes ha ?_ hopen hfree ((hresult.trans hserved).trans h) hstack
        rw [hmarks]
        exact if_pos ⟨rfl, hopen, hfree⟩
  | _ => cases hphase

theorem deed_of_act (hact : e.before.act e.action = some (e.after, e.progress)) : Deed m e := by
  cases ha : e.action with
  | finish outcome =>
      rw [ha] at hact
      exact deed_of_finish ha hact
  | request r =>
      rw [ha] at hact
      cases hphase : r.phase? with
      | none => exact deed_of_plain hphase ha hact
      | some n =>
          by_cases hn : n = m
          · subst hn
            exact deed_of_phase hphase ha hact
          · exact deed_of_other_phase hphase hn ha hact

end Session

end EntityStore
