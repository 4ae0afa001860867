import EntityStore.Proofs.Session.Tending
import EntityStore.Proofs.Session.Visible

/-!
# The protocol of the callbacks

Whatever code outside does in its callbacks, every manager stays on a course.

* `Course.Matches`: the course of a manager against its life and the callbacks that are running.
* `Course.Matches.step`, `course_of_runs`: the marks of every event lead from one course to the next.
* `Obeys`, `callbacks_obey_protocol`: what this says of the callbacks of a manager's processors.
-/

namespace EntityStore

variable [Host]

/-- Has the shut-down of a manager begun? -/
def Phase.Ended : Phase → Prop
  | closing _ _ => True
  | stopping _ _ _ => True
  | closed => True
  | _ => False

/-- The phase of a manager that a callback belongs to. -/
def Frame.phase? (m : ManagerId) : Frame → Option Phase
  | initialising n p rest _ => if n = m then some (.initialising p rest) else none
  | updating n p _ rest => if n = m then some (.updating p rest) else none
  | visiting n p _ _ (.tick rest) => if n = m then some (.updating p rest) else none
  | stopping n p rest failure => if n = m then some (.stopping p rest failure) else none
  | _ => none

/-- The phases of a manager that the running callbacks belong to. -/
def phasesOf (m : ManagerId) (frames : List Frame) : List Phase := frames.filterMap (Frame.phase? m)

/-- The running callbacks show what a manager is doing. -/
inductive Shown (m : ManagerId) (frames : List Frame) : Phase → Prop where
  | idle (h : phasesOf m frames = []) : Shown m frames .idle
  | closed (h : phasesOf m frames = []) : Shown m frames .closed
  | running (phase : Phase) (h : phasesOf m frames = [phase]) : Shown m frames phase

variable {m : ManagerId} {frames below : List Frame} {phase : Phase}

theorem Frame.phase?_of_engaged {frame : Frame} (h : frame.engaged? ≠ some m) :
    frame.phase? m = none := by
  have hn : ∀ {n : ManagerId}, some n ≠ some m → n ≠ m := fun hne heq => hne (congrArg some heq)
  cases frame with
  | initialising n p rest next => exact if_neg (hn h)
  | updating n p time rest => exact if_neg (hn h)
  | visiting n p time stage errand =>
      cases errand with
      | tick rest => exact if_neg (hn h)
      | alone => rfl
  | stopping n p rest failure => exact if_neg (hn h)
  | _ => rfl

theorem phasesOf_append (m : ManagerId) (frames below : List Frame) :
    phasesOf m (frames ++ below) = phasesOf m frames ++ phasesOf m below :=
  List.filterMap_append

theorem phasesOf_eq_nil (h : ∀ frame ∈ frames, frame.engaged? ≠ some m) : phasesOf m frames = [] := by
  unfold phasesOf
  rw [List.filterMap_eq_nil_iff]
  exact fun frame hframe => Frame.phase?_of_engaged (h frame hframe)

theorem phasesOf_cons_of_engaged {frame : Frame} (h : frame.engaged? ≠ some m) :
    phasesOf m (frame :: below) = phasesOf m below := by
  unfold phasesOf
  rw [List.filterMap_cons, Frame.phase?_of_engaged h]

theorem phasesOf_cons_of_phase {frame : Frame} (h : frame.phase? m = some phase) :
    phasesOf m (frame :: below) = phase :: phasesOf m below := by
  unfold phasesOf
  rw [List.filterMap_cons, h]

theorem Shown.congr {others : List Frame} (h : Shown m frames phase)
    (hsame : phasesOf m others = phasesOf m frames) : Shown m others phase := by
  cases h with
  | idle h => exact .idle (hsame.trans h)
  | closed h => exact .closed (hsame.trans h)
  | running phase h => exact .running phase (hsame.trans h)

theorem Shown.append (h : Shown m frames phase) (hbelow : phasesOf m below = []) :
    Shown m (frames ++ below) phase := by
  apply h.congr
  rw [phasesOf_append, hbelow, List.append_nil]

/-- While the processors of a manager are free, it is idle, or over and done with. -/
theorem Shown.of_nil (h : Shown m frames phase) (hframes : phasesOf m frames = []) :
    phase = .idle ∨ phase = .closed := by
  cases h with
  | idle h => exact Or.inl rfl
  | closed h => exact Or.inr rfl
  | running phase h =>
      rw [hframes] at h
      cases h

/-- The innermost callback of a manager's processors shows its phase, and there is no other. -/
theorem Shown.top {frame : Frame} {top : Phase} (h : Shown m (frame :: below) phase)
    (hframe : frame.phase? m = some top) : phase = top ∧ phasesOf m below = [] := by
  have hcons : phasesOf m (frame :: below) = top :: phasesOf m below :=
    phasesOf_cons_of_phase hframe
  cases h with
  | idle h => exact absurd (hcons.symm.trans h) (List.cons_ne_nil _ _)
  | closed h => exact absurd (hcons.symm.trans h) (List.cons_ne_nil _ _)
  | running phase h =>
      obtain ⟨htop, hbelow⟩ := List.cons.inj (hcons.symm.trans h)
      exact ⟨htop.symm, hbelow⟩

/-- Between events a manager waits for a callback, or for nothing. -/
theorem Shown.rests (h : Shown m frames phase) :
    (∀ rest, phase ≠ .ticking rest) ∧ ∀ rest failure, phase ≠ .closing rest failure := by
  cases h with
  | idle h => exact ⟨nofun, nofun⟩
  | closed h => exact ⟨nofun, nofun⟩
  | running phase h =>
      have hmem : phase ∈ phasesOf m frames := by
        rw [h]
        exact List.mem_singleton.2 rfl
      obtain ⟨frame, -, hframe⟩ := List.mem_filterMap.1 hmem
      cases frame with
      | initialising n p rest next =>
          simp only [Frame.phase?, Option.ite_none_right_eq_some, Option.some.injEq] at hframe
          rw [← hframe.2]
          exact ⟨nofun, nofun⟩
      | updating n p time rest =>
          simp only [Frame.phase?, Option.ite_none_right_eq_some, Option.some.injEq] at hframe
          rw [← hframe.2]
          exact ⟨nofun, nofun⟩
      | visiting n p time stage errand =>
          cases errand with
          | alone => cases hframe
          | tick rest =>
              simp only [Frame.phase?, Option.ite_none_right_eq_some, Option.some.injEq] at hframe
              rw [← hframe.2]
              exact ⟨nofun, nofun⟩
      | stopping n p rest failure =>
          simp only [Frame.phase?, Option.ite_none_right_eq_some, Option.some.injEq] at hframe
          rw [← hframe.2]
          exact ⟨nofun, nofun⟩
      | _ => cases hframe

theorem Shown.calls {frame : Frame} (h : frame.phase? m = some phase) :
    Shown m (Progress.calls frame).pushed phase :=
  .running phase (phasesOf_cons_of_phase h)

namespace Course

/-- The course of a manager goes along with its life. -/
structure Follows (c : Course) (life : Life) : Prop where
  /-- The processors are those that are registered. -/
  processors : life.processors = c.completed ++ c.waiting
  /-- The first of them are counted as initialised. -/
  initialised : life.initialised = c.completed.length
  /-- A manager that is open for ticks has initialised all of them. -/
  running : life.lifecycle = .running → c.waiting = []
  /-- A manager whose shut-down has begun is shut down. -/
  ended : c.phase.Ended → life.lifecycle = .shutDown

/-- The course of a manager fits a session. -/
structure Matches (c : Course) (m : ManagerId) (s : Session) : Prop where
  /-- It goes along with the life of the manager. -/
  life : c.Follows (s.world.life m)
  /-- The running callbacks show the phase. -/
  shown : Shown m s.stack c.phase
  /-- Only a manager that was made does anything. -/
  made : c.phase ≠ .idle → m.place < s.world.managers.length

variable {w : World} {done left : List ProcessorId} {life : Life}

omit [Host] in
theorem Follows.next {next : Phase} (h : Follows ⟨done, left, phase⟩ life) (hnext : ¬ next.Ended) :
    Follows ⟨done, left, next⟩ life :=
  ⟨h.processors, h.initialised, h.running, fun hended => absurd hended hnext⟩

omit [Host] in
/-- The first of those that wait is initialised. -/
theorem Follows.counted {p : ProcessorId} {rest : List ProcessorId}
    (h : Follows ⟨done, p :: rest, phase⟩ life) :
    Follows ⟨done ++ [p], rest, .idle⟩ ⟨life.lifecycle, life.processors, life.initialised + 1⟩ := by
  refine ⟨?_, ?_, fun hrunning => ?_, fun hended => hended.elim⟩
  · rw [h.processors]
    simp
  · rw [h.initialised]
    simp
  · exact absurd (h.running hrunning) (List.cons_ne_nil p rest)

/-! ## What the phases come to -/

/-- Updates lead to a phase that shows: a callback begins, or the tick is over. -/
theorem steps_updateMarks (w : World) (m : ManagerId) (time : Time) (done left : List ProcessorId)
    (processors : List ProcessorId) :
    ∃ phase, Steps ⟨done, left, .ticking processors⟩ (w.updateMarks processors)
        ⟨done, left, phase⟩ ∧
      Shown m (w.runUpdates m time processors).2.pushed phase ∧ ¬ phase.Ended := by
  induction processors with
  | nil =>
      refine ⟨.idle, (Step.ticked done left).steps, .idle ?_, id⟩
      refine phasesOf_eq_nil fun frame hframe => ?_
      obtain ⟨number, notice, rest, groups, rfl⟩ := World.flush_pushed _ m _ frame hframe
      exact nofun
  | cons p rest ih =>
      have hbegins : Step ⟨done, left, .ticking (p :: rest)⟩ (.begins .update p)
        ⟨done, left, .updating p rest⟩ := .update done left p rest
      cases hbody : (w.processor p).body with
      | custom =>
          simp only [World.updateMarks, World.runUpdates, hbody]
          exact ⟨.updating p rest, hbegins.steps, .calls (if_pos rfl), id⟩
      | visitor v =>
          simp only [World.updateMarks, World.runUpdates, hbody]
          cases hgroup : v.group with
          | none =>
              exact ⟨.idle, .cons hbegins (Step.notUpdated done left p rest _).steps, .idle rfl, id⟩
          | some g =>
              dsimp only
              cases w.firstStage? v g with
              | some stage => exact ⟨.updating p rest, hbegins.steps, .calls (if_pos rfl), id⟩
              | none =>
                  obtain ⟨phase, hsteps, hshown, hended⟩ := ih
                  exact ⟨phase, .cons hbegins (.cons (.updated done left p rest) hsteps), hshown,
                    hended⟩

/-- Shut-downs lead to a phase that shows. -/
theorem steps_stopMarks (w : World) (m : ManagerId) (done left : List ProcessorId)
    (failure : Option ManagerError) (processors : List ProcessorId) :
    ∃ phase, Steps ⟨done, left, .closing processors failure⟩ (w.stopMarks failure processors)
        ⟨done, left, phase⟩ ∧
      Shown m (w.runStops m failure processors).2.pushed phase ∧ phase.Ended := by
  induction processors with
  | nil =>
      refine ⟨.closed, (Step.closed done left failure).steps, .closed ?_, trivial⟩
      cases failure <;> rfl
  | cons p rest ih =>
      have hbegins : Step ⟨done, left, .closing (p :: rest) failure⟩ (.begins .stop p)
        ⟨done, left, .stopping p rest failure⟩ := .stop done left p rest failure
      cases hbody : (w.processor p).body with
      | custom =>
          simp only [World.stopMarks, World.runStops, hbody]
          exact ⟨.stopping p rest failure, hbegins.steps, .calls (if_pos rfl), trivial⟩
      | visitor v =>
          obtain ⟨phase, hsteps, hshown, hended⟩ := ih
          have hends := Step.stopped done left p rest failure none
          rw [Option.or_none] at hends
          simp only [World.stopMarks, World.runStops, hbody]
          exact ⟨phase, .cons hbegins (.cons hends hsteps), hshown, hended⟩

/-- Initialisations lead to a course that shows, and that goes along with the life of the manager. -/
theorem steps_initMarks (hm : m.place < w.managers.length) (next : Option Time)
    (h : Follows ⟨done, left, .idle⟩ (w.life m)) :
    ∃ d, Steps ⟨done, left, .idle⟩ (w.initMarks m next left) d ∧
      d.Follows ((w.runInits m next left).1.life m) ∧
      Shown m (w.runInits m next left).2.pushed d.phase := by
  induction left generalizing w done with
  | nil =>
      have hrunning : (w.updateManager m fun manager =>
          { manager with lifecycle := .running }).life m =
            ⟨.running, (w.life m).processors, (w.life m).initialised⟩ :=
        World.life_updateManager_self hm
      have hopened : Follows ⟨done, [], .idle⟩
          ⟨.running, (w.life m).processors, (w.life m).initialised⟩ :=
        ⟨h.processors, h.initialised, fun _ => rfl, fun hended => hended.elim⟩
      unfold World.initMarks World.runInits
      cases next with
      | none =>
          refine ⟨_, .refl _, ?_, .idle rfl⟩
          dsimp only
          rw [hrunning]
          exact hopened
      | some time =>
          dsimp only
          have hall : ((w.updateManager m fun manager =>
              { manager with lifecycle := .running }).manager m).processors = done := by
            have hsame := congrArg Life.processors hrunning
            exact hsame.trans (h.processors.trans (List.append_nil done))
          rw [hall, World.life_runUpdates, hrunning]
          obtain ⟨phase, hsteps, hshown, hended⟩ := steps_updateMarks (w.updateManager m fun manager =>
            { manager with lifecycle := .running }) m time done [] done
          exact ⟨_, .cons (.tick done) hsteps, hopened.next hended, hshown⟩
  | cons p rest ih =>
      have hbegins : Step ⟨done, p :: rest, .idle⟩ (.begins .init p)
        ⟨done, p :: rest, .initialising p rest⟩ := .initialise done p rest
      cases hbody : (w.processor p).body with
      | custom =>
          simp only [World.initMarks, World.runInits, hbody]
          exact ⟨_, hbegins.steps, h.next id, .calls (if_pos rfl)⟩
      | visitor v =>
          have hlife := World.life_settleVisitor w p v m m
          have hmoves : Moves (fun _ _ => True) w (w.settleVisitor p v m).1 :=
            World.moves_settleVisitor w p v m
          have hgrows := hmoves.grows
          simp only [World.initMarks, World.runInits, hbody]
          cases hsettled : w.settleVisitor p v m with
          | mk u result =>
              rw [hsettled] at hlife hgrows
              dsimp only at hlife hgrows
              cases result with
              | error cause =>
                  refine ⟨_, .cons hbegins (Step.notInitialised done p rest _).steps, ?_, .idle rfl⟩
                  dsimp only
                  rw [hlife]
                  exact h
              | ok settled =>
                  have hu := Nat.lt_of_lt_of_le hm hgrows.managers
                  have hcounted : m.place < (u.countInit m).managers.length :=
                    Nat.lt_of_lt_of_le hu (World.grows_countInit u m).managers
                  have hnow : Follows ⟨done ++ [p], rest, .idle⟩ ((u.countInit m).life m) := by
                    rw [World.life_countInit hu, hlife]
                    exact h.counted
                  obtain ⟨d, hsteps, hfollows, hshown⟩ := ih hcounted hnow
                  exact ⟨d, .cons hbegins (.cons (.initialised done p rest) hsteps), hfollows, hshown⟩

/-! ## One event -/

variable {c d : Course} {s : Session} {e : Session.Event} {log : List Mark}

theorem phasesOf_of_not_engaged (h : s.engaged m = false) : phasesOf m s.stack = [] := by
  refine phasesOf_eq_nil fun frame hframe hengaged => ?_
  rw [Session.engaged_iff.2 ⟨frame, hframe, hengaged⟩] at h
  cases h

/-- While its processors are free a manager that is not shut down is idle. -/
theorem Matches.idle (h : c.Matches m s) (hfree : phasesOf m s.stack = [])
    (hopen : (s.world.life m).lifecycle ≠ .shutDown) : c.phase = .idle := by
  rcases h.shown.of_nil hfree with hidle | hover
  · exact hidle
  · refine absurd (h.life.ended ?_) hopen
    rw [hover]
    exact True.intro

/-- An event that does nothing to the processors of a manager leaves its course. -/
theorem Matches.aside (h : c.Matches m e.before)
    (hgrows : e.before.world.Grows e.after.world)
    (hlife : e.after.world.life m = e.before.world.life m ∨
      e.before.world.managers.length ≤ m.place ∧ e.after.world.life m = ⟨.setup, [], 0⟩ ∨
      (e.before.world.life m).lifecycle ≠ .shutDown ∧ e.after.world.life m =
        ⟨.shutDown, (e.before.world.life m).processors, (e.before.world.life m).initialised⟩)
    (hphases : phasesOf m e.after.stack = phasesOf m e.before.stack) : c.Matches m e.after := by
  have hfollows := h.life
  refine ⟨?_, ?_, fun hbusy => Nat.lt_of_lt_of_le (h.made hbusy) hgrows.managers⟩
  · rcases hlife with hsame | ⟨habsent, hnew⟩ | ⟨hopen, hdown⟩
    · rw [hsame]
      exact hfollows
    · rw [World.life_of_length_le habsent] at hfollows
      rw [hnew]
      refine ⟨hfollows.processors, hfollows.initialised, nofun, fun hended => ?_⟩
      -- the manager was not there, so its shut-down has not begun
      have hidle : c.phase = .idle := Classical.byContradiction fun hbusy =>
        absurd (h.made hbusy) (Nat.not_lt_of_le habsent)
      rw [hidle] at hended
      exact hended.elim
    · rw [hdown]
      exact ⟨hfollows.processors, hfollows.initialised, nofun, fun _ => rfl⟩
  · exact h.shown.congr hphases

/-- Initialisations go on to a session that fits. -/
theorem matches_of_inits {next : Option Time} (hfollows : Follows ⟨done, left, .idle⟩ (w.life m))
    (hm : m.place < w.managers.length) (hmade : m.place < e.after.world.managers.length)
    (hresult : (e.after.world, e.progress) = w.runInits m next left)
    (hafter : e.after.stack = e.progress.pushed ++ below) (hbelow : phasesOf m below = []) :
    ∃ d, Steps ⟨done, left, .idle⟩ (w.initMarks m next left) d ∧ d.Matches m e.after := by
  obtain ⟨d, hsteps, hnow, hshown⟩ := steps_initMarks hm next hfollows
  rw [← hresult] at hnow hshown
  refine ⟨d, hsteps, hnow, ?_, fun _ => hmade⟩
  rw [hafter]
  exact hshown.append hbelow

/-- Updates go on to a session that fits. -/
theorem matches_of_updates {time : Time} {order : List ProcessorId}
    (hfollows : Follows ⟨done, left, .ticking order⟩ (w.life m))
    (hmade : m.place < e.after.world.managers.length)
    (hresult : (e.after.world, e.progress) = w.runUpdates m time order)
    (hafter : e.after.stack = e.progress.pushed ++ below) (hbelow : phasesOf m below = []) :
    ∃ d, Steps ⟨done, left, .ticking order⟩ (w.updateMarks order) d ∧ d.Matches m e.after := by
  obtain ⟨phase, hsteps, hshown, hended⟩ := steps_updateMarks w m time done left order
  have hlife : e.after.world.life m = w.life m := by
    rw [← World.life_runUpdates w m time order, ← hresult]
  rw [← hresult] at hshown
  refine ⟨_, hsteps, ?_, ?_, fun _ => hmade⟩
  · rw [hlife]
    exact hfollows.next hended
  · rw [hafter]
    exact hshown.append hbelow

/-- Shut-downs go on to a session that fits. -/
theorem matches_of_stops {failure : Option ManagerError} {order : List ProcessorId}
    (hfollows : Follows ⟨done, left, .closing order failure⟩ (w.life m))
    (hmade : m.place < e.after.world.managers.length)
    (hresult : (e.after.world, e.progress) = w.runStops m failure order)
    (hafter : e.after.stack = e.progress.pushed ++ below) (hbelow : phasesOf m below = []) :
    ∃ d, Steps ⟨done, left, .closing order failure⟩ (w.stopMarks failure order) d ∧
      d.Matches m e.after := by
  obtain ⟨phase, hsteps, hshown, -⟩ := steps_stopMarks w m done left failure order
  have hworld : e.after.world = w := by
    rw [← w.runStops_world m failure order, ← hresult]
  rw [← hresult] at hshown
  refine ⟨_, hsteps, ?_, ?_, fun _ => hmade⟩
  · rw [hworld]
    have hdown := hfollows.ended True.intro
    exact ⟨hfollows.processors, hfollows.initialised, hfollows.running, fun _ => hdown⟩
  · rw [hafter]
    exact hshown.append hbelow

/-- A phase is given up. -/
theorem matches_of_failure {cause : ManagerError}
    (hfollows : Follows ⟨done, left, .idle⟩ (e.before.world.life m))
    (hresult : (e.after.world, e.progress) = (e.before.world, .refuses cause))
    (hafter : e.after.stack = e.progress.pushed ++ below) (hbelow : phasesOf m below = []) :
    Matches ⟨done, left, .idle⟩ m e.after := by
  obtain ⟨hworld, hprogress⟩ := Prod.mk.inj hresult
  refine ⟨?_, .idle ?_, fun hbusy => absurd rfl hbusy⟩
  · rw [hworld]
    exact hfollows
  · rw [hafter, hprogress]
    exact hbelow

/-- A callback of a manager's processors returns. -/
theorem Matches.returns {outcome : Outcome} {frame : Frame} (h : c.Matches m e.before)
    (hsound : Sound log c) (hgrows : e.before.world.Grows e.after.world)
    (hbefore : e.before.stack = frame :: below) (hengaged : frame.engaged? = some m)
    (hresult : (e.after.world, e.progress) = e.before.world.resume outcome frame)
    (hafter : e.after.stack = e.progress.pushed ++ below) :
    ∃ d, Steps c (e.before.world.resumeMarks m outcome frame) d ∧ d.Matches m e.after := by
  have hfollows := h.life
  have hshown := h.shown
  rw [hbefore] at hshown
  have hlogged := hsound.logged
  have hmade : c.phase ≠ .idle → m.place < e.after.world.managers.length := fun hbusy =>
    Nat.lt_of_lt_of_le (h.made hbusy) hgrows.managers
  obtain ⟨done, left, phase⟩ := c
  cases frame with
  | initialising n p rest next =>
      obtain rfl := Option.some.inj hengaged
      obtain ⟨hphase, hbelow⟩ := hshown.top (if_pos rfl)
      obtain rfl : phase = .initialising p rest := hphase
      have hhere := h.made (by simp)
      cases hlogged with
      | initialising log p rest hleft hopen =>
          obtain rfl : left = p :: rest := hleft
          have hidle : Follows ⟨done, p :: rest, .idle⟩ _ := hfollows.next id
          simp only [World.resumeMarks, if_true]
          cases outcome with
          | error message =>
              exact ⟨_, (Step.notInitialised done p rest _).steps,
                matches_of_failure hidle hresult hafter hbelow⟩
          | ok finished =>
              have hcounted : n.place < (e.before.world.countInit n).managers.length :=
                Nat.lt_of_lt_of_le hhere (World.grows_countInit _ n).managers
              have hnow := hidle.counted
              rw [← World.life_countInit hhere] at hnow
              obtain ⟨d, hsteps, hd⟩ :=
                matches_of_inits hnow hcounted (hmade (by simp)) hresult hafter hbelow
              exact ⟨d, .cons (.initialised done p rest) hsteps, hd⟩
  | updating n p time rest =>
      obtain rfl := Option.some.inj hengaged
      obtain ⟨hphase, hbelow⟩ := hshown.top (if_pos rfl)
      obtain rfl : phase = .updating p rest := hphase
      simp only [World.resumeMarks, if_true]
      cases outcome with
      | error message =>
          exact ⟨_, (Step.notUpdated done left p rest _).steps,
            matches_of_failure (hfollows.next id) hresult hafter hbelow⟩
      | ok finished =>
          obtain ⟨d, hsteps, hd⟩ :=
            matches_of_updates (hfollows.next id) (hmade (by simp)) hresult hafter hbelow
          exact ⟨d, .cons (.updated done left p rest) hsteps, hd⟩
  | visiting n p time stage errand =>
      cases errand with
      | alone => cases hengaged
      | tick rest =>
          obtain rfl := Option.some.inj hengaged
          obtain ⟨hphase, hbelow⟩ := hshown.top (if_pos rfl)
          obtain rfl : phase = .updating p rest := hphase
          simp only [World.resumeMarks, if_true]
          cases outcome with
          | error message =>
              exact ⟨_, (Step.notUpdated done left p rest _).steps,
                matches_of_failure (hfollows.next id) hresult hafter hbelow⟩
          | ok finished =>
              simp only [World.resume, World.afterVisit] at hresult
              cases hstage : e.before.world.followingStage? p stage with
              | none =>
                  rw [hstage] at hresult
                  obtain ⟨d, hsteps, hd⟩ :=
                    matches_of_updates (hfollows.next id) (hmade (by simp)) hresult hafter hbelow
                  exact ⟨d, .cons (.updated done left p rest) hsteps, hd⟩
              | some following =>
                  -- the visitor is still being updated
                  rw [hstage] at hresult
                  obtain ⟨hworld, hprogress⟩ := Prod.mk.inj hresult
                  have hsame : (Frame.visiting n p time following (.tick rest)).phase? n =
                      some (.updating p rest) := if_pos rfl
                  refine ⟨_, .refl _, ?_, ?_, hmade⟩
                  · rw [hworld]
                    exact hfollows
                  · rw [hafter, hprogress]
                    exact (Shown.calls hsame).append hbelow
  | stopping n p rest failure =>
      obtain rfl := Option.some.inj hengaged
      obtain ⟨hphase, hbelow⟩ := hshown.top (if_pos rfl)
      obtain rfl : phase = .stopping p rest failure := hphase
      rw [World.resume_stopping] at hresult
      have hclosing : Follows ⟨done, left, .closing rest
          (failure.or (e.before.world.failure? p outcome))⟩ (e.before.world.life n) :=
        ⟨hfollows.processors, hfollows.initialised, hfollows.running, hfollows.ended⟩
      obtain ⟨d, hsteps, hd⟩ := matches_of_stops hclosing (hmade (by simp)) hresult hafter hbelow
      simp only [World.resumeMarks, if_true]
      exact ⟨d, .cons (.stopped done left p rest failure _) hsteps, hd⟩
  | _ => cases hengaged

/-- The marks of an event lead to a course that fits the session after it. -/
theorem Matches.step (h : c.Matches m e.before) (hsound : Sound log c)
    (hknown : ∀ p ∈ (e.before.world.life m).processors,
      p.place < e.before.world.processors.length)
    (hact : e.before.act e.action = some (e.after, e.progress)) :
    ∃ d, Steps c (e.marks m) d ∧ d.Matches m e.after := by
  have hgrows := Session.grows_of_act hact
  have hfollows := h.life
  cases Session.deed_of_act (m := m) hact with
  | aside below hmarks hlife hafter hbefore hpushed =>
      refine ⟨c, ?_, h.aside hgrows hlife ?_⟩
      · rw [hmarks]
        exact .refl c
      · rw [hafter, phasesOf_append, phasesOf_eq_nil hpushed]
        rcases hbefore with ⟨hsame, -⟩ | ⟨frame, htop, hengaged⟩
        · rw [hsame]
          rfl
        · rw [htop, phasesOf_cons_of_engaged hengaged]
          rfl
  | registers p hmarks hnew hsetup hlife haction hfree hafter hprogress =>
      have hopen : (e.before.world.life m).lifecycle ≠ .shutDown := by
        rw [hsetup]
        exact nofun
      have hnone := phasesOf_of_not_engaged hfree
      have hidle := h.idle hnone hopen
      obtain ⟨done, left, phase⟩ := c
      obtain rfl : phase = .idle := hidle
      have hfresh : p ∉ done ++ left := by
        intro hmem
        -- whoever is registered was made before
        have hlt := hknown p (by rw [hfollows.processors]; exact hmem)
        rw [hnew] at hlt
        exact Nat.lt_irrefl _ hlt
      rw [hmarks]
      refine ⟨_, (Step.registered done left p hfresh).steps, ?_, ?_, fun hbusy => absurd rfl hbusy⟩
      · rw [hlife]
        refine ⟨?_, hfollows.initialised, nofun, fun hended => hended.elim⟩
        rw [hfollows.processors]
        exact List.append_assoc _ _ _
      · rw [hafter]
        exact .idle hnone
  | initialises next haction hmarks hsetup hfree hresult hafter =>
      have hopen : (e.before.world.life m).lifecycle ≠ .shutDown := by
        rw [hsetup]
        exact nofun
      have hnone := phasesOf_of_not_engaged hfree
      have hidle := h.idle hnone hopen
      obtain ⟨done, left, phase⟩ := c
      obtain rfl : phase = .idle := hidle
      have hleft : e.before.world.uninitialised m = left := by
        show (e.before.world.life m).processors.drop (e.before.world.life m).initialised = left
        rw [hfollows.processors, hfollows.initialised, List.drop_left]
      have hmade := World.lt_length_of_lifecycle hopen
      rw [hleft] at hmarks hresult
      rw [hmarks]
      exact matches_of_inits hfollows hmade (Nat.lt_of_lt_of_le hmade hgrows.managers) hresult hafter
        hnone
  | ticks time haction hmarks hrunning hfree hresult hafter =>
      have hopen : (e.before.world.life m).lifecycle ≠ .shutDown := by
        rw [hrunning]
        exact nofun
      have hnone := phasesOf_of_not_engaged hfree
      have hidle := h.idle hnone hopen
      have hmade := Nat.lt_of_lt_of_le (World.lt_length_of_lifecycle hopen) hgrows.managers
      obtain ⟨done, left, phase⟩ := c
      obtain rfl : phase = .idle := hidle
      obtain rfl : left = [] := hfollows.running hrunning
      have hall : (e.before.world.life m).processors = done :=
        hfollows.processors.trans (List.append_nil done)
      rw [hall] at hmarks hresult
      obtain ⟨d, hsteps, hd⟩ := matches_of_updates (hfollows.next id) hmade hresult hafter hnone
      rw [hmarks]
      exact ⟨d, .cons (.tick done) hsteps, hd⟩
  | closes haction hmarks hopen hfree hresult hafter =>
      have hnone := phasesOf_of_not_engaged hfree
      have hidle := h.idle hnone hopen
      have hmade := World.lt_length_of_lifecycle hopen
      obtain ⟨done, left, phase⟩ := c
      obtain rfl : phase = .idle := hidle
      have hcompleted : (e.before.world.life m).processors.take
          (e.before.world.life m).initialised = done := by
        rw [hfollows.processors, hfollows.initialised, List.take_left]
      rw [hcompleted] at hmarks hresult
      have hclosing : Follows ⟨done, left, .closing done none⟩
          ((e.before.world.ended m).life m) := by
        rw [World.life_ended hmade]
        exact ⟨hfollows.processors, hfollows.initialised, nofun, fun _ => rfl⟩
      obtain ⟨d, hsteps, hd⟩ := matches_of_stops hclosing
        (Nat.lt_of_lt_of_le hmade hgrows.managers) hresult hafter hnone
      rw [hmarks]
      exact ⟨d, .cons (.close done left) hsteps, hd⟩
  | returns outcome frame below hmarks haction hbefore hengaged hresult hafter =>
      rw [hmarks]
      exact h.returns hsound hgrows hbefore hengaged hresult hafter

/-! ## Whole histories -/

theorem matches_start (m : ManagerId) : Matches start m Session.start := by
  have hlife : Session.start.world.life m = ⟨.shutDown, [], 0⟩ :=
    World.life_of_length_le (Nat.zero_le _)
  refine ⟨?_, .idle rfl, fun hbusy => absurd rfl hbusy⟩
  rw [hlife]
  exact ⟨rfl, rfl, nofun, fun hended => hended.elim⟩

/-- The marks of every history are those of a course. -/
theorem course_of_runs {events : List Session.Event} (h : Session.Runs .start events s)
    (m : ManagerId) :
    ∃ c, Steps start (Session.log m events) c ∧ c.Matches m s := by
  refine h.induct (P := fun events s => ∃ c, Steps start (Session.log m events) c ∧ c.Matches m s)
    ⟨start, .refl start, matches_start m⟩ fun events e hruns ih hact => ?_
  obtain ⟨c, hsteps, hmatches⟩ := ih
  obtain ⟨d, hmarks, hd⟩ :=
    hmatches.step (sound_of_steps hsteps) (Session.tended_of_runs hruns m).known hact
  refine ⟨d, ?_, hd⟩
  rw [Session.log_snoc]
  exact hsteps.trans hmarks

end Course

namespace Session

/-- What the callbacks of a manager's processors obey in a history. -/
structure Obeys (m : ManagerId) (events : List Event) : Prop where
  /-- The callbacks of every processor form a word of the language. -/
  words : ∀ p, ∃ standing, Course.Word p standing (callbacksOf p (log m events))
  /-- The initialisation of a processor begins when all that were registered before it have completed
  theirs. -/
  inits : ∀ pre p post, log m events = pre ++ .begins .init p :: post →
    ∃ later, registeredIn pre = completedIn pre ++ p :: later
  /-- An update begins when all registered processors have completed their initialisation, and in a
  tick that has updated those that were registered before. -/
  updates : ∀ pre p post, log m events = pre ++ .begins .update p :: post →
    completedIn pre = registeredIn pre ∧ ∃ before passed later,
      pre = before ++ .tick :: updatesOf passed ∧ registeredIn before = passed ++ p :: later
  /-- A tick updates the registered processors in order, and ends at the first failure or else when
  all are updated. -/
  ticks : ∀ pre post, log m events = pre ++ .tick :: post → ∃ passed rest tail,
    registeredIn pre = passed ++ rest ∧ post = updatesOf passed ++ tail ∧ Course.TickEnds rest tail
  /-- A shut-down begins at most once.  It shuts down exactly the processors that have completed
  their initialisation, in order and whether they fail or not, and its answer is the first
  failure. -/
  closes : ∀ pre post, log m events = pre ++ .closing :: post → .closing ∉ pre ∧
    ∃ stopped rest tail, completedIn pre = stopped.map Prod.fst ++ rest ∧
      post = stopsWith stopped ++ tail ∧ Course.StopEnds (firstFailure stopped) rest tail
  /-- No processor is shut down but in this shut-down. -/
  stops : ∀ pre p post, log m events = pre ++ .begins .stop p :: post → ∃ before stopped later,
    pre = before ++ .closing :: stopsWith stopped ∧
      completedIn before = stopped.map Prod.fst ++ p :: later

variable {events : List Event} {s : Session}

/-- A tick that begins takes its course. -/
theorem after_tick_of_runs (h : Runs start events s) {pre post : List Mark}
    (hlog : log m events = pre ++ .tick :: post) : ∃ passed rest tail,
      registeredIn pre = passed ++ rest ∧ post = updatesOf passed ++ tail ∧
        Course.TickEnds rest tail := by
  obtain ⟨c, hsteps, hmatches⟩ := Course.course_of_runs h m
  rw [hlog] at hsteps
  obtain ⟨d, d', hpre, hstep, hpost⟩ := hsteps.split
  have hregistered := (Course.sound_of_steps hpre).registered
  cases hstep with
  | tick done =>
      obtain ⟨passed, rest, tail, hdone, htail, hends⟩ := hpost.after_tick hmatches.shown.rests.1
      refine ⟨passed, rest, tail, ?_, htail, hends⟩
      rw [hregistered, ← hdone]
      exact List.append_nil done

/-- A shut-down that begins takes its course, and is the first. -/
theorem after_closing_of_runs (h : Runs start events s) {pre post : List Mark}
    (hlog : log m events = pre ++ .closing :: post) : .closing ∉ pre ∧ ∃ stopped rest tail,
      completedIn pre = stopped.map Prod.fst ++ rest ∧ post = stopsWith stopped ++ tail ∧
        Course.StopEnds (firstFailure stopped) rest tail := by
  obtain ⟨c, hsteps, hmatches⟩ := Course.course_of_runs h m
  rw [hlog] at hsteps
  obtain ⟨d, d', hpre, hstep, hpost⟩ := hsteps.split
  have hsound := Course.sound_of_steps hpre
  have hlogged := hsound.logged
  cases hstep with
  | close done left =>
      cases hlogged with
      | idle log hopen =>
          obtain ⟨stopped, rest, tail, hdone, htail, hends⟩ :=
            hpost.after_closing hmatches.shown.rests.2
          rw [Option.none_or] at hends
          exact ⟨hopen, stopped, rest, tail, hsound.completed.trans hdone, htail, hends⟩

/-- Whatever callbacks do, and however they end: the callbacks of a manager's processors obey the
protocol.  The marks of an event are what code outside sees of it, for every processor that has
callbacks of its own, and what the requests for ticks and for the shut-down are answered. -/
theorem callbacks_obey_protocol (h : Runs start events s) (m : ManagerId) :
    Obeys m events ∧
      ∀ e ∈ events,
        (∀ p, (e.before.world.processor p).body = .custom →
          callbacksOf p (e.marks m) = e.returns m p ++ e.progress.begins m p) ∧
        ∀ mark ∈ e.marks m, mark.callback? = none →
          (∃ p, mark = .registered p ∧ e.progress = .replies (.ok (.processor p))) ∨
            (e.ticks? = some m ∧ (mark = .tick ∨ mark = .ticked)) ∨
            (mark = .closing ∧ e.action = .request (.shutDown m)) ∨
            ∃ failure, mark = .closed failure ∧ e.progress = World.stopReply failure := by
  obtain ⟨c, hsteps, -⟩ := Course.course_of_runs h m
  refine ⟨?_, fun e he => ?_⟩
  · constructor
    · exact fun p => ⟨_, Course.word_of_steps hsteps Course.sound_start .nil⟩
    · intro pre p post hlog
      rw [hlog] at hsteps
      exact hsteps.before_init
    · intro pre p post hlog
      rw [hlog] at hsteps
      exact hsteps.before_update
    · exact fun pre post hlog => after_tick_of_runs h hlog
    · exact fun pre post hlog => after_closing_of_runs h hlog
    · intro pre p post hlog
      rw [hlog] at hsteps
      exact hsteps.before_stop
  · have hact := h.act_of_mem he
    exact ⟨fun p hp => callbacksOf_marks hact hp, fun mark hmark => sense_of_mark hact hmark⟩

end Session

end EntityStore

namespace EntityStore.Session

attribute [local instance] Host.plain

/-- Actions of a manager with two processors.  The initialisation of the first one fails, and the
second one is registered before it is tried again; then there is a tick in which the second one
fails, with another tick asked for inside; and in the shut-down the first one fails. -/
def twoProcessors : List Action :=
  [.request (.makeManager .default), .request (.registerProcessor ⟨0⟩ ⟨"P", .custom⟩),
    .request (.update ⟨0⟩ Time.start), .finish (.error "no"),
    .request (.registerProcessor ⟨0⟩ ⟨"Q", .custom⟩),
    .request (.update ⟨0⟩ Time.start), .finish (.ok ()), .finish (.ok ()),
    .request (.update ⟨0⟩ Time.start), .finish (.ok ()), .finish (.error "late"),
    .request (.shutDown ⟨0⟩), .finish (.error "stuck"), .finish (.ok ())]

theorem protocol_of_two_processors :
    let events := (start.follow twoProcessors).1
    log ⟨0⟩ events = [.registered ⟨0⟩,
        .begins .init ⟨0⟩, .ends .init ⟨0⟩ (some (.processor "P" "no")), .registered ⟨1⟩,
        .begins .init ⟨0⟩, .ends .init ⟨0⟩ none, .begins .init ⟨1⟩, .ends .init ⟨1⟩ none,
        .tick, .begins .update ⟨0⟩, .ends .update ⟨0⟩ none,
        .begins .update ⟨1⟩, .ends .update ⟨1⟩ (some (.processor "Q" "late")),
        .closing, .begins .stop ⟨0⟩, .ends .stop ⟨0⟩ (some (.processor "P" "stuck")),
        .begins .stop ⟨1⟩, .ends .stop ⟨1⟩ none, .closed (some (.processor "P" "stuck"))] ∧
      Obeys ⟨0⟩ events := by
  intro events
  obtain ⟨hobeys, -⟩ := callbacks_obey_protocol (runs_follow start twoProcessors) ⟨0⟩
  exact ⟨by decide +kernel, hobeys⟩

end EntityStore.Session
