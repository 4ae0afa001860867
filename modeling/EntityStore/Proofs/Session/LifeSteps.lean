import EntityStore.Proofs.Session.Calls

/-!
# What an event does to a life

`LifeStep` lists all that an event can do to the life of a manager, with the processors that are
initialised and shut down in it.  `lifeStep_of_act` finds every event in the list, so that a law
about lives needs one case for each entry and no look at requests or callbacks.
-/

namespace EntityStore.Session

variable [Host] {m : ManagerId} {e : Event}

/-- What an event does to the life of a manager. -/
inductive LifeStep (m : ManagerId) (e : Event) : Prop where
  /-- Nothing. -/
  | aside (hlife : e.after.world.life m = e.before.world.life m)
      (hinit : toInit m e.after.stack = toInit m e.before.stack)
      (hstop : toStop m e.after.stack = toStop m e.before.stack)
      (hinits : e.inits m = []) (hstops : e.stops m = []) (hgranted : ¬ e.RefusesStop m)
  /-- The manager is made. -/
  | made (habsent : e.before.world.managers.length ≤ m.place)
      (hlife : e.after.world.life m = ⟨.setup, [], 0⟩)
      (hinit : toInit m e.after.stack = toInit m e.before.stack)
      (hstop : toStop m e.after.stack = toStop m e.before.stack)
      (hinits : e.inits m = []) (hstops : e.stops m = []) (hgranted : ¬ e.RefusesStop m)
  /-- A processor is registered. -/
  | registered (p : ProcessorId) (hnew : p.place = e.before.world.processors.length)
      (hmade : p.place < e.after.world.processors.length)
      (hsetup : (e.before.world.life m).lifecycle = .setup)
      (hlife : e.after.world.life m = ⟨.setup, (e.before.world.life m).processors ++ [p],
        (e.before.world.life m).initialised⟩)
      (hfree : toInit m e.before.stack = []) (hafter : e.after.stack = e.before.stack)
      (hinits : e.inits m = []) (hstops : e.stops m = []) (hgranted : ¬ e.RefusesStop m)
  /-- Its initialisation begins. -/
  | begun (next : Option Time) (rest : List ProcessorId)
      (hsetup : (e.before.world.life m).lifecycle = .setup) (hfree : toInit m e.before.stack = [])
      (hsplit : (e.before.world.life m).processors.drop (e.before.world.life m).initialised =
        e.inits m ++ rest)
      (houtcome : World.InitOutcome m next (e.before.world.life m) (e.inits m) rest
        (e.after.world.life m) e.progress)
      (hstack : e.after.stack = e.progress.pushed ++ e.before.stack)
      (hstops : e.stops m = []) (hgranted : ¬ e.RefusesStop m)
  /-- Its initialisation goes on after a callback. -/
  | resumed (p : ProcessorId) (waiting rest : List ProcessorId) (next : Option Time)
      (below : List Frame) (haction : e.action = .finish (.ok ()))
      (htop : e.before.stack = .initialising m p waiting next :: below)
      (hsplit : p :: waiting = e.inits m ++ rest)
      (houtcome : World.InitOutcome m next (e.before.world.life m) (e.inits m) rest
        (e.after.world.life m) e.progress)
      (hstack : e.after.stack = e.progress.pushed ++ below)
      (hstops : e.stops m = []) (hgranted : ¬ e.RefusesStop m)
  /-- Its initialisation has failed in a callback. -/
  | failed (p : ProcessorId) (waiting : List ProcessorId) (next : Option Time) (below : List Frame)
      (message : String) (haction : e.action = .finish (.error message))
      (htop : e.before.stack = .initialising m p waiting next :: below)
      (hlife : e.after.world.life m = e.before.world.life m) (hafter : e.after.stack = below)
      (hinits : e.inits m = []) (hstops : e.stops m = []) (hgranted : ¬ e.RefusesStop m)
  /-- It is shut down, and its processors are in use. -/
  | refused (hopen : (e.before.world.life m).lifecycle ≠ .shutDown) (hrefused : e.RefusesStop m)
      (hlife : e.after.world.life m = ⟨.shutDown, (e.before.world.life m).processors,
        (e.before.world.life m).initialised⟩)
      (hafter : e.after.stack = e.before.stack) (hinits : e.inits m = []) (hstops : e.stops m = [])
  /-- It is shut down. -/
  | stopping (hopen : (e.before.world.life m).lifecycle ≠ .shutDown)
      (hfree : toInit m e.before.stack = [])
      (hlife : e.after.world.life m = ⟨.shutDown, (e.before.world.life m).processors,
        (e.before.world.life m).initialised⟩)
      (hsplit : (e.before.world.life m).processors.take (e.before.world.life m).initialised =
        e.stops m ++ toStop m e.progress.pushed)
      (hpushed : toInit m e.progress.pushed = [])
      (hstack : e.after.stack = e.progress.pushed ++ e.before.stack)
      (hinits : e.inits m = []) (hgranted : ¬ e.RefusesStop m)
  /-- Its shut-down goes on after a callback. -/
  | stopped (p : ProcessorId) (waiting : List ProcessorId) (failure : Option ManagerError)
      (below : List Frame) (htop : e.before.stack = .stopping m p waiting failure :: below)
      (hlife : e.after.world.life m = e.before.world.life m)
      (hsplit : waiting = e.stops m ++ toStop m e.progress.pushed)
      (hpushed : toInit m e.progress.pushed = [])
      (hstack : e.after.stack = e.progress.pushed ++ below)
      (hinits : e.inits m = []) (hgranted : ¬ e.RefusesStop m)

/-- An event that leaves a life alone, calls back no processor of the manager and returns from no
callback of one. -/
theorem LifeStep.of_untended {below : List Frame}
    (hlife : e.after.world.life m = e.before.world.life m)
    (hstack : e.after.stack = e.progress.pushed ++ below)
    (hpushed : ∀ frame ∈ e.progress.pushed, frame.tended? ≠ some m)
    (hinit : toInit m e.before.stack = toInit m below)
    (hstop : toStop m e.before.stack = toStop m below)
    (hinits : e.inits m = []) (hstops : e.stops m = []) (hgranted : ¬ e.RefusesStop m) :
    LifeStep m e := by
  refine .aside hlife ?_ ?_ hinits hstops hgranted
  · rw [hstack, toInit_append, toInit_of_tended hpushed, hinit, List.nil_append]
  · rw [hstack, toStop_append, toStop_of_tended hpushed, hstop, List.nil_append]

/-! ## Requests -/

theorem inits_of_not_isPhase {r : Request} (ha : e.action = .request r)
    (h : r.isPhase = false) : e.inits m = [] := by
  unfold Event.inits
  rw [ha]
  cases r with
  | initialise n => cases h
  | update n time => cases h
  | _ => exact if_neg nofun

theorem stops_of_not_isPhase {r : Request} (ha : e.action = .request r)
    (h : r.isPhase = false) : e.stops m = [] := by
  unfold Event.stops
  rw [ha]
  cases r with
  | shutDown n => cases h
  | _ => rfl

theorem not_refusesStop (h : e.action ≠ .request (.shutDown m)) : ¬ e.RefusesStop m :=
  fun hrefuses => h hrefuses.1

/-- Making a manager gives it a life, and changes no other. -/
theorem life_makeManager (w : World) (config : ManagerConfig) (m : ManagerId) :
    (w.makeManager config).1.life m = w.life m ∨
      w.managers.length ≤ m.place ∧ (w.makeManager config).1.life m = ⟨.setup, [], 0⟩ := by
  unfold World.makeManager
  split
  · exact Or.inl rfl
  · unfold World.life World.manager
    dsimp only
    rw [getD_concat]
    split
    · rename_i hplace
      exact Or.inr ⟨Nat.le_of_eq hplace.symm, rfl⟩
    · exact Or.inl rfl

/-- Registering a processor puts a new one last, or changes no life; a manager that refuses it is one
whose life does not change. -/
theorem life_registerProcessor (w : World) (n : ManagerId) (q : Processor) (m : ManagerId) :
    (w.registerProcessor n q).1.life m = w.life m ∧
        (n = m → ∃ cause, (w.registerProcessor n q).2 = .error cause) ∨
      n = m ∧ (w.life m).lifecycle = .setup ∧
        (w.registerProcessor n q).1.life m =
          ⟨.setup, (w.life m).processors ++ [⟨w.processors.length⟩], (w.life m).initialised⟩ ∧
        w.processors.length < (w.registerProcessor n q).1.processors.length ∧
        (w.registerProcessor n q).2 = .ok ⟨w.processors.length⟩ := by
  unfold World.registerProcessor
  split
  · exact Or.inl ⟨rfl, fun _ => ⟨_, rfl⟩⟩
  · rename_i hsetup
    have hopen : (w.manager n).lifecycle = .setup := Classical.byContradiction hsetup
    split
    · exact Or.inl ⟨rfl, fun _ => ⟨_, rfl⟩⟩
    · by_cases hm : m = n
      · subst hm
        have hmade : m.place < w.managers.length :=
          World.lt_length_of_lifecycle (by rw [hopen]; exact nofun)
        refine Or.inr ⟨rfl, hopen, ?_, ?_, rfl⟩
        · refine (World.life_updateManager_self hmade).trans ?_
          show Life.mk (w.manager m).lifecycle _ _ = _
          rw [hopen]
          rfl
        · show w.processors.length < (w.processors ++ [q]).length
          simp
      · refine Or.inl ⟨?_, fun heq => absurd heq.symm hm⟩
        exact World.life_updateManager_of_ne hm

theorem lifeStep_of_plain {r : Request} (hphase : r.isPhase = false)
    (ha : e.action = .request r) (h : e.before.act (.request r) = some (e.after, e.progress)) :
    LifeStep m e := by
  obtain ⟨hopen, hafter, hprogress⟩ := act_request h
  have hstack : e.after.stack = e.progress.pushed ++ e.before.stack := by rw [hafter]
  have hworld : e.after.world = (e.before.world.serve e.before.engaged e.before.told r).1 := by
    rw [hafter]
  have hinits : e.inits m = [] := inits_of_not_isPhase ha hphase
  have hstops : e.stops m = [] := stops_of_not_isPhase ha hphase
  have hgranted : ¬ e.RefusesStop m := by
    refine not_refusesStop fun heq => ?_
    rw [ha] at heq
    cases heq
    cases hphase
  have hpushed : ∀ frame ∈ e.progress.pushed, frame.tended? ≠ some m := by
    intro frame hframe
    rw [hprogress] at hframe
    rw [Frame.tended?_of_isPlain (World.plain_serve _ _ _ hphase frame hframe)]
    exact nofun
  have haside : e.after.world.life m = e.before.world.life m → LifeStep m e := fun hlife =>
    .of_untended hlife hstack hpushed rfl rfl hinits hstops hgranted
  by_cases hmanager : ∃ config, r = .makeManager config
  · obtain ⟨config, rfl⟩ := hmanager
    rcases life_makeManager e.before.world config m with hsame | ⟨habsent, hnew⟩
    · refine haside ?_
      rw [hworld]
      exact hsame
    · refine .made habsent ?_ ?_ ?_ hinits hstops hgranted
      · rw [hworld]
        exact hnew
      · rw [hstack, toInit_append, toInit_of_tended hpushed, List.nil_append]
      · rw [hstack, toStop_append, toStop_of_tended hpushed, List.nil_append]
  · by_cases hprocessor : ∃ n q, r = .registerProcessor n q
    · obtain ⟨n, q, rfl⟩ := hprocessor
      have hregistered : e.after.world = (e.before.world.registerProcessor n q).1 := by
        rw [hworld]
        exact World.answer_world _ _
      rcases life_registerProcessor e.before.world n q m with
        ⟨hsame, -⟩ | ⟨rfl, hsetup, hnew, hlonger, -⟩
      · refine haside ?_
        rw [hregistered]
        exact hsame
      · have hnone : e.progress.pushed = [] := by
          rw [hprogress]
          exact World.pushed_answer _ _
        have hfree := toInit_of_not_engaged (not_engaged_of_exclusive hopen rfl)
        refine .registered _ rfl ?_ hsetup ?_ hfree ?_ hinits hstops hgranted
        · rw [hregistered]
          exact hlonger
        · rw [hregistered]
          exact hnew
        · rw [hstack, hnone]
          rfl
    · refine haside ?_
      rw [hworld]
      refine World.life_serve _ _ _ hphase (fun config heq => hmanager ⟨config, heq⟩) ?_ m
      exact fun n q heq => hprocessor ⟨n, q, heq⟩

theorem lifeStep_of_begins {r : Request} {n : ManagerId} (hr : r.begins? = some n)
    (ha : e.action = .request r) (h : e.before.act (.request r) = some (e.after, e.progress)) :
    LifeStep m e := by
  obtain ⟨-, hafter, hprogress⟩ := act_request h
  have hstack : e.after.stack = e.progress.pushed ++ e.before.stack := by rw [hafter]
  have hworld : e.after.world = (e.before.world.serve e.before.engaged e.before.told r).1 := by
    rw [hafter]
  have hstops : e.stops m = [] := by
    unfold Event.stops
    rw [ha]
    cases r with
    | shutDown k => cases hr
    | _ => rfl
  have hgranted : ¬ e.RefusesStop m := by
    refine not_refusesStop fun heq => ?_
    rw [ha] at heq
    cases heq
    cases hr
  have hinits : e.inits m = if r.begins? = some m then e.before.begun m else [] := by
    unfold Event.inits
    rw [ha]
  rcases World.begins_cases e.before.world e.before.engaged e.before.told hr with
    ⟨hsetup, hfree, next, hserve⟩ | ⟨hbusy, hserve⟩
  · rw [hserve] at hworld hprogress
    by_cases hn : n = m
    · subst hn
      rw [if_pos hr] at hinits
      have hbegun : e.inits n = e.before.world.settled n (e.before.world.uninitialised n) := by
        rw [hinits]
        exact if_pos ⟨hsetup, hfree⟩
      have hmade : n.place < e.before.world.managers.length :=
        World.lt_length_of_lifecycle (by rw [hsetup]; exact nofun)
      obtain ⟨rest, hsplit, houtcome⟩ :=
        World.runInits_outcome hmade next (e.before.world.uninitialised n)
      rw [← hworld, ← hprogress, ← hbegun] at houtcome
      rw [← hbegun] at hsplit
      exact .begun next rest hsetup (toInit_of_not_engaged hfree) hsplit houtcome hstack hstops
        hgranted
    · have hother : e.inits m = [] := by
        rw [hinits, hr, if_neg fun heq => hn (Option.some.inj heq)]
      refine .of_untended ?_ hstack ?_ rfl rfl hother hstops hgranted
      · rw [hworld]
        exact World.life_runInits_of_ne (fun heq => hn heq.symm) _ next _
      · intro frame hframe
        rw [hprogress] at hframe
        rcases World.pushed_runInits _ n next _ frame hframe with ⟨p, rest, rfl⟩ | hnone
        · exact fun heq => hn (Option.some.inj heq)
        · rw [hnone]
          exact nofun
  · have hnone : e.inits m = [] := by
      rw [hinits, hr]
      split
      · rename_i heq
        obtain rfl := Option.some.inj heq
        exact if_neg hbusy
      · rfl
    rcases hserve with ⟨time, hserve⟩ | ⟨reply, hserve⟩
    · rw [hserve] at hworld hprogress
      refine .of_untended ?_ hstack (fun frame hframe => ?_) rfl rfl hnone hstops hgranted
      · rw [hworld]
        exact World.life_runUpdates _ n time _ m
      · rw [hprogress] at hframe
        rw [World.untended_runUpdates _ n time _ frame hframe]
        exact nofun
    · rw [hserve] at hworld hprogress
      refine .of_untended ?_ hstack ?_ rfl rfl hnone hstops hgranted
      · rw [hworld]
      · rw [hprogress]
        exact Progress.forall_pushed_of_nil rfl

theorem lifeStep_of_shutDown {n : ManagerId} (ha : e.action = .request (.shutDown n))
    (h : e.before.act (.request (.shutDown n)) = some (e.after, e.progress)) : LifeStep m e := by
  obtain ⟨-, hafter, hprogress⟩ := act_request h
  have hstack : e.after.stack = e.progress.pushed ++ e.before.stack := by rw [hafter]
  have hworld : e.after.world = e.before.world.ended n := by
    rw [hafter]
    exact World.shutDown_world _ n _
  have hserved : e.progress = (e.before.world.shutDown n (e.before.engaged n)).2 := hprogress
  have hinits : e.inits m = [] := by
    unfold Event.inits
    rw [ha]
    exact if_neg nofun
  have hstops : e.stops m =
      if n = m ∧ (e.before.world.manager m).lifecycle ≠ .shutDown ∧ e.before.engaged m = false then
        e.before.world.called
          ((e.before.world.manager m).processors.take (e.before.world.manager m).initialised)
      else [] := by
    unfold Event.stops
    rw [ha]
  by_cases hn : n = m
  · subst hn
    rcases e.before.world.shutDown_cases n (e.before.engaged n) with
      ⟨hover, hshut⟩ | ⟨hopen, hengaged, hshut⟩ | ⟨hopen, hengaged, hshut⟩
    · rw [hshut] at hserved
      refine .of_untended ?_ hstack ?_ rfl rfl hinits ?_ ?_
      · rw [hworld]
        exact World.life_ended_of_over hover n
      · rw [hserved]
        exact Progress.forall_pushed_of_nil rfl
      · rw [hstops, if_neg fun hgranted => hgranted.2.1 hover]
      · rintro ⟨-, hrefused⟩
        rw [hserved] at hrefused
        cases hrefused
    · rw [hshut] at hserved
      refine .refused hopen ⟨ha, hserved⟩ ?_ ?_ hinits ?_
      · rw [hworld]
        exact World.life_ended (World.lt_length_of_lifecycle hopen)
      · rw [hstack, hserved]
        rfl
      · rw [hstops, if_neg]
        rintro ⟨-, -, hfree⟩
        rw [hengaged] at hfree
        cases hfree
    · rw [hshut] at hserved
      refine .stopping hopen (toInit_of_not_engaged hengaged) ?_ ?_ ?_ hstack hinits ?_
      · rw [hworld]
        exact World.life_ended (World.lt_length_of_lifecycle hopen)
      · -- the processors are asked in the world where the manager has ended already
        show (e.before.world.manager n).processors.take _ = _
        rw [hstops, if_pos ⟨rfl, hopen, hengaged⟩, ← World.called_ended _ n, hserved]
        exact called_append_toStop _ n none _
      · rw [hserved]
        exact toInit_runStops _ n none _
      · rintro ⟨-, hrefused⟩
        rw [hserved] at hrefused
        exact runStops_ne_refuses _ n _ _ hrefused
  · refine .of_untended ?_ hstack ?_ rfl rfl hinits ?_ ?_
    · rw [hworld]
      exact World.life_ended_of_ne fun heq => hn heq.symm
    · intro frame hframe
      rw [hserved] at hframe
      rw [World.tended_shutDown _ n _ frame hframe]
      exact fun heq => hn (Option.some.inj heq)
    · rw [hstops, if_neg fun hgranted => hn hgranted.1]
    · refine not_refusesStop fun heq => ?_
      rw [ha] at heq
      cases heq
      exact hn rfl

/-! ## Returns -/

theorem inits_of_top {frame : Frame} {below : List Frame} {outcome : Outcome}
    (ha : e.action = .finish outcome) (htop : e.before.stack = frame :: below)
    (h : frame.tended? ≠ some m) : e.inits m = [] := by
  unfold Event.inits
  rw [ha, htop]
  cases outcome with
  | error message => rfl
  | ok done =>
      cases frame with
      | initialising n p rest next => exact if_neg fun heq => h (congrArg some heq)
      | _ => rfl

theorem stops_of_top {frame : Frame} {below : List Frame} {outcome : Outcome}
    (ha : e.action = .finish outcome) (htop : e.before.stack = frame :: below)
    (h : frame.tended? ≠ some m) : e.stops m = [] := by
  unfold Event.stops
  rw [ha, htop]
  cases frame with
  | stopping n p rest failure => exact if_neg fun heq => h (congrArg some heq)
  | _ => rfl

/-- A callback of an initialisation returns. -/
theorem lifeStep_of_initialising {outcome : Outcome} {p : ProcessorId} {rest : List ProcessorId}
    {next : Option Time} {below : List Frame} (ha : e.action = .finish outcome)
    (htop : e.before.stack = .initialising m p rest next :: below)
    (hmade : m.place < e.before.world.managers.length)
    (hworld : e.after.world = (e.before.world.afterInit m p rest next outcome).1)
    (hprogress : e.progress = (e.before.world.afterInit m p rest next outcome).2)
    (hstack : e.after.stack = e.progress.pushed ++ below) (hgranted : ¬ e.RefusesStop m) :
    LifeStep m e := by
  have hstops : e.stops m = [] := by
    unfold Event.stops
    rw [ha, htop]
  cases outcome with
  | error message =>
      refine .failed p rest next below message ha htop ?_ ?_ ?_ hstops hgranted
      · rw [hworld]
        rfl
      · rw [hstack, hprogress]
        rfl
      · unfold Event.inits
        rw [ha]
  | ok done =>
      have hinits : e.inits m = p :: (e.before.world.countInit m).settled m rest := by
        unfold Event.inits
        rw [ha, htop]
        exact if_pos rfl
      have hcounted : m.place < (e.before.world.countInit m).managers.length :=
        Nat.lt_of_lt_of_le hmade (World.grows_countInit _ m).managers
      obtain ⟨others, hsplit, houtcome⟩ := World.runInits_outcome hcounted next rest
      rw [World.life_countInit hmade] at houtcome
      have hdone := houtcome.cons p
      rw [← hinits] at hdone
      refine .resumed p rest others next below ha htop ?_ ?_ hstack hstops hgranted
      · rw [hinits, List.cons_append, ← hsplit]
      · rw [hworld, hprogress]
        exact hdone

/-- A callback of a shut-down returns. -/
theorem lifeStep_of_stopping {outcome : Outcome} {p : ProcessorId} {rest : List ProcessorId}
    {failure : Option ManagerError} {below : List Frame} (ha : e.action = .finish outcome)
    (htop : e.before.stack = .stopping m p rest failure :: below)
    (hworld : e.after.world = (e.before.world.afterStop m p rest failure outcome).1)
    (hprogress : e.progress = (e.before.world.afterStop m p rest failure outcome).2)
    (hstack : e.after.stack = e.progress.pushed ++ below) (hgranted : ¬ e.RefusesStop m) :
    LifeStep m e := by
  have hinits : e.inits m = [] := by
    unfold Event.inits
    rw [ha, htop]
    cases outcome <;> rfl
  have hstops : e.stops m = e.before.world.called rest := by
    unfold Event.stops
    rw [ha, htop]
    exact if_pos rfl
  obtain ⟨cause, hstopped⟩ := e.before.world.afterStop_eq m p rest failure outcome
  rw [hstopped] at hworld hprogress
  refine .stopped p rest failure below htop ?_ ?_ ?_ hstack hinits hgranted
  · rw [hworld, World.runStops_world]
  · rw [hstops, hprogress]
    exact called_append_toStop _ m cause rest
  · rw [hprogress]
    exact toInit_runStops _ m cause rest

theorem lifeStep_of_finish {outcome : Outcome}
    (hmade : toInit m e.before.stack ≠ [] → m.place < e.before.world.managers.length)
    (ha : e.action = .finish outcome)
    (h : e.before.act (.finish outcome) = some (e.after, e.progress)) : LifeStep m e := by
  obtain ⟨frame, below, htop, hafter, hprogress⟩ := act_finish h
  have hstack : e.after.stack = e.progress.pushed ++ below := by rw [hafter]
  have hworld : e.after.world = (e.before.world.resume outcome frame).1 := by rw [hafter]
  have hgranted : ¬ e.RefusesStop m := by
    refine not_refusesStop fun heq => ?_
    rw [ha] at heq
    cases heq
  by_cases htended : frame.tended? = some m
  · cases frame with
    | initialising n p rest next =>
        obtain rfl := Option.some.inj htended
        have hhere : n.place < e.before.world.managers.length := by
          apply hmade
          rw [htop]
          simp [toInit, frameInits?]
        exact lifeStep_of_initialising ha htop hhere hworld hprogress hstack hgranted
    | stopping n p rest failure =>
        obtain rfl := Option.some.inj htended
        exact lifeStep_of_stopping ha htop hworld hprogress hstack hgranted
    | _ => cases htended
  · refine .of_untended ?_ hstack ?_ ?_ ?_ (inits_of_top ha htop htended)
      (stops_of_top ha htop htended) hgranted
    · rw [hworld]
      exact life_resume _ outcome htended
    · rw [hprogress]
      exact tended_resume _ outcome htended
    · rw [htop]
      simp [toInit, frameInits?_of_tended htended]
    · rw [htop]
      simp [toStop, frameStops_of_tended htended]

/-- Every event does to a life what is listed. -/
theorem lifeStep_of_act
    (hmade : toInit m e.before.stack ≠ [] → m.place < e.before.world.managers.length)
    (h : e.before.act e.action = some (e.after, e.progress)) : LifeStep m e := by
  cases ha : e.action with
  | finish outcome =>
      rw [ha] at h
      exact lifeStep_of_finish hmade ha h
  | request r =>
      rw [ha] at h
      cases hphase : r.isPhase with
      | false => exact lifeStep_of_plain hphase ha h
      | true =>
          cases r with
          | initialise n => exact lifeStep_of_begins rfl ha h
          | update n time => exact lifeStep_of_begins rfl ha h
          | shutDown n => exact lifeStep_of_shutDown ha h
          | _ => cases hphase

end EntityStore.Session
