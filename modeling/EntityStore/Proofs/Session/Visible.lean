import EntityStore.Proofs.Session.Marks

/-!
# What code outside sees of the marks

Code outside sees its own callbacks begin and return, and the answers to its requests.

* `callbacksOf_marks`: for a processor with callbacks of its own the marks of an event are the
  callback that returns and the callback that begins in it.
* `sense_of_mark`: what the other marks stand for.
-/

namespace EntityStore

variable {p : ProcessorId}

theorem callbacksOf_cons_of_ne {mark : Mark} (h : mark.callback? ≠ some p) (log : List Mark) :
    callbacksOf p (mark :: log) = callbacksOf p log := by
  simp [callbacksOf, h]

theorem callbacksOf_cons_begins {q : ProcessorId} (h : q ≠ p) (duty : Duty) (log : List Mark) :
    callbacksOf p (.begins duty q :: log) = callbacksOf p log := by
  have hother : (Mark.begins duty q).callback? ≠ some p := fun heq => h (Option.some.inj heq)
  exact callbacksOf_cons_of_ne hother log

theorem callbacksOf_cons_ends {q : ProcessorId} (h : q ≠ p) (duty : Duty)
    (failure : Option ManagerError) (log : List Mark) :
    callbacksOf p (.ends duty q failure :: log) = callbacksOf p log := by
  have hother : (Mark.ends duty q failure).callback? ≠ some p := fun heq => h (Option.some.inj heq)
  exact callbacksOf_cons_of_ne hother log

variable [Host]

theorem Frame.duty?_of_engaged {m : ManagerId} {frame : Frame} (h : frame.engaged? ≠ some m)
    (p : ProcessorId) : frame.duty? m p = none := by
  have hn : ∀ {n q}, some n ≠ some m → ¬ (n = m ∧ q = p) := fun hne heq =>
    hne (congrArg some heq.1)
  cases frame with
  | initialising n q rest next => exact if_neg (hn h)
  | updating n q time rest => exact if_neg (hn h)
  | visiting n q time stage errand =>
      cases errand with
      | tick rest => exact if_neg (hn h)
      | alone => rfl
  | stopping n q rest failure => exact if_neg (hn h)
  | _ => rfl

theorem Progress.begins_of_engaged {m : ManagerId} {progress : Progress}
    (h : ∀ next ∈ progress.pushed, next.engaged? ≠ some m) (p : ProcessorId) :
    progress.begins m p = [] := by
  unfold begins
  rw [List.filterMap_eq_nil_iff]
  intro next hnext
  rw [Frame.duty?_of_engaged (h next hnext)]
  rfl

namespace World

variable {w : World}

/-- A visitor is none that has callbacks of its own. -/
theorem ne_of_visitor {q : ProcessorId} {v : Visitor} (hp : (w.processor p).body = .custom)
    (hq : (w.processor q).body = .visitor v) : q ≠ p := by
  rintro rfl
  rw [hp] at hq
  cases hq

/-- The callback of a frame begins. -/
theorem begins_calls {duty : Duty} {q : ProcessorId} {m : ManagerId} {frame : Frame}
    (h : frame.duty? m p = if q = p then some duty else none) :
    callbacksOf p [.begins duty q] = (Progress.calls frame).begins m p := by
  by_cases hq : q = p
  · subst hq
    rw [if_pos rfl] at h
    simp [callbacksOf, Mark.callback?, Progress.begins, Progress.pushed, h]
  · rw [if_neg hq] at h
    simp [callbacksOf, Mark.callback?, Progress.begins, Progress.pushed, h, hq]

theorem callbacksOf_updateMarks (hp : (w.processor p).body = .custom) (m : ManagerId) (time : Time)
    (processors : List ProcessorId) :
    callbacksOf p (w.updateMarks processors) =
      (w.runUpdates m time processors).2.begins m p := by
  induction processors with
  | nil =>
      refine Eq.symm (Progress.begins_of_engaged ?_ p)
      intro next hnext
      obtain ⟨number, notice, rest, groups, rfl⟩ := flush_pushed _ m _ next hnext
      exact nofun
  | cons q rest ih =>
      cases hbody : (w.processor q).body with
      | custom =>
          simp only [updateMarks, runUpdates, hbody]
          exact begins_calls (by simp [Frame.duty?])
      | visitor v =>
          have hq : q ≠ p := ne_of_visitor hp hbody
          simp only [updateMarks, runUpdates, hbody]
          rw [callbacksOf_cons_begins hq]
          cases v.group with
          | none => exact callbacksOf_cons_ends hq _ _ []
          | some g =>
              dsimp only
              cases w.firstStage? v g with
              | some stage => simp [callbacksOf, Progress.begins, Progress.pushed, Frame.duty?, hq]
              | none =>
                  dsimp only
                  rw [callbacksOf_cons_ends hq]
                  exact ih

theorem callbacksOf_initMarks (hp : (w.processor p).body = .custom) (m : ManagerId)
    (next : Option Time) (processors : List ProcessorId) :
    callbacksOf p (w.initMarks m next processors) =
      (w.runInits m next processors).2.begins m p := by
  induction processors generalizing w with
  | nil =>
      cases next with
      | none => rfl
      | some time =>
          unfold initMarks runInits
          dsimp only
          have htick : Mark.tick.callback? ≠ some p := (Option.some_ne_none p).symm
          rw [callbacksOf_cons_of_ne htick]
          refine callbacksOf_updateMarks ?_ m time _
          exact hp
  | cons q rest ih =>
      cases hbody : (w.processor q).body with
      | custom =>
          simp only [initMarks, runInits, hbody]
          exact begins_calls (by simp [Frame.duty?])
      | visitor v =>
          have hq : q ≠ p := ne_of_visitor hp hbody
          have hsame := processor_settleVisitor hq.symm w v m
          simp only [initMarks, runInits, hbody]
          rw [callbacksOf_cons_begins hq]
          cases hsettled : w.settleVisitor q v m with
          | mk u result =>
              rw [hsettled] at hsame
              cases result with
              | error cause => exact callbacksOf_cons_ends hq _ _ []
              | ok done =>
                  dsimp only
                  rw [callbacksOf_cons_ends hq]
                  refine ih ?_
                  show (u.processor p).body = .custom
                  rw [hsame]
                  exact hp

theorem callbacksOf_stopMarks (hp : (w.processor p).body = .custom) (m : ManagerId)
    (failure : Option ManagerError) (processors : List ProcessorId) :
    callbacksOf p (w.stopMarks failure processors) =
      (w.runStops m failure processors).2.begins m p := by
  induction processors with
  | nil => cases failure <;> rfl
  | cons q rest ih =>
      cases hbody : (w.processor q).body with
      | custom =>
          simp only [stopMarks, runStops, hbody]
          exact begins_calls (by simp [Frame.duty?])
      | visitor v =>
          have hq : q ≠ p := ne_of_visitor hp hbody
          simp only [stopMarks, runStops, hbody]
          rw [callbacksOf_cons_begins hq, callbacksOf_cons_ends hq]
          exact ih

/-- The callback of a frame ends, and something follows. -/
theorem callbacksOf_cons_returns {duty : Duty} {q : ProcessorId} {m : ManagerId} {frame : Frame}
    (h : frame.duty? m p = if q = p then some duty else none) (outcome : Outcome)
    (more : List Mark) :
    callbacksOf p (.ends duty q (w.failure? q outcome) :: more) =
      ((frame.duty? m p).map fun duty => Mark.ends duty p (w.failure? p outcome)).toList ++
        callbacksOf p more := by
  by_cases hq : q = p
  · subst hq
    rw [if_pos rfl] at h
    simp [callbacksOf, Mark.callback?, h]
  · rw [if_neg hq] at h
    rw [callbacksOf_cons_ends hq, h]
    rfl

theorem callbacksOf_resumeMarks (hp : (w.processor p).body = .custom) (m : ManagerId)
    (outcome : Outcome) (frame : Frame) :
    callbacksOf p (w.resumeMarks m outcome frame) =
      ((frame.duty? m p).map fun duty => Mark.ends duty p (w.failure? p outcome)).toList ++
        (w.resume outcome frame).2.begins m p := by
  by_cases hengaged : frame.engaged? = some m
  · cases frame with
    | initialising n q rest next =>
        obtain rfl := Option.some.inj hengaged
        have hduty : (Frame.initialising n q rest next).duty? n p =
            if q = p then some .init else none := by
          simp [Frame.duty?]
        cases outcome with
        | error message =>
            simp only [resumeMarks, if_pos]
            exact callbacksOf_cons_returns hduty _ _
        | ok done =>
            simp only [resumeMarks, if_pos]
            rw [callbacksOf_cons_returns hduty]
            refine congrArg _ (callbacksOf_initMarks ?_ n next rest)
            exact hp
    | updating n q time rest =>
        obtain rfl := Option.some.inj hengaged
        have hduty : (Frame.updating n q time rest).duty? n p =
            if q = p then some .update else none := by
          simp [Frame.duty?]
        cases outcome with
        | error message =>
            simp only [resumeMarks, if_pos]
            exact callbacksOf_cons_returns hduty _ _
        | ok done =>
            simp only [resumeMarks, if_pos]
            rw [callbacksOf_cons_returns hduty]
            exact congrArg _ (callbacksOf_updateMarks hp n time rest)
    | visiting n q time stage errand =>
        cases errand with
        | alone => cases hengaged
        | tick rest =>
            obtain rfl := Option.some.inj hengaged
            have hduty : (Frame.visiting n q time stage (.tick rest)).duty? n p =
                if q = p then some .update else none := by
              simp [Frame.duty?]
            cases outcome with
            | error message =>
                simp only [resumeMarks, if_pos]
                exact callbacksOf_cons_returns hduty _ _
            | ok done =>
                simp only [resumeMarks, resume, afterVisit, if_pos]
                cases hstage : w.followingStage? q stage with
                | none =>
                    dsimp only
                    rw [← callbacksOf_updateMarks hp n time rest]
                    exact callbacksOf_cons_returns hduty (.ok ()) _
                | some next =>
                    -- one with callbacks of its own has no further stage
                    have hq : q ≠ p := by
                      rintro rfl
                      unfold followingStage? at hstage
                      rw [hp] at hstage
                      cases hstage
                    rw [hduty, if_neg hq]
                    simp [callbacksOf, Progress.begins, Progress.pushed, Frame.duty?, hq]
    | stopping n q rest failure =>
        obtain rfl := Option.some.inj hengaged
        have hduty : (Frame.stopping n q rest failure).duty? n p =
            if q = p then some .stop else none := by
          simp [Frame.duty?]
        simp only [resumeMarks, if_pos]
        rw [callbacksOf_cons_returns hduty, resume_stopping, callbacksOf_stopMarks hp n]
    | _ => cases hengaged
  · rw [resumeMarks_eq_nil w outcome hengaged, Frame.duty?_of_engaged hengaged,
      Progress.begins_of_engaged (w.unengaged_resume outcome hengaged)]
    rfl

end World

namespace Session

variable {m : ManagerId} {p : ProcessorId} {e : Event}

theorem returns_of_request (h : ∃ r, e.action = .request r) : e.returns m p = [] := by
  obtain ⟨r, ha⟩ := h
  unfold Event.returns
  rw [ha]

/-- For a processor with callbacks of its own, what an event does to it is the callback that returns
in it and the callback that begins in it. -/
theorem callbacksOf_marks (hact : e.before.act e.action = some (e.after, e.progress))
    (hp : (e.before.world.processor p).body = .custom) :
    callbacksOf p (e.marks m) = e.returns m p ++ e.progress.begins m p := by
  cases deed_of_act (m := m) hact with
  | aside below hmarks hlife hafter hbefore hpushed =>
      have hreturns : e.returns m p = [] := by
        rcases hbefore with ⟨-, hrequest⟩ | ⟨frame, htop, hengaged⟩
        · exact returns_of_request hrequest
        · unfold Event.returns
          rw [htop]
          split
          · rfl
          · simp [Frame.duty?_of_engaged hengaged]
      rw [hmarks, hreturns, Progress.begins_of_engaged hpushed]
      rfl
  | registers q hmarks hnew hsetup hlife haction hfree hafter hprogress =>
      obtain ⟨processor, hrequest⟩ := haction
      rw [hmarks, returns_of_request ⟨_, hrequest⟩, hprogress]
      rfl
  | initialises next haction hmarks hsetup hfree hresult hafter =>
      have hprogress := congrArg Prod.snd hresult
      have hrequest : ∃ r, e.action = .request r := by
        rcases haction with ⟨ha, -⟩ | ⟨time, ha, -⟩
        · exact ⟨_, ha⟩
        · exact ⟨_, ha⟩
      rw [hmarks, returns_of_request hrequest, World.callbacksOf_initMarks hp m, ← hprogress]
      rfl
  | ticks time haction hmarks hrunning hfree hresult hafter =>
      have hprogress := congrArg Prod.snd hresult
      have htick : Mark.tick.callback? ≠ some p := nofun
      rw [hmarks, returns_of_request ⟨_, haction⟩, callbacksOf_cons_of_ne htick,
        World.callbacksOf_updateMarks hp m time, ← hprogress]
      rfl
  | closes haction hmarks hopen hfree hresult hafter =>
      have hprogress := congrArg Prod.snd hresult
      have hclosing : Mark.closing.callback? ≠ some p := nofun
      have hended : ((e.before.world.ended m).processor p).body = .custom := hp
      rw [hmarks, returns_of_request ⟨_, haction⟩, callbacksOf_cons_of_ne hclosing,
        World.callbacksOf_stopMarks hended m, ← hprogress]
      rfl
  | returns outcome frame below hmarks haction hbefore hengaged hresult hafter =>
      have hprogress := congrArg Prod.snd hresult
      rw [hmarks, World.callbacksOf_resumeMarks hp m, ← hprogress]
      have hreturns : e.returns m p = ((frame.duty? m p).map fun duty =>
          Mark.ends duty p (e.before.world.failure? p outcome)).toList := by
        unfold Event.returns
        rw [haction, hbefore]
        cases hduty : frame.duty? m p <;> simp [hduty]
      rw [hreturns]

end Session

namespace World

variable {w : World} {m : ManagerId} {mark : Mark}

/-! ## The other marks -/

theorem mem_updateMarks {processors : List ProcessorId} (h : mark ∈ w.updateMarks processors)
    (hcallback : mark.callback? = none) : mark = .ticked := by
  have hbegins : ∀ p, mark ≠ .begins .update p := by
    rintro p rfl
    cases hcallback
  have hends : ∀ p failure, mark ≠ .ends .update p failure := by
    rintro p failure rfl
    cases hcallback
  induction processors with
  | nil => simpa [updateMarks] using h
  | cons p rest ih =>
      unfold updateMarks at h
      split at h
      · simp [hbegins] at h
      · split at h
        · simp [hbegins, hends] at h
        · split at h
          · simp [hbegins] at h
          · apply ih
            simpa [hbegins, hends] using h

theorem mem_initMarks {next : Option Time} {processors : List ProcessorId}
    (h : mark ∈ w.initMarks m next processors) (hcallback : mark.callback? = none) :
    next ≠ none ∧ (mark = .tick ∨ mark = .ticked) := by
  have hbegins : ∀ p, mark ≠ .begins .init p := by
    rintro p rfl
    cases hcallback
  have hends : ∀ p failure, mark ≠ .ends .init p failure := by
    rintro p failure rfl
    cases hcallback
  induction processors generalizing w with
  | nil =>
      unfold initMarks at h
      cases next with
      | none => cases h
      | some time =>
          refine ⟨nofun, ?_⟩
          rcases List.mem_cons.1 h with htick | hlater
          · exact Or.inl htick
          · exact Or.inr (mem_updateMarks hlater hcallback)
  | cons p rest ih =>
      unfold initMarks at h
      split at h
      · simp [hbegins] at h
      · split at h
        · simp [hbegins, hends] at h
        · apply ih
          simpa [hbegins, hends] using h

/-- When all are shut down the answer is the failure. -/
theorem mem_stopMarks {failure : Option ManagerError} {processors : List ProcessorId}
    (h : mark ∈ w.stopMarks failure processors) (hcallback : mark.callback? = none) (m : ManagerId) :
    ∃ new, mark = .closed new ∧ (w.runStops m failure processors).2 = stopReply new := by
  have hbegins : ∀ p, mark ≠ .begins .stop p := by
    rintro p rfl
    cases hcallback
  have hends : ∀ p failure, mark ≠ .ends .stop p failure := by
    rintro p failure rfl
    cases hcallback
  induction processors with
  | nil =>
      refine ⟨failure, by simpa [stopMarks] using h, ?_⟩
      cases failure <;> rfl
  | cons p rest ih =>
      cases hbody : (w.processor p).body with
      | custom => simp [stopMarks, hbody, hbegins] at h
      | visitor v =>
          simp only [runStops, hbody]
          apply ih
          simpa [stopMarks, hbody, hbegins, hends] using h

/-- When a callback returns, a tick that has waited for it may go on, or a shut-down. -/
theorem mem_resumeMarks {outcome : Outcome} {frame : Frame}
    (h : mark ∈ w.resumeMarks m outcome frame) (hcallback : mark.callback? = none) :
    frame.ticks? = some m ∧ (mark = .tick ∨ mark = .ticked) ∨
      ∃ failure, mark = .closed failure ∧ (w.resume outcome frame).2 = stopReply failure := by
  have hends : ∀ duty p failure, mark ≠ .ends duty p failure := by
    rintro duty p failure rfl
    cases hcallback
  by_cases hengaged : frame.engaged? = some m
  · cases frame with
    | initialising n p rest next =>
        obtain rfl := Option.some.inj hengaged
        cases outcome with
        | error message => simp [resumeMarks, hends] at h
        | ok done =>
            simp only [resumeMarks, if_true, List.mem_cons, hends, false_or] at h
            obtain ⟨hnext, htick⟩ := mem_initMarks h hcallback
            refine Or.inl ⟨?_, htick⟩
            cases next with
            | none => exact absurd rfl hnext
            | some time => rfl
    | updating n p time rest =>
        obtain rfl := Option.some.inj hengaged
        cases outcome with
        | error message => simp [resumeMarks, hends] at h
        | ok done =>
            simp only [resumeMarks, if_true, List.mem_cons, hends, false_or] at h
            exact Or.inl ⟨rfl, Or.inr (mem_updateMarks h hcallback)⟩
    | visiting n p time stage errand =>
        cases errand with
        | alone => cases hengaged
        | tick rest =>
            obtain rfl := Option.some.inj hengaged
            cases outcome with
            | error message => simp [resumeMarks, hends] at h
            | ok done =>
                cases hstage : w.followingStage? p stage with
                | some next => simp [resumeMarks, hstage] at h
                | none =>
                    simp only [resumeMarks, if_true, hstage, List.mem_cons, hends, false_or] at h
                    exact Or.inl ⟨rfl, Or.inr (mem_updateMarks h hcallback)⟩
    | stopping n p rest kept =>
        obtain rfl := Option.some.inj hengaged
        simp only [resumeMarks, if_true, List.mem_cons, hends, false_or] at h
        rw [resume_stopping]
        exact Or.inr (mem_stopMarks h hcallback n)
    | _ => cases hengaged
  · rw [resumeMarks_eq_nil w outcome hengaged] at h
    cases h

end World

namespace Session

/-- What the marks stand for that are no callbacks.  A processor is registered with a request; a tick
that begins or ends to update processors is asked for with one, and so is a shut-down; and when it is
over it is answered with its failure. -/
theorem sense_of_mark {m : ManagerId} {e : Event} {mark : Mark}
    (hact : e.before.act e.action = some (e.after, e.progress)) (h : mark ∈ e.marks m)
    (hcallback : mark.callback? = none) :
    (∃ p, mark = .registered p ∧ e.progress = .replies (.ok (.processor p))) ∨
      (e.ticks? = some m ∧ (mark = .tick ∨ mark = .ticked)) ∨
      (mark = .closing ∧ e.action = .request (.shutDown m)) ∨
      ∃ failure, mark = .closed failure ∧ e.progress = World.stopReply failure := by
  cases deed_of_act (m := m) hact with
  | aside below hmarks =>
      rw [hmarks] at h
      cases h
  | registers q hmarks hnew hsetup hlife haction hfree hafter hprogress =>
      rw [hmarks] at h
      exact Or.inl ⟨q, List.mem_singleton.1 h, hprogress⟩
  | initialises next haction hmarks =>
      rw [hmarks] at h
      obtain ⟨hnext, htick⟩ := World.mem_initMarks h hcallback
      rcases haction with ⟨-, hnone⟩ | ⟨time, ha, -⟩
      · exact absurd hnone hnext
      · refine Or.inr (Or.inl ⟨?_, htick⟩)
        unfold Event.ticks?
        rw [ha]
  | ticks time haction hmarks =>
      rw [hmarks] at h
      refine Or.inr (Or.inl ⟨?_, ?_⟩)
      · unfold Event.ticks?
        rw [haction]
      · rcases List.mem_cons.1 h with htick | hlater
        · exact Or.inl htick
        · exact Or.inr (World.mem_updateMarks hlater hcallback)
  | closes haction hmarks hopen hfree hresult =>
      have hprogress := congrArg Prod.snd hresult
      rw [hmarks] at h
      rcases List.mem_cons.1 h with hclosing | hlater
      · exact Or.inr (Or.inr (Or.inl ⟨hclosing, haction⟩))
      · obtain ⟨failure, hclosed, hreply⟩ := World.mem_stopMarks hlater hcallback m
        exact Or.inr (Or.inr (Or.inr ⟨failure, hclosed, hprogress.trans hreply⟩))
  | returns outcome frame below hmarks haction hbefore hengaged hresult =>
      have hprogress := congrArg Prod.snd hresult
      rw [hmarks] at h
      rcases World.mem_resumeMarks h hcallback with ⟨hticks, htick⟩ | ⟨failure, hclosed, hreply⟩
      · refine Or.inr (Or.inl ⟨?_, htick⟩)
        unfold Event.ticks?
        rw [haction, hbefore]
        exact hticks
      · exact Or.inr (Or.inr (Or.inr ⟨failure, hclosed, hprogress.trans hreply⟩))

end Session

end EntityStore
