import EntityStore.Proofs.Session.Tending

/-!
# Shutting a manager down

Two laws of a shut-down, whatever callbacks request in the meantime.

* `shutDown_once_iff`: once a manager was shut down while no callback was running, its initialised
  processors have been shut down once each, unless an earlier request was refused.  Such a request
  ends the life of the manager before it is refused, and the later request finds nothing to do.
* `down_for_good_iff`: a manager that is shut down stays so, unless an initialisation that is under
  way comes to its end.  It opens the manager again.
-/

namespace EntityStore

variable [Host]

/-- The manager that a request needs to be open. -/
def Request.needsOpen? : Request → Option ManagerId
  | initialise m => some m
  | update m _ => some m
  | create m _ => some m
  | _ => none

/-- The manager that an action asks to shut down. -/
def Action.stops? : Action → Option ManagerId
  | .request (.shutDown m) => some m
  | _ => none

namespace Session

instance (m : ManagerId) (s : Session) : Decidable (Down m s) :=
  inferInstanceAs (Decidable (_ = _))

/-- A callback returns and with it the initialisation of a manager is complete: all its processors
are initialised. -/
def Event.Completes (m : ManagerId) (e : Event) : Prop :=
  e.action = .finish (.ok ()) ∧
    (∃ p rest next below, e.before.stack = .initialising m p rest next :: below) ∧
    (e.after.world.manager m).initialised = (e.after.world.manager m).processors.length

variable {m : ManagerId} {e : Event} {events : List Event} {s t u v : Session}

/-! ## Once each -/

/-- Without a callback nobody is refused to shut a manager down. -/
theorem not_refusesStop_of_quiet (hquiet : e.before.stack = [])
    (hact : e.before.act e.action = some (e.after, e.progress)) : ¬ e.RefusesStop m := by
  rintro ⟨ha, hrefused⟩
  rw [ha] at hact
  obtain ⟨-, -, hprogress⟩ := act_request hact
  have hfree : e.before.engaged m = false := by simp [engaged, hquiet]
  have hserved : e.progress = (e.before.world.shutDown m (e.before.engaged m)).2 := hprogress
  rw [hrefused, hfree] at hserved
  rcases e.before.world.shutDown_cases m false with ⟨-, hshut⟩ | ⟨-, hengaged, -⟩ | ⟨-, -, hshut⟩
  · rw [hshut] at hserved
    cases hserved
  · cases hengaged
  · rw [hshut] at hserved
    exact runStops_ne_refuses _ m _ _ hserved.symm

/-- Shutting a manager down while no callback is running: it is over, and its initialised
processors have been shut down or wait for it, unless an earlier request was refused. -/
theorem over_of_quiet_shutDown (htended : Tended m events e.before)
    (hstage : Stage m events e.before) (hmade : m.place < e.before.world.managers.length)
    (hquiet : e.before.stack = []) (ha : e.action = .request (.shutDown m))
    (hact : e.before.act e.action = some (e.after, e.progress)) :
    Over m e.after ∧ e.inits m = [] ∧
      (Abandoned m events → stopsOf m events ++ (e.stops m ++ toStop m e.after.stack) = []) ∧
      (¬ Abandoned m events → stopsOf m events ++ (e.stops m ++ toStop m e.after.stack) =
        initsOf m events) := by
  have hover : Over m e.after := by
    refine ⟨Nat.lt_of_lt_of_le hmade (grows_of_act hact).managers, ?_, ?_⟩
    · rw [ha] at hact
      obtain ⟨-, hafter, -⟩ := act_request hact
      have hworld : e.after.world = e.before.world.ended m := by
        rw [hafter]
        exact World.shutDown_world _ m _
      rw [down_iff, hworld, World.life_ended hmade]
    · rw [ha] at hact
      obtain ⟨-, hafter, hprogress⟩ := act_request hact
      have hserved : e.progress = (e.before.world.shutDown m (e.before.engaged m)).2 := hprogress
      rw [hafter, hquiet, hserved, List.append_nil]
      exact toInit_shutDown _ m _
  have hinits : e.inits m = [] := by
    unfold Event.inits
    rw [ha]
    exact if_neg nofun
  have hsame : Abandoned m (events ++ [e]) ↔ Abandoned m events := by
    rw [abandoned_snoc]
    constructor
    · exact fun hnow => (hnow.resolve_left (not_refusesStop_of_quiet hquiet hact)).1
    · exact fun hold => Or.inr ⟨hold, hover.down⟩
  have hcounted : initsOf m events =
      (e.after.world.life m).processors.take (e.after.world.life m).initialised := by
    rw [← (htended.step hact).counted, initsOf_snoc, hinits, List.append_nil]
  refine ⟨hover, hinits, ?_⟩
  rw [← List.append_assoc, ← stopsOf_snoc, ← hsame, hcounted]
  cases hstage.step htended hact with
  | kept hstops hwaiting hdown habandoned =>
      rw [hstops, hwaiting]
      refine ⟨fun _ => rfl, fun hkept => ?_⟩
      rw [(hdown hover.down).resolve_right hkept, List.take_nil]
      rfl
  | ended hbefore hsplit hkept => exact ⟨fun hold => absurd hold hkept, fun _ => hsplit⟩

/-- A manager is shut down while no callback is running, and the call has come to its end.  From
then on every processor that was ever initialised has been shut down exactly once if and only if
no earlier request has been refused while it ended the life of the manager, or nothing was
initialised.  Otherwise no processor is ever shut down. -/
theorem shutDown_once_iff {p : Progress} {pre mid post : List Event} (hpre : Runs start pre s)
    (hmade : m.place < s.world.managers.length) (hquiet : s.stack = [])
    (hact : s.act (.request (.shutDown m)) = some (t, p)) (hmid : Runs t mid u)
    (hback : u.stack = []) (hpost : Runs u post v) :
    let all := pre ++ ⟨s, .request (.shutDown m), p, t⟩ :: (mid ++ post)
    ((∀ q ∈ initsOf m all, (stopsOf m all).count q = 1) ↔
        initsOf m all = [] ∨ ¬ Abandoned m pre) ∧
      (Abandoned m pre → stopsOf m all = []) := by
  intro all
  let e : Event := ⟨s, .request (.shutDown m), p, t⟩
  have htended : Tended m pre e.before := tended_of_runs hpre m
  obtain ⟨hover, hnone, habandoned, hkept⟩ :=
    over_of_quiet_shutDown htended (stage_of_runs hpre m) hmade hquiet rfl hact
  obtain ⟨hoverMid, -, hinitsMid, hstopsMid⟩ := hover.runs hmid
  obtain ⟨-, -, hinitsPost, hstopsPost⟩ := hoverMid.runs hpost
  -- whoever waited was shut down before the call came back, and nobody has followed since
  rw [hback] at hstopsMid hstopsPost
  have hlater : stopsOf m post = [] := (List.append_eq_nil_iff.1 hstopsPost).1
  have hinits : initsOf m all = initsOf m pre := by
    show initsOf m (pre ++ ([e] ++ (mid ++ post))) = _
    rw [initsOf_append, initsOf_append, initsOf_append, hinitsMid, hinitsPost]
    show initsOf m pre ++ (initsOf m ([] ++ [e]) ++ _) = _
    rw [initsOf_snoc, hnone]
    simp [initsOf]
  have hstops : stopsOf m all = stopsOf m pre ++ (e.stops m ++ toStop m t.stack) := by
    show stopsOf m (pre ++ ([e] ++ (mid ++ post))) = _
    rw [stopsOf_append, stopsOf_append, stopsOf_append, hlater, ← hstopsMid]
    simp [stopsOf, toStop]
  have hnodup : (initsOf m all).Nodup := by
    rw [hinits, htended.counted]
    exact htended.nodup.sublist (List.take_sublist _ _)
  constructor
  · constructor
    · intro hall
      by_cases hold : Abandoned m pre
      · -- nobody was shut down, so nobody was initialised
        refine Or.inl (List.eq_nil_iff_forall_not_mem.2 fun q hq => ?_)
        have hcount := hall q hq
        rw [hstops, habandoned hold, List.count_nil] at hcount
        cases hcount
      · exact Or.inr hold
    · rintro (hempty | hnew) q hq
      · rw [hempty] at hq
        cases hq
      · rw [hstops, hkept hnew, ← hinits, hnodup.count, if_pos hq]
  · intro hold
    rw [hstops, habandoned hold]

/-- A manager that is down already has nothing to do when it is shut down again. -/
theorem act_shutDown_of_down (h : s.Down m) :
    s.act (.request (.shutDown m)) = some (s.after (.shutDown m), .done) := by
  have hserved : (s.world.serve s.engaged s.told (.shutDown m)).2 = .done := by
    show (s.world.shutDown m (s.engaged m)).2 = .done
    have hover : (s.world.manager m).lifecycle = .shutDown := h
    simp [World.shutDown, hover]
  rw [act_eq_after s rfl, hserved]

theorem not_abandoned (h : ∀ e ∈ events, e.action.stops? ≠ some m) : ¬ Abandoned m events := by
  rintro ⟨earlier, e, later, rfl, hrefused, -⟩
  refine h e (by simp) ?_
  rw [hrefused.1]
  rfl

end Session

end EntityStore

namespace EntityStore.Session

attribute [local instance] Host.plain

/-- Actions that make a manager with one processor and initialise it. -/
def oneProcessor : List Action :=
  [.request (.makeManager .default), .request (.registerProcessor ⟨0⟩ ⟨"P", .custom⟩),
    .request (.initialise ⟨0⟩), .finish (.ok ())]

/-- A processor asks in its update for the shut-down of its manager, which is refused.  A later
request is granted, and the processor is never shut down. -/
theorem kept_after_refused_shutDown :
    let pre := (start.follow (oneProcessor ++ [.request (.update ⟨0⟩ Time.start),
      .request (.shutDown ⟨0⟩), .finish (.ok ())])).1
    let s := (start.follow (oneProcessor ++ [.request (.update ⟨0⟩ Time.start),
      .request (.shutDown ⟨0⟩), .finish (.ok ())])).2
    let t := s.after (.shutDown ⟨0⟩)
    let all := pre ++ [⟨s, .request (.shutDown ⟨0⟩), .done, t⟩]
    Runs start pre s ∧ 0 < s.world.managers.length ∧ s.stack = [] ∧
      s.act (.request (.shutDown ⟨0⟩)) = some (t, .done) ∧ t.stack = [] ∧
      initsOf ⟨0⟩ all = [⟨0⟩] ∧ (stopsOf ⟨0⟩ all).count ⟨0⟩ = 0 := by
  intro pre s t all
  have hdown : s.Down ⟨0⟩ := by decide +kernel
  refine ⟨runs_follow start _, by decide +kernel, List.isEmpty_iff.1 (by decide +kernel),
    act_shutDown_of_down hdown, List.isEmpty_iff.1 (by decide +kernel), ?_, ?_⟩
  · decide +kernel
  · decide +kernel

/-- A processor that was initialised is shut down once when nothing was refused. -/
theorem shutDown_once_of_one_processor :
    let pre := (start.follow oneProcessor).1
    let s := (start.follow oneProcessor).2
    let t := s.after (.shutDown ⟨0⟩)
    let p := (s.world.serve s.engaged s.told (.shutDown ⟨0⟩)).2
    let mid := (t.follow [.finish (.ok ())]).1
    initsOf ⟨0⟩ pre = [⟨0⟩] ∧
      (stopsOf ⟨0⟩ (pre ++ ⟨s, .request (.shutDown ⟨0⟩), p, t⟩ :: (mid ++ []))).count ⟨0⟩ = 1 := by
  intro pre s t p mid
  have hpre : Runs start pre s := runs_follow start _
  have hact := s.act_eq_after (rfl : (Request.shutDown ⟨0⟩).exclusive? = none)
  have hmid : Runs t mid (t.follow [.finish (.ok ())]).2 := runs_follow t _
  have hnew : ¬ Abandoned ⟨0⟩ pre := not_abandoned (by decide +kernel)
  have honce := (shutDown_once_iff hpre (by decide +kernel : 0 < s.world.managers.length)
    (List.isEmpty_iff.1 (by decide +kernel)) hact hmid (List.isEmpty_iff.1 (by decide +kernel))
    Runs.refl).1.2 (Or.inr hnew) ⟨0⟩ (by decide +kernel)
  exact ⟨by decide +kernel, honce⟩

end EntityStore.Session

namespace EntityStore.Session

variable [Host] {m : ManagerId} {e : Event} {events : List Event} {s t u v : Session}

/-! ## For good -/

/-- Who completes the initialisation of a manager has initialised at least one processor. -/
theorem Event.Completes.inits_ne_nil (h : e.Completes m) : e.inits m ≠ [] := by
  obtain ⟨ha, ⟨p, rest, next, below, htop⟩, -⟩ := h
  unfold Event.inits
  rw [ha, htop]
  dsimp only
  rw [if_pos rfl]
  exact List.cons_ne_nil _ _

/-- A manager that is down stays down in an event that does not complete its initialisation. -/
theorem down_step (htended : Tended m events e.before)
    (hmade : m.place < e.before.world.managers.length) (hdown : e.before.Down m)
    (hact : e.before.act e.action = some (e.after, e.progress)) :
    e.after.Down m ↔ ¬ e.Completes m := by
  have hquiet : e.inits m = [] → e.after.world.life m = e.before.world.life m →
      (e.after.Down m ↔ ¬ e.Completes m) := by
    intro hinits hlife
    refine ⟨fun _ hcompletes => hcompletes.inits_ne_nil hinits, fun _ => ?_⟩
    rw [down_iff, hlife]
    exact hdown
  cases lifeStep_of_act htended.made hact with
  | aside hlife hinit hstop hinits => exact hquiet hinits hlife
  | made habsent => exact absurd hmade (Nat.not_lt_of_le habsent)
  | registered p hnew hlonger hsetup => exact absurd (hsetup.symm.trans hdown) nofun
  | begun next rest hsetup => exact absurd (hsetup.symm.trans hdown) nofun
  | resumed p waiting rest next below haction hstack hsplit houtcome =>
      have htop : (e.before.world.life m).processors.drop (e.before.world.life m).initialised =
          p :: waiting := (htended.top hstack).1
      -- the initialisation is complete when none of those that waited is left
      have hlength := congrArg List.length (htop.trans hsplit)
      rw [List.length_drop, List.length_append] at hlength
      have hwithin := htended.within
      have hcomplete : e.Completes m ↔ rest = [] := by
        rw [← List.length_eq_zero_iff]
        constructor
        · rintro ⟨-, -, hall⟩
          have hnow : (e.after.world.life m).initialised =
              (e.after.world.life m).processors.length := hall
          rw [houtcome.processors, houtcome.initialised] at hnow
          omega
        · intro hnone
          refine ⟨haction, ⟨p, waiting, next, below, hstack⟩, ?_⟩
          show (e.after.world.life m).initialised = (e.after.world.life m).processors.length
          rw [houtcome.processors, houtcome.initialised]
          omega
      rw [hcomplete, down_iff]
      rcases houtcome.lifecycle with ⟨hrunning, hrest⟩ | ⟨hsame, hrest⟩
      · rw [hrunning]
        exact ⟨nofun, fun hne => absurd hrest hne⟩
      · rw [hsame]
        exact ⟨fun _ => hrest, fun _ => hdown⟩
  | failed p waiting next below message haction hstack hlife hafter hinits =>
      exact hquiet hinits hlife
  | refused hopen => exact absurd hdown hopen
  | stopping hopen => exact absurd hdown hopen
  | stopped p waiting failure below hstack hlife hsplit hpushed hafter hinits =>
      exact hquiet hinits hlife

/-- While a manager is down it refuses what needs it open. -/
theorem refused_of_down {r : Request} (hr : r.needsOpen? = some m) (hdown : e.before.Down m)
    (ha : e.action = .request r) (hact : e.before.act e.action = some (e.after, e.progress)) :
    e.after = e.before ∧ e.progress = .refuses .shutDown := by
  rw [ha] at hact
  obtain ⟨-, hafter, hprogress⟩ := act_request hact
  have hover : (e.before.world.manager m).lifecycle = .shutDown := hdown
  have hserved : e.before.world.serve e.before.engaged e.before.told r =
      (e.before.world, .refuses .shutDown) := by
    cases r with
    | initialise n =>
        cases hr
        simp [World.serve, World.initialise, hover]
    | update n time =>
        cases hr
        simp [World.serve, World.update, hover]
    | create n kinds =>
        cases hr
        simp [World.serve, World.create, World.answer, hover]
    | _ => cases hr
  rw [hserved] at hafter hprogress
  refine ⟨?_, hprogress⟩
  rw [hafter, hprogress]
  rfl

/-- A manager is down.  It stays so if and only if no initialisation that is under way comes to its
end, which cannot happen when none is under way; and as long as it stays so, it refuses to be
initialised, to be updated and to make entities, without any change. -/
theorem down_for_good_iff {pre : List Event} (hpre : Runs start pre s)
    (hmade : m.place < s.world.managers.length) (hdown : s.Down m) (h : Runs s events t) :
    ((∀ e ∈ events, e.after.Down m) ↔ ∀ e ∈ events, ¬ e.Completes m) ∧
      (toInit m s.stack = [] → ∀ e ∈ events, ¬ e.Completes m) ∧
      ((∀ e ∈ events, ¬ e.Completes m) → ∀ e ∈ events, ∀ r, r.needsOpen? = some m →
        e.action = .request r → e.after = e.before ∧ e.progress = .refuses .shutDown) := by
  have hstep : ∀ e ∈ events, e.before.Down m → (e.after.Down m ↔ ¬ e.Completes m) := by
    intro e he hbefore
    obtain ⟨earlier, later, rfl⟩ := List.append_of_mem he
    obtain ⟨hearlier, hact⟩ := h.split
    exact down_step (tended_of_runs (hpre.trans hearlier) m)
      (Nat.lt_of_lt_of_le hmade hearlier.grows.managers) hbefore hact
  have hkeep : (∀ e ∈ events, ¬ e.Completes m) →
      t.Down m ∧ ∀ e ∈ events, e.before.Down m ∧ e.after.Down m := fun hnever =>
    h.preserves hdown fun e he hbefore => (hstep e he hbefore).2 (hnever e he)
  have hiff : (∀ e ∈ events, e.after.Down m) ↔ ∀ e ∈ events, ¬ e.Completes m := by
    constructor
    · intro hall e he
      have hbefore : e.before.Down m :=
        ((h.preserves hdown fun e he _ => hall e he).2 e he).1
      exact (hstep e he hbefore).1 (hall e he)
    · exact fun hnever e he => ((hkeep hnever).2 e he).2
  refine ⟨hiff, fun hfree => ?_, fun hnever e he r hr ha => ?_⟩
  · exact hiff.1 (Over.runs ⟨hmade, hdown, hfree⟩ h).2.1
  · exact refused_of_down hr ((hkeep hnever).2 e he).1 ha (h.act_of_mem he)

end EntityStore.Session

namespace EntityStore.Session

attribute [local instance] Host.plain

/-- A processor asks in its initialisation for the shut-down of its manager.  The manager is down
until the callback returns, and then it is open again and makes entities. -/
theorem opened_by_initialisation :
    let actions : List Action := oneProcessor.take 3 ++ [.request (.shutDown ⟨0⟩)]
    let s := (start.follow actions).2
    let t := (s.follow [.finish (.ok ())]).2
    Runs start (start.follow actions).1 s ∧ 0 < s.world.managers.length ∧ s.Down ⟨0⟩ ∧
      Runs s (s.follow [.finish (.ok ())]).1 t ∧ ¬ t.Down ⟨0⟩ ∧
      (t.world.create ⟨0⟩ []).2.isOk = true := by
  intro actions s t
  refine ⟨runs_follow start _, ?_, ?_, runs_follow s _, ?_, ?_⟩
  · decide +kernel
  · decide +kernel
  · decide +kernel
  · decide +kernel

/-- A manager whose shut-down is asked for in an update stays down. -/
theorem down_for_good_of_update :
    let actions := oneProcessor ++ [.request (.update ⟨0⟩ Time.start), .request (.shutDown ⟨0⟩)]
    let s := (start.follow actions).2
    let events := (s.follow [.finish (.ok ()), .request (.initialise ⟨0⟩)]).1
    events.length = 2 ∧ ∀ e ∈ events, e.after.Down ⟨0⟩ := by
  intro actions s events
  have hstays := down_for_good_iff (runs_follow start actions)
    (by decide +kernel : (⟨0⟩ : ManagerId).place < s.world.managers.length)
    (by decide +kernel) (runs_follow s [.finish (.ok ()), .request (.initialise ⟨0⟩)])
  exact ⟨by decide +kernel, hstays.1.2 (hstays.2.1 (by decide +kernel))⟩

end EntityStore.Session
