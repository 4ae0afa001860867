import EntityStore.Proofs.Session.Exclusion
import EntityStore.Proofs.World.Visitors

/-!
# Rounds of a visitor

In each tick a visitor goes through its stages: the callback before the visits, one visit after the
other, and the callback after them.  A `Round` is one such tick, whoever asked for it, together with
the callbacks that wait for it to end.

* `Round.turn_eq`: when the turn of a visitor comes, its first stage begins, or the tick goes on.
* `round_step`: a stage stays, or it fails, or it ends well and what follows is entered.
* `enters_some`, `enters_none`: what an event comes to that enters a stage or leaves the round.
* `turn_or_return`, `turn_of_lasts`: no stage of a round begins in any other way, and every round
  begins when the turn of its visitor has come.
-/

namespace EntityStore

variable [Host]

/-- One tick of a visitor. -/
structure Round where
  /-- The manager that is handed to the callbacks. -/
  manager : ManagerId
  /-- The visitor. -/
  processor : ProcessorId
  /-- The time that is handed to them. -/
  time : Time
  /-- For whom the visitor runs. -/
  errand : Errand
  /-- The callbacks that wait for the round to end. -/
  base : List Frame

/-- The entity that is visited in a stage. -/
def VisitStage.visited? : VisitStage → Option EntityId
  | each e _ => some e
  | _ => none

namespace Round

open World

variable {w : World} {visitor : Visitor} {g : GroupRef} {stage : VisitStage} (r : Round)

/-- The callback of a stage. -/
def frame (stage : VisitStage) : Frame := .visiting r.manager r.processor r.time stage r.errand

/-- The turn of the visitor has come. -/
def turn (w : World) : World × Progress :=
  match r.errand with
  | .tick rest => w.runUpdates r.manager r.time (r.processor :: rest)
  | .alone => w.updateAlone r.processor r.manager r.time

/-- The visitor is done. -/
def leave (w : World) : World × Progress :=
  match r.errand with
  | .tick rest => w.runUpdates r.manager r.time rest
  | .alone => (w, .done)

/-- A callback of the visitor has failed. -/
def failure (w : World) (message : String) : Progress :=
  match r.errand with
  | .tick _ => .refuses (.processor (w.processor r.processor).name message)
  | .alone => .replies (.error (.callback message))

/-- A stage begins, or there is none left. -/
def enter (w : World) : Option VisitStage → World × Progress
  | some stage => (w, .calls (r.frame stage))
  | none => r.leave w

theorem turn_eq (h : w.Visits r.processor visitor g) :
    r.turn w = r.enter w (w.firstStage? visitor g) := by
  obtain ⟨hbody, hgroup⟩ := h
  obtain ⟨m, p, time, errand, base⟩ := r
  dsimp only at hbody
  cases errand with
  | tick rest =>
      show w.runUpdates m time (p :: rest) = _
      rw [runUpdates]
      simp only [hbody, hgroup]
      cases w.firstStage? visitor g <;> rfl
  | alone =>
      show w.updateAlone p m time = _
      unfold updateAlone
      simp only [hbody, hgroup]
      cases w.firstStage? visitor g <;> rfl

theorem resume_error (w : World) (stage : VisitStage) (message : String) :
    w.resume (.error message) (r.frame stage) = (w, r.failure w message) := by
  obtain ⟨m, p, time, errand, base⟩ := r
  cases errand <;> rfl

theorem resume_ok (w : World) (stage : VisitStage) :
    w.resume (.ok ()) (r.frame stage) = r.enter w (w.followingStage? r.processor stage) := by
  obtain ⟨m, p, time, errand, base⟩ := r
  show w.afterVisit m p time stage errand (.ok ()) = _
  unfold afterVisit
  dsimp only
  cases w.followingStage? p stage with
  | some next => rfl
  | none => cases errand <;> rfl

end Round

namespace World

variable {w : World} {m n : ManagerId} {p : ProcessorId} {visitor : Visitor} {g : GroupRef}
  {time t : Time} {stage : VisitStage} {errand : Errand}

theorem followingStage?_eq (h : w.Visits p visitor g) (stage : VisitStage) :
    w.followingStage? p stage = w.nextStage? visitor g stage := by
  unfold followingStage?
  simp only [h.1, h.2]

/-- Nothing follows the callback after the visits. -/
theorem followingStage?_after (w : World) (p : ProcessorId) : w.followingStage? p .after = none := by
  unfold followingStage?
  split
  · rfl
  · split <;> rfl

/-- A visitor that is called back in a tick is one of those to be updated, and its turn has come. -/
theorem visiting_of_runUpdates {processors : List ProcessorId}
    (h : (w.runUpdates m time processors).2 = .calls (.visiting n p t stage errand)) :
    n = m ∧ t = time ∧ ∃ rest, errand = .tick rest ∧ p :: rest <:+ processors ∧
      w.runUpdates m time processors = w.runUpdates m time (p :: rest) := by
  induction processors with
  | nil =>
      rcases flush_progress (w.removeAllDue m) m
        (List.range ((w.removeAllDue m).manager m).groups.length) with
          hdone | ⟨number, notice, rest, groups, hcalls⟩
      · cases h.symm.trans hdone
      · cases h.symm.trans hcalls
  | cons q rest ih =>
      cases hbody : (w.processor q).body with
      | custom =>
          simp only [runUpdates, hbody] at h
          cases h
      | visitor other =>
          cases hgroup : other.group with
          | none =>
              simp only [runUpdates, hbody, hgroup] at h
              cases h
          | some k =>
              cases hfirst : w.firstStage? other k with
              | some first =>
                  simp only [runUpdates, hbody, hgroup, hfirst] at h
                  cases h
                  exact ⟨rfl, rfl, rest, rfl, List.suffix_rfl, rfl⟩
              | none =>
                  -- the visitor has nothing to do, and the turn of the next one has come
                  have hskip : w.runUpdates m time (q :: rest) = w.runUpdates m time rest := by
                    rw [runUpdates]
                    simp only [hbody, hgroup, hfirst]
                  rw [hskip] at h ⊢
                  obtain ⟨hn, ht, others, herrand, hsuffix, hsame⟩ := ih h
                  exact ⟨hn, ht, others, herrand, hsuffix.trans (List.suffix_cons q rest), hsame⟩

end World

/-- A round that is left does not go on. -/
theorem Round.not_frame_of_leave (r : Round) (w : World) (stage : VisitStage) :
    (r.leave w).2 ≠ .calls (r.frame stage) := by
  obtain ⟨m, p, time, errand, base⟩ := r
  cases errand with
  | alone => exact nofun
  | tick rest =>
      intro hcalls
      obtain ⟨-, -, others, herrand, hsuffix, -⟩ := World.visiting_of_runUpdates hcalls
      obtain rfl := Errand.tick.inj herrand
      have hlength := hsuffix.length_le
      rw [List.length_cons] at hlength
      omega

/-! ## How a round begins -/

/-- Is a visitor called back? -/
def Frame.isVisit : Frame → Bool
  | visiting _ _ _ _ _ => true
  | _ => false

namespace World

variable {r : Round} {result : World × Progress}

/-- If a stage of a round begins, the turn of the visitor has come. -/
def Turns (r : Round) (result : World × Progress) : Prop :=
  ∀ stage, result.2 = .calls (r.frame stage) → ∃ w, result = r.turn w

theorem turns_of_other (h : ∀ frame ∈ result.2.pushed, frame.isVisit = false) : Turns r result := by
  intro stage hcalls
  rw [hcalls] at h
  cases h _ (List.mem_singleton.2 rfl)

theorem turns_of_answer (h : result.2.pushed = []) : Turns r result :=
  turns_of_other (Progress.forall_pushed_of_nil h)

theorem turns_runUpdates (w : World) (m : ManagerId) (time : Time) (processors : List ProcessorId) :
    Turns r (w.runUpdates m time processors) := by
  intro stage hcalls
  obtain ⟨n, p, t, errand, base⟩ := r
  obtain ⟨rfl, rfl, rest, rfl, -, hsame⟩ := visiting_of_runUpdates hcalls
  exact ⟨w, hsame⟩

theorem turns_runInits (w : World) (m : ManagerId) (next : Option Time)
    (processors : List ProcessorId) : Turns r (w.runInits m next processors) := by
  obtain ⟨u, -, ⟨time, -, h⟩ | ⟨-, h⟩ | ⟨p, rest, h⟩ | ⟨cause, h⟩⟩ := w.runInits_cases m next processors
  · rw [h]
    exact turns_runUpdates u m time _
  · rw [h]
    exact turns_of_answer rfl
  · rw [h]
    exact turns_of_other (Progress.forall_pushed_calls rfl)
  · rw [h]
    exact turns_of_answer rfl

theorem turns_of_tended {m : ManagerId}
    (h : ∀ frame ∈ result.2.pushed, frame.tended? = some m) : Turns r result := by
  refine turns_of_other fun frame hframe => ?_
  have htended := h frame hframe
  cases frame with
  | visiting n p time stage errand => cases htended
  | _ => rfl

theorem turns_flush (w : World) (m : ManagerId) (numbers : List Nat) :
    Turns r (w.flush m numbers) := by
  refine turns_of_other fun frame hframe => ?_
  obtain ⟨number, notice, rest, groups, rfl⟩ := flush_pushed w m numbers frame hframe
  rfl

theorem turns_of_aside (h : ∀ frame ∈ result.2.pushed, frame.isAside = true) : Turns r result := by
  refine turns_of_other fun frame hframe => ?_
  have haside := h frame hframe
  cases frame with
  | visiting n p time stage errand => cases haside
  | _ => rfl

theorem turns_updateAlone (w : World) (p : ProcessorId) (m : ManagerId) (time : Time) :
    Turns r (w.updateAlone p m time) := by
  intro stage hcalls
  obtain ⟨n, q, t, errand, base⟩ := r
  refine ⟨w, ?_⟩
  have hround : n = m ∧ q = p ∧ t = time ∧ errand = .alone := by
    unfold updateAlone at hcalls
    split at hcalls
    · cases hcalls
    · split at hcalls
      · cases hcalls
      · split at hcalls
        · cases hcalls
          exact ⟨rfl, rfl, rfl, rfl⟩
        · cases hcalls
  obtain ⟨rfl, rfl, rfl, rfl⟩ := hround
  rfl

theorem turns_phase (w : World) (engaged : ManagerId → Bool) (told : ObserverId → Bool)
    {q : Request} {m : ManagerId} (hq : q.begins? = some m) : Turns r (w.serve engaged told q) := by
  rcases begins_cases w engaged told hq with ⟨-, -, next, h⟩ | ⟨-, ⟨time, h⟩ | ⟨reply, h⟩⟩
  · rw [h]
    exact turns_runInits w m next _
  · rw [h]
    exact turns_runUpdates w m time _
  · rw [h]
    exact turns_of_answer rfl

theorem turns_serve (w : World) (engaged : ManagerId → Bool) (told : ObserverId → Bool)
    (q : Request) : Turns r (w.serve engaged told q) := by
  by_cases halone : ∃ p m time, q = .updateAlone p m time
  · obtain ⟨p, m, time, rfl⟩ := halone
    exact turns_updateAlone w p m time
  · cases hphase : q.isPhase with
    | false =>
        refine turns_of_aside (w.aside_serve engaged told hphase ?_)
        exact fun p m time hq => halone ⟨p, m, time, hq⟩
    | true =>
        cases q with
        | initialise m => exact turns_phase w engaged told rfl
        | update m time => exact turns_phase w engaged told rfl
        | shutDown m => exact turns_of_tended (tended_shutDown w m (engaged m))
        | _ => cases hphase

theorem turns_resume (w : World) (outcome : Outcome) (frame : Frame) :
    Turns r (w.resume outcome frame) ∨ outcome = .ok () ∧ ∃ stage, frame = r.frame stage := by
  have hresumed := w.resumed outcome frame
  generalize w.resume outcome frame = result at hresumed ⊢
  cases hresumed with
  | answers reply => exact Or.inl (turns_of_answer rfl)
  | inits m p rest next => exact Or.inl (turns_runInits (w.countInit m) m next rest)
  | updates m p time rest => exact Or.inl (turns_runUpdates w m time rest)
  | visits m p time stage next errand =>
      -- the next stage begins, of this round or of another one
      by_cases hround : ∃ other, Frame.visiting m p time next errand = r.frame other
      · obtain ⟨other, hother⟩ := hround
        cases hother
        exact Or.inr ⟨rfl, stage, rfl⟩
      · exact Or.inl fun other hcalls => absurd ⟨other, Progress.calls.inj hcalls⟩ hround
  | leaves m p time stage rest => exact Or.inl (turns_runUpdates w m time rest)
  | stops m p rest failure cause =>
      exact Or.inl (turns_of_tended (tended_runStops w m cause rest))
  | notifies g notice following rest groups =>
      exact Or.inl (turns_of_other (Progress.forall_pushed_calls rfl))
  | flushes g notice groups => exact Or.inl (turns_flush w g.manager groups)
  | walks k e rest => exact Or.inl (turns_of_aside (w.aside_walkFrom k rest))

end World

/-- One of the callbacks of a round is running. -/
def Round.Lasts (r : Round) (s : Session) : Prop :=
  ∃ above stage, s.stack = above ++ r.frame stage :: r.base

theorem Round.Lasts.length_lt {r : Round} {s : Session} (h : r.Lasts s) :
    r.base.length < s.stack.length := by
  obtain ⟨above, stage, hstack⟩ := h
  rw [hstack, List.length_append, List.length_cons]
  omega

/-- The stage of a round to which a callback belongs. -/
def Frame.stageIn? (r : Round) : Frame → Option VisitStage
  | visiting m p time stage errand =>
    if m = r.manager ∧ p = r.processor ∧ time = r.time ∧ errand = r.errand then some stage else none
  | _ => none

theorem Frame.stageIn?_eq_some {r : Round} {frame : Frame} {stage : VisitStage} :
    frame.stageIn? r = some stage ↔ frame = r.frame stage := by
  constructor
  · intro h
    cases frame with
    | visiting m p time other errand =>
        simp only [Frame.stageIn?] at h
        split at h
        · rename_i hround
          obtain ⟨rfl, rfl, rfl, rfl⟩ := hround
          cases h
          rfl
        · cases h
    | _ => cases h
  · rintro rfl
    exact if_pos ⟨rfl, rfl, rfl, rfl⟩

theorem Round.frame_inj {r : Round} {stage other : VisitStage} (h : r.frame stage = r.frame other) :
    stage = other := by
  cases h
  rfl

/-- The outermost callback is one of a round for which nothing waits. -/
theorem Round.lasts_of_outermost {r : Round} {s : Session} (hbase : r.base = [])
    (h : (s.stack.getLast?.bind (Frame.stageIn? r)).isSome = true) : r.Lasts s := by
  obtain ⟨stage, hstage⟩ := Option.isSome_iff_exists.1 h
  obtain ⟨frame, hlast, hframe⟩ := Option.bind_eq_some_iff.1 hstage
  obtain ⟨above, hstack⟩ := List.getLast?_eq_some_iff.1 hlast
  refine ⟨above, stage, ?_⟩
  rw [hstack, hbase, Frame.stageIn?_eq_some.1 hframe]

namespace Session

variable {e : Event} {events : List Event} {s : Session} {r : Round} {w : World} {visitor : Visitor}
  {g : GroupRef} {stage : VisitStage}

/-! ## Stages -/

/-- The stage of a round that begins in an event. -/
def Event.stage? (e : Event) (r : Round) : Option VisitStage :=
  match e.progress with
  | .calls frame =>
    if e.after.stack.length = r.base.length + 1 then frame.stageIn? r else none
  | .replies _ => none

/-- The stages of a round that begin in some events, in order. -/
def stages (r : Round) (events : List Event) : List VisitStage := events.filterMap fun e => e.stage? r

/-- The entities that are visited in a round in some events, in order. -/
def visits (r : Round) (events : List Event) : List EntityId :=
  (stages r events).filterMap VisitStage.visited?

/-- The turn of the visitor comes in an event. -/
def Event.TurnsTo (e : Event) (r : Round) (w : World) : Prop :=
  (e.after, e.progress) = proceed r.base (r.turn w)

/-- The callback of a stage ends well in an event. -/
def Event.Returns (e : Event) (r : Round) (stage : VisitStage) : Prop :=
  e.before.stack = r.frame stage :: r.base ∧ e.action = .finish (.ok ())

/-- It ends with a failure. -/
def Event.Fails (e : Event) (r : Round) (stage : VisitStage) (message : String) : Prop :=
  e.before.stack = r.frame stage :: r.base ∧ e.action = .finish (.error message)

theorem stage?_eq_some : e.stage? r = some stage ↔
    e.progress = .calls (r.frame stage) ∧ e.after.stack.length = r.base.length + 1 := by
  unfold Event.stage?
  cases e.progress with
  | replies reply => exact iff_of_false nofun fun h => absurd h.1 nofun
  | calls frame =>
      dsimp only
      rw [Progress.calls.injEq, ← Frame.stageIn?_eq_some]
      split
      · rename_i hlength
        exact (and_iff_left hlength).symm
      · rename_i hlength
        exact iff_of_false nofun fun h => hlength h.2

/-- Where a stage of the round stays on the stack, no other one begins. -/
theorem stage?_of_stays {more : List Frame}
    (h : e.after.stack = e.progress.pushed ++ more ++ r.frame stage :: r.base) :
    e.stage? r = none := by
  refine Option.eq_none_iff_forall_ne_some.2 fun other hother => ?_
  obtain ⟨hprogress, hlength⟩ := stage?_eq_some.1 hother
  rw [h, hprogress] at hlength
  simp [Progress.pushed] at hlength
  omega

theorem stages_snoc (r : Round) (events : List Event) (e : Event) :
    stages r (events ++ [e]) = stages r events ++ (e.stage? r).toList := by
  unfold stages
  rw [List.filterMap_append]
  cases h : e.stage? r <;> simp [h]

theorem visits_snoc (r : Round) (events : List Event) (e : Event) :
    visits r (events ++ [e]) =
      visits r events ++ ((e.stage? r).bind VisitStage.visited?).toList := by
  unfold visits
  rw [stages_snoc, List.filterMap_append]
  cases e.stage? r with
  | none => rfl
  | some stage => cases h : stage.visited? <;> simp [h]

theorem Event.Returns.not_fails {other : VisitStage} {message : String} (h : e.Returns r stage) :
    ¬ e.Fails r other message := by
  intro hfails
  cases h.2.symm.trans hfails.2

/-! ## One step of a round -/

/-- What an event does to a round that lasts. -/
inductive RoundStep (r : Round) (stage : VisitStage) (e : Event) : Prop where
  /-- The stage lasts.  If its callback is the innermost one, it has made a request. -/
  | stays (above : List Frame) (hstack : e.after.stack = above ++ r.frame stage :: r.base)
      (hnone : e.stage? r = none) (hreturns : ∀ other, ¬ e.Returns r other)
      (hrequest : e.before.stack = r.frame stage :: r.base → ∃ q, e.action = .request q)
  /-- It ends with a failure, and the round with it. -/
  | fails (message : String) (hfails : e.Fails r stage message)
      (hafter : e.after = ⟨e.before.world, r.base⟩)
      (hprogress : e.progress = r.failure e.before.world message)
  /-- It ends well, and what follows is entered. -/
  | returns (hreturns : e.Returns r stage)
      (hnext : (e.after, e.progress) = proceed r.base
        (r.enter e.before.world (e.before.world.followingStage? r.processor stage)))

theorem pushed_failure (r : Round) (w : World) (message : String) :
    (r.failure w message).pushed = [] := by
  unfold Round.failure
  split <;> rfl

theorem round_step {above : List Frame}
    (hact : e.before.act e.action = some (e.after, e.progress))
    (hstack : e.before.stack = above ++ r.frame stage :: r.base) : RoundStep r stage e := by
  rcases stays_or_returns hact hstack with
    ⟨more, hmore, hrequest⟩ | ⟨outcome, haction, htop, hafter, hresult⟩
  · refine .stays _ hmore (stage?_of_stays hmore) (fun other hreturns => ?_) (fun htop => ?_)
    · -- a stage that returns is the innermost callback, and then code outside makes no request
      have hshort := hreturns.1
      rw [hstack] at hshort
      have hlength := congrArg List.length hshort
      simp only [List.length_append, List.length_cons] at hlength
      obtain ⟨q, hq⟩ := hrequest (List.eq_nil_of_length_eq_zero (by omega))
      cases hreturns.2.symm.trans hq
    · rw [hstack] at htop
      have hlength := congrArg List.length htop
      simp only [List.length_append, List.length_cons] at hlength
      exact hrequest (List.eq_nil_of_length_eq_zero (by omega))
  · cases outcome with
    | error message =>
        rw [r.resume_error] at hresult
        obtain ⟨hworld, hprogress⟩ := Prod.mk.inj hresult
        refine .fails message ⟨htop, haction⟩ ?_ hprogress
        rw [hprogress, pushed_failure] at hafter
        rw [← hworld, ← List.nil_append r.base, ← hafter]
    | ok done =>
        rw [r.resume_ok] at hresult
        refine .returns ⟨htop, haction⟩ ?_
        rw [proceed_eq, ← hresult, ← hafter]

/-- An event that enters a stage. -/
theorem enters_some (h : (e.after, e.progress) = proceed r.base (r.enter w (some stage))) :
    e.after = ⟨w, r.frame stage :: r.base⟩ ∧ e.stage? r = some stage := by
  obtain ⟨hafter, hprogress⟩ := Prod.mk.inj h
  refine ⟨hafter, stage?_eq_some.2 ⟨hprogress, ?_⟩⟩
  rw [hafter]
  rfl

/-- An event that leaves the round. -/
theorem enters_none (h : (e.after, e.progress) = proceed r.base (r.enter w none)) :
    e.stage? r = none ∧ ¬ r.Lasts e.after := by
  rw [proceed_eq] at h
  obtain ⟨hafter, hprogress⟩ := Prod.mk.inj h
  refine ⟨Option.eq_none_iff_forall_ne_some.2 fun stage hstage => ?_, ?_⟩
  · exact r.not_frame_of_leave w stage (hprogress.symm.trans (stage?_eq_some.1 hstage).1)
  · rintro ⟨above, stage, hstack⟩
    rw [hafter] at hstack
    cases hleave : (r.leave w).2 with
    | replies reply =>
        have hlength := congrArg List.length hstack
        simp only [Round.enter, hleave, Progress.pushed, List.length_append, List.length_nil,
          List.length_cons] at hlength
        omega
    | calls frame =>
        simp only [Round.enter, hleave, Progress.pushed, List.singleton_append] at hstack
        have hlength := congrArg List.length hstack
        simp only [List.length_append, List.length_cons] at hlength
        obtain rfl : above = [] := List.eq_nil_of_length_eq_zero (by omega)
        obtain ⟨rfl, -⟩ := List.cons.inj hstack
        exact r.not_frame_of_leave w stage hleave

/-- A stage of a round begins when the turn of the visitor has come, or when the stage before it has
ended well. -/
theorem turn_or_return (hact : e.before.act e.action = some (e.after, e.progress))
    (hbegins : e.progress = .calls (r.frame stage)) (hstack : e.after.stack = r.frame stage :: r.base) :
    (∃ w, e.TurnsTo r w) ∨ ∃ previous, e.Returns r previous := by
  have hturn : ∀ {result : World × Progress} {stack}, World.Turns r result →
      e.after = ⟨result.1, e.progress.pushed ++ stack⟩ → e.progress = result.2 →
        ∃ w, e.TurnsTo r w := by
    intro result stack hturns hafter hprogress
    obtain ⟨w, hw⟩ := hturns stage (hprogress.symm.trans hbegins)
    refine ⟨w, ?_⟩
    have hbase : stack = r.base := by
      rw [hafter, hbegins] at hstack
      exact (List.cons.inj hstack).2
    unfold Event.TurnsTo
    rw [proceed_eq, ← hw, ← hprogress, ← hbase, ← hafter]
  cases haction : e.action with
  | request q =>
      rw [haction] at hact
      obtain ⟨-, hafter, hprogress⟩ := act_request hact
      exact Or.inl (hturn (World.turns_serve _ _ _ q) hafter hprogress)
  | finish outcome =>
      rw [haction] at hact
      obtain ⟨frame, stack, htop, hafter, hprogress⟩ := act_finish hact
      rcases World.turns_resume (r := r) e.before.world outcome frame with
        hturns | ⟨rfl, previous, rfl⟩
      · exact Or.inl (hturn hturns hafter hprogress)
      · refine Or.inr ⟨previous, ?_, haction⟩
        rw [hafter, hbegins] at hstack
        obtain ⟨-, hbase⟩ := List.cons.inj hstack
        rw [htop, ← hbase]
        rfl

/-- What an event leaves on the stack was there before it. -/
theorem kept_of_act (hact : e.before.act e.action = some (e.after, e.progress)) :
    ∃ top kept, e.before.stack = top ++ kept ∧ e.after.stack = e.progress.pushed ++ kept := by
  cases haction : e.action with
  | request q =>
      rw [haction] at hact
      obtain ⟨-, hafter, -⟩ := act_request hact
      exact ⟨[], e.before.stack, rfl, by rw [hafter]⟩
  | finish outcome =>
      rw [haction] at hact
      obtain ⟨frame, stack, htop, hafter, -⟩ := act_finish hact
      exact ⟨[frame], stack, htop, by rw [hafter]⟩

/-- Whenever a callback of a round is running, the turn of the visitor has come, and the round has
lasted ever since. -/
theorem turn_of_lasts (h : Runs start events s) (hlasts : r.Lasts s) :
    ∃ earlier b round w, events = earlier ++ b :: round ∧ b.TurnsTo r w ∧
      ∀ e ∈ round, r.Lasts e.before := by
  induction h with
  | refl =>
      obtain ⟨above, stage, hstack⟩ := hlasts
      cases above <;> cases hstack
  | @step events t u hruns a p hact ih =>
      let e : Event := ⟨t, a, p, u⟩
      have hgoes_on : r.Lasts t → ∃ earlier b round w, events ++ [e] = earlier ++ b :: round ∧
          b.TurnsTo r w ∧ ∀ e ∈ round, r.Lasts e.before := by
        intro hbefore
        obtain ⟨earlier, b, round, w, rfl, hturn, hround⟩ := ih hbefore
        exact ⟨earlier, b, round ++ [e], w, by simp, hturn, forall_mem_snoc.2 ⟨hround, hbefore⟩⟩
      obtain ⟨above, stage, hstack⟩ := hlasts
      obtain ⟨top, kept, hbefore, hafter⟩ : ∃ top kept, t.stack = top ++ kept ∧
          u.stack = p.pushed ++ kept := kept_of_act (e := e) hact
      rw [hafter] at hstack
      -- the callback was there before the event, or it has begun in it
      have hthere : ∀ above, kept = above ++ r.frame stage :: r.base → r.Lasts t :=
        fun above hkept => ⟨top ++ above, stage, by rw [hbefore, hkept, List.append_assoc]⟩
      cases p with
      | replies reply => exact hgoes_on (hthere above hstack)
      | calls frame =>
          cases above with
          | cons first above => exact hgoes_on (hthere above (List.cons.inj hstack).2)
          | nil =>
              obtain ⟨rfl, rfl⟩ := List.cons.inj hstack
              rcases turn_or_return (e := e) hact rfl hafter with ⟨w, hturn⟩ | ⟨previous, hreturns⟩
              · exact ⟨events, e, [], w, rfl, hturn, List.forall_mem_nil _⟩
              · exact hgoes_on ⟨[], previous, hreturns.1⟩

end Session

end EntityStore
