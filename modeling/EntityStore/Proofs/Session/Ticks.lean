import EntityStore.Proofs.Session.Delivery
import EntityStore.Proofs.Session.Readying

/-!
# The end of a tick

A tick begins with a request and ends in whatever step gets past the last processor; everything that
is due happens there.

* `TickOutcome`: what a phase that is to end in a tick comes to; up to the end managers are only got
  ready.
* `host_serve`, `host_resume`: callbacks run on behalf of a manager, whose processors or listeners
  they are.  What follows a callback runs on behalf of the same manager, and a request has a callback
  run on behalf of a manager only while its processors are free.
* `Turn`, `turn_of_act`: what an event does to the entities and the groups of a manager.  Its tick
  ends, or its groups are flushed further, or it is steady.
-/

namespace EntityStore

variable [Host]

/-- The manager whose tick waits for a callback. -/
def Frame.ticks? : Frame → Option ManagerId
  | initialising m _ _ (some _) => some m
  | updating m _ _ _ => some m
  | visiting m _ _ _ (.tick _) => some m
  | _ => none

/-- The manager whose processor or listener is called back. -/
def Frame.host? : Frame → Option ManagerId
  | notifying g _ _ _ => some g.manager
  | frame => frame.engaged?

theorem Frame.host?_of_engaged {frame : Frame} {m : ManagerId} (h : frame.engaged? = some m) :
    frame.host? = some m := by
  cases frame with
  | notifying g notice rest groups => cases h
  | _ => exact h

theorem Frame.host?_of_notifies {frame : Frame} {g : GroupRef} (h : frame.notifies? = some g) :
    frame.host? = some g.manager := by
  cases frame with
  | notifying k notice rest groups =>
      obtain rfl := Option.some.inj h
      rfl
  | _ => cases h

theorem Frame.engaged?_of_ticks {frame : Frame} {m : ManagerId} (h : frame.ticks? = some m) :
    frame.engaged? = some m := by
  cases frame with
  | initialising n p rest next =>
      cases next with
      | none => cases h
      | some time => exact h
  | updating n p time rest => exact h
  | visiting n p time stage errand =>
      cases errand with
      | alone => cases h
      | tick rest => exact h
  | _ => cases h

theorem Frame.host?_of_isPlain {frame : Frame} (h : frame.isPlain = true) :
    frame.host? = none := by
  cases frame with
  | visiting m p time stage errand =>
      cases errand with
      | alone => rfl
      | tick rest => cases h
  | observing o k e change reply => rfl
  | walking k e rest => rfl
  | _ => cases h

theorem Frame.host?_of_tended {frame : Frame} {m : ManagerId} (h : frame.tended? = some m) :
    frame.host? = some m := by
  cases frame with
  | initialising n p rest next => exact h
  | stopping n p rest failure => exact h
  | _ => cases h

theorem Frame.notifies?_of_ticks {frame : Frame} {m : ManagerId} (h : frame.ticks? = some m) :
    frame.notifies? = none :=
  Frame.notifies?_of_engaged (Frame.engaged?_of_ticks h)

namespace World

variable {w v : World} {m n : ManagerId}

/-! ## Phases that end in a tick -/

/-- What a phase that is to end in a tick comes to.  Up to the end managers are only got ready. -/
inductive TickOutcome (n : ManagerId) (w : World) : World × Progress → Prop where
  /-- The tick ends. -/
  | ends (u : World) (hready : Readied w u) : TickOutcome n w (u.endTick n)
  /-- It waits for another callback. -/
  | calls (u : World) (frame : Frame) (hready : Readied w u) (hframe : frame.ticks? = some n) :
      TickOutcome n w (u, .calls frame)
  /-- It is given up. -/
  | fails (u : World) (cause : ManagerError) (hready : Readied w u) :
      TickOutcome n w (u, .refuses cause)

theorem TickOutcome.after {r : World × Progress} (hready : Readied w v) (h : TickOutcome n v r) :
    TickOutcome n w r := by
  cases h with
  | ends u hmore => exact .ends u (hready.trans hmore)
  | calls u frame hmore hframe => exact .calls u frame (hready.trans hmore) hframe
  | fails u cause hmore => exact .fails u cause (hready.trans hmore)

theorem tickOutcome_runUpdates (w : World) (n : ManagerId) (time : Time)
    (processors : List ProcessorId) : TickOutcome n w (w.runUpdates n time processors) := by
  induction processors with
  | nil => exact .ends w (.refl w)
  | cons p rest ih =>
      unfold runUpdates
      split
      · exact .calls w _ (.refl w) rfl
      · split
        · exact .fails w _ (.refl w)
        · split
          · exact .calls w _ (.refl w) rfl
          · exact ih

theorem tickOutcome_runInits (w : World) (n : ManagerId) (time : Time)
    (processors : List ProcessorId) :
    TickOutcome n w (w.runInits n (some time) processors) := by
  obtain ⟨u, hready, ⟨at', htime, h⟩ | ⟨hnone, -⟩ | ⟨p, rest, h⟩ | ⟨cause, h⟩⟩ :=
    w.runInits_cases n (some time) processors
  · rw [h]
    exact (tickOutcome_runUpdates u n at' _).after hready
  · cases hnone
  · rw [h]
    exact .calls u _ hready rfl
  · rw [h]
    exact .fails u cause hready

/-- An initialisation that no tick waits for. -/
theorem readied_runInits (w : World) (n : ManagerId) (processors : List ProcessorId) :
    Readied w (w.runInits n none processors).1 ∧
      ∀ frame ∈ (w.runInits n none processors).2.pushed, ∃ p rest,
        frame = .initialising n p rest none := by
  obtain ⟨u, hready, ⟨time, htime, -⟩ | ⟨-, h⟩ | ⟨p, rest, h⟩ | ⟨cause, h⟩⟩ :=
    w.runInits_cases n none processors
  · cases htime
  · rw [h]
    exact ⟨hready, Progress.forall_pushed_of_nil rfl⟩
  · rw [h]
    exact ⟨hready, Progress.forall_pushed_calls ⟨p, rest, rfl⟩⟩
  · rw [h]
    exact ⟨hready, Progress.forall_pushed_of_nil rfl⟩

theorem tickOutcome_update (w : World) (n : ManagerId) (time : Time) (engaged : Bool) :
    TickOutcome n w (w.update n time engaged) := by
  have hrefused : ∀ cause, TickOutcome n w (w, .refuses cause) := fun cause =>
    .fails w cause (.refl w)
  unfold update
  split
  · exact hrefused _
  · split
    · exact hrefused _
    · exact tickOutcome_runUpdates w n time _
  · split
    · exact hrefused _
    · exact tickOutcome_runInits w n time _

/-- A callback that a tick waits for returns. -/
theorem tickOutcome_resume (w : World) (outcome : Outcome) {frame : Frame}
    (h : frame.ticks? = some n) : TickOutcome n w (w.resume outcome frame) := by
  have hfailed : ∀ cause, TickOutcome n w (w, .refuses cause) := fun cause =>
    .fails w cause (.refl w)
  cases frame with
  | initialising k p rest next =>
      cases next with
      | none => cases h
      | some time =>
          obtain rfl := Option.some.inj h
          cases outcome with
          | error message => exact hfailed _
          | ok done => exact (tickOutcome_runInits _ k time rest).after (readied_countInit w k)
  | updating k p time rest =>
      obtain rfl := Option.some.inj h
      cases outcome with
      | error message => exact hfailed _
      | ok done => exact tickOutcome_runUpdates w k time rest
  | visiting k p time stage errand =>
      cases errand with
      | alone => cases h
      | tick rest =>
          obtain rfl := Option.some.inj h
          cases outcome with
          | error message => exact hfailed _
          | ok done =>
              show TickOutcome k w (w.afterVisit k p time stage (.tick rest) (.ok done))
              unfold afterVisit
              dsimp only
              split
              · exact .calls w _ (.refl w) rfl
              · rename_i halone
                cases halone
              · exact tickOutcome_runUpdates w k time _
  | _ => cases h

/-! ## On whose behalf a callback runs -/

/-- A flush is done, or a listener of the manager is called back. -/
theorem flush_progress (w : World) (n : ManagerId) (numbers : List Nat) :
    (w.flush n numbers).2 = .done ∨ ∃ number notice rest groups,
      (w.flush n numbers).2 = .calls (.notifying ⟨n, number⟩ notice rest groups) := by
  induction numbers generalizing w with
  | nil => exact Or.inl rfl
  | cons number groups ih =>
      unfold flush
      split
      · exact ih _
      · exact Or.inr ⟨number, _, _, _, rfl⟩

theorem host_flush (w : World) (n : ManagerId) (numbers : List Nat) :
    ∀ frame ∈ (w.flush n numbers).2.pushed, frame.host? = some n := by
  intro frame hframe
  obtain ⟨number, notice, rest, groups, rfl⟩ := flush_pushed w n numbers frame hframe
  rfl

theorem TickOutcome.host {r : World × Progress} (h : TickOutcome n w r) :
    ∀ frame ∈ r.2.pushed, frame.host? = some n := by
  cases h with
  | ends u hready => exact host_flush _ n _
  | calls u frame hready hframe =>
      exact Progress.forall_pushed_calls
        (Frame.host?_of_engaged (Frame.engaged?_of_ticks hframe))
  | fails u cause hready => exact Progress.forall_pushed_of_nil rfl

/-- What follows a callback runs on behalf of the same manager, or again of none. -/
theorem host_resume (w : World) (outcome : Outcome) (frame : Frame) :
    ∀ next ∈ (w.resume outcome frame).2.pushed, next.host? = frame.host? := by
  cases hticks : frame.ticks? with
  | some k =>
      rw [Frame.host?_of_engaged (Frame.engaged?_of_ticks hticks)]
      exact (tickOutcome_resume w outcome hticks).host
  | none =>
      have hresumed := w.resumed outcome frame
      generalize w.resume outcome frame = result at hresumed ⊢
      cases hresumed with
      | answers reply => exact Progress.forall_pushed_of_nil rfl
      | inits k p rest next =>
          cases next with
          | some time => cases hticks
          | none =>
              intro frame hframe
              obtain ⟨q, others, rfl⟩ := (readied_runInits _ k rest).2 frame hframe
              rfl
      | updates k p time rest => cases hticks
      | visits k p time stage next errand =>
          cases errand with
          | tick rest => cases hticks
          | alone => exact Progress.forall_pushed_calls rfl
      | leaves k p time stage rest => cases hticks
      | stops k p rest failure cause =>
          exact fun next hnext => Frame.host?_of_tended (w.tended_runStops k cause rest next hnext)
      | notifies g notice following rest groups => exact Progress.forall_pushed_calls rfl
      | flushes g notice groups => exact host_flush w g.manager groups
      | walks k e rest =>
          exact fun next hnext => Frame.host?_of_isPlain (w.plain_walkFrom k rest next hnext)

/-- A manager whose processors are in use refuses a tick, and nothing happens. -/
theorem update_of_engaged (w : World) (n : ManagerId) (time : Time) :
    w.update n time true = (w, .refuses .reentrant) ∨
      w.update n time true = (w, .refuses .shutDown) := by
  unfold update
  cases (w.manager n).lifecycle with
  | setup => exact Or.inl rfl
  | running => exact Or.inl rfl
  | shutDown => exact Or.inr rfl

/-- A request has a callback run on behalf of a manager only while its processors are free. -/
theorem host_serve (w : World) (engaged : ManagerId → Bool) (told : ObserverId → Bool)
    (r : Request) : ∀ frame ∈ (w.serve engaged told r).2.pushed,
      frame.host? = none ∨ ∃ n, frame.host? = some n ∧ engaged n = false := by
  have hfree : ∀ {n : ManagerId} {p : Progress}, engaged n = false →
      (∀ frame ∈ p.pushed, frame.host? = some n) →
        ∀ frame ∈ p.pushed, frame.host? = none ∨ ∃ n, frame.host? = some n ∧ engaged n = false :=
    fun {n} {_} hn hp frame hframe => Or.inr ⟨n, hp frame hframe, hn⟩
  have hidle : ∀ {p : Progress}, p.pushed = [] →
      ∀ frame ∈ p.pushed, frame.host? = none ∨ ∃ n, frame.host? = some n ∧ engaged n = false :=
    fun hp => Progress.forall_pushed_of_nil hp
  cases hphase : r.isPhase with
  | false =>
      intro frame hframe
      exact Or.inl (Frame.host?_of_isPlain (plain_serve w engaged told hphase frame hframe))
  | true =>
      cases r with
      | initialise n =>
          show ∀ frame ∈ (w.initialise n (engaged n)).2.pushed, _
          rcases w.initialise_cases n (engaged n) with ⟨-, hn, h⟩ | ⟨-, reply, h⟩
          · rw [h]
            refine hfree hn fun frame hframe => ?_
            obtain ⟨p, rest, rfl⟩ := (readied_runInits w n _).2 frame hframe
            rfl
          · rw [h]
            exact hidle rfl
      | update n time =>
          show ∀ frame ∈ (w.update n time (engaged n)).2.pushed, _
          cases hn : engaged n with
          | false => exact hfree hn (tickOutcome_update w n time false).host
          | true =>
              rcases w.update_of_engaged n time with h | h
              · rw [h]
                exact hidle rfl
              · rw [h]
                exact hidle rfl
      | shutDown n =>
          show ∀ frame ∈ (w.shutDown n (engaged n)).2.pushed, _
          rcases w.shutDown_cases n (engaged n) with ⟨-, h⟩ | ⟨-, -, h⟩ | ⟨-, hn, h⟩
          · rw [h]
            exact hidle rfl
          · rw [h]
            exact hidle rfl
          · rw [h]
            exact hfree hn fun frame hframe =>
              Frame.host?_of_tended (tended_runStops _ n none _ frame hframe)
      | _ => cases hphase

/-! ## Steps that end no tick -/

/-- What is asked for with a request, of a manager that is there. -/
def asking (w : World) (m : ManagerId) (r : Request) (x : EntityId) : Prop :=
  r = .scheduleRemoval m x ∧ m.place < w.managers.length

/-- A request other than for a tick leaves every manager steady, but for what is asked for. -/
theorem steady_serve (w : World) (engaged : ManagerId → Bool) (told : ObserverId → Bool)
    {r : Request} (hupdate : ∀ n time, r ≠ .update n time) (m : ManagerId) :
    Steady m (w.asking m r) w (w.serve engaged told r).1 := by
  by_cases hschedule : ∃ n e, r = .scheduleRemoval n e
  · obtain ⟨n, e, rfl⟩ := hschedule
    refine (steady_scheduleRemoval w n e m).congr fun x => ?_
    unfold asking
    rw [Request.scheduleRemoval.injEq]
    constructor
    · rintro ⟨⟨rfl, rfl⟩, hmade⟩
      exact ⟨rfl, hmade, rfl⟩
    · rintro ⟨rfl, hmade, rfl⟩
      exact ⟨⟨rfl, rfl⟩, hmade⟩
  · have hnothing : ∀ {v}, Steady m nothing w v → Steady m (w.asking m r) w v := fun hsteady =>
      hsteady.congr fun x => iff_of_false (fun h => hschedule ⟨m, x, h.1⟩) id
    have hserved := w.served engaged told r
    refine hnothing ?_
    generalize (w.serve engaged told r).1 = v at hserved ⊢
    cases hserved with
    | heard htells => exact steady_tells htells m
    | makeManager config => exact steady_makeManager w config m
    | retire n =>
        refine steady_updateManager ?_ ?_ ?_ w n m
        · exact fun _ => rfl
        · exact fun _ => rfl
        · exact fun _ => rfl
    | registerKind n k => exact steady_registerKind w n k m
    | registerProcessor n p => exact steady_registerProcessor w n p m
    | create n kinds => exact steady_create w n kinds m
    | scheduleRemoval n e => exact absurd ⟨n, e, rfl⟩ hschedule
    | openGroup n required forbidden => exact (readied_openGroup w n required forbidden).steady m
    | listen g l => exact steady_listen w g l m
    | unlisten g l => exact steady_unlisten w g l m
    | makeProcessor p => exact steady_of_same_managers (by rfl) m
    | settles p visitor n => exact (readied_settleVisitor w p visitor n).steady m
    | initialises n => exact (readied_runInits w n _).1.steady m
    | updates n time => exact absurd rfl (hupdate n time)
    | ends n => exact (readied_setLifecycle w n .shutDown).steady m

/-- A callback returns that no tick waits for and that is none of a listener. -/
theorem steady_resume (w : World) (outcome : Outcome) {frame : Frame} (hticks : frame.ticks? = none)
    (hnotifies : frame.notifies? = none) (m : ManagerId) :
    Steady m nothing w (w.resume outcome frame).1 := by
  have hresumed := w.resumed outcome frame
  generalize w.resume outcome frame = result at hresumed ⊢
  cases hresumed with
  | answers reply => exact .refl m w
  | inits n p rest next =>
      cases next with
      | some time => cases hticks
      | none => exact ((readied_countInit w n).trans (readied_runInits _ n rest).1).steady m
  | updates n p time rest => cases hticks
  | visits n p time stage next errand => exact .refl m w
  | leaves n p time stage rest => cases hticks
  | stops n p rest failure cause =>
      rw [runStops_world]
      exact .refl m w
  | notifies g notice following rest groups => cases hnotifies
  | flushes g notice groups => cases hnotifies
  | walks k e rest =>
      rw [walkFrom_world]
      exact .refl m w

/-- No listener is called back by a request other than for a tick. -/
theorem silent_serve (w : World) (engaged : ManagerId → Bool) (told : ObserverId → Bool)
    {r : Request} (hupdate : ∀ n time, r ≠ .update n time) :
    ∀ frame ∈ (w.serve engaged told r).2.pushed, frame.notifies? = none := by
  cases hphase : r.isPhase with
  | false =>
      exact fun frame hframe =>
        Frame.notifies?_of_isPlain (plain_serve w engaged told hphase frame hframe)
  | true =>
      cases r with
      | initialise n =>
          show ∀ frame ∈ (w.initialise n (engaged n)).2.pushed, _
          rcases w.initialise_cases n (engaged n) with ⟨-, -, h⟩ | ⟨-, reply, h⟩
          · rw [h]
            intro frame hframe
            obtain ⟨p, rest, rfl⟩ := (readied_runInits w n _).2 frame hframe
            rfl
          · rw [h]
            exact Progress.forall_pushed_of_nil rfl
      | update n time => exact absurd rfl (hupdate n time)
      | shutDown n =>
          exact fun frame hframe =>
            Frame.notifies?_of_tended (tended_shutDown w n (engaged n) frame hframe)
      | _ => cases hphase

/-- No listener is called back when a callback returns that no tick waits for and that is none of a
listener. -/
theorem silent_resume (w : World) (outcome : Outcome) {frame : Frame} (hticks : frame.ticks? = none)
    (hnotifies : frame.notifies? = none) :
    ∀ next ∈ (w.resume outcome frame).2.pushed, next.notifies? = none := by
  have hresumed := w.resumed outcome frame
  generalize w.resume outcome frame = result at hresumed ⊢
  cases hresumed with
  | answers reply => exact Progress.forall_pushed_of_nil rfl
  | inits n p rest next =>
      cases next with
      | some time => cases hticks
      | none =>
          intro frame hframe
          obtain ⟨q, others, rfl⟩ := (readied_runInits _ n rest).2 frame hframe
          rfl
  | updates n p time rest => cases hticks
  | visits n p time stage next errand => exact Progress.forall_pushed_calls rfl
  | leaves n p time stage rest => cases hticks
  | stops n p rest failure cause =>
      exact fun next hnext => Frame.notifies?_of_tended (w.tended_runStops n cause rest next hnext)
  | notifies g notice following rest groups => cases hnotifies
  | flushes g notice groups => cases hnotifies
  | walks k e rest =>
      exact fun next hnext => Frame.notifies?_of_isPlain (w.plain_walkFrom k rest next hnext)

/-- A callback of a listener returns.  The managers keep their ids, and another one than that of the
group keeps all. -/
theorem resume_of_notifies (w : World) (outcome : Outcome) {frame : Frame} {g : GroupRef}
    (h : frame.notifies? = some g) (m : ManagerId) :
    Lasting m nothing w (w.resume outcome frame).1 ∧
      (m ≠ g.manager → Steady m nothing w (w.resume outcome frame).1) := by
  cases frame with
  | notifying k notice rest groups =>
      obtain rfl := Option.some.inj h
      cases rest with
      | nil => exact ⟨lasting_flush w k.manager groups m, fun hne => steady_flush_of_ne hne w groups⟩
      | cons following rest =>
          have hrefl : Steady m nothing w w := .refl m w
          exact ⟨hrefl.toLasting, fun _ => hrefl⟩
  | _ => cases h

end World

namespace Session

variable {m : ManagerId} {e : Event}

/-! ## What an event does to a manager -/

/-- Is a manager asked in an event for the removal of an id? -/
def Event.Asks (e : Event) (m : ManagerId) (x : EntityId) : Prop :=
  ∃ r, e.action = .request r ∧ e.before.world.asking m r x

/-- The manager whose tick may go on with an event: it is asked for, or a callback returns that it
has waited for. -/
def Event.ticks? (e : Event) : Option ManagerId :=
  match e.action with
  | .request (.update m _) => some m
  | .request _ => none
  | .finish _ => e.before.stack.head?.bind Frame.ticks?

/-- Does a tick of a manager get past its last processor?  Then it is done, or a listener is the
next to be called back. -/
def Event.EndsTick (e : Event) (m : ManagerId) : Prop :=
  e.ticks? = some m ∧
    (e.progress = .done ∨
      ∃ number notice rest groups, e.progress = .calls (.notifying ⟨m, number⟩ notice rest groups))

/-- What an event does to the ids and the groups of a manager. -/
inductive Turn (m : ManagerId) (e : Event) : Prop where
  /-- Nothing is taken from it. -/
  | stays (hsteady : World.Steady m (e.Asks m) e.before.world e.after.world)
      (hends : ¬ e.EndsTick m)
      (hsilent : ∀ frame ∈ e.progress.pushed, ∀ g, frame.notifies? = some g → g.manager ≠ m)
  /-- A flush of its groups goes on behind a listener. -/
  | flushes (frame : Frame) (g : GroupRef) (below : List Frame)
      (htop : e.before.stack = frame :: below) (hframe : frame.notifies? = some g)
      (hg : g.manager = m) (hfinish : ∀ r, e.action ≠ .request r)
      (hlasting : World.Lasting m (e.Asks m) e.before.world e.after.world)
      (hends : ¬ e.EndsTick m)
  /-- A tick of it ends. -/
  | ends (u : World) (hready : World.Readied e.before.world u)
      (hend : (e.after.world, e.progress) = u.endTick m) (hends : e.EndsTick m)

theorem turn_of_tickOutcome {n : ManagerId} (hticks : e.ticks? = some n)
    (hasks : ∀ x, ¬ e.Asks m x)
    (h : World.TickOutcome n e.before.world (e.after.world, e.progress)) : Turn m e := by
  have hasked : ∀ {v}, World.Steady m World.nothing e.before.world v →
      World.Steady m (e.Asks m) e.before.world v := fun hsteady =>
    hsteady.congr fun x => iff_of_false (hasks x) id
  have hother : n ≠ m → ¬ e.EndsTick m := fun hne h =>
    hne (Option.some.inj (hticks.symm.trans h.1))
  generalize hresult : (e.after.world, e.progress) = result at h
  cases h with
  | ends u hready =>
      by_cases hn : n = m
      · subst hn
        refine .ends u hready hresult ⟨hticks, ?_⟩
        -- the last thing that a tick does is to flush
        have hprogress : e.progress = (u.endTick n).2 := congrArg Prod.snd hresult
        rw [hprogress]
        exact World.flush_progress _ n _
      · have hworld : e.after.world = (u.endTick n).1 := congrArg Prod.fst hresult
        have hprogress : e.progress = (u.endTick n).2 := congrArg Prod.snd hresult
        refine .stays (hasked ?_) (hother hn) fun frame hframe g hg hm => ?_
        · rw [hworld]
          exact (hready.steady m).andThen (World.steady_endTick_of_ne (fun heq => hn heq.symm) u)
        · rw [hprogress] at hframe
          obtain ⟨number, notice, rest, groups, rfl⟩ := World.flush_pushed _ n _ frame hframe
          obtain rfl := Option.some.inj hg
          exact hn hm
  | calls u frame hready hframe =>
      obtain ⟨hworld, hprogress⟩ := Prod.mk.inj hresult
      refine .stays (hasked (by rw [hworld]; exact hready.steady m)) ?_ ?_
      · rintro ⟨-, hdone | ⟨number, notice, rest, groups, hcalls⟩⟩
        · cases hprogress.symm.trans hdone
        · cases hprogress.symm.trans hcalls
          cases hframe
      · rw [hprogress]
        refine Progress.forall_pushed_calls fun g hg => ?_
        rw [Frame.notifies?_of_ticks hframe] at hg
        cases hg
  | fails u cause hready =>
      obtain ⟨hworld, hprogress⟩ := Prod.mk.inj hresult
      refine .stays (hasked (by rw [hworld]; exact hready.steady m)) ?_ ?_
      · rintro ⟨-, hdone | ⟨number, notice, rest, groups, hcalls⟩⟩
        · cases hprogress.symm.trans hdone
        · cases hprogress.symm.trans hcalls
      · rw [hprogress]
        exact Progress.forall_pushed_of_nil rfl

theorem turn_of_act (hact : e.before.act e.action = some (e.after, e.progress)) (m : ManagerId) :
    Turn m e := by
  cases ha : e.action with
  | request r =>
      rw [ha] at hact
      obtain ⟨-, hafter, hprogress⟩ := act_request hact
      have hresult : (e.after.world, e.progress) =
          e.before.world.serve e.before.engaged e.before.told r := by
        rw [hprogress, hafter]
      have hasks : ∀ x, e.Asks m x ↔ e.before.world.asking m r x := by
        intro x
        unfold Event.Asks
        rw [ha]
        constructor
        · rintro ⟨r, heq, hx⟩
          cases heq
          exact hx
        · exact fun hx => ⟨r, rfl, hx⟩
      by_cases hupdate : ∃ n time, r = .update n time
      · obtain ⟨n, time, rfl⟩ := hupdate
        refine turn_of_tickOutcome (n := n) ?_ ?_ ?_
        · unfold Event.ticks?
          rw [ha]
        · exact fun x hx => absurd ((hasks x).1 hx).1 nofun
        · rw [hresult]
          exact World.tickOutcome_update _ n time _
      · have hother : ∀ n time, r ≠ .update n time := fun n time heq => hupdate ⟨n, time, heq⟩
        refine .stays ?_ ?_ ?_
        · have hsteady := World.steady_serve e.before.world e.before.engaged e.before.told hother m
          rw [← hresult] at hsteady
          exact hsteady.congr hasks
        · rintro ⟨hticks, -⟩
          unfold Event.ticks? at hticks
          rw [ha] at hticks
          split at hticks
          · rename_i n time heq
            exact hother n time (Action.request.inj heq)
          · cases hticks
          · rename_i heq
            cases heq
        · intro frame hframe g hg
          have hflow := World.silent_serve e.before.world e.before.engaged e.before.told hother
          rw [← hresult] at hflow
          rw [hflow frame hframe] at hg
          cases hg
  | finish outcome =>
      rw [ha] at hact
      obtain ⟨frame, below, htop, hafter, hprogress⟩ := act_finish hact
      have hresult : (e.after.world, e.progress) = e.before.world.resume outcome frame := by
        rw [hprogress, hafter]
      have hticks : e.ticks? = frame.ticks? := by
        unfold Event.ticks?
        rw [ha, htop]
        rfl
      have hasks : ∀ x, ¬ e.Asks m x := by
        rintro x ⟨r, heq, -⟩
        rw [ha] at heq
        cases heq
      cases hframe : frame.ticks? with
      | some n =>
          refine turn_of_tickOutcome (hticks.trans hframe) hasks ?_
          rw [hresult]
          exact World.tickOutcome_resume _ outcome hframe
      | none =>
          have hends : ¬ e.EndsTick m := by
            rintro ⟨hsome, -⟩
            rw [hticks, hframe] at hsome
            cases hsome
          cases hnotifies : frame.notifies? with
          | none =>
              have hsteady := World.steady_resume e.before.world outcome hframe hnotifies m
              rw [← hresult] at hsteady
              refine .stays (hsteady.congr fun x => iff_of_false (hasks x) id) hends ?_
              intro next hnext g hg
              have hsilent := World.silent_resume e.before.world outcome hframe hnotifies
              rw [← hresult] at hsilent
              rw [hsilent next hnext] at hg
              cases hg
          | some g =>
              have hcome := World.resume_of_notifies e.before.world outcome hnotifies m
              have hhost := World.host_resume e.before.world outcome frame
              rw [← hresult] at hcome hhost
              by_cases hg : g.manager = m
              · refine .flushes frame g below htop hnotifies hg ?_ ?_ hends
                · rw [ha]
                  exact nofun
                · exact hcome.1.congr fun x => iff_of_false (hasks x) id
              · refine .stays ?_ hends ?_
                · exact (hcome.2 fun heq => hg heq.symm).congr fun x => iff_of_false (hasks x) id
                · intro next hnext k hk hm
                  have hsame := (Frame.host?_of_notifies hk).symm.trans
                    ((hhost next hnext).trans (Frame.host?_of_notifies hnotifies))
                  exact hg ((Option.some.inj hsame).symm.trans hm)

end Session

end EntityStore
