import EntityStore.Proofs.Session.LifeSteps

/-!
# What code outside sees of a life

`Event.inits` and `Event.stops` say which processors an event initialises and shuts down.  For a
processor with callbacks of its own this is what code outside can see.

* `mem_inits_iff`: it is initialised when the callback for its initialisation returns without a
  failure.
* `mem_stops_iff`: it is shut down when the callback for its shut-down begins.
-/

namespace EntityStore

variable [Host]

/-- A processor of a manager is called back to shut down. -/
def Progress.Stops (m : ManagerId) (q : ProcessorId) (p : Progress) : Prop :=
  ∃ rest failure, p = .calls (.stopping m q rest failure)

variable {m : ManagerId} {q : ProcessorId}

theorem Progress.Stops.mem_pushed {p : Progress} (h : p.Stops m q) :
    ∃ rest failure, Frame.stopping m q rest failure ∈ p.pushed := by
  obtain ⟨rest, failure, rfl⟩ := h
  exact ⟨rest, failure, List.mem_singleton.2 rfl⟩

namespace World

variable {w : World}

/-! ## Initialisation -/

/-- Giving a visitor its group leaves other processors alone. -/
theorem processor_settleVisitor {p : ProcessorId} (hne : q ≠ p) (w : World) (v : Visitor)
    (m : ManagerId) : (w.settleVisitor p v m).1.processor q = w.processor q := by
  have hplace : q.place ≠ p.place := fun heq => hne (congrArg ProcessorId.mk heq)
  have hopened : ∀ r f, (w.openGroup m r f).1.processor q = w.processor q := by
    intro r f
    unfold openGroup
    split
    · rfl
    · split <;> rfl
  have hprepared : ∀ (u : World) change, (u.updateProcessor p change).processor q =
      u.processor q := by
    intro u change
    unfold updateProcessor processor
    rw [getD_modify, if_neg fun h => hplace h.1]
  unfold settleVisitor
  split
  · rename_i u g hresult
    rw [hprepared, ← hopened v.required v.forbidden, hresult]
  · rename_i u cause hresult
    rw [← hopened v.required v.forbidden, hresult]

/-- A processor with callbacks of its own is never initialised without one. -/
theorem not_mem_settled (hq : (w.processor q).body = .custom) (m : ManagerId)
    (processors : List ProcessorId) : q ∉ w.settled m processors := by
  induction processors generalizing w with
  | nil => exact List.not_mem_nil
  | cons p rest ih =>
      unfold settled
      split
      · exact List.not_mem_nil
      · rename_i v hbody
        have hne : q ≠ p := by
          rintro rfl
          rw [hq] at hbody
          cases hbody
        have hsame := processor_settleVisitor hne w v m
        split
        · exact List.not_mem_nil
        · rename_i u hsettled
          rw [hsettled] at hsame
          have hstill : ((u.countInit m).processor q).body = .custom := by
            show (u.processor q).body = .custom
            rw [hsame]
            exact hq
          intro hmem
          rcases List.mem_cons.1 hmem with heq | hlater
          · exact hne heq
          · exact ih hstill hlater

/-! ## Shut-down -/

/-- A processor with callbacks of its own is called on the way if and only if it is called back. -/
theorem mem_called_iff (hq : (w.processor q).body = .custom) (m : ManagerId)
    (failure : Option ManagerError) (processors : List ProcessorId) :
    q ∈ w.called processors ↔ (w.runStops m failure processors).2.Stops m q := by
  induction processors with
  | nil => cases failure <;> simp [called, runStops, Progress.Stops, Progress.done, Progress.refuses]
  | cons p rest ih =>
      cases hbody : (w.processor p).body with
      | custom =>
          simp only [called, runStops, hbody, Progress.Stops]
          constructor
          · intro hmem
            obtain rfl := List.mem_singleton.1 hmem
            exact ⟨rest, failure, rfl⟩
          · rintro ⟨others, cause, heq⟩
            cases heq
            exact List.mem_singleton.2 rfl
      | visitor v =>
          have hne : q ≠ p := by
            rintro rfl
            rw [hq] at hbody
            cases hbody
          simp only [called, runStops, hbody]
          rw [List.mem_cons, ← ih]
          exact ⟨fun hmem => hmem.resolve_left hne, Or.inr⟩

theorem not_stops_of_untended {p : Progress} (h : ∀ frame ∈ p.pushed, frame.tended? = none) :
    ¬ p.Stops m q := by
  intro hstops
  obtain ⟨rest, failure, hframe⟩ := hstops.mem_pushed
  cases h _ hframe

/-- Who is called back to shut down by a request for it. -/
theorem stops_shutDown_iff (hq : (w.processor q).body = .custom) (n m : ManagerId)
    (engaged : Bool) : (w.shutDown n engaged).2.Stops m q ↔
      (n = m ∧ (w.manager m).lifecycle ≠ .shutDown ∧ engaged = false) ∧
        q ∈ w.called ((w.manager m).processors.take (w.manager m).initialised) := by
  have hidle : ∀ {p : Progress}, p.pushed = [] → ¬ p.Stops m q := fun hp =>
    not_stops_of_untended (Progress.forall_pushed_of_nil hp)
  by_cases hn : n = m
  · subst hn
    rcases w.shutDown_cases n engaged with
      ⟨hover, hshut⟩ | ⟨-, rfl, hshut⟩ | ⟨hopen, rfl, hshut⟩
    · rw [hshut]
      exact ⟨fun hstops => absurd hstops (hidle rfl), fun h => absurd hover h.1.2.1⟩
    · rw [hshut]
      exact ⟨fun hstops => absurd hstops (hidle rfl), fun h => absurd h.1.2.2 nofun⟩
    · rw [hshut, ← called_ended w n]
      have hcalled := mem_called_iff (w := w.ended n) hq n none
        ((w.manager n).processors.take (w.manager n).initialised)
      exact ⟨fun hstops => ⟨⟨rfl, hopen, rfl⟩, hcalled.2 hstops⟩, fun h => hcalled.1 h.2⟩
  · refine ⟨fun hstops => ?_, fun h => absurd h.1.1 hn⟩
    obtain ⟨rest, failure, hframe⟩ := hstops.mem_pushed
    exact absurd (Option.some.inj (tended_shutDown w n engaged _ hframe)).symm hn

/-- Nobody is called back to shut down by an initialisation. -/
theorem not_stops_runInits (w : World) (n : ManagerId) (next : Option Time)
    (processors : List ProcessorId) : ¬ (w.runInits n next processors).2.Stops m q := by
  intro hstops
  obtain ⟨rest, failure, hframe⟩ := hstops.mem_pushed
  rcases w.pushed_runInits n next processors _ hframe with ⟨p, others, hinit⟩ | hnone
  · cases hinit
  · cases hnone

/-- Only a request to shut down has somebody called back to shut down. -/
theorem not_stops_serve (w : World) (engaged : ManagerId → Bool) (told : ObserverId → Bool)
    {r : Request} (hr : ∀ n, r ≠ .shutDown n) : ¬ (w.serve engaged told r).2.Stops m q := by
  cases hphase : r.isPhase with
  | false =>
      refine not_stops_of_untended fun frame hframe => ?_
      exact Frame.tended?_of_isPlain (plain_serve w engaged told hphase frame hframe)
  | true =>
      obtain ⟨n, hn⟩ : ∃ n, r.begins? = some n := by
        cases r with
        | initialise n => exact ⟨n, rfl⟩
        | update n time => exact ⟨n, rfl⟩
        | shutDown n => exact absurd rfl (hr n)
        | _ => cases hphase
      rcases w.begins_cases engaged told hn with ⟨-, -, next, h⟩ | ⟨-, ⟨time, h⟩ | ⟨reply, h⟩⟩
      · rw [h]
        exact not_stops_runInits w n next _
      · rw [h]
        exact not_stops_of_untended (w.untended_runUpdates n time _)
      · rw [h]
        exact not_stops_of_untended (Progress.forall_pushed_of_nil rfl)

/-- Only after a callback of a shut-down is the next one called back to shut down. -/
theorem not_stops_resume (w : World) (outcome : Outcome) {frame : Frame}
    (h : ∀ p rest failure, frame ≠ .stopping m p rest failure) :
    ¬ (w.resume outcome frame).2.Stops m q := by
  by_cases htended : frame.tended? = some m
  · cases frame with
    | initialising n p rest next =>
        cases outcome with
        | error message => exact not_stops_of_untended nofun
        | ok done => exact not_stops_runInits _ n next rest
    | stopping n p rest failure =>
        obtain rfl := Option.some.inj htended
        exact absurd rfl (h p rest failure)
    | _ => cases htended
  · intro hstops
    obtain ⟨rest, failure, hframe⟩ := hstops.mem_pushed
    exact Session.tended_resume w outcome htended _ hframe rfl

end World

namespace Session

variable {e : Event}

/-- A processor with callbacks of its own is initialised in an event if and only if the callback for
its initialisation returns without a failure. -/
theorem mem_inits_iff (hq : (e.before.world.processor q).body = .custom) :
    q ∈ e.inits m ↔ e.action = .finish (.ok ()) ∧
      ∃ rest next below, e.before.stack = .initialising m q rest next :: below := by
  have hnone : ∀ {inits : List ProcessorId}, q ∉ inits → e.action ≠ .finish (.ok ()) →
      (q ∈ inits ↔ e.action = .finish (.ok ()) ∧
        ∃ rest next below, e.before.stack = .initialising m q rest next :: below) :=
    fun hmem ha => ⟨fun h => absurd h hmem, fun h => absurd h.1 ha⟩
  unfold Event.inits
  split
  · rename_i r ha
    refine hnone ?_ (by rw [ha]; exact nofun)
    unfold begun
    split
    · split
      · exact World.not_mem_settled hq m _
      · exact List.not_mem_nil
    · exact List.not_mem_nil
  · rename_i ha
    split
    · rename_i n p rest next below htop
      have hlater : q ∉ (e.before.world.countInit m).settled m rest := by
        refine World.not_mem_settled ?_ m rest
        exact hq
      constructor
      · intro hmem
        split at hmem
        · rename_i hn
          subst hn
          obtain rfl := (List.mem_cons.1 hmem).resolve_right hlater
          exact ⟨ha, rest, next, below, htop⟩
        · exact absurd hmem List.not_mem_nil
      · rintro ⟨-, others, time, frames, hstack⟩
        cases htop.symm.trans hstack
        rw [if_pos rfl]
        exact List.mem_cons_self
    · rename_i hother
      refine ⟨fun hmem => absurd hmem List.not_mem_nil, ?_⟩
      rintro ⟨-, rest, next, below, hstack⟩
      exact absurd hstack (hother m q rest next below)
  · rename_i ha
    exact hnone List.not_mem_nil (by rw [ha]; exact nofun)

/-- A processor with callbacks of its own is shut down in an event if and only if the callback for
its shut-down begins. -/
theorem mem_stops_iff (hact : e.before.act e.action = some (e.after, e.progress))
    (hq : (e.before.world.processor q).body = .custom) :
    q ∈ e.stops m ↔ e.progress.Stops m q := by
  cases ha : e.action with
  | request r =>
      rw [ha] at hact
      obtain ⟨-, -, hprogress⟩ := act_request hact
      by_cases hshut : ∃ n, r = .shutDown n
      · obtain ⟨n, rfl⟩ := hshut
        have hstops : e.stops m =
            if n = m ∧ (e.before.world.manager m).lifecycle ≠ .shutDown ∧
                e.before.engaged m = false then
              e.before.world.called ((e.before.world.manager m).processors.take
                (e.before.world.manager m).initialised)
            else [] := by
          unfold Event.stops
          rw [ha]
        rw [hstops, hprogress]
        show _ ↔ (e.before.world.shutDown n (e.before.engaged n)).2.Stops m q
        rw [World.stops_shutDown_iff hq]
        by_cases hn : n = m
        · subst hn
          split
          · rename_i hgranted
            exact ⟨fun hmem => ⟨hgranted, hmem⟩, fun h => h.2⟩
          · rename_i hrefused
            exact ⟨fun hmem => absurd hmem List.not_mem_nil, fun h => absurd h.1 hrefused⟩
        · rw [if_neg fun h => hn h.1]
          exact ⟨fun hmem => absurd hmem List.not_mem_nil, fun h => absurd h.1.1 hn⟩
      · have hother : ∀ n, r ≠ .shutDown n := fun n heq => hshut ⟨n, heq⟩
        have hnone : e.stops m = [] := by
          unfold Event.stops
          rw [ha]
          cases r with
          | shutDown n => exact absurd rfl (hother n)
          | _ => rfl
        rw [hnone, hprogress]
        exact ⟨fun hmem => absurd hmem List.not_mem_nil,
          fun h => absurd h (World.not_stops_serve _ _ _ hother)⟩
  | finish outcome =>
      rw [ha] at hact
      obtain ⟨frame, below, htop, -, hprogress⟩ := act_finish hact
      by_cases hstopping : ∃ p rest failure, frame = .stopping m p rest failure
      · obtain ⟨p, rest, failure, rfl⟩ := hstopping
        have hstops : e.stops m = e.before.world.called rest := by
          unfold Event.stops
          rw [ha, htop]
          exact if_pos rfl
        rw [hstops, hprogress]
        cases outcome with
        | error message => exact World.mem_called_iff hq m _ rest
        | ok done => exact World.mem_called_iff hq m failure rest
      · have hother : ∀ p rest failure, frame ≠ .stopping m p rest failure :=
          fun p rest failure heq => hstopping ⟨p, rest, failure, heq⟩
        have hnone : e.stops m = [] := by
          unfold Event.stops
          rw [ha, htop]
          cases frame with
          | stopping n p rest failure =>
              exact if_neg fun hn => hother p rest failure (by rw [hn])
          | _ => rfl
        rw [hnone, hprogress]
        exact ⟨fun hmem => absurd hmem List.not_mem_nil,
          fun h => absurd h (World.not_stops_resume _ outcome hother)⟩

end Session

end EntityStore
