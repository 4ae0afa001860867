import EntityStore.Proofs.Session.Ticks

/-!
# Ticks and processors keep apart

While processors of a manager are in use, its tick cannot end, whatever their callbacks ask for; and
a tick that is given up on the way has not come to its end.

* `Exclusive`: above a callback of a manager's processor nothing runs on behalf of that manager.
* `spares_of_always_engaged`: from one moment at which processors of a manager are in use to another,
  with no moment in between at which they are free, every event spares the manager.
* `steady_of_spares`: a manager that is spared by every event is steady.
* `Call`: a request, all that happens before it is answered, and its answer.
* `ticks_exclude_processors`: the law, for callbacks of processors and for ticks that fail.
-/

namespace EntityStore.Session

variable [Host] {m : ManagerId} {e last : Event} {events mid : List Event} {s t : Session}
  {base : List Frame}

/-! ## Nothing runs above a processor -/

/-- Above a callback of a manager's processor nothing runs on behalf of that manager. -/
def Exclusive (m : ManagerId) (stack : List Frame) : Prop :=
  stack.Pairwise fun upper lower => lower.engaged? = some m → upper.host? ≠ some m

theorem engaged_iff : s.engaged m = true ↔ ∃ frame ∈ s.stack, frame.engaged? = some m := by
  simp [engaged]

/-- What holds of the callbacks that are running when an event is over. -/
theorem Exclusive.step (h : Exclusive m e.before.stack)
    (hact : e.before.act e.action = some (e.after, e.progress)) : Exclusive m e.after.stack := by
  have hpush : ∀ {below : List Frame}, Exclusive m below →
      (∀ next ∈ e.progress.pushed, ∀ lower ∈ below, lower.engaged? = some m →
        next.host? ≠ some m) → Exclusive m (e.progress.pushed ++ below) := by
    intro below hbelow hnext
    cases hprogress : e.progress with
    | replies reply => exact hbelow
    | calls frame =>
        rw [hprogress] at hnext
        exact List.pairwise_cons.2 ⟨hnext frame (List.mem_singleton.2 rfl), hbelow⟩
  cases ha : e.action with
  | request r =>
      rw [ha] at hact
      obtain ⟨-, hafter, hprogress⟩ := act_request hact
      rw [hafter]
      refine hpush h fun next hnext lower hlower hengaged hhost => ?_
      rw [hprogress] at hnext
      rcases World.host_serve _ _ _ r next hnext with hnone | ⟨n, hsome, hfree⟩
      · rw [hnone] at hhost
        cases hhost
      · -- the manager's processors were free, and yet one of them is in use
        obtain rfl := Option.some.inj (hsome.symm.trans hhost)
        rw [engaged_iff.2 ⟨lower, hlower, hengaged⟩] at hfree
        cases hfree
  | finish outcome =>
      rw [ha] at hact
      obtain ⟨frame, below, htop, hafter, hprogress⟩ := act_finish hact
      rw [htop] at h
      obtain ⟨hframe, hbelow⟩ := List.pairwise_cons.1 h
      rw [hafter]
      refine hpush hbelow fun next hnext lower hlower hengaged => ?_
      rw [hprogress] at hnext
      rw [World.host_resume _ outcome frame next hnext]
      exact hframe lower hlower hengaged

theorem exclusive_of_runs (h : Runs start events s) (m : ManagerId) : Exclusive m s.stack :=
  h.induct (P := fun _ s => Exclusive m s.stack) List.Pairwise.nil
    fun _ _ _ hexclusive hact => hexclusive.step hact

/-- When the innermost callback runs on behalf of a manager, it is the only one that uses its
processors. -/
theorem Exclusive.top {frame : Frame} {below : List Frame} (h : Exclusive m (frame :: below))
    (hhost : frame.host? = some m) : ∀ lower ∈ below, lower.engaged? ≠ some m := by
  obtain ⟨hframe, -⟩ := List.pairwise_cons.1 h
  exact fun lower hlower hengaged => hframe lower hlower hengaged hhost

/-! ## One event -/

/-- Nothing is taken from a manager in an event, and none of its listeners is called back. -/
structure Event.Spares (e : Event) (m : ManagerId) : Prop where
  /-- The ids and the groups of the manager. -/
  steady : World.Steady m (e.Asks m) e.before.world e.after.world
  /-- Whoever is called back, it is no listener of the manager. -/
  silent : ∀ frame ∈ e.progress.pushed, ∀ g, frame.notifies? = some g → g.manager ≠ m

/-- An event spares a manager unless its tick ends or its groups are flushed further. -/
theorem Turn.spares (h : Turn m e) (hends : ¬ e.EndsTick m)
    (hflush : ∀ frame below g, e.before.stack = frame :: below → frame.notifies? = some g →
      g.manager = m → ∃ r, e.action = .request r) : e.Spares m := by
  cases h with
  | stays hsteady _ hsilent => exact ⟨hsteady, hsilent⟩
  | flushes frame g below htop hframe hg hfinish =>
      obtain ⟨r, ha⟩ := hflush frame below g htop hframe hg
      exact absurd ha (hfinish r)
  | ends u hready hend hnow => exact absurd hnow hends

/-- A manager whose processors are in use refuses a tick. -/
theorem refuses_update (hact : e.before.act e.action = some (e.after, e.progress))
    (hengaged : e.before.engaged m = true) {time : Time}
    (ha : e.action = .request (.update m time)) :
    e.after = e.before ∧
      (e.progress = .refuses .reentrant ∨ e.progress = .refuses .shutDown) := by
  rw [ha] at hact
  obtain ⟨-, hafter, hprogress⟩ := act_request hact
  have hserved : e.before.world.serve e.before.engaged e.before.told (.update m time) =
      e.before.world.update m time true := by
    rw [← hengaged]
    rfl
  rw [hserved] at hafter hprogress
  rcases e.before.world.update_of_engaged m time with h | h
  · rw [h] at hafter hprogress
    refine ⟨?_, Or.inl hprogress⟩
    rw [hafter, hprogress]
    rfl
  · rw [h] at hafter hprogress
    refine ⟨?_, Or.inr hprogress⟩
    rw [hafter, hprogress]
    rfl

/-- A tick that is refused or given up has not ended. -/
theorem not_endsTick_of_refuses {cause : ManagerError} (h : e.progress = .refuses cause) :
    ¬ e.EndsTick m := by
  rintro ⟨-, hdone | ⟨number, notice, rest, groups, hcalls⟩⟩
  · cases h.symm.trans hdone
  · cases h.symm.trans hcalls

/-- Processors of a manager are in use before an event and after it. -/
theorem spares_of_engaged (hexclusive : Exclusive m e.before.stack)
    (hact : e.before.act e.action = some (e.after, e.progress))
    (hbefore : e.before.engaged m = true) (hafter : e.after.engaged m = true) :
    e.Spares m := by
  refine (turn_of_act hact m).spares ?_ ?_
  · intro hends
    have hticks := hends.1
    have hprogress := hends.2
    cases ha : e.action with
    | request r =>
        -- a tick that is asked for is refused
        unfold Event.ticks? at hticks
        rw [ha] at hticks
        cases r with
        | update n time =>
            obtain rfl := Option.some.inj hticks
            rcases (refuses_update hact hbefore ha).2 with h | h
            · exact not_endsTick_of_refuses h hends
            · exact not_endsTick_of_refuses h hends
        | _ => cases hticks
    | finish outcome =>
        -- the processor that returns is the only one in use, and a listener may be called back next
        rw [ha] at hact
        obtain ⟨frame, below, htop, hend, -⟩ := act_finish hact
        unfold Event.ticks? at hticks
        rw [ha, htop] at hticks
        have hengaged : frame.engaged? = some m := Frame.engaged?_of_ticks hticks
        have hpushed : ∀ next ∈ e.progress.pushed, next.engaged? ≠ some m := by
          rcases hprogress with hdone | ⟨number, notice, rest, groups, hcalls⟩
          · rw [hdone]
            exact Progress.forall_pushed_of_nil rfl
          · rw [hcalls]
            exact Progress.forall_pushed_calls nofun
        rw [htop] at hexclusive
        have hfree := hexclusive.top (Frame.host?_of_engaged hengaged)
        obtain ⟨other, hother, hused⟩ := engaged_iff.1 hafter
        rw [hend] at hother
        rcases List.mem_append.1 hother with hnew | hold
        · exact hpushed other hnew hused
        · exact hfree other hold hused
  · intro frame below g htop hframe hg
    -- nothing runs on behalf of the manager above its processor
    rw [htop] at hexclusive
    have hfree := hexclusive.top ((Frame.host?_of_notifies hframe).trans (congrArg some hg))
    obtain ⟨other, hother, hused⟩ := engaged_iff.1 hbefore
    rw [htop] at hother
    rcases List.mem_cons.1 hother with rfl | hold
    · rw [Frame.notifies?_of_engaged hused] at hframe
      cases hframe
    · exact absurd hused (hfree other hold)

/-! ## Many events -/

/-- A history of events that spare a manager. -/
theorem steady_of_spares (h : Runs s events t) (hspares : ∀ e ∈ events, e.Spares m) :
    World.Steady m (fun x => ∃ e ∈ events, e.Asks m x) s.world t.world := by
  induction h with
  | refl => exact (World.Steady.refl m s.world).congr fun x => by simp
  | @step events t u hruns a p hact ih =>
      have hsteady := ih fun e he => hspares e (List.mem_append_left _ he)
      have hlast := (hspares ⟨t, a, p, u⟩ (List.mem_append_right _ (List.mem_singleton.2 rfl))).steady
      refine (hsteady.trans hlast).congr fun x => ?_
      simp [or_and_right, exists_or]

/-- As long as processors of a manager are in use, every event spares it. -/
theorem spares_of_always_engaged (h : Runs s events t) (hexclusive : Exclusive m s.stack)
    (hbefore : s.engaged m = true) (hengaged : ∀ e ∈ events, e.after.engaged m = true) :
    ∀ e ∈ events, e.before.engaged m = true ∧ e.Spares m := by
  have hkeep : ∀ e ∈ events, Exclusive m e.before.stack ∧ e.before.engaged m = true →
      Exclusive m e.after.stack ∧ e.after.engaged m = true := fun e he hwas =>
    ⟨hwas.1.step (h.act_of_mem he), hengaged e he⟩
  intro e he
  obtain ⟨⟨hstack, hused⟩, -⟩ :=
    (h.preserves (P := fun s => Exclusive m s.stack ∧ s.engaged m = true) ⟨hexclusive, hbefore⟩
      hkeep).2 e he
  exact ⟨hused, spares_of_engaged hstack (h.act_of_mem he) hused (hengaged e he)⟩

/-! ## Calls -/

/-- A call: a request is made, things happen while it waits for callbacks, and with a last event it is
answered. -/
structure Call (s : Session) (r : Request) (mid : List Event) (last : Event) (reply : Reply) :
    Prop where
  /-- All that happens. -/
  runs : Runs s (mid ++ [last]) last.after
  /-- It begins with the request. -/
  asked : (mid ++ [last]).head?.map Event.action = some (.request r)
  /-- As long as it is not answered, callbacks are running that were not running before. -/
  waiting : ∀ e ∈ mid, s.stack.length < e.after.stack.length
  /-- In the end they have all returned. -/
  returned : last.after.stack = s.stack
  /-- The request is answered. -/
  answered : last.progress = .replies reply

/-- A tick that was asked for over a stack waits for a callback. -/
def Ticking (m : ManagerId) (base : List Frame) (s : Session) : Prop :=
  ∃ above frame, s.stack = above ++ frame :: base ∧ frame.ticks? = some m

/-- A tick that was asked for over a stack has ended, and a listener is told in its flush. -/
def Flushing (m : ManagerId) (base : List Frame) (s : Session) : Prop :=
  ∃ above frame g, s.stack = above ++ frame :: base ∧ frame.notifies? = some g ∧ g.manager = m

theorem Ticking.length_lt (h : Ticking m base s) : base.length < s.stack.length := by
  obtain ⟨above, frame, hstack, -⟩ := h
  rw [hstack, List.length_append, List.length_cons]
  omega

theorem Flushing.length_lt (h : Flushing m base s) : base.length < s.stack.length := by
  obtain ⟨above, frame, g, hstack, -⟩ := h
  rw [hstack, List.length_append, List.length_cons]
  omega

/-- A callback stays on the stack in an event, unless it returns.  If it is the innermost one and
stays, code outside has made a request. -/
theorem stays_or_returns {above : List Frame} {frame : Frame}
    (hact : e.before.act e.action = some (e.after, e.progress))
    (hstack : e.before.stack = above ++ frame :: base) :
    (∃ more, e.after.stack = e.progress.pushed ++ more ++ frame :: base ∧
        (above = [] → ∃ r, e.action = .request r)) ∨
      ∃ outcome, e.action = .finish outcome ∧ e.before.stack = frame :: base ∧
        e.after.stack = e.progress.pushed ++ base ∧
        (e.after.world, e.progress) = e.before.world.resume outcome frame := by
  cases ha : e.action with
  | request r =>
      rw [ha] at hact
      obtain ⟨-, hafter, -⟩ := act_request hact
      refine Or.inl ⟨above, ?_, fun _ => ⟨r, rfl⟩⟩
      rw [hafter, hstack, List.append_assoc]
  | finish outcome =>
      rw [ha] at hact
      obtain ⟨top, below, htop, hafter, hprogress⟩ := act_finish hact
      rw [hstack] at htop
      cases above with
      | nil =>
          obtain ⟨rfl, rfl⟩ := List.cons.inj htop
          refine Or.inr ⟨outcome, rfl, hstack, by rw [hafter], ?_⟩
          have hworld : e.after.world = (e.before.world.resume outcome frame).1 := by rw [hafter]
          rw [hworld, hprogress]
      | cons first above =>
          obtain ⟨-, rfl⟩ := List.cons.inj htop
          refine Or.inl ⟨above, ?_, fun habove => absurd habove (List.cons_ne_nil first above)⟩
          rw [hafter]
          exact (List.append_assoc _ _ _).symm

/-- What a step of a tick leaves on the stack that the tick was asked for over. -/
theorem ticking_of_tickOutcome (hstack : e.after.stack = e.progress.pushed ++ base)
    (h : World.TickOutcome m e.before.world (e.after.world, e.progress)) :
    Ticking m base e.after ∧ ¬ e.EndsTick m ∨ Flushing m base e.after ∨
      e.after.stack = base ∧ (e.progress = .done ∨ ∃ cause, e.progress = .refuses cause) := by
  generalize hresult : (e.after.world, e.progress) = result at h
  cases h with
  | ends u hready =>
      have hprogress : e.progress = (u.endTick m).2 := congrArg Prod.snd hresult
      rcases World.flush_progress (u.removeAllDue m) m
        (List.range ((u.removeAllDue m).manager m).groups.length) with
          hdone | ⟨number, notice, rest, groups, hcalls⟩
      · have hnow := hprogress.trans hdone
        refine Or.inr (Or.inr ⟨?_, Or.inl hnow⟩)
        rw [hstack, hnow]
        rfl
      · have hnow := hprogress.trans hcalls
        refine Or.inr (Or.inl ⟨[], .notifying ⟨m, number⟩ notice rest groups, _, ?_, rfl, rfl⟩)
        rw [hstack, hnow]
        rfl
  | calls u frame hready hframe =>
      have hnow : e.progress = .calls frame := congrArg Prod.snd hresult
      refine Or.inl ⟨⟨[], frame, ?_, hframe⟩, ?_⟩
      · rw [hstack, hnow]
        rfl
      · rintro ⟨-, hdone | ⟨number, notice, rest, groups, hcalls⟩⟩
        · cases hnow.symm.trans hdone
        · cases hnow.symm.trans hcalls
          cases hframe
  | fails u cause hready =>
      have hnow : e.progress = .refuses cause := congrArg Prod.snd hresult
      refine Or.inr (Or.inr ⟨?_, Or.inr ⟨cause, hnow⟩⟩)
      rw [hstack, hnow]
      rfl

/-- A step of a tick that waits for a callback. -/
theorem Ticking.step (h : Ticking m base e.before) (hexclusive : Exclusive m e.before.stack)
    (hact : e.before.act e.action = some (e.after, e.progress)) :
    Ticking m base e.after ∧ e.Spares m ∨ Flushing m base e.after ∨
      e.after.stack = base ∧
        (e.progress = .done ∨ (∃ cause, e.progress = .refuses cause) ∧ e.Spares m) := by
  obtain ⟨above, frame, hstack, hframe⟩ := h
  have hengaged := Frame.engaged?_of_ticks hframe
  rcases stays_or_returns hact hstack with ⟨more, hmore, -⟩ | ⟨outcome, ha, htop, hafter, hresult⟩
  · -- the callback still runs, so the processors of the manager are in use all the time
    refine Or.inl ⟨⟨_, frame, hmore, hframe⟩, spares_of_engaged hexclusive hact ?_ ?_⟩
    · exact engaged_iff.2 ⟨frame, by rw [hstack]; simp, hengaged⟩
    · exact engaged_iff.2 ⟨frame, by rw [hmore]; simp, hengaged⟩
  · have houtcome : World.TickOutcome m e.before.world (e.after.world, e.progress) := by
      rw [hresult]
      exact World.tickOutcome_resume _ outcome hframe
    have hspares : ¬ e.EndsTick m → e.Spares m := by
      intro hends
      refine (turn_of_act hact m).spares hends fun other below g hother hnotifies _ => ?_
      cases htop.symm.trans hother
      rw [Frame.notifies?_of_ticks hframe] at hnotifies
      cases hnotifies
    rcases ticking_of_tickOutcome hafter houtcome with ⟨hticking, hends⟩ | hflushing |
        ⟨hbase, hdone | ⟨cause, hrefuses⟩⟩
    · exact Or.inl ⟨hticking, hspares hends⟩
    · exact Or.inr (Or.inl hflushing)
    · exact Or.inr (Or.inr ⟨hbase, Or.inl hdone⟩)
    · exact Or.inr (Or.inr ⟨hbase,
        Or.inr ⟨⟨cause, hrefuses⟩, hspares (not_endsTick_of_refuses hrefuses)⟩⟩)

/-- A flush that has begun goes on, and in the end the tick is done. -/
theorem Flushing.step (h : Flushing m base e.before)
    (hact : e.before.act e.action = some (e.after, e.progress)) :
    Flushing m base e.after ∨ e.after.stack = base ∧ e.progress = .done := by
  obtain ⟨above, frame, g, hstack, hframe, hg⟩ := h
  rcases stays_or_returns hact hstack with ⟨more, hmore, -⟩ | ⟨outcome, ha, htop, hafter, hresult⟩
  · exact Or.inl ⟨_, frame, g, hmore, hframe, hg⟩
  · have hprogress : e.progress = (e.before.world.resume outcome frame).2 := congrArg Prod.snd hresult
    cases frame with
    | notifying k notice rest groups =>
        obtain rfl := Option.some.inj hframe
        cases rest with
        | cons next rest =>
            refine Or.inl ⟨[], .notifying k next rest groups, k, ?_, rfl, hg⟩
            rw [hafter, hprogress]
            rfl
        | nil =>
            rcases World.flush_progress e.before.world k.manager groups with
                hdone | ⟨number, next, others, later, hcalls⟩
            · have hnow := hprogress.trans hdone
              refine Or.inr ⟨?_, hnow⟩
              rw [hafter, hnow]
              rfl
            · have hnow := hprogress.trans hcalls
              refine Or.inl ⟨[], .notifying ⟨k.manager, number⟩ next others later, _, ?_, rfl, hg⟩
              rw [hafter, hnow]
              rfl
    | _ => cases hframe

theorem head?_snoc (h : events ≠ []) (e : Event) : (events ++ [e]).head? = events.head? := by
  cases events with
  | nil => exact absurd rfl h
  | cons first rest => rfl

/-- How far a tick has come that is not answered yet. -/
theorem progress_of_call {time : Time} (h : Runs s mid t)
    (hwaiting : ∀ e ∈ mid, s.stack.length < e.after.stack.length)
    (hasked : mid ≠ [] → mid.head?.map Event.action = some (.request (.update m time)))
    (hexclusive : Exclusive m s.stack) :
    Exclusive m t.stack ∧
      (mid = [] ∧ t = s ∨ Ticking m s.stack t ∧ (∀ e ∈ mid, e.Spares m) ∨
        Flushing m s.stack t) := by
  induction h with
  | refl => exact ⟨hexclusive, Or.inl ⟨rfl, rfl⟩⟩
  | @step events t u hruns a p hact ih =>
      let e : Event := ⟨t, a, p, u⟩
      have hlonger : s.stack.length < u.stack.length :=
        hwaiting e (List.mem_append_right _ (List.mem_singleton.2 rfl))
      have hbase : ¬ u.stack = s.stack := fun heq => by
        rw [heq] at hlonger
        exact Nat.lt_irrefl _ hlonger
      obtain ⟨hstack, hcases⟩ := ih (fun e he => hwaiting e (List.mem_append_left _ he))
        fun hne => by
          rw [← hasked (by simp), head?_snoc hne]
      refine ⟨hstack.step (e := e) hact, Or.inr ?_⟩
      rcases hcases with ⟨rfl, rfl⟩ | ⟨hticking, hspares⟩ | hflushing
      · -- the request itself
        obtain rfl : a = .request (.update m time) := by simpa using hasked
        obtain ⟨-, hafter, hprogress⟩ := act_request hact
        have houtcome : World.TickOutcome m t.world (u.world, p) := by
          have hserved : (u.world, p) = t.world.update m time (t.engaged m) := by
            rw [hprogress, hafter]
            rfl
          rw [hserved]
          exact World.tickOutcome_update _ m time _
        have hpushed : u.stack = p.pushed ++ t.stack := by rw [hafter]
        rcases ticking_of_tickOutcome (e := e) hpushed houtcome with
            ⟨hticking, hends⟩ | hflushing | ⟨hsame, -⟩
        · refine Or.inl ⟨hticking, fun f hf => ?_⟩
          obtain rfl := List.mem_singleton.1 hf
          exact (turn_of_act hact m).spares hends fun _ _ _ _ _ _ => ⟨_, rfl⟩
        · exact Or.inr hflushing
        · exact absurd hsame hbase
      · rcases hticking.step (e := e) hstack hact with ⟨hmore, hspared⟩ | hflushing | ⟨hsame, -⟩
        · refine Or.inl ⟨hmore, fun f hf => ?_⟩
          rcases List.mem_append.1 hf with hold | hlast
          · exact hspares f hold
          · rw [List.mem_singleton.1 hlast]
            exact hspared
        · exact Or.inr hflushing
        · exact absurd hsame hbase
      · rcases hflushing.step (e := e) hact with hmore | ⟨hsame, -⟩
        · exact Or.inr hmore
        · exact absurd hsame hbase

/-- Every event of a call for a tick that ends in an error spares the manager. -/
theorem spares_of_failed_update {time : Time} {cause : Refusal}
    (h : Call s (.update m time) mid last (.error cause)) (hexclusive : Exclusive m s.stack) :
    ∀ e ∈ mid ++ [last], e.Spares m := by
  obtain ⟨hruns, hact⟩ := h.runs.split
  have herror : last.progress ≠ .done := fun hdone => by
    cases h.answered.symm.trans hdone
  have hasked := h.asked
  obtain ⟨hstack, hcases⟩ := progress_of_call hruns h.waiting
    (fun hne => by rw [← hasked, head?_snoc hne]) hexclusive
  have hback : ¬ s.stack.length < last.after.stack.length := by
    rw [h.returned]
    exact Nat.lt_irrefl _
  have hlast : (∀ e ∈ mid, e.Spares m) ∧ last.Spares m := by
    rcases hcases with ⟨rfl, -⟩ | ⟨hticking, hspares⟩ | hflushing
    · refine ⟨fun e he => absurd he List.not_mem_nil, ?_⟩
      have ha : last.action = .request (.update m time) := by simpa using hasked
      refine (turn_of_act hact m).spares ?_ fun _ _ _ _ _ _ => ⟨_, ha⟩
      rintro ⟨-, hdone | ⟨number, notice, rest, groups, hcalls⟩⟩
      · exact herror hdone
      · cases h.answered.symm.trans hcalls
    · refine ⟨hspares, ?_⟩
      rcases hticking.step hstack hact with ⟨hmore, -⟩ | hflushing | ⟨-, hdone | ⟨-, hspared⟩⟩
      · exact absurd hmore.length_lt hback
      · exact absurd hflushing.length_lt hback
      · exact absurd hdone herror
      · exact hspared
    · rcases hflushing.step hact with hmore | ⟨-, hdone⟩
      · exact absurd hmore.length_lt hback
      · exact absurd hdone herror
  intro e he
  rcases List.mem_append.1 he with hold | hnew
  · exact hlast.1 e hold
  · rw [List.mem_singleton.1 hnew]
    exact hlast.2

/-! ## The law -/

/-- While processors of a manager are in use, whatever is nested in their callbacks, nobody who was
live ceases to be, nobody who was due is forgotten, no listener of the manager is called back, its
groups gather their changes from the same members as before, and it refuses every tick without any
change.  And so it is through the whole of a call for a tick that ends in an error: it has removed
nobody and told nobody, and all is there for the next tick. -/
theorem ticks_exclude_processors {pre : List Event} (h : Runs start pre s) (m : ManagerId) :
    (∀ events t, Runs s events t → s.engaged m = true → (∀ e ∈ events, e.after.engaged m = true) →
      World.Steady m (fun x => ∃ e ∈ events, e.Asks m x) s.world t.world ∧
        (∀ e ∈ events, ∀ frame ∈ e.progress.pushed, ∀ g, frame.notifies? = some g →
          g.manager ≠ m) ∧
        ∀ e ∈ events, ∀ time, e.action = .request (.update m time) → e.after = e.before ∧
          (e.progress = .refuses .reentrant ∨ e.progress = .refuses .shutDown)) ∧
    ∀ time mid last cause, Call s (.update m time) mid last (.error cause) →
      World.Steady m (fun x => ∃ e ∈ mid ++ [last], e.Asks m x) s.world last.after.world ∧
        ∀ e ∈ mid ++ [last], ∀ frame ∈ e.progress.pushed, ∀ g, frame.notifies? = some g →
          g.manager ≠ m := by
  have hexclusive := exclusive_of_runs h m
  refine ⟨fun events t hruns hbefore hengaged => ?_, fun time mid last cause hcall => ?_⟩
  · have hall := spares_of_always_engaged hruns hexclusive hbefore hengaged
    refine ⟨steady_of_spares hruns fun e he => (hall e he).2, fun e he => (hall e he).2.silent, ?_⟩
    exact fun e he time ha => refuses_update (hruns.act_of_mem he) (hall e he).1 ha
  · have hall := spares_of_failed_update hcall hexclusive
    exact ⟨steady_of_spares hcall.runs hall, fun e he => (hall e he).silent⟩

end EntityStore.Session

namespace EntityStore.Session

attribute [local instance] Host.plain

/-- Actions that make a manager, initialise its one processor, make an entity and ask for the removal
of it. -/
def oneDue : List Action :=
  [.request (.makeManager .default), .request (.registerProcessor ⟨0⟩ ⟨"P", .custom⟩),
    .request (.initialise ⟨0⟩), .finish (.ok ()), .request (.create ⟨0⟩ []),
    .request (.scheduleRemoval ⟨0⟩ 1)]

/-- In its update the processor asks for another tick, which is refused, and then it fails.  The
entity is live and due all the time. -/
theorem due_after_failed_update :
    let r : Request := .update ⟨0⟩ Time.start
    let s := (start.follow oneDue).2
    let t := (start.follow (oneDue ++ [.request r])).2
    let v := (s.follow [.request r, .request r, .finish (.error "no")]).2
    t.engaged ⟨0⟩ = true ∧ t.after r = t ∧
      s.world.isAlive ⟨0⟩ 1 = true ∧ 1 ∈ (s.world.manager ⟨0⟩).pending ∧
      v.world.isAlive ⟨0⟩ 1 = true ∧ 1 ∈ (v.world.manager ⟨0⟩).pending := by
  intro r s t v
  -- the request inside the callback
  let nested : Event := ⟨t, .request r, (t.world.serve t.engaged t.told r).2, t.after r⟩
  have hengaged : t.engaged ⟨0⟩ = true := by decide +kernel
  have hstill : ∀ e ∈ [nested], e.after.engaged ⟨0⟩ = true := by decide +kernel
  obtain ⟨hused, -⟩ := ticks_exclude_processors (runs_follow start (oneDue ++ [.request r])) ⟨0⟩
  obtain ⟨-, -, hrefused⟩ := hused [nested] (t.after r)
    (Runs.refl.step (.request r) _ (t.act_eq_after rfl)) hengaged hstill
  have hsame : t.after r = t := (hrefused nested (List.mem_singleton.2 rfl) _ rfl).1
  -- the call of the tick
  let mid := (s.follow [.request r, .request r]).1
  let u := (s.follow [.request r, .request r]).2
  let last : Event := ⟨u, .finish (.error "no"), .refuses (.processor "P" "no"), v⟩
  have hact : last.before.act last.action = some (last.after, last.progress) := by rfl
  have hcall : Call s r mid last (.error (.manager (.processor "P" "no"))) :=
    { runs := (runs_follow s [.request r, .request r]).step last.action last.progress hact
      asked := by rfl
      waiting := by decide +kernel
      returned := by rfl
      answered := by rfl }
  have hlive : s.world.isAlive ⟨0⟩ 1 = true := by decide +kernel
  have hdue : 1 ∈ (s.world.manager ⟨0⟩).pending := by decide +kernel
  obtain ⟨-, hfailed⟩ := ticks_exclude_processors (runs_follow start oneDue) ⟨0⟩
  obtain ⟨hsteady, -⟩ := hfailed _ mid last _ hcall
  exact ⟨hengaged, hsame, hlive, hdue, hsteady.live 1 hlive, (hsteady.pending 1).2 (Or.inl hdue)⟩

end EntityStore.Session
