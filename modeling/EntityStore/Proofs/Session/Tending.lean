import EntityStore.Proofs.Session.LifeSteps

/-!
# Whole lives

What a history says of the life of a manager.

* `Tended`: the processors that were ever initialised are the first ones in the order of
  registration, each of them once, and as many as the manager has counted; those that wait for an
  initialisation that is under way are the others.
* `Over`: a manager that is shut down while none of its processors is being initialised stays so.
* `Stage`: either no processor was shut down so far, or the manager is shut down for good and its
  initialised processors were shut down or wait for it, in order.
-/

namespace EntityStore.Session

variable [Host]

/-- The processors of a manager that were initialised, in order. -/
def initsOf (m : ManagerId) (events : List Event) : List ProcessorId :=
  events.flatMap fun e => e.inits m

/-- The processors of a manager that were shut down, in order. -/
def stopsOf (m : ManagerId) (events : List Event) : List ProcessorId :=
  events.flatMap fun e => e.stops m

/-- Is a manager shut down? -/
def Down (m : ManagerId) (s : Session) : Prop := (s.world.manager m).lifecycle = .shutDown

/-- A request to shut a manager down was refused, and the manager has been shut down ever since. -/
def Abandoned (m : ManagerId) (events : List Event) : Prop :=
  ∃ earlier e later, events = earlier ++ e :: later ∧ e.RefusesStop m ∧ ∀ f ∈ later, f.after.Down m

variable {m : ManagerId} {e : Event} {events more : List Event} {s t : Session}

theorem initsOf_append (m : ManagerId) (events more : List Event) :
    initsOf m (events ++ more) = initsOf m events ++ initsOf m more :=
  List.flatMap_append

theorem stopsOf_append (m : ManagerId) (events more : List Event) :
    stopsOf m (events ++ more) = stopsOf m events ++ stopsOf m more :=
  List.flatMap_append

theorem initsOf_snoc (m : ManagerId) (events : List Event) (e : Event) :
    initsOf m (events ++ [e]) = initsOf m events ++ e.inits m := by
  simp [initsOf]

theorem stopsOf_snoc (m : ManagerId) (events : List Event) (e : Event) :
    stopsOf m (events ++ [e]) = stopsOf m events ++ e.stops m := by
  simp [stopsOf]

theorem abandoned_snoc :
    Abandoned m (events ++ [e]) ↔ e.RefusesStop m ∨ Abandoned m events ∧ e.after.Down m :=
  lately_snoc (P := fun e => e.RefusesStop m) (Q := fun e => e.after.Down m)

/-! ## Who is initialised -/

/-- What there is to say about the initialisation of a manager's processors after some events. -/
structure Tended (m : ManagerId) (events : List Event) (s : Session) : Prop where
  /-- The processors that were initialised are those that are counted. -/
  counted : initsOf m events =
    (s.world.life m).processors.take (s.world.life m).initialised
  /-- No more are counted than there are. -/
  within : (s.world.life m).initialised ≤ (s.world.life m).processors.length
  /-- The others wait, if an initialisation is under way. -/
  waiting : toInit m s.stack = [] ∨
    toInit m s.stack = [(s.world.life m).processors.drop (s.world.life m).initialised]
  /-- Only a manager that was made is initialised. -/
  made : toInit m s.stack ≠ [] → m.place < s.world.managers.length
  /-- No processor is registered twice. -/
  nodup : (s.world.life m).processors.Nodup
  /-- Every registered processor was made. -/
  known : ∀ p ∈ (s.world.life m).processors, p.place < s.world.processors.length

theorem tended_start (m : ManagerId) : Tended m [] start := by
  have hlife : start.world.life m = ⟨.shutDown, [], 0⟩ :=
    World.life_of_length_le (Nat.zero_le _)
  refine ⟨?_, ?_, Or.inl rfl, fun h => absurd rfl h, ?_, ?_⟩
  · rw [hlife]
    rfl
  · rw [hlife]
    exact Nat.le_refl 0
  · rw [hlife]
    exact List.nodup_nil
  · rw [hlife]
    exact fun p hp => absurd hp List.not_mem_nil

/-- Whose callback runs while a manager is initialised, and who follows, are those that are left. -/
theorem Tended.top (h : Tended m events s) {p : ProcessorId} {waiting : List ProcessorId}
    {next : Option Time} {below : List Frame}
    (hstack : s.stack = .initialising m p waiting next :: below) :
    (s.world.life m).processors.drop (s.world.life m).initialised = p :: waiting ∧
      toInit m below = [] := by
  have hsome : toInit m s.stack = (p :: waiting) :: toInit m below := by
    rw [hstack]
    simp [toInit, frameInits?]
  rcases h.waiting with hnone | hone
  · rw [hsome] at hnone
    exact absurd hnone (List.cons_ne_nil _ _)
  · rw [hsome] at hone
    exact ⟨(List.cons.inj hone).1.symm, (List.cons.inj hone).2⟩

/-- A step of the initialisation: some of those that are left are initialised. -/
theorem Tended.advance (h : Tended m events e.before) {next : Option Time} {rest : List ProcessorId}
    {below : List Frame}
    (hsplit : (e.before.world.life m).processors.drop (e.before.world.life m).initialised =
      e.inits m ++ rest)
    (houtcome : World.InitOutcome m next (e.before.world.life m) (e.inits m) rest
      (e.after.world.life m) e.progress)
    (hstack : e.after.stack = e.progress.pushed ++ below) (hbelow : toInit m below = [])
    (hmade : m.place < e.before.world.managers.length)
    (hgrows : e.before.world.Grows e.after.world) : Tended m (events ++ [e]) e.after := by
  have hlength := congrArg List.length hsplit
  rw [List.length_drop, List.length_append] at hlength
  have hwithin := h.within
  have hprocessors := houtcome.processors
  have hcount := houtcome.initialised
  have hafter : (e.after.world.life m).processors.drop (e.after.world.life m).initialised =
      rest := by
    rw [hprocessors, hcount, ← List.drop_drop, hsplit, List.drop_left]
  constructor
  · rw [initsOf_snoc, h.counted, hprocessors, hcount, List.take_add, hsplit, List.take_left]
  · rw [hprocessors, hcount]
    omega
  · rw [hafter, hstack, toInit_append, hbelow]
    rcases houtcome.pushed with huntended | ⟨q, others, hrest, hcalls⟩
    · refine Or.inl ?_
      rw [List.append_nil]
      exact toInit_of_tended fun frame hframe => by rw [huntended frame hframe]; exact nofun
    · refine Or.inr ?_
      rw [hcalls, hrest]
      simp [Progress.pushed, toInit, frameInits?]
  · exact fun _ => Nat.lt_of_lt_of_le hmade hgrows.managers
  · rw [hprocessors]
    exact h.nodup
  · rw [hprocessors]
    exact fun p hp => Nat.lt_of_lt_of_le (h.known p hp) hgrows.processors

/-- An event that initialises nobody and leaves the processors of a manager. -/
theorem Tended.keep (h : Tended m events e.before)
    (hprocessors : (e.after.world.life m).processors = (e.before.world.life m).processors)
    (hcount : (e.after.world.life m).initialised = (e.before.world.life m).initialised)
    (hinit : toInit m e.after.stack = [] ∨ toInit m e.after.stack = toInit m e.before.stack)
    (hinits : e.inits m = []) (hgrows : e.before.world.Grows e.after.world) :
    Tended m (events ++ [e]) e.after := by
  constructor
  · rw [initsOf_snoc, hinits, List.append_nil, hprocessors, hcount]
    exact h.counted
  · rw [hprocessors, hcount]
    exact h.within
  · rw [hprocessors, hcount]
    rcases hinit with hnone | hsame
    · exact Or.inl hnone
    · rw [hsame]
      exact h.waiting
  · intro hsome
    rcases hinit with hnone | hsame
    · exact absurd hnone hsome
    · rw [hsame] at hsome
      exact Nat.lt_of_lt_of_le (h.made hsome) hgrows.managers
  · rw [hprocessors]
    exact h.nodup
  · rw [hprocessors]
    exact fun p hp => Nat.lt_of_lt_of_le (h.known p hp) hgrows.processors

theorem Tended.step (h : Tended m events e.before)
    (hact : e.before.act e.action = some (e.after, e.progress)) :
    Tended m (events ++ [e]) e.after := by
  have hgrows := grows_of_act hact
  cases lifeStep_of_act h.made hact with
  | aside hlife hinit hstop hinits hstops hgranted =>
      exact h.keep (by rw [hlife]) (by rw [hlife]) (Or.inr hinit) hinits hgrows
  | made habsent hlife hinit hstop hinits hstops hgranted =>
      have hold := World.life_of_length_le habsent
      exact h.keep (by rw [hlife, hold]) (by rw [hlife, hold]) (Or.inr hinit) hinits hgrows
  | registered p hnew hmade hsetup hlife hfree hafter hinits hstops hgranted =>
      have hwithin := h.within
      constructor
      · rw [initsOf_snoc, hinits, List.append_nil, hlife]
        dsimp only
        rw [List.take_append_of_le_length hwithin]
        exact h.counted
      · rw [hlife]
        simp only [List.length_append, List.length_singleton]
        omega
      · rw [hafter]
        exact Or.inl hfree
      · rw [hafter]
        exact fun hsome => absurd hfree hsome
      · rw [hlife]
        dsimp only
        refine List.nodup_append.2 ⟨h.nodup, by simp, ?_⟩
        intro a ha b hb hab
        -- the new processor is none of those that were made before
        have hlt := h.known a ha
        rw [hab, List.mem_singleton.1 hb, hnew] at hlt
        exact absurd hlt (Nat.lt_irrefl _)
      · rw [hlife]
        intro q hq
        rcases List.mem_append.1 hq with hold | hlast
        · exact Nat.lt_of_lt_of_le (h.known q hold) hgrows.processors
        · rw [List.mem_singleton.1 hlast]
          exact hmade
  | begun next rest hsetup hfree hsplit houtcome hstack hstops hgranted =>
      have hmade : m.place < e.before.world.managers.length := by
        apply World.lt_length_of_lifecycle
        rw [show (e.before.world.manager m).lifecycle = .setup from hsetup]
        exact nofun
      exact h.advance hsplit houtcome hstack hfree hmade hgrows
  | resumed p waiting rest next below haction hstack hsplit houtcome hafter hstops hgranted =>
      obtain ⟨hleft, hbelow⟩ := h.top hstack
      have hmade : m.place < e.before.world.managers.length := by
        apply h.made
        rw [hstack]
        simp [toInit, frameInits?]
      exact h.advance (hleft.trans hsplit) houtcome hafter hbelow hmade hgrows
  | failed p waiting next below message haction hstack hlife hafter hinits hstops hgranted =>
      refine h.keep (by rw [hlife]) (by rw [hlife]) (Or.inl ?_) hinits hgrows
      rw [hafter]
      exact (h.top hstack).2
  | refused hopen hrefused hlife hafter hinits hstops =>
      exact h.keep (by rw [hlife]) (by rw [hlife]) (Or.inr (by rw [hafter])) hinits hgrows
  | stopping hopen hfree hlife hsplit hpushed hstack hinits hgranted =>
      refine h.keep (by rw [hlife]) (by rw [hlife]) (Or.inl ?_) hinits hgrows
      rw [hstack, toInit_append, hpushed, hfree]
      rfl
  | stopped p waiting failure below hstack hlife hsplit hpushed hafter hinits hgranted =>
      refine h.keep (by rw [hlife]) (by rw [hlife]) (Or.inr ?_) hinits hgrows
      rw [hafter, toInit_append, hpushed, hstack]
      rfl

theorem tended_of_runs (h : Runs start events s) (m : ManagerId) : Tended m events s :=
  h.induct (P := Tended m) (tended_start m) fun _ _ _ htended hact => htended.step hact

/-- The processors that follow in an initialisation are not shut down. -/
theorem toStop_of_outcome {next : Option Time} {old new : Life} {done rest : List ProcessorId}
    {p : Progress} (h : World.InitOutcome m next old done rest new p) :
    toStop m p.pushed = [] := by
  rcases h.pushed with huntended | ⟨q, others, -, rfl⟩
  · exact toStop_of_tended fun frame hframe => by rw [huntended frame hframe]; exact nofun
  · rfl

/-! ## Shut down for good -/

theorem down_iff : s.Down m ↔ (s.world.life m).lifecycle = .shutDown := Iff.rfl

theorem toStop_top {p : ProcessorId} {waiting : List ProcessorId} {failure : Option ManagerError}
    {below : List Frame} :
    toStop m (.stopping m p waiting failure :: below) = waiting ++ toStop m below := by
  simp [toStop, frameStops]

/-- A manager that is shut down, and none of its processors is being initialised. -/
structure Over (m : ManagerId) (s : Session) : Prop where
  made : m.place < s.world.managers.length
  down : s.Down m
  free : toInit m s.stack = []

/-- Nothing is initialised any more, and only those that wait are shut down. -/
theorem Over.step (h : Over m e.before)
    (hact : e.before.act e.action = some (e.after, e.progress)) :
    Over m e.after ∧ e.inits m = [] ∧
      e.stops m ++ toStop m e.after.stack = toStop m e.before.stack ∧
      e.after.world.life m = e.before.world.life m ∧ ¬ e.RefusesStop m := by
  have hmade := Nat.lt_of_lt_of_le h.made (grows_of_act hact).managers
  have hdown := h.down
  have hfree := h.free
  have htop : ∀ {p waiting next below},
      e.before.stack ≠ .initialising m p waiting next :: below := by
    intro p waiting next below hstack
    rw [hstack] at hfree
    simp [toInit, frameInits?] at hfree
  cases lifeStep_of_act (fun _ => h.made) hact with
  | aside hlife hinit hstop hinits hnone hgranted =>
      refine ⟨⟨hmade, ?_, hinit.trans hfree⟩, hinits, ?_, hlife, hgranted⟩
      · rw [down_iff, hlife]
        exact hdown
      · rw [hnone, hstop]
        rfl
  | made habsent => exact absurd h.made (Nat.not_lt_of_le habsent)
  | registered p hnew hmade hsetup => cases hsetup.symm.trans hdown
  | begun next rest hsetup => cases hsetup.symm.trans hdown
  | resumed p waiting rest next below haction hstack => exact absurd hstack htop
  | failed p waiting next below message haction hstack => exact absurd hstack htop
  | refused hopen => exact absurd hdown hopen
  | stopping hopen => exact absurd hdown hopen
  | stopped p waiting failure below hstack hlife hwaiting hpushed hafter hinits hgranted =>
      refine ⟨⟨hmade, ?_, ?_⟩, hinits, ?_, hlife, hgranted⟩
      · rw [down_iff, hlife]
        exact hdown
      · rw [hstack] at hfree
        rw [hafter, toInit_append, hpushed]
        exact hfree
      · rw [hafter, toStop_append, hstack, toStop_top, ← List.append_assoc, ← hwaiting]

theorem Over.runs (h : Over m s) (hruns : Runs s events t) :
    Over m t ∧ (∀ e ∈ events, e.after.Down m) ∧ initsOf m events = [] ∧
      stopsOf m events ++ toStop m t.stack = toStop m s.stack := by
  induction hruns with
  | refl => exact ⟨h, fun e he => absurd he List.not_mem_nil, rfl, rfl⟩
  | @step events t u _ a p hact ih =>
      obtain ⟨hover, hdown, hinits, hstops⟩ := ih
      obtain ⟨hafter, hnone, hsplit, -⟩ := hover.step (e := ⟨t, a, p, u⟩) hact
      refine ⟨hafter, fun e he => ?_, ?_, ?_⟩
      · rcases List.mem_append.1 he with hold | hlast
        · exact hdown e hold
        · rw [List.mem_singleton.1 hlast]
          exact hafter.down
      · rw [initsOf_snoc, hinits, hnone]
        rfl
      · rw [stopsOf_snoc, List.append_assoc, hsplit, hstops]

/-! ## Who is shut down -/

/-- How far the shut-down of a manager has come after some events. -/
inductive Stage (m : ManagerId) (events : List Event) (s : Session) : Prop where
  /-- No processor was shut down and none waits for it.  If the manager is shut down all the same,
  it has no processors or its shut-down was refused. -/
  | kept (hstops : stopsOf m events = []) (hwaiting : toStop m s.stack = [])
      (hdown : s.Down m → (s.world.life m).processors = [] ∨ Abandoned m events)
      (habandoned : Abandoned m events → s.Down m)
  /-- The manager is shut down for good, and its initialised processors were shut down or wait for
  it. -/
  | ended (hover : Over m s)
      (hsplit : stopsOf m events ++ toStop m s.stack =
        (s.world.life m).processors.take (s.world.life m).initialised)
      (hkept : ¬ Abandoned m events)

theorem stage_start (m : ManagerId) : Stage m [] start := by
  have hlife : start.world.life m = ⟨.shutDown, [], 0⟩ :=
    World.life_of_length_le (Nat.zero_le _)
  refine .kept rfl rfl (fun _ => Or.inl ?_) fun _ => congrArg Life.lifecycle hlife
  rw [hlife]

/-- An event that shuts nobody down before any processor of the manager was shut down. -/
theorem Stage.keep (hstops : stopsOf m events = []) (hnone : e.stops m = [])
    (hwaiting : toStop m e.after.stack = []) (hgranted : ¬ e.RefusesStop m)
    (hdown : e.after.Down m → (e.after.world.life m).processors = [] ∨ Abandoned m events) :
    Stage m (events ++ [e]) e.after := by
  refine .kept ?_ hwaiting (fun hafter => ?_) fun habandoned => ?_
  · rw [stopsOf_snoc, hstops, hnone]
    rfl
  · exact (hdown hafter).imp id fun hold => abandoned_snoc.2 (Or.inr ⟨hold, hafter⟩)
  · exact ((abandoned_snoc.1 habandoned).resolve_left hgranted).2

/-- An event when no processor was shut down so far. -/
theorem Stage.step_of_kept (hstops : stopsOf m events = []) (hwaiting : toStop m e.before.stack = [])
    (hdown : e.before.Down m → (e.before.world.life m).processors = [] ∨ Abandoned m events)
    (habandoned : Abandoned m events → e.before.Down m) (htended : Tended m events e.before)
    (hact : e.before.act e.action = some (e.after, e.progress)) :
    Stage m (events ++ [e]) e.after := by
  cases lifeStep_of_act htended.made hact with
  | aside hlife hinit hstop hinits hnone hgranted =>
      refine .keep hstops hnone (hstop.trans hwaiting) hgranted ?_
      rw [down_iff, hlife]
      exact hdown
  | made habsent hlife hinit hstop hinits hnone hgranted =>
      refine .keep hstops hnone (hstop.trans hwaiting) hgranted ?_
      rw [down_iff, hlife]
      exact nofun
  | registered p hnew hmade hsetup hlife hfree hafter hinits hnone hgranted =>
      refine .keep hstops hnone (by rw [hafter]; exact hwaiting) hgranted ?_
      rw [down_iff, hlife]
      exact nofun
  | begun next rest hsetup hfree hsplit houtcome hstack hnone hgranted =>
      refine .keep hstops hnone ?_ hgranted ?_
      · rw [hstack, toStop_append, hwaiting, toStop_of_outcome houtcome]
        rfl
      · rcases houtcome.lifecycle with ⟨hrunning, -⟩ | ⟨hsame, -⟩
        · rw [down_iff, hrunning]
          exact nofun
        · rw [down_iff, hsame, hsetup]
          exact nofun
  | resumed p waiting rest next below haction hstack hsplit houtcome hafter hnone hgranted =>
      refine .keep hstops hnone ?_ hgranted ?_
      · rw [hstack] at hwaiting
        rw [hafter, toStop_append, toStop_of_outcome houtcome]
        exact hwaiting
      · rcases houtcome.lifecycle with ⟨hrunning, -⟩ | ⟨hsame, -⟩
        · rw [down_iff, hrunning]
          exact nofun
        · rw [down_iff, hsame, houtcome.processors]
          exact hdown
  | failed p waiting next below message haction hstack hlife hafter hinits hnone hgranted =>
      refine .keep hstops hnone ?_ hgranted ?_
      · rw [hstack] at hwaiting
        rw [hafter]
        exact hwaiting
      · rw [down_iff, hlife]
        exact hdown
  | refused hopen hrefused hlife hafter hinits hnone =>
      have hnow : Abandoned m (events ++ [e]) := abandoned_snoc.2 (Or.inl hrefused)
      refine .kept ?_ ?_ (fun _ => Or.inr hnow) fun _ => ?_
      · rw [stopsOf_snoc, hstops, hnone]
        rfl
      · rw [hafter]
        exact hwaiting
      · rw [down_iff, hlife]
  | stopping hopen hfree hlife hsplit hpushed hstack hinits hgranted =>
      have hmade := World.lt_length_of_lifecycle hopen
      refine .ended ⟨Nat.lt_of_lt_of_le hmade (grows_of_act hact).managers, ?_, ?_⟩ ?_ ?_
      · rw [down_iff, hlife]
      · rw [hstack, toInit_append, hpushed, hfree]
        rfl
      · rw [stopsOf_snoc, hstops, hstack, toStop_append, hwaiting, List.append_nil, hlife]
        exact hsplit.symm
      · exact fun hnow => hopen (habandoned ((abandoned_snoc.1 hnow).resolve_left hgranted).1)
  | stopped p waiting failure below hstack hlife hsplit hpushed hafter hinits hgranted =>
      -- nobody waits, so there is nobody left to shut down
      rw [hstack, toStop_top, List.append_eq_nil_iff] at hwaiting
      rw [hwaiting.1] at hsplit
      have hnone := List.append_eq_nil_iff.1 hsplit.symm
      refine .keep hstops hnone.1 ?_ hgranted ?_
      · rw [hafter, toStop_append, hnone.2, hwaiting.2]
        rfl
      · rw [down_iff, hlife]
        exact hdown

theorem Stage.step (h : Stage m events e.before) (htended : Tended m events e.before)
    (hact : e.before.act e.action = some (e.after, e.progress)) :
    Stage m (events ++ [e]) e.after := by
  cases h with
  | kept hstops hwaiting hdown habandoned =>
      exact .step_of_kept hstops hwaiting hdown habandoned htended hact
  | ended hover hsplit hkept =>
      obtain ⟨hafter, -, hsame, hlife, hgranted⟩ := hover.step hact
      refine .ended hafter ?_ fun hnow => ?_
      · rw [stopsOf_snoc, List.append_assoc, hsame, hlife]
        exact hsplit
      · exact hkept ((abandoned_snoc.1 hnow).resolve_left hgranted).1

theorem stage_of_runs (h : Runs start events s) (m : ManagerId) : Stage m events s :=
  h.induct (P := Stage m) (stage_start m) fun _ _ hruns hstage hact =>
    hstage.step (tended_of_runs hruns m) hact

end EntityStore.Session
