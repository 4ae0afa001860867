import EntityStore.Proofs.Session.Registration
import EntityStore.Proofs.Session.Removal
import EntityStore.Proofs.Session.Rounds
import EntityStore.Proofs.World.Sparing

/-!
# A visitor visits its members, and they still belong

The members of a group are taken when the visits begin.  What the callbacks do then changes the world
between two visits, yet nobody who is still to be visited ceases to belong.

* `prepared_of_runs`: a visitor that is initialised has its group from a manager that knows its kinds.
* `Mustered`: the world in which the members are taken.
* `Fair`: what is asked of the callbacks.
* `Standing`, `Standing.step`: how far a round has come, and that every event leads on from there.
* `tour_of_runs`: whom a visitor visits in a round, in which order, and when the last callback runs.
-/

namespace EntityStore

variable [Host]

open World

/-- Kinds are made before they are registered, and a processor that is handed over has no group, or
it was given one by a manager that knew its kinds. -/
def Assembled : Rule := fun w q => KindsMade w q ∧ w.admits q = true

instance (w : World) (q : Request) : Decidable (Assembled w q) :=
  inferInstanceAs (Decidable (KindsMade w q ∧ w.admits q = true))

namespace Session

variable {s t : Session} {e b : Event} {events round : List Event} {r : Round} {w u : World}
  {visitor : Visitor} {g : GroupRef} {stage other : VisitStage}

/-! ## Visitors are prepared -/

theorem refits_of_act (hfollows : e.before.Follows Assembled e.action)
    (hact : e.before.act e.action = some (e.after, e.progress)) :
    Refits e.before.world e.after.world := by
  cases haction : e.action with
  | request q =>
      rw [haction] at hact hfollows
      obtain ⟨-, hafter, -⟩ := act_request hact
      rw [hafter]
      exact refits_serve e.before.world e.before.engaged e.before.told hfollows.2
  | finish outcome =>
      rw [haction] at hact
      obtain ⟨frame, stack, -, hafter, -⟩ := act_finish hact
      rw [hafter]
      exact refits_resume e.before.world outcome frame

/-- A manager forgets no kind. -/
theorem kinds_subset_of_act (hw : e.before.world.Wired)
    (hact : e.before.act e.action = some (e.after, e.progress)) (m : ManagerId) :
    (e.before.world.manager m).kinds ⊆ (e.after.world.manager m).kinds := by
  by_cases hregister : ∃ n k, e.action = .request (.registerKind n k)
  · obtain ⟨n, k, haction⟩ := hregister
    rw [haction] at hact
    obtain ⟨hworld, -, -⟩ := act_answered Granted.number hact rfl
    rw [hworld]
    rcases registered_or_same e.before.world n k with hsame | ⟨-, -, hkind⟩
    · rw [hsame]
      exact List.Subset.refl _
    · rw [hkind, manager_withKind]
      split
      · rename_i hm
        rw [hm.1]
        exact List.subset_append_left _ _
      · exact List.Subset.refl _
  · have hrolls := rolls_of_act (fun n k haction => hregister ⟨n, k, haction⟩) hw hact
    rw [hrolls.kinds]
    exact List.Subset.refl _

theorem prepared_of_runs (h : Runs start events s)
    (hrule : ∀ e ∈ events, e.before.Follows Assembled e.action) :
    s.world.Wired ∧ s.world.Prepared := by
  refine ⟨wired_of_runs (fun _ _ _ h => h.1) h hrule, ?_⟩
  induction h with
  | refl =>
      rintro p visitor g ⟨hbody, -⟩
      cases hbody
  | @step events t v hruns a p hact ih =>
      have hpast : ∀ e ∈ events, e.before.Follows Assembled e.action := fun e he =>
        hrule e (List.mem_append_left _ he)
      have hlast := hrule ⟨t, a, p, v⟩ (List.mem_append_right _ (List.mem_singleton.2 rfl))
      have hwired : t.world.Wired := wired_of_runs (fun _ _ _ h => h.1) hruns hpast
      have hrefits : Refits t.world v.world := refits_of_act (e := ⟨t, a, p, v⟩) hlast hact
      intro q visitor g hvisits k hk
      have hknown : k ∈ (t.world.manager g.manager).kinds := by
        rcases hrefits q visitor g hvisits with hbefore | hknows
        · exact ih hpast q visitor g hbefore k hk
        · exact hknows k hk
      exact kinds_subset_of_act (e := ⟨t, a, p, v⟩) hwired hact g.manager hknown

/-! ## The members are taken -/

/-- The members are taken in a world: the turn of a visitor without a callback before the visits has
come, or this callback has ended well. -/
def Mustered (r : Round) (visitor : Visitor) (w : World) (round : List Event) (u : World) : Prop :=
  visitor.hasBefore = false ∧ u = w ∨
    visitor.hasBefore = true ∧ ∃ e ∈ round, e.Returns r .before ∧ e.before.world = u

/-- What is asked of the callbacks of a round.  Those before and after the visits may do anything,
only that it is the same visitor still when the visits begin. -/
structure Fair (r : Round) (visitor : Visitor) (g : GroupRef) (w : World) (round : List Event) :
    Prop where
  /-- One of the callbacks is running all the time. -/
  lasts : ∀ e ∈ round, r.Lasts e.before
  /-- While somebody is visited all requests are harmless. -/
  harmless : ∀ e ∈ round, ∀ x rest, e.before.stack = r.frame (.each x rest) :: r.base →
    e.action.isHarmless visitor.filter = true
  /-- The visitor has its group when the members are taken, -/
  kept : ∀ u, Mustered r visitor w round u → u.Visits r.processor visitor g
  /-- and the members are those who belong. -/
  exact : ∀ u, Mustered r visitor w round u →
    ∀ x, x ∈ (u.group g).members ↔ u.Belongs g.manager visitor.filter x

theorem mustered_snoc : Mustered r visitor w (round ++ [e]) u ↔
    Mustered r visitor w round u ∨
      visitor.hasBefore = true ∧ e.Returns r .before ∧ e.before.world = u := by
  unfold Mustered
  rw [exists_mem_snoc, and_or_left, or_assoc]

theorem Fair.init (h : Fair r visitor g w (round ++ [e])) : Fair r visitor g w round where
  lasts f hf := h.lasts f (List.mem_append_left _ hf)
  harmless f hf := h.harmless f (List.mem_append_left _ hf)
  kept v hv := h.kept v (mustered_snoc.2 (Or.inl hv))
  exact v hv := h.exact v (mustered_snoc.2 (Or.inl hv))

/-- The visit of an entity has ended well. -/
def Returned (r : Round) (round : List Event) (x : EntityId) : Prop :=
  ∃ e ∈ round, ∃ rest, e.Returns r (.each x rest)

theorem returned_snoc {x : EntityId} : Returned r (round ++ [e]) x ↔
    Returned r round x ∨ ∃ rest, e.Returns r (.each x rest) :=
  exists_mem_snoc

theorem Event.Returns.stage_eq (h : e.Returns r stage) (k : e.Returns r other) : stage = other :=
  Round.frame_inj (List.cons.inj (h.1.symm.trans k.1)).1

/-- If the innermost callback is one of a round, it is the one that lasts. -/
theorem innermost_eq {above : List Frame} (h : s.stack = above ++ r.frame stage :: r.base)
    (k : s.stack = r.frame other :: r.base) : stage = other := by
  rw [h] at k
  have hlength := congrArg List.length k
  simp only [List.length_append, List.length_cons] at hlength
  obtain rfl : above = [] := List.eq_nil_of_length_eq_zero (by omega)
  exact Round.frame_inj (List.cons.inj k).1

/-- While one of the other callbacks lasts, no visit is the innermost callback. -/
theorem not_visiting_of_stage {above : List Frame} (h : s.stack = above ++ r.frame stage :: r.base)
    (hstage : stage.visited? = none) :
    ∀ x rest, s.stack ≠ r.frame (.each x rest) :: r.base := by
  intro x rest heach
  obtain rfl := innermost_eq h heach
  cases hstage

theorem mem_visits {x : EntityId} : x ∈ visits r events ↔
    ∃ e ∈ events, ∃ rest, e.stage? r = some (.each x rest) := by
  unfold visits stages
  rw [List.mem_filterMap]
  constructor
  · rintro ⟨stage, hstage, hvisited⟩
    obtain ⟨e, he, hbegins⟩ := List.mem_filterMap.1 hstage
    cases stage with
    | each y rest =>
        cases hvisited
        exact ⟨e, he, rest, hbegins⟩
    | before => cases hvisited
    | after => cases hvisited
  · rintro ⟨e, he, rest, hbegins⟩
    exact ⟨_, List.mem_filterMap.2 ⟨e, he, hbegins⟩, rfl⟩

/-! ## How far a round has come -/

/-- The members have not been taken. -/
structure Waiting (r : Round) (visitor : Visitor) (w : World) (log round : List Event) : Prop where
  none_taken : ∀ u, ¬ Mustered r visitor w round u
  visits : visits r log = []
  after : .after ∉ stages r log
  idle : ∀ e ∈ round, ∀ x rest, e.before.stack ≠ r.frame (.each x rest) :: r.base

/-- The members were taken in a world, and what has happened since is in order. -/
structure Taken (r : Round) (visitor : Visitor) (g : GroupRef) (w : World) (log round : List Event)
    (u : World) : Prop where
  /-- They were taken once. -/
  muster : ∀ v, Mustered r visitor w round v ↔ v = u
  /-- They are those who belonged. -/
  belongs : ∀ x, x ∈ (u.group g).members ↔ u.Belongs g.manager visitor.filter x
  /-- Whoever was visited belonged. -/
  valid : ∀ e ∈ log, ∀ x rest, e.stage? r = some (.each x rest) →
    e.after.world.Belongs g.manager visitor.filter x
  /-- Whoever was made during a visit is no member. -/
  newcomers : ∀ e ∈ round, ∀ y rest, e.before.stack = r.frame (.each y rest) :: r.base →
    ∀ x, e.Creates g.manager x → x ∉ (u.group g).members

/-- Some of the members have been visited, and the visits of the rest are due. -/
structure Due (r : Round) (visitor : Visitor) (g : GroupRef) (w : World) (log round : List Event)
    (u : World) (done rest : List EntityId) : Prop extends Taken r visitor g w log round u where
  members : (u.group g).members.toList = done ++ rest
  visits : visits r log = done
  after : .after ∉ stages r log
  returned : ∀ y, Returned r round y ↔ y ∈ done

/-- The visit of one of the members has begun. -/
structure Visiting (r : Round) (visitor : Visitor) (g : GroupRef) (w : World)
    (log round : List Event) (u : World) (done : List EntityId) (x : EntityId)
    (rest : List EntityId) : Prop extends Taken r visitor g w log round u where
  members : (u.group g).members.toList = done ++ x :: rest
  visits : visits r log = done ++ [x]
  after : .after ∉ stages r log
  returned : ∀ y, Returned r round y ↔ y ∈ done

/-- All members have been visited. -/
structure Visited (r : Round) (visitor : Visitor) (g : GroupRef) (w : World)
    (log round : List Event) (u : World) : Prop extends Taken r visitor g w log round u where
  visits : visits r log = (u.group g).members.toList
  after : .after ∈ stages r log ↔ visitor.hasAfter = true
  returned : ∀ y, Returned r round y ↔ y ∈ (u.group g).members

/-- How far a round has come. -/
inductive Standing (r : Round) (visitor : Visitor) (g : GroupRef) (w : World) (b : Event)
    (round : List Event) (t : Session) : Prop where
  /-- The callback before the visits lasts, or it has failed. -/
  | waiting (h : Waiting r visitor w (b :: round) round)
      (hwhere : (∃ above, t.stack = above ++ r.frame .before :: r.base) ∨ ¬ r.Lasts t)
  /-- A visit lasts, or it has failed. -/
  | visiting (u : World) (done : List EntityId) (x : EntityId) (rest : List EntityId)
      (h : Visiting r visitor g w (b :: round) round u done x rest)
      (hwhere : (t.stack = r.frame (.each x rest) :: r.base ∧
          Spares g.manager visitor.filter u t.world ∧ t.world.Visits r.processor visitor g) ∨
        ¬ r.Lasts t ∧ ∃ e ∈ round, ∃ message, e.Fails r (.each x rest) message)
  /-- The callback after the visits lasts, or the round is over. -/
  | visited (u : World) (h : Visited r visitor g w (b :: round) round u)
      (hwhere : (∃ above, t.stack = above ++ r.frame .after :: r.base) ∨ ¬ r.Lasts t)

section Snoc

variable {log : List Event} {done rest : List EntityId} {x : EntityId}

/-- Nobody is visited in an event in which no stage begins. -/
theorem visits_snoc_none (h : e.stage? r = none) : visits r (log ++ [e]) = visits r log := by
  rw [visits_snoc, h]
  exact List.append_nil _

theorem stages_snoc_none (h : e.stage? r = none) : stages r (log ++ [e]) = stages r log := by
  rw [stages_snoc, h]
  exact List.append_nil _

theorem returned_snoc_none (h : ∀ rest, ¬ e.Returns r (.each x rest)) :
    Returned r (round ++ [e]) x ↔ Returned r round x := by
  rw [returned_snoc, or_iff_left]
  rintro ⟨rest, hback⟩
  exact h rest hback

theorem Waiting.snoc (h : Waiting r visitor w log round) (hstage : e.stage? r = none)
    (hreturns : ¬ e.Returns r .before)
    (hidle : ∀ x rest, e.before.stack ≠ r.frame (.each x rest) :: r.base) :
    Waiting r visitor w (log ++ [e]) (round ++ [e]) where
  none_taken u hu := by
    rcases mustered_snoc.1 hu with hold | hnow
    · exact h.none_taken u hold
    · exact hreturns hnow.2.1
  visits := (visits_snoc_none hstage).trans h.visits
  after := by
    rw [stages_snoc_none hstage]
    exact h.after
  idle := forall_mem_snoc.2 ⟨h.idle, hidle⟩

/-- The log has one more event: whoever is visited in it belongs. -/
theorem Taken.log_snoc (h : Taken r visitor g w log round u)
    (hvalid : ∀ x rest, e.stage? r = some (.each x rest) →
      e.after.world.Belongs g.manager visitor.filter x) :
    Taken r visitor g w (log ++ [e]) round u where
  muster := h.muster
  belongs := h.belongs
  valid := forall_mem_snoc.2 ⟨h.valid, hvalid⟩
  newcomers := h.newcomers

/-- The round has one more event: the members are not taken in it, and nobody is made who is one. -/
theorem Taken.round_snoc (h : Taken r visitor g w log round u) (hreturns : ¬ e.Returns r .before)
    (hnew : ∀ y rest, e.before.stack = r.frame (.each y rest) :: r.base →
      ∀ x, e.Creates g.manager x → x ∉ (u.group g).members) :
    Taken r visitor g w log (round ++ [e]) u where
  muster v := by
    rw [mustered_snoc, or_iff_left fun hnow => hreturns hnow.2.1]
    exact h.muster v
  belongs := h.belongs
  valid := h.valid
  newcomers := forall_mem_snoc.2 ⟨h.newcomers, hnew⟩

/-- Both have one more event, in which no stage begins. -/
theorem Taken.snoc (h : Taken r visitor g w log round u) (hstage : e.stage? r = none)
    (hreturns : ¬ e.Returns r .before)
    (hnew : ∀ y rest, e.before.stack = r.frame (.each y rest) :: r.base →
      ∀ x, e.Creates g.manager x → x ∉ (u.group g).members) :
    Taken r visitor g w (log ++ [e]) (round ++ [e]) u :=
  (h.round_snoc hreturns hnew).log_snoc fun x rest hbegins => by cases hstage.symm.trans hbegins

/-- A visit goes on, or it fails. -/
theorem Visiting.snoc (h : Visiting r visitor g w log round u done x rest)
    (hstage : e.stage? r = none) (hreturns : ∀ stage, ¬ e.Returns r stage)
    (hnew : ∀ y rest, e.before.stack = r.frame (.each y rest) :: r.base →
      ∀ x, e.Creates g.manager x → x ∉ (u.group g).members) :
    Visiting r visitor g w (log ++ [e]) (round ++ [e]) u done x rest where
  toTaken := h.toTaken.snoc hstage (hreturns .before) hnew
  members := h.members
  visits := (visits_snoc_none hstage).trans h.visits
  after := by
    rw [stages_snoc_none hstage]
    exact h.after
  returned y := (returned_snoc_none fun rest => hreturns (.each y rest)).trans (h.returned y)

/-- The callback after the visits goes on, or it ends. -/
theorem Visited.snoc (h : Visited r visitor g w log round u) (hstage : e.stage? r = none)
    (hreturns : ∀ stage, stage ≠ .after → ¬ e.Returns r stage)
    (hidle : ∀ x rest, e.before.stack ≠ r.frame (.each x rest) :: r.base) :
    Visited r visitor g w (log ++ [e]) (round ++ [e]) u where
  toTaken := h.toTaken.snoc hstage (hreturns .before nofun) fun y rest heach =>
    absurd heach (hidle y rest)
  visits := (visits_snoc_none hstage).trans h.visits
  after := by
    rw [stages_snoc_none hstage]
    exact h.after
  returned y := (returned_snoc_none fun rest => hreturns (.each y rest) nofun).trans (h.returned y)

/-- The next visit begins. -/
theorem Due.visit {v : World} (hlog : b :: round = log ++ [e])
    (h : Due r visitor g w log round u done (x :: rest))
    (hspares : Spares g.manager visitor.filter u v) (hv : v.Visits r.processor visitor g)
    (hresult : (e.after, e.progress) = proceed r.base (r.enter v (some (.each x rest)))) :
    Standing r visitor g w b round e.after := by
  obtain ⟨hworld, hstage⟩ := enters_some hresult
  have hmember : x ∈ (u.group g).members := by
    rw [← IdSet.mem_toList, h.members]
    exact List.mem_append_right _ List.mem_cons_self
  have htaken : Taken r visitor g w (log ++ [e]) round u := by
    refine h.toTaken.log_snoc fun y later hbegins => ?_
    cases hstage.symm.trans hbegins
    rw [hworld]
    exact hspares.belongs x ((h.belongs x).1 hmember)
  refine .visiting u done x rest ?_ (Or.inl ?_)
  · rw [hlog]
    refine ⟨htaken, h.members, ?_, ?_, h.returned⟩
    · rw [visits_snoc, h.visits, hstage]
      rfl
    · rw [stages_snoc, hstage]
      simpa using h.after
  · rw [hworld]
    exact ⟨rfl, hspares, hv⟩

/-- There is nobody left to be visited. -/
theorem Due.finish {v : World} (hlog : b :: round = log ++ [e])
    (h : Due r visitor g w log round u done [])
    (hresult : (e.after, e.progress) = proceed r.base (r.enter v (stageAfter? visitor))) :
    Standing r visitor g w b round e.after := by
  have hmembers := h.members
  rw [List.append_nil] at hmembers
  have hall : ∀ y, Returned r round y ↔ y ∈ (u.group g).members := by
    intro y
    rw [h.returned, ← IdSet.mem_toList, hmembers]
  cases hlast : visitor.hasAfter with
  | true =>
      rw [stageAfter?, if_pos hlast] at hresult
      obtain ⟨hworld, hstage⟩ := enters_some hresult
      refine .visited u ?_ (Or.inl ⟨[], by rw [hworld]; rfl⟩)
      rw [hlog]
      refine ⟨h.toTaken.log_snoc fun x rest hbegins => ?_, ?_, ?_, hall⟩
      · cases hstage.symm.trans hbegins
      · rw [visits_snoc, h.visits, hstage, hmembers]
        exact List.append_nil _
      · rw [stages_snoc, hstage]
        simp [hlast]
  | false =>
      rw [stageAfter?, if_neg (by simp [hlast])] at hresult
      obtain ⟨hstage, hover⟩ := enters_none hresult
      refine .visited u ?_ (Or.inr hover)
      rw [hlog]
      refine ⟨h.toTaken.log_snoc fun x rest hbegins => ?_, ?_, ?_, hall⟩
      · cases hstage.symm.trans hbegins
      · rw [visits_snoc_none hstage, h.visits, hmembers]
      · rw [stages_snoc_none hstage, hlast]
        exact iff_of_false h.after nofun

/-- The visits begin or go on, or there is nobody left. -/
theorem Due.enter {v : World} (hlog : b :: round = log ++ [e])
    (h : Due r visitor g w log round u done rest) (hspares : Spares g.manager visitor.filter u v)
    (hv : v.Visits r.processor visitor g)
    (hresult : (e.after, e.progress) = proceed r.base (r.enter v (stageEach? visitor rest))) :
    Standing r visitor g w b round e.after := by
  cases rest with
  | cons x rest => exact h.visit hlog hspares hv hresult
  | nil => exact h.finish hlog hresult

end Snoc

/-! ## One event of a round -/

/-- The first event of a round. -/
theorem standing_of_turn (hturn : b.TurnsTo r w) (hw : w.Visits r.processor visitor g)
    (hfair : Fair r visitor g w []) : Standing r visitor g w b [] b.after := by
  unfold Event.TurnsTo at hturn
  rw [r.turn_eq hw] at hturn
  cases hbefore : visitor.hasBefore with
  | true =>
      have hfirst : w.firstStage? visitor g = some .before := by simp [firstStage?, hbefore]
      rw [hfirst] at hturn
      obtain ⟨hworld, hstage⟩ := enters_some hturn
      refine .waiting ⟨?_, ?_, ?_, List.forall_mem_nil _⟩ (Or.inl ⟨[], by rw [hworld]; rfl⟩)
      · rintro u (⟨hnone, -⟩ | ⟨-, f, hf, -⟩)
        · rw [hbefore] at hnone
          cases hnone
        · exact absurd hf List.not_mem_nil
      · simp [visits, stages, hstage, VisitStage.visited?]
      · simp [stages, hstage]
  | false =>
      have hfirst : w.firstStage? visitor g = stageEach? visitor (w.group g).members.toList := by
        simp [firstStage?, hbefore]
      rw [hfirst] at hturn
      have hmuster : ∀ v, Mustered r visitor w [] v ↔ v = w := by simp [Mustered, hbefore]
      have hdue : Due r visitor g w [] [] w [] (w.group g).members.toList :=
        { muster := hmuster
          belongs := hfair.exact w ((hmuster w).2 rfl)
          valid := List.forall_mem_nil _
          newcomers := List.forall_mem_nil _
          members := rfl
          visits := rfl
          after := List.not_mem_nil
          returned := fun y => by simp [Returned] }
      exact hdue.enter rfl (.refl _ _ w) hw hturn

/-- The callback before the visits ends well. -/
theorem Waiting.muster (h : Waiting r visitor w (b :: round) round) (hreturns : e.Returns r .before)
    (hnext : (e.after, e.progress) = proceed r.base
      (r.enter e.before.world (e.before.world.followingStage? r.processor .before)))
    (hfair : Fair r visitor g w (round ++ [e])) : Standing r visitor g w b (round ++ [e]) e.after := by
  have hbefore : visitor.hasBefore = true := by
    cases hnever : visitor.hasBefore with
    | true => rfl
    | false => exact absurd (Or.inl ⟨hnever, rfl⟩) (h.none_taken w)
  have hmuster : ∀ v, Mustered r visitor w (round ++ [e]) v ↔ v = e.before.world := by
    intro v
    rw [mustered_snoc, or_iff_right (h.none_taken v)]
    exact ⟨fun h => h.2.2.symm, fun h => ⟨hbefore, hreturns, h.symm⟩⟩
  have hidle : ∀ f ∈ round ++ [e], ∀ x rest,
      f.before.stack ≠ r.frame (.each x rest) :: r.base := by
    have hstack : e.before.stack = [] ++ r.frame .before :: r.base := hreturns.1
    exact forall_mem_snoc.2 ⟨h.idle, not_visiting_of_stage hstack rfl⟩
  have hthere := (hmuster e.before.world).2 rfl
  have hkept := hfair.kept _ hthere
  have hdue : Due r visitor g w (b :: round) (round ++ [e]) e.before.world []
      (e.before.world.group g).members.toList :=
    { muster := hmuster
      belongs := hfair.exact _ hthere
      valid := by
        intro f hf x rest hbegins
        have hx := mem_visits.2 ⟨f, hf, rest, hbegins⟩
        rw [h.visits] at hx
        exact absurd hx List.not_mem_nil
      newcomers := fun f hf y rest heach => absurd heach (hidle f hf y rest)
      members := rfl
      visits := h.visits
      after := h.after
      returned := by
        refine fun y => iff_of_false ?_ List.not_mem_nil
        rintro ⟨f, hf, rest, hback⟩
        exact hidle f hf y rest hback.1 }
  rw [followingStage?_eq hkept] at hnext
  exact hdue.enter rfl (.refl _ _ _) hkept hnext

theorem stage?_of_failure {message : String}
    (h : e.progress = r.failure e.before.world message) : e.stage? r = none := by
  refine Option.eq_none_iff_forall_ne_some.2 fun stage hstage => ?_
  have hpushed := pushed_failure r e.before.world message
  rw [← h, (stage?_eq_some.1 hstage).1] at hpushed
  cases hpushed

theorem not_lasts_of_failure (h : e.after = ⟨e.before.world, r.base⟩) : ¬ r.Lasts e.after := by
  intro hlasts
  have hlength := hlasts.length_lt
  rw [h] at hlength
  exact Nat.lt_irrefl _ hlength

/-- An id that is issued during a visit is no member: it was not live, and all members are. -/
theorem not_mem_of_creates (hbelongs : ∀ x, x ∈ (u.group g).members ↔
      u.Belongs g.manager visitor.filter x)
    (hspares : Spares g.manager visitor.filter u e.before.world)
    (hact : e.before.act e.action = some (e.after, e.progress)) {x : EntityId}
    (hcreates : e.Creates g.manager x) : x ∉ (u.group g).members := by
  intro hx
  obtain ⟨kinds, haction, hanswer⟩ := hcreates
  rw [haction] at hact
  obtain ⟨-, -, hprogress⟩ := act_answered Granted.entity hact rfl
  obtain ⟨issued, hcreated, hissued⟩ := eq_ok_of_answer (hprogress.symm.trans hanswer)
  obtain rfl := Granted.entity.inj hissued
  have hlive := (hspares.belongs _ ((hbelongs _).1 hx)).1
  rw [not_isAlive_of_create hcreated] at hlive
  cases hlive

/-- An event during a visit. -/
theorem Visiting.step {done rest : List EntityId} {x : EntityId}
    (h : Visiting r visitor g w (b :: round) round u done x rest)
    (hstack : e.before.stack = r.frame (.each x rest) :: r.base)
    (hspares : Spares g.manager visitor.filter u e.before.world)
    (hv : e.before.world.Visits r.processor visitor g)
    (hact : e.before.act e.action = some (e.after, e.progress))
    (hharmless : e.action.isHarmless visitor.filter = true) (hw : e.before.world.Wired)
    (hprepared : e.before.world.Prepared) :
    Standing r visitor g w b (round ++ [e]) e.after := by
  have hnew : ∀ y later, e.before.stack = r.frame (.each y later) :: r.base →
      ∀ z, e.Creates g.manager z → z ∉ (u.group g).members :=
    fun _ _ _ z => not_mem_of_creates h.belongs hspares hact
  have hinnermost : e.before.stack = [] ++ r.frame (.each x rest) :: r.base := hstack
  cases round_step hact hinnermost with
  | stays above hstays hnone hreturns hrequest =>
      obtain ⟨q, haction⟩ := hrequest hstack
      rw [haction] at hact hharmless
      obtain ⟨-, hworld, hprogress⟩ := act_request hact
      obtain ⟨hanswered, hspared⟩ := spares_serve hw (hprepared r.processor visitor g hv)
        e.before.engaged e.before.told hharmless
      rw [hprogress, hanswered] at hworld
      refine .visiting u done x rest (h.snoc hnone hreturns hnew) (Or.inl ?_)
      rw [hworld]
      refine ⟨hstack, hspares.trans hspared, ?_⟩
      unfold World.Visits World.processor
      rw [hspared.processors]
      exact hv
  | fails message hfails hworld hprogress =>
      have hlast : e ∈ round ++ [e] := List.mem_append_right _ (List.mem_singleton.2 rfl)
      exact .visiting u done x rest
        (h.snoc (stage?_of_failure hprogress) (fun _ hback => hback.not_fails hfails) hnew)
        (Or.inr ⟨not_lasts_of_failure hworld, e, hlast, message, hfails⟩)
  | returns hreturns hnext =>
      have hnotBefore : ¬ e.Returns r .before := by
        intro hback
        cases hback.stage_eq hreturns
      have hdue : Due r visitor g w (b :: round) (round ++ [e]) u (done ++ [x]) rest :=
        { toTaken := h.toTaken.round_snoc hnotBefore hnew
          members := by
            rw [h.members, List.append_assoc]
            rfl
          visits := h.visits
          after := h.after
          returned := fun y => by
            rw [returned_snoc, h.returned, List.mem_append, List.mem_singleton]
            refine or_congr_right ⟨?_, ?_⟩
            · rintro ⟨later, hback⟩
              cases hback.stage_eq hreturns
              rfl
            · rintro rfl
              exact ⟨rest, hreturns⟩ }
      rw [followingStage?_eq hv] at hnext
      exact hdue.enter rfl hspares hv hnext

/-- Every event of a round leads on from where the round stands. -/
theorem Standing.step (h : Standing r visitor g w b round e.before)
    (hact : e.before.act e.action = some (e.after, e.progress))
    (hfair : Fair r visitor g w (round ++ [e])) (hw : e.before.world.Wired)
    (hprepared : e.before.world.Prepared) : Standing r visitor g w b (round ++ [e]) e.after := by
  have hlast : e ∈ round ++ [e] := List.mem_append_right _ (List.mem_singleton.2 rfl)
  have hlasts := hfair.lasts e hlast
  cases h with
  | waiting h hwhere =>
      obtain ⟨above, hstack⟩ := hwhere.resolve_right (not_not_intro hlasts)
      have hidle := not_visiting_of_stage hstack rfl
      cases round_step hact hstack with
      | stays more hstays hstage hreturns hrequest =>
          exact .waiting (h.snoc hstage (hreturns _) hidle) (Or.inl ⟨more, hstays⟩)
      | fails message hfails hworld hprogress =>
          exact .waiting
            (h.snoc (stage?_of_failure hprogress) (fun hback => hback.not_fails hfails) hidle)
            (Or.inr (not_lasts_of_failure hworld))
      | returns hreturns hnext => exact h.muster hreturns hnext hfair
  | visiting u done x rest h hwhere =>
      obtain ⟨hstack, hspares, hv⟩ := hwhere.resolve_right fun hover => hover.1 hlasts
      exact h.step hstack hspares hv hact (hfair.harmless e hlast x rest hstack) hw hprepared
  | visited u h hwhere =>
      obtain ⟨above, hstack⟩ := hwhere.resolve_right (not_not_intro hlasts)
      have hidle := not_visiting_of_stage hstack rfl
      cases round_step hact hstack with
      | stays more hstays hstage hreturns hrequest =>
          exact .visited u (h.snoc hstage (fun stage _ => hreturns stage) hidle) (Or.inl ⟨more, hstays⟩)
      | fails message hfails hworld hprogress =>
          exact .visited u
            (h.snoc (stage?_of_failure hprogress) (fun _ _ hback => hback.not_fails hfails) hidle)
            (Or.inr (not_lasts_of_failure hworld))
      | returns hreturns hnext =>
          rw [followingStage?_after] at hnext
          obtain ⟨hstage, hover⟩ := enters_none hnext
          exact .visited u
            (h.snoc hstage (fun stage hne hback => hne (hback.stage_eq hreturns)) hidle)
            (Or.inr hover)

/-- A round stands somewhere at every moment. -/
theorem standing_of_runs {earlier : List Event} (hearlier : Runs start (earlier ++ [b]) b.after)
    (h : Runs b.after round t)
    (hrule : ∀ e ∈ earlier ++ b :: round, e.before.Follows Assembled e.action)
    (hturn : b.TurnsTo r w) (hw : w.Visits r.processor visitor g)
    (hfair : Fair r visitor g w round) : Standing r visitor g w b round t := by
  induction h with
  | refl => exact standing_of_turn hturn hw hfair
  | @step round t u hruns a p hact ih =>
      have hsplit : earlier ++ b :: (round ++ [⟨t, a, p, u⟩]) =
          ((earlier ++ [b]) ++ round) ++ [⟨t, a, p, u⟩] := by simp
      rw [hsplit] at hrule
      have hpast : ∀ e ∈ (earlier ++ [b]) ++ round, e.before.Follows Assembled e.action :=
        fun e he => hrule e (List.mem_append_left _ he)
      obtain ⟨hwired, hprepared⟩ := prepared_of_runs (hearlier.trans hruns) hpast
      have hold : ∀ e ∈ earlier ++ b :: round, e.before.Follows Assembled e.action := by
        rw [← List.append_cons] at hpast
        exact hpast
      exact (ih hold hfair.init).step (e := ⟨t, a, p, u⟩) hact hfair hwired hprepared

/-! ## Whom a visitor visits -/

/-- What there is to say about a round of a visitor. -/
structure Tour (r : Round) (visitor : Visitor) (g : GroupRef) (w : World) (b : Event)
    (round : List Event) (t : Session) : Prop where
  /-- Nobody is visited twice, or out of order. -/
  ascending : (visits r (b :: round)).Pairwise (· < ·)
  /-- Nobody is visited before the members are taken. -/
  early : (∀ u, ¬ Mustered r visitor w round u) → visits r (b :: round) = []
  /-- From then on members are visited, one after the other, and nobody else. -/
  members : ∀ u, Mustered r visitor w round u →
    visits r (b :: round) <+: (u.group g).members.toList
  /-- Unless a visit has failed or still lasts, all of them have been visited. -/
  complete : ∀ u, Mustered r visitor w round u →
    (∀ x rest, t.stack ≠ r.frame (.each x rest) :: r.base) →
      (∀ e ∈ round, ∀ x rest message, ¬ e.Fails r (.each x rest) message) →
        visits r (b :: round) = (u.group g).members.toList
  /-- Whoever is visited is live and passes the filter when the visit begins. -/
  valid : ∀ e ∈ b :: round, ∀ x rest, e.stage? r = some (.each x rest) →
    e.after.world.Belongs g.manager visitor.filter x
  /-- Whoever is made during a visit is not visited. -/
  newcomers : ∀ e ∈ round, ∀ y rest, e.before.stack = r.frame (.each y rest) :: r.base →
    ∀ x, e.Creates g.manager x → x ∉ visits r (b :: round)
  /-- With the first failure the round is over. -/
  stops : ∀ e ∈ round, ∀ stage message, e.Fails r stage message →
    e.progress = r.failure e.before.world message ∧ t = ⟨e.before.world, r.base⟩
  /-- The callback after the visits runs if and only if there is one, the callback before them has
  ended well or there is none, and all visits have ended well. -/
  after_iff : .after ∈ stages r (b :: round) ↔ visitor.hasAfter = true ∧
    ∃ u, Mustered r visitor w round u ∧ ∀ x ∈ (u.group g).members, Returned r round x

omit [Host] in
theorem nodup_members (members : IdSet) : members.toList.Nodup :=
  members.ascending.imp Nat.ne_of_lt

theorem Runs.eq_of_nil (h : Runs s [] t) : t = s := by
  generalize hnone : ([] : List Event) = events at h
  cases h with
  | refl => rfl
  | step hruns a p hact => simp at hnone

/-- With the first failure a round is over. -/
theorem stops_of_runs (h : Runs s round t) (hlasts : ∀ e ∈ round, r.Lasts e.before) {message : String}
    (he : e ∈ round) (hfails : e.Fails r stage message) :
    e.progress = r.failure e.before.world message ∧ t = ⟨e.before.world, r.base⟩ := by
  obtain ⟨pre, post, rfl⟩ := List.append_of_mem he
  obtain ⟨-, hact⟩ := h.split
  have hinnermost : e.before.stack = [] ++ r.frame stage :: r.base := hfails.1
  cases round_step hact hinnermost with
  | stays above hstays hnone hreturns hrequest =>
      obtain ⟨q, haction⟩ := hrequest hfails.1
      cases hfails.2.symm.trans haction
  | returns hreturns hnext => exact absurd hfails hreturns.not_fails
  | fails other hother hafter hprogress =>
      cases hfails.2.symm.trans hother.2
      refine ⟨hprogress, ?_⟩
      have hrest := h.rest
      cases post with
      | nil => exact hrest.eq_of_nil.trans hafter
      | cons next later =>
          -- the next event would find no callback of the round
          have hnext := hlasts next (List.mem_append_right _
            (List.mem_cons_of_mem _ List.mem_cons_self))
          have hrest' : Runs e.after ([] ++ next :: later) t := hrest
          have hfound := hrest'.split.1.eq_of_nil
          rw [hfound] at hnext
          exact absurd hnext (not_lasts_of_failure hafter)

section Stops

variable (hstops : ∀ e ∈ round, ∀ stage message, e.Fails r stage message →
  e.progress = r.failure e.before.world message ∧ t = ⟨e.before.world, r.base⟩)

include hstops

/-- Before the members are taken nobody is visited. -/
theorem Waiting.tour (h : Waiting r visitor w (b :: round) round) :
    Tour r visitor g w b round t where
  ascending := by
    rw [h.visits]
    exact List.Pairwise.nil
  early _ := h.visits
  members u hu := absurd hu (h.none_taken u)
  complete u hu := absurd hu (h.none_taken u)
  valid e he x rest hbegins := by
    have hx := mem_visits.2 ⟨e, he, rest, hbegins⟩
    rw [h.visits] at hx
    exact absurd hx List.not_mem_nil
  newcomers e he y rest heach := absurd heach (h.idle e he y rest)
  stops := hstops
  after_iff := iff_of_false h.after fun hlast => h.none_taken _ hlast.2.choose_spec.1

/-- A visit has begun, and it lasts or it has failed. -/
theorem Visiting.tour {done rest : List EntityId} {x : EntityId}
    (h : Visiting r visitor g w (b :: round) round u done x rest)
    (hwhere : t.stack = r.frame (.each x rest) :: r.base ∨
      ∃ e ∈ round, ∃ message, e.Fails r (.each x rest) message) : Tour r visitor g w b round t := by
  have hpre : Session.visits r (b :: round) <+: (u.group g).members.toList := by
    rw [h.visits, h.members]
    exact ⟨rest, List.append_assoc done [x] rest⟩
  constructor
  case ascending => exact (u.group g).members.ascending.sublist hpre.sublist
  case early => exact fun hnone => absurd ((h.muster u).2 rfl) (hnone u)
  case members =>
    intro v hv
    obtain rfl := (h.muster v).1 hv
    exact hpre
  case complete =>
    intro v _ hrunning hfailed
    rcases hwhere with hstack | ⟨e, he, message, hfails⟩
    · exact absurd hstack (hrunning x rest)
    · exact absurd hfails (hfailed e he x rest message)
  case valid => exact h.valid
  case newcomers =>
    intro e he y later heach z hcreates hz
    exact h.newcomers e he y later heach z hcreates (hpre.subset hz)
  case stops => exact hstops
  case after_iff =>
    refine iff_of_false h.after ?_
    rintro ⟨-, v, hv, hall⟩
    obtain rfl := (h.muster v).1 hv
    -- the entity that is visited at last is a member whose visit has not ended well
    have hmember : x ∈ (v.group g).members := by
      rw [← IdSet.mem_toList, h.members]
      exact List.mem_append_right _ List.mem_cons_self
    have hnodup := nodup_members (v.group g).members
    rw [h.members] at hnodup
    exact (List.nodup_append.1 hnodup).2.2 x ((h.returned x).1 (hall x hmember)) x
      List.mem_cons_self rfl

/-- All visits have ended well. -/
theorem Visited.tour (h : Visited r visitor g w (b :: round) round u) :
    Tour r visitor g w b round t where
  ascending := by
    rw [h.visits]
    exact (u.group g).members.ascending
  early hnone := absurd ((h.muster u).2 rfl) (hnone u)
  members v hv := by
    obtain rfl := (h.muster v).1 hv
    exact ⟨[], by rw [h.visits, List.append_nil]⟩
  complete v hv _ _ := by
    obtain rfl := (h.muster v).1 hv
    exact h.visits
  valid := h.valid
  newcomers e he y later heach z hcreates hz := by
    rw [h.visits] at hz
    exact h.newcomers e he y later heach z hcreates hz
  stops := hstops
  after_iff := by
    rw [h.after]
    exact (and_iff_left ⟨u, (h.muster u).2 rfl, fun x hx => (h.returned x).2 hx⟩).symm

end Stops

/-- In every tick a visitor visits those who were members when the callback before the visits had
ended: in ascending order, each of them once, and up to the first failure.  Everybody who is visited
is live and passes the filter at this moment, whatever the visits before have done to the others and
to them.  Nobody is visited who was made meanwhile, and the callback after the visits runs if and only
if nothing has failed. -/
theorem tour_of_runs {earlier : List Event} (h : Runs start (earlier ++ b :: round) t)
    (hrule : ∀ e ∈ earlier ++ b :: round, e.before.Follows Assembled e.action)
    (hturn : b.TurnsTo r w) (hw : w.Visits r.processor visitor g)
    (hfair : Fair r visitor g w round) : Tour r visitor g w b round t := by
  obtain ⟨hbefore, hact⟩ := h.split
  have hround : Runs b.after round t := h.rest
  have hstanding := standing_of_runs (hbefore.step b.action b.progress hact) hround hrule hturn hw hfair
  have hstops : ∀ e ∈ round, ∀ stage message, e.Fails r stage message →
      e.progress = r.failure e.before.world message ∧ t = ⟨e.before.world, r.base⟩ :=
    fun e he stage message hfails => stops_of_runs hround hfair.lasts he hfails
  cases hstanding with
  | waiting h hwhere => exact h.tour hstops
  | visiting u done x rest h hwhere => exact h.tour hstops (hwhere.imp And.left And.right)
  | visited u h hwhere => exact h.tour hstops

end Session

end EntityStore

namespace EntityStore.Session

attribute [local instance] Host.plain

/-! ## A visit that schedules removals and makes another entity -/

/-- A visitor of one kind, with a callback after the visits. -/
def ager : Visitor := ⟨[⟨0⟩], [], false, true, none⟩

/-- It is registered with a manager that has two entities of the kind. -/
def manned : List Action :=
  [.request (.makeKind "Marker" .default), .request (.makeManager .default),
    .request (.registerKind ⟨0⟩ ⟨0⟩), .request (.registerProcessor ⟨0⟩ ⟨"ager", .visitor ager⟩),
    .request (.create ⟨0⟩ [⟨0⟩]), .request (.create ⟨0⟩ [⟨0⟩])]

/-- The visit of the first entity asks for the removal of both and makes a third one. -/
def upheaval : List Action :=
  [.request (.scheduleRemoval ⟨0⟩ 1), .request (.scheduleRemoval ⟨0⟩ 2),
    .request (.create ⟨0⟩ [⟨0⟩]), .finish (.ok ()), .finish (.ok ())]

/-- Both are visited, the third entity is not, and the last callback runs. -/
theorem tour_of_two_members :
    let s := (start.follow manned).2
    let tick : Request := .update ⟨0⟩ Time.start
    let b : Event := ⟨s, .request tick, (s.world.serve s.engaged s.told tick).2, s.after tick⟩
    let run := b.after.follow upheaval
    let r : Round := ⟨⟨0⟩, ⟨0⟩, Time.start, .tick [], []⟩
    let visitor : Visitor := { ager with group := some ⟨⟨0⟩, 0⟩ }
    Runs start ((start.follow manned).1 ++ b :: run.1) run.2 ∧ b.TurnsTo r b.after.world ∧
      Fair r visitor ⟨⟨0⟩, 0⟩ b.after.world run.1 ∧
        Tour r visitor ⟨⟨0⟩, 0⟩ b.after.world b run.1 run.2 ∧
          visits r (b :: run.1) = [1, 2] ∧ .after ∈ stages r (b :: run.1) ∧
            (run.2.world.group ⟨⟨0⟩, 0⟩).members.toList = [1, 2, 3] := by
  intro s tick b run r visitor
  have hact : s.act (.request tick) = some (b.after, b.progress) := act_eq_after s rfl
  have hruns : Runs start ((start.follow manned).1 ++ b :: run.1) run.2 :=
    (runs_follow start manned).trans (.cons hact (runs_follow b.after upheaval))
  have hstage : b.stage? r = some (.each 1 [2]) := by decide +kernel
  have hbegins := (stage?_eq_some.1 hstage).1
  have hstack : b.after.stack = [r.frame (.each 1 [2])] := by
    obtain ⟨-, hafter, -⟩ := act_request hact
    have hidle : s.stack = [] := List.eq_nil_of_length_eq_zero (by decide +kernel)
    rw [hafter, hbegins, hidle]
    rfl
  have hw : b.after.world.Visits r.processor visitor ⟨⟨0⟩, 0⟩ := ⟨by decide +kernel, rfl⟩
  have hturn : b.TurnsTo r b.after.world := by
    have hfirst : b.after.world.firstStage? visitor ⟨⟨0⟩, 0⟩ = some (.each 1 [2]) := by
      decide +kernel
    unfold Event.TurnsTo
    rw [r.turn_eq hw, hfirst]
    show (b.after, b.progress) = (⟨b.after.world, [r.frame (.each 1 [2])]⟩, .calls _)
    rw [hbegins, ← hstack]
  have hmuster : ∀ u, Mustered r visitor b.after.world run.1 u → u = b.after.world := by
    rintro u (⟨-, rfl⟩ | ⟨hnever, -⟩)
    · rfl
    · cases hnever
  have hfair : Fair r visitor ⟨⟨0⟩, 0⟩ b.after.world run.1 := by
    constructor
    case lasts =>
      have houtermost : ∀ e ∈ run.1,
          (e.before.stack.getLast?.bind (Frame.stageIn? r)).isSome = true := by decide +kernel
      exact fun e he => Round.lasts_of_outermost rfl (houtermost e he)
    case harmless =>
      have hall : ∀ e ∈ run.1, e.action.isHarmless visitor.filter = true := by decide +kernel
      exact fun e he x rest _ => hall e he
    case kept =>
      intro u hu
      rw [hmuster u hu]
      exact hw
    case exact =>
      intro u hu x
      rw [hmuster u hu]
      exact World.mem_iff_belongs (by decide +kernel)
  have htour := tour_of_runs hruns (by decide +kernel) hturn hw hfair
  exact ⟨hruns, hturn, hfair, htour, by decide +kernel, by decide +kernel, by decide +kernel⟩

end EntityStore.Session
