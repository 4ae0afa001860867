import EntityStore.Proofs.Session.Ticks

/-!
# Who is removed, and who asked for it

A request for a removal is kept until the next tick of the manager ends, whether the id is live or
not.  So it may be older than the entity that it removes in the end.

* `Outstanding`: the removal of an id was asked for, and no tick has ended since.
* `pending_iff_outstanding`: these are the ids that are due.
* `Lifetime`: the life of an entity, from its creation on.
* `removed_iff_asked`: a live entity is removed in an event if and only if a tick of its manager ends
  in it and its removal was asked for, in its life or before it with no tick in between.
-/

namespace EntityStore

variable [Host]

/-- A move other than a creation makes nobody live. -/
theorem Move.isAlive_of_isAlive {rule : Rule} {w v : World} (h : Move rule w v)
    (hrule : ∀ w n kinds, ¬ rule w (.create n kinds)) {m : ManagerId} {x : EntityId}
    (hx : v.isAlive m x = true) : w.isAlive m x = true := by
  have hsame : (v.manager m).allocator = (w.manager m).allocator → w.isAlive m x = true := by
    intro hallocator
    unfold World.isAlive at hx ⊢
    rw [← hallocator]
    exact hx
  have htells : w.Tells v → w.isAlive m x = true := fun h =>
    hsame (h.field_eq Manager.allocator (fun _ _ => rfl) m)
  have hmanager : ∀ u n {change : Manager → Manager},
      (∀ manager, (change manager).allocator = manager.allocator) →
        ((World.updateManager u n change).manager m).allocator = (u.manager m).allocator :=
    fun u n _ hchange => World.field_updateManager Manager.allocator hchange u n m
  cases h with
  | makeKind name config => exact htells (World.tells_makeKind w name config)
  | declare k name type default bounds =>
      exact htells (World.tells_declare w k name type default bounds)
  | setValue k p e y => exact htells (World.tells_setValue w k p e y)
  | addHolder k e _ => exact htells (World.tells_addHolder w k e)
  | removeHolder k e _ => exact htells (World.tells_removeHolder w k e)
  | attach k number o _ => exact htells (World.tells_attach w k _)
  | makeManager config =>
      unfold World.makeManager at hx hsame
      split at hx
      · exact hx
      · -- a manager that is made has no ids, and the others are as before
        unfold World.isAlive World.manager at hx
        dsimp only at hx
        rw [getD_concat] at hx
        split at hx
        · cases hx
        · exact hx
  | retire n => exact hsame (hmanager w n fun _ => rfl)
  | registerKind n k _ =>
      rcases World.registered_or_same w n k with hk | ⟨-, -, hk⟩
      · rw [hk] at hx
        exact hx
      · rw [hk] at hsame
        exact hsame (hmanager _ n fun _ => rfl)
  | registerProcessor n p _ =>
      unfold World.registerProcessor at hx hsame
      split at hx
      · exact hx
      · rename_i hsetup
        rw [if_neg hsetup] at hsame
        split at hx
        · exact hx
        · rename_i hname
          rw [if_neg hname] at hsame
          exact hsame (hmanager _ n fun _ => rfl)
  | create n kinds hcreate => exact absurd hcreate (hrule w n kinds)
  | scheduleRemoval n e _ => exact hsame (hmanager w n fun _ => rfl)
  | addComponent n e k _ => exact htells (World.tells_addComponent w n e k)
  | removeComponent n e k _ => exact htells (World.tells_removeComponent w n e k)
  | openGroup n required forbidden =>
      rcases World.opened_or_same w n required forbidden with hopen | ⟨-, hopen⟩
      · rw [hopen] at hx
        exact hx
      · rw [hopen] at hsame
        exact hsame (hmanager w n fun _ => rfl)
  | listen g l =>
      unfold World.listen at hx hsame
      split at hx
      · rename_i new hnew
        rw [hnew] at hsame
        exact hsame (hmanager w g.manager fun _ => rfl)
      · exact hx
  | unlisten g l => exact hsame (hmanager w g.manager fun _ => rfl)
  | takeNews g => exact hsame (hmanager w g.manager fun _ => rfl)
  | removeDue n e hdue => exact ((World.isAlive_removeDue w n e m x).1 hx).1
  | countInit n => exact hsame (hmanager w n fun _ => rfl)
  | setLifecycle n life => exact hsame (hmanager w n fun _ => rfl)
  | elsewhere v hkinds hmanagers hprocessors =>
      exact hsame (by rw [World.manager_of_same_managers hmanagers])

namespace Session

variable {m : ManagerId} {x : EntityId} {e c : Event} {events pre mid : List Event} {s : Session}

/-- Is an entity made in an event? -/
def Event.Creates (e : Event) (m : ManagerId) (x : EntityId) : Prop :=
  ∃ kinds, e.action = .request (.create m kinds) ∧ e.progress = .replies (.ok (.entity x))

/-- The removal of an id was asked for, and no tick of its manager has ended since. -/
def Outstanding (m : ManagerId) (x : EntityId) (events : List Event) : Prop :=
  Lately (fun e => e.Asks m x) (fun e => ¬ e.EndsTick m) events

/-- A history with the life of an entity in it, which has not ended yet: what came before its
creation, its creation, and what has come since. -/
structure Lifetime (m : ManagerId) (x : EntityId) (events pre : List Event) (c : Event)
    (mid : List Event) : Prop where
  /-- The history in parts. -/
  parts : events = pre ++ c :: mid
  /-- The entity is made. -/
  created : c.Creates m x
  /-- It has been live ever since. -/
  lives : ∀ f ∈ mid, f.after.world.isAlive m x = true

/-! ## One event -/

/-- Nothing is asked for in the event in which a tick ends. -/
theorem not_asks_of_endsTick (h : e.EndsTick m) (n : ManagerId) (x : EntityId) :
    ¬ e.Asks n x := by
  rintro ⟨r, ha, hr, -⟩
  obtain ⟨hticks, -⟩ := h
  unfold Event.ticks? at hticks
  rw [ha, hr] at hticks
  cases hticks

/-- An id is due after an event if it is asked for in it, or was due before and no tick has ended. -/
theorem Turn.pending_iff (h : Turn m e) (x : EntityId) :
    x ∈ (e.after.world.manager m).pending ↔
      e.Asks m x ∨ x ∈ (e.before.world.manager m).pending ∧ ¬ e.EndsTick m := by
  have hlasting : World.Lasting m (e.Asks m) e.before.world e.after.world → ¬ e.EndsTick m →
      (x ∈ (e.after.world.manager m).pending ↔
        e.Asks m x ∨ x ∈ (e.before.world.manager m).pending ∧ ¬ e.EndsTick m) := by
    intro hlasting hends
    rw [hlasting.pending, or_comm]
    simp [hends]
  cases h with
  | stays hsteady hends hsilent => exact hlasting hsteady.toLasting hends
  | flushes frame g below htop hframe hg hfinish hkept hends => exact hlasting hkept hends
  | ends u hready hend hends =>
      have hworld : e.after.world = (u.endTick m).1 := congrArg Prod.fst hend
      rw [hworld]
      refine iff_of_false (World.endTick_ids u m x).2 ?_
      rintro (hasks | ⟨-, hnot⟩)
      · exact not_asks_of_endsTick hends m x hasks
      · exact hnot hends

/-- A live id is no longer live after an event if and only if a tick ends in it and it was due. -/
theorem Turn.dead_iff (h : Turn m e) (hlive : e.before.world.isAlive m x = true) :
    e.after.world.isAlive m x = false ↔
      e.EndsTick m ∧ x ∈ (e.before.world.manager m).pending := by
  have hkeeps : e.after.world.isAlive m x = true → ¬ e.EndsTick m →
      (e.after.world.isAlive m x = false ↔
        e.EndsTick m ∧ x ∈ (e.before.world.manager m).pending) := by
    intro hafter hends
    refine iff_of_false ?_ fun h => hends h.1
    rw [hafter]
    exact nofun
  cases h with
  | stays hsteady hends hsilent => exact hkeeps (hsteady.live x hlive) hends
  | flushes frame g below htop hframe hg hfinish hkept hends => exact hkeeps (hkept.live x hlive) hends
  | ends u hready hend hends =>
      have hworld : e.after.world = (u.endTick m).1 := congrArg Prod.fst hend
      rw [hworld, ← Bool.not_eq_true, (World.endTick_ids u m x).1, hready.isAlive_eq,
        hready.pending_eq]
      simp [hlive, hends]

/-- The entity that is made is live, was not before, and nothing becomes due. -/
theorem Event.Creates.effect (h : c.Creates m x)
    (hact : c.before.act c.action = some (c.after, c.progress)) :
    c.before.world.isAlive m x = false ∧ c.after.world.isAlive m x = true ∧
      (∀ y, ¬ c.Asks m y) ∧ ¬ c.EndsTick m := by
  obtain ⟨kinds, ha, hprogress⟩ := h
  rw [ha] at hact
  obtain ⟨-, hafter, hserved⟩ := act_request hact
  have hanswer : (World.answer Granted.entity (c.before.world.create m kinds)).2 =
      .replies (.ok (.entity x)) := hserved.symm.trans hprogress
  obtain ⟨y, hmade, hy⟩ := World.eq_ok_of_answer hanswer
  cases hy
  have hworld : c.after.world = (c.before.world.create m kinds).1 := by
    rw [hafter]
    exact World.answer_world _ _
  refine ⟨World.not_isAlive_of_create hmade, ?_, ?_, ?_⟩
  · rw [hworld, World.isAlive_create]
    exact Or.inr ⟨rfl, hmade⟩
  · rintro z ⟨r, hr, hschedule, -⟩
    rw [ha, hschedule] at hr
    cases hr
  · rintro ⟨hticks, -⟩
    unfold Event.ticks? at hticks
    rw [ha] at hticks
    cases hticks

/-- Only a creation makes an id live. -/
theorem creates_of_becomes_live (hact : e.before.act e.action = some (e.after, e.progress))
    (hbefore : e.before.world.isAlive m x = false) (hafter : e.after.world.isAlive m x = true) :
    e.Creates m x := by
  have hold : (∀ n kinds, e.action ≠ .request (.create n kinds)) →
      e.before.world.isAlive m x = true := by
    intro hother
    let rule : Rule := fun _ r => e.action = .request r
    have hfollows : e.before.Follows rule e.action := by
      cases ha : e.action with
      | request r => exact ha
      | finish outcome => exact True.intro
    have hmoves : Moves rule e.before.world e.after.world := moves_of_act hfollows hact
    exact hmoves.reflects (fun move hx => move.isAlive_of_isAlive (fun _ n kinds => hother n kinds) hx)
      hafter
  cases ha : e.action with
  | finish outcome =>
      rw [hold (by rw [ha]; exact nofun)] at hbefore
      cases hbefore
  | request r =>
      by_cases hcreate : ∃ n kinds, r = .create n kinds
      · obtain ⟨n, kinds, rfl⟩ := hcreate
        rw [ha] at hact
        obtain ⟨-, hend, hserved⟩ := act_request hact
        have hworld : e.after.world = (e.before.world.create n kinds).1 := by
          rw [hend]
          exact World.answer_world _ _
        rw [hworld, World.isAlive_create, hbefore] at hafter
        obtain ⟨rfl, hmade⟩ := hafter.resolve_left nofun
        refine ⟨kinds, ha, hserved.trans ?_⟩
        show (World.answer Granted.entity (e.before.world.create m kinds)).2 = _
        generalize e.before.world.create m kinds = result at hmade
        obtain ⟨w, answer⟩ := result
        subst hmade
        rfl
      · rw [hold (by rw [ha]; exact fun n kinds heq => hcreate ⟨n, kinds, Action.request.inj heq⟩)]
          at hbefore
        cases hbefore

/-! ## Histories -/

/-- Those are due whose removal was asked for since the last tick. -/
theorem pending_iff_outstanding (h : Runs start events s) (m : ManagerId) (x : EntityId) :
    x ∈ (s.world.manager m).pending ↔ Outstanding m x events := by
  refine h.induct (P := fun events s => x ∈ (s.world.manager m).pending ↔ Outstanding m x events)
    ?_ fun events e _ ih hact => ?_
  · refine iff_of_false (IdSet.not_mem_empty x) ?_
    rintro ⟨earlier, e, later, hsplit, -⟩
    simp at hsplit
  · rw [(turn_of_act hact m).pending_iff, ih]
    exact (lately_snoc (P := fun e => e.Asks m x) (Q := fun e => ¬ e.EndsTick m)).symm

/-- In the life of an entity nothing but requests makes it due, and no tick takes them back. -/
theorem pending_of_lives {t : Session} (h : Runs s mid t) (hlive : s.world.isAlive m x = true)
    (hlives : ∀ f ∈ mid, f.after.world.isAlive m x = true) :
    t.world.isAlive m x = true ∧ (x ∈ (t.world.manager m).pending ↔
      (∃ f ∈ mid, f.Asks m x) ∨ x ∈ (s.world.manager m).pending) := by
  induction h with
  | refl => simp [hlive]
  | @step events t u hruns a p hact ih =>
      obtain ⟨hbefore, hpending⟩ := ih fun f hf => hlives f (List.mem_append_left _ hf)
      have hafter : u.world.isAlive m x = true :=
        hlives ⟨t, a, p, u⟩ (List.mem_append_right _ (List.mem_singleton.2 rfl))
      have hturn : Turn m ⟨t, a, p, u⟩ := turn_of_act hact m
      -- it lives on, so either no tick has ended or it was not due
      have hkept : x ∈ (t.world.manager m).pending → ¬ Event.EndsTick ⟨t, a, p, u⟩ m := by
        intro hdue hends
        have hdead := (hturn.dead_iff hbefore).2 ⟨hends, hdue⟩
        rw [show u.world.isAlive m x = false from hdead] at hafter
        cases hafter
      refine ⟨hafter, (hturn.pending_iff x).trans ?_⟩
      rw [and_iff_left_of_imp hkept]
      show _ ∨ x ∈ (t.world.manager m).pending ↔ _
      rw [hpending, ← or_assoc]
      refine or_congr_left ?_
      simp [or_comm, or_and_right, exists_or]

theorem not_isAlive_start (m : ManagerId) (x : EntityId) : start.world.isAlive m x = false := by
  unfold World.isAlive
  rw [World.manager_of_length_le (Nat.zero_le _)]
  rfl

/-- A live entity has been made at some time, and has lived since. -/
theorem isAlive_iff_lifetime (h : Runs start events s) (m : ManagerId) (x : EntityId) :
    s.world.isAlive m x = true ↔ ∃ pre c mid, Lifetime m x events pre c mid := by
  constructor
  · refine h.induct (P := fun events s => s.world.isAlive m x = true →
      ∃ pre c mid, Lifetime m x events pre c mid) ?_ fun events e _ ih hact hlive => ?_
    · rw [not_isAlive_start]
      exact nofun
    cases hbefore : e.before.world.isAlive m x with
    | false =>
        exact ⟨events, e, [], rfl, creates_of_becomes_live hact hbefore hlive,
          fun f hf => absurd hf List.not_mem_nil⟩
    | true =>
        obtain ⟨pre, c, mid, hparts, hcreated, hlives⟩ := ih hbefore
        refine ⟨pre, c, mid ++ [e], by simp [hparts], hcreated, fun f hf => ?_⟩
        rcases List.mem_append.1 hf with hold | hlast
        · exact hlives f hold
        · rw [List.mem_singleton.1 hlast]
          exact hlive
  · rintro ⟨pre, c, mid, rfl, hcreated, hlives⟩
    exact (pending_of_lives h.rest (hcreated.effect h.split.2).2.1 hlives).1

/-! ## The law of removals -/

/-- An entity is live if and only if it was made and has lived since.  It is due right after its
creation if and only if its removal was asked for before it existed and no tick of the manager has
ended since; and an event removes it if and only if a tick ends in it and its removal was asked for in
its life, or before it in that way. -/
theorem removed_iff_asked (h : Runs start events s) (m : ManagerId) (x : EntityId) :
    (s.world.isAlive m x = true ↔ ∃ pre c mid, Lifetime m x events pre c mid) ∧
      ∀ pre c mid, Lifetime m x events pre c mid →
        ((c.after.world.manager m).isPending x = true ↔ Outstanding m x pre) ∧
        ∀ a t p, s.act a = some (t, p) →
          (t.world.isAlive m x = false ↔ Event.EndsTick ⟨s, a, p, t⟩ m ∧
            ((∃ f ∈ mid, f.Asks m x) ∨ Outstanding m x pre)) := by
  refine ⟨isAlive_iff_lifetime h m x, ?_⟩
  rintro pre c mid ⟨rfl, hcreated, hlives⟩
  obtain ⟨hpre, hact⟩ := h.split
  obtain ⟨-, hborn, hasks, hends⟩ := hcreated.effect hact
  have hfresh : x ∈ (c.after.world.manager m).pending ↔ Outstanding m x pre := by
    rw [(turn_of_act hact m).pending_iff, pending_iff_outstanding hpre]
    simp [hasks, hends]
  obtain ⟨hlive, hdue⟩ := pending_of_lives h.rest hborn hlives
  refine ⟨?_, fun a t p hstep => ?_⟩
  · rw [← hfresh]
    exact decide_eq_true_iff
  · have hturn : Turn m ⟨s, a, p, t⟩ := turn_of_act hstep m
    rw [← hfresh, ← hdue]
    exact hturn.dead_iff hlive

end Session

end EntityStore

namespace EntityStore.Session

attribute [local instance] Host.plain

/-- The event in which the first manager makes its first entity, without kinds. -/
def firstCreation (s : Session) : Event :=
  ⟨s, .request (.create ⟨0⟩ []), .replies (.ok (.entity 1)), s.after (.create ⟨0⟩ [])⟩

/-- The removal of id 1 is asked for before there is such an entity.  The entity that gets the id is
due as soon as it is made; nobody asks for its removal, and the next tick removes it. -/
theorem removed_without_request :
    let past : List Action :=
      [.request (.makeManager .default), .request (.scheduleRemoval ⟨0⟩ 1)]
    let pre := (start.follow past).1
    let c := firstCreation (start.follow past).2
    let t := c.after.after (.update ⟨0⟩ Time.start)
    Runs start (pre ++ c :: []) c.after ∧ c.Creates ⟨0⟩ 1 ∧
      c.after.world.isAlive ⟨0⟩ 1 = true ∧ (c.after.world.manager ⟨0⟩).isPending 1 = true ∧
      (∃ p, c.after.act (.request (.update ⟨0⟩ Time.start)) = some (t, p)) ∧
      t.world.isAlive ⟨0⟩ 1 = false := by
  intro past pre c t
  have hact : c.before.act c.action = some (c.after, c.progress) := by rfl
  refine ⟨(runs_follow start past).step c.action c.progress hact, ⟨[], rfl, rfl⟩, ?_, ?_,
    ⟨_, c.after.act_eq_after rfl⟩, ?_⟩
  · decide +kernel
  · decide +kernel
  · decide +kernel

/-- An entity is made, its removal is asked for, and the next tick removes it: it was not due when it
was made, and the tick is one in which removals are carried out. -/
theorem removed_after_request :
    let past : List Action := [.request (.makeManager .default)]
    let c := firstCreation (start.follow past).2
    let s := c.after.after (.scheduleRemoval ⟨0⟩ 1)
    let t := s.after (.update ⟨0⟩ Time.start)
    let p := (s.world.serve s.engaged s.told (.update ⟨0⟩ Time.start)).2
    (c.after.world.manager ⟨0⟩).isPending 1 = false ∧ s.world.isAlive ⟨0⟩ 1 = true ∧
      t.world.isAlive ⟨0⟩ 1 = false ∧
      Event.EndsTick ⟨s, .request (.update ⟨0⟩ Time.start), p, t⟩ ⟨0⟩ := by
  intro past c s t p
  let pre := (start.follow past).1
  let asked : Event := ⟨c.after, .request (.scheduleRemoval ⟨0⟩ 1), .replies (.ok (.flag true)), s⟩
  have hmade : c.before.act c.action = some (c.after, c.progress) := by rfl
  have hasked : asked.before.act asked.action = some (s, asked.progress) := by rfl
  have hruns : Runs start (pre ++ c :: [asked]) s :=
    (runs_follow start past).trans ((Runs.refl.step _ _ hasked).cons hmade)
  have hlive : s.world.isAlive ⟨0⟩ 1 = true := by decide +kernel
  have hdead : t.world.isAlive ⟨0⟩ 1 = false := by decide +kernel
  have hnone : ¬ Outstanding ⟨0⟩ 1 pre := by
    rw [← pending_iff_outstanding (runs_follow start past)]
    decide +kernel
  obtain ⟨-, hlaw⟩ := removed_iff_asked hruns ⟨0⟩ 1
  obtain ⟨hfresh, hremoved⟩ := hlaw pre c [asked] ⟨rfl, ⟨[], rfl, rfl⟩, fun f hf => by
    rw [List.mem_singleton.1 hf]
    exact hlive⟩
  refine ⟨Bool.eq_false_iff.2 fun hdue => hnone (hfresh.1 hdue), hlive, hdead, ?_⟩
  exact ((hremoved _ t p (s.act_eq_after rfl)).1 hdead).1

end EntityStore.Session
