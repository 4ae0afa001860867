import EntityStore.Proofs.Session.Ticks

/-!
# The last flush of a group

The undelivered change of a group is counted from its members at the last flush, and if there has
been none, from those whom it took up when it was made.  A group does not remember them, but the
history of a session does.

* `Event.Flushes`, `Event.Makes`: the events in which a group is flushed, and in which it is made.
* `Counted g x events`: the entity `x` was a member of `g` at the last flush of a history, or was
  taken up if there has been none.
* `since_counted`: from these members the undelivered change is counted.
-/

namespace EntityStore

variable [Host]

/-- The groups that are still to be flushed when a listener is called. -/
def Progress.unflushed : Progress → List Nat
  | calls (.notifying _ _ _ groups) => groups
  | _ => []

namespace World

variable {w v u : World} {m : ManagerId} {g : GroupRef}

/-! ## What a flush does to each group -/

theorem group_takeNews_eq (w : World) (h g : GroupRef) :
    (w.takeNews h).1.group g = if g = h then (w.group h).drain.1 else w.group g := by
  show (w.updateGroup h _).group g = _
  rw [group_updateGroup]
  by_cases hg : g = h
  · subst hg
    rw [if_pos rfl]
    split
    · rfl
    · -- where there is no group, there is nothing to hand out
      rename_i habsent
      have hge : (w.manager g.manager).groups.length ≤ g.number :=
        Nat.le_of_not_lt fun hlt => habsent ⟨rfl, hlt⟩
      unfold group Manager.group
      rw [List.getD_eq_getElem?_getD, List.getElem?_eq_none hge]
      rfl
  · rw [if_neg hg, if_neg fun heq => hg heq.1]

/-- A flush hands out the news of the first of the listed groups, up to the one whose listener is
called, and leaves the other groups alone. -/
theorem flush_splits (w : World) (m : ManagerId) (numbers : List Nat) :
    ∃ flushed, numbers = flushed ++ (w.flush m numbers).2.unflushed ∧
      ∀ g, (w.flush m numbers).1.group g =
        if g.manager = m ∧ g.number ∈ flushed then (w.group g).drain.1 else w.group g := by
  induction numbers generalizing w with
  | nil => exact ⟨[], rfl, fun g => by simp [flush]⟩
  | cons number groups ih =>
      have htaken := w.group_takeNews_eq ⟨m, number⟩
      have hfirst : ∀ g : GroupRef, g = ⟨m, number⟩ ↔ g.manager = m ∧ g.number = number := by
        rintro ⟨n, i⟩
        simp
      unfold flush
      split
      · rename_i v hnews
        rw [hnews] at htaken
        obtain ⟨flushed, hsplit, hgroups⟩ := ih v
        refine ⟨number :: flushed, by rw [List.cons_append, ← hsplit], fun g => ?_⟩
        rw [hgroups, htaken]
        by_cases hg : g = ⟨m, number⟩
        · -- a second flush has nothing to hand out
          subst hg
          simp [Group.drain]
        · have hother : g.manager = m → g.number ≠ number := fun hm hn => hg ((hfirst g).2 ⟨hm, hn⟩)
          rw [if_neg hg]
          by_cases hm : g.manager = m
          · simp [hm, hother hm]
          · simp [hm]
      · rename_i v notice rest hnews
        rw [hnews] at htaken
        refine ⟨[number], rfl, fun g => ?_⟩
        rw [htaken]
        by_cases hg : g = ⟨m, number⟩
        · subst hg
          simp
        · rw [if_neg hg, if_neg fun h => hg ((hfirst g).2 ⟨h.1, List.mem_singleton.1 h.2⟩)]

/-! ## Who makes groups -/

theorem sameCount_flush (w : World) (m : ManagerId) (numbers : List Nat) :
    SameCount w (w.flush m numbers).1 := by
  induction numbers generalizing w with
  | nil => exact .refl w
  | cons number groups ih =>
      have htaken : SameCount w (w.takeNews ⟨m, number⟩).1 := sameCount_updateGroup w _ _
      unfold flush
      split
      · rename_i hnews
        rw [hnews] at htaken
        exact htaken.trans (ih _)
      · rename_i hnews
        rw [hnews] at htaken
        exact htaken

/-- The flush at the end of a tick makes no groups. -/
theorem sameCount_endTick (w : World) (n : ManagerId) :
    SameCount (w.removeAllDue n) (w.endTick n).1 :=
  sameCount_flush _ n _

/-- A request other than for a tick leaves the number of groups, or it gets managers ready. -/
theorem groups_serve (w : World) (engaged : ManagerId → Bool) (told : ObserverId → Bool)
    {r : Request} (hupdate : ∀ n time, r ≠ .update n time) :
    Readied w (w.serve engaged told r).1 ∨ SameCount w (w.serve engaged told r).1 := by
  have hserved := w.served engaged told r
  generalize (w.serve engaged told r).1 = v at hserved ⊢
  cases hserved with
  | heard htells => exact Or.inr htells.length_groups
  | makeManager config => exact Or.inr (sameCount_makeManager w config)
  | retire m =>
      refine Or.inr (sameCount_updateManager ?_ w m)
      exact fun _ => rfl
  | registerKind m k => exact Or.inr (sameCount_registerKind w m k)
  | registerProcessor m p => exact Or.inr (sameCount_registerProcessor w m p)
  | create m kinds => exact Or.inr (sameCount_create w m kinds)
  | scheduleRemoval m e =>
      refine Or.inr (sameCount_updateManager ?_ w m)
      exact fun _ => rfl
  | openGroup m required forbidden => exact Or.inl (readied_openGroup w m required forbidden)
  | listen g l => exact Or.inr (sameCount_listen w g l)
  | unlisten g l => exact Or.inr (sameCount_updateGroup w g _)
  | makeProcessor p => exact Or.inr (sameCount_of_same_managers rfl)
  | settles p visitor m => exact Or.inl (readied_settleVisitor w p visitor m)
  | initialises m => exact Or.inl (readied_runInits w m _).1
  | updates m time => exact absurd rfl (hupdate m time)
  | ends m => exact Or.inl (readied_setLifecycle w m .shutDown)

/-- So does the return of a callback that no tick waits for. -/
theorem groups_resume (w : World) (outcome : Outcome) {frame : Frame}
    (hticks : frame.ticks? = none) :
    Readied w (w.resume outcome frame).1 ∨ SameCount w (w.resume outcome frame).1 := by
  have hresumed := w.resumed outcome frame
  generalize w.resume outcome frame = result at hresumed ⊢
  cases hresumed with
  | answers reply => exact Or.inr (.refl w)
  | inits m p rest next =>
      cases next with
      | some time => cases hticks
      | none => exact Or.inl ((readied_countInit w m).trans (readied_runInits _ m rest).1)
  | updates m p time rest => cases hticks
  | visits m p time stage next errand => exact Or.inr (.refl w)
  | leaves m p time stage rest => cases hticks
  | stops m p rest failure cause =>
      rw [runStops_world]
      exact Or.inr (.refl w)
  | notifies g notice following rest groups => exact Or.inr (.refl w)
  | flushes g notice groups => exact Or.inr (sameCount_flush w g.manager groups)
  | walks k e rest =>
      rw [walkFrom_world]
      exact Or.inr (.refl w)

theorem group_of_length_le {g : GroupRef}
    (h : (w.manager g.manager).groups.length ≤ g.number) :
    w.group g = Group.ofFilter ⟨[], []⟩ := by
  unfold group Manager.group
  rw [List.getD_eq_getElem?_getD, List.getElem?_eq_none h]
  rfl

/-- Where nothing was there, nobody is counted. -/
theorem base_of_length_le {base : IdSet} (h : (w.manager g.manager).groups.length ≤ g.number)
    (hsince : Group.Since base (w.group g)) (x : EntityId) : x ∉ base := by
  have hgroup := group_of_length_le h
  have hempty : base = (w.group g).members := by
    refine hsince.net.base_eq ?_ ?_
    · rw [hgroup]
      exact IdSet.not_mem_empty
    · rw [hgroup]
      exact IdSet.not_mem_empty
  rw [hempty, hgroup]
  exact IdSet.not_mem_empty x

/-- Groups that are got ready count from the same members as before, or from whom they have taken
up. -/
theorem Readied.since {base : IdSet} (h : Readied w u) (hsince : Group.Since base (w.group g)) :
    ∃ next, Group.Since next (u.group g) ∧ ∀ x, x ∈ next ↔
      x ∈ base ∨ (w.manager g.manager).groups.length ≤ g.number ∧ x ∈ (u.group g).members := by
  rcases Nat.lt_or_ge g.number (w.manager g.manager).groups.length with hold | hnew
  · refine ⟨base, ?_, fun x => ?_⟩
    · rw [h.group_of_lt hold]
      exact hsince
    · simp [Nat.not_le_of_lt hold]
  · have hseeded : (u.group g).Seeded := by
      rcases Nat.lt_or_ge g.number (u.manager g.manager).groups.length with hthere | hnone
      · rw [h.group_of_ge hnew hthere]
        exact seeded_seededGroup _ _ _
      · rw [group_of_length_le hnone]
        exact .ofFilter _
    refine ⟨_, .seeded hseeded, fun x => ?_⟩
    simp [hnew, base_of_length_le hnew hsince x]

end World

namespace Session

variable {e : Event} {events : List Event} {s : Session} {m : ManagerId} {g : GroupRef}
  {base : IdSet}

/-! ## Flushes and new groups in a history -/

/-- The groups of a manager that an event sets out to flush: all of them when a tick ends, and those
that are left when the last listener of a group has been told. -/
def Event.ToFlush (e : Event) (m : ManagerId) (numbers : List Nat) : Prop :=
  e.EndsTick m ∧ numbers = List.range (e.after.world.manager m).groups.length ∨
    ∃ outcome g notice below, e.action = .finish outcome ∧
      e.before.stack = .notifying g notice [] numbers :: below ∧ g.manager = m

/-- Is a group flushed in an event?  It is one of those that were to be flushed, and does not wait
for a listener of another group. -/
def Event.Flushes (e : Event) (g : GroupRef) : Prop :=
  ∃ flushed, e.ToFlush g.manager (flushed ++ e.progress.unflushed) ∧ g.number ∈ flushed

/-- Is a group made in an event? -/
def Event.Makes (e : Event) (g : GroupRef) : Prop :=
  (e.before.world.manager g.manager).groups.length ≤ g.number ∧
    g.number < (e.after.world.manager g.manager).groups.length

/-- In an event a group is flushed, and an entity is a member; or the group is made, and takes the
entity up, among those who were there. -/
def Event.Counts (e : Event) (g : GroupRef) (x : EntityId) : Prop :=
  e.Flushes g ∧ x ∈ (e.after.world.group g).members ∨
    ¬ e.Flushes g ∧ e.Makes g ∧
      x ∈ (e.before.world.seededGroup g.manager (e.after.world.group g).filter).members

/-- An entity was a member of a group at its last flush, or was taken up when it was made and not
flushed since. -/
def Counted (g : GroupRef) (x : EntityId) (events : List Event) : Prop :=
  Lately (fun e => e.Counts g x) (fun e => ¬ e.Flushes g) events

/-! ## What an event does to the undelivered change -/

/-- What is to be flushed is flushed in a world that has been got ready, after the removals if it is
the end of a tick. -/
theorem Event.ToFlush.flush {numbers : List Nat} (h : e.ToFlush m numbers)
    (hact : e.before.act e.action = some (e.after, e.progress)) :
    ∃ u v, World.Readied e.before.world u ∧ (v = u ∨ v = u.removeAllDue m) ∧
      (e.after.world, e.progress) = v.flush m numbers := by
  rcases h with ⟨hends, rfl⟩ | ⟨outcome, k, notice, below, ha, htop, rfl⟩
  · cases turn_of_act hact m with
    | stays hsteady hnot hsilent => exact absurd hends hnot
    | flushes frame k below htop hframe hk hfinish hlasting hnot => exact absurd hends hnot
    | ends u hready hend hnow =>
        refine ⟨u, _, hready, Or.inr rfl, ?_⟩
        have hworld : e.after.world = (u.endTick m).1 := congrArg Prod.fst hend
        rw [hend, hworld, World.sameCount_endTick u m m]
        rfl
  · rw [ha] at hact
    obtain ⟨frame, stack, hstack, hafter, hprogress⟩ := act_finish hact
    obtain ⟨rfl, -⟩ := List.cons.inj (htop.symm.trans hstack)
    refine ⟨e.before.world, e.before.world, .refl _, Or.inl rfl, ?_⟩
    rw [hprogress, hafter]
    rfl

/-- A group that is not flushed at the end of a tick has only heard of removals there. -/
theorem heard_of_endTick {n : ManagerId} {u : World} (hends : e.EndsTick n)
    (hend : (e.after.world, e.progress) = u.endTick n) (hidle : ¬ e.Flushes g) :
    (u.group g).Heard (e.after.world.group g) := by
  have hworld : e.after.world = (u.endTick n).1 := congrArg Prod.fst hend
  have hprogress : e.progress = (u.endTick n).2 := congrArg Prod.snd hend
  obtain ⟨flushed, hsplit, hgroups⟩ := (u.removeAllDue n).flush_splits n
    (List.range ((u.removeAllDue n).manager n).groups.length)
  have hafter : e.after.world.group g = (u.removeAllDue n).group g := by
    rw [hworld]
    refine (hgroups g).trans (if_neg ?_)
    rintro ⟨rfl, hmem⟩
    refine hidle ⟨flushed, Or.inl ⟨hends, ?_⟩, hmem⟩
    rw [hprogress, hworld, World.sameCount_endTick u]
    exact hsplit.symm
  rw [hafter]
  exact World.heard_removeAllDue u n g

/-- A group that is there and is not flushed counts from the same members as before. -/
theorem since_of_not_flushes (hact : e.before.act e.action = some (e.after, e.progress))
    (hthere : g.number < (e.before.world.manager g.manager).groups.length)
    (hidle : ¬ e.Flushes g) (hsince : Group.Since base (e.before.world.group g)) :
    Group.Since base (e.after.world.group g) := by
  cases turn_of_act hact g.manager with
  | stays hsteady hends hsilent => exact hsteady.news g rfl hthere base hsince
  | ends u hready hend hends =>
      rw [← hready.group_of_lt hthere] at hsince
      exact (heard_of_endTick hends hend hidle).since hsince
  | flushes frame k below htop hframe hk hfinish hlasting hends =>
      cases ha : e.action with
      | request r => exact absurd ha (hfinish r)
      | finish outcome =>
          rw [ha] at hact
          obtain ⟨top, stack, hstack, hafter, hprogress⟩ := act_finish hact
          obtain ⟨rfl, rfl⟩ := List.cons.inj (htop.symm.trans hstack)
          cases frame with
          | notifying j notice rest numbers =>
              obtain rfl := Option.some.inj hframe
              cases rest with
              | cons next rest =>
                  rw [hafter]
                  exact hsince
              | nil =>
                  obtain ⟨flushed, hsplit, hgroups⟩ :=
                    e.before.world.flush_splits j.manager numbers
                  have hsame : e.after.world.group g = e.before.world.group g := by
                    rw [hafter]
                    refine (hgroups g).trans (if_neg fun hflushed => hidle ?_)
                    refine ⟨flushed, Or.inr ⟨outcome, j, notice, below, ha, ?_, hk⟩, hflushed.2⟩
                    rw [htop, hprogress]
                    exact congrArg (fun numbers => Frame.notifying j notice [] numbers :: below) hsplit
                  rw [hsame]
                  exact hsince
          | _ => cases hframe

/-- A group that is flushed counts from the members that it has then. -/
theorem since_of_flushes (hact : e.before.act e.action = some (e.after, e.progress))
    (hflush : e.Flushes g) (hsince : Group.Since base (e.before.world.group g)) :
    Group.Since (e.after.world.group g).members (e.after.world.group g) := by
  obtain ⟨flushed, htoflush, hmem⟩ := hflush
  obtain ⟨u, v, hready, hv, hend⟩ := htoflush.flush hact
  have hworld : e.after.world = (v.flush g.manager (flushed ++ e.progress.unflushed)).1 :=
    congrArg Prod.fst hend
  have hprogress : e.progress = (v.flush g.manager (flushed ++ e.progress.unflushed)).2 :=
    congrArg Prod.snd hend
  obtain ⟨others, hsplit, hgroups⟩ := v.flush_splits g.manager (flushed ++ e.progress.unflushed)
  rw [← hprogress] at hsplit
  obtain rfl := List.append_cancel_right hsplit
  have hafter : e.after.world.group g = (v.group g).drain.1 := by
    rw [hworld]
    exact (hgroups g).trans (if_pos ⟨rfl, hmem⟩)
  obtain ⟨next, hnext, -⟩ := hready.since hsince
  have hthen : Group.Since next (v.group g) := by
    rcases hv with rfl | rfl
    · exact hnext
    · exact (World.heard_removeAllDue u g.manager g).since hnext
  rw [hafter]
  exact hthen.flushed

/-- Groups are made when managers are got ready; a tick may end then. -/
theorem made_of_act (hact : e.before.act e.action = some (e.after, e.progress))
    (hmakes : e.Makes g) : ∃ u, World.Readied e.before.world u ∧
      (e.after.world = u ∨
        ∃ n, e.EndsTick n ∧ (e.after.world, e.progress) = u.endTick n) := by
  have hquiet : World.Readied e.before.world e.after.world ∨
      World.SameCount e.before.world e.after.world → World.Readied e.before.world e.after.world :=
    fun h => h.resolve_right fun hsame =>
      Nat.not_lt_of_le hmakes.1 (hsame g.manager ▸ hmakes.2)
  have htick : ∀ {n}, e.ticks? = some n →
      World.TickOutcome n e.before.world (e.after.world, e.progress) →
      ∃ u, World.Readied e.before.world u ∧ (e.after.world = u ∨
        ∃ n, e.EndsTick n ∧ (e.after.world, e.progress) = u.endTick n) := by
    intro n hticks houtcome
    generalize hresult : (e.after.world, e.progress) = result at houtcome ⊢
    cases houtcome with
    | ends u hready =>
        refine ⟨u, hready, Or.inr ⟨n, ⟨hticks, ?_⟩, rfl⟩⟩
        rw [show e.progress = (u.endTick n).2 from congrArg Prod.snd hresult]
        exact World.flush_progress _ n _
    | calls u frame hready hframe => exact ⟨u, hready, Or.inl (congrArg Prod.fst hresult)⟩
    | fails u cause hready => exact ⟨u, hready, Or.inl (congrArg Prod.fst hresult)⟩
  cases ha : e.action with
  | request r =>
      rw [ha] at hact
      obtain ⟨-, hafter, hprogress⟩ := act_request hact
      have hworld : e.after.world =
          (e.before.world.serve e.before.engaged e.before.told r).1 := by rw [hafter]
      by_cases hupdate : ∃ n time, r = .update n time
      · obtain ⟨n, time, rfl⟩ := hupdate
        refine htick (n := n) ?_ ?_
        · unfold Event.ticks?
          rw [ha]
        · rw [hworld, hprogress]
          exact World.tickOutcome_update _ n time _
      · refine ⟨_, hquiet ?_, Or.inl rfl⟩
        rw [hworld]
        exact World.groups_serve _ _ _ fun n time heq => hupdate ⟨n, time, heq⟩
  | finish outcome =>
      rw [ha] at hact
      obtain ⟨frame, below, htop, hafter, hprogress⟩ := act_finish hact
      have hworld : e.after.world = (e.before.world.resume outcome frame).1 := by rw [hafter]
      cases hframe : frame.ticks? with
      | some n =>
          refine htick (n := n) ?_ ?_
          · unfold Event.ticks?
            rw [ha, htop]
            exact hframe
          · rw [hworld, hprogress]
            exact World.tickOutcome_resume _ outcome hframe
      | none =>
          refine ⟨_, hquiet ?_, Or.inl rfl⟩
          rw [hworld]
          exact World.groups_resume _ outcome hframe

/-- A group that is made and not flushed counts from those whom it has taken up. -/
theorem since_of_makes (hact : e.before.act e.action = some (e.after, e.progress))
    (hmakes : e.Makes g) (hidle : ¬ e.Flushes g) :
    Group.Since (e.before.world.seededGroup g.manager (e.after.world.group g).filter).members
      (e.after.world.group g) := by
  obtain ⟨u, hready, hend⟩ := made_of_act hact hmakes
  have hheard : (u.group g).Heard (e.after.world.group g) := by
    rcases hend with hsame | ⟨n, hends, hend⟩
    · rw [hsame]
      exact .refl
    · exact heard_of_endTick hends hend hidle
  have hthere : g.number < (u.manager g.manager).groups.length := by
    rcases hend with hsame | ⟨n, -, hend⟩
    · rw [← hsame]
      exact hmakes.2
    · have hworld : e.after.world = (u.endTick n).1 := congrArg Prod.fst hend
      have hcount : World.SameCount u e.after.world := by
        rw [hworld]
        exact (World.sameCount_removeAllDue u n).trans (World.sameCount_endTick u n)
      rw [← hcount]
      exact hmakes.2
  have hgroup := hready.group_of_ge hmakes.1 hthere
  rw [hheard.filter]
  refine hheard.since ?_
  rw [hgroup, World.filter_seededGroup]
  exact .seeded (World.seeded_seededGroup _ _ _)

/-! ## Histories -/

/-- The undelivered change of a group is counted from those who were members at the last flush of
the history, or were taken up. -/
theorem since_counted (h : Runs start events s) (g : GroupRef) :
    ∃ base, Group.Since base (s.world.group g) ∧ ∀ x, x ∈ base ↔ Counted g x events := by
  refine h.induct (P := fun events s => ∃ base, Group.Since base (s.world.group g) ∧
    ∀ x, x ∈ base ↔ Counted g x events) ?_ fun events e _ ih hact => ?_
  · refine ⟨_, .seeded (.ofFilter ⟨[], []⟩), fun x => ?_⟩
    refine iff_of_false (IdSet.not_mem_empty x) ?_
    rintro ⟨earlier, e, later, hsplit, -⟩
    simp at hsplit
  · obtain ⟨base, hsince, hcounted⟩ := ih
    have hnext : ∀ {next : IdSet}, Group.Since next (e.after.world.group g) →
        (∀ x, x ∈ next ↔ e.Counts g x ∨ x ∈ base ∧ ¬ e.Flushes g) →
        ∃ base, Group.Since base (e.after.world.group g) ∧
          ∀ x, x ∈ base ↔ Counted g x (events ++ [e]) := by
      intro next hafter hmem
      refine ⟨next, hafter, fun x => ?_⟩
      rw [hmem, hcounted]
      exact (lately_snoc (P := fun e => e.Counts g x) (Q := fun e => ¬ e.Flushes g)).symm
    by_cases hflush : e.Flushes g
    · refine hnext (since_of_flushes hact hflush hsince) fun x => ?_
      simp [Event.Counts, hflush]
    · by_cases hmakes : e.Makes g
      · refine hnext (since_of_makes hact hmakes hflush) fun x => ?_
        simp [Event.Counts, hflush, hmakes, World.base_of_length_le hmakes.1 hsince x]
      · have hkept : Group.Since base (e.after.world.group g) := by
          rcases Nat.lt_or_ge g.number (e.before.world.manager g.manager).groups.length with
            hthere | hnone
          · exact since_of_not_flushes hact hthere hflush hsince
          · have hstill : (e.after.world.manager g.manager).groups.length ≤ g.number :=
              Nat.le_of_not_lt fun hlt => hmakes ⟨hnone, hlt⟩
            rw [World.group_of_length_le hnone] at hsince
            rw [World.group_of_length_le hstill]
            exact hsince
        refine hnext hkept fun x => ?_
        simp [Event.Counts, hflush, hmakes]

end Session

end EntityStore
