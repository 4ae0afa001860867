import EntityStore.Proofs.Session.Delivery

/-!
# Mirrors

A listener can keep a copy of its group: it starts from the members that it finds and goes by what
it is told.  A tick inside a notification flushes the group again, and the notices of that flush
overtake those of the outer flush that still wait.

* `Settles`: for each entity the waiting notices lead from the copy to the members of the last
  flush, the oldest first.
* `mirror_until_overtaken`: as long as no notice overtakes one about the same entity, every notice
  fits the copy, and once everything is delivered the copy is the group.
-/

namespace EntityStore

/-- A copy of a group after its listener is told something. -/
def IdSet.note (mirror : IdSet) (notice : Notice) : IdSet :=
  match notice.change with
  | .joined => mirror.insert notice.entity
  | .left => mirror.erase notice.entity

/-- A notice that makes sense to its listener: who joins is new, and who leaves was there. -/
def Notice.Fits (notice : Notice) (mirror : IdSet) : Prop :=
  match notice.change with
  | .joined => notice.entity ∉ mirror
  | .left => notice.entity ∈ mirror

/-- Is an entity a member after a change? -/
def MemberChange.isMember : MemberChange → Bool
  | joined => true
  | left => false

/-- What some notices say of an entity. -/
def changesOf (x : EntityId) (notices : List Notice) : List MemberChange :=
  (notices.filter fun notice => notice.entity = x).map Notice.change

/-- The group and the listener that an action asks to detach. -/
def Action.detaches? [Host] : Action → Option (GroupRef × ListenerId)
  | .request (.unlisten g l) => some (g, l)
  | _ => none

theorem mem_note {mirror : IdSet} {notice : Notice} {x : EntityId} :
    x ∈ mirror.note notice ↔
      if notice.entity = x then notice.change.isMember = true else x ∈ mirror := by
  obtain ⟨l, change, e⟩ := notice
  by_cases hx : e = x
  · subst hx
    cases change <;> simp [IdSet.note, MemberChange.isMember]
  · have hne : x ≠ e := fun heq => hx heq.symm
    cases change <;> simp [IdSet.note, hx, hne]

theorem fits_iff {mirror : IdSet} {notice : Notice} :
    notice.Fits mirror ↔ decide (notice.entity ∈ mirror) ≠ notice.change.isMember := by
  obtain ⟨l, change, e⟩ := notice
  cases change <;> simp [Notice.Fits, MemberChange.isMember]

theorem changesOf_append (x : EntityId) (notices more : List Notice) :
    changesOf x (notices ++ more) = changesOf x notices ++ changesOf x more := by
  simp [changesOf]

theorem changesOf_cons_self (notice : Notice) (notices : List Notice) :
    changesOf notice.entity (notice :: notices) =
      notice.change :: changesOf notice.entity notices := by
  simp [changesOf]

theorem changesOf_cons_of_ne {x : EntityId} {notice : Notice} (h : notice.entity ≠ x)
    (notices : List Notice) : changesOf x (notice :: notices) = changesOf x notices := by
  simp [changesOf, h]

/-! ## One entity -/

/-- Changes that wait, the latest first: the oldest changes a membership, each of the others changes
it back, and it ends as that of the last flush. -/
def Settles : List MemberChange → Bool → Bool → Prop
  | [], mirrored, flushed => mirrored = flushed
  | change :: older, mirrored, flushed =>
    change.isMember = flushed ∧ Settles older mirrored (!flushed)

/-- The changes that lead from one membership to another. -/
def netChange : Bool → Bool → List MemberChange
  | false, true => [.joined]
  | true, false => [.left]
  | _, _ => []

/-- A flush adds the net change. -/
theorem Settles.flush {older : List MemberChange} {mirrored flushed : Bool}
    (h : Settles older mirrored flushed) (now : Bool) :
    Settles (netChange flushed now ++ older) mirrored now := by
  cases flushed <;> cases now
  · exact h
  · exact ⟨rfl, h⟩
  · exact ⟨rfl, h⟩
  · exact h

/-- The copy agrees with the last flush if an even number of changes waits. -/
theorem Settles.agrees_iff {changes : List MemberChange} {mirrored flushed : Bool}
    (h : Settles changes mirrored flushed) : mirrored = flushed ↔ changes.length % 2 = 0 := by
  induction changes generalizing flushed with
  | nil =>
      have hsame : mirrored = flushed := h
      simp [hsame]
  | cons change older ih =>
      have hrest := ih h.2
      rw [List.length_cons]
      cases mirrored <;> cases flushed <;> simp at hrest ⊢ <;> omega

/-! ## What a flush says of one entity -/

theorem filter_eq_of_nodup {entities : List EntityId} (h : entities.Nodup) (x : EntityId) :
    entities.filter (fun e => e = x) = if x ∈ entities then [x] else [] := by
  rw [List.filter_eq, h.count]
  split <;> rfl

/-- A flush says of an entity how its membership has changed on the whole. -/
theorem changesOf_noticesTo {base : IdSet} {g : Group} (h : Group.Since base g) (l : ListenerId)
    (x : EntityId) : changesOf x (g.drain.2.noticesTo l) =
      netChange (decide (x ∈ base)) (decide (x ∈ g.members)) := by
  have hadded := h.net.added x
  have hremoved := h.net.removed x
  have hone : ∀ (s : IdSet) (change : MemberChange),
      changesOf x (s.toList.map fun e => ⟨l, change, e⟩) = if x ∈ s then [change] else [] := by
    intro s change
    have hnodup : s.toList.Nodup := s.ascending.imp Nat.ne_of_lt
    unfold changesOf
    rw [List.filter_map]
    show ((s.toList.filter fun e => e = x).map _).map _ = _
    rw [filter_eq_of_nodup hnodup]
    split
    · rename_i hx
      rw [if_pos (IdSet.mem_toList.1 hx)]
      rfl
    · rename_i hx
      rw [if_neg fun hmem => hx (IdSet.mem_toList.2 hmem)]
      rfl
  unfold News.noticesTo
  rw [changesOf_append, hone, hone]
  show (if x ∈ g.removed then _ else _) ++ (if x ∈ g.added then _ else _) = _
  by_cases hbase : x ∈ base <;> by_cases hmember : x ∈ g.members <;>
    simp [hadded, hremoved, hbase, hmember, netChange]

namespace Session

variable [Host] {s t u v : Session} {g : GroupRef} {l : ListenerId} {e : Event} {events : List Event}

/-- The copy that a listener of a group keeps, after some events. -/
def mirrored (g : GroupRef) (l : ListenerId) (seed : IdSet) (events : List Event) : IdSet :=
  (events.flatMap fun e => e.tells g l).foldl IdSet.note seed

/-- The notices about the same entity that a notice overtakes: they have been waiting for the same
listener and still wait. -/
def Event.overtaken (g : GroupRef) (l : ListenerId) (e : Event) (notice : Notice) :
    List MemberChange :=
  changesOf notice.entity (waiting g l e.after.stack)

/-- A notice is delivered before an older one about the same entity. -/
def Event.Overtakes (g : GroupRef) (l : ListenerId) (e : Event) : Prop :=
  ∃ notice ∈ e.tells g l, e.overtaken g l notice ≠ []

theorem mirrored_snoc (g : GroupRef) (l : ListenerId) (seed : IdSet) (events : List Event)
    (e : Event) : mirrored g l seed (events ++ [e]) =
      (e.tells g l).foldl IdSet.note (mirrored g l seed events) := by
  simp [mirrored]

/-- An event tells a listener of one change at most. -/
theorem tells_cases (g : GroupRef) (l : ListenerId) (e : Event) :
    e.tells g l = [] ∨ ∃ notice, e.tells g l = [notice] := by
  unfold Event.tells
  split
  · split
    · exact Or.inr ⟨_, rfl⟩
    · exact Or.inl rfl
  · exact Or.inl rfl

/-! ## What waits leads from the copy to the last flush -/

/-- For every entity, what waits for a listener leads from its copy to the members of the last
flush. -/
structure Mirrors (g : GroupRef) (l : ListenerId) (mirror : IdSet) (s : Session) : Prop where
  attached : l ∈ (s.world.group g).listeners
  settles : ∃ base, Group.Since base (s.world.group g) ∧
    ∀ x, Settles (changesOf x (waiting g l s.stack)) (decide (x ∈ mirror)) (decide (x ∈ base))

/-- What is told in an event and what waits then leads from the copy to the last flush. -/
theorem Mirrors.delivery {mirror : IdSet} (h : Mirrors g l mirror e.before)
    (hact : e.before.act e.action = some (e.after, e.progress))
    (hunlisten : e.action ≠ .request (.unlisten g l)) :
    l ∈ (e.after.world.group g).listeners ∧
      ∃ base, Group.Since base (e.after.world.group g) ∧
        ∀ x, Settles (changesOf x (e.tells g l ++ waiting g l e.after.stack))
          (decide (x ∈ mirror)) (decide (x ∈ base)) := by
  obtain ⟨base, hsince, hsettles⟩ := h.settles
  obtain ⟨hattached, hdelivery⟩ := delivery_of_act hact hunlisten h.attached hsince
  refine ⟨hattached, ?_⟩
  cases hdelivery with
  | kept hsame hlaw =>
      refine ⟨base, hsame, fun x => ?_⟩
      rw [hlaw]
      exact hsettles x
  | flushed met hmet hthere hafter hlaw =>
      refine ⟨met.members, ?_, fun x => ?_⟩
      · rw [hafter]
        exact hmet.flushed
      · rw [hlaw, changesOf_append, changesOf_noticesTo hmet]
        exact (hsettles x).flush _

/-- A notice fits the copy if and only if it overtakes an even number of others. -/
theorem Mirrors.fits_iff {mirror : IdSet} (h : Mirrors g l mirror e.before)
    (hact : e.before.act e.action = some (e.after, e.progress))
    (hunlisten : e.action ≠ .request (.unlisten g l)) {notice : Notice}
    (htold : e.tells g l = [notice]) :
    notice.Fits mirror ↔ (e.overtaken g l notice).length % 2 = 0 := by
  obtain ⟨-, base, -, hsettles⟩ := h.delivery hact hunlisten
  have hentity := hsettles notice.entity
  rw [htold, List.singleton_append, changesOf_cons_self] at hentity
  have hagrees := hentity.agrees_iff
  rw [EntityStore.fits_iff, hentity.1]
  show _ ↔ (changesOf notice.entity (waiting g l e.after.stack)).length % 2 = 0
  rw [List.length_cons] at hagrees
  rw [Ne, hagrees]
  omega

/-- Unless a notice overtakes another one, the copy stays right. -/
theorem Mirrors.step {mirror : IdSet} (h : Mirrors g l mirror e.before)
    (hact : e.before.act e.action = some (e.after, e.progress))
    (hunlisten : e.action ≠ .request (.unlisten g l)) (hclear : ¬ e.Overtakes g l) :
    Mirrors g l ((e.tells g l).foldl IdSet.note mirror) e.after := by
  obtain ⟨hattached, base, hsince, hsettles⟩ := h.delivery hact hunlisten
  refine ⟨hattached, base, hsince, fun x => ?_⟩
  have hentity := hsettles x
  rcases tells_cases g l e with hnone | ⟨notice, htold⟩
  · rw [hnone] at hentity ⊢
    exact hentity
  · rw [htold] at hentity ⊢
    show Settles _ (decide (x ∈ mirror.note notice)) _
    by_cases hx : notice.entity = x
    · subst hx
      rw [List.singleton_append, changesOf_cons_self] at hentity
      -- no other notice about this entity waits, so the copy is as the last flush
      have hlast : changesOf notice.entity (waiting g l e.after.stack) = [] := by
        refine Classical.byContradiction fun hsome => hclear ⟨notice, ?_, hsome⟩
        rw [htold]
        exact List.mem_singleton.2 rfl
      rw [hlast]
      show decide (notice.entity ∈ mirror.note notice) = decide (notice.entity ∈ base)
      rw [← hentity.1]
      simp [mem_note]
    · rw [List.singleton_append, changesOf_cons_of_ne hx] at hentity
      have hsame : (x ∈ mirror.note notice) = (x ∈ mirror) := by
        rw [mem_note, if_neg hx]
      simpa [hsame] using hentity

theorem Mirrors.runs {seed : IdSet} (h : Mirrors g l seed u) (hruns : Runs u events v)
    (hstays : ∀ e ∈ events, e.action ≠ .request (.unlisten g l))
    (hclear : ∀ e ∈ events, ¬ e.Overtakes g l) : Mirrors g l (mirrored g l seed events) v := by
  induction hruns with
  | refl => exact h
  | @step events t v _ a p hact ih =>
      have hlast : (⟨t, a, p, v⟩ : Event) ∈ events ++ [⟨t, a, p, v⟩] :=
        List.mem_append_right _ (List.mem_singleton.2 rfl)
      have hmid := ih (fun e he => hstays e (List.mem_append_left _ he))
        fun e he => hclear e (List.mem_append_left _ he)
      rw [mirrored_snoc]
      exact hmid.step (e := ⟨t, a, p, v⟩) hact (hstays _ hlast) (hclear _ hlast)

/-! ## Where a copy begins -/

/-- Whose changes are told of are groups that are there. -/
def Placed (s : Session) : Prop :=
  ∀ frame ∈ s.stack, ∀ g, frame.notifies? = some g →
    g.number < (s.world.manager g.manager).groups.length

/-- A group that is flushed and has something to tell is there. -/
theorem placed_of_flow {w : World} {r : World × Progress} (h : World.Flow g l w r) {frame : Frame}
    (hframe : frame ∈ r.2.pushed) (hg : frame.notifies? = some g) :
    g.number < (r.1.manager g.manager).groups.length := by
  rcases h with ⟨-, hpushed⟩ | ⟨x, notice, rest, groups, -, hnews, -⟩
  · exact absurd hg (hpushed frame hframe)
  · have hnotices : (x.group g).drain.2.notices (x.group g).listeners = notice :: rest :=
      congrArg Prod.snd hnews
    have haddressed : notice.listener ∈ (x.group g).listeners := by
      refine (News.mem_notices (n := (x.group g).drain.2)).1 ?_ |>.1
      rw [hnotices]
      exact List.mem_cons_self
    have hbefore := World.lt_length_of_mem_listeners haddressed
    have hworld : r.1 = x.updateGroup g fun _ => (x.group g).drain.1 :=
      (congrArg Prod.fst hnews).symm
    rw [hworld]
    exact Nat.lt_of_lt_of_le hbefore ((World.grows_updateGroup x g _).groups g.manager)

theorem Placed.step (h : Placed e.before)
    (hact : e.before.act e.action = some (e.after, e.progress)) : Placed e.after := by
  have hgrows := grows_of_act hact
  have hold : ∀ frame ∈ e.before.stack, ∀ g, frame.notifies? = some g →
      g.number < (e.after.world.manager g.manager).groups.length := fun frame hframe g hg =>
    Nat.lt_of_lt_of_le (h frame hframe g hg) (hgrows.groups g.manager)
  cases ha : e.action with
  | request r =>
      rw [ha] at hact
      obtain ⟨-, hafter, hprogress⟩ := act_request hact
      intro frame hframe g hg
      rw [hafter] at hframe
      rcases List.mem_append.1 hframe with hnew | hrest
      · -- any listener will do that the request does not detach
        obtain ⟨l, hl⟩ : ∃ l, r ≠ .unlisten g l := by
          cases r with
          | unlisten k l =>
              refine ⟨⟨l.place + 1⟩, fun heq => ?_⟩
              injection heq with hgroup hlistener
              exact Nat.ne_of_lt (Nat.lt_succ_self _) (congrArg ListenerId.place hlistener)
          | _ => exact ⟨⟨0⟩, nofun⟩
        have hflow := World.flow_serve e.before.world e.before.engaged e.before.told hl
        rw [hprogress] at hnew
        rw [hafter]
        exact placed_of_flow hflow hnew hg
      · exact hold frame hrest g hg
  | finish outcome =>
      rw [ha] at hact
      obtain ⟨top, below, htop, hafter, hprogress⟩ := act_finish hact
      intro frame hframe g hg
      rw [hafter] at hframe
      rcases List.mem_append.1 hframe with hnew | hrest
      · by_cases hnext : ∃ notice next rest groups, top = .notifying g notice (next :: rest) groups
        · obtain ⟨notice, next, rest, groups, rfl⟩ := hnext
          refine hold (.notifying g notice (next :: rest) groups) ?_ g rfl
          rw [htop]
          exact List.mem_cons_self
        · have hflow : World.Flow g ⟨0⟩ e.before.world (e.before.world.resume outcome top) :=
            World.flow_resume _ outcome fun notice next rest groups heq =>
              hnext ⟨notice, next, rest, groups, heq⟩
          rw [hprogress] at hnew
          rw [hafter]
          exact placed_of_flow hflow hnew hg
      · refine hold frame ?_ g hg
        rw [htop]
        exact List.mem_cons_of_mem _ hrest

theorem placed_of_reaches (h : Reaches start s) : Placed s := by
  obtain ⟨events, hruns⟩ := runs_of_reaches h
  refine hruns.induct (P := fun _ s => Placed s) ?_ fun _ _ _ hplaced hact => hplaced.step hact
  exact fun frame hframe => absurd hframe List.not_mem_nil

/-- Of a group that is not there nothing waits to be told. -/
theorem Placed.waiting_eq_nil (h : Placed s)
    (hg : (s.world.manager g.manager).groups.length ≤ g.number) : waiting g l s.stack = [] := by
  have hnone : s.stack.flatMap (frameNotices g) = [] := by
    rw [List.flatMap_eq_nil_iff]
    intro frame hframe
    refine frameNotices_of_notifies fun heq => ?_
    exact absurd (h frame hframe g heq) (Nat.not_lt_of_le hg)
  unfold waiting
  rw [hnone]
  rfl

/-- A group is made, and a listener is attached to it at once: its copy are the members it finds. -/
theorem mirrors_of_made {m : ManagerId} {required forbidden : List KindId} {q : Progress}
    (hstart : Reaches start s) (hmade : m.place < s.world.managers.length)
    (hmake : s.act (.request (.openGroup m required forbidden)) =
      some (t, .replies (.ok (.group ⟨m, (s.world.manager m).groups.length⟩))))
    (hlisten : t.act (.request (.listen ⟨m, (s.world.manager m).groups.length⟩ l)) = some (u, q)) :
    Mirrors ⟨m, (s.world.manager m).groups.length⟩ l
      (t.world.group ⟨m, (s.world.manager m).groups.length⟩).members u := by
  let g : GroupRef := ⟨m, (s.world.manager m).groups.length⟩
  obtain ⟨-, ht, hanswer⟩ := act_request hmake
  obtain ⟨-, hu, hq⟩ := act_request hlisten
  -- the group is new, and it has no listeners yet
  obtain ⟨k, hopened, hk⟩ := World.eq_ok_of_answer hanswer.symm
  obtain rfl := Granted.group.inj hk
  have htworld : t.world = s.world.withGroup m
      (s.world.seededGroup m (Filter.of required forbidden)) := by
    rw [ht, ← World.openGroup_made hopened]
    exact World.answer_world _ _
  obtain ⟨hgroup, hthere⟩ := World.group_withGroup hmade
    (s.world.seededGroup m (Filter.of required forbidden))
  rw [← htworld] at hgroup hthere
  have hseeded : (t.world.group g).Seeded := by
    rw [hgroup]
    exact World.seeded_seededGroup s.world m _
  -- so the listener is not refused
  have huworld : u.world = (t.world.listen g l).1 := by
    rw [hu]
    exact World.answer_world _ _
  obtain ⟨hattach, hattached⟩ := World.group_listen_of_new (g := g) (l := l) hthere (by
    rw [hseeded.fields.2.2]
    exact List.not_mem_nil)
  rw [← huworld] at hattach hattached
  have hstack : u.stack = s.stack := by
    have hidle : q.pushed = [] := by
      rw [hq]
      exact World.pushed_answer _ _
    rw [hu, ht, hidle]
    rfl
  refine ⟨hattached, (t.world.group g).members, (Group.Since.seeded hseeded).listened hattach,
    fun x => ?_⟩
  rw [hstack, (placed_of_reaches hstart).waiting_eq_nil (Nat.le_refl _)]
  rfl

/-- A group is made and a listener is attached to it at once, whatever is running.  It keeps a copy
by what it is told, and stays attached.

* As long as no notice has overtaken an older one about the same entity, the next notice fits the
  copy if and only if it overtakes an even number of them, so in particular if it overtakes none.
* If none ever does, then whenever no callback is running and the group has no undelivered change,
  the copy is the group. -/
theorem mirror_until_overtaken {m : ManagerId} {required forbidden : List KindId} {q : Progress}
    (hstart : Reaches start s) (hmade : m.place < s.world.managers.length)
    (hmake : s.act (.request (.openGroup m required forbidden)) =
      some (t, .replies (.ok (.group ⟨m, (s.world.manager m).groups.length⟩))))
    (hlisten : t.act (.request (.listen ⟨m, (s.world.manager m).groups.length⟩ l)) = some (u, q))
    (hruns : Runs u events v)
    (hstays : ∀ e ∈ events,
      e.action ≠ .request (.unlisten ⟨m, (s.world.manager m).groups.length⟩ l)) :
    let g : GroupRef := ⟨m, (s.world.manager m).groups.length⟩
    let seed := (t.world.group g).members
    (∀ earlier e later notice, events = earlier ++ e :: later →
      (∀ f ∈ earlier, ¬ f.Overtakes g l) → e.tells g l = [notice] →
        (notice.Fits (mirrored g l seed earlier) ↔ (e.overtaken g l notice).length % 2 = 0)) ∧
    ((∀ e ∈ events, ¬ e.Overtakes g l) → v.stack = [] → (v.world.group g).added = ∅ →
      (v.world.group g).removed = ∅ → mirrored g l seed events = (v.world.group g).members) := by
  intro g seed
  have hmirrors : Mirrors g l seed u := mirrors_of_made hstart hmade hmake hlisten
  refine ⟨fun earlier e later notice hall hclear htold => ?_, fun hclear hquiet hadded hremoved => ?_⟩
  · subst hall
    obtain ⟨hbefore, hact⟩ := hruns.split
    have hnow := hmirrors.runs hbefore
      (fun f hf => hstays f (List.mem_append_left _ hf)) hclear
    exact hnow.fits_iff hact (hstays e (by simp)) htold
  · obtain ⟨-, base, hsince, hsettles⟩ := hmirrors.runs hruns hstays hclear
    have hbase : base = (v.world.group g).members := by
      refine hsince.net.base_eq ?_ ?_
      · rw [hadded]
        exact IdSet.not_mem_empty
      · rw [hremoved]
        exact IdSet.not_mem_empty
    rw [← hbase]
    ext x
    have hsettled := hsettles x
    rw [hquiet] at hsettled
    have hsame : decide (x ∈ mirrored g l seed events) = decide (x ∈ base) := hsettled
    exact decide_eq_decide.1 hsame

theorem act_openGroup {m : ManagerId} {required forbidden : List KindId}
    (h : (s.world.openGroup m required forbidden).2.toOption = some g) :
    s.act (.request (.openGroup m required forbidden)) =
      some (s.after (.openGroup m required forbidden), .replies (.ok (.group g))) := by
  have hserved : (s.world.serve s.engaged s.told (.openGroup m required forbidden)).2 =
      .replies (.ok (.group g)) := by
    show (World.answer Granted.group (s.world.openGroup m required forbidden)).2 = _
    generalize s.world.openGroup m required forbidden = r at h ⊢
    obtain ⟨w, result⟩ := r
    cases result with
    | error cause => cases h
    | ok k =>
        cases h
        rfl
  rw [act_eq_after s rfl, hserved]

end Session

end EntityStore

namespace EntityStore.Session

attribute [local instance] Host.plain

/-! ### Two copies -/

/-- A session with a kind of a manager and a listener. -/
def watched : Session :=
  start.afterAll [.makeKind "A" .default, .makeManager .default, .registerKind ⟨0⟩ ⟨0⟩, .makeListener]

theorem reaches_watched : Reaches start watched := by
  refine reachesUnder_true_iff.1 ?_
  refine ReachesUnder.request ?_ rfl True.intro
  refine ReachesUnder.request ?_ (by decide +kernel) True.intro
  refine ReachesUnder.request ?_ (by decide +kernel) True.intro
  exact ReachesUnder.refl.request rfl True.intro

/-- The session with a group of the kind, to which the listener is attached. -/
def attached : Session :=
  (watched.after (.openGroup ⟨0⟩ [⟨0⟩] [])).after (.listen ⟨⟨0⟩, 0⟩ ⟨0⟩)

/-- Two entities are made, and the next tick tells the listener of the first.  From inside this call
the second one is removed in another tick, and the listener is told that it left before it is told
that it has joined.  In the end its copy has an entity that the group has not. -/
theorem mirror_of_nested_tick :
    let g : GroupRef := ⟨⟨0⟩, 0⟩
    let l : ListenerId := ⟨0⟩
    let run := attached.follow [.request (.create ⟨0⟩ [⟨0⟩]), .request (.create ⟨0⟩ [⟨0⟩]),
      .request (.update ⟨0⟩ Time.start), .request (.scheduleRemoval ⟨0⟩ 2),
      .request (.update ⟨0⟩ Time.start), .finish (.ok ()), .finish (.ok ()), .finish (.ok ())]
    let seed := ((watched.after (.openGroup ⟨0⟩ [⟨0⟩] [])).world.group g).members
    Reaches start watched ∧ Runs attached run.1 run.2 ∧
      run.1.flatMap (fun e => e.tells g l) = [⟨l, .joined, 1⟩, ⟨l, .left, 2⟩, ⟨l, .joined, 2⟩] ∧
      ¬ (⟨l, .left, 2⟩ : Notice).Fits (seed.note ⟨l, .joined, 1⟩) ∧
      run.2.stack = [] ∧ (run.2.world.group g).added = ∅ ∧ (run.2.world.group g).removed = ∅ ∧
      (mirrored g l seed run.1).toList = [1, 2] ∧ (run.2.world.group g).members.toList = [1] := by
  intro g l run seed
  refine ⟨reaches_watched, runs_follow attached _, ?_, ?_, List.isEmpty_iff.1 ?_, ?_, ?_, ?_, ?_⟩
  · decide +kernel
  · rw [EntityStore.fits_iff]
    decide +kernel
  · decide +kernel
  · decide +kernel
  · decide +kernel
  · decide +kernel
  · decide +kernel

/-- An entity is made, and once its notice has come back the copy is the group. -/
theorem mirror_of_one_entity :
    let g : GroupRef := ⟨⟨0⟩, 0⟩
    let l : ListenerId := ⟨0⟩
    let run := attached.follow [.request (.create ⟨0⟩ [⟨0⟩]), .request (.update ⟨0⟩ Time.start),
      .finish (.ok ())]
    let seed := ((watched.after (.openGroup ⟨0⟩ [⟨0⟩] [])).world.group g).members
    (mirrored g l seed run.1).toList = [1] ∧
      mirrored g l seed run.1 = (run.2.world.group g).members := by
  intro g l run seed
  have hmake : watched.act (.request (.openGroup ⟨0⟩ [⟨0⟩] [])) =
      some (watched.after (.openGroup ⟨0⟩ [⟨0⟩] []),
        .replies (.ok (.group ⟨⟨0⟩, (watched.world.manager ⟨0⟩).groups.length⟩))) :=
    act_openGroup (by decide +kernel)
  have hnumber : (watched.world.manager ⟨0⟩).groups.length = 0 := by decide +kernel
  have hlisten := act_eq_after (watched.after (.openGroup ⟨0⟩ [⟨0⟩] []))
    (rfl : (Request.listen g l).exclusive? = none)
  have hclear : ∀ e ∈ run.1, ¬ e.Overtakes g l := by
    have hnone : run.1.all (fun e => (waiting g l e.after.stack).isEmpty) = true := by
      decide +kernel
    rintro e he ⟨notice, -, hsome⟩
    have hempty := List.isEmpty_iff.1 (List.all_eq_true.1 hnone e he)
    refine hsome ?_
    unfold Event.overtaken
    rw [hempty]
    rfl
  have hstays : ∀ e ∈ run.1, e.action ≠ .request (.unlisten g l) := by
    have hnone : ∀ e ∈ run.1, e.action.detaches? = none := by decide +kernel
    intro e he heq
    have hdetaches := hnone e he
    rw [heq] at hdetaches
    cases hdetaches
  have hmirror := mirror_until_overtaken reaches_watched (by decide +kernel) hmake
    (by rw [hnumber]; exact hlisten) (runs_follow attached _) (by rw [hnumber]; exact hstays)
  rw [hnumber] at hmirror
  refine ⟨by decide +kernel, hmirror.2 hclear (List.isEmpty_iff.1 ?_) ?_ ?_⟩
  · decide +kernel
  · decide +kernel
  · decide +kernel

end EntityStore.Session
