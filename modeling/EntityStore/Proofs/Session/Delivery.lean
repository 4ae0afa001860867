import EntityStore.Proofs.Session.Phases
import EntityStore.Proofs.World.Listening

/-!
# Deliveries

What listeners are told in a session, and in which order.

* `came_of_reaches`: every group, wherever code outside can look, has come about by seeding and by
  what it has heard of since.
* `Flow`: what a step does to one group.  Its listener stays attached and is told nothing, or the
  group is flushed and the first notice is delivered.
* `delivery_of_act`: an event delivers what has waited longest in the innermost flush; the notices
  of a new flush come before all that were waiting.
* `flush_delivers_net_change`: the law of flushes.
-/

namespace EntityStore

variable [Host]

/-- The group of whose change a frame tells a listener. -/
def Frame.notifies? : Frame → Option GroupRef
  | notifying g _ _ _ => some g
  | _ => none

theorem Frame.notifies?_of_isPlain {frame : Frame} (h : frame.isPlain = true) :
    frame.notifies? = none := by
  cases frame with
  | notifying g notice rest groups => cases h
  | _ => rfl

theorem Frame.notifies?_of_engaged {frame : Frame} {m : ManagerId}
    (h : frame.engaged? = some m) : frame.notifies? = none := by
  cases frame with
  | notifying g notice rest groups => cases h
  | _ => rfl

theorem Frame.notifies?_of_tended {frame : Frame} {m : ManagerId}
    (h : frame.tended? = some m) : frame.notifies? = none := by
  cases frame with
  | notifying g notice rest groups => cases h
  | _ => rfl

namespace World

variable {w v u : World} {g : GroupRef} {l : ListenerId}

/-! ## Every group has come about -/

/-- Every group has come about somehow. -/
def Came (w : World) : Prop := ∀ g, ∃ base, Group.Since base (w.group g)

theorem came_empty : World.empty.Came := fun _ => ⟨_, .seeded (.ofFilter ⟨[], []⟩)⟩

theorem Came.of_groups (hw : w.Came) (h : ∀ g, v.group g = w.group g) : v.Came := by
  intro g
  rw [h]
  exact hw g

theorem Came.of_heard (hw : w.Came) (h : ∀ g, (w.group g).Heard (v.group g)) : v.Came := by
  intro g
  obtain ⟨base, hsince⟩ := hw g
  exact ⟨base, (h g).since hsince⟩

theorem Came.updateManager (hw : w.Came) (m : ManagerId) {change : Manager → Manager}
    (h : ∀ manager, (change manager).groups = manager.groups) : (w.updateManager m change).Came :=
  hw.of_groups fun g => group_updateManager h w m g

/-- A change of one group that it can have come about by. -/
theorem Came.updateGroup (hw : w.Came) (h : GroupRef) {change : Group → Group}
    (hchange : ∀ base, Group.Since base (w.group h) → ∃ base, Group.Since base (change (w.group h))) :
    (w.updateGroup h change).Came := by
  intro g
  rw [group_updateGroup]
  split
  · obtain ⟨base, hsince⟩ := hw h
    exact hchange base hsince
  · exact hw g

theorem Came.move {rule : Rule} (hw : w.Came) (h : Move rule w v) : v.Came := by
  cases h with
  | makeKind name config => exact hw.of_heard (tells_makeKind w name config).group
  | declare k name type default bounds =>
      exact hw.of_heard (tells_declare w k name type default bounds).group
  | setValue k p e x => exact hw.of_heard (tells_setValue w k p e x).group
  | addHolder k e hrule => exact hw.of_heard (tells_addHolder w k e).group
  | removeHolder k e hrule => exact hw.of_heard (tells_removeHolder w k e).group
  | attach k number o hrule => exact hw.of_heard (tells_attach w k _).group
  | makeManager config => exact hw.of_groups fun g => group_makeManager w config g
  | retire m => exact hw.updateManager m fun _ => rfl
  | registerKind m k hrule => exact hw.of_groups (group_registerKind w m k)
  | registerProcessor m p hrule => exact hw.of_groups (group_registerProcessor w m p)
  | create m kinds hrule => exact hw.of_heard (heard_create w m kinds)
  | scheduleRemoval m e hrule => exact hw.updateManager m fun _ => rfl
  | addComponent m e k hrule => exact hw.of_heard (tells_addComponent w m e k).group
  | removeComponent m e k hrule => exact hw.of_heard (tells_removeComponent w m e k).group
  | openGroup m required forbidden =>
      intro g
      rcases group_openGroup w m required forbidden g with hsame | ⟨-, hseeded⟩
      · rw [hsame]
        exact hw g
      · exact ⟨_, .seeded hseeded⟩
  | listen g l =>
      unfold listen
      split
      · rename_i new hnew
        exact hw.updateGroup g fun base hsince => ⟨base, hsince.listened hnew⟩
      · exact hw
  | unlisten g l => exact hw.updateGroup g fun base hsince => ⟨base, hsince.unlistened l⟩
  | takeNews g => exact hw.updateGroup g fun base hsince => ⟨_, hsince.flushed⟩
  | removeDue m e hdue => exact hw.of_heard (heard_removeDue w m e)
  | countInit m => exact hw.updateManager m fun _ => rfl
  | setLifecycle m life => exact hw.updateManager m fun _ => rfl
  | elsewhere v hkinds hmanagers hprocessors =>
      exact hw.of_groups fun g => group_of_same_managers hmanagers g

/-! ## What a step does to a group -/

/-- What a step does to a group with a listener: the listener stays attached, is told nothing and
loses nothing, or the group is flushed and the first notice is delivered. -/
def Flow (g : GroupRef) (l : ListenerId) (w : World) (r : World × Progress) : Prop :=
  (Kept g l w r.1 ∧ ∀ frame ∈ r.2.pushed, frame.notifies? ≠ some g) ∨
    ∃ u notice rest groups, Kept g l w u ∧ u.takeNews g = (r.1, notice :: rest) ∧
      r.2 = .calls (.notifying g notice rest groups)

theorem Flow.after {r : World × Progress} (hkept : Kept g l w u) (h : Flow g l u r) :
    Flow g l w r := by
  rcases h with ⟨hmore, hpushed⟩ | ⟨x, notice, rest, groups, hmore, hnews, hcalls⟩
  · exact Or.inl ⟨hkept.trans hmore, hpushed⟩
  · exact Or.inr ⟨x, notice, rest, groups, hkept.trans hmore, hnews, hcalls⟩

theorem Flow.of_kept {r : World × Progress} (hkept : Kept g l w r.1)
    (h : ∀ frame ∈ r.2.pushed, frame.notifies? = none) : Flow g l w r := by
  refine Or.inl ⟨hkept, fun frame hframe => ?_⟩
  rw [h frame hframe]
  exact nofun

/-- No callback begins, and the world stays as it is. -/
theorem Flow.idle {p : Progress} (h : p.pushed = []) : Flow g l w (w, p) :=
  .of_kept (.refl g l w) (Progress.forall_pushed_of_nil h)

theorem flow_flush (w : World) (m : ManagerId) (numbers : List Nat) (g : GroupRef)
    (l : ListenerId) : Flow g l w (w.flush m numbers) := by
  induction numbers generalizing w with
  | nil => exact .idle rfl
  | cons number groups ih =>
      have hother : g ≠ ⟨m, number⟩ → Kept g l w (w.takeNews ⟨m, number⟩).1 :=
        fun hne => kept_takeNews_of_ne hne w l
      cases hnews : w.takeNews ⟨m, number⟩ with
      | mk u news =>
          rw [hnews] at hother
          cases news with
          | nil =>
              have hkept : Kept g l w u := by
                by_cases hg : g = ⟨m, number⟩
                · have hnone : (w.takeNews g).2 = [] := by rw [hg, hnews]
                  have hsame := kept_takeNews_of_nil (l := l) hnone
                  rw [hg, hnews] at hsame
                  rw [hg]
                  exact hsame
                · exact hother hg
              simp only [flush, hnews]
              exact (ih u).after hkept
          | cons notice rest =>
              simp only [flush, hnews]
              by_cases hg : g = ⟨m, number⟩
              · subst hg
                exact Or.inr ⟨w, notice, rest, groups, .refl _ l w, hnews, rfl⟩
              · refine Or.inl ⟨hother hg, Progress.forall_pushed_calls ?_⟩
                exact fun heq => hg (Option.some.inj heq).symm

theorem flow_endTick (w : World) (m : ManagerId) (g : GroupRef) (l : ListenerId) :
    Flow g l w (w.endTick m) :=
  (flow_flush _ m _ g l).after (kept_removeAllDue w m g l)

theorem flow_runUpdates (w : World) (m : ManagerId) (time : Time) (processors : List ProcessorId)
    (g : GroupRef) (l : ListenerId) : Flow g l w (w.runUpdates m time processors) := by
  rcases runUpdates_cases w m time processors with htick | ⟨p, hsame, hpushed⟩
  · rw [htick]
    exact flow_endTick w m g l
  · rw [hsame]
    refine .of_kept (.refl g l w) fun frame hframe => ?_
    exact Frame.notifies?_of_engaged (hpushed frame hframe).1

theorem flow_runInits (w : World) (m : ManagerId) (next : Option Time)
    (processors : List ProcessorId) (g : GroupRef) (l : ListenerId) :
    Flow g l w (w.runInits m next processors) := by
  induction processors generalizing w with
  | nil =>
      have hkept : Kept g l w (w.updateManager m fun manager =>
          { manager with lifecycle := .running }) := by
        refine kept_updateManager ?_ w m g l
        exact fun _ => rfl
      unfold runInits
      cases next with
      | none => exact .of_kept hkept (Progress.forall_pushed_of_nil rfl)
      | some time => exact (flow_runUpdates _ m time _ g l).after hkept
  | cons p rest ih =>
      unfold runInits
      split
      · exact .of_kept (.refl g l w) (Progress.forall_pushed_calls rfl)
      · rename_i visitor hbody
        have hsettle := kept_settleVisitor w p visitor m g l
        split
        · rename_i hsettled
          rw [hsettled] at hsettle
          exact .of_kept hsettle (Progress.forall_pushed_of_nil rfl)
        · rename_i x hsettled
          rw [hsettled] at hsettle
          have hcount : Kept g l x (x.countInit m) := by
            refine kept_updateManager ?_ x m g l
            exact fun _ => rfl
          exact (ih _).after (hsettle.trans hcount)

theorem flow_shutDown (w : World) (m : ManagerId) (engaged : Bool) (g : GroupRef)
    (l : ListenerId) : Flow g l w (w.shutDown m engaged) := by
  refine .of_kept ?_ fun frame hframe => ?_
  · rw [shutDown_world]
    refine kept_updateManager ?_ w m g l
    exact fun _ => rfl
  · exact Frame.notifies?_of_tended (tended_shutDown w m engaged frame hframe)

/-- A request that is no phase leaves a listener attached, unless it is to detach it. -/
theorem kept_serve (w : World) (engaged : ManagerId → Bool) (told : ObserverId → Bool)
    {r : Request} (hphase : r.isPhase = false) (hunlisten : r ≠ .unlisten g l) :
    Kept g l w (w.serve engaged told r).1 := by
  have hserved := w.served engaged told r
  generalize (w.serve engaged told r).1 = v at hserved ⊢
  have hmanager : ∀ m (change : Manager → Manager),
      (∀ manager, (change manager).groups = manager.groups) →
        Kept g l w (w.updateManager m change) := fun m change h => kept_updateManager h w m g l
  cases hserved with
  | heard htells => exact kept_tells htells g l
  | makeManager config => exact kept_of_group_eq (group_makeManager w config g) l
  | retire m => exact hmanager m _ fun _ => rfl
  | registerKind m k => exact kept_of_group_eq (group_registerKind w m k g) l
  | registerProcessor m p => exact kept_of_group_eq (group_registerProcessor w m p g) l
  | create m kinds => exact kept_create w m kinds g l
  | scheduleRemoval m e => exact hmanager m _ fun _ => rfl
  | openGroup m required forbidden => exact kept_openGroup w m required forbidden g l
  | listen h k => exact kept_listen w h k g l
  | unlisten h k =>
      refine kept_unlisten w ?_
      rintro ⟨rfl, rfl⟩
      exact hunlisten rfl
  | makeProcessor p => exact kept_of_same_managers rfl g l
  | settles p visitor m => exact kept_settleVisitor w p visitor m g l
  | initialises m => cases hphase
  | updates m time => cases hphase
  | ends m => cases hphase

theorem flow_serve (w : World) (engaged : ManagerId → Bool) (told : ObserverId → Bool)
    {r : Request} (hunlisten : r ≠ .unlisten g l) : Flow g l w (w.serve engaged told r) := by
  cases hphase : r.isPhase with
  | false =>
      refine .of_kept (kept_serve w engaged told hphase hunlisten) fun frame hframe => ?_
      exact Frame.notifies?_of_isPlain (plain_serve w engaged told hphase frame hframe)
  | true =>
      have hbegins : ∀ {m}, r.begins? = some m → Flow g l w (w.serve engaged told r) := by
        intro m hr
        rcases w.begins_cases engaged told hr with ⟨-, -, next, h⟩ | ⟨-, ⟨time, h⟩ | ⟨reply, h⟩⟩
        · rw [h]
          exact flow_runInits w m next _ g l
        · rw [h]
          exact flow_runUpdates w m time _ g l
        · rw [h]
          exact .idle rfl
      cases r with
      | initialise m => exact hbegins rfl
      | update m time => exact hbegins rfl
      | shutDown m => exact flow_shutDown w m _ g l
      | _ => cases hphase

/-- What follows a callback, other than the next notice of the same flush. -/
theorem flow_resume (w : World) (outcome : Outcome) {frame : Frame}
    (h : ∀ notice next rest groups, frame ≠ .notifying g notice (next :: rest) groups) :
    Flow g l w (w.resume outcome frame) := by
  have hresumed := w.resumed outcome frame
  generalize w.resume outcome frame = result at hresumed ⊢
  cases hresumed with
  | answers reply => exact .idle rfl
  | inits m p rest next =>
      have hcount : Kept g l w (w.countInit m) := by
        refine kept_updateManager ?_ w m g l
        exact fun _ => rfl
      exact (flow_runInits _ m next rest g l).after hcount
  | updates m p time rest => exact flow_runUpdates w m time rest g l
  | visits m p time stage next errand =>
      exact .of_kept (.refl g l w) (Progress.forall_pushed_calls rfl)
  | leaves m p time stage rest => exact flow_runUpdates w m time rest g l
  | stops m p rest failure cause =>
      refine .of_kept ?_ fun frame hframe => ?_
      · rw [runStops_world]
        exact .refl g l w
      · exact Frame.notifies?_of_tended (w.tended_runStops m cause rest frame hframe)
  | notifies k notice following rest groups =>
      refine Or.inl ⟨.refl g l w, Progress.forall_pushed_calls fun heq => ?_⟩
      obtain rfl := Option.some.inj heq
      exact h notice following rest groups rfl
  | flushes k notice groups => exact flow_flush w k.manager groups g l
  | walks k e rest =>
      refine .of_kept ?_ fun frame hframe => ?_
      · rw [walkFrom_world]
        exact .refl g l w
      · exact Frame.notifies?_of_isPlain (plain_walkFrom w k rest frame hframe)

end World

namespace Session

variable {s t : Session} {g : GroupRef} {l : ListenerId} {e : Event}

theorem came_of_reaches (h : Reaches start s) : s.world.Came :=
  Moves.preserves (fun move hw => hw.move move) (moves_of_reachesUnder (reachesUnder_true_iff.2 h))
    World.came_empty

/-! ## What waits to be told -/

/-- The notice of a group that a listener gets with an event, if any. -/
def Event.tells (g : GroupRef) (l : ListenerId) (e : Event) : List Notice :=
  match e.progress with
  | .calls (.notifying h notice _ _) => if h = g ∧ notice.listener = l then [notice] else []
  | _ => []

/-- The notices of a group that follow a frame. -/
def frameNotices (g : GroupRef) : Frame → List Notice
  | .notifying h _ rest _ => if h = g then rest else []
  | _ => []

/-- The notices of a group that wait for a listener, those of the innermost flush first. -/
def waiting (g : GroupRef) (l : ListenerId) (stack : List Frame) : List Notice :=
  (stack.flatMap (frameNotices g)).filter fun notice => notice.listener = l

theorem waiting_cons (g : GroupRef) (l : ListenerId) (frame : Frame) (below : List Frame) :
    waiting g l (frame :: below) =
      (frameNotices g frame).filter (fun notice => notice.listener = l) ++ waiting g l below := by
  simp [waiting]

theorem frameNotices_of_notifies {frame : Frame} (h : frame.notifies? ≠ some g) :
    frameNotices g frame = [] := by
  cases frame with
  | notifying k notice rest groups =>
      have hk : k ≠ g := fun heq => h (congrArg some heq)
      simp [frameNotices, hk]
  | _ => rfl

/-- Nothing is told by a step that calls no listener of the group. -/
theorem tells_append_waiting_of_silent {below : List Frame}
    (h : ∀ frame ∈ e.progress.pushed, frame.notifies? ≠ some g) :
    e.tells g l ++ waiting g l (e.progress.pushed ++ below) = waiting g l below := by
  unfold Event.tells
  cases hprogress : e.progress with
  | replies reply => rfl
  | calls frame =>
      rw [hprogress] at h
      have hframe : frame.notifies? ≠ some g := h frame (List.mem_singleton.2 rfl)
      show _ ++ waiting g l (frame :: below) = _
      rw [waiting_cons, frameNotices_of_notifies hframe]
      cases frame with
      | notifying k notice rest groups =>
          have hk : k ≠ g := fun heq => hframe (congrArg some heq)
          simp [hk]
      | _ => rfl

/-- A notice is told, and those behind it wait. -/
theorem tells_append_waiting_of_calls {below : List Frame} {notice : Notice} {rest : List Notice}
    {groups : List Nat} (h : e.progress = .calls (.notifying g notice rest groups)) :
    e.tells g l ++ waiting g l (e.progress.pushed ++ below) =
      (notice :: rest).filter (fun notice => notice.listener = l) ++ waiting g l below := by
  unfold Event.tells
  rw [h]
  show _ ++ waiting g l (.notifying g notice rest groups :: below) = _
  rw [waiting_cons]
  by_cases hl : notice.listener = l <;> simp [frameNotices, hl]

/-! ## What an event delivers -/

/-- What an event does for a listener of a group, of which `base` were the members at the last
flush. -/
inductive Delivery (g : GroupRef) (l : ListenerId) (base : IdSet) (e : Event) : Prop where
  /-- The group is not flushed.  What is told, if anything, has waited longest in the innermost
  flush. -/
  | kept (hsince : Group.Since base (e.after.world.group g))
      (hlaw : e.tells g l ++ waiting g l e.after.stack = waiting g l e.before.stack)
  /-- The group is flushed, as it stands then.  Its notices come before all that were waiting. -/
  | flushed (met : Group) (hsince : Group.Since base met) (hattached : l ∈ met.listeners)
      (hafter : e.after.world.group g = met.drain.1)
      (hlaw : e.tells g l ++ waiting g l e.after.stack =
        met.drain.2.noticesTo l ++ waiting g l e.before.stack)

theorem delivery_of_flow {base : IdSet} {below : List Frame}
    (hflow : World.Flow g l e.before.world (e.after.world, e.progress))
    (hstack : e.after.stack = e.progress.pushed ++ below)
    (hbelow : waiting g l e.before.stack = waiting g l below)
    (hl : l ∈ (e.before.world.group g).listeners)
    (hsince : Group.Since base (e.before.world.group g)) :
    l ∈ (e.after.world.group g).listeners ∧ Delivery g l base e := by
  rcases hflow with ⟨hkept, hpushed⟩ | ⟨u, notice, rest, groups, hkept, hnews, hcalls⟩
  · obtain ⟨hafter, hsame⟩ := hkept hl
    refine ⟨hafter, .kept (hsame base hsince) ?_⟩
    rw [hstack, hbelow]
    exact tells_append_waiting_of_silent hpushed
  · obtain ⟨hattached, hsame⟩ := hkept hl
    have hthen := hsame base hsince
    have hdrained : e.after.world.group g = (u.group g).drain.1 := by
      rw [← World.group_takeNews hattached, hnews]
    have hnotices : (u.group g).drain.2.notices (u.group g).listeners = notice :: rest :=
      congrArg Prod.snd hnews
    refine ⟨?_, .flushed (u.group g) hthen hattached hdrained ?_⟩
    · rw [hdrained]
      exact hattached
    · rw [hstack, hbelow, tells_append_waiting_of_calls hcalls, ← hnotices,
        hthen.flushes.heard l hattached]

/-- Every event keeps an attached listener attached, unless it detaches it, and delivers to it what
is listed. -/
theorem delivery_of_act {base : IdSet}
    (hact : e.before.act e.action = some (e.after, e.progress))
    (hunlisten : e.action ≠ .request (.unlisten g l))
    (hl : l ∈ (e.before.world.group g).listeners)
    (hsince : Group.Since base (e.before.world.group g)) :
    l ∈ (e.after.world.group g).listeners ∧ Delivery g l base e := by
  cases ha : e.action with
  | request r =>
      rw [ha] at hact hunlisten
      obtain ⟨-, hafter, hprogress⟩ := act_request hact
      have hflow : World.Flow g l e.before.world
          (e.before.world.serve e.before.engaged e.before.told r) :=
        World.flow_serve _ _ _ fun heq => hunlisten (congrArg Action.request heq)
      refine delivery_of_flow ?_ (by rw [hafter]) rfl hl hsince
      rw [hafter, hprogress]
      exact hflow
  | finish outcome =>
      rw [ha] at hact
      obtain ⟨frame, below, htop, hafter, hprogress⟩ := act_finish hact
      have hstack : e.after.stack = e.progress.pushed ++ below := by rw [hafter]
      by_cases hnext : ∃ notice next rest groups, frame = .notifying g notice (next :: rest) groups
      · -- the flush goes on with its next notice, and the world stays as it is
        obtain ⟨notice, next, rest, groups, rfl⟩ := hnext
        have hsame : e.after.world.group g = e.before.world.group g := by
          rw [hafter]
          rfl
        rw [hsame]
        refine ⟨hl, .kept ?_ ?_⟩
        · rw [hsame]
          exact hsince
        · rw [hstack, tells_append_waiting_of_calls hprogress, htop, waiting_cons]
          simp [frameNotices]
      · have hflow : World.Flow g l e.before.world (e.before.world.resume outcome frame) :=
          World.flow_resume _ outcome fun notice next rest groups heq =>
            hnext ⟨notice, next, rest, groups, heq⟩
        refine delivery_of_flow ?_ hstack ?_ hl hsince
        · rw [hafter, hprogress]
          exact hflow
        · have hnone : frameNotices g frame = [] := by
            cases frame with
            | notifying k notice rest groups =>
                by_cases hk : k = g
                · subst hk
                  cases rest with
                  | nil => simp [frameNotices]
                  | cons next rest => exact absurd ⟨notice, next, rest, groups, rfl⟩ hnext
                · simp [frameNotices, hk]
            | _ => rfl
          rw [htop, waiting_cons, hnone]
          rfl

/-! ## The law of flushes -/

/-- A flush delivers the net change of a group since the flush before, or since its seeding.

* Whatever a group has heard of, in any order and however often, its undelivered change is the
  difference between its members and those of the last flush; a flush hands this out, each entity
  at most once to each attached listener, who has left before who has joined, in ascending order.
* Every group that code outside can meet has come about in that way.
* In a session the notices of a flush are put before all that still wait for a listener, and what it
  is told next is always the first that waits. -/
theorem flush_delivers_net_change :
    (∀ base (g : Group), Group.Since base g →
      ((∀ x, x ∈ g.added ↔ x ∈ g.members ∧ x ∉ base) ∧
        ∀ x, x ∈ g.removed ↔ x ∈ base ∧ x ∉ g.members) ∧ g.Flushes base) ∧
    (∀ s, Reaches start s → ∀ g, ∃ base, Group.Since base (s.world.group g)) ∧
    ∀ (e : Event) g l base, e.before.act e.action = some (e.after, e.progress) →
      e.action ≠ .request (.unlisten g l) → l ∈ (e.before.world.group g).listeners →
        Group.Since base (e.before.world.group g) → Delivery g l base e := by
  refine ⟨fun base g hsince => ⟨⟨hsince.net.added, hsince.net.removed⟩, hsince.flushes⟩, ?_, ?_⟩
  · exact fun s h g => came_of_reaches h g
  · exact fun e g l base hact hunlisten hl hsince =>
      (delivery_of_act hact hunlisten hl hsince).2

end Session

end EntityStore

namespace EntityStore.Session

attribute [local instance] Host.plain

/-- An entity is made, and the next tick tells the listener of it. -/
theorem flush_delivers_one_entity :
    let k : KindId := ⟨0⟩
    let m : ManagerId := ⟨0⟩
    let g : GroupRef := ⟨m, 0⟩
    let l : ListenerId := ⟨0⟩
    let s := start.afterAll [.makeKind "A" .default, .makeManager .default, .registerKind m k,
      .openGroup m [k] [], .makeListener, .listen g l, .create m [k]]
    let r : Request := .update m Time.start
    let e : Event := ⟨s, .request r, (s.world.serve s.engaged s.told r).2, s.after r⟩
    e.tells g l = [⟨l, .joined, 1⟩] ∧
      ∃ base, Group.Since base (s.world.group g) ∧ (1 ∈ (s.world.group g).members ∧ 1 ∉ base) ∧
        Delivery g l base e := by
  intro k m g l s r e
  have hreach : ReachesUnder (fun _ _ => True) start s := by
    refine ReachesUnder.request ?_ rfl True.intro
    refine ReachesUnder.request ?_ rfl True.intro
    refine ReachesUnder.request ?_ rfl True.intro
    refine ReachesUnder.request ?_ rfl True.intro
    refine ReachesUnder.request ?_ (by decide +kernel) True.intro
    refine ReachesUnder.request ?_ (by decide +kernel) True.intro
    exact ReachesUnder.refl.request rfl True.intro
  have htells : e.tells g l = [⟨l, .joined, 1⟩] := by decide +kernel
  have hattached : l ∈ (s.world.group g).listeners := by decide +kernel
  obtain ⟨hnet, hcame, hdelivers⟩ := flush_delivers_net_change
  obtain ⟨base, hsince⟩ := hcame s (reachesUnder_true_iff.1 hreach) g
  have hadded : 1 ∈ (s.world.group g).added := by decide +kernel
  -- what follows holds of every such session, so its past is left aside
  clear_value s
  have hother : e.action ≠ .request (.unlisten g l) := by simp [e, r]
  have hdelivery := hdelivers e g l base (s.act_eq_after rfl) hother hattached hsince
  exact ⟨htells, base, hsince, ((hnet base _ hsince).1.1 1).1 hadded, hdelivery⟩

end EntityStore.Session
