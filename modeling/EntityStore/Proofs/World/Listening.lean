import EntityStore.Proofs.World.Hearing
import EntityStore.Session.Basic

/-!
# What a listener misses

Most changes of a world keep a listener attached to its group, and what the group gathers for it:
`Kept g l w v`.  Then nothing is told, and nothing is lost.  A flush that finds no news for a
listener is among these changes, since it hands out nothing.
-/

namespace EntityStore.World

variable [Host] {w v u : World} {g : GroupRef} {l : ListenerId}

/-- A listener of a group stays attached to it, and the undelivered change is counted from the same
members as before. -/
def Kept (g : GroupRef) (l : ListenerId) (w v : World) : Prop :=
  l ∈ (w.group g).listeners → l ∈ (v.group g).listeners ∧
    ∀ base, Group.Since base (w.group g) → Group.Since base (v.group g)

theorem Kept.refl (g : GroupRef) (l : ListenerId) (w : World) : Kept g l w w :=
  fun hl => ⟨hl, fun _ hsince => hsince⟩

theorem Kept.trans (h : Kept g l w v) (k : Kept g l v u) : Kept g l w u := by
  intro hl
  obtain ⟨hmid, hfirst⟩ := h hl
  obtain ⟨hend, hsecond⟩ := k hmid
  exact ⟨hend, fun base hsince => hsecond base (hfirst base hsince)⟩

theorem kept_of_group_eq (h : v.group g = w.group g) (l : ListenerId) : Kept g l w v := by
  intro hl
  rw [h]
  exact ⟨hl, fun _ hsince => hsince⟩

theorem kept_of_heard (h : (w.group g).Heard (v.group g)) (l : ListenerId) : Kept g l w v := by
  intro hl
  refine ⟨?_, fun base hsince => h.since hsince⟩
  rw [h.listeners]
  exact hl

theorem kept_of_same_managers (h : v.managers = w.managers) (g : GroupRef) (l : ListenerId) :
    Kept g l w v :=
  kept_of_group_eq (group_of_same_managers h g) l

theorem kept_updateManager {change : Manager → Manager}
    (h : ∀ manager, (change manager).groups = manager.groups) (w : World) (m : ManagerId)
    (g : GroupRef) (l : ListenerId) : Kept g l w (w.updateManager m change) :=
  kept_of_group_eq (group_updateManager h w m g) l

theorem kept_tells (h : Tells w v) (g : GroupRef) (l : ListenerId) : Kept g l w v :=
  kept_of_heard (h.group g) l

theorem kept_create (w : World) (m : ManagerId) (kinds : List KindId) (g : GroupRef)
    (l : ListenerId) : Kept g l w (w.create m kinds).1 :=
  kept_of_heard (heard_create w m kinds g) l

theorem kept_removeAllDue (w : World) (m : ManagerId) (g : GroupRef) (l : ListenerId) :
    Kept g l w (w.removeAllDue m) :=
  kept_of_heard (heard_removeAllDue w m g) l

/-- A group that is made has no listeners yet. -/
theorem kept_openGroup (w : World) (m : ManagerId) (required forbidden : List KindId)
    (g : GroupRef) (l : ListenerId) : Kept g l w (w.openGroup m required forbidden).1 := by
  rcases group_openGroup w m required forbidden g with hsame | ⟨hnone, -⟩
  · exact kept_of_group_eq hsame l
  · intro hl
    rw [hnone] at hl
    cases hl

/-- The group that is asked for is made if its number is the next one. -/
theorem openGroup_made {m : ManagerId} {required forbidden : List KindId}
    (h : (w.openGroup m required forbidden).2 = .ok ⟨m, (w.manager m).groups.length⟩) :
    (w.openGroup m required forbidden).1 =
      w.withGroup m (w.seededGroup m (Filter.of required forbidden)) := by
  unfold openGroup at h ⊢
  split
  · rename_i hstranger
    rw [hstranger] at h
    cases h
  · rename_i hknown
    rw [hknown] at h
    split
    · rename_i number hnumber
      dsimp only at h
      rw [hnumber] at h
      -- a group that was there has a smaller number
      have hsame : number = (w.manager m).groups.length := by simpa using h
      have hlt := (List.findIdx?_eq_some_iff_findIdx_eq.1 hnumber).1
      rw [hsame] at hlt
      exact absurd hlt (Nat.lt_irrefl _)
    · rfl

theorem group_withGroup {m : ManagerId} (hmade : m.place < w.managers.length) (new : Group) :
    (w.withGroup m new).group ⟨m, (w.manager m).groups.length⟩ = new ∧
      (w.manager m).groups.length < ((w.withGroup m new).manager m).groups.length := by
  unfold withGroup group Manager.group
  rw [manager_updateManager, if_pos ⟨rfl, hmade⟩]
  dsimp only
  rw [getD_concat, if_pos rfl]
  refine ⟨rfl, ?_⟩
  simp

theorem kept_settleVisitor (w : World) (p : ProcessorId) (visitor : Visitor) (m : ManagerId)
    (g : GroupRef) (l : ListenerId) : Kept g l w (w.settleVisitor p visitor m).1 := by
  have hopen := kept_openGroup w m visitor.required visitor.forbidden g l
  unfold settleVisitor
  split
  · rename_i hgroup
    rw [hgroup] at hopen
    exact hopen.trans (kept_of_same_managers rfl g l)
  · rename_i hgroup
    rw [hgroup] at hopen
    exact hopen

/-- A new manager has no groups. -/
theorem group_makeManager (w : World) (config : ManagerConfig) (g : GroupRef) :
    (w.makeManager config).1.group g = w.group g := by
  unfold makeManager
  split
  · rfl
  · unfold group manager
    dsimp only
    rw [getD_concat]
    split
    · rename_i hplace
      rw [hplace, List.getD_eq_getElem?_getD, List.getElem?_eq_none (Nat.le_refl _)]
      rfl
    · rfl

/-! ## Attaching and detaching -/

theorem group_updateGroup_of_ne {h : GroupRef} (hne : g ≠ h) (w : World) (change : Group → Group) :
    (w.updateGroup h change).group g = w.group g := by
  rw [group_updateGroup, if_neg fun heq => hne heq.1]

/-- A group with a listener is there, so that a change of it takes place. -/
theorem group_updateGroup_self (hl : l ∈ (w.group g).listeners) (change : Group → Group) :
    (w.updateGroup g change).group g = change (w.group g) := by
  rw [group_updateGroup, if_pos ⟨rfl, lt_length_of_mem_listeners hl⟩]

/-- A listener that is new to a group is attached to it. -/
theorem group_listen_of_new (hthere : g.number < (w.manager g.manager).groups.length)
    (hnew : l ∉ (w.group g).listeners) :
    (w.group g).listen l = some ((w.listen g l).1.group g) ∧ l ∈ ((w.listen g l).1.group g).listeners := by
  have hattach : (w.group g).listen l =
      some { w.group g with listeners := (w.group g).listeners ++ [l] } := if_neg hnew
  unfold listen
  rw [hattach]
  dsimp only
  rw [group_updateGroup, if_pos ⟨rfl, hthere⟩]
  exact ⟨rfl, List.mem_append_right _ (List.mem_singleton.2 rfl)⟩

/-- Another listener is attached to the same group, or a listener to another group. -/
theorem kept_listen (w : World) (h : GroupRef) (k : ListenerId) (g : GroupRef) (l : ListenerId) :
    Kept g l w (w.listen h k).1 := by
  unfold listen
  split
  · rename_i new hnew
    by_cases hg : g = h
    · subst hg
      intro hl
      rw [group_updateGroup_self hl]
      refine ⟨?_, fun base hsince => hsince.listened hnew⟩
      rw [(Group.listen_eq_some hnew).2]
      exact List.mem_append_left _ hl
    · exact kept_of_group_eq (group_updateGroup_of_ne hg w _) l
  · exact .refl g l w

theorem kept_unlisten (w : World) {h : GroupRef} {k : ListenerId} (hother : ¬ (g = h ∧ l = k)) :
    Kept g l w (w.unlisten h k).1 := by
  by_cases hg : g = h
  · subst hg
    intro hl
    have hgroup : (w.unlisten g k).1.group g = ((w.group g).unlisten k).1 :=
      group_updateGroup_self hl _
    rw [hgroup]
    refine ⟨List.mem_filter.2 ⟨hl, ?_⟩, fun base hsince => hsince.unlistened k⟩
    simpa using fun heq => hother ⟨rfl, heq⟩
  · exact kept_of_group_eq (group_updateGroup_of_ne hg w _) l

/-! ## Flushing -/

theorem kept_takeNews_of_ne {h : GroupRef} (hne : g ≠ h) (w : World) (l : ListenerId) :
    Kept g l w (w.takeNews h).1 :=
  kept_of_group_eq (group_updateGroup_of_ne hne w _) l

theorem group_takeNews (hl : l ∈ (w.group g).listeners) :
    (w.takeNews g).1.group g = (w.group g).drain.1 :=
  group_updateGroup_self hl _

/-- A flush that tells nobody of anything has nothing to tell to a listener that is attached. -/
theorem kept_takeNews_of_nil (hnone : (w.takeNews g).2 = []) : Kept g l w (w.takeNews g).1 := by
  intro hl
  rw [group_takeNews hl]
  refine ⟨hl, fun base hsince => ?_⟩
  have hsilent : (w.group g).drain.2.notices (w.group g).listeners = [] := hnone
  have hadded : ∀ e, e ∉ (w.group g).added := fun e he => by
    have hnotice : (⟨l, .joined, e⟩ : Notice) ∈
        (w.group g).drain.2.notices (w.group g).listeners :=
      News.mem_notices.2 ⟨hl, Or.inr ⟨rfl, he⟩⟩
    rw [hsilent] at hnotice
    cases hnotice
  have hremoved : ∀ e, e ∉ (w.group g).removed := fun e he => by
    have hnotice : (⟨l, .left, e⟩ : Notice) ∈
        (w.group g).drain.2.notices (w.group g).listeners :=
      News.mem_notices.2 ⟨hl, Or.inl ⟨rfl, he⟩⟩
    rw [hsilent] at hnotice
    cases hnotice
  have hsame : base = (w.group g).members := hsince.net.base_eq hadded hremoved
  rw [hsame]
  exact hsince.flushed

end EntityStore.World
