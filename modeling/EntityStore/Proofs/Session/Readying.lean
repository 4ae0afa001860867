import EntityStore.Proofs.Session.Phases
import EntityStore.Proofs.World.Steady

/-!
# Getting ready for a tick

Before the processors of a manager are updated for the first time they are initialised, and some of
them ask for groups.  Nothing else happens up to the end of a tick, unless code outside is called
back.  `Readied w u` says so of two worlds: no kind has changed in any way, the ids of all managers
are as before, and so are their groups, but for new ones that have taken up whoever belonged to them.

* `Readied.wired`, `Readied.steady`: what follows of worlds, and of managers between their ticks.
* `runInits_cases`: what the initialisation of processors comes to.
-/

namespace EntityStore.World

variable [Host] {w v u : World} {m n : ManagerId} {x : EntityId}

/-- Managers may have got more groups, and may have come further in their lives. -/
structure Readied (w u : World) : Prop where
  /-- Every kind is as before. -/
  kinds : u.kinds = w.kinds
  /-- The new groups of a manager speak of its kinds and have taken up who was live and passed. -/
  managers : ∀ n, ∃ new initialised lifecycle,
    u.manager n = { w.manager n with
      groups := (w.manager n).groups ++ new
      initialised := initialised
      lifecycle := lifecycle } ∧
    ∀ g ∈ new, ∃ f : Filter,
      (∀ k, f.mentions k = true → k ∈ (w.manager n).kinds) ∧ g = w.seededGroup n f

namespace Readied

/-- What a manager has besides its groups and the course of its life is as before. -/
theorem field_eq {α : Type} (h : Readied w u) (field : Manager → α)
    (hfield : ∀ manager groups initialised lifecycle, field { manager with
      groups := groups
      initialised := initialised
      lifecycle := lifecycle } = field manager)
    (m : ManagerId) : field (u.manager m) = field (w.manager m) := by
  obtain ⟨new, initialised, lifecycle, hmanager, -⟩ := h.managers m
  rw [hmanager]
  exact hfield _ _ _ _

theorem kind_eq (h : Readied w u) (k : KindId) : u.kind k = w.kind k := by
  unfold kind
  rw [h.kinds]

theorem holds_eq (h : Readied w u) : u.holds = w.holds := by
  funext k e
  unfold holds
  rw [h.kind_eq]

theorem isAlive_eq (h : Readied w u) (m : ManagerId) (x : EntityId) :
    u.isAlive m x = w.isAlive m x :=
  congrArg (Allocator.isLive · x) (h.field_eq Manager.allocator (fun _ _ _ _ => rfl) m)

theorem pending_eq (h : Readied w u) (m : ManagerId) :
    (u.manager m).pending = (w.manager m).pending :=
  h.field_eq Manager.pending (fun _ _ _ _ => rfl) m

/-- A group would take up the same entities. -/
theorem seededGroup_eq (h : Readied w u) (m : ManagerId) (f : Filter) :
    u.seededGroup m f = w.seededGroup m f := by
  unfold seededGroup
  rw [h.holds_eq, h.field_eq Manager.allocator (fun _ _ _ _ => rfl) m]

theorem refl (w : World) : Readied w w where
  kinds := rfl
  managers n := by
    refine ⟨[], (w.manager n).initialised, (w.manager n).lifecycle, ?_, ?_⟩
    · rw [List.append_nil]
    · exact fun g hg => absurd hg List.not_mem_nil

theorem trans (h : Readied w v) (k : Readied v u) : Readied w u where
  kinds := k.kinds.trans h.kinds
  managers n := by
    obtain ⟨old, _, _, hold, holder⟩ := h.managers n
    obtain ⟨new, initialised, lifecycle, hnew, hnewer⟩ := k.managers n
    refine ⟨old ++ new, initialised, lifecycle, ?_, ?_⟩
    · rw [hnew, hold, List.append_assoc]
    · intro g hg
      rcases List.mem_append.1 hg with hfirst | hsecond
      · exact holder g hfirst
      · obtain ⟨f, hknown, hseeded⟩ := hnewer g hsecond
        refine ⟨f, ?_, ?_⟩
        · rw [hold] at hknown
          exact hknown
        · rw [hseeded, h.seededGroup_eq]

/-! ## Groups -/

/-- The groups that were there are the first ones. -/
theorem groups_eq (h : Readied w u) (m : ManagerId) : ∃ new,
    (u.manager m).groups = (w.manager m).groups ++ new ∧
      ∀ g ∈ new, ∃ f : Filter,
        (∀ k, f.mentions k = true → k ∈ (w.manager m).kinds) ∧ g = w.seededGroup m f := by
  obtain ⟨new, initialised, lifecycle, hmanager, hseeded⟩ := h.managers m
  exact ⟨new, by rw [hmanager], hseeded⟩

/-- A group that was there is as before. -/
theorem group_of_lt (h : Readied w u) {g : GroupRef}
    (hg : g.number < (w.manager g.manager).groups.length) : u.group g = w.group g := by
  obtain ⟨new, hgroups, -⟩ := h.groups_eq g.manager
  unfold group Manager.group
  rw [hgroups, List.getD_eq_getElem?_getD, List.getD_eq_getElem?_getD,
    List.getElem?_append_left hg]

/-- A group that is new has taken up those who were live and passed its filter, and has heard of
nothing yet. -/
theorem group_of_ge (h : Readied w u) {g : GroupRef}
    (hold : (w.manager g.manager).groups.length ≤ g.number)
    (hnew : g.number < (u.manager g.manager).groups.length) :
    u.group g = w.seededGroup g.manager (u.group g).filter := by
  obtain ⟨new, hgroups, hseeded⟩ := h.groups_eq g.manager
  have hmem : u.group g ∈ new := by
    rw [hgroups, List.length_append] at hnew
    have hlt : g.number - (w.manager g.manager).groups.length < new.length := by omega
    unfold group Manager.group
    rw [hgroups, List.getD_eq_getElem?_getD, List.getElem?_append_right hold,
      List.getElem?_eq_getElem hlt]
    exact List.getElem_mem hlt
  obtain ⟨f, -, hf⟩ := hseeded _ hmem
  rw [hf, filter_seededGroup]

/-! ## What stays true -/

theorem wired (h : Readied w u) (hw : w.Wired) : u.Wired := by
  have hkinds : ∀ m, (u.manager m).kinds = (w.manager m).kinds :=
    h.field_eq Manager.kinds fun _ _ _ _ => rfl
  have hgroups : ∀ m, ∀ g ∈ (u.manager m).groups, g ∈ (w.manager m).groups ∨
      ∃ f : Filter, (∀ k, f.mentions k = true → k ∈ (w.manager m).kinds) ∧
        g = w.seededGroup m f := by
    intro m g hg
    obtain ⟨new, hsplit, hseeded⟩ := h.groups_eq m
    rw [hsplit] at hg
    exact (List.mem_append.1 hg).imp id (hseeded g)
  constructor
  · intro k
    rw [h.kind_eq]
    exact hw.packed k
  · intro m g hg
    rcases hgroups m g hg with hold | ⟨f, -, rfl⟩
    · exact hw.coherent m g hold
    · exact coherent_seededGroup w m f
  · intro m k hk
    rw [hkinds] at hk
    rw [h.kind_eq]
    exact hw.attached m k hk
  · intro k number m hattached
    rw [h.kind_eq] at hattached
    rw [hkinds]
    exact hw.listed k number m hattached
  · intro m g hg k hk
    rw [hkinds]
    rcases hgroups m g hg with hold | ⟨f, hknown, rfl⟩
    · exact hw.known m g hold k hk
    · rw [filter_seededGroup] at hk
      exact hknown k hk
  · intro m hm g hg e he
    rw [h.field_eq Manager.retired fun _ _ _ _ => rfl] at hm
    rw [h.holds_eq]
    rcases hgroups m g hg with hold | ⟨f, -, rfl⟩
    · exact hw.sound m hm g hold e he
    · rw [filter_seededGroup]
      exact (mem_seededGroup.1 he).2

theorem steady (h : Readied w u) (m : ManagerId) : Steady m nothing w u := by
  refine steady_of_fields ?_ (h.pending_eq m) ?_ ?_
  · exact h.field_eq Manager.allocator (fun _ _ _ _ => rfl) m
  · obtain ⟨new, hgroups, -⟩ := h.groups_eq m
    rw [hgroups, List.length_append]
    exact Nat.le_add_right _ _
  · rintro g rfl hnumber base hsince
    rw [h.group_of_lt hnumber]
    exact hsince

end Readied

/-! ## The single changes -/

/-- A manager comes further in its life. -/
theorem readied_updateManager {change : Manager → Manager}
    (hchange : ∀ manager, ∃ initialised lifecycle,
      change manager = { manager with initialised := initialised, lifecycle := lifecycle })
    (w : World) (m : ManagerId) : Readied w (w.updateManager m change) where
  kinds := rfl
  managers n := by
    rw [manager_updateManager]
    split
    · rename_i hn
      obtain ⟨initialised, lifecycle, hmanager⟩ := hchange (w.manager m)
      refine ⟨[], initialised, lifecycle, ?_, fun g hg => absurd hg List.not_mem_nil⟩
      rw [hmanager, hn.1, List.append_nil]
    · exact (Readied.refl w).managers n

theorem readied_countInit (w : World) (m : ManagerId) : Readied w (w.countInit m) :=
  readied_updateManager (fun _ => ⟨_, _, rfl⟩) w m

theorem readied_setLifecycle (w : World) (m : ManagerId) (life : Lifecycle) :
    Readied w (w.updateManager m fun manager => { manager with lifecycle := life }) :=
  readied_updateManager (fun _ => ⟨_, _, rfl⟩) w m

theorem readied_openGroup (w : World) (m : ManagerId) (required forbidden : List KindId) :
    Readied w (w.openGroup m required forbidden).1 := by
  rcases opened_or_same w m required forbidden with hsame | ⟨hknown, hmade⟩
  · rw [hsame]
    exact .refl w
  · rw [hmade]
    refine ⟨rfl, fun n => ?_⟩
    unfold withGroup
    rw [manager_updateManager]
    split
    · rename_i hn
      obtain ⟨rfl, -⟩ := hn
      refine ⟨[w.seededGroup n (Filter.of required forbidden)], _, _, rfl, fun g hg => ?_⟩
      exact ⟨_, hknown, List.mem_singleton.1 hg⟩
    · exact (Readied.refl w).managers n

theorem readied_settleVisitor (w : World) (p : ProcessorId) (visitor : Visitor) (m : ManagerId) :
    Readied w (w.settleVisitor p visitor m).1 := by
  have hopen := readied_openGroup w m visitor.required visitor.forbidden
  unfold settleVisitor
  split
  · rename_i hgroup
    rw [hgroup] at hopen
    exact ⟨hopen.kinds, hopen.managers⟩
  · rename_i hgroup
    rw [hgroup] at hopen
    exact hopen

/-- Initialising processors gets the managers ready; then the tick goes on that asked for it, or a
callback begins, or there is an answer. -/
theorem runInits_cases (w : World) (n : ManagerId) (next : Option Time)
    (processors : List ProcessorId) :
    ∃ u, Readied w u ∧
      ((∃ time, next = some time ∧
          w.runInits n next processors = u.runUpdates n time (u.manager n).processors) ∨
        next = none ∧ w.runInits n next processors = (u, .done) ∨
        (∃ p rest, w.runInits n next processors = (u, .calls (.initialising n p rest next))) ∨
        ∃ cause, w.runInits n next processors = (u, .refuses cause)) := by
  induction processors generalizing w with
  | nil =>
      refine ⟨_, readied_setLifecycle w n .running, ?_⟩
      unfold runInits
      cases next with
      | none => exact Or.inr (Or.inl ⟨rfl, rfl⟩)
      | some time => exact Or.inl ⟨time, rfl, rfl⟩
  | cons p rest ih =>
      unfold runInits
      split
      · exact ⟨w, .refl w, Or.inr (Or.inr (Or.inl ⟨p, rest, rfl⟩))⟩
      · rename_i visitor hbody
        have hsettle := readied_settleVisitor w p visitor n
        split
        · rename_i hsettled
          rw [hsettled] at hsettle
          exact ⟨_, hsettle, Or.inr (Or.inr (Or.inr ⟨_, rfl⟩))⟩
        · rename_i v hsettled
          rw [hsettled] at hsettle
          obtain ⟨u, hready, hcome⟩ := ih (v.countInit n)
          exact ⟨u, (hsettle.trans (readied_countInit v n)).trans hready, hcome⟩

end EntityStore.World
