import EntityStore.Proofs.Group.Flush
import EntityStore.Proofs.World.Groups
import EntityStore.Session.Basic

/-!
# What groups hear of

Giving and taking kinds touches stores, and it lets groups hear of happenings; nothing else.
`Tells w v` says so of two worlds, and what is left alone follows from it:

* `Tells.field_eq`: whatever a manager has besides its groups.
* `Tells.group`: a group is as before but for what it has heard of.
* `Tells.length_groups`: there are as many groups as before.

What is done to kinds and values is `Tells`, and groups hear nothing of it.  Making and removing
entities are `Tells` but for the ids (`heard_create`, `heard_removeDue`), so a group hears of these
too and of nothing else.
-/

namespace EntityStore

/-- A group has heard of some things, one after the other. -/
inductive Group.Heard (g : Group) : Group → Prop where
  | refl : Heard g g
  | hear {new : Group} (h : Heard g new) (x : Happening) : Heard g (new.hear x)

theorem Group.Heard.listeners {g new : Group} (h : g.Heard new) :
    new.listeners = g.listeners := by
  induction h with
  | refl => rfl
  | hear _ x ih => rw [listeners_hear, ih]

theorem Group.Heard.filter {g new : Group} (h : g.Heard new) : new.filter = g.filter := by
  induction h with
  | refl => rfl
  | hear _ x ih =>
      rcases hear_cases _ x with hx | ⟨e, hx | hx⟩
      · rw [hx, ih]
      · rw [hx, filter_join, ih]
      · rw [hx, filter_leave, ih]

theorem Group.Heard.trans {g mid new : Group} (h : g.Heard mid) (k : mid.Heard new) :
    g.Heard new := by
  induction k with
  | refl => exact h
  | hear _ x ih => exact ih.hear x

theorem Group.Heard.since {base : IdSet} {g new : Group} (h : g.Heard new) (hg : Since base g) :
    Since base new := by
  induction h with
  | refl => exact hg
  | hear _ x ih => exact ih.heard x

namespace World

variable [Host] {w v u : World} {m : ManagerId} {e : EntityId}

/-- Stores may have changed, and the groups of some managers have heard of things. -/
inductive Tells (w : World) : World → Prop where
  | refl : Tells w w
  /-- What is in the stores, say, has changed. -/
  | stored {v u : World} (h : Tells w v) (hmanagers : u.managers = v.managers)
      (hprocessors : u.processors = v.processors) : Tells w u
  /-- The groups of a manager have heard of something. -/
  | told {v : World} (h : Tells w v) (m : ManagerId) (x : Happening) :
      Tells w (v.updateGroups m fun g => g.hear x)

theorem Tells.trans (h : Tells w v) (g : Tells v u) : Tells w u := by
  induction g with
  | refl => exact h
  | stored _ hmanagers hprocessors ih => exact ih.stored hmanagers hprocessors
  | told _ m x ih => exact ih.told m x

theorem manager_of_same_managers (h : v.managers = w.managers) (m : ManagerId) :
    v.manager m = w.manager m := by
  unfold manager
  rw [h]

/-- What a manager has besides its groups is as before. -/
theorem Tells.field_eq {α : Type} (h : Tells w v) (field : Manager → α)
    (hgroups : ∀ manager groups, field { manager with groups := groups } = field manager)
    (m : ManagerId) : field (v.manager m) = field (w.manager m) := by
  induction h with
  | refl => rfl
  | stored _ hmanagers _ ih => rw [manager_of_same_managers hmanagers, ih]
  | told _ n x ih =>
      rw [← ih]
      exact field_updateManager field (fun manager => hgroups manager _) _ n m

theorem Tells.processors (h : Tells w v) : v.processors = w.processors := by
  induction h with
  | refl => rfl
  | stored _ _ hprocessors ih => rw [hprocessors, ih]
  | told _ m x ih => exact ih

theorem Tells.length_managers (h : Tells w v) : v.managers.length = w.managers.length := by
  induction h with
  | refl => rfl
  | stored _ hmanagers _ ih => rw [hmanagers, ih]
  | told _ m x ih =>
      rw [← ih]
      exact List.length_modify _ _ _

theorem Tells.length_groups (h : Tells w v) (m : ManagerId) :
    (v.manager m).groups.length = (w.manager m).groups.length := by
  induction h with
  | refl => rfl
  | stored _ hmanagers _ ih => rw [manager_of_same_managers hmanagers, ih]
  | told _ n x ih =>
      rw [groups_updateGroups]
      split
      · rename_i hm
        rw [List.length_map, ← hm, ih]
      · exact ih

/-! ## One group -/

theorem group_of_same_managers (h : v.managers = w.managers) (g : GroupRef) :
    v.group g = w.group g := by
  unfold group
  rw [manager_of_same_managers h]

/-- A change of a manager that leaves its groups. -/
theorem group_updateManager {change : Manager → Manager}
    (h : ∀ manager, (change manager).groups = manager.groups) (w : World) (m : ManagerId)
    (g : GroupRef) : (w.updateManager m change).group g = w.group g := by
  have hgroups := field_updateManager Manager.groups h w m g.manager
  unfold group Manager.group
  rw [hgroups]

/-- A change of all groups of a manager changes a group by it, or the group is not one of them. -/
theorem group_updateGroups (w : World) (m : ManagerId) (change : Group → Group) (g : GroupRef) :
    (w.updateGroups m change).group g = change (w.group g) ∨
      (w.updateGroups m change).group g = w.group g := by
  unfold group Manager.group
  rw [groups_updateGroups]
  split
  · rename_i hm
    rw [hm]
    simp only [List.getD_eq_getElem?_getD, List.getElem?_map]
    cases (w.manager m).groups[g.number]? with
    | none => exact Or.inr rfl
    | some old => exact Or.inl rfl
  · exact Or.inr rfl

/-- A change of one group changes it, if it is there, and no other. -/
theorem group_updateGroup (w : World) (h g : GroupRef) (change : Group → Group) :
    (w.updateGroup h change).group g =
      if g = h ∧ h.number < (w.manager h.manager).groups.length then change (w.group h)
      else w.group g := by
  unfold group Manager.group updateGroup
  rw [manager_updateManager]
  by_cases hm : g.manager = h.manager ∧ h.manager.place < w.managers.length
  · rw [if_pos hm, hm.1]
    dsimp only
    rw [getD_modify]
    by_cases hnumber : g.number = h.number ∧ h.number < (w.manager h.manager).groups.length
    · have hg : g = h := by
        cases g
        cases h
        simp_all
      rw [if_pos hnumber, if_pos ⟨hg, hnumber.2⟩]
    · rw [if_neg hnumber, if_neg]
      rintro ⟨rfl, hlt⟩
      exact hnumber ⟨rfl, hlt⟩
  · rw [if_neg hm, if_neg]
    rintro ⟨rfl, hlt⟩
    -- a manager that was never made has no groups
    have hge : w.managers.length ≤ g.manager.place := Nat.le_of_not_lt fun hlt => hm ⟨rfl, hlt⟩
    rw [manager_of_length_le hge] at hlt
    exact absurd hlt (Nat.not_lt_zero _)

/-- A group with a listener is there. -/
theorem lt_length_of_mem_listeners {g : GroupRef} {l : ListenerId}
    (h : l ∈ (w.group g).listeners) : g.number < (w.manager g.manager).groups.length := by
  rcases Nat.lt_or_ge g.number (w.manager g.manager).groups.length with hlt | hge
  · exact hlt
  · unfold group Manager.group at h
    rw [List.getD_eq_getElem?_getD, List.getElem?_eq_none hge] at h
    cases h

theorem Tells.group (h : Tells w v) (g : GroupRef) : (w.group g).Heard (v.group g) := by
  induction h with
  | refl => exact .refl
  | stored _ hmanagers _ ih =>
      rw [group_of_same_managers hmanagers]
      exact ih
  | told _ m x ih =>
      rcases group_updateGroups _ m (fun g => g.hear x) g with hheard | hsame
      · rw [hheard]
        exact ih.hear x
      · rw [hsame]
        exact ih

/-! ## Holders -/

theorem tells_informGroups (w : World) (k : KindId) (e : EntityId) :
    Tells w (w.informGroups k e) := by
  cases haudience : w.audience k with
  | none =>
      rw [informGroups_of_none haudience]
      exact .refl
  | some m =>
      rw [informGroups_of_some haudience]
      exact Tells.refl.told m (.changed k e fun j => w.holds j e)

theorem tells_addHolder (w : World) (k : KindId) (e : EntityId) :
    Tells w (w.addHolder k e).1 := by
  have hstore : ∀ store, Tells w (w.setStore k store) := fun _ => Tells.refl.stored rfl rfl
  unfold addHolder
  dsimp only
  split
  · exact hstore _
  · exact (hstore _).trans (tells_informGroups _ k e)

theorem tells_removeHolder (w : World) (k : KindId) (e : EntityId) :
    Tells w (w.removeHolder k e).1 := by
  have hstore : ∀ store, Tells w (w.setStore k store) := fun _ => Tells.refl.stored rfl rfl
  unfold removeHolder
  dsimp only
  split
  · exact (hstore _).trans (tells_informGroups _ k e)
  · exact hstore _

theorem tells_strip (w : World) (e : EntityId) (kinds : List KindId) :
    Tells w (w.strip e kinds) :=
  strip_preserves (P := Tells w) (fun u k hu => hu.trans (tells_removeHolder u k e)) kinds .refl

theorem tells_equip (w : World) (e : EntityId) (given kinds : List KindId) :
    Tells w (w.equip e given kinds).1 :=
  equip_preserves (P := Tells w) (fun u k hu => hu.trans (tells_addHolder u k e))
    (fun u k hu => hu.trans (tells_removeHolder u k e)) given kinds .refl

theorem tells_addComponent (w : World) (m : ManagerId) (e : EntityId) (k : KindId) :
    Tells w (w.addComponent m e k).1 := by
  unfold addComponent
  split
  · exact .refl
  · exact tells_addHolder w k e

theorem tells_removeComponent (w : World) (m : ManagerId) (e : EntityId) (k : KindId) :
    Tells w (w.removeComponent m e k).1 := by
  unfold removeComponent
  split
  · exact .refl
  · exact tells_removeHolder w k e

/-! ## Kinds and values -/

theorem tells_makeKind (w : World) (name : String) (config : StoreConfig) :
    Tells w (w.makeKind name config).1 := by
  unfold makeKind
  split
  · exact .refl
  · exact Tells.refl.stored rfl rfl

theorem tells_declare (w : World) (k : KindId) (name : String) (type : ValueType)
    (default : type.Carrier) (bounds : Option (Bounds type.Carrier)) :
    Tells w (w.declare k name type default bounds).1 := by
  unfold declare
  dsimp only
  split
  · exact Tells.refl.stored rfl rfl
  · exact Tells.refl.stored rfl rfl

/-- A value that is set, or refused, changes the store of its kind only. -/
theorem setValue_world (w : World) (k : KindId) (p : Property) (e : EntityId)
    (x : p.type.Carrier) :
    (w.setValue k p e x).1 = w.setStore k (p.set (w.kind k).store e x).1 := by
  unfold setValue
  dsimp only
  split <;> rfl

theorem tells_setValue (w : World) (k : KindId) (p : Property) (e : EntityId)
    (x : p.type.Carrier) : Tells w (w.setValue k p e x).1 := by
  rw [setValue_world]
  exact Tells.refl.stored rfl rfl

theorem tells_attach (w : World) (k : KindId) (a : Attachment) : Tells w (w.attach k a).1 := by
  unfold attach
  split
  · exact .refl
  · exact Tells.refl.stored rfl rfl

/-! ## Entities -/

/-- What the creation of an entity does: ids aside, groups hear of it. -/
theorem create_tells (w : World) (m : ManagerId) (kinds : List KindId) :
    (w.create m kinds).1 = w ∨
      ∃ a u, Tells (w.withAllocator m a) u ∧
        ((w.create m kinds).1 = u ∨ ∃ e, (w.create m kinds).1 = u.release m e) := by
  have hcreation := creation w m kinds
  generalize w.create m kinds = result at hcreation ⊢
  obtain ⟨v, answer⟩ := result
  cases hcreation with
  | refused => exact Or.inl rfl
  | undone e a u cause _ _ _ _ hequip =>
      have htells := tells_equip (w.withAllocator m a) e [] kinds
      rw [hequip] at htells
      exact Or.inr ⟨a, u, htells, Or.inr ⟨e, rfl⟩⟩
  | made e a u _ _ _ _ hequip =>
      have htells := tells_equip (w.withAllocator m a) e [] kinds
      rw [hequip] at htells
      exact Or.inr ⟨a, _, htells.told m (.created e kinds fun k => u.holds k e), Or.inl rfl⟩

/-- What the removal of an entity does: ids aside, groups hear of it. -/
theorem removeDue_tells (w : World) (m : ManagerId) (e : EntityId) :
    ∃ u, Tells (w.withoutDue m e) u ∧ (w.removeDue m e = u ∨ w.removeDue m e = u.release m e) := by
  unfold removeDue
  dsimp only
  split
  · exact ⟨_, (tells_strip (w.withoutDue m e) e _).told m (.removed e), Or.inr rfl⟩
  · exact ⟨_, .refl, Or.inl rfl⟩

/-- What a manager has besides its groups and its ids is as before. -/
theorem field_create {α : Type} (field : Manager → α)
    (hgroups : ∀ manager groups, field { manager with groups := groups } = field manager)
    (hallocator : ∀ manager allocator, field { manager with allocator := allocator } = field manager)
    (w : World) (m : ManagerId) (kinds : List KindId) (n : ManagerId) :
    field ((w.create m kinds).1.manager n) = field (w.manager n) := by
  rcases create_tells w m kinds with hsame | ⟨a, u, htells, hend⟩
  · rw [hsame]
  · have hissued : field ((w.withAllocator m a).manager n) = field (w.manager n) :=
      field_updateManager field (fun manager => hallocator manager a) w m n
    rw [← hissued, ← htells.field_eq field hgroups]
    rcases hend with hmade | ⟨e, hundone⟩
    · rw [hmade]
    · rw [hundone]
      exact field_updateManager field (fun manager => hallocator manager _) u m n

/-- Likewise, once the id is off the list of those due. -/
theorem field_removeDue {α : Type} (field : Manager → α)
    (hgroups : ∀ manager groups, field { manager with groups := groups } = field manager)
    (hallocator : ∀ manager allocator, field { manager with allocator := allocator } = field manager)
    (w : World) (m : ManagerId) (e : EntityId) (n : ManagerId) :
    field ((w.removeDue m e).manager n) = field ((w.withoutDue m e).manager n) := by
  obtain ⟨u, htells, hend⟩ := removeDue_tells w m e
  rw [← htells.field_eq field hgroups]
  rcases hend with hdead | hremoved
  · rw [hdead]
  · rw [hremoved]
    exact field_updateManager field (fun manager => hallocator manager _) u m n

theorem group_withAllocator (w : World) (m : ManagerId) (a : Allocator) (g : GroupRef) :
    (w.withAllocator m a).group g = w.group g := by
  refine group_updateManager ?_ w m g
  exact fun _ => rfl

theorem group_release (w : World) (m : ManagerId) (e : EntityId) (g : GroupRef) :
    (w.release m e).group g = w.group g := by
  refine group_updateManager ?_ w m g
  exact fun _ => rfl

theorem group_withoutDue (w : World) (m : ManagerId) (e : EntityId) (g : GroupRef) :
    (w.withoutDue m e).group g = w.group g := by
  refine group_updateManager ?_ w m g
  exact fun _ => rfl

theorem heard_create (w : World) (m : ManagerId) (kinds : List KindId) (g : GroupRef) :
    (w.group g).Heard ((w.create m kinds).1.group g) := by
  rcases create_tells w m kinds with hsame | ⟨a, u, htells, hend⟩
  · rw [hsame]
    exact .refl
  · rw [← group_withAllocator w m a g]
    rcases hend with hmade | ⟨e, hundone⟩
    · rw [hmade]
      exact htells.group g
    · rw [hundone, group_release]
      exact htells.group g

theorem heard_removeDue (w : World) (m : ManagerId) (e : EntityId) (g : GroupRef) :
    (w.group g).Heard ((w.removeDue m e).group g) := by
  obtain ⟨u, htells, hend⟩ := removeDue_tells w m e
  rw [← group_withoutDue w m e g]
  rcases hend with hdead | hremoved
  · rw [hdead]
    exact htells.group g
  · rw [hremoved, group_release]
    exact htells.group g

/-- What every single removal preserves is preserved when all that are due are removed. -/
theorem removeAllDue_preserves {P : World → Prop} (hw : P w)
    (hstep : ∀ u e, P u → P (u.removeDue m e)) : P (w.removeAllDue m) := by
  have hfold : ∀ (due : List EntityId) (u : World), P u →
      P (due.foldl (fun w e => w.removeDue m e) u) := by
    intro due
    induction due with
    | nil => exact fun u hu => hu
    | cons e rest ih => exact fun u hu => ih _ (hstep u e hu)
  exact hfold _ w hw

theorem heard_removeAllDue (w : World) (m : ManagerId) (g : GroupRef) :
    (w.group g).Heard ((w.removeAllDue m).group g) :=
  removeAllDue_preserves (P := fun v => (w.group g).Heard (v.group g)) .refl fun v e hv =>
    hv.trans (heard_removeDue v m e g)

/-! ## Registration -/

theorem group_registerKind (w : World) (m : ManagerId) (k : KindId) (g : GroupRef) :
    (w.registerKind m k).1.group g = w.group g := by
  rcases registered_or_same w m k with hsame | ⟨-, -, hkind⟩
  · rw [hsame]
  · rw [hkind]
    refine group_updateManager ?_ _ m g
    exact fun _ => rfl

theorem group_registerProcessor (w : World) (m : ManagerId) (p : Processor) (g : GroupRef) :
    (w.registerProcessor m p).1.group g = w.group g := by
  unfold registerProcessor
  split
  · rfl
  · split
    · rfl
    · refine group_updateManager ?_ _ m g
      exact fun _ => rfl

/-! ## How many groups there are -/

/-- Every manager has as many groups as before. -/
def SameCount (w v : World) : Prop :=
  ∀ m, (v.manager m).groups.length = (w.manager m).groups.length

theorem SameCount.refl (w : World) : SameCount w w := fun _ => rfl

theorem SameCount.trans (h : SameCount w v) (k : SameCount v u) : SameCount w u :=
  fun m => (k m).trans (h m)

theorem sameCount_of_same_managers (h : v.managers = w.managers) : SameCount w v := by
  intro m
  rw [manager_of_same_managers h]

theorem sameCount_updateManager {change : Manager → Manager}
    (h : ∀ manager, (change manager).groups.length = manager.groups.length) (w : World)
    (m : ManagerId) : SameCount w (w.updateManager m change) :=
  fun n => field_updateManager (fun manager => manager.groups.length) h w m n

theorem sameCount_updateGroup (w : World) (g : GroupRef) (change : Group → Group) :
    SameCount w (w.updateGroup g change) :=
  sameCount_updateManager (fun _ => List.length_modify _ _ _) w g.manager

theorem sameCount_removeDue (w : World) (m : ManagerId) (e : EntityId) :
    SameCount w (w.removeDue m e) := by
  have hcleared : SameCount w (w.withoutDue m e) := by
    refine sameCount_updateManager ?_ w m
    exact fun _ => rfl
  obtain ⟨v, htells, hend⟩ := removeDue_tells w m e
  have hstripped := hcleared.trans htells.length_groups
  rcases hend with hdead | hremoved
  · rw [hdead]
    exact hstripped
  · rw [hremoved]
    refine hstripped.trans (sameCount_updateManager ?_ v m)
    exact fun _ => rfl

theorem sameCount_removeAllDue (w : World) (m : ManagerId) : SameCount w (w.removeAllDue m) :=
  removeAllDue_preserves (.refl w) fun v e hv => hv.trans (sameCount_removeDue v m e)

theorem sameCount_create (w : World) (m : ManagerId) (kinds : List KindId) :
    SameCount w (w.create m kinds).1 := by
  have hids : ∀ (v : World) (change : Manager → Allocator), SameCount v (v.updateManager m
      fun manager => { manager with allocator := change manager }) := by
    intro v change
    refine sameCount_updateManager ?_ v m
    exact fun _ => rfl
  rcases create_tells w m kinds with hsame | ⟨a, v, htells, hmade | ⟨e, hundone⟩⟩
  · rw [hsame]
    exact .refl w
  · rw [hmade]
    exact (hids w fun _ => a).trans htells.length_groups
  · rw [hundone]
    exact ((hids w fun _ => a).trans htells.length_groups).trans (hids v _)

theorem sameCount_makeManager (w : World) (config : ManagerConfig) :
    SameCount w (w.makeManager config).1 := by
  unfold makeManager
  split
  · exact .refl w
  · intro m
    unfold manager
    dsimp only
    rw [getD_concat]
    split
    · rename_i hplace
      rw [hplace, List.getD_eq_getElem?_getD, List.getElem?_eq_none (Nat.le_refl _)]
      rfl
    · rfl

theorem sameCount_registerProcessor (w : World) (m : ManagerId) (p : Processor) :
    SameCount w (w.registerProcessor m p).1 := by
  unfold registerProcessor
  split
  · exact .refl w
  · split
    · exact .refl w
    · have hmade : SameCount w { w with processors := w.processors ++ [p] } :=
        sameCount_of_same_managers rfl
      refine hmade.trans (sameCount_updateManager ?_ _ m)
      exact fun _ => rfl

theorem sameCount_registerKind (w : World) (m : ManagerId) (k : KindId) :
    SameCount w (w.registerKind m k).1 := by
  intro n
  rcases registered_or_same w m k with hsame | ⟨-, -, hkind⟩
  · rw [hsame]
  · rw [hkind, groups_withKind]

theorem sameCount_listen (w : World) (g : GroupRef) (l : ListenerId) :
    SameCount w (w.listen g l).1 := by
  unfold listen
  split
  · exact sameCount_updateGroup w g _
  · exact .refl w

/-! ## New groups -/

/-- A group that is made has only taken up entities so far. -/
theorem seeded_seededGroup (w : World) (m : ManagerId) (f : Filter) :
    (w.seededGroup m f).Seeded := by
  have hfold : ∀ (l : List EntityId) (g : Group), g.Seeded →
      (l.foldl (fun g e => g.seed e (f.accepts fun k => w.holds k e)) g).Seeded := by
    intro l
    induction l with
    | nil => exact fun g hg => hg
    | cons e rest ih => exact fun g hg => ih _ (hg.seed e _)
  exact hfold _ _ (.ofFilter f)

/-- Asking for a group leaves every group alone, but for one that it makes. -/
theorem group_openGroup (w : World) (m : ManagerId) (required forbidden : List KindId)
    (g : GroupRef) :
    (w.openGroup m required forbidden).1.group g = w.group g ∨
      (w.group g).listeners = [] ∧ ((w.openGroup m required forbidden).1.group g).Seeded := by
  rcases opened_or_same w m required forbidden with hsame | ⟨-, hmade⟩
  · rw [hsame]
    exact Or.inl rfl
  · rw [hmade]
    unfold withGroup group Manager.group
    rw [manager_updateManager]
    split
    · rename_i hm
      rw [hm.1]
      dsimp only
      rw [getD_concat]
      split
      · rename_i hnumber
        refine Or.inr ⟨?_, seeded_seededGroup w m _⟩
        rw [List.getD_eq_getElem?_getD, hnumber, List.getElem?_eq_none (Nat.le_refl _)]
        rfl
      · exact Or.inl rfl
    · exact Or.inl rfl

end World

end EntityStore
