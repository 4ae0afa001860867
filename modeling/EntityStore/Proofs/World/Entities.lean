import EntityStore.Proofs.Manager.Allocation
import EntityStore.Proofs.World.Wiring

/-!
# Entities come and go

What the creation and the removal of an entity do to a world that is wired.

* `creation`, `created`: an entity is made with all its kinds, or refused before anything has
  happened, or given up when a store refuses one of the kinds.  The first says how, of any world, and
  the second what comes of it in a wired one.
* `removed_of_alive`, `removed_of_not_alive`: a removal that is due.
-/

namespace EntityStore

variable [Host]

namespace World

variable {w v : World} {m : ManagerId} {e : EntityId} {kinds : List KindId}

theorem mem_kinds_of_isRegistered {k : KindId} (h : w.isRegistered m k = true) :
    k ∈ (w.manager m).kinds := by
  unfold isRegistered at h
  split at h
  · exact List.mem_of_getElem? (of_decide_eq_true h)
  · cases h

/-- Kinds of which no fault is found are registered, and none comes twice. -/
theorem kindFault?_eq_none {earlier : List KindId} (h : w.kindFault? m earlier kinds = none) :
    (∀ k ∈ kinds, k ∈ (w.manager m).kinds) ∧ kinds.Nodup ∧ ∀ k ∈ kinds, k ∉ earlier := by
  induction kinds generalizing earlier with
  | nil => exact ⟨nofun, List.nodup_nil, nofun⟩
  | cons k rest ih =>
      unfold kindFault? at h
      split at h
      · cases h
      · rename_i hregistered
        split at h
        · cases h
        · rename_i hnew
          obtain ⟨hrest, hdistinct, hlater⟩ := ih h
          have hk : w.isRegistered m k = true := by simpa using hregistered
          refine ⟨?_, List.nodup_cons.2 ⟨?_, hdistinct⟩, ?_⟩
          · intro j hj
            rcases List.mem_cons.1 hj with rfl | hj
            · exact mem_kinds_of_isRegistered hk
            · exact hrest j hj
          · exact fun hmem => hlater k hmem (List.mem_append_right earlier List.mem_cons_self)
          · intro j hj hmem
            rcases List.mem_cons.1 hj with rfl | hj
            · exact hnew hmem
            · exact hlater j hj (List.mem_append_left [k] hmem)

theorem kindFault?_eq_some {earlier : List KindId} {fault : ManagerError}
    (h : w.kindFault? m earlier kinds = some fault) : ∀ cause, fault ≠ .store cause := by
  induction kinds generalizing earlier with
  | nil => cases h
  | cons k rest ih =>
      unfold kindFault? at h
      split at h
      · cases h
        nofun
      · split at h
        · cases h
          nofun
        · exact ih h

/-! ## Managers -/

theorem lt_length_of_lifecycle (h : (w.manager m).lifecycle ≠ .shutDown) :
    m.place < w.managers.length := by
  rcases Nat.lt_or_ge m.place w.managers.length with hlt | hge
  · exact hlt
  · rw [manager_of_length_le hge] at h
    exact absurd rfl h

/-- The world after a manager has issued an id. -/
def withAllocator (w : World) (m : ManagerId) (a : Allocator) : World :=
  w.updateManager m fun manager => { manager with allocator := a }

/-- The manager that hears of the kinds of a manager: it, as long as it is there. -/
def heard (w : World) (m : ManagerId) : Option ManagerId :=
  if (w.manager m).retired then none else some m

theorem heard_eq_some {n : ManagerId} :
    w.heard m = some n ↔ m = n ∧ (w.manager m).retired = false := by
  unfold heard
  cases (w.manager m).retired <;> simp

/-- A change of one manager that leaves its kinds, and its groups but for what is undelivered. -/
theorem quiet_updateManager {change : Manager → Manager}
    (hretired : (change (w.manager m)).retired = false → (w.manager m).retired = false)
    (hkinds : (change (w.manager m)).kinds = (w.manager m).kinds)
    (hgroups : ∀ g ∈ (change (w.manager m)).groups, ∃ old ∈ (w.manager m).groups,
      g.filter = old.filter ∧ g.members = old.members ∧ (old.Coherent → g.Coherent)) :
    Quiet w (w.updateManager m change) := by
  refine
    { packed := fun h => h
      holds := fun _ _ => rfl
      attached := fun _ _ _ => Iff.rfl
      present := ?_
      kinds := ?_
      groups := ?_ }
  · intro n hn
    rw [manager_updateManager] at hn
    split at hn
    · rename_i heq
      rw [heq.1]
      exact Or.inl (hretired hn)
    · exact Or.inl hn
  · intro n
    rw [manager_updateManager]
    split
    · rename_i heq
      rw [heq.1]
      exact hkinds
    · rfl
  · intro n g hg
    rw [manager_updateManager] at hg
    split at hg
    · rename_i heq
      rw [heq.1]
      exact hgroups g hg
    · exact ⟨g, hg, rfl, rfl, id⟩

/-- A change of one manager that leaves its groups altogether. -/
theorem quiet_of_same_groups {change : Manager → Manager}
    (hretired : (change (w.manager m)).retired = false → (w.manager m).retired = false)
    (hkinds : (change (w.manager m)).kinds = (w.manager m).kinds)
    (hgroups : (change (w.manager m)).groups = (w.manager m).groups) :
    Quiet w (w.updateManager m change) := by
  refine quiet_updateManager hretired hkinds ?_
  rw [hgroups]
  exact fun g hg => ⟨g, hg, rfl, rfl, id⟩

/-- A change of one manager that leaves its kinds, its live ids, and its groups but for what is
undelivered. -/
theorem calm_updateManager {change : Manager → Manager}
    (hretired : (change (w.manager m)).retired = false → (w.manager m).retired = false)
    (hkinds : (change (w.manager m)).kinds = (w.manager m).kinds)
    (hallocator : (change (w.manager m)).allocator = (w.manager m).allocator)
    (hgroups : ∀ g ∈ (change (w.manager m)).groups, ∃ old ∈ (w.manager m).groups,
      g.filter = old.filter ∧ g.members = old.members ∧ (old.Coherent → g.Coherent)) :
    Calm w (w.updateManager m change) := by
  refine ⟨quiet_updateManager hretired hkinds hgroups, ?_⟩
  intro n e
  unfold isAlive
  rw [manager_updateManager]
  split
  · rename_i heq
    rw [hallocator, heq.1]
  · rfl

/-- A change of one manager that leaves its kinds, its live ids and its groups altogether. -/
theorem calm_of_same_groups {change : Manager → Manager}
    (hretired : (change (w.manager m)).retired = false → (w.manager m).retired = false)
    (hkinds : (change (w.manager m)).kinds = (w.manager m).kinds)
    (hallocator : (change (w.manager m)).allocator = (w.manager m).allocator)
    (hgroups : (change (w.manager m)).groups = (w.manager m).groups) :
    Calm w (w.updateManager m change) := by
  refine calm_updateManager hretired hkinds hallocator ?_
  rw [hgroups]
  exact fun g hg => ⟨g, hg, rfl, rfl, id⟩

theorem quiet_withAllocator (w : World) (m : ManagerId) (a : Allocator) :
    Quiet w (w.withAllocator m a) := by
  refine quiet_of_same_groups ?_ ?_ ?_
  · exact id
  · rfl
  · rfl

theorem quiet_release (w : World) (m : ManagerId) (e : EntityId) : Quiet w (w.release m e) := by
  refine quiet_of_same_groups ?_ ?_ ?_
  · exact id
  · rfl
  · rfl

/-- A manager hears of its kinds, also after something that bears on nobody. -/
theorem Wired.audience_heard (hw : w.Wired) (h : Quiet w v)
    (hretired : (v.manager m).retired = (w.manager m).retired) {k : KindId}
    (hk : k ∈ (w.manager m).kinds) : v.audience k = w.heard m := by
  rw [← h.kinds] at hk
  rw [(hw.quiet h).audience_eq hk, hretired]
  rfl

theorem retired_withAllocator (w : World) (m n : ManagerId) (a : Allocator) :
    ((w.withAllocator m a).manager n).retired = (w.manager n).retired := by
  refine field_updateManager Manager.retired ?_ w m n
  exact fun _ => rfl

theorem Wired.audience_withAllocator (hw : w.Wired) (a : Allocator) {k : KindId}
    (hk : k ∈ (w.manager m).kinds) : (w.withAllocator m a).audience k = w.heard m :=
  hw.audience_heard (quiet_withAllocator w m a) (retired_withAllocator w m m a) hk

/-! ## Creation -/

/-- How the creation of an entity goes. -/
inductive Creation (w : World) (m : ManagerId) (kinds : List KindId) :
    World → Except ManagerError EntityId → Prop where
  /-- It is refused before anything has happened. -/
  | refused (cause : ManagerError) (hcause : ∀ reason, cause ≠ .store reason) :
      Creation w m kinds w (.error cause)
  /-- An id is issued, a store refuses a kind, and the id is given back. -/
  | undone (e : EntityId) (a : Allocator) (u : World) (cause : StoreError)
      (hmade : m.place < w.managers.length)
      (hallocate : (w.manager m).allocator.allocate = .ok (e, a))
      (hregistered : ∀ k ∈ kinds, k ∈ (w.manager m).kinds) (hdistinct : kinds.Nodup)
      (hequip : (w.withAllocator m a).equip e [] kinds = (u, .error cause)) :
      Creation w m kinds (u.release m e) (.error (.store cause))
  /-- An id is issued, every store takes it, and the groups hear of it. -/
  | made (e : EntityId) (a : Allocator) (u : World) (hmade : m.place < w.managers.length)
      (hallocate : (w.manager m).allocator.allocate = .ok (e, a))
      (hregistered : ∀ k ∈ kinds, k ∈ (w.manager m).kinds) (hdistinct : kinds.Nodup)
      (hequip : (w.withAllocator m a).equip e [] kinds = (u, .ok ())) :
      Creation w m kinds (u.updateGroups m fun g => g.entityCreated e kinds fun k => u.holds k e)
        (.ok e)

theorem creation (w : World) (m : ManagerId) (kinds : List KindId) :
    Creation w m kinds (w.create m kinds).1 (w.create m kinds).2 := by
  unfold create
  split
  · exact .refused _ nofun
  · rename_i hrunning
    have hmade := lt_length_of_lifecycle hrunning
    split
    · rename_i fault hfault
      exact .refused fault (kindFault?_eq_some hfault)
    · rename_i hnone
      obtain ⟨hregistered, hdistinct, -⟩ := kindFault?_eq_none hnone
      split
      · rename_i cause hcause
        rw [Allocator.allocate_eq_error hcause]
        exact .refused _ nofun
      · rename_i e a hallocate
        dsimp only
        split
        · rename_i u cause hequip
          exact .undone e a u cause hmade hallocate hregistered hdistinct hequip
        · rename_i u hequip
          exact .made e a u hmade hallocate hregistered hdistinct hequip

/-- What the creation of an entity can come to. -/
inductive Created (w : World) (m : ManagerId) (kinds : List KindId) :
    World → Except ManagerError EntityId → Prop where
  /-- It is refused before anything has happened. -/
  | refused (cause : ManagerError) (hcause : ∀ reason, cause ≠ .store reason) :
      Created w m kinds w (.error cause)
  /-- A store refuses a kind: the kinds before it were given, some of them are taken away again,
  and the id is given back. -/
  | undone (e : EntityId) (a : Allocator) (u : World) (taken : List KindId) (cause : StoreError)
      (hmade : m.place < w.managers.length)
      (hallocate : (w.manager m).allocator.allocate = .ok (e, a))
      (hregistered : ∀ k ∈ kinds, k ∈ (w.manager m).kinds)
      (htaken : ∀ k ∈ taken, k ∈ kinds.takeWhile (w.takes e))
      (htracks : Tracks (w.heard m) e (kinds.takeWhile (w.takes e) ++ taken)
        (w.withAllocator m a) u)
      (hbefore : ∀ k ∈ kinds.takeWhile (w.takes e), w.holds k e = false)
      (hafter : ∀ k ∈ kinds.takeWhile (w.takes e), u.holds k e = false)
      (hpacked : u.Packed) :
      Created w m kinds (u.release m e) (.error (.store cause))
  /-- The entity holds all the kinds, and the groups hear of it. -/
  | made (e : EntityId) (a : Allocator) (u : World)
      (hmade : m.place < w.managers.length)
      (hallocate : (w.manager m).allocator.allocate = .ok (e, a))
      (hregistered : ∀ k ∈ kinds, k ∈ (w.manager m).kinds)
      (htracks : Tracks (w.heard m) e kinds (w.withAllocator m a) u)
      (hheld : ∀ k ∈ kinds, u.holds k e = true)
      (hpacked : u.Packed) :
      Created w m kinds (u.updateGroups m fun g => g.entityCreated e kinds fun k => u.holds k e)
        (.ok e)

theorem created (hw : w.Wired) (m : ManagerId) (kinds : List KindId) :
    Created w m kinds (w.create m kinds).1 (w.create m kinds).2 := by
  -- the id is issued: no kind and no group takes notice
  have hclaimed : ∀ a, (w.withAllocator m a).Wired := fun a => hw.quiet (quiet_withAllocator w m a)
  have hattached : ∀ a, (∀ k ∈ kinds, k ∈ (w.manager m).kinds) →
      ∀ k ∈ kinds, ((w.withAllocator m a).kind k).attachment.isSome = true := by
    intro a hregistered k hk
    obtain ⟨number, hattachment⟩ := hw.attached m k (hregistered k hk)
    exact Option.isSome_iff_exists.2 ⟨_, hattachment⟩
  have haudience : ∀ a, (∀ k ∈ kinds, k ∈ (w.manager m).kinds) →
      ∀ k ∈ kinds, (w.withAllocator m a).audience k = w.heard m :=
    fun a hregistered k hk => hw.audience_withAllocator a (hregistered k hk)
  have hcreation := creation w m kinds
  generalize w.create m kinds = result at hcreation ⊢
  obtain ⟨v, answer⟩ := result
  cases hcreation with
  | refused cause hcause => exact .refused cause hcause
  | undone e a u cause hmade hallocate hregistered hdistinct hequip =>
      -- a store has refused: what was given is taken back
      obtain ⟨taken, hsub, htracks, hafter, hbefore, hpacked⟩ :=
        equip_error (hclaimed a).packed (hclaimed a).coherent hdistinct (hattached a hregistered)
          (haudience a hregistered) (fun _ hk => absurd hk List.not_mem_nil) hequip
      exact .undone e a u taken cause hmade hallocate hregistered hsub htracks hbefore hafter
        hpacked
  | made e a u hmade hallocate hregistered hdistinct hequip =>
      obtain ⟨htracks, hheld, hpacked⟩ :=
        equip_ok (hclaimed a).packed (hclaimed a).coherent (hattached a hregistered)
          (haudience a hregistered) hequip
      exact .made e a u hmade hallocate hregistered htracks hheld hpacked

omit [Host] in
theorem mem_entityCreated {g : Group} {x : EntityId} {holds : KindId → Bool} :
    x ∈ (g.entityCreated e kinds holds).members ↔
      (x = e ∧ g.filter.acceptsKinds kinds = true ∧ g.filter.accepts holds = true) ∨
        ((x = e → g.filter.acceptsKinds kinds = false) ∧ x ∈ g.members) := by
  unfold Group.entityCreated
  split
  · rename_i hpass
    rw [Group.mem_refresh]
    simp [hpass]
  · rename_i hfail
    simp [hfail]

omit [Host] in
theorem filter_entityCreated (g : Group) {holds : KindId → Bool} :
    (g.entityCreated e kinds holds).filter = g.filter := by
  unfold Group.entityCreated
  split
  · exact Group.filter_refresh g e _
  · rfl

theorem Wired.create (hw : w.Wired) (m : ManagerId) (kinds : List KindId) :
    (w.create m kinds).1.Wired := by
  have hcreated := created hw m kinds
  generalize w.create m kinds = result at hcreated ⊢
  obtain ⟨v, answer⟩ := result
  cases hcreated with
  | refused => exact hw
  | undone e a u taken cause hmade hallocate hregistered htaken htracks hbefore hafter hpacked =>
      have hclaimed := hw.quiet (quiet_withAllocator w m a)
      refine (hclaimed.tracks htracks ?_ hpacked).quiet (quiet_release u m e)
      -- whatever was given or taken is among the kinds asked for
      intro k hk
      have hmem : k ∈ kinds.takeWhile (w.takes e) := (List.mem_append.1 hk).elim id (htaken k)
      exact hw.audience_withAllocator a (hregistered k ((List.takeWhile_sublist _).subset hmem))
  | made e a u hmade hallocate hregistered htracks hheld hpacked =>
      have hclaimed := hw.quiet (quiet_withAllocator w m a)
      have hequipped := hclaimed.tracks htracks
        (fun k hk => hw.audience_withAllocator a (hregistered k hk)) hpacked
      refine hequipped.updateGroups m ?_ ?_ ?_
      · exact fun g => filter_entityCreated g
      · intro g hg
        unfold Group.entityCreated
        split
        · exact hg.refresh e _
        · exact hg
      · intro g x hx
        rcases mem_entityCreated.1 hx with ⟨rfl, -, haccepts⟩ | ⟨-, hmember⟩
        · exact Or.inr haccepts
        · exact Or.inl hmember

/-! ## Removal -/

/-- The world in which a removal is no longer due. -/
def withoutDue (w : World) (m : ManagerId) (e : EntityId) : World :=
  w.updateManager m fun manager => { manager with pending := manager.pending.erase e }

theorem calm_withoutDue (w : World) (m : ManagerId) (e : EntityId) :
    Calm w (w.withoutDue m e) := by
  refine calm_of_same_groups ?_ ?_ ?_ ?_
  · exact id
  · rfl
  · rfl
  · rfl

theorem Wired.audience_withoutDue (hw : w.Wired) (e : EntityId) {k : KindId}
    (hk : k ∈ (w.manager m).kinds) : (w.withoutDue m e).audience k = w.heard m := by
  refine hw.audience_heard (calm_withoutDue w m e).toQuiet ?_ hk
  refine field_updateManager Manager.retired ?_ w m m
  exact fun _ => rfl

/-- Nothing happens to an id that is not live. -/
theorem removed_of_not_alive (h : w.isAlive m e = false) :
    w.removeDue m e = w.withoutDue m e := by
  unfold removeDue
  dsimp only
  have hdead := ((calm_withoutDue w m e).alive m e).trans h
  unfold withoutDue at hdead
  rw [hdead]
  rfl

/-- A live entity loses every kind of its manager, then its groups, then its id. -/
theorem removed_of_alive (hw : w.Wired) (h : w.isAlive m e = true) :
    ∃ taken u, w.removeDue m e = (u.updateGroups m fun g => g.entityRemoved e).release m e ∧
      (∀ k ∈ taken, k ∈ (w.manager m).kinds) ∧
      Tracks (w.heard m) e taken (w.withoutDue m e) u ∧
      (∀ k ∈ (w.manager m).kinds, u.holds k e = false) ∧ u.Packed := by
  have hcleared : (w.withoutDue m e).Wired := hw.quiet (calm_withoutDue w m e).toQuiet
  have hkinds : ((w.withoutDue m e).manager m).kinds = (w.manager m).kinds :=
    (calm_withoutDue w m e).kinds m
  have haudience : ∀ k ∈ (w.manager m).kinds, (w.withoutDue m e).audience k = w.heard m :=
    fun k hk => hw.audience_withoutDue e hk
  obtain ⟨taken, hsub, htracks, hgone, hpacked⟩ :=
    tracks_strip (e := e) hcleared.packed hcleared.coherent haudience
  refine ⟨taken, (w.withoutDue m e).strip e (w.manager m).kinds, ?_, hsub, htracks, hgone, hpacked⟩
  have hlive := ((calm_withoutDue w m e).alive m e).trans h
  unfold removeDue
  dsimp only
  rw [← hkinds]
  exact if_pos hlive

theorem Wired.removeDue (hw : w.Wired) (m : ManagerId) (e : EntityId) :
    (w.removeDue m e).Wired := by
  have hcleared : (w.withoutDue m e).Wired := hw.quiet (calm_withoutDue w m e).toQuiet
  cases halive : w.isAlive m e with
  | false =>
      rw [removed_of_not_alive halive]
      exact hcleared
  | true =>
      obtain ⟨taken, u, hresult, hsub, htracks, -, hpacked⟩ := removed_of_alive hw halive
      rw [hresult]
      have hstripped := hcleared.tracks htracks
        (fun k hk => hw.audience_withoutDue e (hsub k hk)) hpacked
      refine Wired.quiet ?_ (quiet_release _ m e)
      refine hstripped.updateGroups m ?_ ?_ ?_
      · exact fun g => Group.filter_leave g e
      · exact fun g hg => hg.leave e
      · exact fun g x hx => Or.inl (Group.mem_leave.1 hx).1

end World

end EntityStore
