import EntityStore.Proofs.Session.Effects
import EntityStore.Proofs.Session.History
import EntityStore.Proofs.Store.Defaults
import EntityStore.Proofs.World.Arrivals

/-!
# What a session keeps

Whatever happens in a session, no kind loses a property, every default stays at hand for new
holders, and the ids that a manager may issue stay valid.  `World.Retains` says this of two worlds;
each change of a world keeps it, then each move, and so each history.

* `Move.retains`, `retains_of_runs`: moves and histories keep it.
* `stocked_of_runs`, `inRange_of_runs`: what follows of every store and every manager.
* `mem_fields_of_declared`: a property that was declared once is one of its kind for good.
-/

namespace EntityStore

variable [Host]

namespace World

variable {w v : World} {m : ManagerId} {e : EntityId} {kinds : List KindId}

/-- What every change of a world keeps of the properties of kinds and of the ranges of ids. -/
structure Retains (w v : World) : Prop where
  stores : ∀ k, (w.kind k).store.Retains (v.kind k).store
  ranges : ∀ n, (w.manager n).allocator.InRange → (v.manager n).allocator.InRange

theorem Retains.refl (w : World) : Retains w w := ⟨fun _ => .refl _, fun _ => id⟩

theorem Retains.trans {u : World} (h : Retains w v) (g : Retains v u) : Retains w u :=
  ⟨fun k => (h.stores k).trans (g.stores k), fun n => g.ranges n ∘ h.ranges n⟩

theorem retains_updateManager {change : Manager → Manager}
    (h : ∀ manager, manager.allocator.InRange → (change manager).allocator.InRange) (w : World)
    (m : ManagerId) : Retains w (w.updateManager m change) := by
  refine ⟨fun k => .refl _, fun n hn => ?_⟩
  rw [manager_updateManager]
  split
  · rename_i heq
    rw [heq.1] at hn
    exact h _ hn
  · exact hn

/-- A change of one manager that leaves its ids. -/
theorem retains_of_same_ids {change : Manager → Manager}
    (h : ∀ manager, (change manager).allocator = manager.allocator) (w : World) (m : ManagerId) :
    Retains w (w.updateManager m change) :=
  retains_updateManager (fun manager hmanager => by rw [h]; exact hmanager) w m

theorem retains_updateGroups (w : World) (m : ManagerId) (change : Group → Group) :
    Retains w (w.updateGroups m change) := by
  refine retains_of_same_ids ?_ w m
  exact fun _ => rfl

theorem retains_release (w : World) (m : ManagerId) (e : EntityId) : Retains w (w.release m e) :=
  retains_updateManager (fun _ h => h.release e) w m

theorem retains_updateKind {k : KindId} {change : Kind → Kind}
    (h : (w.kind k).store.Retains (change (w.kind k)).store) :
    Retains w (w.updateKind k change) := by
  refine ⟨fun j => ?_, fun _ => id⟩
  rw [kind_updateKind]
  split
  · rename_i heq
    rw [heq.1]
    exact h
  · exact .refl _

theorem retains_setStore {k : KindId} {store : Store} (h : (w.kind k).store.Retains store) :
    Retains w (w.setStore k store) :=
  retains_updateKind h

theorem retains_informGroups (w : World) (k : KindId) (e : EntityId) :
    Retains w (w.informGroups k e) := by
  cases haudience : w.audience k with
  | none =>
      rw [informGroups_of_none haudience]
      exact .refl w
  | some m =>
      rw [informGroups_of_some haudience]
      exact retains_updateGroups w m _

theorem retains_addHolder (hpacked : w.Packed) (k : KindId) (e : EntityId) :
    Retains w (w.addHolder k e).1 := by
  have hshape := (Store.insert_inserted (hpacked k) Host.machine e).sameShape
  cases hresult : (w.kind k).store.insert Host.machine e with
  | mk store result =>
      rw [hresult] at hshape
      have hset := retains_setStore hshape.retains
      cases result with
      | error cause =>
          rw [addHolder_of_error hresult]
          exact hset
      | ok done =>
          rw [addHolder_of_ok hresult]
          exact hset.trans (retains_informGroups _ k e)

theorem retains_removeHolder (w : World) (k : KindId) (e : EntityId) :
    Retains w (w.removeHolder k e).1 := by
  have hset := retains_setStore (w := w) (k := k)
    (Store.sameShape_remove (w.kind k).store Host.machine e).retains
  unfold removeHolder
  dsimp only
  split
  · exact hset.trans (retains_informGroups _ k e)
  · exact hset

theorem retains_strip (w : World) (e : EntityId) (kinds : List KindId) :
    Retains w (w.strip e kinds) :=
  strip_preserves (P := Retains w) (fun u k hu => hu.trans (retains_removeHolder u k e)) kinds
    (.refl w)

theorem retains_equip (hpacked : w.Packed) (e : EntityId) (given kinds : List KindId) :
    Retains w (w.equip e given kinds).1 := by
  have hall : (w.equip e given kinds).1.Packed ∧ Retains w (w.equip e given kinds).1 := by
    refine equip_preserves (P := fun u => u.Packed ∧ Retains w u) ?_ ?_ given kinds
      ⟨hpacked, .refl w⟩
    · rintro u k ⟨hu, hkept⟩
      exact ⟨packed_addHolder hu k e, hkept.trans (retains_addHolder hu k e)⟩
    · rintro u k ⟨hu, hkept⟩
      exact ⟨packed_removeHolder hu k e, hkept.trans (retains_removeHolder u k e)⟩
  exact hall.2

theorem retains_create (hpacked : w.Packed) (m : ManagerId) (kinds : List KindId) :
    Retains w (w.create m kinds).1 := by
  have hcreation := creation w m kinds
  generalize w.create m kinds = result at hcreation ⊢
  obtain ⟨v, answer⟩ := result
  have hequipped : ∀ {e a} {u : World} {given}, (w.manager m).allocator.allocate = .ok (e, a) →
      (w.withAllocator m a).equip e [] kinds = (u, given) → Retains w u := by
    intro e a u given hallocate hequip
    have hissued : Retains w (w.withAllocator m a) := by
      refine ⟨fun k => .refl _, fun n hn => ?_⟩
      unfold withAllocator
      rw [manager_updateManager]
      split
      · rename_i heq
        rw [heq.1] at hn
        exact (hn.allocate hallocate).2
      · exact hn
    have hstep := retains_equip (w := w.withAllocator m a) hpacked e [] kinds
    rw [hequip] at hstep
    exact hissued.trans hstep
  cases hcreation with
  | refused => exact .refl _
  | undone e a u cause _ hallocate _ _ hequip =>
      exact (hequipped hallocate hequip).trans (retains_release u m e)
  | made e a u _ hallocate _ _ hequip =>
      exact (hequipped hallocate hequip).trans (retains_updateGroups u m _)

theorem retains_removeDue (w : World) (m : ManagerId) (e : EntityId) :
    Retains w (w.removeDue m e) := by
  have hcleared : Retains w (w.withoutDue m e) := by
    refine retains_of_same_ids ?_ w m
    exact fun _ => rfl
  unfold removeDue
  dsimp only
  split
  · have hstripped := fun kinds => hcleared.trans (retains_strip (w.withoutDue m e) e kinds)
    exact ((hstripped _).trans (retains_updateGroups _ m _)).trans (retains_release _ m e)
  · exact hcleared

theorem retains_declare (w : World) (k : KindId) (name : String) (type : ValueType)
    (default : type.Carrier) (bounds : Option (Bounds type.Carrier)) :
    Retains w (w.declare k name type default bounds).1 := by
  have hset := retains_setStore (w := w) (k := k)
    (Store.retains_addField (w.kind k).store name type (Property.clampTo bounds default))
  unfold World.declare
  dsimp only
  split
  · exact hset
  · exact hset

theorem retains_setValue (hpacked : w.Packed) (k : KindId) (p : Property) (e : EntityId)
    (x : p.type.Carrier) : Retains w (w.setValue k p e x).1 := by
  rw [World.setValue_world]
  exact retains_setStore (Store.rewritten_set (hpacked k) p e x).sameShape.retains

/-- What stood in the place of a new kind had no properties. -/
theorem retains_makeKind (w : World) (name : String) (config : StoreConfig) :
    Retains w (w.makeKind name config).1 := by
  unfold World.makeKind
  split
  · exact .refl w
  · refine ⟨fun k => ?_, fun _ => id⟩
    have hkind : ({ w with kinds := w.kinds ++ [Kind.make name config] } : World).kind k =
        if k.place = w.kinds.length then Kind.make name config else w.kind k :=
      getD_concat _ _ k.place _
    rw [hkind]
    split
    · rename_i hk
      rw [kind_of_length_le (Nat.le_of_eq hk.symm)]
      exact ⟨fun _ => Store.stocked_empty name config, fun f hf => absurd hf List.not_mem_nil⟩
    · exact .refl _

theorem retains_makeManager (w : World) (config : ManagerConfig) :
    Retains w (w.makeManager config).1 := by
  unfold World.makeManager
  split
  · exact .refl w
  · rename_i hvalid
    refine ⟨fun k => .refl _, fun n hn => ?_⟩
    have hmanager : ({ w with managers := w.managers ++ [Manager.ofConfig config] } : World).manager n =
        if n.place = w.managers.length then Manager.ofConfig config else w.manager n :=
      getD_concat _ _ n.place _
    rw [hmanager]
    split
    · exact Allocator.inRange_ofConfig hvalid
    · exact hn

end World

/-! ## Moves -/

variable {rule : Rule} {w v : World}

theorem Move.retains (hpacked : w.Packed) (h : Move rule w v) : World.Retains w v := by
  have hmanager : ∀ {change : Manager → Manager} (x : World) (m : ManagerId),
      (∀ manager, (change manager).allocator = manager.allocator) →
        World.Retains x (x.updateManager m change) :=
    fun x m hids => World.retains_of_same_ids hids x m
  have hsame : ∀ {x y : World}, y.kinds = x.kinds → y.managers = x.managers → x.Retains y := by
    intro x y hkinds hmanagers
    refine ⟨fun k => ?_, fun n => ?_⟩
    · unfold World.kind
      rw [hkinds]
      exact .refl _
    · unfold World.manager
      rw [hmanagers]
      exact id
  cases h with
  | makeKind name config => exact World.retains_makeKind w name config
  | declare k name type default bounds => exact World.retains_declare w k name type default bounds
  | setValue k p e x => exact World.retains_setValue hpacked k p e x
  | addHolder k e hrule => exact World.retains_addHolder hpacked k e
  | removeHolder k e hrule => exact World.retains_removeHolder w k e
  | attach k number o hrule =>
      unfold World.attach
      split
      · exact .refl w
      · exact World.retains_updateKind (.refl _)
  | makeManager config => exact World.retains_makeManager w config
  | retire m => exact hmanager w m fun _ => rfl
  | registerKind m k hrule =>
      rcases World.registered_or_same w m k with hsame | ⟨-, -, hkind⟩
      · rw [hsame]
        exact .refl w
      · have hmarked : World.Retains w (w.updateKind k fun kind =>
            { kind with attachment := some ⟨(w.manager m).kinds.length, .manager m⟩ }) :=
          World.retains_updateKind (.refl _)
        rw [hkind]
        exact hmarked.trans (hmanager _ m fun _ => rfl)
  | registerProcessor m p hrule =>
      unfold World.registerProcessor
      split
      · exact .refl w
      · split
        · exact .refl w
        · have hmade : World.Retains w { w with processors := w.processors ++ [p] } :=
            hsame rfl rfl
          exact hmade.trans (hmanager _ m fun _ => rfl)
  | create m kinds hrule => exact World.retains_create hpacked m kinds
  | scheduleRemoval m e hrule => exact hmanager w m fun _ => rfl
  | addComponent m e k hrule =>
      unfold World.addComponent
      split
      · exact .refl w
      · exact World.retains_addHolder hpacked k e
  | removeComponent m e k hrule =>
      unfold World.removeComponent
      split
      · exact .refl w
      · exact World.retains_removeHolder w k e
  | openGroup m required forbidden =>
      rcases World.opened_or_same w m required forbidden with hsame | ⟨-, hmade⟩
      · rw [hsame]
        exact .refl w
      · rw [hmade]
        exact hmanager w m fun _ => rfl
  | listen g l =>
      unfold World.listen
      split
      · exact hmanager w g.manager fun _ => rfl
      · exact .refl w
  | unlisten g l => exact hmanager w g.manager fun _ => rfl
  | takeNews g => exact hmanager w g.manager fun _ => rfl
  | removeDue m e hdue => exact World.retains_removeDue w m e
  | countInit m => exact hmanager w m fun _ => rfl
  | setLifecycle m life => exact hmanager w m fun _ => rfl
  | elsewhere v hkinds hmanagers hprocessors => exact hsame hkinds hmanagers

theorem World.Wired.retains (hw : w.Wired)
    (hmade : ∀ w m k, rule w (.registerKind m k) → k.place < w.kinds.length)
    (h : Moves rule w v) : w.Retains v := by
  have hall : v.Wired ∧ w.Retains v := by
    refine h.preserves (P := fun u => u.Wired ∧ w.Retains u) ?_ ⟨hw, .refl w⟩
    rintro x y hmove ⟨hwired, hkept⟩
    exact ⟨hwired.effect (hmade x) (effect_of_move hwired.packed hmove),
      hkept.trans (hmove.retains hwired.packed)⟩
  exact hall.2

/-! ## Histories -/

namespace Session

variable {s t : Session} {events : List Event}

/-- A history in which every event follows the rule. -/
theorem Runs.reachesUnder (h : Runs s events t)
    (hrule : ∀ e ∈ events, e.before.Follows rule e.action) : ReachesUnder rule s t := by
  induction h with
  | refl => exact .refl
  | step _ a p hact ih =>
      refine .step a p (ih fun e he => hrule e (List.mem_append_left _ he)) ?_ hact
      exact hrule _ (List.mem_append_right _ (List.mem_singleton.2 rfl))

section Kept

variable (hmade : ∀ w m k, rule w (.registerKind m k) → k.place < w.kinds.length)
include hmade

theorem wired_of_runs (h : Runs start events s)
    (hrule : ∀ e ∈ events, e.before.Follows rule e.action) : s.world.Wired :=
  wired_of_reachesUnder hmade (h.reachesUnder hrule)

theorem retains_of_runs (h : Runs s events t) (hs : s.world.Wired)
    (hrule : ∀ e ∈ events, e.before.Follows rule e.action) : s.world.Retains t.world :=
  hs.retains hmade (moves_of_reachesUnder (h.reachesUnder hrule))

/-- Every default of every kind is at hand. -/
theorem stocked_of_runs (h : Runs start events s)
    (hrule : ∀ e ∈ events, e.before.Follows rule e.action) (k : KindId) :
    (s.world.kind k).store.Stocked :=
  ((retains_of_runs hmade h wired_empty hrule).stores k).stocked (Store.stocked_empty _ _)

/-- Every manager issues valid ids only. -/
theorem inRange_of_runs (h : Runs start events s)
    (hrule : ∀ e ∈ events, e.before.Follows rule e.action) (m : ManagerId) :
    (s.world.manager m).allocator.InRange :=
  (retains_of_runs hmade h wired_empty hrule).ranges m (Allocator.inRange_ofConfig rfl)

end Kept

/-- A property whose declaration has been granted, by a kind that was made. -/
def Declared (events : List Event) (k : KindId) (p : Property) : Prop :=
  ∃ e ∈ events, ∃ name type default bounds,
    e.action = .request (.declare k name type default bounds) ∧
      e.progress = .replies (.ok (.property p)) ∧ k.place < e.before.world.kinds.length

/-- What a declaration adds, if it is granted. -/
theorem Runs.declared (h : Runs s events t) {e : Event} (he : e ∈ events) {k : KindId}
    {name : String} {type : ValueType} {default : type.Carrier}
    {bounds : Option (Bounds type.Carrier)}
    (haction : e.action = .request (.declare k name type default bounds))
    (hk : k.place < e.before.world.kinds.length) {slot : Slot}
    (hslot : ((e.before.world.kind k).store.addField name type
      (Property.clampTo bounds default)).2 = .ok slot) :
    Declared events k ⟨name, type, slot, Property.clampTo bounds default, bounds⟩ := by
  have hact := h.act_of_mem he
  rw [haction] at hact
  obtain ⟨-, -, hserved⟩ := act_request hact
  refine ⟨e, he, name, type, default, bounds, haction, hserved.trans ?_, hk⟩
  show Progress.replies (e.before.world.declare k name type default bounds).2 = _
  unfold World.declare Property.declare
  dsimp only
  rw [hslot]
  rfl

/-- A property that was declared once is one of its kind for good. -/
theorem mem_fields_of_declared
    (hmade : ∀ w m k, rule w (.registerKind m k) → k.place < w.kinds.length)
    (h : Runs start events s) (hrule : ∀ e ∈ events, e.before.Follows rule e.action)
    {k : KindId} {p : Property} (hp : Declared events k p) :
    p.field ∈ (s.world.kind k).store.layout.fields := by
  obtain ⟨e, he, name, type, default, bounds, haction, hprogress, hk⟩ := hp
  obtain ⟨earlier, later, rfl⟩ := List.append_of_mem he
  obtain ⟨hbefore, hact⟩ := h.split
  have hthrough : Runs start (earlier ++ [e]) e.after := hbefore.step e.action e.progress hact
  have hpast : ∀ f ∈ earlier ++ [e], f.before.Follows rule f.action := by
    intro f hf
    refine hrule f ?_
    rcases List.mem_append.1 hf with hold | hlast
    · exact List.mem_append_left _ hold
    · rw [List.mem_singleton.1 hlast]
      exact List.mem_append_right _ List.mem_cons_self
  -- the declaration adds it, and nothing that happens later takes it away
  have hadded : p.field ∈ (e.after.world.kind k).store.layout.fields := by
    rw [haction] at hact
    obtain ⟨-, hafter, hserved⟩ := act_request hact
    rw [hprogress] at hserved
    rw [hafter]
    generalize e.before.world = w at hk hserved ⊢
    show p.field ∈ (((w.declare k name type default bounds).1).kind k).store.layout.fields
    replace hserved : .replies (.ok (.property p)) =
      Progress.replies (w.declare k name type default bounds).2 := hserved
    unfold World.declare at hserved ⊢
    cases hdeclare : Property.declare (w.kind k).store name type default bounds with
    | mk store result =>
        rw [hdeclare] at hserved
        cases result with
        | error cause => cases hserved
        | ok q =>
            cases hserved
            show p.field ∈ (((w.setStore k store)).kind k).store.layout.fields
            rw [World.kind_setStore, if_pos ⟨rfl, hk⟩]
            exact Store.mem_fields_of_declare hdeclare
  have hkept := retains_of_runs hmade h.rest (wired_of_runs hmade hthrough hpast) fun f hf =>
    hrule f (List.mem_append_right _ (List.mem_cons_of_mem e hf))
  exact (hkept.stores k).fields _ hadded

end Session

end EntityStore
