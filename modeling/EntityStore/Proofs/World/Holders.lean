import EntityStore.Proofs.Group.Refresh
import EntityStore.Proofs.Store.Stored
import EntityStore.World.Entities
import EntityStore.World.Groups

/-!
# One entity gains and loses kinds

`Tracks audience e kinds w v` says that the world `v` comes from `w` by changes of one entity: in
the stores nothing has happened but that `e` may have gained or lost some of the listed kinds, and
the groups of the manager that hears of these kinds have tested `e` for each of them.

* `addHolder_ok`, `addHolder_error`, `removeHolder_true`, `removeHolder_false`: what one change does.
* `Tracks.trans`: changes of one entity add up, since of several tests only the last one counts.
-/

namespace EntityStore

/-! ## Lookups -/

theorem getD_modify {α : Type} (l : List α) (i j : Nat) (change : α → α) (d : α) :
    (l.modify i change).getD j d =
      if j = i ∧ i < l.length then change (l.getD i d) else l.getD j d := by
  simp only [List.getD_eq_getElem?_getD, List.getElem?_modify]
  by_cases hji : j = i
  · subst hji
    by_cases hlt : j < l.length
    · simp [hlt]
    · simp [hlt]
  · simp [hji, Ne.symm hji]

theorem getD_concat {α : Type} (l : List α) (x : α) (i : Nat) (d : α) :
    (l ++ [x]).getD i d = if i = l.length then x else l.getD i d := by
  simp only [List.getD_eq_getElem?_getD]
  rcases Nat.lt_trichotomy i l.length with hlt | heq | hgt
  · rw [List.getElem?_append_left hlt, if_neg (Nat.ne_of_lt hlt)]
  · rw [heq, List.getElem?_concat_length, if_pos rfl]
    rfl
  · have hlonger : (l ++ [x]).length ≤ i := by
      rw [List.length_append, List.length_singleton]
      omega
    rw [if_neg (Nat.ne_of_gt hgt), List.getElem?_eq_none hlonger, List.getElem?_eq_none (by omega)]

theorem KindId.place_inj {j k : KindId} : j.place = k.place ↔ j = k := by
  cases j
  cases k
  simp

theorem ManagerId.place_inj {m n : ManagerId} : m.place = n.place ↔ m = n := by
  cases m
  cases n
  simp

namespace World

variable [Host] {w v : World}

theorem kind_updateKind (w : World) (k j : KindId) (change : Kind → Kind) :
    (w.updateKind k change).kind j =
      if j = k ∧ k.place < w.kinds.length then change (w.kind k) else w.kind j := by
  unfold updateKind kind
  rw [getD_modify]
  simp only [KindId.place_inj]

theorem manager_updateManager (w : World) (m n : ManagerId) (change : Manager → Manager) :
    (w.updateManager m change).manager n =
      if n = m ∧ m.place < w.managers.length then change (w.manager m) else w.manager n := by
  unfold updateManager manager
  rw [getD_modify]
  simp only [ManagerId.place_inj]

/-- What a change of one manager leaves alone in it, it leaves alone in all. -/
theorem field_updateManager {α : Type} (field : Manager → α) {change : Manager → Manager}
    (h : ∀ manager, field (change manager) = field manager) (w : World) (m n : ManagerId) :
    field ((w.updateManager m change).manager n) = field (w.manager n) := by
  rw [manager_updateManager]
  split
  · rename_i hn
    rw [h, hn.1]
  · rfl

theorem kind_of_length_le {k : KindId} (h : w.kinds.length ≤ k.place) : w.kind k = Kind.absent := by
  simp [kind, List.getD_eq_getElem?_getD, List.getElem?_eq_none h]

theorem manager_of_length_le {m : ManagerId} (h : w.managers.length ≤ m.place) :
    w.manager m = Manager.absent := by
  simp [manager, List.getD_eq_getElem?_getD, List.getElem?_eq_none h]

/-- A kind that is attached was made. -/
theorem lt_length_of_attachment {k : KindId} {a : Attachment}
    (h : (w.kind k).attachment = some a) : k.place < w.kinds.length := by
  rcases Nat.lt_or_ge k.place w.kinds.length with hlt | hge
  · exact hlt
  · rw [kind_of_length_le hge] at h
    cases h

/-- A manager that is still there was made. -/
theorem lt_length_of_not_retired {m : ManagerId} (h : (w.manager m).retired = false) :
    m.place < w.managers.length := by
  rcases Nat.lt_or_ge m.place w.managers.length with hlt | hge
  · exact hlt
  · rw [manager_of_length_le hge] at h
    cases h

theorem setStore_self (w : World) (k : KindId) : w.setStore k (w.kind k).store = w := by
  unfold setStore updateKind
  have hsame : w.kinds.modify k.place (fun kind => { kind with store := (w.kind k).store }) =
      w.kinds := by
    apply List.ext_getElem?
    intro i
    rw [List.getElem?_modify]
    split
    · rename_i hi
      subst hi
      unfold kind
      cases hget : w.kinds[k.place]? with
      | none => rfl
      | some found => simp [List.getD_eq_getElem?_getD, hget]
    · simp
  rw [hsame]

/-! ## Changes of one entity -/

/-- The manager whose groups hear of a kind. -/
def audience (w : World) (k : KindId) : Option ManagerId :=
  match (w.kind k).attachment with
  | some ⟨_, .manager m⟩ => if (w.manager m).retired then none else some m
  | _ => none

theorem informGroups_of_some {k : KindId} {m : ManagerId} (h : w.audience k = some m)
    (e : EntityId) :
    w.informGroups k e = w.updateGroups m fun g => g.kindChanged k e fun j => w.holds j e := by
  unfold audience at h
  unfold informGroups
  cases hattached : (w.kind k).attachment with
  | none =>
      rw [hattached] at h
      cases h
  | some a =>
      obtain ⟨number, watcher⟩ := a
      rw [hattached] at h
      cases watcher with
      | outside o => cases h
      | manager n =>
          dsimp only at h ⊢
          split at h
          · cases h
          · rename_i hpresent
            obtain rfl := Option.some.inj h
            exact if_neg hpresent

theorem informGroups_of_none {k : KindId} (h : w.audience k = none) (e : EntityId) :
    w.informGroups k e = w := by
  unfold audience at h
  unfold informGroups
  cases hattached : (w.kind k).attachment with
  | none => rfl
  | some a =>
      obtain ⟨number, watcher⟩ := a
      rw [hattached] at h
      cases watcher with
      | outside o => rfl
      | manager n =>
          dsimp only at h ⊢
          split at h
          · rename_i hretired
            exact if_pos hretired
          · cases h

/-- Every store hangs together. -/
def Packed (w : World) : Prop := ∀ k, (w.kind k).store.Packed

/-- One entity may have gained or lost some kinds, and the groups that hear of them have tested
it for each. -/
structure Tracks (audience : Option ManagerId) (e : EntityId) (kinds : List KindId)
    (w v : World) : Prop where
  /-- No kind has lost or gained a property. -/
  shape : ∀ k, (w.kind k).store.SameShape (v.kind k).store
  /-- Nothing has happened to other entities, or in other kinds. -/
  undisturbed : ∀ k x, x ≠ e ∨ k ∉ kinds → (w.kind k).store.Undisturbed (v.kind k).store x
  /-- Kinds are attached as before. -/
  attachment : ∀ k, (v.kind k).attachment = (w.kind k).attachment
  /-- The groups that hear of the kinds have tested the entity. -/
  told : ∀ m, audience = some m → v.manager m =
    { w.manager m with
      groups := (w.manager m).groups.map fun g => g.recheck e kinds fun k => v.holds k e }
  /-- The other groups have not. -/
  untold : ∀ m, audience ≠ some m → v.manager m = w.manager m

theorem Undisturbed.holds_eq {k : KindId} {x : EntityId}
    (h : (w.kind k).store.Undisturbed (v.kind k).store x) : v.holds k x = w.holds k x := by
  unfold holds
  rw [Bool.eq_iff_iff, Store.contains_eq_true, Store.contains_eq_true]
  exact h.held

theorem holds_eq_true {k : KindId} {e : EntityId} :
    w.holds k e = true ↔ e ∈ (w.kind k).store.holders :=
  Store.contains_eq_true

theorem holds_eq_false {k : KindId} {e : EntityId} :
    w.holds k e = false ↔ e ∉ (w.kind k).store.holders := by
  rw [← holds_eq_true]
  simp

namespace Tracks

variable {audience : Option ManagerId} {e : EntityId} {kinds : List KindId}

theorem holds_eq (h : Tracks audience e kinds w v) {k : KindId} {x : EntityId}
    (hx : x ≠ e ∨ k ∉ kinds) : v.holds k x = w.holds k x :=
  Undisturbed.holds_eq (h.undisturbed k x hx)

omit [Host] in
/-- Either the change bears on an entity and a kind, or nothing has happened to them. -/
theorem touched_or_not (e x : EntityId) (k : KindId) (kinds : List KindId) :
    x = e ∧ k ∈ kinds ∨ (x ≠ e ∨ k ∉ kinds) := by
  by_cases hx : x = e
  · by_cases hk : k ∈ kinds
    · exact Or.inl ⟨hx, hk⟩
    · exact Or.inr (Or.inr hk)
  · exact Or.inr (Or.inl hx)

theorem holds_congr (h : Tracks audience e kinds w v) (k : KindId) (x : EntityId)
    (hx : x ≠ e ∨ k ∉ kinds) : v.holds k x = w.holds k x :=
  h.holds_eq hx

theorem refl (audience : Option ManagerId) (e : EntityId) (w : World) :
    Tracks audience e [] w w where
  shape k := .refl _
  undisturbed k x _ := .refl _ _
  attachment k := rfl
  told m _ := by simp
  untold m _ := rfl

/-- Nothing of a manager changes but its groups. -/
theorem field_eq {α : Type} (h : Tracks audience e kinds w v) (field : Manager → α)
    (hfield : ∀ manager groups, field { manager with groups := groups } = field manager)
    (m : ManagerId) : field (v.manager m) = field (w.manager m) := by
  by_cases hm : audience = some m
  · rw [h.told m hm]
    exact hfield _ _
  · rw [h.untold m hm]

theorem retired_eq (h : Tracks audience e kinds w v) (m : ManagerId) :
    (v.manager m).retired = (w.manager m).retired :=
  h.field_eq Manager.retired (fun _ _ => rfl) m

theorem audience_eq (h : Tracks audience e kinds w v) (k : KindId) :
    v.audience k = w.audience k := by
  unfold World.audience
  rw [h.attachment k]
  split
  · rw [h.retired_eq]
  · rfl

/-- Changes of one entity add up. -/
theorem trans {more : List KindId} {u : World} (h : Tracks audience e kinds w v)
    (g : Tracks audience e more v u)
    (hcoherent : ∀ m, audience = some m → ∀ group ∈ (w.manager m).groups, group.Coherent) :
    Tracks audience e (kinds ++ more) w u where
  shape k := (h.shape k).trans (g.shape k)
  undisturbed k x hx := by
    refine (h.undisturbed k x ?_).trans (g.undisturbed k x ?_)
    · exact hx.imp id fun hk hmem => hk (List.mem_append_left more hmem)
    · exact hx.imp id fun hk hmem => hk (List.mem_append_right kinds hmem)
  attachment k := (g.attachment k).trans (h.attachment k)
  told m hm := by
    rw [g.told m hm, h.told m hm]
    dsimp only
    -- the groups were tested twice, and of two tests only the second counts
    rw [List.map_map]
    congr 1
    apply List.map_congr_left
    intro group hgroup
    refine (hcoherent m hm group hgroup).recheck_recheck e kinds more ?_
    intro k hk
    exact (g.holds_eq (Or.inr hk)).symm
  untold m hm := (g.untold m hm).trans (h.untold m hm)

end Tracks

/-! ## One change -/

theorem kind_setStore (w : World) (k j : KindId) (store : Store) :
    (w.setStore k store).kind j =
      if j = k ∧ k.place < w.kinds.length then { w.kind k with store := store } else w.kind j :=
  kind_updateKind w k j _

theorem kinds_informGroups (w : World) (k : KindId) (e : EntityId) :
    (w.informGroups k e).kinds = w.kinds := by
  cases haudience : w.audience k with
  | none => rw [informGroups_of_none haudience]
  | some m =>
      rw [informGroups_of_some haudience]
      rfl

theorem kind_informGroups (w : World) (k j : KindId) (e : EntityId) :
    (w.informGroups k e).kind j = w.kind j := by
  unfold kind
  rw [kinds_informGroups]

theorem audience_setStore (w : World) (k j : KindId) (store : Store) :
    (w.setStore k store).audience j = w.audience j := by
  have hattachment : ((w.setStore k store).kind j).attachment = (w.kind j).attachment := by
    rw [kind_setStore]
    split
    · rename_i hj
      rw [hj.1]
    · rfl
  unfold audience
  rw [hattachment]
  rfl

theorem retired_of_audience {k : KindId} {m : ManagerId} (h : w.audience k = some m) :
    (w.manager m).retired = false := by
  unfold audience at h
  split at h
  · split at h
    · cases h
    · rename_i hretired
      obtain rfl := Option.some.inj h
      simpa using hretired
  · cases h

/-- A store that has changed for one entity, and the groups that have been told. -/
theorem tracks_informGroups {k : KindId} {e : EntityId} {store : Store}
    (hshape : (w.kind k).store.SameShape store)
    (hothers : ∀ x, x ≠ e → (w.kind k).store.Undisturbed store x) :
    Tracks (w.audience k) e [k] w ((w.setStore k store).informGroups k e) := by
  have hkind := fun j =>
    (kind_informGroups (w.setStore k store) k j e).trans (kind_setStore w k j store)
  refine { shape := ?_, undisturbed := ?_, attachment := ?_, told := ?_, untold := ?_ }
  · intro j
    rw [hkind]
    split
    · rename_i hj
      rw [hj.1]
      exact hshape
    · exact .refl _
  · intro j x hx
    rw [hkind]
    split
    · rename_i hj
      rw [hj.1] at hx ⊢
      exact hothers x (hx.resolve_right fun hk => hk List.mem_cons_self)
    · exact .refl _ _
  · intro j
    rw [hkind]
    split
    · rename_i hj
      rw [hj.1]
    · rfl
  · intro m hm
    -- a manager that hears of a kind was made, so its place can be updated
    have hpresent := lt_length_of_not_retired (retired_of_audience hm)
    have haudience : (w.setStore k store).audience k = some m :=
      (audience_setStore w k k store).trans hm
    rw [informGroups_of_some haudience]
    unfold updateGroups
    rw [manager_updateManager, if_pos ⟨rfl, hpresent⟩]
    simp only [Group.kindChanged_eq_recheck]
    rfl
  · intro m hm
    cases haudience : w.audience k with
    | none =>
        rw [informGroups_of_none ((audience_setStore w k k store).trans haudience)]
        rfl
    | some n =>
        have hne : m ≠ n := by
          rintro rfl
          exact hm haudience
        rw [informGroups_of_some ((audience_setStore w k k store).trans haudience)]
        unfold updateGroups
        rw [manager_updateManager, if_neg fun heq => hne heq.1]
        rfl

/-- A store that has changed for nobody. -/
theorem tracks_setStore {k : KindId} {store : Store}
    (hshape : (w.kind k).store.SameShape store)
    (hothers : ∀ x, (w.kind k).store.Undisturbed store x) (audience : Option ManagerId)
    (e : EntityId) : Tracks audience e [] w (w.setStore k store) := by
  refine { shape := ?_, undisturbed := ?_, attachment := ?_, told := ?_, untold := ?_ }
  · intro j
    rw [kind_setStore]
    split
    · rename_i hj
      rw [hj.1]
      exact hshape
    · exact .refl _
  · intro j x _
    rw [kind_setStore]
    split
    · rename_i hj
      rw [hj.1]
      exact hothers x
    · exact .refl _ _
  · intro j
    rw [kind_setStore]
    split
    · rename_i hj
      rw [hj.1]
    · rfl
  · intro m _
    simp [setStore, updateKind, manager]
  · intro m _
    rfl

theorem addHolder_of_ok {k : KindId} {e : EntityId} {store : Store}
    (h : (w.kind k).store.insert Host.machine e = (store, .ok ())) :
    w.addHolder k e = ((w.setStore k store).informGroups k e, .ok ()) := by
  unfold addHolder
  rw [h]

theorem addHolder_of_error {k : KindId} {e : EntityId} {store : Store} {cause : StoreError}
    (h : (w.kind k).store.insert Host.machine e = (store, .error cause)) :
    w.addHolder k e = (w.setStore k store, .error cause) := by
  unfold addHolder
  rw [h]

/-- The answer is that of the store. -/
theorem addHolder_answer (w : World) (k : KindId) (e : EntityId) :
    (w.addHolder k e).2 = ((w.kind k).store.insert Host.machine e).2 := by
  cases hresult : (w.kind k).store.insert Host.machine e with
  | mk store result =>
      cases result with
      | error cause => rw [addHolder_of_error hresult]
      | ok done => rw [addHolder_of_ok hresult]

/-- A kind that is given. -/
theorem addHolder_ok (hw : w.Packed) {k : KindId} (hk : k.place < w.kinds.length) {e : EntityId}
    (h : w.addHolder k e = (v, .ok ())) :
    w.holds k e = false ∧ v.holds k e = true ∧ Tracks (w.audience k) e [k] w v := by
  have hstep := Store.insert_inserted (hw k) Host.machine e
  have hothers := fun x (hx : x ≠ e) => Store.undisturbed_insert (hw k) Host.machine hx
  cases hresult : (w.kind k).store.insert Host.machine e with
  | mk store result =>
      rw [hresult] at hstep hothers
      cases result with
      | error cause =>
          rw [addHolder_of_error hresult] at h
          cases h
      | ok done =>
          rw [addHolder_of_ok hresult] at h
          obtain rfl := (Prod.mk.inj h).1
          obtain ⟨-, hnew⟩ := hstep.valid_and_new
          refine ⟨holds_eq_false.2 hnew, ?_, tracks_informGroups hstep.sameShape hothers⟩
          rw [holds_eq_true, kind_informGroups, kind_setStore, if_pos ⟨rfl, hk⟩]
          exact (hstep.mem_holders (hw k) e).2 (Or.inr ⟨rfl, rfl⟩)

/-- A kind that is refused. -/
theorem addHolder_error (hw : w.Packed) {k : KindId} {e : EntityId} {cause : StoreError}
    (h : w.addHolder k e = (v, .error cause)) (audience : Option ManagerId) :
    Tracks audience e [] w v := by
  have hstep := Store.insert_inserted (hw k) Host.machine e
  cases hresult : (w.kind k).store.insert Host.machine e with
  | mk store result =>
      rw [hresult] at hstep
      cases result with
      | error cause =>
          rw [addHolder_of_error hresult] at h
          obtain rfl := (Prod.mk.inj h).1
          exact tracks_setStore hstep.sameShape
            (fun x => Store.undisturbed_refused (hw k) hstep x) audience e
      | ok done =>
          rw [addHolder_of_ok hresult] at h
          cases h

theorem packed_setStore (hw : w.Packed) (k : KindId) {store : Store} (hstore : store.Packed) :
    (w.setStore k store).Packed := by
  intro j
  rw [kind_setStore]
  split
  · exact hstore
  · exact hw j

theorem packed_addHolder (hw : w.Packed) (k : KindId) (e : EntityId) :
    (w.addHolder k e).1.Packed := by
  have hstore := Store.packed_insert (hw k) Host.machine e
  cases hresult : (w.kind k).store.insert Host.machine e with
  | mk store result =>
      rw [hresult] at hstore
      have hset := packed_setStore hw k hstore
      cases result with
      | error cause =>
          rw [addHolder_of_error hresult]
          exact hset
      | ok done =>
          rw [addHolder_of_ok hresult]
          intro j
          rw [kind_informGroups]
          exact hset j

theorem packed_removeHolder (hw : w.Packed) (k : KindId) (e : EntityId) :
    (w.removeHolder k e).1.Packed := by
  have hset := packed_setStore hw k (Store.packed_remove (hw k) Host.machine e)
  unfold removeHolder
  dsimp only
  split
  · intro j
    rw [kind_informGroups]
    exact hset j
  · exact hset

/-- A kind that somebody holds was made. -/
theorem lt_length_of_holds {k : KindId} {e : EntityId} (h : w.holds k e = true) :
    k.place < w.kinds.length := by
  rcases Nat.lt_or_ge k.place w.kinds.length with hlt | hge
  · exact hlt
  · unfold holds at h
    rw [kind_of_length_le hge] at h
    cases h

/-- A kind that is taken. -/
theorem removeHolder_true (hw : w.Packed) {k : KindId} {e : EntityId}
    (h : w.removeHolder k e = (v, true)) :
    w.holds k e = true ∧ v.holds k e = false ∧ Tracks (w.audience k) e [k] w v := by
  have hheld := Store.remove_answer (s := (w.kind k).store) Host.machine e
  unfold removeHolder at h
  dsimp only at h
  rw [hheld] at h
  obtain ⟨hworld, hholds⟩ := Prod.mk.inj h
  rw [if_pos hholds] at hworld
  subst hworld
  have hshape := Store.sameShape_remove (w.kind k).store Host.machine e
  refine ⟨hholds, ?_, tracks_informGroups hshape fun x hx =>
    Store.undisturbed_remove (hw k) Host.machine hx⟩
  rw [holds_eq_false, kind_informGroups, kind_setStore, if_pos ⟨rfl, lt_length_of_holds hholds⟩]
  exact fun hmem => ((Store.mem_holders_remove (hw k) Host.machine e e).1 hmem).2 rfl

/-- There is nothing to take. -/
theorem removeHolder_false {k : KindId} {e : EntityId} (h : w.removeHolder k e = (v, false)) :
    w.holds k e = false ∧ v = w := by
  unfold removeHolder at h
  dsimp only at h
  rw [Store.remove_answer] at h
  obtain ⟨hworld, hnone⟩ := Prod.mk.inj h
  refine ⟨hnone, ?_⟩
  -- the store finds nobody to remove and stays as it is
  have hremove : (w.kind k).store.remove Host.machine e = ((w.kind k).store, false) := by
    unfold Store.remove
    rw [Store.contains_eq_false.1 hnone]
  rw [hnone, if_neg Bool.false_ne_true, hremove, setStore_self] at hworld
  exact hworld.symm

/-- Whether it was held or not, a kind that was taken is held no more. -/
theorem tracks_removeHolder (hw : w.Packed) {audience : Option ManagerId} {k : KindId}
    (haudience : w.audience k = audience) (e : EntityId) :
    ∃ taken, (∀ j ∈ taken, j = k) ∧ Tracks audience e taken w (w.removeHolder k e).1 ∧
      (w.removeHolder k e).1.holds k e = false := by
  cases hresult : w.removeHolder k e with
  | mk u held =>
      cases held with
      | false =>
          obtain ⟨hnone, rfl⟩ := removeHolder_false hresult
          exact ⟨[], fun j hj => absurd hj List.not_mem_nil, .refl audience e u, hnone⟩
      | true =>
          obtain ⟨-, hnone, hstep⟩ := removeHolder_true hw hresult
          rw [haudience] at hstep
          exact ⟨[k], fun j hj => List.mem_singleton.1 hj, hstep, hnone⟩

end World

end EntityStore
