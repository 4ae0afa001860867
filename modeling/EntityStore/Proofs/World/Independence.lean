import EntityStore.Proofs.Group.Independence
import EntityStore.Proofs.Store.Independence
import EntityStore.Proofs.World.Entities

/-!
# Changes of different entities or kinds

Two changes, each of one kind of one entity, are made in either order.  If they are about different
entities or different kinds, then each finds what it would have found without the other.  So both
orders lead to the same holders and values, though not to the same blocks, and to the same groups:
the tests of different entities commute, and of the tests of one entity only the last one counts,
which is made when both changes have happened.

* `Altered k e w v`: nothing has happened from `w` to `v` but that the entity `e` may have gained or
  lost the kind `k`, and the groups have been told if it has.
* `alter`: a change, and `agrees_alter`: what it depends on.
* `alike_of_altered`: both orders of two changes lead to the same.
-/

namespace EntityStore.World

variable [Host] {w v w' v' a b ab ba : World} {k j : KindId} {e x : EntityId}

/-! ## Worlds that agree -/

/-- In two worlds the same is kept of a kind for an entity. -/
def Agrees (w v : World) (k : KindId) (e : EntityId) : Prop :=
  (w.kind k).store.Agrees (v.kind k).store e

theorem Agrees.symm (h : Agrees w v k e) : Agrees v w k e := Store.Agrees.symm h

theorem Agrees.trans (h : Agrees w v k e) (g : Agrees v v' k e) : Agrees w v' k e :=
  Store.Agrees.trans h g

theorem Agrees.holds_eq (h : Agrees w v k e) : v.holds k e = w.holds k e :=
  Undisturbed.holds_eq h.same

/-- Two worlds that cannot be told apart by who holds what, by what properties read, or by managers
and their groups. -/
structure Alike (w v : World) : Prop where
  /-- Every kind has the same holders. -/
  holders : ∀ k, (v.kind k).store.holders = (w.kind k).store.holders
  /-- Every property reads the same. -/
  values : ∀ k (p : Property) e, p.get (v.kind k).store e = p.get (w.kind k).store e
  /-- Every manager has the same live ids and due removals, and the same groups with the same
  members, undelivered changes and listeners. -/
  managers : ∀ m, v.manager m = w.manager m

theorem alike_of_agrees (hw : w.Packed) (hv : v.Packed) (hstores : ∀ k e, Agrees w v k e)
    (hmanagers : ∀ m, v.manager m = w.manager m) : Alike w v where
  holders k := by
    ext e
    exact (hstores k e).same.held
  values k p e := (hstores k e).get_eq (hw k) (hv k) p
  managers := hmanagers

/-! ## One kind of one entity -/

/-- The kinds of an entity that are held in one of two worlds only, out of a single one. -/
def touched (k : KindId) (e : EntityId) (w v : World) : List KindId :=
  if v.holds k e = w.holds k e then [] else [k]

theorem eq_of_mem_touched (h : j ∈ touched k e w v) : j = k := by
  unfold touched at h
  split at h
  · cases h
  · exact List.mem_singleton.1 h

theorem touched_congr (hbefore : Agrees w w' k e) (hafter : Agrees v v' k e) :
    touched k e w' v' = touched k e w v := by
  unfold touched
  rw [hbefore.holds_eq, hafter.holds_eq]

/-- An entity may have gained or lost a kind, and nothing else has happened. -/
structure Altered (k : KindId) (e : EntityId) (w v : World) : Prop where
  packed : v.Packed
  tracks : Tracks (w.audience k) e (touched k e w v) w v

theorem Altered.refl (hw : w.Packed) (k : KindId) (e : EntityId) : Altered k e w w where
  packed := hw
  tracks := by
    unfold touched
    rw [if_pos rfl]
    exact .refl _ e w

theorem Altered.wired (h : Altered k e w v) (hw : w.Wired) : v.Wired := by
  refine hw.tracks h.tracks ?_ h.packed
  intro j hj
  rw [eq_of_mem_touched hj]

/-- Nothing has happened in another kind, or to another entity. -/
theorem Altered.agrees (h : Altered k e w v) (hother : j ≠ k ∨ x ≠ e) : Agrees w v j x := by
  have hfree : x ≠ e ∨ j ∉ touched k e w v :=
    hother.symm.imp id fun hj hmem => hj (eq_of_mem_touched hmem)
  exact ⟨h.tracks.shape j, h.tracks.undisturbed j x hfree⟩

/-- A manager that is still there has tested the entity; nothing else has happened to it. -/
theorem Altered.manager_eq (h : Altered k e w v) (hw : w.Wired) (m : ManagerId) :
    v.manager m = if (w.manager m).retired then w.manager m else
      { w.manager m with
        groups := (w.manager m).groups.map fun g =>
          g.recheck e (touched k e w v) fun k => v.holds k e } := by
  by_cases hm : w.audience k = some m
  · rw [retired_of_audience hm, if_neg Bool.false_ne_true]
    exact h.tracks.told m hm
  · cases hretired : (w.manager m).retired with
    | true => exact h.tracks.untold m hm
    | false =>
        have hkinds : ∀ j ∈ touched k e w v, w.audience j = w.audience k := by
          intro j hj
          rw [eq_of_mem_touched hj]
        rw [if_neg Bool.false_ne_true, ← h.tracks.groups_eq hw hkinds hretired, h.tracks.untold m hm]

/-! ## Giving and taking -/

/-- Give a kind to an entity or take it away; the answer is whether it has been given, or was
held. -/
def alter (w : World) (gives : Bool) (k : KindId) (e : EntityId) : World × Except StoreError Bool :=
  if gives then
    let (v, result) := w.addHolder k e
    (v, result.map fun _ => true)
  else
    let (v, held) := w.removeHolder k e
    (v, .ok held)

theorem store_addHolder (hk : k.place < w.kinds.length) :
    ((w.addHolder k e).1.kind k).store =
      ((w.kind k).store.insert Host.machine e).1 := by
  cases hresult : (w.kind k).store.insert Host.machine e with
  | mk store result =>
      cases result with
      | error cause =>
          rw [addHolder_of_error hresult, kind_setStore, if_pos ⟨rfl, hk⟩]
      | ok done =>
          rw [addHolder_of_ok hresult, kind_informGroups, kind_setStore, if_pos ⟨rfl, hk⟩]

theorem store_removeHolder (hk : k.place < w.kinds.length) :
    ((w.removeHolder k e).1.kind k).store =
      ((w.kind k).store.remove Host.machine e).1 := by
  unfold removeHolder
  dsimp only
  split
  · rw [kind_informGroups, kind_setStore, if_pos ⟨rfl, hk⟩]
  · rw [kind_setStore, if_pos ⟨rfl, hk⟩]

theorem altered_addHolder (hw : w.Packed) (hk : k.place < w.kinds.length) (e : EntityId) :
    Altered k e w (w.addHolder k e).1 := by
  refine ⟨packed_addHolder hw k e, ?_⟩
  cases hresult : w.addHolder k e with
  | mk v result =>
      unfold touched
      cases result with
      | error cause =>
          have htracks := addHolder_error hw hresult (w.audience k)
          rw [if_pos (htracks.holds_eq (Or.inr List.not_mem_nil))]
          exact htracks
      | ok done =>
          obtain ⟨hbefore, hafter, htracks⟩ := addHolder_ok hw hk hresult
          rw [hbefore, hafter, if_neg (by decide)]
          exact htracks

theorem altered_removeHolder (hw : w.Packed) (k : KindId) (e : EntityId) :
    Altered k e w (w.removeHolder k e).1 := by
  cases hresult : w.removeHolder k e with
  | mk v held =>
      cases held with
      | false =>
          obtain ⟨-, rfl⟩ := removeHolder_false hresult
          exact .refl hw k e
      | true =>
          have hpacked := packed_removeHolder hw k e
          rw [hresult] at hpacked
          obtain ⟨hbefore, hafter, htracks⟩ := removeHolder_true hw hresult
          refine ⟨hpacked, ?_⟩
          unfold touched
          rw [hbefore, hafter, if_neg (by decide)]
          exact htracks

theorem altered_alter (hw : w.Packed) (hk : k.place < w.kinds.length) (gives : Bool)
    (e : EntityId) : Altered k e w (w.alter gives k e).1 := by
  cases gives with
  | false => exact altered_removeHolder hw k e
  | true => exact altered_addHolder hw hk e

/-- Where the same is kept of a kind for an entity, a change of the kind answers the same and leaves
the same, unless it wants for memory. -/
theorem agrees_alter (hw : w.Packed) (hv : v.Packed) (hwKind : k.place < w.kinds.length)
    (hvKind : k.place < v.kinds.length) (h : Agrees w v k e) (gives : Bool)
    (hwMemory : ∀ cause, (w.alter gives k e).2 = .error cause → cause.isOverflow = false)
    (hvMemory : ∀ cause, (v.alter gives k e).2 = .error cause → cause.isOverflow = false) :
    (v.alter gives k e).2 = (w.alter gives k e).2 ∧
      Agrees (w.alter gives k e).1 (v.alter gives k e).1 k e := by
  cases gives with
  | false =>
      have hstores := Store.Agrees.remove h (hw k) (hv k) Host.machine
      refine ⟨congrArg Except.ok hstores.1, ?_⟩
      show Store.Agrees ((w.removeHolder k e).1.kind k).store ((v.removeHolder k e).1.kind k).store e
      rw [store_removeHolder hwKind, store_removeHolder hvKind]
      exact hstores.2
  | true =>
      -- the answer is that of the store
      have hanswer : ∀ u : World, (u.alter true k e).2 =
          ((u.kind k).store.insert Host.machine e).2.map fun _ => true := by
        intro u
        rw [← addHolder_answer]
        rfl
      have hmemory : ∀ u : World,
          (∀ cause, (u.alter true k e).2 = .error cause → cause.isOverflow = false) →
          ∀ cause, ((u.kind k).store.insert Host.machine e).2 = .error cause →
            cause.isOverflow = false := by
        intro u hu cause hcause
        refine hu cause ?_
        rw [hanswer, hcause]
        rfl
      have hstores := Store.Agrees.insert h (hw k) (hv k) (hmemory w hwMemory) (hmemory v hvMemory)
      refine ⟨by rw [hanswer, hanswer, hstores.1], ?_⟩
      show Store.Agrees ((w.addHolder k e).1.kind k).store ((v.addHolder k e).1.kind k).store e
      rw [store_addHolder hwKind, store_addHolder hvKind]
      exact hstores.2

/-! ## Both orders -/

/-- A group makes the same of two changes in either order. -/
theorem recheck_both {g : Group} (hg : g.Coherent) (ha : Altered k e w a) (hb : Altered j x w b)
    (hab : Altered j x a ab) (hba : Altered k e b ba) (hapart : k ≠ j ∨ e ≠ x)
    (hagree : ∀ i y, Agrees ab ba i y) :
    (g.recheck e (touched k e w a) fun i => a.holds i e).recheck x (touched j x a ab)
        (fun i => ab.holds i x) =
      (g.recheck x (touched j x w b) fun i => b.holds i x).recheck e (touched k e b ba)
        fun i => ba.holds i e := by
  have hfirst : touched k e b ba = touched k e w a :=
    touched_congr (hb.agrees hapart) (((hab.agrees hapart).trans (hagree k e)))
  have hsecond : touched j x a ab = touched j x w b := by
    have hapart' : j ≠ k ∨ x ≠ e := hapart.imp Ne.symm Ne.symm
    exact touched_congr (ha.agrees hapart') ((hba.agrees hapart').trans (hagree j x).symm)
  by_cases hx : x = e
  · -- of the tests of one entity only the last one counts, and both orders end alike
    subst hx
    have hends : (fun i => ba.holds i x) = fun i => ab.holds i x :=
      funext fun i => (hagree i x).holds_eq
    have hleft : ∀ i, i ∉ touched j x a ab → a.holds i x = ab.holds i x :=
      fun i hi => (hab.tracks.holds_eq (Or.inr hi)).symm
    have hright : ∀ i, i ∉ touched k x b ba → b.holds i x = ba.holds i x :=
      fun i hi => (hba.tracks.holds_eq (Or.inr hi)).symm
    rw [hg.recheck_recheck x _ _ hleft, hg.recheck_recheck x _ _ hright, hends, hfirst, hsecond]
    unfold Group.recheck
    simp only [List.any_append, Bool.or_comm]
  · have hsame : (fun i => ab.holds i x) = fun i => b.holds i x :=
      funext fun i => (((hba.agrees (Or.inr hx)).trans (hagree i x).symm)).holds_eq
    have hother : (fun i => ba.holds i e) = fun i => a.holds i e :=
      funext fun i => (((hab.agrees (Or.inr (Ne.symm hx))).trans (hagree i e))).holds_eq
    rw [hsame, hother, hfirst, hsecond]
    exact Group.recheck_comm g hx _ _ _ _

/-- Two changes that are about different entities or different kinds lead to the same in either
order, if each leaves the same for its own entity in both. -/
theorem alike_of_altered (hw : w.Wired) (hapart : k ≠ j ∨ e ≠ x) (ha : Altered k e w a)
    (hb : Altered j x w b) (hab : Altered j x a ab) (hba : Altered k e b ba)
    (hk : Agrees a ba k e) (hj : Agrees b ab j x) : Alike ab ba := by
  have hapart' : j ≠ k ∨ x ≠ e := hapart.imp Ne.symm Ne.symm
  have hagree : ∀ i y, Agrees ab ba i y := by
    intro i y
    by_cases hfirst : i = k ∧ y = e
    · obtain ⟨rfl, rfl⟩ := hfirst
      exact (hab.agrees hapart).symm.trans hk
    · have hne : i ≠ k ∨ y ≠ e := Classical.not_and_iff_not_or_not.1 hfirst
      by_cases hsecond : i = j ∧ y = x
      · obtain ⟨rfl, rfl⟩ := hsecond
        exact hj.symm.trans (hba.agrees hapart')
      · have hne' : i ≠ j ∨ y ≠ x := Classical.not_and_iff_not_or_not.1 hsecond
        have hleft : Agrees w ab i y := (ha.agrees hne).trans (hab.agrees hne')
        have hright : Agrees w ba i y := (hb.agrees hne').trans (hba.agrees hne)
        exact hleft.symm.trans hright
  refine alike_of_agrees hab.packed hba.packed hagree fun m => ?_
  rw [hba.manager_eq (hb.wired hw), hab.manager_eq (ha.wired hw), hb.tracks.retired_eq,
    ha.tracks.retired_eq, hb.manager_eq hw, ha.manager_eq hw]
  cases hretired : (w.manager m).retired with
  | true => rfl
  | false =>
      simp only [Bool.false_eq_true, if_false, List.map_map]
      congr 1
      refine List.map_congr_left fun g hg => ?_
      exact (recheck_both (hw.coherent m g hg) ha hb hab hba hapart hagree).symm

end EntityStore.World
