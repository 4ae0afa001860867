import EntityStore.Proofs.Session.Moves
import EntityStore.Proofs.World.Listening

/-!
# The filters of a manager

The groups of a manager are known by their filters.  No two groups of a manager have the same one,
and a group keeps its filter and its number, whatever happens.

* `Move.files`: a move leaves the filters of a manager, or it adds a new one behind them.
* `Catalogued`, `Catalogued.move`: the filters of a manager stay different from each other.
* `Extends`, `Move.extends`: what stands at a number stays there.
* `Opened`, `opened`: what it comes to when a group is asked for.
-/

namespace EntityStore

variable [Host]

namespace World

variable {w v u : World} {m n : ManagerId} {required forbidden : List KindId}

/-- The filters of the groups of a manager, in the order of their creation. -/
def filters (w : World) (m : ManagerId) : List Filter := (w.manager m).groups.map Group.filter

theorem length_filters (w : World) (m : ManagerId) :
    (w.filters m).length = (w.manager m).groups.length :=
  List.length_map _

theorem getElem?_filters (w : World) (m : ManagerId) (i : Nat) :
    (w.filters m)[i]? =
      if i < (w.manager m).groups.length then some (w.group ⟨m, i⟩).filter else none := by
  unfold filters group Manager.group
  rw [List.getElem?_map, List.getD_eq_getElem?_getD]
  split
  · rename_i hlt
    rw [List.getElem?_eq_getElem hlt]
    rfl
  · rename_i hge
    rw [List.getElem?_eq_none (Nat.le_of_not_lt hge)]
    rfl

/-- As many groups as before, each with the filter that it had. -/
theorem filters_eq (hcount : SameCount w v) (hfilter : ∀ g, (v.group g).filter = (w.group g).filter)
    (m : ManagerId) : v.filters m = w.filters m := by
  apply List.ext_getElem?
  intro i
  rw [getElem?_filters, getElem?_filters, hcount, hfilter]

theorem Tells.filters_eq (h : Tells w v) (m : ManagerId) : v.filters m = w.filters m :=
  World.filters_eq h.length_groups (fun g => (h.group g).filter) m

/-- A change of a manager that leaves its groups. -/
theorem filters_updateManager {change : Manager → Manager}
    (h : ∀ manager, (change manager).groups = manager.groups) (w : World) (m n : ManagerId) :
    (w.updateManager m change).filters n = w.filters n :=
  congrArg (List.map Group.filter) (field_updateManager Manager.groups h w m n)

/-- A change of a group that leaves its filter. -/
theorem filters_updateGroup (w : World) (g : GroupRef) {change : Group → Group}
    (h : (change (w.group g)).filter = (w.group g).filter) (m : ManagerId) :
    (w.updateGroup g change).filters m = w.filters m := by
  refine filters_eq (sameCount_updateGroup w g change) ?_ m
  intro k
  rw [group_updateGroup]
  split
  · rename_i hk
    rw [hk.1, h]
  · rfl

theorem filters_listen (w : World) (g : GroupRef) (l : ListenerId) (m : ManagerId) :
    (w.listen g l).1.filters m = w.filters m := by
  unfold listen
  split
  · rename_i new hnew
    obtain ⟨-, rfl⟩ := Group.listen_eq_some hnew
    exact filters_updateGroup w g rfl m
  · rfl

theorem filters_withGroup (hmade : m.place < w.managers.length) (g : Group) (n : ManagerId) :
    (w.withGroup m g).filters n =
      if n = m then w.filters m ++ [g.filter] else w.filters n := by
  unfold withGroup filters
  rw [manager_updateManager]
  by_cases hn : n = m
  · rw [if_pos ⟨hn, hmade⟩, if_pos hn]
    simp
  · rw [if_neg fun heq => hn heq.1, if_neg hn]

/-- A group that is made leaves the others alone. -/
theorem group_withGroup_of_ne {h : GroupRef} (g : Group)
    (hne : h ≠ ⟨m, (w.manager m).groups.length⟩) : (w.withGroup m g).group h = w.group h := by
  unfold withGroup group Manager.group
  rw [manager_updateManager]
  split
  · rename_i hm
    rw [hm.1]
    dsimp only
    rw [getD_concat]
    split
    · rename_i hnumber
      refine absurd ?_ hne
      cases h
      dsimp only at hm hnumber
      rw [hm.1, hnumber]
    · rfl
  · rfl

/-! ## Asking for a group -/

/-- What it comes to when a group is asked for. -/
inductive Opened (w : World) (m : ManagerId) (required forbidden : List KindId) :
    World → Except ManagerError GroupRef → Prop where
  /-- One of the kinds is not registered. -/
  | refused (k : KindId) (hk : k ∈ required ++ forbidden) (hstranger : w.isRegistered m k = false) :
      Opened w m required forbidden w (.error (.unregisteredKind (w.kindName k)))
  /-- The group is there. -/
  | found (number : Nat) (f : Filter) (hknown : ∀ k ∈ required ++ forbidden, w.isRegistered m k = true)
      (hnumber : (w.filters m)[number]? = some f) (hsame : f.sameAs required forbidden = true) :
      Opened w m required forbidden w (.ok ⟨m, number⟩)
  /-- It is made. -/
  | made (hknown : ∀ k ∈ required ++ forbidden, w.isRegistered m k = true)
      (hnew : ∀ f ∈ w.filters m, f.sameAs required forbidden = false) :
      Opened w m required forbidden
        (w.withGroup m (w.seededGroup m (Filter.of required forbidden)))
        (.ok ⟨m, (w.manager m).groups.length⟩)

theorem opened (w : World) (m : ManagerId) (required forbidden : List KindId) :
    Opened w m required forbidden (w.openGroup m required forbidden).1
      (w.openGroup m required forbidden).2 := by
  unfold openGroup
  cases hstranger : w.stranger? m (required ++ forbidden) with
  | some k =>
      have hk : w.isRegistered m k = false := by simpa using List.find?_some hstranger
      exact .refused k (List.mem_of_find?_eq_some hstranger) hk
  | none =>
      have hknown : ∀ k ∈ required ++ forbidden, w.isRegistered m k = true := by
        intro k hk
        simpa using List.find?_eq_none.1 hstranger k hk
      dsimp only
      cases hnumber : w.groupNumber? m required forbidden with
      | some number =>
          obtain ⟨hlt, hsame, -⟩ := List.findIdx?_eq_some_iff_getElem.1 hnumber
          refine .found number _ hknown ?_ hsame
          unfold filters
          rw [List.getElem?_map, List.getElem?_eq_getElem hlt]
          rfl
      | none =>
          refine .made hknown fun f hf => ?_
          obtain ⟨g, hg, rfl⟩ := List.mem_map.1 hf
          exact List.findIdx?_eq_none_iff.1 hnumber g hg

/-- A filter that is added to those of a manager is none of them. -/
theorem filters_openGroup (w : World) (m : ManagerId) (required forbidden : List KindId)
    (n : ManagerId) :
    (w.openGroup m required forbidden).1.filters n = w.filters n ∨
      (∀ f ∈ w.filters n, f.sameAs required forbidden = false) ∧
        (w.openGroup m required forbidden).1.filters n =
          w.filters n ++ [Filter.of required forbidden] := by
  have hopened := opened w m required forbidden
  generalize w.openGroup m required forbidden = result at hopened ⊢
  obtain ⟨v, answer⟩ := result
  dsimp only at hopened ⊢
  cases hopened with
  | refused => exact Or.inl rfl
  | found => exact Or.inl rfl
  | made hknown hnew =>
      rcases Nat.lt_or_ge m.place w.managers.length with hmade | habsent
      · have hfilters := filters_withGroup hmade (w.seededGroup m (Filter.of required forbidden)) n
        rw [filter_seededGroup] at hfilters
        by_cases hn : n = m
        · rw [if_pos hn] at hfilters
          rw [hn] at hfilters ⊢
          exact Or.inr ⟨hnew, hfilters⟩
        · rw [if_neg hn] at hfilters
          exact Or.inl hfilters
      · -- where no manager was made, no group is made either
        have hsame : w.withGroup m (w.seededGroup m (Filter.of required forbidden)) = w := by
          unfold withGroup updateManager
          rw [List.modify_eq_self habsent]
        exact Or.inl (congrArg (fun x => x.filters n) hsame)

end World

/-! ## Moves -/

variable {rule : Rule} {w v : World} {m : ManagerId}

/-- The filters of a manager stay, or a new one is added behind them. -/
theorem Move.files (h : Move rule w v) (m : ManagerId) :
    v.filters m = w.filters m ∨
      ∃ required forbidden, (∀ f ∈ w.filters m, f.sameAs required forbidden = false) ∧
        v.filters m = w.filters m ++ [Filter.of required forbidden] := by
  have hmanager : ∀ {change : Manager → Manager} (n : ManagerId),
      (∀ manager, (change manager).groups = manager.groups) →
        (w.updateManager n change).filters m = w.filters m :=
    fun n hgroups => World.filters_updateManager hgroups w n m
  cases h with
  | openGroup n required forbidden =>
      exact (w.filters_openGroup n required forbidden m).imp id fun h => ⟨_, _, h⟩
  | makeKind name config => exact Or.inl ((World.tells_makeKind w name config).filters_eq m)
  | declare k name type default bounds =>
      exact Or.inl ((World.tells_declare w k name type default bounds).filters_eq m)
  | setValue k p e x => exact Or.inl ((World.tells_setValue w k p e x).filters_eq m)
  | addHolder k e hrule => exact Or.inl ((World.tells_addHolder w k e).filters_eq m)
  | removeHolder k e hrule => exact Or.inl ((World.tells_removeHolder w k e).filters_eq m)
  | attach k number o hrule => exact Or.inl ((World.tells_attach w k _).filters_eq m)
  | makeManager config =>
      refine Or.inl (World.filters_eq (World.sameCount_makeManager w config) ?_ m)
      exact fun g => congrArg Group.filter (World.group_makeManager w config g)
  | retire n => exact Or.inl (hmanager n fun _ => rfl)
  | registerKind n k hrule =>
      refine Or.inl (World.filters_eq (World.sameCount_registerKind w n k) ?_ m)
      exact fun g => congrArg Group.filter (World.group_registerKind w n k g)
  | registerProcessor n p hrule =>
      refine Or.inl (World.filters_eq (World.sameCount_registerProcessor w n p) ?_ m)
      exact fun g => congrArg Group.filter (World.group_registerProcessor w n p g)
  | create n kinds hrule =>
      refine Or.inl (World.filters_eq (World.sameCount_create w n kinds) ?_ m)
      exact fun g => (World.heard_create w n kinds g).filter
  | scheduleRemoval n e hrule => exact Or.inl (hmanager n fun _ => rfl)
  | addComponent n e k hrule => exact Or.inl ((World.tells_addComponent w n e k).filters_eq m)
  | removeComponent n e k hrule =>
      exact Or.inl ((World.tells_removeComponent w n e k).filters_eq m)
  | listen g l => exact Or.inl (w.filters_listen g l m)
  | unlisten g l => exact Or.inl (w.filters_updateGroup g rfl m)
  | takeNews g => exact Or.inl (w.filters_updateGroup g rfl m)
  | removeDue n e hdue =>
      refine Or.inl (World.filters_eq (World.sameCount_removeDue w n e) ?_ m)
      exact fun g => (World.heard_removeDue w n e g).filter
  | countInit n => exact Or.inl (hmanager n fun _ => rfl)
  | setLifecycle n life => exact Or.inl (hmanager n fun _ => rfl)
  | elsewhere v hkinds hmanagers hprocessors =>
      refine Or.inl (World.filters_eq (World.sameCount_of_same_managers hmanagers) ?_ m)
      exact fun g => congrArg Group.filter (World.group_of_same_managers hmanagers g)

namespace World

/-- The filters of every manager are different from each other, and none of them has a kind
twice. -/
structure Catalogued (w : World) : Prop where
  distinct : ∀ m, ∀ f ∈ w.filters m, f.Distinct
  apart : ∀ m, (w.filters m).Pairwise fun f g => ¬ f.Agrees g

theorem catalogued_empty : World.empty.Catalogued where
  distinct _ _ hf := absurd hf List.not_mem_nil
  apart _ := List.Pairwise.nil

theorem Catalogued.move (hw : w.Catalogued) (h : Move rule w v) : v.Catalogued := by
  constructor
  case distinct =>
    intro m f hf
    rcases h.files m with hsame | ⟨required, forbidden, -, hadded⟩
    · rw [hsame] at hf
      exact hw.distinct m f hf
    · rw [hadded] at hf
      rcases List.mem_append.1 hf with hold | hlast
      · exact hw.distinct m f hold
      · rw [List.mem_singleton.1 hlast]
        exact Filter.distinct_of required forbidden
  case apart =>
    intro m
    rcases h.files m with hsame | ⟨required, forbidden, hnew, hadded⟩
    · rw [hsame]
      exact hw.apart m
    · rw [hadded]
      refine List.pairwise_append.2 ⟨hw.apart m, List.pairwise_singleton _ _, ?_⟩
      intro f hf g hg hagrees
      rw [List.mem_singleton.1 hg] at hagrees
      -- a filter that agrees with the new one would have been found
      have hfound := (Filter.sameAs_iff (hw.distinct m f hf)).2
        (hagrees.trans (Filter.agrees_of required forbidden))
      rw [hnew f hf] at hfound
      cases hfound

/-- Two numbers under which the same filter stands are one. -/
theorem Catalogued.number_inj (hw : w.Catalogued) {i j : Nat} {f g : Filter}
    (hi : (w.filters m)[i]? = some f) (hj : (w.filters m)[j]? = some g) (h : f.Agrees g) :
    i = j := by
  obtain ⟨hilt, rfl⟩ := List.getElem?_eq_some_iff.1 hi
  obtain ⟨hjlt, rfl⟩ := List.getElem?_eq_some_iff.1 hj
  have hapart := List.pairwise_iff_getElem.1 (hw.apart m)
  rcases Nat.lt_trichotomy i j with hlt | heq | hgt
  · exact absurd h (hapart i j hilt hjlt hlt)
  · exact heq
  · exact absurd h.symm (hapart j i hjlt hilt hgt)

/-- The filters of every manager stand where they stood, and others may stand behind them. -/
def Extends (w v : World) : Prop := ∀ m, w.filters m <+: v.filters m

theorem Extends.refl (w : World) : Extends w w := fun _ => List.prefix_rfl

theorem Extends.trans {u : World} (h : Extends w v) (g : Extends v u) : Extends w u :=
  fun m => (h m).trans (g m)

theorem Extends.getElem? (h : Extends w v) {i : Nat} {f : Filter}
    (hi : (w.filters m)[i]? = some f) : (v.filters m)[i]? = some f := by
  obtain ⟨more, hmore⟩ := h m
  rw [← hmore, List.getElem?_append_left (List.getElem?_eq_some_iff.1 hi).1]
  exact hi

end World

theorem Move.extends (h : Move rule w v) : World.Extends w v := by
  intro m
  rcases h.files m with hsame | ⟨required, forbidden, -, hadded⟩
  · exact ⟨[], by rw [hsame, List.append_nil]⟩
  · rw [hadded]
    exact List.prefix_append _ _

theorem Moves.extends (h : Moves rule w v) : World.Extends w v := by
  induction h with
  | refl => exact .refl w
  | tail _ move ih => exact ih.trans move.extends

end EntityStore
