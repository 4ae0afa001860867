import EntityStore.Proofs.Group.Filters
import EntityStore.Proofs.World.Entities

/-!
# New groups and new kinds of a manager

* `opened_or_same`: asking for a group makes it, if there is none of its filter yet, and the new
  group takes up the live entities that pass (`mem_seededGroup`).
* `registered_or_same`: a registration is refused, or the kind belongs to the manager afterwards.
-/

namespace EntityStore

variable [Host]

namespace World

variable {w v : World} {m : ManagerId} {e : EntityId}

omit [Host] in
/-- What taking up entities one after the other makes of a group. -/
theorem foldl_seed (accepted : EntityId → Bool) (l : List EntityId) (g : Group) :
    l.foldl (fun g e => g.seed e (accepted e)) g =
      { g with members := (l.foldl (fun g e => g.seed e (accepted e)) g).members } ∧
    ∀ x, x ∈ (l.foldl (fun g e => g.seed e (accepted e)) g).members ↔
      x ∈ g.members ∨ x ∈ l ∧ accepted x = true := by
  induction l generalizing g with
  | nil => exact ⟨rfl, fun x => by simp⟩
  | cons e rest ih =>
      rw [List.foldl_cons]
      obtain ⟨hfields, hmembers⟩ := ih (g.seed e (accepted e))
      have hseed : g.seed e (accepted e) = { g with members := (g.seed e (accepted e)).members } := by
        unfold Group.seed
        split <;> rfl
      constructor
      · rw [hfields, hseed]
      · intro x
        rw [hmembers, List.mem_cons]
        unfold Group.seed
        cases haccepted : accepted e with
        | true =>
            rw [if_pos rfl]
            dsimp only
            rw [IdSet.mem_insert]
            constructor
            · rintro ((rfl | hx) | ⟨hx, hpass⟩)
              · exact Or.inr ⟨Or.inl rfl, haccepted⟩
              · exact Or.inl hx
              · exact Or.inr ⟨Or.inr hx, hpass⟩
            · rintro (hx | ⟨rfl | hx, hpass⟩)
              · exact Or.inl (Or.inr hx)
              · exact Or.inl (Or.inl rfl)
              · exact Or.inr ⟨hx, hpass⟩
        | false =>
            rw [if_neg Bool.false_ne_true]
            constructor
            · exact Or.imp id (And.imp_left Or.inr)
            · rintro (hx | ⟨rfl | hx, hpass⟩)
              · exact Or.inl hx
              · rw [haccepted] at hpass
                cases hpass
              · exact Or.inr ⟨hx, hpass⟩

theorem seededGroup_eq (w : World) (m : ManagerId) (f : Filter) :
    w.seededGroup m f = { Group.ofFilter f with members := (w.seededGroup m f).members } :=
  (foldl_seed _ _ _).1

/-- A new group has the live entities that pass its filter. -/
theorem mem_seededGroup {f : Filter} :
    e ∈ (w.seededGroup m f).members ↔
      w.isAlive m e = true ∧ f.accepts (fun k => w.holds k e) = true := by
  have hmembers := (foldl_seed (fun e => f.accepts fun k => w.holds k e)
    (w.manager m).allocator.live.toList (Group.ofFilter f)).2 e
  have hempty : e ∉ (Group.ofFilter f).members := IdSet.not_mem_empty e
  unfold seededGroup isAlive Allocator.isLive
  rw [hmembers, IdSet.mem_toList, decide_eq_true_iff]
  simp only [hempty, false_or]

theorem coherent_seededGroup (w : World) (m : ManagerId) (f : Filter) :
    (w.seededGroup m f).Coherent := by
  rw [seededGroup_eq]
  constructor
  · intro x hx
    exact absurd hx (IdSet.not_mem_empty x)
  · intro x hx
    exact absurd hx (IdSet.not_mem_empty x)

/-- The world with one more group of a manager. -/
def withGroup (w : World) (m : ManagerId) (g : Group) : World :=
  w.updateManager m fun manager => { manager with groups := manager.groups ++ [g] }

/-- Asking for a group makes it, unless the filter speaks of a kind of no use here or there is a
group of it already. -/
theorem opened_or_same (w : World) (m : ManagerId) (required forbidden : List KindId) :
    (w.openGroup m required forbidden).1 = w ∨
      (∀ k, (Filter.of required forbidden).mentions k = true → k ∈ (w.manager m).kinds) ∧
        (w.openGroup m required forbidden).1 =
          w.withGroup m (w.seededGroup m (Filter.of required forbidden)) := by
  unfold openGroup
  cases hstranger : w.stranger? m (required ++ forbidden) with
  | some k => exact Or.inl rfl
  | none =>
      have hregistered : ∀ k, (Filter.of required forbidden).mentions k = true →
          k ∈ (w.manager m).kinds := by
        intro k hk
        have hfound := List.find?_eq_none.1 hstranger k (Filter.mentions_of.1 hk)
        apply mem_kinds_of_isRegistered
        simpa using hfound
      dsimp only
      cases w.groupNumber? m required forbidden with
      | some number => exact Or.inl rfl
      | none => exact Or.inr ⟨hregistered, rfl⟩

/-! ## Registration -/

/-- The world with one more kind of a manager. -/
def withKind (w : World) (m : ManagerId) (k : KindId) : World :=
  (w.updateKind k fun kind =>
    { kind with attachment := some ⟨(w.manager m).kinds.length, .manager m⟩ }).updateManager m
      fun manager =>
        { manager with
          names := (w.kindName k, (w.manager m).kinds.length) :: manager.names
          kinds := manager.kinds ++ [k] }

/-- A registration is refused, or the kind was attached to nobody and belongs to the manager. -/
theorem registered_or_same (w : World) (m : ManagerId) (k : KindId) :
    (w.registerKind m k).1 = w ∨
      m.place < w.managers.length ∧ (w.kind k).attachment = none ∧
        (w.registerKind m k).1 = w.withKind m k := by
  unfold registerKind
  dsimp only
  split
  · exact Or.inl rfl
  · rename_i hsetup
    have hmade : m.place < w.managers.length := by
      apply lt_length_of_lifecycle
      intro hover
      rw [hover] at hsetup
      exact hsetup nofun
    split
    · exact Or.inl rfl
    · unfold attach
      cases hattached : (w.kind k).attachment with
      | some a => exact Or.inl rfl
      | none => exact Or.inr ⟨hmade, rfl, rfl⟩

theorem kind_withKind {k : KindId} (hk : k.place < w.kinds.length) (j : KindId) :
    (w.withKind m k).kind j = if j = k
      then { w.kind k with attachment := some ⟨(w.manager m).kinds.length, .manager m⟩ }
      else w.kind j := by
  show (w.updateKind k _).kind j = _
  rw [kind_updateKind]
  simp [hk]

theorem manager_withKind (w : World) (m n : ManagerId) (k : KindId) :
    (w.withKind m k).manager n = if n = m ∧ m.place < w.managers.length
      then
        { w.manager m with
          names := (w.kindName k, (w.manager m).kinds.length) :: (w.manager m).names
          kinds := (w.manager m).kinds ++ [k] }
      else w.manager n := by
  unfold withKind
  rw [manager_updateManager]
  rfl

theorem groups_withKind (w : World) (m n : ManagerId) (k : KindId) :
    ((w.withKind m k).manager n).groups = (w.manager n).groups := by
  rw [manager_withKind]
  split
  · rename_i hn
    rw [hn.1]
  · rfl

theorem retired_withKind (w : World) (m n : ManagerId) (k : KindId) :
    ((w.withKind m k).manager n).retired = (w.manager n).retired := by
  rw [manager_withKind]
  split
  · rename_i hn
    rw [hn.1]
  · rfl

theorem store_withKind {k : KindId} (hk : k.place < w.kinds.length) (j : KindId) :
    ((w.withKind m k).kind j).store = (w.kind j).store := by
  rw [kind_withKind hk]
  split
  · rename_i hj
    rw [hj]
  · rfl

theorem holds_withKind {k : KindId} (hk : k.place < w.kinds.length) :
    (w.withKind m k).holds = w.holds := by
  funext j e
  unfold holds
  rw [store_withKind hk]

theorem mem_kinds_withKind {j k : KindId} {n : ManagerId}
    (hj : j ∈ ((w.withKind m k).manager n).kinds) : j ∈ (w.manager n).kinds ∨ j = k ∧ n = m := by
  rw [manager_withKind] at hj
  split at hj
  · rename_i hn
    rw [hn.1]
    exact (List.mem_append.1 hj).imp id fun hlast => ⟨List.mem_singleton.1 hlast, rfl⟩
  · exact Or.inl hj

theorem Wired.withKind (hw : w.Wired) {m : ManagerId} (hm : m.place < w.managers.length)
    {k : KindId} (hk : k.place < w.kinds.length) (hnew : (w.kind k).attachment = none) :
    (w.withKind m k).Wired := by
  -- no kind that is registered already is attached again
  have hold : ∀ n, ∀ j ∈ (w.manager n).kinds, j ≠ k := by
    rintro n j hj rfl
    obtain ⟨number, hattached⟩ := hw.attached n j hj
    rw [hnew] at hattached
    cases hattached
  refine
    { packed := fun j => by rw [store_withKind hk]; exact hw.packed j
      coherent := fun n g hg => hw.coherent n g (by rw [← groups_withKind w m n k]; exact hg)
      attached := ?_
      listed := ?_
      known := ?_
      sound := ?_ }
  · intro n j hj
    have hsame : ∀ n, ∀ j ∈ (w.manager n).kinds,
        ∃ number, ((w.withKind m k).kind j).attachment = some ⟨number, .manager n⟩ := by
      intro n j hj
      rw [kind_withKind hk, if_neg (hold n j hj)]
      exact hw.attached n j hj
    rcases mem_kinds_withKind hj with hj | ⟨rfl, rfl⟩
    · exact hsame n j hj
    · rw [kind_withKind hk, if_pos rfl]
      exact ⟨_, rfl⟩
  · intro j number n hattached
    rw [kind_withKind hk] at hattached
    rw [manager_withKind]
    split at hattached
    · rename_i hj
      cases hattached
      rw [hj, if_pos ⟨rfl, hm⟩]
      exact List.mem_append_right _ List.mem_cons_self
    · have hmem := hw.listed j number n hattached
      split
      · rename_i hn
        rw [hn.1] at hmem
        exact List.mem_append_left [k] hmem
      · exact hmem
  · intro n g hg j hj
    rw [groups_withKind] at hg
    have hmem := hw.known n g hg j hj
    rw [manager_withKind]
    split
    · rename_i hn
      rw [hn.1] at hmem
      exact List.mem_append_left [k] hmem
    · exact hmem
  · intro n hn g hg x hx
    rw [retired_withKind] at hn
    rw [groups_withKind] at hg
    rw [holds_withKind hk]
    exact hw.sound n hn g hg x hx

theorem groups_withGroup {m n : ManagerId} {g x : Group}
    (hx : x ∈ ((w.withGroup m g).manager n).groups) :
    x ∈ (w.manager n).groups ∨ n = m ∧ x = g := by
  unfold withGroup at hx
  rw [manager_updateManager] at hx
  split at hx
  · rename_i hn
    rw [hn.1]
    exact (List.mem_append.1 hx).imp id fun hlast => ⟨rfl, List.mem_singleton.1 hlast⟩
  · exact Or.inl hx

theorem kinds_withGroup (w : World) (m n : ManagerId) (g : Group) :
    ((w.withGroup m g).manager n).kinds = (w.manager n).kinds := by
  refine field_updateManager Manager.kinds ?_ w m n
  exact fun _ => rfl

theorem retired_withGroup (w : World) (m n : ManagerId) (g : Group) :
    ((w.withGroup m g).manager n).retired = (w.manager n).retired := by
  refine field_updateManager Manager.retired ?_ w m n
  exact fun _ => rfl

theorem filter_seededGroup (w : World) (m : ManagerId) (f : Filter) :
    (w.seededGroup m f).filter = f := by
  rw [seededGroup_eq]
  rfl

theorem Wired.withGroup (hw : w.Wired) {m : ManagerId} {f : Filter}
    (hknown : ∀ k, f.mentions k = true → k ∈ (w.manager m).kinds) :
    (w.withGroup m (w.seededGroup m f)).Wired := by
  refine
    { packed := hw.packed
      coherent := ?_
      attached := fun n k hk => hw.attached n k (by rw [← kinds_withGroup w m n]; exact hk)
      listed := ?_
      known := ?_
      sound := ?_ }
  · intro n g hg
    rcases groups_withGroup hg with hold | ⟨-, rfl⟩
    · exact hw.coherent n g hold
    · exact coherent_seededGroup w m f
  · intro k number n hattached
    rw [kinds_withGroup]
    exact hw.listed k number n hattached
  · intro n g hg k hk
    rw [kinds_withGroup]
    rcases groups_withGroup hg with hold | ⟨rfl, rfl⟩
    · exact hw.known n g hold k hk
    · rw [filter_seededGroup] at hk
      exact hknown k hk
  · intro n hn g hg x hx
    rw [retired_withGroup] at hn
    rcases groups_withGroup hg with hold | ⟨rfl, rfl⟩
    · exact hw.sound n hn g hold x hx
    · rw [filter_seededGroup]
      exact (mem_seededGroup.1 hx).2

end World

end EntityStore
