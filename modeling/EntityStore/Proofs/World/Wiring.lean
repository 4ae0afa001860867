import EntityStore.Proofs.World.Equipment

/-!
# How kinds, managers and groups hang together

`World.Wired` is what is true of every world that a session comes to, whatever is asked of it and in
whatever order: a kind that is registered hears of its manager, the filters of a manager speak of
its own kinds, and every member of a group passes its filter.

* `Wired.tracks`: it stays true when one entity gains and loses kinds.
* `Wired.quiet`: it stays true when something happens that bears neither on holders nor on members.
-/

namespace EntityStore.World

variable [Host] {w v : World} {audience : Option ManagerId} {e : EntityId} {kinds : List KindId}

theorem audience_of_attachment {k : KindId} {number : Nat} {m : ManagerId}
    (h : (w.kind k).attachment = some ⟨number, .manager m⟩) :
    w.audience k = if (w.manager m).retired then none else some m := by
  unfold audience
  rw [h]

/-- A world whose parts fit together. -/
structure Wired (w : World) : Prop where
  /-- Every store hangs together. -/
  packed : w.Packed
  /-- The undelivered change of every group fits its members. -/
  coherent : w.Coherent
  /-- A kind is registered with the manager that it is attached to. -/
  attached : ∀ m, ∀ k ∈ (w.manager m).kinds,
    ∃ number, (w.kind k).attachment = some ⟨number, .manager m⟩
  /-- A kind that is attached to a manager is registered with it. -/
  listed : ∀ k number m, (w.kind k).attachment = some ⟨number, .manager m⟩ →
    k ∈ (w.manager m).kinds
  /-- The filters of a manager speak of its own kinds. -/
  known : ∀ m, ∀ g ∈ (w.manager m).groups, ∀ k, g.filter.mentions k = true → k ∈ (w.manager m).kinds
  /-- Every member of a group passes its filter. -/
  sound : ∀ m, (w.manager m).retired = false → ∀ g ∈ (w.manager m).groups, ∀ e ∈ g.members,
    g.filter.accepts (fun k => w.holds k e) = true

theorem Wired.audience_eq (hw : w.Wired) {m : ManagerId} {k : KindId}
    (hk : k ∈ (w.manager m).kinds) :
    w.audience k = if (w.manager m).retired then none else some m := by
  obtain ⟨number, hattached⟩ := hw.attached m k hk
  exact audience_of_attachment hattached

theorem Wired.mem_kinds_of_audience (hw : w.Wired) {m : ManagerId} {k : KindId}
    (h : w.audience k = some m) : k ∈ (w.manager m).kinds := by
  unfold audience at h
  split at h
  · rename_i hattached
    split at h
    · cases h
    · cases h
      exact hw.listed k _ m hattached
  · cases h

/-! ## One entity gains and loses kinds -/

theorem Tracks.kinds_eq (h : Tracks audience e kinds w v) (m : ManagerId) :
    (v.manager m).kinds = (w.manager m).kinds :=
  h.field_eq Manager.kinds (fun _ _ => rfl) m

theorem Tracks.isAlive_eq (h : Tracks audience e kinds w v) (m : ManagerId) (x : EntityId) :
    v.isAlive m x = w.isAlive m x :=
  congrArg (Allocator.isLive · x) (h.field_eq Manager.allocator (fun _ _ => rfl) m)

/-- Every group of a manager that is still there has tested the entity as far as the changed kinds
matter to it. -/
theorem Tracks.groups_eq (hw : w.Wired) (h : Tracks audience e kinds w v)
    (hkinds : ∀ k ∈ kinds, w.audience k = audience) {m : ManagerId}
    (hm : (w.manager m).retired = false) :
    (v.manager m).groups =
      (w.manager m).groups.map fun g => g.recheck e kinds fun k => v.holds k e := by
  by_cases haudience : audience = some m
  · rw [h.told m haudience]
  · rw [h.untold m haudience]
    -- the manager does not hear of the changed kinds, so none of its filters speaks of them
    have hsame : ∀ g ∈ (w.manager m).groups, g.recheck e kinds (fun k => v.holds k e) = g := by
      intro g hg
      apply Group.recheck_of_not_any
      rw [List.any_eq_false]
      intro k hk hmentions
      have hheard := hw.audience_eq (hw.known m g hg k hmentions)
      rw [hm, hkinds k hk] at hheard
      exact haudience hheard
    rw [List.map_congr_left hsame, List.map_id']

theorem Tracks.known (h : Tracks audience e kinds w v) (hw : w.Wired) (m : ManagerId) :
    ∀ g ∈ (v.manager m).groups, ∀ k, g.filter.mentions k = true → k ∈ (v.manager m).kinds := by
  intro g hg k hk
  rw [h.kinds_eq]
  by_cases hm : audience = some m
  · rw [h.told m hm] at hg
    obtain ⟨old, hold, rfl⟩ := List.mem_map.1 hg
    rw [Group.filter_recheck] at hk
    exact hw.known m old hold k hk
  · rw [h.untold m hm] at hg
    exact hw.known m g hg k hk

theorem Wired.tracks (hw : w.Wired) (h : Tracks audience e kinds w v)
    (hkinds : ∀ k ∈ kinds, w.audience k = audience) (hpacked : v.Packed) : v.Wired := by
  refine
    { packed := hpacked
      coherent := h.coherent hw.coherent
      attached := ?_
      listed := ?_
      known := h.known hw
      sound := ?_ }
  · intro m k hk
    rw [h.kinds_eq] at hk
    rw [h.attachment]
    exact hw.attached m k hk
  · intro k number m hattached
    rw [h.attachment] at hattached
    rw [h.kinds_eq]
    exact hw.listed k number m hattached
  · intro m hm g hg x hx
    rw [h.retired_eq] at hm
    rw [h.groups_eq hw hkinds hm] at hg
    obtain ⟨old, hold, rfl⟩ := List.mem_map.1 hg
    rw [Group.filter_recheck]
    rcases Group.recheck_cases old h.holds_congr x with ⟨-, -, htested⟩ | ⟨hmember, haccepts⟩
    · exact htested.1 hx
    · rw [haccepts]
      exact hw.sound m hm old hold x (hmember.1 hx)

/-! ## What bears on nobody -/

/-- Something has happened that bears neither on who holds what nor on who belongs where. -/
structure Quiet (w v : World) : Prop where
  /-- The stores still hang together. -/
  packed : w.Packed → v.Packed
  /-- Everybody holds what they held. -/
  holds : ∀ k e, v.holds k e = w.holds k e
  /-- No kind has got or lost a manager. -/
  attached : ∀ k number m, (v.kind k).attachment = some ⟨number, .manager m⟩ ↔
    (w.kind k).attachment = some ⟨number, .manager m⟩
  /-- No manager has come back; a new one has neither kinds nor groups. -/
  present : ∀ m, (v.manager m).retired = false →
    (w.manager m).retired = false ∨ (v.manager m).kinds = [] ∧ (v.manager m).groups = []
  /-- The managers have the kinds they had. -/
  kinds : ∀ m, (v.manager m).kinds = (w.manager m).kinds
  /-- The groups have the members they had. -/
  groups : ∀ m, ∀ g ∈ (v.manager m).groups, ∃ old ∈ (w.manager m).groups,
    g.filter = old.filter ∧ g.members = old.members ∧ (old.Coherent → g.Coherent)

/-- Nor has an id been issued or given back. -/
structure Calm (w v : World) : Prop extends Quiet w v where
  alive : ∀ m e, v.isAlive m e = w.isAlive m e

theorem Wired.quiet (hw : w.Wired) (h : Quiet w v) : v.Wired := by
  refine
    { packed := h.packed hw.packed
      coherent := ?_
      attached := ?_
      listed := ?_
      known := ?_
      sound := ?_ }
  · intro m g hg
    obtain ⟨old, hold, -, -, hcoherent⟩ := h.groups m g hg
    exact hcoherent (hw.coherent m old hold)
  · intro m k hk
    rw [h.kinds] at hk
    obtain ⟨number, hattached⟩ := hw.attached m k hk
    exact ⟨number, (h.attached k number m).2 hattached⟩
  · intro k number m hattached
    rw [h.kinds]
    exact hw.listed k number m ((h.attached k number m).1 hattached)
  · intro m g hg k hk
    obtain ⟨old, hold, hfilter, -, -⟩ := h.groups m g hg
    rw [hfilter] at hk
    rw [h.kinds]
    exact hw.known m old hold k hk
  · intro m hm g hg x hx
    obtain ⟨old, hold, hfilter, hmembers, -⟩ := h.groups m g hg
    rcases h.present m hm with hpresent | ⟨-, hnone⟩
    · rw [hmembers] at hx
      rw [hfilter]
      have hholds : (fun k => v.holds k x) = fun k => w.holds k x := funext fun k => h.holds k x
      rw [hholds]
      exact hw.sound m hpresent old hold x hx
    · rw [hnone] at hg
      cases hg

/-! ## The groups of one manager -/

theorem groups_updateGroups (w : World) (m n : ManagerId) (change : Group → Group) :
    ((w.updateGroups m change).manager n).groups =
      if n = m then (w.manager m).groups.map change else (w.manager n).groups := by
  unfold updateGroups
  rw [manager_updateManager]
  by_cases hn : n = m
  · subst hn
    rw [if_pos rfl]
    split
    · rfl
    · -- a manager that was never made has no groups to change
      rename_i habsent
      have hge : w.managers.length ≤ n.place := Nat.le_of_not_lt fun hlt => habsent ⟨rfl, hlt⟩
      rw [manager_of_length_le hge]
      rfl
  · rw [if_neg hn, if_neg fun heq => hn heq.1]

theorem retired_updateGroups (w : World) (m n : ManagerId) (change : Group → Group) :
    ((w.updateGroups m change).manager n).retired = (w.manager n).retired := by
  refine field_updateManager Manager.retired ?_ w m n
  exact fun _ => rfl

theorem kinds_updateGroups (w : World) (m n : ManagerId) (change : Group → Group) :
    ((w.updateGroups m change).manager n).kinds = (w.manager n).kinds := by
  refine field_updateManager Manager.kinds ?_ w m n
  exact fun _ => rfl

theorem isAlive_updateGroups (w : World) (m n : ManagerId) (change : Group → Group) (e : EntityId) :
    (w.updateGroups m change).isAlive n e = w.isAlive n e := by
  refine congrArg (Allocator.isLive · e) ?_
  refine field_updateManager Manager.allocator ?_ w m n
  exact fun _ => rfl

/-- A change of groups that lets nobody in who does not pass. -/
theorem Wired.updateGroups (hw : w.Wired) (m : ManagerId) {change : Group → Group}
    (hfilter : ∀ g, (change g).filter = g.filter)
    (hcoherent : ∀ g, g.Coherent → (change g).Coherent)
    (hmembers : ∀ g, ∀ x ∈ (change g).members,
      x ∈ g.members ∨ g.filter.accepts (fun k => w.holds k x) = true) :
    (w.updateGroups m change).Wired := by
  refine
    { packed := hw.packed
      coherent := ?_
      attached := ?_
      listed := ?_
      known := ?_
      sound := ?_ }
  · intro n g hg
    rw [groups_updateGroups] at hg
    split at hg
    · obtain ⟨old, hold, rfl⟩ := List.mem_map.1 hg
      exact hcoherent old (hw.coherent m old hold)
    · exact hw.coherent n g hg
  · intro n k hk
    rw [kinds_updateGroups] at hk
    exact hw.attached n k hk
  · intro k number n hattached
    rw [kinds_updateGroups]
    exact hw.listed k number n hattached
  · intro n g hg k hk
    rw [kinds_updateGroups]
    rw [groups_updateGroups] at hg
    split at hg
    · rename_i hn
      obtain ⟨old, hold, rfl⟩ := List.mem_map.1 hg
      rw [hfilter] at hk
      rw [hn]
      exact hw.known m old hold k hk
    · exact hw.known n g hg k hk
  · intro n hn g hg x hx
    rw [retired_updateGroups] at hn
    rw [groups_updateGroups] at hg
    split at hg
    · rename_i heq
      subst heq
      obtain ⟨old, hold, rfl⟩ := List.mem_map.1 hg
      rw [hfilter]
      rcases hmembers old x hx with hmember | haccepts
      · exact hw.sound n hn old hold x hmember
      · exact haccepts
    · exact hw.sound n hn g hg x hx

end EntityStore.World
