import EntityStore.Proofs.World.Groups

/-!
# Who is counted

Three laws about the entities that a manager counts, for the time being any relation at all; in the
end the live ones.  Creation and removal pass through worlds in which an entity is live and not yet
in its groups, or holds kinds and is live no longer, so the laws are followed through each change
for the entities that were counted before, and then those who are counted change.

* `Complete`: whoever is counted and passes the filter of a group is a member.
* `Bare`: whoever is not counted holds no kind of the manager.
* `Confined`: every member is counted.
-/

namespace EntityStore.World

variable [Host]

/-- Whoever is counted and passes the filter of a group is a member. -/
def Complete (counted : ManagerId → EntityId → Prop) (w : World) : Prop :=
  ∀ m, (w.manager m).retired = false → ∀ g ∈ (w.manager m).groups, ∀ e, counted m e →
    g.filter.accepts (fun k => w.holds k e) = true → e ∈ g.members

/-- Whoever is not counted holds no kind of the manager. -/
def Bare (counted : ManagerId → EntityId → Prop) (w : World) : Prop :=
  ∀ m, (w.manager m).retired = false → ∀ k ∈ (w.manager m).kinds, ∀ e, ¬ counted m e →
    w.holds k e = false

/-- Every member of a group is counted. -/
def Confined (counted : ManagerId → EntityId → Prop) (w : World) : Prop :=
  ∀ m, (w.manager m).retired = false → ∀ g ∈ (w.manager m).groups, ∀ e ∈ g.members, counted m e

variable {w v : World} {counted others : ManagerId → EntityId → Prop}
  {audience : Option ManagerId} {e : EntityId} {kinds : List KindId}

/-! ## What bears on nobody -/

theorem Complete.quiet (hw : w.Complete counted) (h : Quiet w v) : v.Complete counted := by
  intro m hm g hg x hx haccepts
  rcases h.present m hm with hpresent | ⟨-, hnone⟩
  · obtain ⟨old, hold, hfilter, hmembers, -⟩ := h.groups m g hg
    have hholds : (fun k => v.holds k x) = fun k => w.holds k x := funext fun k => h.holds k x
    rw [hfilter, hholds] at haccepts
    rw [hmembers]
    exact hw m hpresent old hold x hx haccepts
  · rw [hnone] at hg
    cases hg

theorem Bare.quiet (hw : w.Bare counted) (h : Quiet w v) : v.Bare counted := by
  intro m hm k hk x hx
  rcases h.present m hm with hpresent | ⟨hnone, -⟩
  · rw [h.kinds] at hk
    rw [h.holds]
    exact hw m hpresent k hk x hx
  · rw [hnone] at hk
    cases hk

theorem Confined.quiet (hw : w.Confined counted) (h : Quiet w v) : v.Confined counted := by
  intro m hm g hg x hx
  rcases h.present m hm with hpresent | ⟨-, hnone⟩
  · obtain ⟨old, hold, -, hmembers, -⟩ := h.groups m g hg
    rw [hmembers] at hx
    exact hw m hpresent old hold x hx
  · rw [hnone] at hg
    cases hg

/-! ## One entity gains and loses kinds -/

/-- The groups that hear of the changed kinds have tested the entity. -/
theorem Complete.tracks (hw : w.Complete counted) (hwired : w.Wired)
    (h : Tracks audience e kinds w v) (hkinds : ∀ k ∈ kinds, w.audience k = audience) :
    v.Complete counted := by
  intro m hm g hg x hx haccepts
  rw [h.retired_eq] at hm
  rw [h.groups_eq hwired hkinds hm] at hg
  obtain ⟨old, hold, rfl⟩ := List.mem_map.1 hg
  rw [Group.filter_recheck] at haccepts
  -- a group either tested the entity against what it holds now, or kept whom it had
  rcases Group.recheck_cases old h.holds_congr x with ⟨-, -, htested⟩ | ⟨hmember, hsame⟩
  · exact htested.2 haccepts
  · rw [hsame] at haccepts
    exact hmember.2 (hw m hm old hold x hx haccepts)

/-- The entity is counted, or holds none of the changed kinds in the end. -/
theorem Bare.tracks (hw : w.Bare counted) (hwired : w.Wired) (h : Tracks audience e kinds w v)
    (hkinds : ∀ k ∈ kinds, w.audience k = audience)
    (hentity : ∀ k ∈ kinds, v.holds k e = false ∨ ∀ m, audience = some m → counted m e) :
    v.Bare counted := by
  intro m hm k hk x hx
  rw [h.retired_eq] at hm
  rw [h.kinds_eq] at hk
  rcases Tracks.touched_or_not e x k kinds with ⟨rfl, hmem⟩ | hsame
  · rcases hentity k hmem with hgone | hcounted
    · exact hgone
    · -- the manager that has the kind hears of it, so it counts the entity
      have hheard := hwired.audience_eq hk
      rw [hm, hkinds k hmem] at hheard
      exact absurd (hcounted m hheard) hx
  · rw [h.holds_eq hsame]
    exact hw m hm k hk x hx

/-- A group lets nobody in but an entity that its manager counts. -/
theorem Confined.tracks (hw : w.Confined counted) (hwired : w.Wired)
    (h : Tracks audience e kinds w v) (hkinds : ∀ k ∈ kinds, w.audience k = audience)
    (hentity : ∀ m, audience = some m → counted m e) : v.Confined counted := by
  intro m hm g hg x hx
  rw [h.retired_eq] at hm
  rw [h.groups_eq hwired hkinds hm] at hg
  obtain ⟨old, hold, rfl⟩ := List.mem_map.1 hg
  rcases Group.recheck_cases old h.holds_congr x with ⟨rfl, hany, -⟩ | ⟨hmember, -⟩
  · obtain ⟨k, hk, hmentions⟩ := List.any_eq_true.1 hany
    have hheard := hwired.audience_eq (hwired.known m old hold k hmentions)
    rw [hm, hkinds k hk] at hheard
    exact hentity m hheard
  · exact hw m hm old hold x (hmember.1 hx)

/-! ## The groups of one manager -/

theorem Complete.updateGroups (hw : w.Complete counted) (m : ManagerId) {change : Group → Group}
    (hfilter : ∀ g, (change g).filter = g.filter)
    (hothers : ∀ n, n ≠ m → ∀ x, others n x → counted n x)
    (hmembers : (w.manager m).retired = false → ∀ g ∈ (w.manager m).groups, ∀ x, others m x →
      g.filter.accepts (fun k => w.holds k x) = true →
      (counted m x → x ∈ g.members) → x ∈ (change g).members) :
    (w.updateGroups m change).Complete others := by
  intro n hn g hg x hx haccepts
  rw [retired_updateGroups] at hn
  rw [groups_updateGroups] at hg
  split at hg
  · rename_i heq
    subst heq
    obtain ⟨old, hold, rfl⟩ := List.mem_map.1 hg
    rw [hfilter] at haccepts
    exact hmembers hn old hold x hx haccepts fun hcounted => hw n hn old hold x hcounted haccepts
  · rename_i hne
    exact hw n hn g hg x (hothers n hne x hx) haccepts

theorem Bare.updateGroups (hw : w.Bare counted) (m : ManagerId) (change : Group → Group) :
    (w.updateGroups m change).Bare counted := by
  intro n hn k hk
  rw [retired_updateGroups] at hn
  rw [kinds_updateGroups] at hk
  exact hw n hn k hk

theorem Confined.updateGroups (hw : w.Confined counted) (m : ManagerId) {change : Group → Group}
    (hothers : ∀ n, n ≠ m → ∀ x, counted n x → others n x)
    (hmembers : ∀ g, (∀ x ∈ g.members, counted m x) → ∀ x ∈ (change g).members, others m x) :
    (w.updateGroups m change).Confined others := by
  intro n hn g hg x hx
  rw [retired_updateGroups] at hn
  rw [groups_updateGroups] at hg
  split at hg
  · rename_i heq
    subst heq
    obtain ⟨old, hold, rfl⟩ := List.mem_map.1 hg
    exact hmembers old (hw n hn old hold) x hx
  · rename_i hne
    exact hothers n hne x (hw n hn g hg x hx)

/-! ## Who is live -/

/-- The live ids are those that count. -/
def live (w : World) (m : ManagerId) (e : EntityId) : Prop := w.isAlive m e = true

theorem live_calm (h : Calm w v) : v.live = w.live := by
  funext m e
  unfold live
  rw [h.alive]

theorem live_tracks (h : Tracks audience e kinds w v) : v.live = w.live := by
  funext m x
  unfold live
  rw [h.isAlive_eq]

theorem live_updateGroups (w : World) (m : ManagerId) (change : Group → Group) :
    (w.updateGroups m change).live = w.live := by
  funext n e
  unfold live
  rw [isAlive_updateGroups]

theorem live_withAllocator {m n : ManagerId} {x : EntityId} {a : Allocator}
    (hmade : m.place < w.managers.length)
    (hallocate : (w.manager m).allocator.allocate = .ok (e, a)) :
    (w.withAllocator m a).live n x ↔ w.live n x ∨ n = m ∧ x = e := by
  obtain ⟨-, rfl⟩ := Allocator.allocate_eq_ok hallocate
  unfold live isAlive withAllocator
  rw [manager_updateManager]
  by_cases hn : n = m
  · subst hn
    rw [if_pos ⟨rfl, hmade⟩]
    simp only [Allocator.isLive, decide_eq_true_eq, IdSet.mem_insert, true_and]
    exact Or.comm
  · rw [if_neg fun heq => hn heq.1]
    simp [hn]

theorem live_release {m n : ManagerId} {x : EntityId} :
    (w.release m e).live n x ↔ w.live n x ∧ ¬ (n = m ∧ x = e) := by
  unfold live isAlive release
  rw [manager_updateManager]
  by_cases hn : n = m
  · subst hn
    split
    · simp [Allocator.isLive, Allocator.release]
    · rename_i habsent
      have hge : w.managers.length ≤ n.place := Nat.le_of_not_lt fun hlt => habsent ⟨rfl, hlt⟩
      rw [manager_of_length_le hge]
      constructor
      · exact nofun
      · exact And.left
  · rw [if_neg fun heq => hn heq.1]
    simp [hn]

theorem not_live_of_allocate {m : ManagerId} {a : Allocator}
    (hallocate : (w.manager m).allocator.allocate = .ok (e, a)) :
    ¬ w.live m e :=
  fun halive => (Allocator.allocate_eq_ok hallocate).1 (of_decide_eq_true halive)

/-- An id that was issued and given back is as if it had not been issued. -/
theorem live_release_of_issued {m : ManagerId} {a : Allocator} {u : World}
    (hmade : m.place < w.managers.length)
    (hallocate : (w.manager m).allocator.allocate = .ok (e, a))
    (hlive : u.live = (w.withAllocator m a).live) : (u.release m e).live = w.live := by
  funext n x
  rw [eq_iff_iff, live_release, hlive, live_withAllocator hmade hallocate]
  constructor
  · rintro ⟨hold | hnew, hother⟩
    · exact hold
    · exact absurd hnew hother
  · intro hold
    refine ⟨Or.inl hold, ?_⟩
    rintro ⟨rfl, rfl⟩
    exact not_live_of_allocate hallocate hold

/-- A world in which groups and holders are in line with who is live. -/
structure Exact (w : World) : Prop where
  /-- Every live entity that passes the filter of a group is a member. -/
  complete : w.Complete w.live
  /-- Nobody but live entities holds the kinds of a manager. -/
  bare : w.Bare w.live

theorem Exact.calm (hw : w.Exact) (h : Calm w v) : v.Exact := by
  constructor
  · rw [live_calm h]
    exact hw.complete.quiet h.toQuiet
  · rw [live_calm h]
    exact hw.bare.quiet h.toQuiet

theorem Exact.tracks (hw : w.Exact) (hwired : w.Wired) (h : Tracks audience e kinds w v)
    (hkinds : ∀ k ∈ kinds, w.audience k = audience)
    (hentity : ∀ k ∈ kinds, v.holds k e = false ∨ ∀ m, audience = some m → w.live m e) :
    v.Exact := by
  constructor
  · rw [live_tracks h]
    exact hw.complete.tracks hwired h hkinds
  · rw [live_tracks h]
    exact hw.bare.tracks hwired h hkinds hentity

theorem live_withKind (w : World) (m : ManagerId) (k : KindId) :
    (w.withKind m k).live = w.live := by
  funext n x
  unfold live isAlive
  rw [manager_withKind]
  split
  · rename_i hn
    rw [hn.1]
  · rfl

/-! ## The operations of a manager -/

theorem live_withGroup (w : World) (m : ManagerId) (g : Group) :
    (w.withGroup m g).live = w.live := by
  funext n x
  unfold live isAlive
  refine congrArg (Allocator.isLive · x = true) ?_
  refine field_updateManager Manager.allocator ?_ w m n
  exact fun _ => rfl

/-- A kind is registered that nobody holds. -/
theorem Exact.withKind (hw : w.Exact) {m : ManagerId} {k : KindId} (hk : k.place < w.kinds.length)
    (hnobody : ∀ e, w.holds k e = false) : (w.withKind m k).Exact := by
  constructor
  · rw [live_withKind]
    intro n hn g hg
    rw [retired_withKind] at hn
    rw [groups_withKind] at hg
    rw [holds_withKind hk]
    exact hw.complete n hn g hg
  · rw [live_withKind]
    intro n hn j hj x hx
    rw [retired_withKind] at hn
    rw [holds_withKind hk]
    rcases mem_kinds_withKind hj with hold | ⟨rfl, -⟩
    · exact hw.bare n hn j hold x hx
    · exact hnobody x

theorem Confined.withKind (hw : w.Confined w.live) (m : ManagerId) (k : KindId) :
    (w.withKind m k).Confined (w.withKind m k).live := by
  rw [live_withKind]
  intro n hn g hg
  rw [retired_withKind] at hn
  rw [groups_withKind] at hg
  exact hw n hn g hg

/-- A new group takes up everybody who belongs to it. -/
theorem Exact.withGroup (hw : w.Exact) (m : ManagerId) (f : Filter) :
    (w.withGroup m (w.seededGroup m f)).Exact := by
  constructor
  · rw [live_withGroup]
    intro n hn g hg x hx haccepts
    rw [retired_withGroup] at hn
    rcases groups_withGroup hg with hold | ⟨rfl, rfl⟩
    · exact hw.complete n hn g hold x hx haccepts
    · rw [filter_seededGroup] at haccepts
      exact mem_seededGroup.2 ⟨hx, haccepts⟩
  · rw [live_withGroup]
    intro n hn k hk
    rw [retired_withGroup] at hn
    rw [kinds_withGroup] at hk
    exact hw.bare n hn k hk

theorem Confined.withGroup (hw : w.Confined w.live) (m : ManagerId) (f : Filter) :
    (w.withGroup m (w.seededGroup m f)).Confined (w.withGroup m (w.seededGroup m f)).live := by
  rw [live_withGroup]
  intro n hn g hg x hx
  rw [retired_withGroup] at hn
  rcases groups_withGroup hg with hold | ⟨rfl, rfl⟩
  · exact hw n hn g hold x hx
  · exact (mem_seededGroup.1 hx).1

/-- A new entity holds the listed kinds and no others of its manager, so the test of the list is the
test of what it holds. -/
theorem Exact.acceptsKinds_eq (hw : w.Exact) {m : ManagerId} {u : World}
    (hm : (w.manager m).retired = false) (hfree : ¬ w.live m e)
    (hothers : ∀ k, k ∉ kinds → u.holds k e = w.holds k e) (hheld : ∀ k ∈ kinds, u.holds k e = true)
    {f : Filter} (hknown : ∀ k, f.mentions k = true → k ∈ (w.manager m).kinds) :
    f.acceptsKinds kinds = f.accepts fun k => u.holds k e := by
  apply Filter.accepts_congr
  -- a kind that is not listed is not held either: the entity was nobody before
  intro k hk
  by_cases hmem : k ∈ kinds
  · rw [hheld k hmem]
    exact decide_eq_true hmem
  · rw [hothers k hmem, hw.bare m hm k (hknown k hk) e hfree]
    exact decide_eq_false hmem

section Creation

variable {m : ManagerId} {a : Allocator} {u : World}

/-- A creation that is given up leaves everything in line: the entity is not live, and holds nothing
of what it was given. -/
theorem Exact.undone (hw : w.Exact) (hwired : w.Wired) (hmade : m.place < w.managers.length)
    (hallocate : (w.manager m).allocator.allocate = .ok (e, a))
    (hregistered : ∀ k ∈ kinds, k ∈ (w.manager m).kinds)
    (htracks : Tracks (w.heard m) e kinds (w.withAllocator m a) u)
    (hafter : ∀ k ∈ kinds, u.holds k e = false) : (u.release m e).Exact := by
  have hclaimed := hwired.quiet (quiet_withAllocator w m a)
  have haudience : ∀ k ∈ kinds, (w.withAllocator m a).audience k = w.heard m :=
    fun k hk => hwired.audience_withAllocator a (hregistered k hk)
  have hlive := live_release_of_issued hmade hallocate (live_tracks htracks)
  constructor
  · rw [hlive]
    have hcomplete := hw.complete.quiet (quiet_withAllocator w m a)
    exact (hcomplete.tracks hclaimed htracks haudience).quiet (quiet_release u m e)
  · rw [hlive]
    have hbare := hw.bare.quiet (quiet_withAllocator w m a)
    refine (hbare.tracks hclaimed htracks haudience ?_).quiet (quiet_release u m e)
    exact fun k hk => Or.inl (hafter k hk)

/-- The groups that a new entity passes take it in. -/
theorem Exact.complete_made (hw : w.Exact) (hwired : w.Wired) (hmade : m.place < w.managers.length)
    (hallocate : (w.manager m).allocator.allocate = .ok (e, a))
    (hregistered : ∀ k ∈ kinds, k ∈ (w.manager m).kinds)
    (htracks : Tracks (w.heard m) e kinds (w.withAllocator m a) u)
    (hheld : ∀ k ∈ kinds, u.holds k e = true) (hpacked : u.Packed) :
    (u.updateGroups m fun g => g.entityCreated e kinds fun k => u.holds k e).Complete
      (w.withAllocator m a).live := by
  have hclaimed := hwired.quiet (quiet_withAllocator w m a)
  have haudience : ∀ k ∈ kinds, (w.withAllocator m a).audience k = w.heard m :=
    fun k hk => hwired.audience_withAllocator a (hregistered k hk)
  have hequipped := hclaimed.tracks htracks haudience hpacked
  have hcomplete := (hw.complete.quiet (quiet_withAllocator w m a)).tracks hclaimed htracks haudience
  refine hcomplete.updateGroups m (fun g => filter_entityCreated g) ?_ ?_
  · intro n hn x hx
    rcases (live_withAllocator hmade hallocate).1 hx with hold | ⟨heq, -⟩
    · exact hold
    · exact absurd heq hn
  · intro hpresent g hg x hx haccepts hold
    rw [mem_entityCreated]
    by_cases hxe : x = e
    · -- the new entity: what it was made with is all that it holds
      subst hxe
      refine Or.inl ⟨rfl, ?_, haccepts⟩
      have hknown : ∀ k, g.filter.mentions k = true → k ∈ (w.manager m).kinds := by
        intro k hk
        have hmem := hequipped.known m g hg k hk
        rw [htracks.kinds_eq, (quiet_withAllocator w m a).kinds] at hmem
        exact hmem
      rw [htracks.retired_eq, retired_withAllocator] at hpresent
      rw [hw.acceptsKinds_eq hpresent (not_live_of_allocate hallocate)
        (fun k hk => htracks.holds_eq (Or.inr hk)) hheld hknown]
      exact haccepts
    · refine Or.inr ⟨fun heq => absurd heq hxe, hold ?_⟩
      rcases (live_withAllocator hmade hallocate).1 hx with halive | ⟨-, heq⟩
      · exact halive
      · exact absurd heq hxe

theorem Exact.bare_made (hw : w.Exact) (hwired : w.Wired) (hmade : m.place < w.managers.length)
    (hallocate : (w.manager m).allocator.allocate = .ok (e, a))
    (hregistered : ∀ k ∈ kinds, k ∈ (w.manager m).kinds)
    (htracks : Tracks (w.heard m) e kinds (w.withAllocator m a) u) :
    u.Bare (w.withAllocator m a).live := by
  have hbare : w.Bare (w.withAllocator m a).live := by
    intro n hn k hk x hx
    refine hw.bare n hn k hk x fun halive => hx ?_
    exact (live_withAllocator hmade hallocate).2 (Or.inl halive)
  refine (hbare.quiet (quiet_withAllocator w m a)).tracks
    (hwired.quiet (quiet_withAllocator w m a)) htracks ?_ ?_
  · exact fun k hk => hwired.audience_withAllocator a (hregistered k hk)
  · intro k _
    refine Or.inr fun n hn => ?_
    rw [(heard_eq_some.1 hn).1.symm]
    exact (live_withAllocator hmade hallocate).2 (Or.inr ⟨rfl, rfl⟩)

end Creation

theorem Exact.create (hw : w.Exact) (hwired : w.Wired) (m : ManagerId) (kinds : List KindId) :
    (w.create m kinds).1.Exact := by
  have hcreated := created hwired m kinds
  generalize w.create m kinds = result at hcreated ⊢
  obtain ⟨v, answer⟩ := result
  cases hcreated with
  | refused => exact hw
  | undone e a u taken cause hmade hallocate hregistered htaken htracks hbefore hafter hpacked =>
      have hlisted : ∀ k ∈ kinds.takeWhile (w.takes e) ++ taken, k ∈ kinds.takeWhile (w.takes e) :=
        fun k hk => (List.mem_append.1 hk).elim id (htaken k)
      refine hw.undone hwired hmade hallocate ?_ htracks fun k hk => hafter k (hlisted k hk)
      exact fun k hk => hregistered k ((List.takeWhile_sublist _).subset (hlisted k hk))
  | made e a u hmade hallocate hregistered htracks hheld hpacked =>
      show (u.updateGroups m fun g => g.entityCreated e kinds fun k => u.holds k e).Exact
      constructor
      · rw [live_updateGroups, live_tracks htracks]
        exact hw.complete_made hwired hmade hallocate hregistered htracks hheld hpacked
      · rw [live_updateGroups, live_tracks htracks]
        exact (hw.bare_made hwired hmade hallocate hregistered htracks).updateGroups m _

/-- If it does not fail half-way, a creation leaves no strangers in the groups. -/
theorem Confined.create (hw : w.Confined w.live) (hwired : w.Wired) (m : ManagerId)
    (kinds : List KindId) (hwhole : ∀ cause, (w.create m kinds).2 ≠ .error (.store cause)) :
    (w.create m kinds).1.Confined (w.create m kinds).1.live := by
  have hcreated := created hwired m kinds
  generalize w.create m kinds = result at hcreated hwhole ⊢
  obtain ⟨v, answer⟩ := result
  cases hcreated with
  | refused => exact hw
  | undone e a u taken cause => exact absurd rfl (hwhole cause)
  | made e a u hmade hallocate hregistered htracks hheld hpacked =>
      have hclaimed := hwired.quiet (quiet_withAllocator w m a)
      have hnew : (w.withAllocator m a).live m e :=
        (live_withAllocator hmade hallocate).2 (Or.inr ⟨rfl, rfl⟩)
      have hold : w.Confined (w.withAllocator m a).live := by
        intro n hn g hg x hx
        exact (live_withAllocator hmade hallocate).2 (Or.inl (hw n hn g hg x hx))
      have hconfined : u.Confined (w.withAllocator m a).live := by
        refine (hold.quiet (quiet_withAllocator w m a)).tracks hclaimed htracks ?_ ?_
        · exact fun k hk => hwired.audience_withAllocator a (hregistered k hk)
        · intro n hn
          rw [(heard_eq_some.1 hn).1.symm]
          exact hnew
      show (u.updateGroups m _).Confined (u.updateGroups m _).live
      rw [live_updateGroups, live_tracks htracks]
      refine hconfined.updateGroups m (fun _ _ _ hx => hx) ?_
      intro g hg x hx
      rcases mem_entityCreated.1 hx with ⟨rfl, -, -⟩ | ⟨-, hmember⟩
      · exact hnew
      · exact hg x hmember

theorem Exact.removeDue (hw : w.Exact) (hwired : w.Wired) (m : ManagerId) (e : EntityId) :
    (w.removeDue m e).Exact := by
  have hcleared := calm_withoutDue w m e
  cases halive : w.isAlive m e with
  | false =>
      rw [removed_of_not_alive halive]
      exact hw.calm hcleared
  | true =>
      obtain ⟨taken, u, hresult, hsub, htracks, hgone, hpacked⟩ := removed_of_alive hwired halive
      have hstripped : u.Exact := by
        refine (hw.calm hcleared).tracks (hwired.quiet hcleared.toQuiet) htracks ?_ ?_
        · exact fun k hk => hwired.audience_withoutDue e (hsub k hk)
        · exact fun k hk => Or.inl (hgone k (hsub k hk))
      have hkinds : (u.manager m).kinds = (w.manager m).kinds :=
        (htracks.kinds_eq m).trans (hcleared.kinds m)
      rw [hresult]
      constructor
      · -- whoever is still live was so before, and leaves no group
        refine Complete.quiet ?_ (quiet_release _ m e)
        refine hstripped.complete.updateGroups m (fun g => Group.filter_leave g e) ?_ ?_
        · intro n _ x hx
          have hlive := (live_release.1 hx).1
          rw [live_updateGroups] at hlive
          exact hlive
        · intro _ g _ x hx _ hold
          obtain ⟨hlive, hother⟩ := live_release.1 hx
          rw [live_updateGroups] at hlive
          exact Group.mem_leave.2 ⟨hold hlive, fun heq => hother ⟨rfl, heq⟩⟩
      · refine Bare.quiet ?_ (quiet_release _ m e)
        refine Bare.updateGroups ?_ m _
        intro n hn k hk x hx
        by_cases hremoved : n = m ∧ x = e
        · obtain ⟨rfl, rfl⟩ := hremoved
          rw [hkinds] at hk
          exact hgone k hk
        · refine hstripped.bare n hn k hk x fun hlive => hx ?_
          rw [live_release, live_updateGroups]
          exact ⟨hlive, hremoved⟩

theorem Confined.removeDue (hw : w.Confined w.live) (hwired : w.Wired) (m : ManagerId)
    (e : EntityId) : (w.removeDue m e).Confined (w.removeDue m e).live := by
  have hcleared := calm_withoutDue w m e
  have hconfined : (w.withoutDue m e).Confined (w.withoutDue m e).live := by
    rw [live_calm hcleared]
    exact hw.quiet hcleared.toQuiet
  cases halive : w.isAlive m e with
  | false =>
      rw [removed_of_not_alive halive]
      exact hconfined
  | true =>
      obtain ⟨taken, u, hresult, hsub, htracks, -, -⟩ := removed_of_alive hwired halive
      have hstripped : u.Confined (w.withoutDue m e).live := by
        refine hconfined.tracks (hwired.quiet hcleared.toQuiet) htracks ?_ ?_
        · exact fun k hk => hwired.audience_withoutDue e (hsub k hk)
        · intro n hn
          rw [(heard_eq_some.1 hn).1.symm, live_calm hcleared]
          exact halive
      rw [hresult]
      refine Confined.quiet ?_ (quiet_release _ m e)
      refine hstripped.updateGroups m ?_ ?_
      · intro n hn x hx
        rw [live_release, live_updateGroups, live_tracks htracks]
        exact ⟨hx, fun heq => hn heq.1⟩
      · intro g hg x hx
        obtain ⟨hmember, hne⟩ := Group.mem_leave.1 hx
        rw [live_release, live_updateGroups, live_tracks htracks]
        exact ⟨hg x hmember, fun heq => hne heq.2⟩

end EntityStore.World
