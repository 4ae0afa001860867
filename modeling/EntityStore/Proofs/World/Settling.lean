import EntityStore.Proofs.Group.Flush
import EntityStore.Proofs.Store.Representation
import EntityStore.Proofs.World.Holders

/-!
# Reports that arrive late

A store is changed first, and a group hears of it afterwards.  When several hands are at work, a
report may be on its way for any time, and a later one may overtake it.

* `Transit`: a world, a group and the reports on their way; `Step`: a kind is given to an entity or
  taken from it, any report on its way is handled, or the group is flushed.
* `Accounted`: the group is right about an entity, or a report that will make it test the entity is
  on its way.  `Accounted.announced`, `Accounted.handle` and `Sound.steps`: this lasts.
* `settles_of_late_reports`: so when nothing is on its way the group is right about everybody, and
  what it will deliver is the difference to its members at the last flush.
* `handled_at_once`: in a world without delay each change is followed by its own report.
-/

namespace EntityStore

variable [Host]

/-- A report on its way: an entity has gained or lost a kind. -/
structure Transit.Report where
  /-- The kind. -/
  kind : KindId
  /-- The entity. -/
  entity : EntityId
  /-- Has it gained the kind? -/
  gained : Bool
  deriving DecidableEq, Repr

/-- A world, one group and the reports that the group has not heard yet. -/
structure Transit where
  /-- The world, as it is now. -/
  world : World
  /-- The group. -/
  group : Group
  /-- The reports on their way. -/
  reports : List Transit.Report
  /-- The members at the last flush. -/
  delivered : IdSet

namespace Transit

/-! ## Steps -/

/-- Give a kind to an entity, and send the report if it was not refused. -/
def give (t : Transit) (k : KindId) (e : EntityId) : Transit :=
  let (store, result) := (t.world.kind k).store.insert Host.machine e
  let changed := { t with world := t.world.setStore k store }
  match result with
  | .error _ => changed
  | .ok () => { changed with reports := ⟨k, e, true⟩ :: t.reports }

/-- Take a kind from an entity, and send the report if the entity held it. -/
def take (t : Transit) (k : KindId) (e : EntityId) : Transit :=
  let (store, held) := (t.world.kind k).store.remove Host.machine e
  let changed := { t with world := t.world.setStore k store }
  if held then { changed with reports := ⟨k, e, false⟩ :: t.reports } else changed

/-- Let the group hear a report.  It tests the entity in the world as it is now. -/
def handle (t : Transit) (r : Report) : Transit :=
  { t with
    group := t.group.hear (.changed r.kind r.entity fun k => t.world.holds k r.entity)
    reports := t.reports.erase r }

/-- Flush the group. -/
def flush (t : Transit) : Transit :=
  { t with group := t.group.drain.1, delivered := t.group.members }

/-- One step: anything is given or taken, or any report arrives, in whatever order. -/
inductive Step : Transit → Transit → Prop where
  | give (t : Transit) (k : KindId) (e : EntityId) : Step t (t.give k e)
  | take (t : Transit) (k : KindId) (e : EntityId) : Step t (t.take k e)
  | handle (t : Transit) {r : Report} (h : r ∈ t.reports) : Step t (t.handle r)
  | flush (t : Transit) : Step t t.flush

/-- Any number of steps. -/
inductive Steps : Transit → Transit → Prop where
  | refl (t : Transit) : Steps t t
  | tail {t u v : Transit} (h : Steps t u) (hstep : Step u v) : Steps t v

/-! ## What the group is right about -/

/-- The group is right about an entity: it is a member exactly if it passes the filter now. -/
def Agrees (t : Transit) (e : EntityId) : Prop :=
  e ∈ t.group.members ↔ t.group.filter.accepts (fun k => t.world.holds k e) = true

/-- A report about an entity and a kind that matters to the group is on its way. -/
def Awaits (t : Transit) (e : EntityId) : Prop :=
  ∃ r ∈ t.reports, r.entity = e ∧ t.group.filter.mentions r.kind = true

/-- The group is right about an entity, or will test it. -/
def Accounted (t : Transit) (e : EntityId) : Prop := t.Agrees e ∨ t.Awaits e

variable {t u : Transit} {e : EntityId}

/-- The stores may have changed, but each change is announced. -/
structure Announced (t u : Transit) : Prop where
  /-- The group has heard nothing. -/
  group : u.group = t.group
  /-- Nothing has been delivered. -/
  delivered : u.delivered = t.delivered
  /-- What was on its way still is. -/
  kept : ∀ r ∈ t.reports, r ∈ u.reports
  /-- Whoever has gained or lost a kind is reported. -/
  told : ∀ k e, u.world.holds k e = t.world.holds k e ∨
    ∃ r ∈ u.reports, r.entity = e ∧ r.kind = k

/-- A changed store is as before for everybody of whom it tells the same, and in other kinds. -/
theorem holds_setStore {w : World} {k j : KindId} {store : Store}
    (h : j = k → (e ∈ store.holders ↔ e ∈ (w.kind k).store.holders)) :
    (w.setStore k store).holds j e = w.holds j e := by
  rw [Bool.eq_iff_iff, World.holds_eq_true, World.holds_eq_true, World.kind_setStore]
  split
  · rename_i hj
    rw [hj.1]
    exact h hj.1
  · exact Iff.rfl

/-- A store with the same holders: nobody need be told. -/
theorem announced_of_same {k : KindId} {store : Store}
    (h : ∀ y, y ∈ store.holders ↔ y ∈ (t.world.kind k).store.holders) :
    Announced t { t with world := t.world.setStore k store } where
  group := rfl
  delivered := rfl
  kept _ hr := hr
  told _ y := Or.inl (holds_setStore fun _ => h y)

/-- A store with the same holders but for one entity, and a report about that entity. -/
theorem announced_of_report {k : KindId} {x : EntityId} {store : Store} (gained : Bool)
    (h : ∀ y, y ≠ x → (y ∈ store.holders ↔ y ∈ (t.world.kind k).store.holders)) :
    Announced t { t with
      world := t.world.setStore k store
      reports := ⟨k, x, gained⟩ :: t.reports } where
  group := rfl
  delivered := rfl
  kept _ hr := List.mem_cons_of_mem _ hr
  told j y := by
    by_cases hboth : y = x ∧ j = k
    · exact Or.inr ⟨_, List.mem_cons_self, hboth.1.symm, hboth.2.symm⟩
    · exact Or.inl (holds_setStore fun hj => h y fun hy => hboth ⟨hy, hj⟩)

theorem announced_give (hw : t.world.Packed) (k : KindId) (x : EntityId) :
    Announced t (t.give k x) := by
  have hholders := Store.mem_holders_insert (hw k) Host.machine x
  unfold give
  cases hresult : (t.world.kind k).store.insert Host.machine x with
  | mk store result =>
      rw [hresult] at hholders
      cases result with
      | error cause => exact announced_of_same fun y => by simpa using hholders y
      | ok done => exact announced_of_report true fun y hy => by simpa [hy] using hholders y

theorem announced_take (hw : t.world.Packed) (k : KindId) (x : EntityId) :
    Announced t (t.take k x) := by
  have hholders := Store.mem_holders_remove (hw k) Host.machine x
  have hanswer := Store.remove_answer (s := (t.world.kind k).store) Host.machine x
  unfold take
  cases hresult : (t.world.kind k).store.remove Host.machine x with
  | mk store held =>
      rw [hresult] at hholders hanswer
      cases held with
      | true => exact announced_of_report false fun y hy => by simpa [hy] using hholders y
      | false =>
          -- who has not held the kind does not lose it
          have habsent : x ∉ (t.world.kind k).store.holders := World.holds_eq_false.1 hanswer.symm
          refine announced_of_same fun y => (hholders y).trans ⟨And.left, fun hy => ⟨hy, ?_⟩⟩
          rintro rfl
          exact habsent hy

/-! ## One step -/

/-- Announced changes may make the group wrong about an entity, but then a report is on its way. -/
theorem Accounted.announced (h : t.Accounted e) (hstep : Announced t u) : u.Accounted e := by
  rcases h with hagrees | ⟨r, hr, hentity, hmentions⟩
  · by_cases hawaits : u.Awaits e
    · exact Or.inr hawaits
    · -- no kind that matters has changed, or its report would be on its way
      have hsame : ∀ k, t.group.filter.mentions k = true →
          t.world.holds k e = u.world.holds k e := by
        intro k hk
        rcases hstep.told k e with heq | ⟨r, hr, hentity, rfl⟩
        · exact heq.symm
        · refine absurd ⟨r, hr, hentity, ?_⟩ hawaits
          rw [hstep.group]
          exact hk
      refine Or.inl ?_
      unfold Agrees
      rw [hstep.group, ← Filter.accepts_congr hsame]
      exact hagrees
  · refine Or.inr ⟨r, hstep.kept r hr, hentity, ?_⟩
    rw [hstep.group]
    exact hmentions

theorem group_handle (t : Transit) (r : Report) : (t.handle r).group =
    t.group.kindChanged r.kind r.entity fun k => t.world.holds k r.entity := rfl

theorem filter_handle (t : Transit) (r : Report) :
    (t.handle r).group.filter = t.group.filter := by
  rw [group_handle, Group.kindChanged_eq_recheck, Group.filter_recheck]

/-- A report of a kind that matters settles the membership of its entity. -/
theorem agrees_handle {r : Report} (hmentions : t.group.filter.mentions r.kind = true) :
    (t.handle r).Agrees r.entity := by
  unfold Agrees
  rw [filter_handle, group_handle, Group.kindChanged, if_pos hmentions, Group.mem_refresh]
  simp [handle]

/-- Any other report changes nothing about an entity. -/
theorem mem_handle {r : Report}
    (h : ¬ (r.entity = e ∧ t.group.filter.mentions r.kind = true)) :
    e ∈ (t.handle r).group.members ↔ e ∈ t.group.members := by
  rw [group_handle, Group.kindChanged]
  split
  · rename_i hmentions
    have hne : e ≠ r.entity := fun he => h ⟨he.symm, hmentions⟩
    rw [Group.mem_refresh]
    simp [hne]
  · exact Iff.rfl

/-- Handling a report keeps every entity accounted for. -/
theorem Accounted.handle (h : t.Accounted e) (r : Report) : (t.handle r).Accounted e := by
  by_cases hr : r.entity = e ∧ t.group.filter.mentions r.kind = true
  · obtain ⟨rfl, hmentions⟩ := hr
    exact Or.inl (agrees_handle hmentions)
  · rcases h with hagrees | ⟨q, hq, hentity, hmentions⟩
    · refine Or.inl ?_
      unfold Agrees
      rw [mem_handle hr, filter_handle]
      exact hagrees
    · -- the report that the group awaits is another one
      have hne : q ≠ r := by
        rintro rfl
        exact hr ⟨hentity, hmentions⟩
      refine Or.inr ⟨q, (List.mem_erase_of_ne hne).2 hq, hentity, ?_⟩
      rw [filter_handle]
      exact hmentions

theorem packed_give (hw : t.world.Packed) (k : KindId) (x : EntityId) :
    (t.give k x).world.Packed := by
  have hstore := Store.packed_insert (hw k) Host.machine x
  unfold give
  cases hresult : (t.world.kind k).store.insert Host.machine x with
  | mk store result =>
      rw [hresult] at hstore
      cases result <;> exact World.packed_setStore hw k hstore

theorem packed_take (hw : t.world.Packed) (k : KindId) (x : EntityId) :
    (t.take k x).world.Packed := by
  have hstore := World.packed_setStore hw k (Store.packed_remove (hw k) Host.machine x)
  unfold take
  dsimp only
  split <;> exact hstore

/-- What lasts through all steps. -/
structure Sound (filter : Filter) (live : EntityId → Prop) (t : Transit) : Prop where
  /-- The stores hang together. -/
  packed : t.world.Packed
  /-- The group is still the same. -/
  same : t.group.filter = filter
  /-- Every live entity is accounted for. -/
  accounted : ∀ e, live e → t.Accounted e
  /-- The undelivered change is the difference to the members at the last flush. -/
  net : t.group.Net t.delivered

variable {filter : Filter} {live : EntityId → Prop}

theorem Sound.announced (h : Sound filter live t) (hstep : Announced t u) (hu : u.world.Packed) :
    Sound filter live u where
  packed := hu
  same := by rw [hstep.group, h.same]
  accounted e he := (h.accounted e he).announced hstep
  net := by
    rw [hstep.group, hstep.delivered]
    exact h.net

theorem Sound.step (h : Sound filter live t) (hstep : Step t u) : Sound filter live u := by
  cases hstep with
  | give k x => exact h.announced (announced_give h.packed k x) (packed_give h.packed k x)
  | take k x => exact h.announced (announced_take h.packed k x) (packed_take h.packed k x)
  | handle hr =>
      exact
        { packed := h.packed
          same := (filter_handle t _).trans h.same
          accounted := fun e he => (h.accounted e he).handle _
          net := h.net.hear (.changed _ _ _) }
  | flush =>
      -- a flush delivers, but no member comes or goes
      refine { packed := h.packed, same := h.same, accounted := h.accounted, net := ?_ }
      exact ⟨fun x => by simp [flush, Group.drain], fun x => by simp [flush, Group.drain]⟩

theorem Sound.steps (h : Sound filter live t) (hsteps : Steps t u) : Sound filter live u := by
  induction hsteps with
  | refl => exact h
  | tail _ hstep ih => exact ih.step hstep

/-- In a world without delay the report of a change is handled with the change itself: every group
of the manager becomes what handling the report makes of it. -/
theorem handled_at_once {w : World} {k : KindId} {m : ManagerId} (haudience : w.audience k = some m)
    (x : EntityId) (gained : Bool) (delivered : IdSet) :
    ((w.informGroups k x).manager m).groups = (w.manager m).groups.map fun g =>
      (handle ⟨w, g, [⟨k, x, gained⟩], delivered⟩ ⟨k, x, gained⟩).group := by
  have hmade := World.lt_length_of_not_retired (World.retired_of_audience haudience)
  rw [World.informGroups_of_some haudience, World.updateGroups, World.manager_updateManager,
    if_pos ⟨rfl, hmade⟩]
  rfl

/-! ## Settling -/

/-- What the group has made of the reports that it has heard so far. -/
structure Settles (live : EntityId → Prop) (t : Transit) : Prop where
  /-- If the group is wrong about a live entity, a report that matters is on its way. -/
  awaited : ∀ e, live e → ¬ t.Agrees e → ∃ r ∈ t.reports, r.entity = e ∧
    (r.kind ∈ t.group.filter.required ∨ r.kind ∈ t.group.filter.forbidden)
  /-- With nothing on its way the group is right about every live entity. -/
  agreed : t.reports = [] → ∀ e, live e →
    (e ∈ t.group.members ↔ t.group.filter.accepts (fun k => t.world.holds k e) = true)
  /-- Who has joined is a member now and was none at the last flush. -/
  joined : ∀ e, e ∈ t.group.added ↔ e ∈ t.group.members ∧ e ∉ t.delivered
  /-- Who has left was a member at the last flush and is none now. -/
  left : ∀ e, e ∈ t.group.removed ↔ e ∈ t.delivered ∧ e ∉ t.group.members

theorem Sound.settles (h : Sound filter live t) : Settles live t where
  awaited e he hwrong := by
    obtain ⟨r, hr, hentity, hmentions⟩ := (h.accounted e he).resolve_left hwrong
    exact ⟨r, hr, hentity, Filter.mentions_iff.1 hmentions⟩
  agreed hnone e he := by
    refine (h.accounted e he).resolve_right ?_
    rintro ⟨r, hr, -⟩
    rw [hnone] at hr
    exact absurd hr List.not_mem_nil
  joined := h.net.added
  left := h.net.removed

/-- Reports may arrive as late as they like and in any order: wherever the group is wrong a report
is still to come, and when all have arrived the group is right about every live entity.  What it has
not delivered yet is its net change since the last flush. -/
theorem settles_of_late_reports {live : EntityId → Prop} {t u : Transit}
    (hstores : ∀ k, Store.Arises Host.machine (t.world.kind k).store)
    (hgroup : t.group.Since t.delivered) (hagrees : ∀ e, live e → t.Agrees e) (hsteps : Steps t u) :
    u.group.filter = t.group.filter ∧ Settles live u := by
  have hstart : Sound t.group.filter live t :=
    { packed := fun k => (hstores k).packed
      same := rfl
      accounted := fun e he => Or.inl (hagrees e he)
      net := hgroup.net }
  have hend := hstart.steps hsteps
  exact ⟨hend.same, hend.settles⟩

end Transit

end EntityStore

namespace EntityStore.Transit

attribute [local instance] Host.plain

/-- Nobody holds either of two kinds, and a group requires the first and forbids the second. -/
def twoKinds : Transit where
  world := { World.empty with
    kinds := [Kind.make "a" StoreConfig.default, Kind.make "b" StoreConfig.default] }
  group := Group.ofFilter ⟨[⟨0⟩], [⟨1⟩]⟩
  reports := []
  delivered := ∅

/-- The second kind is given and taken again, and the report of the taking overtakes the other. -/
def overtaken : Transit :=
  ((((((twoKinds.give ⟨0⟩ 1).handle ⟨⟨0⟩, 1, true⟩).give ⟨1⟩ 1).take ⟨1⟩ 1).handle
    ⟨⟨1⟩, 1, false⟩).handle ⟨⟨1⟩, 1, true⟩)

theorem steps_overtaken : Steps twoKinds overtaken := by
  refine .tail (.tail (.tail (.tail (.tail (.tail (.refl _) (.give _ _ _)) (.handle _ ?_))
    (.give _ _ _)) (.take _ _ _)) (.handle _ ?_)) (.handle _ ?_)
  · decide
  · decide
  · decide

theorem arises_twoKinds (k : KindId) :
    Store.Arises Host.machine (twoKinds.world.kind k).store := by
  have hconfig : StoreConfig.default.validate Host.machine.rounding = .ok () :=
    Store.validate_of_violation? (by decide +kernel)
  obtain ⟨_ | _ | n⟩ := k
  · exact .fresh _ _ hconfig
  · exact .fresh _ _ hconfig
  · exact .fresh _ _ hconfig

theorem agrees_twoKinds (e : EntityId) : twoKinds.Agrees e := by
  have hnone : twoKinds.world.holds ⟨0⟩ e = false := rfl
  unfold Agrees
  rw [Filter.accepts_iff]
  constructor
  · exact fun hmem => absurd hmem (IdSet.not_mem_empty e)
  · rintro ⟨hrequired, -⟩
    rw [hrequired ⟨0⟩ List.mem_cons_self] at hnone
    cases hnone

/-- The group is right in the end about an entity whose reports were heard in the wrong order. -/
theorem settles_when_overtaken :
    Settles (fun _ => True) overtaken ∧ overtaken.reports = [] ∧ 1 ∈ overtaken.group.members := by
  have hsettles := (settles_of_late_reports arises_twoKinds (.seeded (.ofFilter _))
    (fun e (_ : True) => agrees_twoKinds e) steps_overtaken).2
  refine ⟨hsettles, by decide, ?_⟩
  rw [hsettles.agreed (by decide) 1 trivial]
  decide

end EntityStore.Transit
