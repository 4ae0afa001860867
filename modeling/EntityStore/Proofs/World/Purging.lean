import EntityStore.Proofs.World.Steady

/-!
# Who is due is removed, and nobody else

At the end of a tick every live id that is due loses the kinds of its manager, one after the other
in the order of their registration; then it leaves the groups, and then it is no longer live.  In
between it may pass filters that it never passed before, when a forbidden kind is the first to go,
and every store may move its other holders together.  In the end nothing is left of that.

* `Purged m due w v`: what the removal of some ids comes to.
* `purged_removeDue`: one removal.  `Purged.trans`: removals add up.
* `clears_removeAllDue`: the removal of all that are due, for the removed, for everybody else, and
  for the news of the groups.
-/

namespace EntityStore.World

variable [Host] {w v u : World} {m : ManagerId} {e x : EntityId} {due more : List EntityId}

/-! ## Groups that are changed -/

/-- A change of all groups of a manager changes each of them; what stands where there is none has to
stay as it is. -/
theorem group_updateGroups_self (w : World) (g : GroupRef) (change : Group → Group)
    (hnone : change (Group.ofFilter ⟨[], []⟩) = Group.ofFilter ⟨[], []⟩) :
    (w.updateGroups g.manager change).group g = change (w.group g) := by
  unfold group Manager.group
  rw [groups_updateGroups, if_pos rfl]
  simp only [List.getD_eq_getElem?_getD, List.getElem?_map]
  cases (w.manager g.manager).groups[g.number]? with
  | none => exact hnone.symm
  | some old => rfl

theorem group_updateGroups_of_ne {g : GroupRef} (hne : g.manager ≠ m) (w : World)
    (change : Group → Group) : (w.updateGroups m change).group g = w.group g := by
  unfold group Manager.group
  rw [groups_updateGroups, if_neg hne]

/-- Changes of one entity leave the others in their groups. -/
theorem Tracks.members_iff {audience : Option ManagerId} {kinds : List KindId}
    (h : Tracks audience e kinds w v) (hx : x ≠ e) (g : GroupRef) :
    x ∈ (v.group g).members ↔ x ∈ (w.group g).members := by
  by_cases hg : audience = some g.manager
  · unfold group Manager.group
    rw [h.told g.manager hg]
    simp only [List.getD_eq_getElem?_getD, List.getElem?_map]
    cases (w.manager g.manager).groups[g.number]? with
    | none => exact Iff.rfl
    | some old =>
        rcases Group.recheck_cases old h.holds_congr x with ⟨heq, -⟩ | ⟨hmember, -⟩
        · exact absurd heq hx
        · exact hmember
  · unfold group
    rw [h.untold g.manager hg]

/-! ## What removals come to -/

/-- Some ids of a manager have been removed, those of them that were live. -/
structure Purged (m : ManagerId) (due : List EntityId) (w v : World) : Prop where
  /-- They are no longer live, and the others are as before. -/
  alive : ∀ x, v.isAlive m x = true ↔ w.isAlive m x = true ∧ x ∉ due
  /-- They hold no kind of the manager any more. -/
  bare : ∀ x ∈ due, w.isAlive m x = true → ∀ k ∈ (w.manager m).kinds, v.holds k x = false
  /-- They are in none of its groups. -/
  outside : ∀ x ∈ due, w.isAlive m x = true → ∀ g, g.manager = m → x ∉ (v.group g).members
  /-- Nothing has happened to others, or in other kinds. -/
  undisturbed : ∀ x k, (x ∈ due → w.isAlive m x = true → k ∉ (w.manager m).kinds) →
    (w.kind k).store.Undisturbed (v.kind k).store x
  /-- Others are in the same groups as before, and everybody is in those of other managers. -/
  members : ∀ x g, (x ∈ due → w.isAlive m x = true → g.manager ≠ m) →
    (x ∈ (v.group g).members ↔ x ∈ (w.group g).members)
  /-- No kind has lost or gained a property. -/
  shape : ∀ k, (w.kind k).store.SameShape (v.kind k).store
  /-- The same kinds are registered. -/
  kinds : (v.manager m).kinds = (w.manager m).kinds
  /-- Nothing has happened to another manager. -/
  elsewhere : ∀ n, n ≠ m → v.manager n = w.manager n
  /-- The undelivered change of a group is counted from the same members as before. -/
  since : ∀ g base, Group.Since base (w.group g) → Group.Since base (v.group g)

theorem Purged.refl (m : ManagerId) (w : World) : Purged m [] w w where
  alive x := by simp
  bare x hx := absurd hx List.not_mem_nil
  outside x hx := absurd hx List.not_mem_nil
  undisturbed x k _ := .refl _ x
  members x g _ := Iff.rfl
  shape k := .refl _
  kinds := rfl
  elsewhere n _ := rfl
  since g base hsince := hsince

/-- Removals add up: who is removed first is dead for those that follow. -/
theorem Purged.trans (h : Purged m due w v) (k : Purged m more v u) :
    Purged m (due ++ more) w u := by
  have hfirst : ∀ x ∈ due, v.isAlive m x ≠ true := fun x hx halive =>
    ((h.alive x).1 halive).2 hx
  have hlater : ∀ x, x ∉ due → w.isAlive m x = true → v.isAlive m x = true := fun x hx halive =>
    (h.alive x).2 ⟨halive, hx⟩
  constructor
  · intro x
    rw [k.alive, h.alive, List.mem_append, not_or, and_assoc]
  · intro x hx halive j hj
    by_cases hdue : x ∈ due
    · rw [Undisturbed.holds_eq (k.undisturbed x j fun _ hagain => absurd hagain (hfirst x hdue))]
      exact h.bare x hdue halive j hj
    · refine k.bare x ?_ (hlater x hdue halive) j ?_
      · exact (List.mem_append.1 hx).resolve_left hdue
      · rw [h.kinds]
        exact hj
  · intro x hx halive g hg
    by_cases hdue : x ∈ due
    · rw [k.members x g fun _ hagain => absurd hagain (hfirst x hdue)]
      exact h.outside x hdue halive g hg
    · exact k.outside x ((List.mem_append.1 hx).resolve_left hdue) (hlater x hdue halive) g hg
  · intro x j hother
    refine (h.undisturbed x j ?_).trans (k.undisturbed x j ?_)
    · exact fun hdue => hother (List.mem_append_left more hdue)
    · intro hmore halive
      rw [h.kinds]
      exact hother (List.mem_append_right due hmore) ((h.alive x).1 halive).1
  · intro x g hother
    refine (k.members x g ?_).trans (h.members x g ?_)
    · exact fun hmore halive =>
        hother (List.mem_append_right due hmore) ((h.alive x).1 halive).1
    · exact fun hdue => hother (List.mem_append_left more hdue)
  · exact fun j => (h.shape j).trans (k.shape j)
  · exact k.kinds.trans h.kinds
  · exact fun n hn => (k.elsewhere n hn).trans (h.elsewhere n hn)
  · exact fun g base hsince => k.since g base (h.since g base hsince)

theorem kinds_removeDue (w : World) (m : ManagerId) (e : EntityId) :
    ((w.removeDue m e).manager m).kinds = (w.manager m).kinds := by
  rw [field_removeDue Manager.kinds (fun _ _ => rfl) fun _ _ => rfl]
  exact (calm_withoutDue w m e).kinds m

/-- An id that is not live is taken off the list of those due, and nothing else happens. -/
theorem purged_of_not_alive (h : w.isAlive m e = false) : Purged m [e] w (w.removeDue m e) := by
  have hnobody : ∀ {x}, x ∈ [e] → w.isAlive m x ≠ true := by
    intro x hx halive
    rw [List.mem_singleton.1 hx, h] at halive
    cases halive
  have hgroups : ∀ g, (w.removeDue m e).group g = w.group g := by
    intro g
    rw [removed_of_not_alive h]
    exact group_withoutDue w m e g
  have hkinds : ∀ k, (w.removeDue m e).kind k = w.kind k := by
    intro k
    rw [removed_of_not_alive h]
    rfl
  constructor
  · intro x
    rw [isAlive_removeDue, List.mem_singleton]
    simp
  · exact fun x hx halive => absurd halive (hnobody hx)
  · exact fun x hx halive => absurd halive (hnobody hx)
  · intro x k _
    rw [hkinds]
    exact .refl _ x
  · intro x g _
    rw [hgroups]
  · intro k
    rw [hkinds]
    exact .refl _
  · exact kinds_removeDue w m e
  · intro n hn
    rw [removed_of_not_alive h]
    unfold withoutDue
    rw [manager_updateManager, if_neg fun heq => hn heq.1]
  · intro g base hsince
    rw [hgroups]
    exact hsince

/-- A live id that is removed leaves nothing behind. -/
theorem purged_of_alive (hw : w.Wired) (h : w.isAlive m e = true) :
    Purged m [e] w (w.removeDue m e) := by
  obtain ⟨taken, stripped, hresult, hsub, htracks, hgone, -⟩ := removed_of_alive hw h
  have hkind : ∀ k, (w.removeDue m e).kind k = stripped.kind k := by
    intro k
    rw [hresult]
    rfl
  have hgroup : ∀ g, g.manager = m → (w.removeDue m e).group g = (stripped.group g).leave e := by
    rintro g rfl
    rw [hresult, group_release]
    refine group_updateGroups_self stripped g (fun g => g.entityRemoved e) ?_
    exact Group.leave_of_not_mem (IdSet.not_mem_empty e)
  constructor
  · intro x
    rw [isAlive_removeDue, List.mem_singleton]
    simp
  · intro x hx _ k hk
    rw [List.mem_singleton.1 hx]
    unfold holds
    rw [hkind]
    exact hgone k hk
  · intro x hx _ g hg hmember
    rw [hgroup g hg] at hmember
    exact (Group.mem_leave.1 hmember).2 (List.mem_singleton.1 hx)
  · intro x k hother
    rw [hkind]
    refine htracks.undisturbed k x ?_
    by_cases hx : x = e
    · subst hx
      exact Or.inr fun htaken => hother (List.mem_singleton.2 rfl) h (hsub k htaken)
    · exact Or.inl hx
  · intro x g hother
    by_cases hg : g.manager = m
    · -- of this manager only the others are in question
      have hx : x ≠ e := by
        rintro rfl
        exact hother (List.mem_singleton.2 rfl) h hg
      rw [hgroup g hg, Group.mem_leave, and_iff_left hx, htracks.members_iff hx,
        group_withoutDue]
    · have huntold : stripped.manager g.manager = (w.withoutDue m e).manager g.manager :=
        htracks.untold _ fun hheard => hg (heard_eq_some.1 hheard).1.symm
      have hsame : stripped.group g = (w.withoutDue m e).group g := by
        unfold group
        rw [huntold]
      rw [hresult, group_release]
      show x ∈ ((stripped.updateGroups m _).group g).members ↔ _
      rw [group_updateGroups_of_ne hg, hsame, group_withoutDue]
  · intro k
    rw [hkind]
    exact htracks.shape k
  · exact kinds_removeDue w m e
  · intro n hn
    have huntold : stripped.manager n = (w.withoutDue m e).manager n :=
      htracks.untold n fun hheard => hn (heard_eq_some.1 hheard).1.symm
    have hother : ∀ {y : World} {change : Manager → Manager},
        (y.updateManager m change).manager n = y.manager n := by
      intro y change
      rw [manager_updateManager, if_neg fun heq => hn heq.1]
    rw [hresult]
    exact hother.trans (hother.trans (huntold.trans hother))
  · exact fun g base hsince => (heard_removeDue w m e g).since hsince

theorem purged_removeDue (hw : w.Wired) (m : ManagerId) (e : EntityId) :
    Purged m [e] w (w.removeDue m e) := by
  cases halive : w.isAlive m e with
  | false => exact purged_of_not_alive halive
  | true => exact purged_of_alive hw halive

/-- The removals that are listed. -/
theorem purged_removals (m : ManagerId) (due : List EntityId) (hw : w.Wired) :
    Purged m due w (due.foldl (fun w e => w.removeDue m e) w) := by
  induction due generalizing w with
  | nil => exact .refl m w
  | cons e rest ih => exact (purged_removeDue hw m e).trans (ih (hw.removeDue m e))

theorem Wired.removeAllDue (hw : w.Wired) (m : ManagerId) : (w.removeAllDue m).Wired :=
  removeAllDue_preserves hw fun _ e hv => hv.removeDue m e

/-! ## All that are due -/

/-- Nothing has happened to an entity of a manager: it is live or not as before, holds the same
kinds with the same values, and is in the same groups. -/
structure Spared (m : ManagerId) (x : EntityId) (w v : World) : Prop where
  alive : v.isAlive m x = w.isAlive m x
  holds : ∀ k, v.holds k x = w.holds k x
  values : ∀ k (p : Property), p.get (v.kind k).store x = p.get (w.kind k).store x
  members : ∀ g, x ∈ (v.group g).members ↔ x ∈ (w.group g).members

/-- Everybody who was due has been removed, and nobody else. -/
structure Clears (m : ManagerId) (w v : World) : Prop where
  /-- Who was live and due is no longer live, holds no kind of the manager and is in none of its
  groups. -/
  removed : ∀ x ∈ (w.manager m).pending, w.isAlive m x = true →
    v.isAlive m x = false ∧ (∀ k ∈ (w.manager m).kinds, v.holds k x = false) ∧
      ∀ g, g.manager = m → x ∉ (v.group g).members
  /-- Nothing has happened to anybody else, be they live or, due or not, not live. -/
  spared : ∀ x, x ∉ (w.manager m).pending ∨ w.isAlive m x = false → Spared m x w v
  /-- Nobody is due any more. -/
  settled : (v.manager m).pending = ∅
  /-- The kinds of other managers are held as before, and with the same values, and these managers
  are as before. -/
  elsewhere : (∀ k ∉ (w.manager m).kinds, ∀ x, v.holds k x = w.holds k x ∧
      ∀ p : Property, p.get (v.kind k).store x = p.get (w.kind k).store x) ∧
    ∀ n, n ≠ m → v.manager n = w.manager n
  /-- The groups will tell of a removed entity that it has left, if it was a member when they told
  of changes last, and in no case that it has joined. -/
  news : ∀ g, g.manager = m → ∀ base, Group.Since base (w.group g) →
    ∀ x ∈ (w.manager m).pending, w.isAlive m x = true →
      (x ∈ (v.group g).removed ↔ x ∈ base) ∧ x ∉ (v.group g).added

omit [Host] in
/-- An entity that is in a group no longer is among those who left it if it was there at the last
flush, and is not among those who joined. -/
theorem news_of_outside {g : Group} {base : IdSet} (hsince : Group.Since base g)
    (hout : x ∉ g.members) : (x ∈ g.removed ↔ x ∈ base) ∧ x ∉ g.added := by
  constructor
  · rw [hsince.net.removed, and_iff_left hout]
  · exact fun hadded => hout ((hsince.net.added x).1 hadded).1

/-- The end of a tick removes those who are due, and nobody else. -/
theorem clears_removeAllDue (hw : w.Wired) (m : ManagerId) : Clears m w (w.removeAllDue m) := by
  have hpurged : Purged m (w.manager m).pending.toList w (w.removeAllDue m) :=
    purged_removals m _ hw
  have hpacked := (hw.removeAllDue m).packed
  have hsame : ∀ {k x}, (w.kind k).store.Undisturbed ((w.removeAllDue m).kind k).store x →
      (w.removeAllDue m).holds k x = w.holds k x ∧
        ∀ p : Property, p.get ((w.removeAllDue m).kind k).store x = p.get (w.kind k).store x := by
    intro k x hundisturbed
    refine ⟨Undisturbed.holds_eq hundisturbed, fun p => ?_⟩
    exact hundisturbed.get_eq (hw.packed k) (hpacked k) (hpurged.shape k) p
  constructor
  · intro x hx halive
    refine ⟨?_, hpurged.bare x hx halive, hpurged.outside x hx halive⟩
    exact Bool.eq_false_iff.2 fun hstill => ((hpurged.alive x).1 hstill).2 hx
  · intro x hx
    have hother : x ∈ (w.manager m).pending.toList → w.isAlive m x ≠ true := by
      intro hdue halive
      rcases hx with hfree | hdead
      · exact hfree hdue
      · rw [hdead] at halive
        cases halive
    have hundisturbed := fun k => hpurged.undisturbed x k fun hdue halive =>
      absurd halive (hother hdue)
    refine ⟨?_, fun k => (hsame (hundisturbed k)).1, fun k => (hsame (hundisturbed k)).2, ?_⟩
    · rw [Bool.eq_iff_iff, hpurged.alive]
      exact and_iff_left_of_imp fun halive hdue => hother hdue halive
    · exact fun g => hpurged.members x g fun hdue halive => absurd halive (hother hdue)
  · ext x
    exact iff_of_false (pending_removeAllDue w m x) (IdSet.not_mem_empty x)
  · exact ⟨fun k hk x => hsame (hpurged.undisturbed x k fun _ _ => hk), hpurged.elsewhere⟩
  · intro g hg base hsince x hx halive
    exact news_of_outside (hpurged.since g base hsince) (hpurged.outside x hx halive g hg)

end EntityStore.World
