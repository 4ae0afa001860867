import EntityStore.Proofs.Group.Flush

/-!
# Tests of different entities

A test of one entity reads and writes what a group knows of that entity, and nothing else.  So tests
of different entities can be made in either order, with the same members and the same undelivered
change in the end.

* `Group.Accord`: two groups know the same of one entity.
* `Group.refresh_comm`, `Group.recheck_comm`: tests of different entities commute.
-/

namespace EntityStore.Group

variable {g h : Group} {e x : EntityId}

/-- Two groups know the same of an entity. -/
structure Accord (g h : Group) (e : EntityId) : Prop where
  members : e ∈ g.members ↔ e ∈ h.members
  added : e ∈ g.added ↔ e ∈ h.added
  removed : e ∈ g.removed ↔ e ∈ h.removed

theorem Accord.symm (hsame : Accord g h e) : Accord h g e :=
  ⟨hsame.members.symm, hsame.added.symm, hsame.removed.symm⟩

theorem Accord.trans {k : Group} (hsame : Accord g h e) (hthen : Accord h k e) : Accord g k e :=
  ⟨hsame.members.trans hthen.members, hsame.added.trans hthen.added,
    hsame.removed.trans hthen.removed⟩

/-- Groups of one filter and one list of listeners that know the same of everybody are one. -/
theorem eq_of_accord (hfilter : g.filter = h.filter) (hlisteners : g.listeners = h.listeners)
    (hsame : ∀ x, Accord g h x) : g = h := by
  obtain ⟨filter, members, added, removed, listeners⟩ := g
  obtain ⟨filter', members', added', removed', listeners'⟩ := h
  have hmembers : members = members' := by
    ext x
    exact (hsame x).members
  have hadded : added = added' := by
    ext x
    exact (hsame x).added
  have hremoved : removed = removed' := by
    ext x
    exact (hsame x).removed
  simp_all

/-- A test leaves what is known of other entities. -/
theorem accord_refresh_of_ne (g : Group) (accepted : Bool) (hx : x ≠ e) :
    Accord (g.refresh e accepted) g x := by
  cases accepted with
  | false =>
      show Accord (g.leave e) g x
      unfold leave
      split
      · split <;> constructor <;> simp [hx]
      · constructor <;> exact Iff.rfl
  | true =>
      show Accord (g.join e) g x
      unfold join
      split
      · constructor <;> exact Iff.rfl
      · split <;> constructor <;> simp [hx]

/-- A test reads nothing but what is known of its entity. -/
theorem Accord.refresh (hsame : Accord g h e) (accepted : Bool) :
    Accord (g.refresh e accepted) (h.refresh e accepted) e := by
  obtain ⟨hmembers, hadded, hremoved⟩ := hsame
  cases accepted with
  | false =>
      show Accord (g.leave e) (h.leave e) e
      unfold leave
      by_cases hmember : e ∈ g.members
      · rw [if_pos hmember, if_pos (hmembers.1 hmember)]
        by_cases hnew : e ∈ g.added
        · rw [if_pos hnew, if_pos (hadded.1 hnew)]
          constructor <;> simp [hremoved]
        · rw [if_neg hnew, if_neg fun hmem => hnew (hadded.2 hmem)]
          constructor <;> simp [hadded]
      · rw [if_neg hmember, if_neg fun hmem => hmember (hmembers.2 hmem)]
        exact ⟨hmembers, hadded, hremoved⟩
  | true =>
      show Accord (g.join e) (h.join e) e
      unfold join
      by_cases hmember : e ∈ g.members
      · rw [if_pos hmember, if_pos (hmembers.1 hmember)]
        exact ⟨hmembers, hadded, hremoved⟩
      · rw [if_neg hmember, if_neg fun hmem => hmember (hmembers.2 hmem)]
        by_cases hgone : e ∈ g.removed
        · rw [if_pos hgone, if_pos (hremoved.1 hgone)]
          constructor <;> simp [hadded]
        · rw [if_neg hgone, if_neg fun hmem => hgone (hremoved.2 hmem)]
          constructor <;> simp [hremoved]

theorem listeners_refresh (g : Group) (e : EntityId) (accepted : Bool) :
    (g.refresh e accepted).listeners = g.listeners := by
  cases accepted with
  | false => exact listeners_leave g e
  | true => exact listeners_join g e

/-- Tests of different entities commute. -/
theorem refresh_comm (g : Group) (hx : x ≠ e) (first second : Bool) :
    (g.refresh e first).refresh x second = (g.refresh x second).refresh e first := by
  apply eq_of_accord
  · simp only [filter_refresh]
  · simp only [listeners_refresh]
  · intro y
    by_cases hy : y = e
    · subst hy
      -- the test of the other entity comes after this one, or before it
      have hafter := accord_refresh_of_ne (g.refresh y first) second (Ne.symm hx)
      have hbefore := (accord_refresh_of_ne g second (Ne.symm hx)).refresh first
      exact hafter.trans hbefore.symm
    · have hlast := accord_refresh_of_ne (g.refresh x second) first hy
      by_cases hyx : y = x
      · subst hyx
        exact ((accord_refresh_of_ne g first hy).refresh second).trans hlast.symm
      · have hleft := (accord_refresh_of_ne (g.refresh e first) second hyx).trans
          (accord_refresh_of_ne g first hy)
        have hright := hlast.trans (accord_refresh_of_ne g second hyx)
        exact hleft.trans hright.symm

/-- So do series of changes of different entities. -/
theorem recheck_comm (g : Group) (hx : x ≠ e) (first second : List KindId)
    (holds others : KindId → Bool) :
    (g.recheck e first holds).recheck x second others =
      (g.recheck x second others).recheck e first holds := by
  unfold recheck
  by_cases hfirst : first.any g.filter.mentions = true
  · by_cases hsecond : second.any g.filter.mentions = true
    · simp only [hfirst, hsecond, if_true, filter_refresh]
      exact refresh_comm g hx _ _
    · simp [hfirst, hsecond]
  · by_cases hsecond : second.any g.filter.mentions = true
    · simp [hfirst, hsecond]
    · simp [hfirst, hsecond]

end EntityStore.Group
