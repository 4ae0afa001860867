import EntityStore.Group.Basic

/-!
# Re-testing one entity

What a group makes of news about one entity.

* `Coherent.refresh_refresh`: of two tests of the same entity only the second counts, for the
  members and for the undelivered change alike.  So an entity that joins and leaves between two
  flushes, or leaves and comes back, leaves no trace.
* `recheck_recheck`: the same for a series of changes of kinds, of which only some matter to the
  filter.
-/

namespace EntityStore

namespace IdSet

theorem erase_insert_of_not_mem {s : IdSet} {e : EntityId} (h : e ∉ s) :
    (s.insert e).erase e = s := by
  ext x
  rw [mem_erase, mem_insert]
  constructor
  · rintro ⟨rfl | hx, hne⟩
    · exact absurd rfl hne
    · exact hx
  · intro hx
    refine ⟨Or.inr hx, ?_⟩
    rintro rfl
    exact h hx

theorem insert_erase_of_mem {s : IdSet} {e : EntityId} (h : e ∈ s) :
    (s.erase e).insert e = s := by
  ext x
  rw [mem_insert, mem_erase]
  constructor
  · rintro (rfl | ⟨hx, -⟩)
    · exact h
    · exact hx
  · intro hx
    by_cases hxe : x = e
    · exact Or.inl hxe
    · exact Or.inr ⟨hx, hxe⟩

end IdSet

namespace Filter

variable {f : Filter}

theorem mentions_iff {k : KindId} : f.mentions k = true ↔ k ∈ f.required ∨ k ∈ f.forbidden := by
  simp [mentions, requires, forbids]

/-- An entity passes a filter when it holds what is required and nothing that is forbidden. -/
theorem accepts_iff {holds : KindId → Bool} :
    f.accepts holds = true ↔
      (∀ k ∈ f.required, holds k = true) ∧ ∀ k ∈ f.forbidden, holds k = false := by
  simp [accepts]

/-- Only the kinds that a filter mentions matter to it. -/
theorem accepts_congr {holds others : KindId → Bool}
    (h : ∀ k, f.mentions k = true → holds k = others k) : f.accepts holds = f.accepts others := by
  rw [Bool.eq_iff_iff, accepts_iff, accepts_iff]
  constructor
  · rintro ⟨hrequired, hforbidden⟩
    refine ⟨fun k hk => ?_, fun k hk => ?_⟩
    · rw [← h k (mentions_iff.2 (Or.inl hk))]
      exact hrequired k hk
    · rw [← h k (mentions_iff.2 (Or.inr hk))]
      exact hforbidden k hk
  · rintro ⟨hrequired, hforbidden⟩
    refine ⟨fun k hk => ?_, fun k hk => ?_⟩
    · rw [h k (mentions_iff.2 (Or.inl hk))]
      exact hrequired k hk
    · rw [h k (mentions_iff.2 (Or.inr hk))]
      exact hforbidden k hk

end Filter

namespace Group

/-- The undelivered change fits the members: who was added is one, who was removed is none. -/
structure Coherent (g : Group) : Prop where
  added : ∀ e ∈ g.added, e ∈ g.members
  removed : ∀ e ∈ g.removed, e ∉ g.members

variable {g : Group} {e x : EntityId}

/-! ## Members -/

@[simp] theorem filter_join (g : Group) (e : EntityId) : (g.join e).filter = g.filter := by
  unfold join
  split
  · rfl
  · split <;> rfl

@[simp] theorem filter_leave (g : Group) (e : EntityId) : (g.leave e).filter = g.filter := by
  unfold leave
  split
  · split <;> rfl
  · rfl

@[simp] theorem filter_refresh (g : Group) (e : EntityId) (accepted : Bool) :
    (g.refresh e accepted).filter = g.filter := by
  cases accepted
  · exact filter_leave g e
  · exact filter_join g e

theorem join_of_mem (h : e ∈ g.members) : g.join e = g := by
  rw [join, if_pos h]

theorem leave_of_not_mem (h : e ∉ g.members) : g.leave e = g := by
  rw [leave, if_neg h]

theorem mem_join : x ∈ (g.join e).members ↔ x = e ∨ x ∈ g.members := by
  unfold join
  split
  · rename_i he
    constructor
    · exact Or.inr
    · rintro (rfl | hx)
      · exact he
      · exact hx
  · split <;> exact IdSet.mem_insert

theorem mem_leave : x ∈ (g.leave e).members ↔ x ∈ g.members ∧ x ≠ e := by
  unfold leave
  split
  · split <;> exact IdSet.mem_erase
  · rename_i he
    constructor
    · intro hx
      refine ⟨hx, ?_⟩
      rintro rfl
      exact he hx
    · exact And.left

/-- A test decides about the tested entity and about no other. -/
theorem mem_refresh {accepted : Bool} :
    x ∈ (g.refresh e accepted).members ↔ x = e ∧ accepted = true ∨ x ≠ e ∧ x ∈ g.members := by
  cases accepted with
  | false =>
      show x ∈ (g.leave e).members ↔ _
      rw [mem_leave]
      simp [and_comm]
  | true =>
      show x ∈ (g.join e).members ↔ _
      rw [mem_join]
      by_cases hx : x = e <;> simp [hx]

/-! ## The undelivered change -/

theorem Coherent.join (h : g.Coherent) (e : EntityId) : (g.join e).Coherent := by
  unfold Group.join
  split
  · exact h
  · rename_i he
    split
    · refine ⟨fun x hx => ?_, fun x hx => ?_⟩
      · exact IdSet.mem_insert.2 (Or.inr (h.added x hx))
      · obtain ⟨hx, hne⟩ := IdSet.mem_erase.1 hx
        rw [IdSet.mem_insert]
        rintro (rfl | hmem)
        · exact hne rfl
        · exact h.removed x hx hmem
    · rename_i hremoved
      refine ⟨fun x hx => ?_, fun x hx => ?_⟩
      · rw [IdSet.mem_insert] at hx ⊢
        exact hx.imp id (h.added x)
      · rw [IdSet.mem_insert]
        rintro (rfl | hmem)
        · exact hremoved hx
        · exact h.removed x hx hmem

theorem Coherent.leave (h : g.Coherent) (e : EntityId) : (g.leave e).Coherent := by
  unfold Group.leave
  split
  · rename_i he
    split
    · refine ⟨fun x hx => ?_, fun x hx => ?_⟩
      · rw [IdSet.mem_erase] at hx ⊢
        exact ⟨h.added x hx.1, hx.2⟩
      · rw [IdSet.mem_erase]
        exact fun hmem => h.removed x hx hmem.1
    · rename_i hadded
      refine ⟨fun x hx => ?_, fun x hx => ?_⟩
      · rw [IdSet.mem_erase]
        refine ⟨h.added x hx, ?_⟩
        rintro rfl
        exact hadded hx
      · rw [IdSet.mem_insert] at hx
        rw [IdSet.mem_erase]
        rintro ⟨hmem, hne⟩
        rcases hx with rfl | hx
        · exact hne rfl
        · exact h.removed x hx hmem
  · exact h

theorem Coherent.refresh (h : g.Coherent) (e : EntityId) (accepted : Bool) :
    (g.refresh e accepted).Coherent := by
  cases accepted
  · exact h.leave e
  · exact h.join e

/-- Joining and leaving again is as if nothing had happened. -/
theorem Coherent.leave_join (h : g.Coherent) (he : e ∉ g.members) : (g.join e).leave e = g := by
  have hadded : e ∉ g.added := fun hmem => he (h.added e hmem)
  unfold Group.join
  rw [if_neg he]
  split
  · rename_i hremoved
    unfold Group.leave
    rw [if_pos (IdSet.mem_insert.2 (Or.inl rfl)), if_neg hadded]
    dsimp only
    rw [IdSet.erase_insert_of_not_mem he, IdSet.insert_erase_of_mem hremoved]
  · unfold Group.leave
    rw [if_pos (IdSet.mem_insert.2 (Or.inl rfl)), if_pos (IdSet.mem_insert.2 (Or.inl rfl))]
    dsimp only
    rw [IdSet.erase_insert_of_not_mem he, IdSet.erase_insert_of_not_mem hadded]

/-- Leaving and joining again is as if nothing had happened. -/
theorem Coherent.join_leave (h : g.Coherent) (he : e ∈ g.members) : (g.leave e).join e = g := by
  have hremoved : e ∉ g.removed := fun hmem => h.removed e hmem he
  have hgone : e ∉ g.members.erase e := fun hmem => (IdSet.mem_erase.1 hmem).2 rfl
  unfold Group.leave
  rw [if_pos he]
  split
  · rename_i hadded
    unfold Group.join
    rw [if_neg hgone, if_neg hremoved]
    dsimp only
    rw [IdSet.insert_erase_of_mem he, IdSet.insert_erase_of_mem hadded]
  · unfold Group.join
    rw [if_neg hgone, if_pos (IdSet.mem_insert.2 (Or.inl rfl))]
    dsimp only
    rw [IdSet.insert_erase_of_mem he, IdSet.erase_insert_of_not_mem hremoved]

/-- Of two tests of the same entity only the second counts. -/
theorem Coherent.refresh_refresh (h : g.Coherent) (e : EntityId) (first second : Bool) :
    (g.refresh e first).refresh e second = g.refresh e second := by
  -- a test that changes nothing is one with the answer that the group knows already
  by_cases he : e ∈ g.members
  · cases first <;> cases second
    · exact leave_of_not_mem fun hmem => (mem_leave.1 hmem).2 rfl
    · show (g.leave e).join e = g.join e
      rw [h.join_leave he, join_of_mem he]
    · show (g.join e).leave e = g.leave e
      rw [join_of_mem he]
    · exact join_of_mem (mem_join.2 (Or.inl rfl))
  · cases first <;> cases second
    · exact leave_of_not_mem fun hmem => (mem_leave.1 hmem).2 rfl
    · show (g.leave e).join e = g.join e
      rw [leave_of_not_mem he]
    · show (g.join e).leave e = g.leave e
      rw [h.leave_join he, leave_of_not_mem he]
    · exact join_of_mem (mem_join.2 (Or.inl rfl))

/-! ## Series of changes -/

/-- A group after some kinds of an entity have changed, one after the other: the entity is tested
if one of them matters. -/
def recheck (g : Group) (e : EntityId) (kinds : List KindId) (holds : KindId → Bool) : Group :=
  if kinds.any g.filter.mentions then g.refresh e (g.filter.accepts holds) else g

@[simp] theorem recheck_nil (g : Group) (e : EntityId) (holds : KindId → Bool) :
    g.recheck e [] holds = g := rfl

theorem kindChanged_eq_recheck (g : Group) (k : KindId) (e : EntityId) (holds : KindId → Bool) :
    g.kindChanged k e holds = g.recheck e [k] holds := by
  unfold kindChanged recheck
  simp

@[simp] theorem filter_recheck (g : Group) (e : EntityId) (kinds : List KindId)
    (holds : KindId → Bool) : (g.recheck e kinds holds).filter = g.filter := by
  unfold recheck
  split
  · exact filter_refresh g e _
  · rfl

theorem recheck_of_not_any {kinds : List KindId} (h : kinds.any g.filter.mentions = false)
    (e : EntityId) (holds : KindId → Bool) : g.recheck e kinds holds = g := by
  rw [recheck, h]
  rfl

/-- Who is a member after some kinds of an entity have changed: the entity itself by the test, and
everybody else, and the entity too if none of the kinds matters, as before. -/
theorem recheck_cases (g : Group) {e : EntityId} {kinds : List KindId}
    {before after : KindId → EntityId → Bool}
    (hsame : ∀ k y, y ≠ e ∨ k ∉ kinds → after k y = before k y) (x : EntityId) :
    (x = e ∧ kinds.any g.filter.mentions = true ∧
      (x ∈ (g.recheck e kinds fun k => after k e).members ↔
        g.filter.accepts (fun k => after k x) = true)) ∨
    ((x ∈ (g.recheck e kinds fun k => after k e).members ↔ x ∈ g.members) ∧
      g.filter.accepts (fun k => after k x) = g.filter.accepts fun k => before k x) := by
  cases hany : kinds.any g.filter.mentions with
  | false =>
      -- nothing that the filter mentions has changed
      refine Or.inr ⟨by rw [recheck_of_not_any hany], Filter.accepts_congr fun k hk => ?_⟩
      apply hsame
      refine Or.inr fun hmem => ?_
      rw [List.any_eq_false] at hany
      exact hany k hmem hk
  | true =>
      unfold recheck
      rw [hany, if_pos rfl, mem_refresh]
      by_cases hx : x = e
      · subst hx
        exact Or.inl ⟨rfl, rfl, by simp⟩
      · refine Or.inr ⟨by simp [hx], Filter.accepts_congr fun k _ => ?_⟩
        exact hsame k x (Or.inl hx)

theorem Coherent.recheck (h : g.Coherent) (e : EntityId) (kinds : List KindId)
    (holds : KindId → Bool) : (g.recheck e kinds holds).Coherent := by
  unfold Group.recheck
  split
  · exact h.refresh e _
  · exact h

/-- Two series of changes are one, if in between the entity held the same kinds as in the end but
for those that changed in the second series. -/
theorem Coherent.recheck_recheck (h : g.Coherent) (e : EntityId) (first second : List KindId)
    {before after : KindId → Bool} (hsame : ∀ k, k ∉ second → before k = after k) :
    (g.recheck e first before).recheck e second after = g.recheck e (first ++ second) after := by
  unfold Group.recheck
  rw [List.any_append]
  cases hsecond : second.any g.filter.mentions with
  | true =>
      cases hfirst : first.any g.filter.mentions with
      | true =>
          rw [if_pos rfl, filter_refresh, hsecond, if_pos rfl, h.refresh_refresh]
          rfl
      | false =>
          rw [if_neg Bool.false_ne_true, hsecond]
          rfl
  | false =>
      -- the second series matters to nobody, so the first test still stands
      have haccepts : g.filter.accepts before = g.filter.accepts after := by
        apply Filter.accepts_congr
        intro k hk
        apply hsame
        intro hmem
        rw [List.any_eq_false] at hsecond
        exact hsecond k hmem hk
      cases hfirst : first.any g.filter.mentions with
      | true =>
          rw [if_pos rfl, filter_refresh, hsecond, if_neg Bool.false_ne_true, haccepts]
          rfl
      | false =>
          rw [if_neg Bool.false_ne_true, hsecond]
          rfl

end Group

end EntityStore
