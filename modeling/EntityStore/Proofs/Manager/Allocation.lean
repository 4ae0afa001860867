import EntityStore.Manager.Allocator

/-!
# What an allocation does

An allocation finds an id that is not live, marks it live and remembers it as issued last; when it
fails it says how many ids are live.

* `allocate_eq_ok`, `allocate_eq_error`: the two outcomes.
* `Ranged`: the live ids and the id that was issued last lie in the range.  Allocations and releases
  keep that, whatever the range is.
* `InRange`: the range itself has valid ids only, and so every issued id is valid.
-/

namespace EntityStore

namespace Allocator

variable {a b : Allocator} {e : EntityId}

theorem not_mem_of_search {tries : Nat} {candidate : EntityId}
    (h : a.search tries candidate = some e) : e ∉ a.live := by
  induction tries generalizing candidate with
  | zero => cases h
  | succ tries ih =>
      unfold search at h
      split at h
      · exact ih h
      · rename_i hfree
        obtain rfl := Option.some.inj h
        exact hfree

/-- An allocation issues what its search finds. -/
theorem search_of_allocate (h : a.allocate = .ok (e, b)) :
    a.search (a.live.size + 1) a.start = some e ∧
      b = { a with lastIssued := some e, live := a.live.insert e } := by
  unfold allocate at h
  dsimp only at h
  split at h
  · cases h
  · split at h
    · cases h
    · rename_i hfound
      cases h
      exact ⟨hfound, rfl⟩

/-- An issued id was free and is live. -/
theorem allocate_eq_ok (h : a.allocate = .ok (e, b)) :
    e ∉ a.live ∧ b = { a with lastIssued := some e, live := a.live.insert e } := by
  obtain ⟨hfound, hb⟩ := search_of_allocate h
  exact ⟨not_mem_of_search hfound, hb⟩

theorem allocate_eq_error {cause : ManagerError} (h : a.allocate = .error cause) :
    cause = .idsExhausted a.live.size := by
  unfold allocate at h
  dsimp only at h
  split at h
  · cases h
    rfl
  · split at h
    · cases h
      rfl
    · cases h

/-! ## Ids in the range -/

theorem following_mem (hordered : a.first ≤ a.last) (he : a.first ≤ e) :
    a.first ≤ a.following e ∧ a.following e ≤ a.last := by
  unfold following
  split
  · rename_i hlt
    exact ⟨Nat.le_succ_of_le he, hlt⟩
  · exact ⟨Nat.le_refl _, hordered⟩

theorem start_mem (hordered : a.first ≤ a.last) (hissued : ∀ e, a.lastIssued = some e → a.first ≤ e) :
    a.first ≤ a.start ∧ a.start ≤ a.last := by
  unfold start
  split
  · rename_i e hlast
    exact following_mem hordered (hissued e hlast)
  · exact ⟨Nat.le_refl _, hordered⟩

/-- A search that starts in the range ends in it. -/
theorem search_mem (hordered : a.first ≤ a.last) {tries : Nat} {candidate : EntityId}
    (hcandidate : a.first ≤ candidate ∧ candidate ≤ a.last)
    (hfound : a.search tries candidate = some e) : a.first ≤ e ∧ e ≤ a.last := by
  induction tries generalizing candidate with
  | zero => cases hfound
  | succ tries ih =>
      unfold search at hfound
      split at hfound
      · exact ih (following_mem hordered hcandidate.1) hfound
      · obtain rfl := Option.some.inj hfound
        exact hcandidate

/-- The ids that an allocator knows lie in its range. -/
structure Ranged (a : Allocator) : Prop where
  /-- There is a range. -/
  ordered : a.first ≤ a.last
  /-- The id that was issued last lies in it. -/
  issued : ∀ e, a.lastIssued = some e → a.first ≤ e ∧ e ≤ a.last
  /-- So do the live ids. -/
  live : ∀ e ∈ a.live, a.first ≤ e ∧ e ≤ a.last

theorem ranged_ofConfig {c : ManagerConfig} (h : c.first ≤ c.last) : (ofConfig c).Ranged where
  ordered := h
  issued _ := nofun
  live e he := absurd he (IdSet.not_mem_empty e)

/-- An issued id lies in the range. -/
theorem Ranged.mem_of_allocate (h : a.Ranged) (hallocate : a.allocate = .ok (e, b)) :
    a.first ≤ e ∧ e ≤ a.last :=
  search_mem h.ordered (start_mem h.ordered fun x hx => (h.issued x hx).1)
    (search_of_allocate hallocate).1

theorem Ranged.allocate (h : a.Ranged) (hallocate : a.allocate = .ok (e, b)) : b.Ranged := by
  have hrange := h.mem_of_allocate hallocate
  obtain ⟨-, rfl⟩ := allocate_eq_ok hallocate
  refine ⟨h.ordered, ?_, ?_⟩
  · intro x hx
    obtain rfl := Option.some.inj hx
    exact hrange
  · intro x hx
    rcases IdSet.mem_insert.1 hx with rfl | hold
    · exact hrange
    · exact h.live x hold

theorem Ranged.release (h : a.Ranged) (e : EntityId) : (a.release e).1.Ranged where
  ordered := h.ordered
  issued := h.issued
  live x hx := h.live x (IdSet.mem_erase.1 hx).1

/-! ## Valid ids -/

/-- The ids of the range are valid, and the id that was issued last is one of them. -/
structure InRange (a : Allocator) : Prop where
  positive : 0 < a.first
  ordered : a.first ≤ a.last
  bounded : a.last ≤ EntityId.ceiling
  issued : ∀ e, a.lastIssued = some e → a.first ≤ e ∧ e ≤ a.last

/-- An issued id is valid, and so is the next one. -/
theorem InRange.allocate (h : a.InRange) (hallocate : a.allocate = .ok (e, b)) :
    e.IsValid ∧ b.InRange := by
  obtain ⟨hfound, rfl⟩ := search_of_allocate hallocate
  have hstart := start_mem h.ordered fun x hx => (h.issued x hx).1
  have hrange := search_mem h.ordered hstart hfound
  refine ⟨⟨?_, Nat.le_trans hrange.2 h.bounded⟩, h.positive, h.ordered, h.bounded, ?_⟩
  · exact Nat.ne_of_gt (Nat.lt_of_lt_of_le h.positive hrange.1)
  · intro x hx
    obtain rfl := Option.some.inj hx
    exact hrange

theorem InRange.release (h : a.InRange) (e : EntityId) : (a.release e).1.InRange :=
  ⟨h.positive, h.ordered, h.bounded, h.issued⟩

theorem inRange_ofConfig {c : ManagerConfig} (h : c.validate = .ok ()) : (ofConfig c).InRange := by
  have hsound : c.violation? = none := by
    unfold ManagerConfig.validate at h
    split at h
    · cases h
    · assumption
  unfold ManagerConfig.violation? at hsound
  dsimp only at hsound
  split at hsound
  · cases hsound
  · rename_i hpositive
    split at hsound
    · cases hsound
    · rename_i hordered
      split at hsound
      · cases hsound
      · rename_i hbounded
        exact ⟨Nat.pos_of_ne_zero hpositive, Nat.le_of_not_lt hordered, Nat.le_of_not_lt hbounded,
          nofun⟩

end Allocator

end EntityStore
