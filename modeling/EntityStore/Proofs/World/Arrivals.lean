import EntityStore.Proofs.World.Entities

/-!
# Entities that have just been made

What the stores have come to when an entity was made, and why one is refused.

* `stores_of_create`: when an entity was made, the store of each listed kind has taken it, and no
  other kind has changed.
* `refusal_of_create`: if a store refuses an entity, then for want of room.
-/

namespace EntityStore

variable [Host]

namespace World

variable {w v : World} {m : ManagerId} {e : EntityId} {kinds : List KindId}

/-! ## The stores of a new entity -/

theorem length_kinds_addHolder (w : World) (k : KindId) (e : EntityId) :
    (w.addHolder k e).1.kinds.length = w.kinds.length := by
  have hset : ∀ store, (w.setStore k store).kinds.length = w.kinds.length :=
    fun store => List.length_modify _ _ _
  unfold addHolder
  dsimp only
  split
  · exact hset _
  · rw [kinds_informGroups]
    exact hset _

/-- What the store of a kind answers, and what it has come to. -/
theorem insert_of_addHolder {k : KindId} (hk : k.place < w.kinds.length)
    {result : Except StoreError Unit} (h : w.addHolder k e = (v, result)) :
    (w.kind k).store.insert Host.machine e = ((v.kind k).store, result) := by
  cases hresult : (w.kind k).store.insert Host.machine e with
  | mk store answer =>
      cases answer with
      | error cause =>
          rw [addHolder_of_error hresult] at h
          cases h
          rw [kind_setStore, if_pos ⟨rfl, hk⟩]
      | ok done =>
          rw [addHolder_of_ok hresult] at h
          cases h
          rw [kind_informGroups, kind_setStore, if_pos ⟨rfl, hk⟩]

/-- When all of the kinds are given, each store has taken the entity as if it had been asked alone,
and no other kind has changed. -/
theorem stores_of_equip (hdistinct : kinds.Nodup) (hmade : ∀ k ∈ kinds, k.place < w.kinds.length)
    {given : List KindId} (h : w.equip e given kinds = (v, .ok ())) :
    (∀ k ∈ kinds, (w.kind k).store.insert Host.machine e = ((v.kind k).store, .ok ())) ∧
      ∀ k, k ∉ kinds → v.kind k = w.kind k := by
  induction kinds generalizing w given with
  | nil =>
      cases h
      exact ⟨nofun, fun _ _ => rfl⟩
  | cons k rest ih =>
      obtain ⟨hfirst, hrest⟩ := List.nodup_cons.1 hdistinct
      cases hresult : w.addHolder k e with
      | mk u result =>
          cases result with
          | error cause =>
              rw [equip_cons_error hresult] at h
              cases h
          | ok done =>
              rw [equip_cons_ok hresult] at h
              have hlength := length_kinds_addHolder w k e
              rw [hresult] at hlength
              obtain ⟨htaken, hothers⟩ := ih hrest
                (fun j hj => by rw [hlength]; exact hmade j (List.mem_cons_of_mem k hj)) h
              refine ⟨fun j hj => ?_, fun j hj => ?_⟩
              · rcases List.mem_cons.1 hj with rfl | hmem
                · rw [hothers j hfirst]
                  exact insert_of_addHolder (hmade j List.mem_cons_self) hresult
                · have hjk : j ≠ k := fun heq => hfirst (heq ▸ hmem)
                  rw [← kind_of_addHolder hjk hresult]
                  exact htaken j hmem
              · rw [List.mem_cons, not_or] at hj
                rw [hothers j hj.2, kind_of_addHolder hj.1 hresult]

/-- When an entity was made, the store of each listed kind has taken it, and no other kind has
changed. -/
theorem stores_of_create (hw : w.Wired) (h : w.create m kinds = (v, .ok e)) :
    (∀ k ∈ kinds, k ∈ (w.manager m).kinds ∧
      (w.kind k).store.insert Host.machine e = ((v.kind k).store, .ok ())) ∧
      ∀ k, k ∉ kinds → v.kind k = w.kind k := by
  have hcreation := creation w m kinds
  rw [h] at hcreation
  cases hcreation with
  | made e a u hmade hallocate hregistered hdistinct hequip =>
      have hplaced : ∀ k ∈ kinds, k.place < w.kinds.length := by
        intro k hk
        obtain ⟨number, hattachment⟩ := hw.attached m k (hregistered k hk)
        exact lt_length_of_attachment hattachment
      obtain ⟨htaken, hothers⟩ := stores_of_equip (w := w.withAllocator m a) hdistinct hplaced hequip
      exact ⟨fun k hk => ⟨hregistered k hk, htaken k hk⟩, hothers⟩

/-! ## Refusals -/

/-- An entity with a valid id that holds none of the kinds is refused by a store for want of room
only, or because a property that was refused has spoilt the template. -/
theorem refusal_of_equip (hpacked : w.Packed) (hvalid : e.IsValid) (hdistinct : kinds.Nodup)
    (hnone : ∀ k ∈ kinds, w.holds k e = false) {given : List KindId} {cause : StoreError}
    (h : w.equip e given kinds = (v, .error cause)) :
    (∃ name requested, cause = .capacityOverflow name requested) ∨
      ∃ name, cause = .templateMisfit name := by
  induction kinds generalizing w given with
  | nil => cases h
  | cons k rest ih =>
      obtain ⟨hfirst, hrest⟩ := List.nodup_cons.1 hdistinct
      cases hresult : w.addHolder k e with
      | mk u result =>
          cases result with
          | error reason =>
              -- the store of this kind has refused
              rw [equip_cons_error hresult] at h
              obtain rfl := Except.error.inj (Prod.mk.inj h).2
              have hstep := Store.insert_inserted (hpacked k) Host.machine e
              rw [← addHolder_answer, hresult] at hstep
              rcases hstep.refusal hvalid (holds_eq_false.1 (hnone k List.mem_cons_self)) with
                ⟨requested, hcause⟩ | hcause
              · exact Or.inl ⟨_, requested, hcause⟩
              · exact Or.inr ⟨_, hcause⟩
          | ok done =>
              rw [equip_cons_ok hresult] at h
              refine ih (packed_of_addHolder hpacked hresult) hrest (fun j hj => ?_) h
              have hjk : j ≠ k := fun heq => hfirst (heq ▸ hj)
              unfold holds
              rw [kind_of_addHolder hjk hresult]
              exact hnone j (List.mem_cons_of_mem k hj)

/-- If those who are not live hold no kind of the manager, a new entity is refused for want of room
only, or because a property that was refused has spoilt a template. -/
theorem refusal_of_create (hpacked : w.Packed) (hrange : (w.manager m).allocator.InRange)
    (hbare : ∀ k ∈ (w.manager m).kinds, ∀ x, w.isAlive m x = false → w.holds k x = false)
    {cause : StoreError} (h : w.create m kinds = (v, .error (.store cause))) :
    (∃ name requested, cause = .capacityOverflow name requested) ∨
      ∃ name, cause = .templateMisfit name := by
  have hcreation := creation w m kinds
  rw [h] at hcreation
  cases hcreation with
  | refused cause hcause => exact absurd rfl (hcause _)
  | undone e a u cause hmade hallocate hregistered hdistinct hequip =>
      have hdead : w.isAlive m e = false := decide_eq_false (Allocator.allocate_eq_ok hallocate).1
      exact refusal_of_equip (w := w.withAllocator m a) hpacked (hrange.allocate hallocate).1
        hdistinct (fun k hk => hbare k (hregistered k hk) e hdead) hequip

end World

end EntityStore
