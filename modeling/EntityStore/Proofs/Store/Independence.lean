import EntityStore.Proofs.Store.Stored

/-!
# What a change of one holder depends on

Two stores of one kind may have come about in different ways: their blocks stand at different
places, and their buffers differ in length.  What an insertion or a removal answers and what it
leaves for its entity depends on none of this, as long as there is memory for the buffer.

* `Agrees`: in two stores of one shape the same is kept for an entity.
* `Agrees.insert`, `Agrees.remove`: insertions of that entity answer the same and leave the same for
  it, and so do removals.
-/

namespace EntityStore

variable [CustomTypes]

/-- A refusal for want of memory. -/
def StoreError.isOverflow : StoreError → Bool
  | capacityOverflow _ _ => true
  | _ => false

namespace Store

variable {s t s' t' : Store} {machine : Machine} {e : EntityId} {answer : Except StoreError Unit}

theorem SameShape.symm (h : SameShape s t) : SameShape t s :=
  ⟨h.name.symm, h.layout.symm, h.sides.symm⟩

/-- In two stores of one shape the same is kept for an entity. -/
structure Agrees (s t : Store) (e : EntityId) : Prop where
  shape : SameShape s t
  same : Undisturbed s t e

theorem Agrees.trans {u : Store} (h : Agrees s t e) (g : Agrees t u e) : Agrees s u e :=
  ⟨h.shape.trans g.shape, h.same.trans g.same⟩

theorem SameShape.exists_side (h : SameShape s t) {i : Nat} {values : IdMap TypedValue}
    (hvalues : s.sides[i]? = some values) : ∃ others, t.sides[i]? = some others := by
  have hi := (List.getElem?_eq_some_iff.1 hvalues).1
  rw [← h.sides] at hi
  exact ⟨_, List.getElem?_eq_getElem hi⟩

theorem Agrees.symm (h : Agrees s t e) : Agrees t s e where
  shape := h.shape.symm
  same :=
    { held := h.same.held.symm
      home := h.same.home.symm
      sides := by
        intro i values hvalues
        obtain ⟨others, hothers⟩ := h.shape.symm.exists_side hvalues
        obtain ⟨found, hfound, hlookup⟩ := h.same.sides i others hothers
        rw [hvalues] at hfound
        obtain rfl := Option.some.inj hfound
        exact ⟨others, hothers, hlookup.symm⟩ }

theorem Agrees.get_eq (h : Agrees s t e) (hs : s.Packed) (ht : t.Packed) (p : Property) :
    p.get t e = p.get s e :=
  h.same.get_eq hs ht h.shape p

/-! ## Who holds nothing -/

theorem home_of_missing (he : e ∉ s.holders) : s.home e = none := by
  unfold home
  cases hplace : s.index.lookup e with
  | none => rfl
  | some place => exact absurd (mem_holders.2 (by rw [hplace]; rfl)) he

/-- Nothing is kept for an entity that does not hold the kind. -/
theorem unset_of_missing (h : s.Packed) (he : e ∉ s.holders) {i : Nat} {values : IdMap TypedValue}
    (hvalues : s.sides[i]? = some values) : values.lookup e = none := by
  cases hlookup : values.lookup e with
  | none => rfl
  | some v =>
      have hsided := h.sided values (List.mem_of_getElem? hvalues) e (by rw [hlookup]; rfl)
      exact absurd hsided he

/-- Stores agree on an entity that has no values of its own in the side maps of either, if it holds
the kind in both or in neither and its blocks are the same. -/
theorem agrees_of_unset (hshape : SameShape s t) (hheld : e ∈ t.holders ↔ e ∈ s.holders)
    (hhome : t.home e = s.home e)
    (hs : ∀ {i : Nat} {values}, s.sides[i]? = some values → values.lookup e = none)
    (ht : ∀ {i : Nat} {values}, t.sides[i]? = some values → values.lookup e = none) :
    Agrees s t e where
  shape := hshape
  same :=
    { held := hheld
      home := hhome
      sides := by
        intro i values hvalues
        obtain ⟨others, hothers⟩ := hshape.exists_side hvalues
        exact ⟨others, hothers, (ht hothers).trans (hs hvalues).symm⟩ }

/-- Stores agree on what they do not keep. -/
theorem agrees_of_missing (hs : s.Packed) (ht : t.Packed) (hshape : SameShape s t)
    (hsMissing : e ∉ s.holders) (htMissing : e ∉ t.holders) : Agrees s t e := by
  refine agrees_of_unset hshape (iff_of_false htMissing hsMissing) ?_ ?_ ?_
  · exact (home_of_missing htMissing).trans (home_of_missing hsMissing).symm
  · exact unset_of_missing hs hsMissing
  · exact unset_of_missing ht htMissing

/-! ## Insertions -/

/-- What an insertion answers unless it wants for memory. -/
def verdict (s : Store) (e : EntityId) : Except StoreError Unit :=
  if ¬ e.IsValid then .error (.invalidEntity e)
  else if e ∈ s.holders then .error (.duplicateComponent s.name e)
  else if s.layout.hasFixedStorage = true ∧ s.layout.template.length ≠ s.layout.blockSize then
    .error (.templateMisfit s.name)
  else .ok ()

theorem Inserted.eq_verdict (hstep : Inserted machine s e s' answer)
    (hmemory : ∀ cause, answer = .error cause → cause.isOverflow = false) :
    answer = s.verdict e := by
  unfold verdict
  cases hstep with
  | invalid hinvalid => simp [hinvalid]
  | held hvalid hheld => simp [hvalid, hheld]
  | full _ _ requested => exact absurd (hmemory _ rfl) nofun
  | misfit hvalid hnew hfixed _ _ htemplate => simp [hvalid, hnew, hfixed, htemplate]
  | noted hvalid hnew hunfixed => simp [hvalid, hnew, hunfixed]
  | placed hvalid hnew _ htemplate => simp [hvalid, hnew, htemplate]

theorem Agrees.verdict_eq (h : Agrees s t e) : t.verdict e = s.verdict e := by
  unfold verdict
  simp only [h.shape.name, h.shape.layout, h.same.held]

/-- A new holder has nothing but a copy of the template. -/
theorem home_of_new (hs : s.Packed) (hstep : Inserted machine s e s' (.ok ())) :
    s'.home e = if s.layout.hasFixedStorage then some (s.freshBlock e) else none := by
  cases hfixed : s.layout.hasFixedStorage with
  | true => exact home_of_inserted hs hstep hfixed
  | false =>
      cases hstep with
      | placed _ _ hblocks => exact absurd (hfixed.symm.trans hblocks) Bool.false_ne_true
      | noted =>
          show ((s.index.insert e none).lookup e).bind _ = none
          rw [IdMap.lookup_insert, if_pos rfl]
          rfl

theorem unset_of_new (hs : s.Packed) (hstep : Inserted machine s e s' (.ok ())) {i : Nat}
    {values : IdMap TypedValue} (hvalues : s'.sides[i]? = some values) :
    values.lookup e = none := by
  rw [hstep.frame.2.2.1] at hvalues
  exact unset_of_missing hs hstep.valid_and_new.2 hvalues

/-- Insertions that answer the same leave the same for the entity, wherever they put it. -/
theorem Agrees.inserted (h : Agrees s t e) (hs : s.Packed) (ht : t.Packed)
    (hstep : Inserted machine s e s' answer) (hother : Inserted machine t e t' answer) :
    Agrees s' t' e := by
  have hshape : SameShape s' t' := hstep.sameShape.symm.trans (h.shape.trans hother.sameShape)
  cases answer with
  | error cause =>
      have hleft : Agrees s s' e := ⟨hstep.sameShape, undisturbed_refused hs hstep e⟩
      have hright : Agrees t t' e := ⟨hother.sameShape, undisturbed_refused ht hother e⟩
      exact hleft.symm.trans (h.trans hright)
  | ok done =>
      have hblock : t.freshBlock e = s.freshBlock e := by
        unfold freshBlock
        rw [h.shape.layout]
      refine agrees_of_unset hshape ?_ ?_ (unset_of_new hs hstep) (unset_of_new ht hother)
      · exact iff_of_true ((hother.mem_holders ht e).2 (Or.inr ⟨rfl, rfl⟩))
          ((hstep.mem_holders hs e).2 (Or.inr ⟨rfl, rfl⟩))
      · rw [home_of_new ht hother, home_of_new hs hstep, h.shape.layout, hblock]

/-- Two insertions of an entity for which the stores agree: neither wants for memory, so they answer
the same and leave the same. -/
theorem Agrees.insert (h : Agrees s t e) (hs : s.Packed) (ht : t.Packed)
    (hsMemory : ∀ cause, (s.insert machine e).2 = .error cause → cause.isOverflow = false)
    (htMemory : ∀ cause, (t.insert machine e).2 = .error cause → cause.isOverflow = false) :
    (t.insert machine e).2 = (s.insert machine e).2 ∧
      Agrees (s.insert machine e).1 (t.insert machine e).1 e := by
  have hstep := insert_inserted hs machine e
  have hother := insert_inserted ht machine e
  have hsame : (t.insert machine e).2 = (s.insert machine e).2 := by
    rw [hstep.eq_verdict hsMemory, hother.eq_verdict htMemory, h.verdict_eq]
  rw [hsame] at hother
  exact ⟨hsame, h.inserted hs ht hstep hother⟩

/-! ## Removals -/

/-- After a removal nothing is kept for the entity, wherever it stood. -/
theorem Agrees.remove (h : Agrees s t e) (hs : s.Packed) (ht : t.Packed) (machine : Machine) :
    (t.remove machine e).2 = (s.remove machine e).2 ∧
      Agrees (s.remove machine e).1 (t.remove machine e).1 e := by
  refine ⟨?_, ?_⟩
  · rw [remove_answer, remove_answer, Bool.eq_iff_iff, contains_eq_true, contains_eq_true]
    exact h.same.held
  · have hgone : ∀ u : Store, u.Packed → e ∉ (u.remove machine e).1.holders :=
      fun u hu hmem => ((mem_holders_remove hu machine e e).1 hmem).2 rfl
    apply agrees_of_missing (packed_remove hs machine e) (packed_remove ht machine e)
    · exact (sameShape_remove s machine e).symm.trans (h.shape.trans (sameShape_remove t machine e))
    · exact hgone s hs
    · exact hgone t ht

end Store

end EntityStore
