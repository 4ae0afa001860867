import EntityStore.Proofs.Store.Capacity
import EntityStore.Proofs.Store.Defaults

/-!
# Admitting a holder

An insertion makes room before it looks for a free block, and room is made by numbers that were
rounded and cut to a machine word.  However they come out, a buffer that could be allocated has a
free block: either it was not full, or it is larger than it was.  So want of memory is the only
thing that keeps a valid id out of a kind that it does not hold, and it is found before anything
has been changed.

* `Reached.fitted`: without a declaration that was refused for its default the template is a block.
* `count_lt_of_reserve`, `exists_free`: after a reservation there are more blocks than holders, and
  so a free one.
* `insert_admits`: an insertion is refused for one of the listed causes, and leaves the store alone
  then.
-/

namespace EntityStore

variable [CustomTypes]

/-! ## Templates -/

/-- The template is as long as a block. -/
def Layout.Fitted (l : Layout) : Prop := l.template.length = l.blockSize

namespace Layout

variable {l next : Layout} {kind name : String} {type : ValueType} {default : type.Carrier}
  {answer : Except StoreError Slot}

theorem fitted_empty : Layout.empty.Fitted := rfl

/-- A declaration of fixed width brings the template to the length of a block, whatever its length
was before. -/
theorem fitted_of_write {width : Nat} {template : List UInt8} {slot : Slot}
    (hwrite : type.write default (l.room width) (headerSize + l.dataSize) = (template, true)) :
    ({ l.declare name type default slot with
      dataSize := l.dataSize + width, template := template } : Layout).Fitted := by
  show template.length = headerSize + (l.dataSize + width)
  have hlength := type.length_write default (l.room width) (headerSize + l.dataSize)
  rw [hwrite, room, length_resizeBytes] at hlength
  exact hlength.trans (Nat.add_assoc _ _ _)

/-- A declaration that is not refused for its default leaves a template of the right length. -/
theorem Fitted.pushed (h : l.Fitted) (hpush : Pushed l kind name type default next answer)
    (hencodes : ∀ property expected, answer ≠ .error (.valueTypeMismatch property expected)) :
    next.Fitted := by
  cases hpush with
  | taken => exact h
  | packed _ width _ template hwrite => exact fitted_of_write hwrite
  | refused => exact absurd rfl (hencodes name type.name)
  | side => exact h

end Layout

namespace Store

variable {machine : Machine} {s t roomy : Store} {e : EntityId}

theorem Reached.fitted (h : Reached machine s) : s.layout.Fitted := by
  induction h with
  | fresh => exact Layout.fitted_empty
  | @addField s _ name type default hencodes ih =>
      rcases addField_pushed s name type default with hclosed | ⟨next, answer, sides, hpush, hadd, -⟩
      · rw [hclosed]
        exact ih
      · rw [hadd] at hencodes ⊢
        exact ih.pushed hpush hencodes
  | @insert s hs e ih =>
      rw [(insert_inserted hs.packed machine e).sameShape.layout]
      exact ih
  | @remove s _ e ih =>
      rw [(sameShape_remove s machine e).layout]
      exact ih
  | @writePacked s hs type e offset x property ih =>
      rw [(rewritten_writePacked hs.packed type e offset x property).sameShape.layout]
      exact ih
  | @writeSide s _ type e side x property ih =>
      rw [(rewritten_writeSide s type e side x property).sameShape.layout]
      exact ih

/-! ## Room for one more -/

/-- A reservation fails exactly if the wanted blocks do not fit into the memory. -/
theorem reserve_eq_error_iff {cause : StoreError} :
    s.reserve machine = .error cause ↔ ∃ wanted, s.wantedCapacity? machine = some wanted ∧
      machine.memory < wanted * s.layout.blockSize ∧
        cause = .capacityOverflow s.name wanted := by
  unfold reserve
  cases s.wantedCapacity? machine with
  | none => exact iff_of_false nofun nofun
  | some wanted =>
      dsimp only
      by_cases hfits : wanted * s.layout.blockSize ≤ machine.memory
      · rw [if_pos hfits]
        refine iff_of_false nofun ?_
        rintro ⟨other, hother, hmemory, -⟩
        obtain rfl := Option.some.inj hother
        omega
      · rw [if_neg hfits]
        constructor
        · intro hcause
          exact ⟨wanted, rfl, by omega, (Except.error.inj hcause).symm⟩
        · rintro ⟨other, hother, -, rfl⟩
          obtain rfl := Option.some.inj hother
          rfl

/-- The growth of a buffer comes to one block at least, unless it has come to the largest count. -/
theorem lt_of_wanted {wanted : Nat} (hwanted : s.wantedCapacity? machine = some wanted)
    (hcount : wanted < maxCount) : s.capacity < wanted := by
  unfold wantedCapacity? at hwanted
  split at hwanted
  · obtain rfl := Option.some.inj hwanted
    omega
  · split at hwanted
    · obtain rfl := Option.some.inj hwanted
      have hgrown : min (s.capacity + 1) maxCount ≤
          s.config.grown machine.rounding s.capacity := Nat.le_max_right _ _
      omega
    · cases hwanted

/-- A buffer for which no growth is wanted has more blocks than holders. -/
theorem count_lt_of_unwanted (hwanted : s.wantedCapacity? machine = none) :
    s.count < s.capacity := by
  unfold wantedCapacity? at hwanted
  split at hwanted
  · cases hwanted
  · split at hwanted
    · cases hwanted
    · rename_i hroom
      simp only [StoreConfig.isFull, Bool.or_eq_true, decide_eq_true_eq, not_or] at hroom
      omega

/-- After a reservation there are more blocks than holders, where no buffer exceeds the addressable
memory. -/
theorem count_lt_of_reserve (h : s.Packed) (hfixed : s.layout.hasFixedStorage = true)
    (hmemory : machine.memory ≤ maxBufferBytes) (hroomy : s.reserve machine = .ok roomy) :
    s.count < roomy.capacity := by
  have hroomed := roomed_of_reserve hroomy
  generalize roomy.capacity = n at hroomed
  cases hroomed with
  | same hnone => exact count_lt_of_unwanted hnone
  | more wanted hwanted hfits =>
      -- what fits into the memory is no saturated number
      have hblock : 1 ≤ s.layout.blockSize := Nat.le_add_right_of_le (by decide)
      have haddressed : wanted ≤ wanted * s.layout.blockSize := Nat.le_mul_of_pos_right _ hblock
      have hlimit : maxBufferBytes < maxCount := by decide
      have hgrown := lt_of_wanted hwanted (by omega)
      have hhoused := h.count_le_capacity hfixed
      omega

/-- A buffer with more blocks than holders has a free one. -/
theorem Packed.exists_free (h : s.Packed) (hfixed : s.layout.hasFixedStorage = true)
    (hroom : s.count < s.capacity) : ∃ i, s.isFreeAt i = true := by
  by_cases hall : ∀ b ∈ s.blocks, b.isOccupied = true
  · -- every block would be that of a holder
    have hkept := h.length_kept hfixed
    rw [filter_occupiedRange h.highest, List.filter_eq_self.2 hall] at hkept
    unfold capacity at hroom
    omega
  · simp only [Classical.not_forall, Bool.not_eq_true] at hall
    obtain ⟨b, hb, hfree⟩ := hall
    obtain ⟨i, hi⟩ := List.mem_iff_getElem?.1 hb
    refine ⟨i, isFreeAt_iff.2 ⟨(List.getElem?_eq_some_iff.1 hi).1, ?_⟩⟩
    rw [holderIn_of_getElem? hi, Block.holder?_eq_none]
    simpa [Block.isOccupied] using hfree

/-- The search that follows a reservation finds a free block. -/
theorem nearestFree_of_reserve (h : s.Packed) (hfixed : s.layout.hasFixedStorage = true)
    (hmemory : machine.memory ≤ maxBufferBytes) (hroomy : s.reserve machine = .ok roomy)
    (e : EntityId) :
    ∃ free, roomy.freeze.nearestFree (roomy.freeze.preferredIndex e) = some free ∧
      roomy.freeze.isFreeAt free = true := by
  have hroom := count_lt_of_reserve h hfixed hmemory hroomy
  have hpacked := packed_reserve h hfixed hroomy
  obtain ⟨n, hshape, -⟩ := reserve_eq_ok hroomy
  have hlayout : roomy.freeze.layout = s.layout := by rw [hshape]; rfl
  have hcount : roomy.freeze.count = s.count := by rw [hshape]; rfl
  obtain ⟨i, hi⟩ := hpacked.exists_free (by rw [hlayout]; exact hfixed) (by rw [hcount]; exact hroom)
  obtain ⟨free, hfree⟩ := Option.isSome_iff_exists.1
    (nearestFree_isSome (preferredIndex_le_capacity e) hi)
  exact ⟨free, hfree, (nearestFree_eq_some hfree).1⟩

/-! ## Admission -/

/-- What keeps an entity from becoming a holder. -/
inductive Barred (machine : Machine) (s : Store) (e : EntityId) : StoreError → Prop where
  /-- The number is not an id: it is zero or past the ceiling. -/
  | invalid (hinvalid : e = 0 ∨ 2147483647 < e) : Barred machine s e (.invalidEntity e)
  /-- The entity holds the kind already. -/
  | held (hvalid : e.IsValid) (hheld : e ∈ s.holders) :
      Barred machine s e (.duplicateComponent s.name e)
  /-- The buffer has to grow, and the memory does not suffice for as many blocks. -/
  | full (hvalid : e.IsValid) (hnew : e ∉ s.holders) (hfixed : s.layout.hasFixedStorage = true)
      (wanted : Nat) (hwanted : s.wantedCapacity? machine = some wanted)
      (hmemory : machine.memory < wanted * s.layout.blockSize) :
      Barred machine s e (.capacityOverflow s.name wanted)

/-- How an insertion ends. -/
structure Admits (machine : Machine) (s : Store) (e : EntityId) : Prop where
  /-- It is refused for what keeps the entity out, and for nothing else. -/
  refused : ∀ cause, (s.insert machine e).2 = .error cause ↔ Barred machine s e cause
  /-- A refusal leaves the whole store as it was. -/
  unchanged : ∀ cause, (s.insert machine e).2 = .error cause → (s.insert machine e).1 = s
  /-- Otherwise the entity holds the kind. -/
  held : (s.insert machine e).2 = .ok () → e ∈ (s.insert machine e).1.holders
  /-- Once there is room, the search for a free block finds one. -/
  found : s.layout.hasFixedStorage = true → ∀ roomy, s.reserve machine = .ok roomy →
    ∃ free, roomy.freeze.nearestFree (roomy.freeze.preferredIndex e) = some free ∧
      roomy.freeze.isFreeAt free = true

omit [CustomTypes] in
theorem not_isValid_iff : ¬ e.IsValid ↔ e = 0 ∨ 2147483647 < e := by
  unfold EntityId.IsValid EntityId.absent EntityId.ceiling EntityId at *
  omega

/-- Once there is room for a new holder, only a template of the wrong length is in the way. -/
theorem insert_of_reserve (h : s.Packed) (hmemory : machine.memory ≤ maxBufferBytes)
    (hvalid : e.IsValid) (hnew : e ∉ s.holders) (hfixed : s.layout.hasFixedStorage = true)
    (hroomy : s.reserve machine = .ok roomy) :
    (s.insert machine e).2 = if s.layout.template.length = s.layout.blockSize then .ok ()
      else .error (.templateMisfit s.name) := by
  obtain ⟨free, hfree, -⟩ := nearestFree_of_reserve h hfixed hmemory hroomy e
  obtain ⟨n, hshape, -⟩ := reserve_eq_ok hroomy
  have hlayout : roomy.freeze.layout = s.layout := by rw [hshape]; rfl
  have hname : roomy.freeze.name = s.name := by rw [hshape]; rfl
  unfold insert
  rw [if_neg (not_not_intro hvalid), if_neg (fun hcontains => hnew (contains_eq_true.1 hcontains)),
    if_pos hfixed, hroomy]
  dsimp only
  unfold occupy
  dsimp only
  rw [hfree, hlayout, hname]
  dsimp only
  split <;> rfl

/-- What keeps an entity out is found before anything has been changed. -/
theorem insert_of_barred {cause : StoreError} (h : Barred machine s e cause) :
    s.insert machine e = (s, .error cause) := by
  unfold insert
  cases h with
  | invalid hinvalid => rw [if_pos (not_isValid_iff.2 hinvalid)]
  | held hvalid hheld => rw [if_neg (not_not_intro hvalid), if_pos (contains_eq_true.2 hheld)]
  | full hvalid hnew hfixed wanted hwanted hlarge =>
      rw [if_neg (not_not_intro hvalid), if_neg fun hcontains => hnew (contains_eq_true.1 hcontains),
        if_pos hfixed, reserve_eq_error_iff.2 ⟨wanted, hwanted, hlarge, rfl⟩]

/-- Nothing keeps the entity out: the insertion succeeds. -/
theorem insert_of_not_barred (h : s.Packed) (hfitted : s.layout.Fitted)
    (hmemory : machine.memory ≤ maxBufferBytes) (hfree : ∀ cause, ¬ Barred machine s e cause) :
    (s.insert machine e).2 = .ok () := by
  have hvalid : e.IsValid := Classical.not_not.1 fun hinvalid =>
    hfree _ (.invalid (not_isValid_iff.1 hinvalid))
  have hnew : e ∉ s.holders := fun hheld => hfree _ (.held hvalid hheld)
  cases hfixed : s.layout.hasFixedStorage with
  | false =>
      unfold insert
      rw [if_neg (not_not_intro hvalid), if_neg fun hcontains => hnew (contains_eq_true.1 hcontains),
        hfixed, if_neg Bool.false_ne_true]
  | true =>
      cases hroomy : s.reserve machine with
      | error cause =>
          obtain ⟨wanted, hwanted, hlarge, rfl⟩ := reserve_eq_error_iff.1 hroomy
          exact absurd (.full hvalid hnew hfixed wanted hwanted hlarge) (hfree _)
      | ok roomy => exact (insert_of_reserve h hmemory hvalid hnew hfixed hroomy).trans (if_pos hfitted)

/-- What is refused was barred. -/
theorem barred_of_refused (h : s.Packed) (hfitted : s.layout.Fitted)
    (hmemory : machine.memory ≤ maxBufferBytes) {cause : StoreError}
    (hcause : (s.insert machine e).2 = .error cause) : Barred machine s e cause := by
  by_cases hbarred : ∃ other, Barred machine s e other
  · obtain ⟨other, hother⟩ := hbarred
    rw [insert_of_barred hother] at hcause
    obtain rfl := Except.error.inj hcause
    exact hother
  · rw [insert_of_not_barred h hfitted hmemory (not_exists.1 hbarred)] at hcause
    cases hcause

/-- An insertion is refused for an invalid id, an id that holds the kind, or want of memory for a
buffer that has to grow, and leaves the store as it was then; otherwise the entity holds the kind. -/
theorem insert_admits (hmemory : machine.memory ≤ maxBufferBytes) (h : Reached machine s)
    (e : EntityId) : Admits machine s e where
  refused cause := by
    constructor
    · exact barred_of_refused h.packed h.fitted hmemory
    · intro hbarred
      rw [insert_of_barred hbarred]
  unchanged cause hcause := by
    rw [insert_of_barred (barred_of_refused h.packed h.fitted hmemory hcause)]
  held hok := (mem_holders_insert h.packed machine e e).2 (Or.inr ⟨rfl, hok⟩)
  found hfixed _ hroomy := nearestFree_of_reserve h.packed hfixed hmemory hroomy e

/-- Two blocks at first, and two to the thousand times as many as soon as half of them are taken. -/
def explosive : StoreConfig := ⟨2, 0x7E70000000000000, 0x3FE0000000000000, 0⟩

end Store

end EntityStore

namespace EntityStore.Store

attribute [local instance] CustomTypes.none

/-- The second holder is refused although there is a free block for it, since the buffer would have
to grow first; nothing has changed. -/
theorem admits_first_holder_only :
    let machine : Machine := ⟨Rounding.binary64, maxBufferBytes⟩
    let declared := ((empty "Mass" explosive).addField "kg" (.word (.signed .w32)) (1 : BitVec 32)).1
    let s := (declared.insert machine 1).1
    Admits machine s 2 ∧ (s.insert machine 2).2 = .error (.capacityOverflow "Mass" maxCount) ∧
      s.holders.toList = [1] ∧ s.blockAt 1 = .free := by
  intro machine declared s
  have hfresh : Reached machine (empty "Mass" explosive) :=
    .fresh "Mass" explosive (validate_of_violation? (by decide +kernel))
  have hslot : ((empty "Mass" explosive).addField "kg" (.word (.signed .w32))
      (1 : BitVec 32)).2 = .ok (.packed 0) := rfl
  have hdeclared : Reached machine declared :=
    .addField hfresh "kg" _ _ fun property expected => by rw [hslot]; exact nofun
  have hadmits : Admits machine s 2 := insert_admits (Nat.le_refl _) (.insert hdeclared 1) 2
  have hbarred : Barred machine s 2 (.capacityOverflow "Mass" maxCount) := by
    refine .full ?_ ?_ ?_ maxCount ?_ ?_
    all_goals decide +kernel
  exact ⟨hadmits, (hadmits.refused _).2 hbarred, by decide +kernel, by decide +kernel⟩

end EntityStore.Store
