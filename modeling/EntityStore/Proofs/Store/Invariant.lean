import EntityStore.Proofs.Store.Shifting

/-!
# The invariant of the packed store

`Store.Packed` is what every operation on a store keeps.  The holders of a kind with blocks stand
in the buffer in ascending order, each in one block; the index leads to these blocks, the highest
occupied place is known, and free blocks are blank.  A kind without blocks has no buffer.  Side
maps speak of holders only.

One theorem for each operation says that the invariant is kept, here for declarations
(`packed_addField`) and for the room that an insertion asks for (`packed_reserve`), and in
`EntityStore.Proofs.Store.Insertion` and `EntityStore.Proofs.Store.Removal` for the rest.  None of
them asks for anything of the rounding or of the memory.
-/

namespace EntityStore

variable [CustomTypes]

/-- What every operation on a store keeps. -/
structure Store.Packed (s : Store) : Prop where
  /-- Every block has the bytes that the layout asks for. -/
  shaped : ∀ b ∈ s.blocks, b.data.length = s.layout.dataSize
  /-- Free blocks are blank. -/
  blank : ∀ b ∈ s.blocks, b.isFree = true → b = Block.blank s.layout.dataSize
  /-- The holders stand in ascending order. -/
  ascending : Ascending s.blocks
  /-- The index leads to their blocks. -/
  agrees : Agrees s.index s.blocks
  /-- Where there are blocks, every holder has one. -/
  housed : s.layout.hasFixedStorage = true → ∀ e, s.index.lookup e ≠ some none
  /-- The highest occupied place is known. -/
  highest : IsHighest s.blocks s.highest
  /-- The buffer is at least as large as expected, once there is one. -/
  expected : s.capacity = 0 ∨ s.config.expectedCapacity ≤ s.capacity
  /-- A kind without properties of fixed width has no buffer. -/
  unblocked : s.layout.hasFixedStorage = false → s.blocks = []
  /-- A kind with an open list of properties has never had a holder. -/
  unused : s.frozen = false → s.blocks = [] ∧ ∀ e, s.index.lookup e = none
  /-- Side maps have values for holders only. -/
  sided : ∀ side ∈ s.sides, ∀ e, (side.lookup e).isSome = true → e ∈ s.holders

namespace Store

variable {s : Store}

theorem mem_holders {e : EntityId} : e ∈ s.holders ↔ (s.index.lookup e).isSome = true :=
  IdMap.mem_keys

theorem contains_eq_true {e : EntityId} : s.contains e = true ↔ e ∈ s.holders :=
  IdMap.contains_iff

theorem contains_eq_false {e : EntityId} : s.contains e = false ↔ s.index.lookup e = none := by
  simp [contains, IdMap.contains]

/-- The entities that have a block hold the kind. -/
theorem Packed.mem_holders_of_holderIn (h : s.Packed) {e : EntityId} {i : Nat}
    (hi : holderIn s.blocks i = some e) : e ∈ s.holders := by
  rw [mem_holders, (h.agrees e i).2 hi]
  rfl

/-- Where there are blocks, the entities that hold the kind have one. -/
theorem Packed.exists_holderIn (h : s.Packed) (hfixed : s.layout.hasFixedStorage = true)
    {e : EntityId} (he : e ∈ s.holders) : ∃ i, holderIn s.blocks i = some e := by
  obtain ⟨place, hplace⟩ := Option.isSome_iff_exists.1 (mem_holders.1 he)
  cases place with
  | none => exact absurd hplace (h.housed hfixed e)
  | some i => exact ⟨i, (h.agrees e i).1 hplace⟩

/-- A kind whose index leads to a block has blocks. -/
theorem Packed.hasFixedStorage_of_lookup (h : s.Packed) {e : EntityId} {i : Nat}
    (hplace : s.index.lookup e = some (some i)) : s.layout.hasFixedStorage = true := by
  cases hfixed : s.layout.hasFixedStorage with
  | true => rfl
  | false =>
      have hi := lt_length_of_holderIn ((h.agrees e i).1 hplace)
      rw [h.unblocked hfixed] at hi
      exact absurd hi (Nat.not_lt_zero i)

/-- A kind has no holders before its list of properties is closed. -/
theorem Packed.frozen_of_holder (h : s.Packed) {e : EntityId} (he : e ∈ s.holders) :
    s.frozen = true := by
  cases hfrozen : s.frozen with
  | true => rfl
  | false =>
      rw [mem_holders, (h.unused hfrozen).2 e] at he
      cases he

theorem packed_empty (name : String) (config : StoreConfig) : (empty name config).Packed where
  shaped := by simp [empty]
  blank := by simp [empty]
  ascending := ascending_nil
  agrees e i := by simp [empty, holderIn]
  housed _ e := by simp [empty]
  highest i := by simp [empty, holderIn]
  expected := Or.inl rfl
  unblocked _ := rfl
  unused _ := ⟨rfl, fun e => IdMap.lookup_empty e⟩
  sided := by simp [empty]

/-! ## The block of a holder -/

/-- The block that the index leads to. -/
def home (s : Store) (e : EntityId) : Option Block :=
  (s.index.lookup e).bind fun place => place.bind fun i => s.blocks[i]?

theorem home_of_lookup {e : EntityId} {i : Nat} (h : s.index.lookup e = some (some i)) :
    s.home e = s.blocks[i]? := by
  simp [home, h]

theorem blockIndex_eq_ok {e : EntityId} {i : Nat} :
    s.blockIndex e = .ok i ↔ s.index.lookup e = some (some i) := by
  unfold blockIndex
  split
  · rename_i j hplace
    rw [hplace]
    simp
  · rename_i hplace
    rw [hplace]
    simp
  · rename_i hplace
    rw [hplace]
    simp

/-- The block of a holder is the one with its tag. -/
theorem Packed.home_eq_some (h : s.Packed) {e : EntityId} {b : Block} :
    s.home e = some b ↔ b ∈ s.blocks ∧ b.holder? = some e := by
  constructor
  · intro hhome
    obtain ⟨place, hplace, hat⟩ := Option.bind_eq_some_iff.1 hhome
    obtain ⟨i, rfl, hget⟩ := Option.bind_eq_some_iff.1 hat
    have hholder := (h.agrees e i).1 hplace
    rw [holderIn_of_getElem? hget] at hholder
    exact ⟨List.mem_of_getElem? hget, hholder⟩
  · rintro ⟨hb, hholder⟩
    obtain ⟨i, hget⟩ := List.mem_iff_getElem?.1 hb
    have hplace : holderIn s.blocks i = some e := (holderIn_of_getElem? hget).trans hholder
    rw [home_of_lookup ((h.agrees e i).2 hplace), hget]

/-- Where there are blocks, the holders are the entities with a block. -/
theorem Packed.home_isSome (h : s.Packed) (hfixed : s.layout.hasFixedStorage = true)
    (e : EntityId) : (s.home e).isSome = true ↔ e ∈ s.holders := by
  constructor
  · intro hsome
    obtain ⟨b, hb⟩ := Option.isSome_iff_exists.1 hsome
    obtain ⟨i, hi⟩ := exists_holderIn_iff.2 ⟨b, h.home_eq_some.1 hb⟩
    exact h.mem_holders_of_holderIn hi
  · intro he
    obtain ⟨i, hi⟩ := h.exists_holderIn hfixed he
    obtain ⟨b, hb, hholder⟩ := holderIn_eq_some.1 hi
    rw [h.home_eq_some.2 ⟨List.mem_of_getElem? hb, hholder⟩]
    rfl

/-! ## Properties -/

/-- A kind without holders may have any layout. -/
theorem Packed.withLayout (h : s.Packed) (hopen : s.frozen = false) (layout : Layout)
    {sides : List (IdMap TypedValue)} (hsides : ∀ side ∈ sides, side ∈ s.sides ∨ side = ∅) :
    ({ s with layout := layout, sides := sides } : Store).Packed where
  shaped b hb := by simp [(h.unused hopen).1] at hb
  blank b hb := by simp [(h.unused hopen).1] at hb
  ascending := h.ascending
  agrees := h.agrees
  housed _ e := by simp [(h.unused hopen).2 e]
  highest := h.highest
  expected := h.expected
  unblocked _ := (h.unused hopen).1
  unused := h.unused
  sided side hside e he := by
    rcases hsides side hside with hold | rfl
    · exact h.sided side hold e he
    · simp at he

theorem packed_addField (h : s.Packed) (name : String) (type : ValueType)
    (default : type.Carrier) : (s.addField name type default).1.Packed := by
  unfold addField
  split
  · exact h
  · rename_i hclosed
    have hopen : s.frozen = false := by simpa using hclosed
    dsimp only
    split
    · refine h.withLayout hopen _ fun side hside => ?_
      simpa using hside
    · exact h.withLayout hopen _ fun side hside => Or.inl hside

/-! ## Room -/

/-- What a reservation does: it adds blank blocks, as many as are expected at first. -/
theorem reserve_eq_ok {machine : Machine} {roomy : Store} (h : s.reserve machine = .ok roomy) :
    ∃ n, roomy = { s with blocks := s.blocks ++ List.replicate n (Block.blank s.layout.dataSize) } ∧
      (s.capacity = 0 → max s.config.expectedCapacity 1 ≤ n) := by
  unfold reserve at h
  split at h
  · rename_i hwanted
    obtain rfl := Except.ok.inj h
    refine ⟨0, by simp, fun hzero => ?_⟩
    simp [wantedCapacity?, hzero] at hwanted
  · rename_i wanted hwanted
    split at h
    · obtain rfl := Except.ok.inj h
      refine ⟨wanted - s.capacity, rfl, fun hzero => ?_⟩
      have hfirst : max s.config.expectedCapacity 1 = wanted := by
        simpa [wantedCapacity?, hzero] using hwanted
      omega
    · cases h

/-- A reservation fails for want of memory only. -/
theorem reserve_eq_error {machine : Machine} {cause : StoreError}
    (h : s.reserve machine = .error cause) :
    ∃ requested, cause = .capacityOverflow s.name requested := by
  unfold reserve at h
  split at h
  · cases h
  · rename_i wanted _
    split at h
    · cases h
    · exact ⟨wanted, (Except.error.inj h).symm⟩

theorem packed_reserve (h : s.Packed) (hfixed : s.layout.hasFixedStorage = true)
    {machine : Machine} {roomy : Store} (hroomy : s.reserve machine = .ok roomy) :
    roomy.freeze.Packed := by
  obtain ⟨n, rfl, hfirst⟩ := reserve_eq_ok hroomy
  have hholder := holderIn_append_blank s.blocks n s.layout.dataSize
  refine
    { shaped := ?_, blank := ?_, ascending := h.ascending.congr hholder, agrees := ?_,
      housed := h.housed, highest := ?_, expected := ?_, unblocked := ?_, unused := ?_,
      sided := h.sided }
  · intro b hb
    rcases List.mem_append.1 hb with hold | hnew
    · exact h.shaped b hold
    · obtain rfl := List.eq_of_mem_replicate hnew
      simp [Block.blank, freeze]
  · intro b hb hfree
    rcases List.mem_append.1 hb with hold | hnew
    · exact h.blank b hold hfree
    · exact List.eq_of_mem_replicate hnew
  · intro e i
    exact (h.agrees e i).trans (by simp only [freeze, hholder])
  · have hhigh := h.highest
    simp only [freeze]
    cases htop : s.highest with
    | none =>
        rw [htop] at hhigh
        exact fun i => (hholder i).trans (hhigh i)
    | some top =>
        rw [htop] at hhigh
        exact ⟨by rw [hholder]; exact hhigh.1, fun i hi => (hholder i).trans (hhigh.2 i hi)⟩
  · refine Or.inr ?_
    simp only [freeze, capacity, List.length_append, List.length_replicate]
    rcases h.expected with hzero | hlarge
    · have hlarge := hfirst hzero
      omega
    · exact Nat.le_trans hlarge (Nat.le_add_right _ _)
  · intro hunfixed
    exact absurd hfixed (by simpa [freeze] using hunfixed)
  · intro hopen
    cases hopen

end Store

end EntityStore
