import EntityStore.Proofs.Store.Insertion

/-!
# Removals keep the store packed

A removal clears one block and, when the buffer has become sparse, slides the occupied blocks to
the front.

* `packed_remove`: it keeps the invariant.
* `mem_holders_remove`, `remove_answer`: it takes the kind from one entity, and says whether that
  held it.
* `home_remove`: the blocks of the other holders keep their bytes.
-/

namespace EntityStore

variable [CustomTypes]

namespace Store

variable {s : Store}

omit [CustomTypes] in
theorem isOccupied_iff {b : Block} : b.isOccupied = true ↔ b.holder? = some b.tag := by
  rw [Block.holder?_eq_some]
  simp [Block.isOccupied]

/-- Beyond the highest occupied block there is nothing to walk over. -/
theorem filter_occupiedRange (h : IsHighest s.blocks s.highest) :
    s.occupiedRange.filter Block.isOccupied = s.blocks.filter Block.isOccupied := by
  have hfree : ∀ n, (∀ i, n ≤ i → holderIn s.blocks i = none) →
      (s.blocks.drop n).filter Block.isOccupied = [] := by
    intro n hbeyond
    rw [List.filter_eq_nil_iff]
    intro b hb hoccupied
    obtain ⟨i, hi⟩ := List.mem_iff_getElem?.1 hb
    rw [List.getElem?_drop] at hi
    have hholder := hbeyond (n + i) (Nat.le_add_right n i)
    rw [holderIn_of_getElem? hi, isOccupied_iff.1 hoccupied] at hholder
    cases hholder
  unfold occupiedRange
  cases htop : s.highest with
  | none =>
      rw [htop] at h
      exact (hfree 0 fun i _ => h i).symm
  | some top =>
      rw [htop] at h
      have hsplit := List.take_append_drop (top + 1) s.blocks
      conv => rhs; rw [← hsplit, List.filter_append, hfree (top + 1) fun i hi => h.2 i hi]
      rw [List.append_nil]

/-! ## Clearing a block -/

/-- A block that was cleared is free, and the others are as they were. -/
theorem holderIn_vacate (dataSize : Nat) {i : Nat} (hi : i < s.blocks.length) (j : Nat) :
    holderIn (s.blocks.set i (Block.blank dataSize)) j =
      if j = i then none else holderIn s.blocks j := by
  rw [holderIn_set hi, Block.holder?_eq_none.2 (Block.isFree_blank dataSize)]

omit [CustomTypes] in
/-- Between the last occupied block below a place and the place itself every block is free. -/
theorem holderIn_below (blocks : List Block) {i j : Nat} (hi : i < blocks.length) (hj : j < i)
    (hcount : countThroughLast Block.isOccupied (blocks.take i) ≤ j) : holderIn blocks j = none := by
  have hlt : j < blocks.length := Nat.lt_trans hj hi
  have hget : (blocks.take i)[j]? = some blocks[j] := by
    rw [List.getElem?_take_of_lt hj, List.getElem?_eq_getElem hlt]
  have htest := countThroughLast_beyond hcount hget
  rw [holderIn_of_getElem? (List.getElem?_eq_getElem hlt), Block.holder?_eq_none]
  simpa [Block.isOccupied] using htest

/-- The search for the next highest occupied block below a cleared one. -/
theorem isHighest_vacate (h : IsHighest s.blocks s.highest) {i : Nat} (hi : i < s.blocks.length) :
    IsHighest (s.vacate i).blocks (s.vacate i).highest := by
  have hplaces := holderIn_vacate (s := s) s.layout.dataSize hi
  unfold vacate
  dsimp only
  split
  · rename_i htop
    rw [htop] at h
    -- the cleared block was the highest: the search goes down from it
    have hfree : ∀ j, countThroughLast Block.isOccupied (s.blocks.take i) ≤ j →
        holderIn (s.blocks.set i (Block.blank s.layout.dataSize)) j = none := by
      intro j hj
      rw [hplaces]
      split
      · rfl
      · rename_i hji
        rcases Nat.lt_or_ge j i with hbelow | hhigh
        · exact holderIn_below s.blocks hi hbelow hj
        · exact h.2 j (by omega)
    split
    · rename_i hcount
      exact fun j => hfree j (by omega)
    · rename_i n hcount
      have hle := countThroughLast_le_length Block.isOccupied (s.blocks.take i)
      have hlow : n < i := by
        rw [hcount, List.length_take] at hle
        omega
      obtain ⟨b, hb, hoccupied⟩ := countThroughLast_last hcount
      rw [List.getElem?_take_of_lt hlow] at hb
      refine ⟨?_, fun j hj => hfree j (by omega)⟩
      rw [hplaces, if_neg (by omega), holderIn_of_getElem? hb, isOccupied_iff.1 hoccupied]
      simp
  · -- another block is the highest, and stays so
    rename_i hother
    cases htop : s.highest with
    | none =>
        rw [htop] at h
        intro j
        rw [hplaces, h j]
        simp
    | some top =>
        rw [htop] at h
        refine ⟨?_, fun j hj => ?_⟩
        · have hne : top ≠ i := by
            rintro rfl
            exact hother htop
          rw [hplaces, if_neg hne]
          exact h.1
        · rw [hplaces, h.2 j hj]
          simp

/-- Side maps that lose an entity speak of the remaining holders only. -/
theorem sided_forget (h : s.Packed) (e : EntityId) :
    ∀ side ∈ (s.forget e).sides, ∀ x, (side.lookup x).isSome = true → x ∈ (s.forget e).holders := by
  intro side hside x hx
  obtain ⟨old, hold, rfl⟩ := List.mem_map.1 hside
  rw [IdMap.lookup_erase] at hx
  split at hx
  · cases hx
  · rename_i hne
    have hheld := mem_holders.1 (h.sided old hold x hx)
    show x ∈ (s.index.erase e).keys
    rw [IdMap.mem_keys, IdMap.lookup_erase, if_neg hne]
    exact hheld

/-- A kind without blocks forgets a holder. -/
theorem packed_forget (h : s.Packed) {e : EntityId} (hplace : s.index.lookup e = some none) :
    (s.forget e).Packed := by
  have hunfixed : s.layout.hasFixedStorage = false := by
    cases hfixed : s.layout.hasFixedStorage with
    | false => rfl
    | true => exact absurd hplace (h.housed hfixed e)
  have hempty := h.unblocked hunfixed
  refine
    { shaped := h.shaped, blank := h.blank, ascending := h.ascending, agrees := ?_,
      housed := ?_, highest := h.highest, expected := h.expected,
      unblocked := fun _ => hempty, unused := ?_, sided := sided_forget h e }
  · intro x i
    show (s.index.erase e).lookup x = _ ↔ holderIn s.blocks i = some x
    rw [IdMap.lookup_erase, ← h.agrees x i]
    split
    · rename_i hx
      rw [hx, hplace]
      simp
    · exact Iff.rfl
  · intro hfixed
    exact absurd (hunfixed.symm.trans hfixed) Bool.false_ne_true
  · intro hopen
    exact absurd ((h.unused hopen).2 e) (by simp [hplace])

/-- A kind with blocks forgets a holder and clears its block. -/
theorem packed_vacate (h : s.Packed) {e : EntityId} {i : Nat}
    (hplace : s.index.lookup e = some (some i)) : ((s.forget e).vacate i).Packed := by
  have hholder := (h.agrees e i).1 hplace
  have hi := lt_length_of_holderIn hholder
  have hplaces := holderIn_vacate (s := s) s.layout.dataSize hi
  have hmem : ∀ b ∈ s.blocks.set i (Block.blank s.layout.dataSize),
      b ∈ s.blocks ∨ b = Block.blank s.layout.dataSize :=
    fun b hb => List.mem_or_eq_of_mem_set hb
  refine
    { shaped := ?_, blank := ?_, ascending := ?_, agrees := ?_, housed := ?_,
      highest := isHighest_vacate (s := s.forget e) h.highest hi, expected := ?_,
      unblocked := ?_, unused := ?_, sided := sided_forget h e }
  · intro b hb
    rcases hmem b hb with hold | rfl
    · exact h.shaped b hold
    · simp [Block.blank, vacate, forget]
  · intro b hb hfree
    rcases hmem b hb with hold | rfl
    · exact h.blank b hold hfree
    · rfl
  · intro j k x y hjk hx hy
    replace hx := (hplaces j).symm.trans hx
    replace hy := (hplaces k).symm.trans hy
    split at hx
    · cases hx
    · split at hy
      · cases hy
      · exact h.ascending j k x y hjk hx hy
  · -- the index and the blocks lose the same entity
    intro x j
    show (s.index.erase e).lookup x = _ ↔
      holderIn (s.blocks.set i (Block.blank s.layout.dataSize)) j = some x
    rw [IdMap.lookup_erase, hplaces]
    by_cases hx : x = e
    · rw [if_pos hx]
      constructor
      · intro hnone
        cases hnone
      · intro hj
        split at hj
        · cases hj
        · rename_i hji
          rw [hx] at hj
          exact absurd (h.ascending.place_unique hj hholder) hji
    · rw [if_neg hx, h.agrees x j]
      split
      · rename_i hji
        rw [hji, hholder]
        constructor
        · intro heq
          exact absurd (Option.some.inj heq).symm hx
        · intro hnone
          cases hnone
      · exact Iff.rfl
  · intro hfixed x
    show (s.index.erase e).lookup x ≠ some none
    rw [IdMap.lookup_erase]
    split
    · simp
    · exact h.housed hfixed x
  · simpa [vacate, forget, capacity] using h.expected
  · intro hunfixed
    have hempty := h.unblocked hunfixed
    rw [hempty] at hi
    exact absurd hi (Nat.not_lt_zero i)
  · intro hopen
    exact absurd ((h.unused hopen).2 e) (by simp [hplace])

/-! ## Compaction -/

theorem mem_compactTo {capacity : Nat} {b : Block} (h : s.Packed)
    (hb : b ∈ (s.compactTo capacity).blocks) :
    b ∈ s.blocks ∧ b.isOccupied = true ∨ b = Block.blank s.layout.dataSize := by
  unfold compactTo at hb
  rw [filter_occupiedRange h.highest] at hb
  rcases List.mem_append.1 hb with hkept | hblank
  · exact Or.inl (List.mem_filter.1 hkept)
  · exact Or.inr (List.eq_of_mem_replicate hblank)

/-- After a compaction the highest occupied block is the last that was kept. -/
theorem isHighest_compactTo (h : s.Packed) (capacity : Nat) :
    IsHighest (s.compactTo capacity).blocks (s.compactTo capacity).highest := by
  have hplaces := fun n => holderIn_append_blank (s.blocks.filter Block.isOccupied) n
    s.layout.dataSize
  unfold compactTo
  rw [filter_occupiedRange h.highest]
  dsimp only
  cases hkept : s.blocks.filter Block.isOccupied with
  | nil =>
      intro i
      rw [← hkept, hplaces, hkept]
      simp [holderIn]
  | cons first rest =>
      rw [← hkept]
      have hpositive : 0 < (s.blocks.filter Block.isOccupied).length := by
        rw [hkept]
        exact Nat.succ_pos _
      rw [if_neg (by rw [hkept]; exact Bool.false_ne_true)]
      refine ⟨?_, fun i hi => ?_⟩
      · have hlast : (s.blocks.filter Block.isOccupied).length - 1 <
            (s.blocks.filter Block.isOccupied).length := by omega
        rw [hplaces, holderIn_of_getElem? (List.getElem?_eq_getElem hlast)]
        have hmem := List.getElem_mem hlast
        rw [isOccupied_iff.1 (List.mem_filter.1 hmem).2]
        simp
      · rw [hplaces]
        exact holderIn_eq_none_of_length_le (by omega)

/-- Compaction keeps the store packed. -/
theorem packed_compactTo (h : s.Packed) (hfixed : s.layout.hasFixedStorage = true)
    (hclosed : s.frozen = true) {capacity : Nat} (hlarge : s.config.expectedCapacity ≤ capacity) :
    (s.compactTo capacity).Packed := by
  have hfilter := filter_occupiedRange h.highest
  have hplaces := fun n => holderIn_append_blank (s.blocks.filter Block.isOccupied) n
    s.layout.dataSize
  have hascKept := ascending_filter h.ascending
  -- whoever had a block has one among those that are kept, and the index leads there
  have hkeep : ∀ x i, holderIn s.blocks i = some x →
      ∃ j, holderIn (s.blocks.filter Block.isOccupied) j = some x := by
    intro x i hi
    obtain ⟨b, hb, hholder⟩ := exists_holderIn_iff.1 ⟨i, hi⟩
    refine exists_holderIn_iff.2 ⟨b, List.mem_filter.2 ⟨hb, ?_⟩, hholder⟩
    rw [isOccupied_iff, hholder, (Block.holder?_eq_some.1 hholder).2]
  have hindex : ∀ x i,
      (reindex (s.blocks.filter Block.isOccupied) 0 s.index).lookup x = some (some i) ↔
        holderIn (s.blocks.filter Block.isOccupied) i = some x := by
    intro x i
    have hrun := lookup_reindex_iff h.agrees hascKept 0
      (s.blocks.filter Block.isOccupied).length
      (fun j hj => Or.inl ⟨Nat.zero_le j, by simpa using lt_length_of_holderIn hj⟩)
      (hkeep x) i
    rw [List.drop_zero, List.take_length] at hrun
    exact hrun
  refine
    { shaped := ?_, blank := ?_, ascending := ?_, agrees := ?_, housed := ?_,
      highest := isHighest_compactTo h capacity, expected := ?_, unblocked := ?_, unused := ?_,
      sided := ?_ }
  · intro b hb
    rcases mem_compactTo h hb with ⟨hold, -⟩ | rfl
    · exact h.shaped b hold
    · simp [Block.blank, compactTo]
  · intro b hb hfree
    rcases mem_compactTo h hb with ⟨-, hoccupied⟩ | rfl
    · simp [Block.isOccupied, hfree] at hoccupied
    · rfl
  · unfold compactTo
    rw [hfilter]
    exact hascKept.congr (hplaces _)
  · unfold compactTo
    rw [hfilter]
    intro x i
    exact (hindex x i).trans (by rw [hplaces])
  · unfold compactTo
    rw [hfilter]
    intro _ x
    rcases lookup_reindex hascKept 0 s.index x with ⟨j, -, hlookup⟩ | ⟨-, hlookup⟩
    · simp [hlookup]
    · rw [hlookup]
      exact h.housed hfixed x
  · refine Or.inr ?_
    unfold compactTo Store.capacity
    rw [List.length_append, List.length_replicate]
    dsimp only
    omega
  · intro hunfixed
    exact absurd hfixed (by simpa [compactTo] using hunfixed)
  · intro hopen
    exact absurd hclosed (by simpa [compactTo] using hopen)
  · intro side hside x hx
    have hold := h.sided side hside x hx
    obtain ⟨i, hi⟩ := h.exists_holderIn hfixed hold
    obtain ⟨j, hj⟩ := hkeep x i hi
    rw [mem_holders]
    unfold compactTo
    rw [hfilter]
    show ((reindex _ 0 s.index).lookup x).isSome = true
    rw [(hindex x j).2 hj]
    rfl

/-! ## Removal -/

theorem packed_compactIfSparse (h : s.Packed) (hfixed : s.layout.hasFixedStorage = true)
    (hclosed : s.frozen = true) (machine : Machine) : (s.compactIfSparse machine).Packed := by
  unfold compactIfSparse
  dsimp only
  split
  · rename_i hsparse
    exact packed_compactTo h hfixed hclosed hsparse.2.1
  · exact h

/-- A removal keeps the store packed. -/
theorem packed_remove (h : s.Packed) (machine : Machine) (e : EntityId) :
    (s.remove machine e).1.Packed := by
  unfold remove
  split
  · exact h
  · rename_i hplace
    exact packed_forget h hplace
  · rename_i i hplace
    have hheld : e ∈ s.holders := mem_holders.2 (by rw [hplace]; rfl)
    exact packed_compactIfSparse (packed_vacate h hplace) (h.hasFixedStorage_of_lookup hplace)
      (h.frozen_of_holder hheld) machine

theorem mem_holders_compactTo (h : s.Packed) (capacity : Nat) (x : EntityId) :
    x ∈ (s.compactTo capacity).holders ↔ x ∈ s.holders := by
  unfold compactTo
  rw [filter_occupiedRange h.highest, mem_holders, mem_holders]
  dsimp only
  rcases lookup_reindex (ascending_filter h.ascending) 0 s.index x with
    ⟨j, hj, hlookup⟩ | ⟨-, hlookup⟩
  · obtain ⟨b, hb, hholder⟩ := exists_holderIn_iff.1 ⟨j, hj⟩
    obtain ⟨i, hi⟩ := exists_holderIn_iff.2 ⟨b, (List.mem_filter.1 hb).1, hholder⟩
    rw [hlookup, (h.agrees x i).2 hi]
    exact Iff.rfl
  · rw [hlookup]

theorem mem_holders_compactIfSparse (h : s.Packed) (machine : Machine) (x : EntityId) :
    x ∈ (s.compactIfSparse machine).holders ↔ x ∈ s.holders := by
  unfold compactIfSparse
  dsimp only
  split
  · exact mem_holders_compactTo h _ x
  · exact Iff.rfl

/-- A removal takes the kind from one entity and from no other. -/
theorem mem_holders_remove (h : s.Packed) (machine : Machine) (e x : EntityId) :
    x ∈ (s.remove machine e).1.holders ↔ x ∈ s.holders ∧ x ≠ e := by
  have hforget : x ∈ (s.forget e).holders ↔ x ∈ s.holders ∧ x ≠ e := by
    show x ∈ (s.index.erase e).keys ↔ _
    rw [IdMap.mem_keys, IdMap.lookup_erase, mem_holders]
    by_cases hx : x = e <;> simp [hx]
  unfold remove
  split
  · rename_i hnone
    have habsent : e ∉ s.holders := fun he => by simp [mem_holders, hnone] at he
    constructor
    · intro hx
      refine ⟨hx, ?_⟩
      rintro rfl
      exact habsent hx
    · exact And.left
  · exact hforget
  · rename_i i hplace
    exact (mem_holders_compactIfSparse (packed_vacate h hplace) machine x).trans hforget

/-- A removal answers whether the entity held the kind. -/
theorem remove_answer (machine : Machine) (e : EntityId) :
    (s.remove machine e).2 = s.contains e := by
  unfold remove contains IdMap.contains
  split
  · rename_i hnone
    rw [hnone]
    rfl
  · rename_i hplace
    rw [hplace]
    rfl
  · rename_i i hplace
    rw [hplace]
    rfl

/-! ## The blocks of the other holders -/

theorem home_compactTo (h : s.Packed) (hfixed : s.layout.hasFixedStorage = true)
    (hclosed : s.frozen = true) {capacity : Nat} (hlarge : s.config.expectedCapacity ≤ capacity)
    (x : EntityId) : (s.compactTo capacity).home x = s.home x := by
  have hpacked := packed_compactTo h hfixed hclosed hlarge
  apply Option.ext
  intro b
  rw [hpacked.home_eq_some, h.home_eq_some]
  constructor
  · rintro ⟨hb, hholder⟩
    rcases mem_compactTo h hb with ⟨hold, -⟩ | rfl
    · exact ⟨hold, hholder⟩
    · rw [Block.holder?_eq_none.2 (Block.isFree_blank _)] at hholder
      cases hholder
  · rintro ⟨hold, hholder⟩
    refine ⟨?_, hholder⟩
    unfold compactTo
    rw [filter_occupiedRange h.highest]
    refine List.mem_append_left _ (List.mem_filter.2 ⟨hold, ?_⟩)
    rw [isOccupied_iff, hholder, (Block.holder?_eq_some.1 hholder).2]

theorem home_forget (e x : EntityId) : (s.forget e).home x = if x = e then none else s.home x := by
  show ((s.index.erase e).lookup x).bind _ = _
  rw [IdMap.lookup_erase]
  split <;> rfl

theorem home_vacate (h : s.Packed) {e : EntityId} {i : Nat}
    (hplace : s.index.lookup e = some (some i)) (x : EntityId) :
    ((s.forget e).vacate i).home x = if x = e then none else s.home x := by
  rw [← home_forget]
  cases hlookup : (s.forget e).index.lookup x with
  | none => simp [home, vacate, hlookup]
  | some place =>
      cases place with
      | none => simp [home, vacate, hlookup]
      | some j =>
          -- no two holders share a block, so the cleared one is not theirs
          have hother : i ≠ j := by
            rintro rfl
            have hx : x = e := by
              have hboth : s.index.lookup x = some (some i) := by
                replace hlookup : (s.index.erase e).lookup x = some (some i) := hlookup
                rw [IdMap.lookup_erase] at hlookup
                split at hlookup
                · cases hlookup
                · exact hlookup
              have hholders := ((h.agrees x i).1 hboth).symm.trans ((h.agrees e i).1 hplace)
              exact Option.some.inj hholders
            replace hlookup : (s.index.erase e).lookup x = some (some i) := hlookup
            rw [IdMap.lookup_erase, if_pos hx] at hlookup
            cases hlookup
          have hvacated : ((s.forget e).vacate i).index.lookup x = some (some j) := hlookup
          rw [home_of_lookup hvacated, home_of_lookup hlookup]
          exact List.getElem?_set_ne hother

/-- A removal takes away one block, and the other holders keep theirs. -/
theorem home_remove (h : s.Packed) (machine : Machine) (e x : EntityId) :
    (s.remove machine e).1.home x = if x = e then none else s.home x := by
  unfold remove
  split
  · rename_i hnone
    split
    · rename_i hx
      rw [hx]
      simp [home, hnone]
    · rfl
  · exact home_forget e x
  · rename_i i hplace
    have hvacated := packed_vacate h hplace
    rw [← home_vacate h hplace]
    unfold compactIfSparse
    dsimp only
    split
    · rename_i hsparse
      have hheld : e ∈ s.holders := mem_holders.2 (by rw [hplace]; rfl)
      exact home_compactTo hvacated (h.hasFixedStorage_of_lookup hplace)
        (h.frozen_of_holder hheld) hsparse.2.1 x
    · rfl

/-- A removal leaves the layout, and what side maps have for other holders. -/
theorem remove_frame (machine : Machine) (e : EntityId) :
    (s.remove machine e).1.layout = s.layout ∧ (s.remove machine e).1.name = s.name ∧
      (s.remove machine e).1.frozen = s.frozen ∧
      ((s.remove machine e).1.sides = s.sides ∧ e ∉ s.holders ∨
        (s.remove machine e).1.sides = s.sides.map (·.erase e)) := by
  unfold remove
  split
  · rename_i hnone
    exact ⟨rfl, rfl, rfl, Or.inl ⟨rfl, fun he => by simp [mem_holders, hnone] at he⟩⟩
  · exact ⟨rfl, rfl, rfl, Or.inr rfl⟩
  · unfold compactIfSparse
    dsimp only
    split <;> exact ⟨rfl, rfl, rfl, Or.inr rfl⟩

end Store

end EntityStore
