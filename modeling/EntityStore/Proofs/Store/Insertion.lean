import EntityStore.Proofs.Store.Invariant

/-!
# Insertions keep the store packed

An insertion makes room, finds the place of the new holder and the nearest free block, and moves
the run between the two by one.  `Fits` says when two such indices fit a buffer, and the effects of
the placement are stated under it.

* `packed_insert`: an insertion keeps the invariant, refused or not.
* `Fits.getElem?_placedBlocks`: which block stands where afterwards.
* `mem_holders_insert`: afterwards the new entity holds the kind, and nothing changes for others.
-/

namespace EntityStore

variable [CustomTypes]

namespace Store

variable {s : Store}

/-- Where the new block ends up when the target and the free block are known. -/
def placedAt (target free : Nat) : Nat := if target ≤ free then target else target - 1

/-- Where the run of moved blocks starts after the move. -/
def runStart (target free : Nat) : Nat := if target ≤ free then target + 1 else free

/-- How many blocks move. -/
def runLength (target free : Nat) : Nat :=
  if target ≤ free then free - target else target - 1 - free

omit [CustomTypes] in
/-- Either the run above the target moves up, or the run below it moves down. -/
theorem run_cases (target free : Nat) :
    (target ≤ free ∧ placedAt target free = target ∧ runStart target free = target + 1 ∧
        runLength target free = free - target) ∨
      (free < target ∧ placedAt target free = target - 1 ∧ runStart target free = free ∧
        runLength target free = target - 1 - free) := by
  unfold placedAt runStart runLength
  by_cases hup : target ≤ free
  · simp [hup]
  · have hdown : free < target := Nat.lt_of_not_le hup
    simp [hup, hdown]

/-- The block of a new holder, with every property at its default. -/
def freshBlock (s : Store) (e : EntityId) : Block := ⟨e, s.layout.template.drop headerSize⟩

/-- The buffer after the free block has given way to the new one. -/
def placedBlocks (s : Store) (e : EntityId) (target free : Nat) : List Block :=
  (s.blocks.eraseIdx free).insertIdx (placedAt target free) (s.freshBlock e)

theorem place_eq (s : Store) (e : EntityId) (target free : Nat) :
    s.place e target free =
      { s with
        blocks := s.placedBlocks e target free
        index := (reindex (((s.placedBlocks e target free).drop (runStart target free)).take
          (runLength target free)) (runStart target free) s.index).insert e
            (some (placedAt target free))
        highest := some (max (s.highest.getD 0) (max (placedAt target free) free)) } := by
  unfold place runStart runLength placedBlocks placedAt freshBlock
  split <;> rfl

theorem holder?_freshBlock {e : EntityId} (he : e ≠ EntityId.absent) :
    (s.freshBlock e).holder? = some e := by
  rw [Block.holder?_eq_some]
  exact ⟨by simpa [freshBlock, Block.isFree] using he, rfl⟩

/-- The two indices of an insertion fit the buffer: the target parts the smaller holders from the
greater ones, and the free block is free and nearest. -/
structure Fits (s : Store) (e : EntityId) (target free : Nat) : Prop where
  target_le : target ≤ s.capacity
  free_lt : free < s.capacity
  isFree : holderIn s.blocks free = none
  below : ∀ i x, i < target → holderIn s.blocks i = some x → x < e
  above : ∀ i x, target ≤ i → holderIn s.blocks i = some x → e < x
  between : ∀ i, target ≤ i ∧ i < free ∨ free < i ∧ i < target → holderIn s.blocks i ≠ none

/-- The indices that an insertion computes fit. -/
theorem Packed.fits (h : s.Packed) {e : EntityId} (he : e ∉ s.holders) {free : Nat}
    (hfree : s.nearestFree (s.preferredIndex e) = some free) :
    s.Fits e (s.preferredIndex e) free where
  target_le := preferredIndex_le_capacity e
  free_lt := (isFreeAt_iff.1 (nearestFree_eq_some hfree).1).1
  isFree := (isFreeAt_iff.1 (nearestFree_eq_some hfree).1).2
  below _ _ hi hx := lt_of_lt_preferredIndex h.highest h.ascending hi hx
  above i x hi hx := by
    refine Nat.lt_of_le_of_ne (le_of_preferredIndex_le h.highest hi hx) ?_
    rintro rfl
    exact he (h.mem_holders_of_holderIn hx)
  between _ hi := occupied_between hfree (preferredIndex_le_capacity e) hi

namespace Fits

variable {e : EntityId} {target free : Nat}

theorem placedAt_le (hfit : s.Fits e target free) :
    placedAt target free ≤ (s.blocks.eraseIdx free).length := by
  have hfree := hfit.free_lt
  have htarget := hfit.target_le
  unfold capacity at hfree htarget
  have hrun := run_cases target free
  rw [List.length_eraseIdx, if_pos hfree]
  omega

/-- The blocks after the free block has given way to the new one. -/
theorem getElem?_placedBlocks (hfit : s.Fits e target free) (i : Nat) :
    (s.placedBlocks e target free)[i]? =
      if i < placedAt target free then
        (if i < free then s.blocks[i]? else s.blocks[i + 1]?)
      else if i = placedAt target free then some (s.freshBlock e)
      else if i ≤ free then s.blocks[i - 1]? else s.blocks[i]? := by
  unfold placedBlocks
  rw [List.getElem?_insertIdx, List.getElem?_eraseIdx, List.getElem?_eraseIdx]
  split
  · rfl
  · split
    · rename_i hplaced
      rw [if_pos (hplaced ▸ hfit.placedAt_le)]
    · have hpos : i - 1 + 1 = i := by omega
      by_cases hi : i ≤ free
      · rw [if_pos hi, if_pos (by omega)]
      · rw [if_neg hi, if_neg (by omega), hpos]

/-- The holders after the free block has given way to the new one. -/
theorem holderIn_placedBlocks (hfit : s.Fits e target free) (he : e ≠ EntityId.absent) (i : Nat) :
    holderIn (s.placedBlocks e target free) i =
      if i < placedAt target free then
        (if i < free then holderIn s.blocks i else holderIn s.blocks (i + 1))
      else if i = placedAt target free then some e
      else if i ≤ free then holderIn s.blocks (i - 1) else holderIn s.blocks i := by
  unfold holderIn
  rw [hfit.getElem?_placedBlocks]
  split
  · split <;> rfl
  · split
    · exact holder?_freshBlock he
    · split <;> rfl

theorem length_placedBlocks (hfit : s.Fits e target free) :
    (s.placedBlocks e target free).length = s.capacity := by
  have hfree := hfit.free_lt
  have hplaced := hfit.placedAt_le
  unfold placedBlocks capacity at *
  rw [List.length_insertIdx, if_pos hplaced, List.length_eraseIdx, if_pos hfree]
  omega

/-- The blocks of an insertion are the new one and those that were there but the free one. -/
theorem mem_placedBlocks (hfit : s.Fits e target free) {b : Block} :
    b ∈ s.placedBlocks e target free ↔ b = s.freshBlock e ∨ b ∈ s.blocks.eraseIdx free :=
  List.mem_insertIdx hfit.placedAt_le

theorem ascending_placedBlocks (hfit : s.Fits e target free) (he : e ≠ EntityId.absent)
    (hasc : Ascending s.blocks) : Ascending (s.placedBlocks e target free) := by
  have hrun := run_cases target free
  refine ascending_insertIdx (ascending_eraseIdx hasc free) hfit.placedAt_le
    (holder?_freshBlock he) ?_ ?_
  · intro i x hi hx
    rw [holderIn_eraseIdx] at hx
    split at hx
    · exact hfit.below i x (by omega) hx
    · exact hfit.below (i + 1) x (by omega) hx
  · intro i x hi hx
    rw [holderIn_eraseIdx] at hx
    split at hx
    · exact hfit.above i x (by omega) hx
    · exact hfit.above (i + 1) x (by omega) hx

/-- No holder loses its block to an insertion. -/
theorem exists_holderIn_placedBlocks (hfit : s.Fits e target free) {x : EntityId} {i : Nat}
    (hi : holderIn s.blocks i = some x) :
    ∃ j, holderIn (s.placedBlocks e target free) j = some x := by
  obtain ⟨b, hb, hholder⟩ := holderIn_eq_some.1 hi
  refine exists_holderIn_iff.2 ⟨b, hfit.mem_placedBlocks.2 (Or.inr ?_), hholder⟩
  rw [List.mem_eraseIdx_iff_getElem?]
  refine ⟨i, ?_, hb⟩
  rintro rfl
  rw [hfit.isFree] at hi
  cases hi

/-- After an insertion the index agrees with the buffer again. -/
theorem agrees_place (hfit : s.Fits e target free) (he : e ≠ EntityId.absent)
    (hasc : Ascending s.blocks) (hagree : Agrees s.index s.blocks) :
    Agrees (s.place e target free).index (s.place e target free).blocks := by
  rw [place_eq]
  have hascNew := hfit.ascending_placedBlocks he hasc
  have hnew : holderIn (s.placedBlocks e target free) (placedAt target free) = some e := by
    rw [hfit.holderIn_placedBlocks he, if_neg (Nat.lt_irrefl _), if_pos rfl]
  intro x i
  show (IdMap.insert _ e _).lookup x = _ ↔ holderIn (s.placedBlocks e target free) i = some x
  rw [IdMap.lookup_insert]
  by_cases hx : x = e
  · subst hx
    rw [if_pos rfl]
    constructor
    · intro h
      obtain rfl := Option.some.inj (Option.some.inj h)
      exact hnew
    · intro h
      rw [hascNew.place_unique hnew h]
  · rw [if_neg hx]
    refine lookup_reindex_iff hagree hascNew _ _ ?_ ?_ i
    · -- outside the run between the free block and the new one nothing has moved
      intro j hj
      have hrun := run_cases target free
      rw [hfit.holderIn_placedBlocks he] at hj
      split at hj
      · split at hj
        · exact Or.inr hj
        · exact Or.inl (by omega)
      · split at hj
        · exact absurd (Option.some.inj hj).symm hx
        · split at hj
          · exact Or.inl (by omega)
          · exact Or.inr hj
    · intro j hj
      exact hfit.exists_holderIn_placedBlocks hj

/-- After an insertion the highest occupied place is known again. -/
theorem isHighest_place (hfit : s.Fits e target free) (he : e ≠ EntityId.absent)
    (hhigh : IsHighest s.blocks s.highest) :
    IsHighest (s.place e target free).blocks (s.place e target free).highest := by
  have hplaces := hfit.holderIn_placedBlocks he
  rw [place_eq]
  show IsHighest (s.placedBlocks e target free) (some _)
  have hbeyond : ∀ i, s.highest.getD 0 < i → holderIn s.blocks i = none := by
    intro i hi
    cases htop : s.highest with
    | none =>
        rw [htop] at hhigh
        exact hhigh i
    | some top =>
        rw [htop] at hhigh hi
        exact hhigh.2 i hi
  refine ⟨?_, fun i hi => ?_⟩
  · -- the highest is the old one, or the last of the run: the new holder, or one that moved up
    rcases Nat.lt_or_ge (max (placedAt target free) free) (s.highest.getD 0) with hold | hnew
    · rw [Nat.max_eq_left (Nat.le_of_lt hold), hplaces, if_neg (by omega), if_neg (by omega),
        if_neg (by omega)]
      cases htop : s.highest with
      | none => simp [htop] at hold
      | some top =>
          rw [htop] at hhigh
          exact hhigh.1
    · rw [Nat.max_eq_right hnew]
      have hrun := run_cases target free
      rcases Nat.lt_or_ge (placedAt target free) free with hlow | hhigh'
      · rw [Nat.max_eq_right (Nat.le_of_lt hlow), hplaces, if_neg (by omega), if_neg (by omega),
          if_pos (Nat.le_refl free)]
        exact hfit.between (free - 1) (Or.inl (by omega))
      · rw [Nat.max_eq_left hhigh', hplaces, if_neg (Nat.lt_irrefl _), if_pos rfl]
        simp
  · rw [hplaces, if_neg (by omega), if_neg (by omega), if_neg (by omega)]
    exact hbeyond i (by omega)

end Fits

theorem packed_place (h : s.Packed) (hfixed : s.layout.hasFixedStorage = true)
    (hclosed : s.frozen = true) (htemplate : s.layout.template.length = s.layout.blockSize)
    {e : EntityId} (he : e ≠ EntityId.absent) {target free : Nat} (hfit : s.Fits e target free) :
    (s.place e target free).Packed where
  shaped b hb := by
    rw [place_eq] at hb ⊢
    rcases hfit.mem_placedBlocks.1 hb with rfl | hold
    · simp only [freshBlock, List.length_drop, htemplate, Layout.blockSize]
      omega
    · exact h.shaped b (List.mem_of_mem_eraseIdx hold)
  blank b hb hfree := by
    rw [place_eq] at hb ⊢
    rcases hfit.mem_placedBlocks.1 hb with rfl | hold
    · simp [freshBlock, Block.isFree, he] at hfree
    · exact h.blank b (List.mem_of_mem_eraseIdx hold) hfree
  ascending := by
    rw [place_eq]
    exact hfit.ascending_placedBlocks he h.ascending
  agrees := hfit.agrees_place he h.ascending h.agrees
  housed _ x := by
    rw [place_eq]
    show (IdMap.insert _ e _).lookup x ≠ some none
    rw [IdMap.lookup_insert]
    split
    · simp
    · rcases lookup_reindex (ascending_run (hfit.ascending_placedBlocks he h.ascending)
          (runStart target free) (runLength target free)) (runStart target free) s.index x with
        ⟨j, -, hlookup⟩ | ⟨-, hlookup⟩
      · rw [hlookup]
        simp
      · rw [hlookup]
        exact h.housed hfixed x
  highest := hfit.isHighest_place he h.highest
  expected := by
    have hlength : (s.place e target free).capacity = s.capacity := by
      rw [place_eq]
      exact hfit.length_placedBlocks
    rw [hlength, place_eq]
    exact h.expected
  unblocked hunfixed := by
    rw [place_eq] at hunfixed
    exact absurd hfixed (by simpa using hunfixed)
  unused hopen := by
    rw [place_eq] at hopen
    exact absurd hclosed (by simpa using hopen)
  sided side hside x hx := by
    have hold := h.sided side (by rw [place_eq] at hside; exact hside) x hx
    have hplaced := hfit.agrees_place he h.ascending h.agrees
    obtain ⟨i, hi⟩ := h.exists_holderIn hfixed hold
    obtain ⟨j, hj⟩ := hfit.exists_holderIn_placedBlocks hi
    rw [mem_holders, (hplaced x j).2 (by rw [place_eq]; exact hj)]
    rfl

/-- A placement gives the kind to the new entity and changes nothing for others. -/
theorem mem_holders_place (h : s.Packed) (hfixed : s.layout.hasFixedStorage = true) {e : EntityId}
    (he : e ≠ EntityId.absent) {target free : Nat} (hfit : s.Fits e target free) (x : EntityId) :
    x ∈ (s.place e target free).holders ↔ x = e ∨ x ∈ s.holders := by
  have hagree := hfit.agrees_place he h.ascending h.agrees
  constructor
  · intro hx
    by_cases hxe : x = e
    · exact Or.inl hxe
    · refine Or.inr ?_
      rw [place_eq, mem_holders] at hx
      replace hx : ((IdMap.insert _ e _).lookup x).isSome = true := hx
      rw [IdMap.lookup_insert, if_neg hxe] at hx
      rcases lookup_reindex (ascending_run (hfit.ascending_placedBlocks he h.ascending)
          (runStart target free) (runLength target free)) (runStart target free) s.index x with
        ⟨j, hj, -⟩ | ⟨-, hlookup⟩
      · rw [holderIn_run] at hj
        split at hj
        · rw [hfit.holderIn_placedBlocks he] at hj
          have hold : ∀ i, holderIn s.blocks i = some x → x ∈ s.holders :=
            fun i hi => h.mem_holders_of_holderIn hi
          split at hj
          · split at hj <;> exact hold _ hj
          · split at hj
            · exact absurd (Option.some.inj hj).symm hxe
            · split at hj <;> exact hold _ hj
        · cases hj
      · rw [hlookup] at hx
        exact mem_holders.2 hx
  · rintro (rfl | hx)
    · rw [mem_holders, place_eq]
      show ((IdMap.insert _ x _).lookup x).isSome = true
      rw [IdMap.lookup_insert, if_pos rfl]
      rfl
    · obtain ⟨i, hi⟩ := h.exists_holderIn hfixed hx
      obtain ⟨j, hj⟩ := hfit.exists_holderIn_placedBlocks hi
      rw [mem_holders, (hagree x j).2 (by rw [place_eq]; exact hj)]
      rfl

/-- A placement gives the new entity a fresh block, and the other holders keep theirs. -/
theorem home_place (h : s.Packed) (hfixed : s.layout.hasFixedStorage = true)
    (hclosed : s.frozen = true) (htemplate : s.layout.template.length = s.layout.blockSize)
    {e : EntityId} (he : e ≠ EntityId.absent) {target free : Nat} (hfit : s.Fits e target free)
    (x : EntityId) :
    (s.place e target free).home x = if x = e then some (s.freshBlock e) else s.home x := by
  have hplaced := packed_place h hfixed hclosed htemplate he hfit
  have hmem : ∀ b, b ∈ (s.place e target free).blocks ↔
      b = s.freshBlock e ∨ b ∈ s.blocks.eraseIdx free := by
    intro b
    rw [place_eq]
    exact hfit.mem_placedBlocks
  split
  · rename_i hx
    rw [hx, hplaced.home_eq_some]
    exact ⟨(hmem _).2 (Or.inl rfl), holder?_freshBlock he⟩
  · rename_i hx
    apply Option.ext
    intro b
    rw [hplaced.home_eq_some, h.home_eq_some, hmem]
    constructor
    · rintro ⟨rfl | hold, hholder⟩
      · exact absurd (Option.some.inj (hholder.symm.trans (holder?_freshBlock he))) hx
      · exact ⟨List.mem_of_mem_eraseIdx hold, hholder⟩
    · rintro ⟨hold, hholder⟩
      obtain ⟨i, hi⟩ := List.mem_iff_getElem?.1 hold
      refine ⟨Or.inr (List.mem_eraseIdx_iff_getElem?.2 ⟨i, ?_, hi⟩), hholder⟩
      rintro rfl
      have hfree := hfit.isFree
      rw [holderIn_of_getElem? hi, hholder] at hfree
      cases hfree

/-! ## What an insertion can do -/

/-- A buffer without a free block has not grown, and its kind is in use. -/
theorem Packed.crowded (h : s.Packed) (hfixed : s.layout.hasFixedStorage = true)
    {machine : Machine} {roomy : Store} (hroomy : s.reserve machine = .ok roomy) {target : Nat}
    (htarget : target ≤ roomy.capacity) (hnone : roomy.freeze.nearestFree target = none) :
    roomy.freeze = s := by
  have hroom := packed_reserve h hfixed hroomy
  obtain ⟨n, hshape, hfirst⟩ := reserve_eq_ok hroomy
  have hoccupied : ∀ i, i < roomy.capacity → ∃ x, holderIn roomy.blocks i = some x := by
    intro i hi
    cases hholder : holderIn roomy.blocks i with
    | some x => exact ⟨x, rfl⟩
    | none =>
        have hfree : roomy.freeze.isFreeAt i = true := isFreeAt_iff.2 ⟨hi, hholder⟩
        have hsome := nearestFree_isSome (s := roomy.freeze) htarget hfree
        rw [hnone] at hsome
        cases hsome
  have hcapacity : roomy.capacity = s.capacity + n := by
    rw [hshape]
    simp [capacity]
  -- a block that was added would be free
  have hgrown : n = 0 := by
    cases n with
    | zero => rfl
    | succ m =>
        obtain ⟨x, hx⟩ := hoccupied s.capacity (by omega)
        rw [hshape] at hx
        replace hx := (holderIn_append_blank _ _ _ _).symm.trans hx
        exact absurd (lt_length_of_holderIn hx) (Nat.lt_irrefl _)
  subst hgrown
  have hpositive : 0 < roomy.capacity := by omega
  obtain ⟨x, hx⟩ := hoccupied 0 hpositive
  have hsame : roomy = s := by
    rw [hshape]
    simp
  rw [hsame] at hx ⊢
  have hclosed := h.frozen_of_holder (h.mem_holders_of_holderIn hx)
  show ({ s with frozen := true } : Store) = s
  rw [← hclosed]

/-- What an insertion can do to a packed store, and what it answers. -/
inductive Inserted (machine : Machine) (s : Store) (e : EntityId) :
    Store → Except StoreError Unit → Prop where
  /-- The number is not an id. -/
  | invalid (hinvalid : ¬ e.IsValid) : Inserted machine s e s (.error (.invalidEntity e))
  /-- The entity holds the kind already. -/
  | held (hvalid : e.IsValid) (hheld : e ∈ s.holders) :
      Inserted machine s e s (.error (.duplicateComponent s.name e))
  /-- There is no room for one more block. -/
  | full (hvalid : e.IsValid) (hnew : e ∉ s.holders) (requested : Nat) :
      Inserted machine s e s (.error (.capacityOverflow s.name requested))
  /-- A property that was refused has left a template of the wrong length. -/
  | misfit (hvalid : e.IsValid) (hnew : e ∉ s.holders) (hfixed : s.layout.hasFixedStorage = true)
      (roomy : Store) (hroomy : s.reserve machine = .ok roomy)
      (htemplate : s.layout.template.length ≠ s.layout.blockSize) :
      Inserted machine s e roomy.freeze (.error (.templateMisfit s.name))
  /-- A kind without blocks notes the holder. -/
  | noted (hvalid : e.IsValid) (hnew : e ∉ s.holders) (hunfixed : s.layout.hasFixedStorage = false) :
      Inserted machine s e { s.freeze with index := s.index.insert e none } (.ok ())
  /-- A kind with blocks places one. -/
  | placed (hvalid : e.IsValid) (hnew : e ∉ s.holders) (hfixed : s.layout.hasFixedStorage = true)
      (htemplate : s.layout.template.length = s.layout.blockSize) (roomy : Store) (target free : Nat)
      (hroomy : s.reserve machine = .ok roomy) (hfit : roomy.freeze.Fits e target free) :
      Inserted machine s e (roomy.freeze.place e target free) (.ok ())

theorem insert_inserted (h : s.Packed) (machine : Machine) (e : EntityId) :
    Inserted machine s e (s.insert machine e).1 (s.insert machine e).2 := by
  unfold insert
  by_cases hvalid : e.IsValid
  · rw [if_neg (not_not_intro hvalid)]
    by_cases hheld : e ∈ s.holders
    · rw [if_pos (contains_eq_true.2 hheld)]
      exact .held hvalid hheld
    · rw [if_neg (fun hcontains => hheld (contains_eq_true.1 hcontains))]
      cases hfixed : s.layout.hasFixedStorage with
      | false =>
          rw [if_neg Bool.false_ne_true]
          exact .noted hvalid hheld hfixed
      | true =>
          rw [if_pos rfl]
          cases hroomy : s.reserve machine with
          | error cause =>
              obtain ⟨requested, rfl⟩ := reserve_eq_error hroomy
              exact .full hvalid hheld requested
          | ok roomy =>
              obtain ⟨n, hshape, -⟩ := reserve_eq_ok hroomy
              have hlayout : roomy.freeze.layout = s.layout := by rw [hshape]; rfl
              have hindex : roomy.freeze.index = s.index := by rw [hshape]; rfl
              have hname : roomy.freeze.name = s.name := by rw [hshape]; rfl
              have habsent : e ∉ roomy.freeze.holders := by
                rw [mem_holders, hindex, ← mem_holders]
                exact hheld
              dsimp only
              unfold occupy
              dsimp only
              split
              · rename_i hnone
                rw [h.crowded hfixed hroomy (preferredIndex_le_capacity e) hnone]
                exact .full hvalid hheld _
              · rename_i free hfree
                split
                · rename_i htemplate
                  exact .placed hvalid hheld hfixed (hlayout ▸ htemplate) roomy _ free hroomy
                    ((packed_reserve h hfixed hroomy).fits habsent hfree)
                · rename_i htemplate
                  rw [hname]
                  exact .misfit hvalid hheld hfixed roomy hroomy (hlayout ▸ htemplate)
  · rw [if_pos hvalid]
    exact .invalid hvalid

theorem Inserted.packed {machine : Machine} {e : EntityId} {t : Store}
    {answer : Except StoreError Unit} (hstep : Inserted machine s e t answer) (h : s.Packed) :
    t.Packed := by
  cases hstep with
  | invalid => exact h
  | held => exact h
  | full => exact h
  | misfit _ _ hfixed roomy hroomy => exact packed_reserve h hfixed hroomy
  | noted _ hnew hunfixed =>
      have hempty := h.unblocked hunfixed
      refine
        { shaped := h.shaped, blank := h.blank, ascending := h.ascending, agrees := ?_,
          housed := ?_, highest := h.highest, expected := h.expected,
          unblocked := fun _ => hempty, unused := ?_, sided := ?_ }
      · intro x i
        show (s.index.insert e none).lookup x = _ ↔ holderIn s.blocks i = some x
        rw [IdMap.lookup_insert, ← h.agrees x i]
        split
        · rename_i hx
          rw [hx]
          constructor
          · intro hnone
            cases hnone
          · intro hplace
            exact absurd (mem_holders.2 (by rw [hplace]; rfl)) hnew
        · exact Iff.rfl
      · intro hfixed
        exact absurd (hunfixed.symm.trans hfixed) Bool.false_ne_true
      · intro hopen
        cases hopen
      · intro side hside x hx
        show x ∈ (s.index.insert e none).keys
        rw [IdMap.mem_keys, IdMap.lookup_insert]
        split
        · rfl
        · exact mem_holders.1 (h.sided side hside x hx)
  | placed hvalid _ hfixed htemplate roomy target free hroomy hfit =>
      obtain ⟨n, hshape, -⟩ := reserve_eq_ok hroomy
      have hlayout : roomy.freeze.layout = s.layout := by rw [hshape]; rfl
      exact packed_place (packed_reserve h hfixed hroomy) (hlayout ▸ hfixed) rfl
        (hlayout ▸ htemplate) hvalid.1 hfit

/-- An insertion keeps the store packed, refused or not. -/
theorem packed_insert (h : s.Packed) (machine : Machine) (e : EntityId) :
    (s.insert machine e).1.Packed :=
  (insert_inserted h machine e).packed h

/-- Afterwards the entity holds the kind if the insertion was not refused, and nothing changes for
others. -/
theorem Inserted.mem_holders {machine : Machine} {e : EntityId} {t : Store}
    {answer : Except StoreError Unit} (hstep : Inserted machine s e t answer) (h : s.Packed)
    (x : EntityId) : x ∈ t.holders ↔ x ∈ s.holders ∨ x = e ∧ answer = .ok () := by
  cases hstep with
  | invalid => simp
  | held => simp
  | full => simp
  | misfit _ _ _ roomy hroomy =>
      obtain ⟨n, rfl, -⟩ := reserve_eq_ok hroomy
      simp [holders, freeze]
  | noted =>
      show x ∈ (s.index.insert e none).keys ↔ _
      rw [IdMap.mem_keys, IdMap.lookup_insert, Store.mem_holders]
      by_cases hx : x = e <;> simp [hx]
  | placed hvalid _ hfixed _ roomy target free hroomy hfit =>
      have hroom := packed_reserve h hfixed hroomy
      obtain ⟨n, rfl, -⟩ := reserve_eq_ok hroomy
      rw [mem_holders_place hroom hfixed hvalid.1 hfit]
      simp [holders, freeze, or_comm]

theorem mem_holders_insert (h : s.Packed) (machine : Machine) (e x : EntityId) :
    x ∈ (s.insert machine e).1.holders ↔
      x ∈ s.holders ∨ x = e ∧ (s.insert machine e).2 = .ok () :=
  (insert_inserted h machine e).mem_holders h x

end Store

end EntityStore
