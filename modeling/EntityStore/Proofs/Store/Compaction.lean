import EntityStore.Proofs.Store.Bytes
import EntityStore.Proofs.Store.Capacity

/-!
# A removal frees one block or compacts

A removal clears the block of the entity.  Either that is all, and everything else stays where it is,
or the remaining holders slide to the front in their order and the buffer is cut behind them.

* `Slid`: the compaction under way, a walk in which what is written never passes what is still to be
  read.  `slide?`, `Slid.run`: the walk on the bytes of the buffer, and where it ends.
* `compactBytes?_eq`: the compaction in place comes to `Store.compactTo`.
* `Frees`, `Compacts`: the two outcomes, block by block.
* `remove_frees_or_compacts`: a removal has one of them.
-/

namespace EntityStore

namespace Store

variable {machine : Machine} {e : EntityId} {blocks current : List Block} {read write size i : Nat}

/-! ## The walk of the compaction -/

/-- The occupied ones of the first so many blocks. -/
def keptBefore (blocks : List Block) (n : Nat) : List Block :=
  (blocks.take n).filter Block.isOccupied

/-- The buffer while it is compacted: the occupied blocks that were read stand at its front, and what
is still to be read stands where it was. -/
structure Slid (blocks : List Block) (read write : Nat) (current : List Block) : Prop where
  /-- The buffer keeps its length. -/
  length : current.length = blocks.length
  /-- As many blocks were written as were occupied. -/
  written : write = (keptBefore blocks read).length
  /-- They stand at the front, in their order. -/
  front : current.take write = keptBefore blocks read
  /-- The rest was not written over. -/
  unread : ∀ j, read ≤ j → current[j]? = blocks[j]?
  /-- There are no new blocks. -/
  members : ∀ b ∈ current, b ∈ blocks

theorem slid_start (blocks : List Block) : Slid blocks 0 0 blocks :=
  ⟨rfl, rfl, rfl, fun _ _ => rfl, fun _ hb => hb⟩

/-- What is written does not pass what is read. -/
theorem Slid.write_le (h : Slid blocks read write current) : write ≤ read := by
  have hkept := List.length_filter_le Block.isOccupied (blocks.take read)
  rw [List.length_take] at hkept
  have hwritten := h.written
  unfold keptBefore at hwritten
  omega

theorem keptBefore_succ {b : Block} (hb : blocks[read]? = some b) :
    keptBefore blocks (read + 1) =
      keptBefore blocks read ++ if b.isOccupied then [b] else [] := by
  unfold keptBefore
  rw [List.take_add_one, hb, List.filter_append]
  cases hoccupied : b.isOccupied <;> simp [hoccupied]

/-- A free block is passed over. -/
theorem Slid.skip (h : Slid blocks read write current) {b : Block} (hb : blocks[read]? = some b)
    (hfree : b.isOccupied = false) : Slid blocks (read + 1) write current := by
  have hkept : keptBefore blocks (read + 1) = keptBefore blocks read := by
    rw [keptBefore_succ hb, hfree, if_neg Bool.false_ne_true, List.append_nil]
  refine ⟨h.length, ?_, ?_, fun j hj => h.unread j (by omega), h.members⟩
  · rw [hkept]
    exact h.written
  · rw [hkept]
    exact h.front

/-- An occupied block goes behind those that were written, where nothing is still to be read. -/
theorem Slid.keep (h : Slid blocks read write current) {b : Block} (hb : blocks[read]? = some b)
    (hoccupied : b.isOccupied = true) : Slid blocks (read + 1) (write + 1) (current.set write b) := by
  have hle := h.write_le
  have hlt : read < blocks.length := (List.getElem?_eq_some_iff.1 hb).1
  have hroom : write < current.length := by
    rw [h.length]
    omega
  have hkept : keptBefore blocks (read + 1) = keptBefore blocks read ++ [b] := by
    rw [keptBefore_succ hb, if_pos hoccupied]
  refine ⟨?_, ?_, ?_, ?_, ?_⟩
  · rw [List.length_set, h.length]
  · rw [hkept, List.length_append, ← h.written]
    rfl
  · rw [hkept, List.take_add_one, List.take_set_of_le (Nat.le_refl write), h.front,
      List.getElem?_set_self hroom]
    rfl
  · intro j hj
    rw [List.getElem?_set_ne (by omega)]
    exact h.unread j (by omega)
  · intro c hc
    rcases List.mem_or_eq_of_mem_set hc with hold | rfl
    · exact h.members c hold
    · exact List.mem_of_getElem? hb

/-! ## The walk on bytes -/

/-- The walk of the compaction, in place: an occupied block is copied to the front unless it stands
there, and its entry in the index is changed.  The answer is none if a block to be copied does not lie
in the buffer. -/
def slide? (size : Nat) : Nat → Nat → Nat → List UInt8 → IdMap (Option Nat) →
    Option (List UInt8 × IdMap (Option Nat) × Nat)
  | 0, _, write, buffer, index => some (buffer, index, write)
  | todo + 1, read, write, buffer, index =>
    let tag := tagAt size buffer read
    if tag = EntityId.absent then slide? size todo (read + 1) write buffer index
    else if read = write then slide? size todo (read + 1) (write + 1) buffer index
    else
      (copyWithin? buffer (read * size) ((read + 1) * size) (write * size)).bind fun copied =>
        slide? size todo (read + 1) (write + 1) copied (index.insert tag (some write))

/-- One block that is copied onto another one replaces it. -/
theorem copyWithin?_single {b : Block} (hb : blocks[read]? = some b) (hwrite : write < blocks.length) :
    copyWithin? blocks read (read + 1) write = some (blocks.set write b) := by
  have hread : read < blocks.length := (List.getElem?_eq_some_iff.1 hb).1
  have hcopy := copyWithin?_eq_some blocks write (Nat.le_succ read) (by omega) (by omega)
  rw [hcopy]
  congr 1
  apply List.ext_getElem?
  intro j
  rw [getElem?_copyWithin? hcopy, List.getElem?_set]
  by_cases hj : write = j
  · rw [if_pos (by omega), if_pos hj, if_pos (by omega), ← hb]
    congr 1
    omega
  · rw [if_neg (by omega), if_neg hj]

theorem reindex_concat (run : List Block) (b : Block) (start : Nat) (index : IdMap (Option Nat)) :
    reindex (run ++ [b]) start index =
      if b.isFree then reindex run start index
      else (reindex run start index).insert b.tag (some (start + run.length)) := by
  induction run generalizing start index with
  | nil => rfl
  | cons first rest ih =>
      have hplace : start + 1 + rest.length = start + (rest.length + 1) := by omega
      rw [List.cons_append, reindex, ih, reindex, List.length_cons, hplace]

/-- Who does not stand in a run keeps the old entry. -/
theorem lookup_reindex_of_not_mem {run : List Block} (hasc : Ascending run) {x : EntityId}
    (hnot : ∀ j, holderIn run j ≠ some x) (start : Nat) (index : IdMap (Option Nat)) :
    (reindex run start index).lookup x = index.lookup x := by
  rcases lookup_reindex hasc start index x with ⟨j, hj, -⟩ | ⟨-, hlookup⟩
  · exact absurd hj (hnot j)
  · exact hlookup

theorem ascending_keptBefore (h : Ascending blocks) (n : Nat) : Ascending (keptBefore blocks n) := by
  apply ascending_filter
  have hrun := ascending_run h 0 n
  rw [List.drop_zero] at hrun
  exact hrun

/-- The holder of a block does not stand among the blocks before it. -/
theorem not_holderIn_keptBefore (h : Ascending blocks) {x : EntityId}
    (hx : holderIn blocks read = some x) (j : Nat) : holderIn (keptBefore blocks read) j ≠ some x := by
  intro hj
  obtain ⟨b, hb, hholder⟩ := exists_holderIn_iff.1 ⟨j, hj⟩
  obtain ⟨k, hk⟩ := List.mem_iff_getElem?.1 (List.mem_filter.1 hb).1
  rw [List.getElem?_take] at hk
  split at hk
  · have hsame := h.place_unique ((holderIn_of_getElem? hk).trans hholder) hx
    omega
  · cases hk

variable [CustomTypes] {s t : Store}

/-- The walk over so many blocks succeeds.  It leaves the occupied ones at the front of the buffer,
and the index as if all of them had been entered anew. -/
theorem Slid.run (h : s.Packed) (htagged : s.Tagged) {todo : Nat} {index : IdMap (Option Nat)}
    (hslid : Slid s.blocks read write current) (hend : read + todo ≤ s.blocks.length)
    (hindex : ∀ x, index.lookup x = (reindex (keptBefore s.blocks read) 0 s.index).lookup x) :
    ∃ out final last, slide? s.layout.blockSize todo read write (current.flatMap Block.bytes) index =
        some (out.flatMap Block.bytes, final, last) ∧
      Slid s.blocks (read + todo) last out ∧
      ∀ x, final.lookup x = (reindex (keptBefore s.blocks (read + todo)) 0 s.index).lookup x := by
  induction todo generalizing read write current index with
  | zero => exact ⟨current, index, write, rfl, hslid, hindex⟩
  | succ todo ih =>
      have hlt : read < s.blocks.length := by omega
      obtain ⟨b, hb⟩ : ∃ b, s.blocks[read]? = some b := ⟨_, List.getElem?_eq_getElem hlt⟩
      have hcurrent : current[read]? = some b := (hslid.unread read (Nat.le_refl read)).trans hb
      have hsize : ∀ c ∈ current, c.bytes.length = s.layout.blockSize :=
        fun c hc => length_bytes h (hslid.members c hc)
      have htag := tagAt_flatMap hsize hcurrent (htagged b (List.mem_of_getElem? hb))
      have hnext : read + (todo + 1) = read + 1 + todo := by omega
      unfold slide?
      dsimp only
      rw [htag, hnext]
      cases hoccupied : b.isOccupied with
      | false =>
          have hfree : b.tag = EntityId.absent := by
            simpa [Block.isOccupied, Block.isFree] using hoccupied
          rw [if_pos hfree]
          refine ih (hslid.skip hb hoccupied) (by omega) fun x => ?_
          rw [keptBefore_succ hb, hoccupied, if_neg Bool.false_ne_true, List.append_nil]
          exact hindex x
      | true =>
          have hfree : ¬ b.isFree = true := by
            simpa [Block.isOccupied] using hoccupied
          have hholds : b.tag ≠ EntityId.absent := by
            simpa [Block.isFree] using hfree
          have hkept : reindex (keptBefore s.blocks (read + 1)) 0 s.index =
              (reindex (keptBefore s.blocks read) 0 s.index).insert b.tag (some write) := by
            rw [keptBefore_succ hb, if_pos hoccupied, reindex_concat, if_neg hfree, Nat.zero_add,
              ← hslid.written]
          have hkeep := hslid.keep hb hoccupied
          rw [if_neg hholds]
          split
          · -- the block stands where it belongs, and so does its entry
            rename_i hplace
            have hsame : current.set write b = current := by
              rw [← hplace]
              obtain ⟨hin, rfl⟩ := List.getElem?_eq_some_iff.1 hcurrent
              exact List.set_getElem_self hin
            rw [hsame] at hkeep
            refine ih hkeep (by omega) fun x => ?_
            rw [hkept, IdMap.lookup_insert, hindex]
            split
            · rename_i hx
              have hholder : holderIn s.blocks read = some b.tag :=
                (holderIn_of_getElem? hb).trans (isOccupied_iff.1 hoccupied)
              rw [hx, lookup_reindex_of_not_mem (ascending_keptBefore h.ascending read)
                (not_holderIn_keptBefore h.ascending hholder), (h.agrees _ _).2 hholder, hplace]
            · rfl
          · have hle := hslid.write_le
            have hroom : write < current.length := by
              rw [hslid.length]
              omega
            rw [copyWithin?_flatMap hsize (copyWithin?_single hcurrent hroom), Option.bind_some]
            refine ih hkeep (by omega) fun x => ?_
            rw [hkept, IdMap.lookup_insert, IdMap.lookup_insert, hindex]

/-- How many blocks the walk of a compaction covers: those up to the highest occupied one. -/
def reach (s : Store) : Nat :=
  match s.highest with
  | none => 0
  | some top => top + 1

theorem occupiedRange_eq_take (s : Store) : s.occupiedRange = s.blocks.take s.reach := by
  unfold occupiedRange reach
  cases s.highest <;> rfl

theorem Packed.reach_le (h : s.Packed) : s.reach ≤ s.blocks.length := by
  have hhigh := h.highest
  unfold reach
  cases htop : s.highest with
  | none => exact Nat.zero_le _
  | some top =>
      rw [htop] at hhigh
      obtain ⟨x, hx⟩ := Option.ne_none_iff_exists'.1 hhigh.1
      exact lt_length_of_holderIn hx

/-- The buffer, the index and the number of holders after a compaction, computed in place: the
occupied blocks slide to the front, the buffer is cut, and what stands behind them is filled with
zeros. -/
def compactBytes? (s : Store) (capacity : Nat) :
    Option (List UInt8 × IdMap (Option Nat) × Nat) :=
  let size := s.layout.blockSize
  (slide? size s.reach 0 0 s.buffer s.index).map fun (buffer, index, write) =>
    let cut := buffer.take (capacity * size)
    (cut.take (write * size) ++ List.replicate (cut.length - write * size) 0, index, write)

/-- The compaction in place is the compaction of the blocks, if it leaves no holder out and does not
ask for more blocks than there are. -/
theorem compactBytes?_eq (h : s.Packed) (htagged : s.Tagged)
    (hfixed : s.layout.hasFixedStorage = true) {capacity : Nat} (hroom : s.count ≤ capacity)
    (hcut : capacity ≤ s.capacity) :
    ∃ index, s.compactBytes? capacity = some ((s.compactTo capacity).buffer, index, s.count) ∧
      ∀ x, index.lookup x = (s.compactTo capacity).index.lookup x := by
  have hend : 0 + s.reach ≤ s.blocks.length := by
    rw [Nat.zero_add]
    exact h.reach_le
  have hstart : ∀ x, s.index.lookup x =
      (reindex (keptBefore s.blocks 0) 0 s.index).lookup x := fun _ => rfl
  obtain ⟨out, index, last, hslide, hslid, hindex⟩ :=
    (slid_start s.blocks).run h htagged hend hstart
  rw [Nat.zero_add] at hslid hindex
  have hkept : keptBefore s.blocks s.reach = s.occupiedRange.filter Block.isOccupied := by
    rw [occupiedRange_eq_take]
    rfl
  have hlast : last = s.count := by
    rw [hslid.written, hkept]
    exact h.length_kept hfixed
  have hsize : ∀ b ∈ out, b.bytes.length = s.layout.blockSize :=
    fun b hb => length_bytes h (hslid.members b hb)
  have hcutSize : ∀ b ∈ out.take capacity, b.bytes.length = s.layout.blockSize :=
    fun b hb => hsize b (List.mem_of_mem_take hb)
  have hcutLength : (out.take capacity).length = capacity := by
    rw [List.length_take, hslid.length]
    exact Nat.min_eq_left hcut
  have hfront : (out.take capacity).take last = s.occupiedRange.filter Block.isOccupied := by
    rw [List.take_take, Nat.min_eq_left (by omega), hslid.front, hkept]
  refine ⟨index, ?_, ?_⟩
  · unfold compactBytes? buffer
    dsimp only
    rw [hslide, Option.map_some, take_flatMap_bytes hsize, take_flatMap_bytes hcutSize, hfront,
      length_flatMap_bytes hcutSize, hcutLength, ← Nat.sub_mul, hlast]
    unfold compactTo
    dsimp only
    rw [List.flatMap_append, flatMap_blank, h.length_kept hfixed]
    rfl
  · intro x
    rw [hindex, hkept]
    rfl

/-! ## The blocks after a compaction -/

section Compacted

variable {capacity : Nat} (h : s.Packed) (hfixed : s.layout.hasFixedStorage = true)

include h hfixed

theorem highest_compactTo :
    (s.compactTo capacity).highest = if s.count = 0 then none else some (s.count - 1) := by
  have hkept := h.length_kept hfixed
  unfold compactTo
  simp only [List.isEmpty_iff, ← List.length_eq_zero_iff, hkept]

/-- Behind the holders there are blank blocks. -/
theorem blockAt_compactTo_of_le {k : Nat} (hcount : s.count ≤ k) (hk : k < capacity) :
    (s.compactTo capacity).blockAt k = .free := by
  have hkept := h.length_kept hfixed
  have hblank : (s.compactTo capacity).blocks[k]? = some (Block.blank s.layout.dataSize) := by
    show (s.occupiedRange.filter Block.isOccupied ++ List.replicate _ _)[k]? = _
    rw [List.getElem?_append_right (by omega), List.getElem?_replicate, if_pos (by omega)]
  unfold blockAt
  rw [hblank]
  exact if_pos (Block.isFree_blank _)

/-- The holders stand at the front in ascending order, each with the block that it had. -/
theorem sameAt_compactTo (hpacked : (s.compactTo capacity).Packed) {k : Nat} {x : EntityId}
    (hx : s.holders.toList[k]? = some x) :
    ∃ j, s.blockAt j = .occupied x ∧ s.SameAt j (s.compactTo capacity) k := by
  have hwalk := h.blockOrder_eq
  unfold blockOrder at hwalk
  rw [if_pos hfixed] at hwalk
  rw [← hwalk, List.getElem?_map] at hx
  obtain ⟨b, hb, rfl⟩ := Option.map_eq_some_iff.1 hx
  have hmem := List.mem_of_getElem? hb
  rw [filter_occupiedRange h.highest] at hmem
  obtain ⟨hold, hoccupied⟩ := List.mem_filter.1 hmem
  obtain ⟨j, hj⟩ := List.mem_iff_getElem?.1 hold
  have hk : (s.compactTo capacity).blocks[k]? = some b := by
    show (s.occupiedRange.filter Block.isOccupied ++ List.replicate _ _)[k]? = some b
    rw [List.getElem?_append_left (List.getElem?_eq_some_iff.1 hb).1, hb]
  refine ⟨j, ?_, sameAt_of_getElem? h hpacked (hk.trans hj.symm)⟩
  rw [blockAt_eq_occupied, holderIn_of_getElem? hj]
  exact isOccupied_iff.1 hoccupied

end Compacted

/-! ## The two outcomes -/

/-- A removal clears the block of the entity and moves nothing. -/
structure Frees (s : Store) (e : EntityId) (i : Nat) (t : Store) : Prop where
  /-- The buffer keeps its length. -/
  capacity : t.capacity = s.capacity
  /-- The block of the entity is free, and zero. -/
  cleared : t.blockAt i = .free ∧ t.bytesAt i = List.replicate s.layout.blockSize 0
  /-- Every other entity keeps its block. -/
  kept : ∀ x ∈ s.holders, x ≠ e →
    ∃ j, s.blockIndex x = .ok j ∧ t.blockIndex x = .ok j ∧ s.SameAt j t j
  /-- So does every other index. -/
  others : ∀ j, j ≠ i → s.SameAt j t j
  /-- The highest occupied place is the largest of those that are left. -/
  highest : ∀ j, t.highest = some j ↔
    (∃ x, t.blockAt j = .occupied x) ∧ ∀ k x, t.blockAt k = .occupied x → k ≤ j
  /-- There is none if no block is occupied. -/
  unoccupied : t.highest = none ↔ ∀ j x, t.blockAt j ≠ .occupied x

/-- A removal brings the blocks of the remaining holders to the front and cuts the buffer. -/
structure Compacts (s : Store) (e : EntityId) (t : Store) : Prop where
  /-- The remaining holders stand at the front in ascending order, each with its old block. -/
  front : ∀ k x, (s.holders.erase e).toList[k]? = some x →
    ∃ j, s.blockIndex x = .ok j ∧ t.blockIndex x = .ok k ∧ s.SameAt j t k
  /-- Behind them every block is free, and zero. -/
  zeros : ∀ k, (s.holders.erase e).size ≤ k → k < t.capacity →
    t.blockAt k = .free ∧ t.bytesAt k = List.replicate s.layout.blockSize 0
  /-- The highest occupied place is that of the last holder. -/
  highest : t.highest =
    if (s.holders.erase e).size = 0 then none else some ((s.holders.erase e).size - 1)
  /-- A block is free. -/
  room : (s.holders.erase e).size < t.capacity
  /-- The buffer is as large as expected. -/
  expected : s.config.expectedCapacity ≤ t.capacity
  /-- It has not grown. -/
  capacity_le : t.capacity ≤ s.capacity

/-- What a removal does to a store with blocks, when the block of the entity is known. -/
structure Removes (s : Store) (e : EntityId) (i : Nat) (t : Store) : Prop where
  /-- The entity is a holder no more, and the others still are. -/
  holders : t.holders = s.holders.erase e
  /-- The index and the tags of the blocks match. -/
  index : ∀ x j, t.blockIndex x = .ok j ↔ t.blockAt j = .occupied x
  /-- The values of the entity are gone from the side maps, and only they. -/
  sides : t.sides = s.sides.map (·.erase e)
  /-- The buffer has the bytes of its blocks and no others. -/
  buffer : t.buffer.length = t.capacity * s.layout.blockSize
  /-- One block is freed, or the store is compacted. -/
  outcome : s.Frees e i t ∨ s.Compacts e t
  /-- The block is cleared in place. -/
  clears : overwrite? s.buffer (i * s.layout.blockSize) (List.replicate s.layout.blockSize 0) =
    some ((s.forget e).vacate i).buffer
  /-- The others are moved in place, if they move. -/
  slides : t = (s.forget e).vacate i ∨
    ∃ index, ((s.forget e).vacate i).compactBytes? t.capacity = some (t.buffer, index, t.count) ∧
      ∀ x, index.lookup x = t.index.lookup x

theorem holders_forget (s : Store) (e : EntityId) : (s.forget e).holders = s.holders.erase e := by
  ext x
  rw [IdSet.mem_erase, mem_holders, mem_holders]
  show ((s.index.erase e).lookup x).isSome = true ↔ _
  rw [IdMap.lookup_erase]
  by_cases hx : x = e <;> simp [hx]

/-- Clearing a block in place is clearing the block. -/
theorem overwrite?_vacate (h : s.Packed) (hi : i < s.blocks.length) :
    overwrite? s.buffer (i * s.layout.blockSize) (List.replicate s.layout.blockSize 0) =
      some ((s.forget e).vacate i).buffer := by
  have hblank := bytes_blank s.layout.dataSize
  have hwritten := overwrite?_flatMap (fun _ hb => length_bytes h hb) hi
    (b := Block.blank s.layout.dataSize) (by rw [hblank, List.length_replicate]; rfl)
  rw [hblank] at hwritten
  exact hwritten

section Outcomes

variable (h : s.Packed) (hplace : s.index.lookup e = some (some i))

include h hplace

theorem getElem?_vacate_self : ((s.forget e).vacate i).blocks[i]? =
    some (Block.blank s.layout.dataSize) := by
  have hi := lt_length_of_holderIn ((h.agrees e i).1 hplace)
  exact List.getElem?_set_self hi

theorem frees_vacate : s.Frees e i ((s.forget e).vacate i) := by
  have hvacated := packed_vacate h hplace
  have hothers : ∀ j, j ≠ i → s.SameAt j ((s.forget e).vacate i) j := by
    intro j hj
    exact sameAt_of_getElem? h hvacated (List.getElem?_set_ne (Ne.symm hj))
  have hfree : ((s.forget e).vacate i).blockAt i = .free := by
    unfold blockAt
    rw [getElem?_vacate_self h hplace]
    exact if_pos (Block.isFree_blank _)
  refine ⟨List.length_set, ⟨hfree, hvacated.free_bytes hfree⟩, ?_, hothers,
    hvacated.highest_eq_some, hvacated.highest_eq_none⟩
  intro x hx hne
  obtain ⟨j, hj⟩ := h.exists_holderIn (h.hasFixedStorage_of_lookup hplace) hx
  have hother : j ≠ i := by
    rintro rfl
    exact hne (Option.some.inj (hj.symm.trans ((h.agrees e j).1 hplace)))
  have hstays := hothers j hother
  refine ⟨j, h.blockIndex_iff.2 (blockAt_eq_occupied.2 hj), hvacated.blockIndex_iff.2 ?_, hstays⟩
  rw [hstays.state, blockAt_eq_occupied.2 hj]

/-- What stands in a buffer after a block was cleared and the others were slid to the front. -/
theorem compacts_compactTo {capacity : Nat} (hroom : ((s.forget e).vacate i).count < capacity)
    (hexpected : s.config.expectedCapacity ≤ capacity) (hcut : capacity ≤ s.capacity) :
    s.Compacts e (((s.forget e).vacate i).compactTo capacity) := by
  have hfixed := h.hasFixedStorage_of_lookup hplace
  have hclosed := h.frozen_of_holder (mem_holders.2 (by rw [hplace]; rfl))
  have hvacated := packed_vacate h hplace
  have hpacked := packed_compactTo hvacated hfixed hclosed hexpected
  have hfrees := frees_vacate h hplace
  have hholders : ((s.forget e).vacate i).holders = s.holders.erase e := holders_forget s e
  have hsize : (s.holders.erase e).size = ((s.forget e).vacate i).count := by
    rw [← hholders]
    exact length_toList_holders _
  have hcapacity := capacity_compactTo hvacated hfixed (Nat.le_of_lt hroom)
  constructor
  · intro k x hx
    rw [← hholders] at hx
    obtain ⟨j, hj, hsame⟩ := sameAt_compactTo hvacated hfixed hpacked hx
    have hother : j ≠ i := by
      rintro rfl
      rw [hfrees.cleared.1] at hj
      cases hj
    have hstays := hfrees.others j hother
    refine ⟨j, h.blockIndex_iff.2 ?_, hpacked.blockIndex_iff.2 ?_, hstays.trans hsame⟩
    · rw [← hstays.state, hj]
    · rw [hsame.state, hj]
  · intro k hcount hk
    rw [hsize] at hcount
    rw [hcapacity] at hk
    have hfree := blockAt_compactTo_of_le hvacated hfixed hcount hk
    exact ⟨hfree, hpacked.free_bytes hfree⟩
  · rw [hsize]
    exact highest_compactTo hvacated hfixed
  · rw [hsize, hcapacity]
    exact hroom
  · rw [hcapacity]
    exact hexpected
  · rw [hcapacity]
    exact hcut

end Outcomes

/-- Removing a holder from a store with blocks clears its block, and then moves nothing, or slides the
blocks of the others to the front and cuts the buffer; so it does if dividing a capacity by the growth
factor does not make it larger. -/
theorem remove_frees_or_compacts (h : Arises machine s) (hfixed : s.layout.hasFixedStorage = true)
    (he : e ∈ s.holders) (hshrunk : s.config.shrunk machine.rounding s.capacity ≤ s.capacity) :
    (s.remove machine e).2 = true ∧
      ∃ i, s.blockIndex e = .ok i ∧ s.Removes e i (s.remove machine e).1 := by
  have hs := h.packed
  have hafter := packed_remove hs machine e
  obtain ⟨i, hi⟩ := hs.exists_holderIn hfixed he
  have hplace := (hs.agrees e i).2 hi
  have hclear := overwrite?_vacate hs (lt_length_of_holderIn hi) (e := e)
  have htagged : ((s.forget e).vacate i).Tagged := by
    intro b hb
    rcases List.mem_or_eq_of_mem_set hb with hold | rfl
    · exact h.tagged b hold
    · exact tag_blank _
  refine ⟨?_, i, blockIndex_eq_ok.2 hplace, ?_⟩
  · rw [remove_answer]
    exact contains_eq_true.2 he
  have hholders : (s.remove machine e).1.holders = s.holders.erase e := by
    ext x
    rw [mem_holders_remove hs, IdSet.mem_erase]
  have hbuffer := length_flatMap_bytes fun _ hb => length_bytes hafter hb
  have hlayout : (s.remove machine e).1.layout = s.layout := (remove_frame machine e).1
  rw [hlayout] at hbuffer
  have hremove : (s.remove machine e).1 = ((s.forget e).vacate i).compactIfSparse machine := by
    unfold remove
    rw [hplace]
  have hsides : (s.remove machine e).1.sides = s.sides.map (·.erase e) := by
    rcases (remove_frame machine e).2.2.2 with ⟨-, habsent⟩ | hsides
    · exact absurd he habsent
    · exact hsides
  have hlength : ((s.forget e).vacate i).capacity = s.capacity := List.length_set
  unfold compactIfSparse at hremove
  dsimp only at hremove
  rw [hlength] at hremove
  split at hremove
  · rename_i hsparse
    obtain ⟨-, hexpected, hroom⟩ := hsparse
    have hvacated := packed_vacate hs hplace
    have hcompacts := compacts_compactTo hs hplace hroom hexpected hshrunk
    have hcapacity := capacity_compactTo hvacated hfixed (Nat.le_of_lt hroom)
    have hcut : s.config.shrunk machine.rounding s.capacity ≤ ((s.forget e).vacate i).capacity := by
      rw [hlength]
      exact hshrunk
    obtain ⟨index, hbytes, hindex⟩ :=
      compactBytes?_eq hvacated htagged hfixed (Nat.le_of_lt hroom) hcut
    refine ⟨hholders, fun x j => hafter.blockIndex_iff, hsides, hbuffer, Or.inr ?_,
      hclear, Or.inr ⟨index, ?_, ?_⟩⟩
    · rw [hremove]
      exact hcompacts
    · rw [hremove, count_compactTo hvacated, hcapacity]
      exact hbytes
    · rw [hremove]
      exact hindex
  · refine ⟨hholders, fun x j => hafter.blockIndex_iff, hsides, hbuffer, Or.inl ?_,
      hclear, Or.inl hremove⟩
    rw [hremove]
    exact frees_vacate hs hplace

end Store

end EntityStore

namespace EntityStore.Store

attribute [local instance] CustomTypes.none

/-- Five holders have made a buffer of eight blocks.  When the last but one goes, the buffer is halved
and the last one stands at its front. -/
theorem last_holder_slides_to_front :
    let s := ((((filled .standard { StoreConfig.default with expectedCapacity := 2 }
      [1, 2, 3, 4, 5]).remove .standard 1).1.remove .standard 2).1.remove .standard 3).1
    s.config.shrunk Machine.standard.rounding s.capacity ≤ s.capacity ∧
    (s.remove .standard 4).2 = true ∧
    (∃ i, s.blockIndex 4 = .ok i ∧ s.Removes 4 i (s.remove .standard 4).1) ∧
    (List.range 8).map s.blockAt =
      [.free, .free, .free, .occupied 4, .occupied 5, .free, .free, .free] ∧
    (List.range 5).map (s.remove .standard 4).1.blockAt =
      [.occupied 5, .free, .free, .free, .outOfRange] := by
  intro s
  have harises : s.Arises .standard :=
    .remove (.remove (.remove (arises_filled (by decide +kernel) _) 1) 2) 3
  have hshrunk : s.config.shrunk Machine.standard.rounding s.capacity ≤ s.capacity := by
    decide +kernel
  have hremoves := remove_frees_or_compacts harises (by decide +kernel) (e := 4)
    (by decide +kernel) hshrunk
  exact ⟨hshrunk, hremoves.1, hremoves.2, by decide +kernel, by decide +kernel⟩

end EntityStore.Store
