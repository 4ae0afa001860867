import EntityStore.Proofs.Store.Bytes
import EntityStore.Proofs.Store.Stored

/-!
# An insertion moves as little as possible

A new holder goes where the order asks for it, and the blocks between there and the nearest free
block make room by moving one place each.  Nothing else in the buffer moves.

* `Grown`: what a reservation adds to the buffer, and that it moves nothing.
* `placeBytes?`: the placement on the bytes of the buffer, by a copy of the run onto itself, with the
  tags of the moved blocks read back for the index.  `placeBytes?_eq`: it comes to `Store.place`.
* `InRun`, `movedTo`: which blocks move, and where to.
* `insert_moves_least`: the buffer and the index after an insertion, block by block.
-/

namespace EntityStore

variable [CustomTypes]

namespace Store

variable {s t roomy : Store} {machine : Machine} {e : EntityId} {target free i : Nat}

/-! ## Room -/

/-- A store has got more blocks, all of them free. -/
structure Grown (s roomy : Store) : Prop where
  /-- No block is lost. -/
  capacity : s.capacity ≤ roomy.capacity
  /-- The buffer is the old one with zeros behind it. -/
  buffer : roomy.buffer =
    s.buffer ++ List.replicate ((roomy.capacity - s.capacity) * s.layout.blockSize) 0
  /-- What stood at an index stands there still. -/
  kept : ∀ i, i < s.capacity → s.SameAt i roomy i
  /-- The new blocks are free. -/
  added : ∀ i, s.capacity ≤ i → i < roomy.capacity → roomy.blockAt i = .free
  /-- The index is as it was. -/
  index : roomy.index = s.index

theorem grown_of_reserve (h : s.Packed) (hfixed : s.layout.hasFixedStorage = true)
    (hroomy : s.reserve machine = .ok roomy) : s.Grown roomy.freeze := by
  have hroom := packed_reserve h hfixed hroomy
  obtain ⟨n, rfl, -⟩ := reserve_eq_ok hroomy
  have hcapacity : (s.blocks ++ List.replicate n (Block.blank s.layout.dataSize)).length =
      s.capacity + n := by
    simp [Store.capacity]
  constructor
  · show s.capacity ≤ (s.blocks ++ _).length
    omega
  · have hadded : (s.blocks ++ List.replicate n (Block.blank s.layout.dataSize)).length -
        s.capacity = n := by omega
    show (s.blocks ++ _).flatMap Block.bytes = _ ++ List.replicate (((s.blocks ++ _).length - _) * _) 0
    rw [hadded, List.flatMap_append, flatMap_blank]
    rfl
  · intro i hi
    exact sameAt_of_getElem? h hroom (List.getElem?_append_left hi)
  · intro i hold hnew
    have hget : (s.blocks ++ List.replicate n (Block.blank s.layout.dataSize))[i]? =
        some (Block.blank s.layout.dataSize) := by
      rw [List.getElem?_append_right hold, List.getElem?_replicate, if_pos]
      replace hnew : i < (s.blocks ++ _).length := hnew
      unfold Store.capacity at hold hcapacity
      omega
    unfold blockAt freeze
    dsimp only
    rw [hget]
    exact if_pos (Block.isFree_blank _)
  · rfl

/-! ## The run -/

/-- A block stands between the target and the free block of an insertion. -/
def InRun (target free i : Nat) : Prop := target ≤ i ∧ i < free ∨ free < i ∧ i < target

/-- Where a block of the run stands after the insertion: one place nearer to the free block. -/
def movedTo (target free i : Nat) : Nat := if target ≤ free then i + 1 else i - 1

namespace Fits

/-- The new block stands at the end of the run that the free block does not lie at. -/
theorem getElem?_placed (hfit : s.Fits e target free) :
    (s.placedBlocks e target free)[placedAt target free]? = some (s.freshBlock e) := by
  rw [hfit.getElem?_placedBlocks, if_neg (Nat.lt_irrefl _), if_pos rfl]

/-- The blocks of the run move by one. -/
theorem getElem?_moved (hfit : s.Fits e target free) (hi : InRun target free i) :
    (s.placedBlocks e target free)[movedTo target free i]? = s.blocks[i]? := by
  have hrun := run_cases target free
  rw [hfit.getElem?_placedBlocks]
  unfold InRun at hi
  unfold movedTo
  by_cases hup : target ≤ free
  · rw [if_pos hup, if_neg (by omega), if_neg (by omega), if_pos (by omega), Nat.add_sub_cancel]
  · have hback : i - 1 + 1 = i := by omega
    rw [if_neg hup, if_pos (by omega), if_neg (by omega), hback]

/-- No other block moves. -/
theorem getElem?_outside (hfit : s.Fits e target free) (hi : ¬ InRun target free i)
    (hfree : i ≠ free) : (s.placedBlocks e target free)[i]? = s.blocks[i]? := by
  have hrun := run_cases target free
  unfold InRun at hi
  rw [hfit.getElem?_placedBlocks]
  split
  · rw [if_pos (by omega)]
  · rw [if_neg (by omega), if_neg (by omega)]

end Fits

/-! ## The placement on bytes -/

/-- Where the run of an insertion starts before it moves. -/
def runFrom (target free : Nat) : Nat := if target ≤ free then target else free + 1

/-- The index with the holders of some consecutive blocks entered anew, by the tags that stand in the
buffer. -/
def reenter (size : Nat) (buffer : List UInt8) : Nat → Nat → IdMap (Option Nat) →
    IdMap (Option Nat)
  | 0, _, index => index
  | n + 1, i, index =>
    let tag := tagAt size buffer i
    reenter size buffer n (i + 1) (if tag = EntityId.absent then index else index.insert tag (some i))

/-- The buffer and the index after a placement, computed in place.  The run is copied over itself, one
block farther; its tags are read back; the template is copied into the gap, and the tag of the new
holder over its front. -/
def placeBytes? (s : Store) (e : EntityId) (target free : Nat) :
    Option (List UInt8 × IdMap (Option Nat)) :=
  let size := s.layout.blockSize
  let start := runFrom target free
  let moved := runLength target free
  let dest := runStart target free
  let placed := placedAt target free
  (copyWithin? s.buffer (start * size) ((start + moved) * size) (dest * size)).bind fun shifted =>
    let index := (reenter size shifted moved dest s.index).insert e (some placed)
    ((overwrite? shifted (placed * size) s.layout.template).bind fun stamped =>
      overwrite? stamped (placed * size) (littleEndian headerSize e)).map fun buffer =>
        (buffer, index)

omit [CustomTypes] in
/-- Tags that are read back are those of the blocks. -/
theorem reenter_flatMap {blocks : List Block} {size : Nat}
    (hsize : ∀ b ∈ blocks, b.bytes.length = size) (htags : ∀ b ∈ blocks, b.tag ≤ EntityId.ceiling)
    {n start : Nat} (hend : start + n ≤ blocks.length) (index : IdMap (Option Nat)) :
    reenter size (blocks.flatMap Block.bytes) n start index =
      reindex ((blocks.drop start).take n) start index := by
  induction n generalizing start index with
  | zero => rfl
  | succ n ih =>
      have hlt : start < blocks.length := by omega
      have hget := List.getElem?_eq_getElem hlt
      have htag := tagAt_flatMap hsize hget (htags _ (List.getElem_mem hlt))
      rw [List.drop_eq_getElem_cons hlt, List.take_succ_cons]
      unfold reenter reindex
      dsimp only
      rw [htag, ih (by omega)]
      congr 2
      unfold Block.isFree
      simp only [beq_iff_eq]

namespace Fits

/-- Copying the run and replacing one block is taking the free block out and putting the new one
in. -/
theorem copyWithin?_blocks (hfit : s.Fits e target free) :
    ∃ shifted, copyWithin? s.blocks (runFrom target free)
        (runFrom target free + runLength target free) (runStart target free) = some shifted ∧
      shifted.set (placedAt target free) (s.freshBlock e) = s.placedBlocks e target free ∧
      (shifted.drop (runStart target free)).take (runLength target free) =
        ((s.placedBlocks e target free).drop (runStart target free)).take
          (runLength target free) := by
  have hrun := run_cases target free
  have hfree := hfit.free_lt
  have htarget := hfit.target_le
  have hfrom : target ≤ free ∧ runFrom target free = target ∨
      free < target ∧ runFrom target free = free + 1 := by
    unfold runFrom
    split <;> omega
  unfold capacity at hfree htarget
  have hspan : runFrom target free ≤ runFrom target free + runLength target free :=
    Nat.le_add_right _ _
  have hcopy := copyWithin?_eq_some s.blocks (runStart target free) hspan (by omega) (by omega)
  generalize hshifted : s.blocks.take (runStart target free) ++ _ = shifted at hcopy
  have hget := getElem?_copyWithin? hcopy
  have hlength := length_copyWithin? hcopy
  have hset : shifted.set (placedAt target free) (s.freshBlock e) =
      s.placedBlocks e target free := by
    apply List.ext_getElem?
    intro i
    rw [List.getElem?_set, hfit.getElem?_placedBlocks, hget]
    by_cases hplaced : placedAt target free = i
    · rw [if_pos hplaced, if_pos (by omega), if_neg (by omega), if_pos hplaced.symm]
    · rw [if_neg hplaced]
      -- the new block stands before the run that has moved up, or behind the one that has moved down
      rcases Nat.lt_or_ge i (placedAt target free) with hbefore | hbehind
      · rw [if_pos hbefore]
        by_cases hbelow : i < free
        · rw [if_pos hbelow, if_neg (by omega)]
        · rw [if_neg hbelow, if_pos (by omega)]
          congr 1
          omega
      · have hnotBefore : ¬ i < placedAt target free := by omega
        have hnotPlaced : ¬ i = placedAt target free := by omega
        rw [if_neg hnotBefore, if_neg hnotPlaced]
        by_cases hwithin : i ≤ free
        · rw [if_pos hwithin, if_pos (by omega)]
          congr 1
          omega
        · rw [if_neg hwithin, if_neg (by omega)]
  refine ⟨shifted, hcopy, hset, ?_⟩
  rw [← hset]
  apply List.ext_getElem?
  intro i
  rw [List.getElem?_take, List.getElem?_take]
  split
  · rw [List.getElem?_drop, List.getElem?_drop, List.getElem?_set_ne (by omega)]
  · rfl

/-- The placement on bytes is the placement on blocks. -/
theorem placeBytes?_eq (hfit : s.Fits e target free) (h : s.Packed) (htagged : s.Tagged)
    (htemplate : s.layout.template.length = s.layout.blockSize) :
    s.placeBytes? e target free =
      some ((s.place e target free).buffer, (s.place e target free).index) := by
  obtain ⟨shifted, hcopy, hset, hrunSame⟩ := hfit.copyWithin?_blocks
  have hrun := run_cases target free
  have hfree := hfit.free_lt
  have htarget := hfit.target_le
  have hlength := length_copyWithin? hcopy
  unfold capacity at hfree htarget
  have hsize : ∀ b ∈ s.blocks, b.bytes.length = s.layout.blockSize := fun b hb => length_bytes h hb
  have hmem : ∀ b ∈ shifted, b ∈ s.blocks := by
    intro b hb
    obtain ⟨i, hi⟩ := List.mem_iff_getElem?.1 hb
    rw [getElem?_copyWithin? hcopy] at hi
    split at hi <;> exact List.mem_of_getElem? hi
  have hsizeShifted : ∀ b ∈ shifted, b.bytes.length = s.layout.blockSize :=
    fun b hb => hsize b (hmem b hb)
  have hfresh : (s.freshBlock e).bytes =
      littleEndian headerSize e ++ s.layout.template.drop headerSize := rfl
  have hheader : (littleEndian headerSize e).length = headerSize := length_littleEndian _ _
  have hwithin : headerSize ≤ s.layout.template.length := by
    rw [htemplate, Layout.blockSize]
    omega
  have hfreshSize : (s.freshBlock e).bytes.length = s.layout.blockSize := by
    rw [hfresh, List.length_append, List.length_drop, hheader, htemplate, Layout.blockSize]
    omega
  have hfront : (littleEndian headerSize e).length ≤ s.layout.template.length := by
    rw [hheader]
    exact hwithin
  have hstamp := overwrite?_overwrite? (shifted.flatMap Block.bytes)
    (placedAt target free * s.layout.blockSize) hfront
  rw [hheader, ← hfresh, overwrite?_flatMap hsizeShifted (by omega) hfreshSize, hset] at hstamp
  unfold placeBytes? buffer
  dsimp only
  rw [copyWithin?_flatMap hsize hcopy, Option.bind_some, hstamp, Option.map_some,
    reenter_flatMap hsizeShifted (fun b hb => htagged b (hmem b hb)) (by omega), hrunSame, place_eq]

end Fits

/-! ## The insertion -/

/-- The preferred index is the start of the buffer, or it is just past a smaller holder. -/
theorem preferredIndex_eq_zero_or (hhigh : IsHighest s.blocks s.highest) (e : EntityId) :
    s.preferredIndex e = 0 ∨
      ∃ x, s.blockAt (s.preferredIndex e - 1) = .occupied x ∧ x < e := by
  cases hcount : s.preferredIndex e with
  | zero => exact Or.inl rfl
  | succ last =>
      obtain ⟨b, hb, htest⟩ := countThroughLast_last hcount
      obtain ⟨hoccupied, hless⟩ := Bool.and_eq_true_iff.1 htest
      refine Or.inr ⟨b.tag, ?_, of_decide_eq_true hless⟩
      rw [Nat.add_sub_cancel, blockAt_eq_occupied, ← holderIn_occupiedRange hhigh,
        holderIn_of_getElem? hb]
      exact isOccupied_iff.1 hoccupied

theorem blockAt_eq_free : s.blockAt i = .free ↔ s.isFreeAt i = true := by
  unfold isFreeAt
  rw [beq_iff_eq]

/-- An insertion that is not refused places a block in the store with room for it. -/
theorem insert_eq_place (hfixed : s.layout.hasFixedStorage = true)
    (hinserted : (s.insert machine e).2 = .ok ()) :
    e.IsValid ∧ e ∉ s.holders ∧ s.layout.template.length = s.layout.blockSize ∧
      ∃ roomy free, s.reserve machine = .ok roomy ∧
        roomy.freeze.nearestFree (roomy.freeze.preferredIndex e) = some free ∧
        (s.insert machine e).1 = roomy.freeze.place e (roomy.freeze.preferredIndex e) free := by
  unfold insert at hinserted ⊢
  split at hinserted
  · cases hinserted
  · rename_i hvalid
    split at hinserted
    · cases hinserted
    · rename_i hnew
      cases hroomy : s.reserve machine with
      | error cause =>
          rw [hroomy] at hinserted
          cases hinserted
      | ok roomy =>
          rw [hroomy] at hinserted
          obtain ⟨n, hshape, -⟩ := reserve_eq_ok hroomy
          have hlayout : roomy.freeze.layout = s.layout := by rw [hshape]; rfl
          replace hinserted : (roomy.freeze.occupy e).2 = .ok () := hinserted
          rw [if_neg hvalid, if_neg hnew, if_pos hfixed]
          show _ ∧ _ ∧ _ ∧ ∃ roomy' free, _ ∧ _ ∧ (roomy.freeze.occupy e).1 = _
          unfold occupy at hinserted ⊢
          dsimp only at hinserted ⊢
          cases hfree : roomy.freeze.nearestFree (roomy.freeze.preferredIndex e) with
          | none =>
              rw [hfree] at hinserted
              cases hinserted
          | some free =>
              rw [hfree] at hinserted
              dsimp only at hinserted ⊢
              split at hinserted
              · rename_i htemplate
                rw [if_pos htemplate]
                refine ⟨Classical.not_not.1 hvalid, ?_, hlayout ▸ htemplate, roomy, free, rfl,
                  hfree, rfl⟩
                intro hheld
                exact hnew (contains_eq_true.2 hheld)
              · cases hinserted

/-- What an insertion into a store with room for it does to the buffer and the index, when the
target and the free block are known. -/
structure MovesLeast (s : Store) (e : EntityId) (target free : Nat) (t : Store) : Prop where
  /-- The target is the start of the buffer or stands just past a smaller holder. -/
  preferred : target = 0 ∨ ∃ x, s.blockAt (target - 1) = .occupied x ∧ x < e
  /-- The holders below the target are smaller. -/
  below : ∀ i x, i < target → s.blockAt i = .occupied x → x < e
  /-- The holders from the target on are larger. -/
  above : ∀ i x, target ≤ i → s.blockAt i = .occupied x → e < x
  /-- The block that is used is free. -/
  isFree : s.blockAt free = .free
  /-- No free block is nearer to the target, and of two equally near ones it is the lower. -/
  nearest : ∀ i, s.blockAt i = .free →
    gap free target < gap i target ∨ gap free target = gap i target ∧ free ≤ i
  /-- Every block of the run has a holder and moves by one, with its bytes and its entry in the
  index. -/
  run : ∀ i, InRun target free i → ∃ x, s.blockAt i = .occupied x ∧
    s.SameAt i t (movedTo target free i) ∧
    s.blockIndex x = .ok i ∧ t.blockIndex x = .ok (movedTo target free i)
  /-- The new block has the tag of the entity and the other bytes of the template. -/
  placed : t.blockAt (placedAt target free) = .occupied e ∧
    t.blockIndex e = .ok (placedAt target free) ∧
    t.bytesAt (placedAt target free) =
      littleEndian headerSize e ++ s.layout.template.drop headerSize
  /-- At every other index but the free one everything is as it was. -/
  outside : ∀ i, ¬ InRun target free i → i ≠ free → s.SameAt i t i ∧
    ∀ x, s.blockAt i = .occupied x → s.blockIndex x = .ok i ∧ t.blockIndex x = .ok i
  /-- The buffer keeps its length. -/
  capacity : t.capacity = s.capacity
  /-- The buffer and the index are what moving bytes in place makes of them. -/
  inPlace : s.placeBytes? e target free = some (t.buffer, t.index)

/-- A placement at the preferred index, into the nearest free block, moves as little as possible. -/
theorem movesLeast_place (h : s.Packed) (htagged : s.Tagged)
    (hfixed : s.layout.hasFixedStorage = true) (hclosed : s.frozen = true)
    (htemplate : s.layout.template.length = s.layout.blockSize) (hvalid : e.IsValid)
    (hnew : e ∉ s.holders) (hfree : s.nearestFree (s.preferredIndex e) = some free) :
    s.MovesLeast e (s.preferredIndex e) free (s.place e (s.preferredIndex e) free) := by
  have hfit := h.fits hnew hfree
  have hpacked := packed_place h hfixed hclosed htemplate hvalid.1 hfit
  have hsearch := nearestFree_eq_some hfree
  have hsame : ∀ {i j}, (s.placedBlocks e (s.preferredIndex e) free)[j]? = s.blocks[i]? →
      s.SameAt i (s.place e (s.preferredIndex e) free) j := by
    intro i j hget
    apply sameAt_of_getElem? h hpacked
    rw [place_eq]
    exact hget
  have hplaced : (s.place e (s.preferredIndex e) free).blocks[placedAt (s.preferredIndex e) free]? =
      some (s.freshBlock e) := by
    rw [place_eq]
    exact hfit.getElem?_placed
  have hstands : (s.place e (s.preferredIndex e) free).blockAt (placedAt (s.preferredIndex e) free) =
      .occupied e := by
    rw [blockAt_eq_occupied, holderIn_of_getElem? hplaced]
    exact holder?_freshBlock hvalid.1
  constructor
  · exact preferredIndex_eq_zero_or h.highest e
  · intro i x hi hx
    exact hfit.below i x hi (blockAt_eq_occupied.1 hx)
  · intro i x hi hx
    exact hfit.above i x hi (blockAt_eq_occupied.1 hx)
  · exact blockAt_eq_free.2 hsearch.1
  · intro i hi
    exact hsearch.2 i (blockAt_eq_free.1 hi)
  · intro i hi
    obtain ⟨x, hx⟩ := Option.ne_none_iff_exists'.1 (hfit.between i hi)
    have hbefore : s.blockAt i = .occupied x := blockAt_eq_occupied.2 hx
    have hmoved := hsame (hfit.getElem?_moved hi)
    refine ⟨x, hbefore, hmoved, h.blockIndex_iff.2 hbefore, hpacked.blockIndex_iff.2 ?_⟩
    rw [hmoved.state, hbefore]
  · refine ⟨hstands, hpacked.blockIndex_iff.2 hstands, ?_⟩
    rw [hpacked.bytesAt_eq hplaced]
    rfl
  · intro i hi hother
    have hstays := hsame (hfit.getElem?_outside hi hother)
    refine ⟨hstays, fun x hx => ⟨h.blockIndex_iff.2 hx, hpacked.blockIndex_iff.2 ?_⟩⟩
    rw [hstays.state, hx]
  · rw [place_eq]
    exact hfit.length_placedBlocks
  · exact hfit.placeBytes?_eq h htagged htemplate

/-- An insertion that is not refused makes room, if it must, by free blocks at the end of the buffer,
and then moves as little as possible. -/
theorem insert_moves_least (h : Arises machine s) (hfixed : s.layout.hasFixedStorage = true)
    (hinserted : (s.insert machine e).2 = .ok ()) :
    ∃ roomy target free, s.reserve machine = .ok roomy ∧ s.Grown roomy.freeze ∧
      roomy.freeze.MovesLeast e target free (s.insert machine e).1 := by
  obtain ⟨hvalid, hnew, htemplate, roomy, free, hroomy, hfree, hplace⟩ :=
    insert_eq_place hfixed hinserted
  have hroom := packed_reserve h.packed hfixed hroomy
  have htagged := tagged_reserve h.tagged hroomy
  refine ⟨roomy, roomy.freeze.preferredIndex e, free, hroomy,
    grown_of_reserve h.packed hfixed hroomy, ?_⟩
  obtain ⟨n, rfl, -⟩ := reserve_eq_ok hroomy
  rw [hplace]
  exact movesLeast_place hroom htagged hfixed rfl htemplate hvalid hnew hfree

end Store

end EntityStore

namespace EntityStore.Store

attribute [local instance] CustomTypes.none

/-- The buffer has four blocks, of which the first is free; the holders of the two that follow move
down, and the new one takes the gap behind them. -/
theorem run_moves_down :
    let config := { StoreConfig.default with
      expectedCapacity := 4, expansionThreshold := 0x3FF0000000000000 }
    let s := ((filled .standard config [10, 20, 30, 40]).remove .standard 10).1
    (∃ roomy target free, s.reserve .standard = .ok roomy ∧ s.Grown roomy.freeze ∧
      roomy.freeze.MovesLeast 35 target free (s.insert .standard 35).1) ∧
    (List.range 4).map s.blockAt = [.free, .occupied 20, .occupied 30, .occupied 40] ∧
    (List.range 4).map (s.insert .standard 35).1.blockAt =
      [.occupied 20, .occupied 30, .occupied 35, .occupied 40] := by
  intro config s
  have harises : s.Arises .standard := .remove (arises_filled (by decide +kernel) _) 10
  have hinserted : (s.insert .standard 35).2 = .ok () := eq_ok_of_toOption (by decide +kernel)
  have hmoves := insert_moves_least harises (by decide +kernel) hinserted
  exact ⟨hmoves, by decide +kernel, by decide +kernel⟩

end EntityStore.Store
