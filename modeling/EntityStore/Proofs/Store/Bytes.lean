import EntityStore.Proofs.Store.Layout
import EntityStore.Proofs.Store.Representation

/-!
# Blocks that move byte by byte

The buffer of a store is a list of bytes, and the operations move and overwrite spans of it in place.
What that comes to can be read off the blocks, as all of them have one size.

* `copyWithin?`: a span copied to another place, which it may overlap.
* `copyWithin?_flatMap`, `overwrite?_flatMap`: on the bytes of some blocks it moves blocks, and
  writing over the span of a block replaces the block.
* `Store.bytesAt`: the bytes at a block index.  `Store.Packed.bytesAt_eq`: they are those of the
  block.
* `Store.readPacked_eq_buffer`, `Store.writePacked_eq_buffer`: a value of a holder is read from the
  buffer, and written to it, at the place of the value (`Store.valueOffset`).
* `Store.Tagged`, `tagAt_flatMap`: the tag of a block can be read off its bytes, since every tag fits
  the header.
-/

namespace EntityStore

/-! ## Spans of a list -/

section Spans

variable {α : Type} {l out : List α} {start stop dest : Nat}

/-- A list with the part between two places copied to a third one, over what stood there: none
unless both spans lie in the list.  What is copied is the part as it was before. -/
def copyWithin? (l : List α) (start stop dest : Nat) : Option (List α) :=
  if start ≤ stop ∧ stop ≤ l.length ∧ dest + (stop - start) ≤ l.length then
    some (l.take dest ++ ((l.drop start).take (stop - start) ++ l.drop (dest + (stop - start))))
  else none

theorem copyWithin?_eq_some (l : List α) {start stop : Nat} (dest : Nat) (hspan : start ≤ stop)
    (hstop : stop ≤ l.length) (hdest : dest + (stop - start) ≤ l.length) :
    copyWithin? l start stop dest =
      some (l.take dest ++ ((l.drop start).take (stop - start) ++
        l.drop (dest + (stop - start)))) :=
  if_pos ⟨hspan, hstop, hdest⟩

/-- What stands where after a part was copied. -/
theorem getElem?_copyWithin? (h : copyWithin? l start stop dest = some out) (i : Nat) :
    out[i]? = if dest ≤ i ∧ i < dest + (stop - start) then l[start + (i - dest)]? else l[i]? := by
  unfold copyWithin? at h
  split at h
  · rename_i hfits
    obtain rfl := Option.some.inj h
    have htake : (l.take dest).length = dest := by
      rw [List.length_take]
      omega
    have hcopied : ((l.drop start).take (stop - start)).length = stop - start := by
      rw [List.length_take, List.length_drop]
      omega
    rcases Nat.lt_or_ge i dest with hbefore | hfrom
    · rw [List.getElem?_append_left (by omega), List.getElem?_take_of_lt hbefore,
        if_neg (by omega)]
    · rw [List.getElem?_append_right (by omega), htake]
      rcases Nat.lt_or_ge i (dest + (stop - start)) with hwithin | hafter
      · rw [List.getElem?_append_left (by omega), List.getElem?_take_of_lt (by omega),
          List.getElem?_drop, if_pos ⟨hfrom, hwithin⟩]
      · rw [List.getElem?_append_right (by omega), hcopied, List.getElem?_drop,
          if_neg (by omega)]
        congr 1
        omega
  · cases h

theorem length_copyWithin? (h : copyWithin? l start stop dest = some out) :
    out.length = l.length := by
  unfold copyWithin? at h
  split at h
  · obtain rfl := Option.some.inj h
    simp only [List.length_append, List.length_take, List.length_drop]
    omega
  · cases h

/-- What is written over the front of a span that was just written replaces its front. -/
theorem overwrite?_overwrite? (buffer : List UInt8) (offset : Nat) {old new : List UInt8}
    (hlength : new.length ≤ old.length) :
    (overwrite? buffer offset old).bind (overwrite? · offset new) =
      overwrite? buffer offset (new ++ old.drop new.length) := by
  have hsame : (new ++ old.drop new.length).length = old.length := by
    rw [List.length_append, List.length_drop]
    omega
  unfold overwrite?
  rw [hsame]
  split
  · rename_i hfits
    have htake : (buffer.take offset).length = offset := by
      rw [List.length_take]
      omega
    have hlonger : offset + new.length ≤
        (buffer.take offset ++ old ++ buffer.drop (offset + old.length)).length := by
      simp only [List.length_append, htake]
      omega
    rw [Option.bind_some, if_pos hlonger]
    simp only [List.append_assoc]
    rw [List.take_left' htake, ← List.drop_drop, List.drop_left' htake,
      List.drop_append_of_le_length hlength]
  · rfl

/-- A span within the middle part of a buffer. -/
theorem spanAt?_middle {front middle back : List UInt8} {offset width : Nat}
    (h : offset + width ≤ middle.length) :
    spanAt? (front ++ (middle ++ back)) (front.length + offset) width =
      spanAt? middle offset width := by
  rw [← spanAt?_drop (by rw [List.length_append]; omega), List.drop_left, spanAt?_append h]

/-- What is put into the middle part of a buffer leaves the other parts. -/
theorem overwritten_middle {front middle back bytes : List UInt8} {offset : Nat}
    (h : offset + bytes.length ≤ middle.length) :
    overwritten (front ++ (middle ++ back)) (front.length + offset) bytes =
      front ++ (overwritten middle offset bytes ++ back) := by
  have hfits : front.length + offset + bytes.length ≤ (front ++ (middle ++ back)).length := by
    simp only [List.length_append]
    omega
  unfold overwritten overwrite?
  rw [if_pos hfits, if_pos h, Option.getD_some, Option.getD_some, Nat.add_assoc,
    List.take_length_add_append, List.drop_length_add_append,
    List.take_append_of_le_length (by omega), List.drop_append_of_le_length h]
  simp only [List.append_assoc]

end Spans

/-! ## Values in a part of a buffer -/

namespace Codec

variable {α : Type} {c : Codec α} {front middle back : List UInt8} {offset : Nat}

theorem read?_middle (h : offset + c.width ≤ middle.length) :
    c.read? (front ++ (middle ++ back)) (front.length + offset) = c.read? middle offset := by
  unfold read?
  rw [spanAt?_middle h]

theorem write_middle (h : offset + c.width ≤ middle.length) (x : α) :
    c.write x (front ++ (middle ++ back)) (front.length + offset) =
      (front ++ ((c.write x middle offset).1 ++ back), (c.write x middle offset).2) := by
  obtain ⟨span, hspan⟩ := exists_spanAt? h
  have hlength := (overwrite?_encode hspan (x := x)).1
  rw [write_of_spanAt? hspan, write_of_spanAt? ((spanAt?_middle h).trans hspan),
    overwritten_middle (by rw [hlength]; exact h)]

end Codec

/-! ## The bytes of equally long blocks -/

section Blocks

variable {blocks : List Block} {size : Nat}

theorem take_flatMap_bytes (hsize : ∀ b ∈ blocks, b.bytes.length = size) (n : Nat) :
    (blocks.flatMap Block.bytes).take (n * size) = (blocks.take n).flatMap Block.bytes := by
  induction blocks generalizing n with
  | nil => simp
  | cons first rest ih =>
      have hfirst := hsize first List.mem_cons_self
      cases n with
      | zero => simp
      | succ n =>
          have hskip : (n + 1) * size = first.bytes.length + n * size := by
            rw [hfirst, Nat.succ_mul, Nat.add_comm]
          rw [List.flatMap_cons, List.take_succ_cons, List.flatMap_cons, hskip,
            List.take_length_add_append]
          rw [ih (fun b hb => hsize b (List.mem_cons_of_mem first hb))]

theorem drop_flatMap_bytes (hsize : ∀ b ∈ blocks, b.bytes.length = size) (n : Nat) :
    (blocks.flatMap Block.bytes).drop (n * size) = (blocks.drop n).flatMap Block.bytes := by
  have hlength : ((blocks.take n).flatMap Block.bytes).length ≤ n * size := by
    rw [← take_flatMap_bytes hsize, List.length_take]
    omega
  have hsplit : (blocks.flatMap Block.bytes).take (n * size) ++
      (blocks.flatMap Block.bytes).drop (n * size) =
      (blocks.take n).flatMap Block.bytes ++ (blocks.drop n).flatMap Block.bytes := by
    rw [List.take_append_drop, ← List.flatMap_append, List.take_append_drop]
  rw [take_flatMap_bytes hsize] at hsplit
  exact List.append_cancel_left hsplit

theorem bytes_blank (dataSize : Nat) :
    (Block.blank dataSize).bytes = List.replicate (headerSize + dataSize) 0 := by
  have htag : littleEndian headerSize EntityId.absent = List.replicate headerSize 0 := by decide
  rw [Block.bytes, Block.blank, htag, List.replicate_append_replicate]

theorem flatMap_blank (n dataSize : Nat) :
    (List.replicate n (Block.blank dataSize)).flatMap Block.bytes =
      List.replicate (n * (headerSize + dataSize)) 0 := by
  induction n with
  | zero => simp
  | succ n ih =>
      rw [List.replicate_succ, List.flatMap_cons, ih, bytes_blank, List.replicate_append_replicate,
        Nat.succ_mul, Nat.add_comm]

/-- A span of whole blocks that is copied is a part of the blocks that is copied. -/
theorem copyWithin?_flatMap (hsize : ∀ b ∈ blocks, b.bytes.length = size)
    {start stop dest : Nat} {moved : List Block}
    (h : copyWithin? blocks start stop dest = some moved) :
    copyWithin? (blocks.flatMap Block.bytes) (start * size) (stop * size) (dest * size) =
      some (moved.flatMap Block.bytes) := by
  unfold copyWithin? at h
  split at h
  · rename_i hfits
    obtain ⟨hspan, hstop, hdest⟩ := hfits
    obtain rfl := Option.some.inj h
    have hspan' := Nat.mul_le_mul_right size hspan
    have hstop' := Nat.mul_le_mul_right size hstop
    have hdest' := Nat.mul_le_mul_right size hdest
    have hwidth : stop * size - start * size = (stop - start) * size := by
      rw [Nat.sub_mul]
    have hend : dest * size + (stop - start) * size = (dest + (stop - start)) * size := by
      rw [Nat.add_mul]
    have hlength := Store.length_flatMap_bytes hsize
    rw [copyWithin?_eq_some _ _ hspan' (by omega) (by rw [hwidth, hend]; omega), hwidth, hend,
      take_flatMap_bytes hsize, drop_flatMap_bytes hsize, drop_flatMap_bytes hsize,
      take_flatMap_bytes fun b hb => hsize b (List.mem_of_mem_drop hb)]
    simp only [List.flatMap_append]
  · cases h

/-- The span of a block that is written over is a block that is replaced. -/
theorem overwrite?_flatMap (hsize : ∀ b ∈ blocks, b.bytes.length = size) {i : Nat}
    (hi : i < blocks.length) {b : Block} (hb : b.bytes.length = size) :
    overwrite? (blocks.flatMap Block.bytes) (i * size) b.bytes =
      some ((blocks.set i b).flatMap Block.bytes) := by
  have hnext : i * size + size = (i + 1) * size := (Nat.succ_mul i size).symm
  have hfits : i * size + b.bytes.length ≤ (blocks.flatMap Block.bytes).length := by
    rw [hb, hnext, Store.length_flatMap_bytes hsize]
    exact Nat.mul_le_mul_right size hi
  unfold overwrite?
  rw [if_pos hfits, hb, hnext, take_flatMap_bytes hsize, drop_flatMap_bytes hsize,
    List.set_eq_take_append_cons_drop, if_pos hi]
  simp

/-- The tag in the header of the block at an index of a buffer. -/
def tagAt (size : Nat) (buffer : List UInt8) (i : Nat) : Nat :=
  ofLittleEndian ((buffer.drop (i * size)).take headerSize)

/-- A tag that fits the header can be read off the buffer. -/
theorem tagAt_flatMap (hsize : ∀ b ∈ blocks, b.bytes.length = size) {i : Nat} {b : Block}
    (hb : blocks[i]? = some b) (htag : b.tag ≤ EntityId.ceiling) :
    tagAt size (blocks.flatMap Block.bytes) i = b.tag := by
  have hheader : (littleEndian headerSize b.tag).length = headerSize := length_littleEndian _ _
  have hblock := hsize b (List.mem_of_getElem? hb)
  have hwithin : headerSize ≤ size := by
    rw [← hblock, Block.bytes, List.length_append, hheader]
    omega
  have hspan := congrArg (List.take headerSize) (Store.slice_flatMap hsize hb)
  rw [List.take_take, Nat.min_eq_left hwithin, Block.bytes, List.take_left' hheader] at hspan
  unfold tagAt
  rw [hspan]
  apply ofLittleEndian_littleEndian
  have hlarge : EntityId.ceiling < Nat.pow 256 headerSize := by decide
  exact Nat.lt_of_le_of_lt htag hlarge

end Blocks

namespace Store

variable [CustomTypes] {s t : Store}

/-! ## Tags -/

/-- Every tag fits the header of a block. -/
def Tagged (s : Store) : Prop := ∀ b ∈ s.blocks, b.tag ≤ EntityId.ceiling

omit [CustomTypes] in
theorem tag_blank (n : Nat) : (Block.blank n).tag ≤ EntityId.ceiling := Nat.zero_le _

theorem tagged_reserve (h : s.Tagged) {machine : Machine} {roomy : Store}
    (hroomy : s.reserve machine = .ok roomy) : roomy.freeze.Tagged := by
  obtain ⟨n, rfl, -⟩ := reserve_eq_ok hroomy
  intro b hb
  rcases List.mem_append.1 hb with hold | hnew
  · exact h b hold
  · rw [List.eq_of_mem_replicate hnew]
    exact tag_blank _

theorem Inserted.tagged {machine : Machine} {e : EntityId} {answer : Except StoreError Unit}
    (hstep : Inserted machine s e t answer) (h : s.Tagged) : t.Tagged := by
  cases hstep with
  | invalid => exact h
  | held => exact h
  | full => exact h
  | misfit _ _ _ roomy hroomy => exact tagged_reserve h hroomy
  | noted => exact h
  | placed hvalid _ _ _ roomy target free hroomy hfit =>
      intro b hb
      rw [place_eq] at hb
      rcases hfit.mem_placedBlocks.1 hb with rfl | hold
      · exact hvalid.2
      · exact tagged_reserve h hroomy b (List.mem_of_mem_eraseIdx hold)

theorem tagged_remove (hpacked : s.Packed) (h : s.Tagged) (machine : Machine) (e : EntityId) :
    (s.remove machine e).1.Tagged := by
  unfold remove
  split
  · exact h
  · exact h
  · rename_i i hplace
    have hvacated : ((s.forget e).vacate i).Tagged := by
      intro b hb
      rcases List.mem_or_eq_of_mem_set hb with hold | rfl
      · exact h b hold
      · exact tag_blank _
    dsimp only
    unfold compactIfSparse
    dsimp only
    split
    · intro b hb
      rcases mem_compactTo (packed_vacate hpacked hplace) hb with ⟨hold, -⟩ | rfl
      · exact hvacated b hold
      · exact tag_blank _
    · exact hvacated

theorem Rewritten.tagged (hstep : Rewritten s t) (h : s.Tagged) : t.Tagged := by
  cases hstep with
  | untouched => exact h
  | side => exact h
  | block e i old new hplace hold hlength =>
      intro b hb
      rcases List.mem_or_eq_of_mem_set hb with hmem | rfl
      · exact h b hmem
      · exact h ⟨_, old⟩ (List.mem_of_getElem? hold)

theorem Arises.tagged {machine : Machine} (h : Arises machine s) : s.Tagged := by
  induction h with
  | fresh => exact List.forall_mem_nil _
  | @addField s _ name type default ih =>
      have hblocks : (s.addField name type default).1.blocks = s.blocks := by
        unfold Store.addField
        split
        · rfl
        · dsimp only
          split <;> rfl
      unfold Tagged
      rw [hblocks]
      exact ih
  | @insert s hs e ih => exact (insert_inserted hs.packed machine e).tagged ih
  | @remove s hs e ih => exact tagged_remove hs.packed ih machine e
  | @writePacked s hs type e offset x property ih =>
      exact (rewritten_writePacked hs.packed type e offset x property).tagged ih
  | @writeSide s _ type e side x property ih =>
      exact (rewritten_writeSide s type e side x property).tagged ih

/-! ## What stands at a block index -/

/-- The bytes at a block index, none past the last block. -/
def bytesAt (s : Store) (i : Nat) : List UInt8 :=
  (s.buffer.drop (i * s.layout.blockSize)).take s.layout.blockSize

theorem Packed.bytesAt_eq (h : s.Packed) {i : Nat} {b : Block} (hb : s.blocks[i]? = some b) :
    s.bytesAt i = b.bytes :=
  slice_flatMap (fun _ hc => length_bytes h hc) hb

theorem Packed.bytesAt_of_le (h : s.Packed) {i : Nat} (hi : s.capacity ≤ i) :
    s.bytesAt i = [] := by
  have hbuffer : s.buffer.length ≤ i * s.layout.blockSize := by
    unfold buffer
    rw [length_flatMap_bytes fun _ hb => length_bytes h hb]
    exact Nat.mul_le_mul_right _ hi
  unfold bytesAt
  rw [List.drop_eq_nil_of_le hbuffer, List.take_nil]

theorem valueOffset_eq_ok {e : EntityId} {offset place : Nat} :
    s.valueOffset e offset = .ok place ↔
      ∃ i, s.blockIndex e = .ok i ∧ i * s.layout.blockSize + headerSize + offset = place := by
  unfold valueOffset
  cases s.blockIndex e <;> simp [Except.map]

theorem Packed.blockIndex_iff (h : s.Packed) {x : EntityId} {i : Nat} :
    s.blockIndex x = .ok i ↔ s.blockAt i = .occupied x := by
  rw [blockIndex_eq_ok, blockAt_eq_occupied]
  exact h.agrees x i

/-- The same block stands at one index of a buffer and at another one of another buffer. -/
structure SameAt (s : Store) (i : Nat) (t : Store) (j : Nat) : Prop where
  /-- With the same holder, or free. -/
  state : t.blockAt j = s.blockAt i
  /-- With the same bytes. -/
  bytes : t.bytesAt j = s.bytesAt i

theorem SameAt.trans {u : Store} {i j k : Nat} (h : s.SameAt i t j) (g : t.SameAt j u k) :
    s.SameAt i u k :=
  ⟨g.state.trans h.state, g.bytes.trans h.bytes⟩

theorem sameAt_of_getElem? (hs : s.Packed) (ht : t.Packed) {i j : Nat}
    (hsame : t.blocks[j]? = s.blocks[i]?) : s.SameAt i t j := by
  constructor
  · unfold blockAt
    rw [hsame]
  · cases hb : s.blocks[i]? with
    | some b =>
        rw [hs.bytesAt_eq hb, ht.bytesAt_eq (hsame.trans hb)]
    | none =>
        rw [hs.bytesAt_of_le (List.getElem?_eq_none_iff.1 hb),
          ht.bytesAt_of_le (List.getElem?_eq_none_iff.1 (hsame.trans hb))]

/-! ## Values in the buffer -/

/-- The buffer around the bytes behind the tag of one block. -/
theorem buffer_eq_around {i : Nat} {b : Block} (hb : s.blocks[i]? = some b) :
    s.buffer = (s.blocks.take i).flatMap Block.bytes ++ littleEndian headerSize b.tag ++
      (b.data ++ (s.blocks.drop (i + 1)).flatMap Block.bytes) := by
  obtain ⟨hi, hget⟩ := List.getElem?_eq_some_iff.1 hb
  have hsplit : s.blocks = s.blocks.take i ++ b :: s.blocks.drop (i + 1) := by
    rw [← hget, List.getElem_cons_drop, List.take_append_drop]
  unfold buffer
  conv => lhs; rw [hsplit, List.flatMap_append, List.flatMap_cons, Block.bytes]
  simp only [List.append_assoc]

/-- Where the data of a block begin in the buffer. -/
theorem Packed.length_front (h : s.Packed) {i : Nat} {b : Block} (hb : s.blocks[i]? = some b) :
    ((s.blocks.take i).flatMap Block.bytes ++ littleEndian headerSize b.tag).length =
      i * s.layout.blockSize + headerSize := by
  have hi := (List.getElem?_eq_some_iff.1 hb).1
  rw [List.length_append, length_littleEndian, length_flatMap_bytes fun c hc =>
    length_bytes h (List.mem_of_mem_take hc), List.length_take, Nat.min_eq_left (by omega)]

/-- A packed value of a holder is what its codec reads in the buffer at the place of the value. -/
theorem readPacked_eq_buffer (h : s.Packed) {type : ValueType} {e : EntityId} {offset place : Nat}
    (hplace : s.valueOffset e offset = .ok place) {width : Nat} (hwidth : type.width? = some width)
    (hfits : offset + width ≤ s.layout.dataSize) (property : String) :
    s.readPacked type e offset property =
      (type.read? s.buffer place).elim (.error (.valueTypeMismatch property type.name)) .ok := by
  obtain ⟨i, hindex, rfl⟩ := valueOffset_eq_ok.1 hplace
  obtain ⟨codec, hcodec, rfl⟩ := ValueType.exists_codec_of_width? hwidth
  obtain ⟨data, hblock⟩ := h.exists_block_of_lookup (blockIndex_eq_ok.1 hindex)
  have hroom : offset + codec.width ≤ data.length := by
    rw [h.shaped _ (List.mem_of_getElem? hblock)]
    exact hfits
  have hread : type.read? s.buffer (i * s.layout.blockSize + headerSize + offset) =
      type.read? data offset := by
    rw [ValueType.read?_of_codec? hcodec, ValueType.read?_of_codec? hcodec, buffer_eq_around hblock,
      ← h.length_front hblock]
    exact Codec.read?_middle hroom
  rw [hread]
  unfold readPacked
  rw [hindex]
  simp only [Except.bind, hblock, Option.bind_some]
  cases type.read? data offset <;> rfl

/-- A write of a packed value is a write to the buffer at the place of the value. -/
theorem writePacked_eq_buffer (h : s.Packed) {type : ValueType} {e : EntityId} {offset place : Nat}
    (hplace : s.valueOffset e offset = .ok place) {width : Nat} (hwidth : type.width? = some width)
    (hfits : offset + width ≤ s.layout.dataSize) (x : type.Carrier) (property : String) :
    (s.writePacked type e offset x property).1.buffer = (type.write x s.buffer place).1 ∧
      (s.writePacked type e offset x property).2 =
        if (type.write x s.buffer place).2 then .ok ()
        else .error (.valueTypeMismatch property type.name) := by
  obtain ⟨i, hindex, rfl⟩ := valueOffset_eq_ok.1 hplace
  obtain ⟨codec, hcodec, rfl⟩ := ValueType.exists_codec_of_width? hwidth
  obtain ⟨data, hblock⟩ := h.exists_block_of_lookup (blockIndex_eq_ok.1 hindex)
  have hi := (List.getElem?_eq_some_iff.1 hblock).1
  have hroom : offset + codec.width ≤ data.length := by
    rw [h.shaped _ (List.mem_of_getElem? hblock)]
    exact hfits
  have hwrite : type.write x s.buffer (i * s.layout.blockSize + headerSize + offset) =
      ((s.writePacked type e offset x property).1.buffer, (type.write x data offset).2) := by
    rw [writePacked_of_lookup (blockIndex_eq_ok.1 hindex) hblock, ValueType.write_of_codec? hcodec,
      ValueType.write_of_codec? hcodec, buffer_eq_around hblock, ← h.length_front hblock,
      Codec.write_middle hroom]
    -- the block that is put back differs in its data only
    refine Prod.ext ?_ rfl
    have hset : (s.blocks.set i ⟨e, (codec.write x data offset).1⟩)[i]? =
        some ⟨e, (codec.write x data offset).1⟩ := List.getElem?_set_self hi
    rw [buffer_eq_around (s := { s with blocks := s.blocks.set i _ }) hset, List.take_set_of_le
      (Nat.le_refl i), List.drop_set_of_lt (Nat.lt_succ_self i)]
  rw [hwrite, writePacked_of_lookup (blockIndex_eq_ok.1 hindex) hblock]
  exact ⟨rfl, rfl⟩

end Store

end EntityStore
