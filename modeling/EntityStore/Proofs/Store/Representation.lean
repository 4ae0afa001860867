import EntityStore.Proofs.Store.Writing

/-!
# How a store represents its holders

`Store.Arises` is a life of a store: it starts empty under an accepted configuration, and any
operations follow in any order.  `Store.Reached` leaves out a declaration whose default cannot be
encoded, since it leaves a template of the wrong length behind.  `representation_of_reached` says
what holds at every point of such a life: how the buffer, the index, the highest occupied place and
the side maps hang together, stated in the views of the store.
-/

namespace EntityStore

namespace Store

/-! ## The buffer as bytes -/

/-- The bytes of one block out of equally long ones. -/
theorem slice_flatMap {blocks : List Block} {size : Nat}
    (hsize : ∀ b ∈ blocks, b.bytes.length = size) {i : Nat} {b : Block} (hb : blocks[i]? = some b) :
    ((blocks.flatMap Block.bytes).drop (i * size)).take size = b.bytes := by
  induction blocks generalizing i with
  | nil => simp at hb
  | cons first rest ih =>
      have hfirst := hsize first List.mem_cons_self
      rw [List.flatMap_cons]
      cases i with
      | zero =>
          have hsame : first = b := by simpa using hb
          rw [Nat.zero_mul, List.drop_zero, ← hfirst, hsame]
          exact List.take_left
      | succ i =>
          have hskip : (i + 1) * size = first.bytes.length + i * size := by
            rw [hfirst, Nat.succ_mul, Nat.add_comm]
          rw [hskip, List.drop_length_add_append]
          exact ih (fun c hc => hsize c (List.mem_cons_of_mem first hc)) (by simpa using hb)

theorem length_flatMap_bytes {blocks : List Block} {size : Nat}
    (hsize : ∀ b ∈ blocks, b.bytes.length = size) :
    (blocks.flatMap Block.bytes).length = blocks.length * size := by
  induction blocks with
  | nil => simp
  | cons first rest ih =>
      rw [List.flatMap_cons, List.length_append, hsize first List.mem_cons_self,
        ih fun c hc => hsize c (List.mem_cons_of_mem first hc), List.length_cons, Nat.succ_mul,
        Nat.add_comm]

variable [CustomTypes] {s : Store}

theorem length_bytes (h : s.Packed) {b : Block} (hb : b ∈ s.blocks) :
    b.bytes.length = s.layout.blockSize := by
  rw [Block.bytes, List.length_append, length_littleEndian, h.shaped b hb, Layout.blockSize]

/-- A free block is nothing but zeros. -/
theorem Packed.free_bytes (h : s.Packed) {i : Nat} (hi : s.blockAt i = .free) :
    (s.buffer.drop (i * s.layout.blockSize)).take s.layout.blockSize =
      List.replicate s.layout.blockSize 0 := by
  unfold blockAt at hi
  split at hi
  · cases hi
  · rename_i b hb
    split at hi
    · rename_i hfree
      unfold buffer
      rw [slice_flatMap (fun c hc => length_bytes h hc) hb,
        h.blank b (List.mem_of_getElem? hb) hfree]
      have htag : littleEndian headerSize EntityId.absent = List.replicate headerSize 0 := by decide
      rw [Block.bytes, Block.blank, htag, List.replicate_append_replicate, Layout.blockSize]
    · cases hi

/-! ## The walk over the holders -/

omit [CustomTypes] in
theorem pairwise_tags {blocks : List Block} (h : Ascending blocks) :
    ((blocks.filter Block.isOccupied).map Block.tag).Pairwise (· < ·) := by
  have hkept := ascending_filter h
  rw [List.pairwise_map, List.pairwise_iff_getElem]
  intro i j hi hj hij
  refine hkept i j _ _ hij ?_ ?_
  · rw [holderIn_of_getElem? (List.getElem?_eq_getElem hi)]
    exact isOccupied_iff.1 (List.mem_filter.1 (List.getElem_mem hi)).2
  · rw [holderIn_of_getElem? (List.getElem?_eq_getElem hj)]
    exact isOccupied_iff.1 (List.mem_filter.1 (List.getElem_mem hj)).2

/-- A walk over the blocks meets every holder once, in ascending order. -/
theorem Packed.blockOrder_eq (h : s.Packed) : s.blockOrder = s.holders.toList := by
  unfold blockOrder
  split
  · rename_i hfixed
    rw [filter_occupiedRange h.highest]
    -- both are ascending lists, so it is enough that they have the same members
    have hset : (⟨(s.blocks.filter Block.isOccupied).map Block.tag,
        pairwise_tags h.ascending⟩ : IdSet) = s.holders := by
      ext e
      rw [← h.home_isSome hfixed e]
      show e ∈ (s.blocks.filter Block.isOccupied).map Block.tag ↔ _
      rw [List.mem_map, Option.isSome_iff_exists]
      constructor
      · rintro ⟨b, hb, rfl⟩
        obtain ⟨hmem, hoccupied⟩ := List.mem_filter.1 hb
        exact ⟨b, h.home_eq_some.2 ⟨hmem, isOccupied_iff.1 hoccupied⟩⟩
      · rintro ⟨b, hb⟩
        obtain ⟨hmem, hholder⟩ := h.home_eq_some.1 hb
        have htag := (Block.holder?_eq_some.1 hholder).2
        refine ⟨b, List.mem_filter.2 ⟨hmem, ?_⟩, htag⟩
        rw [isOccupied_iff, hholder, htag]
    exact congrArg IdSet.toList hset
  · rfl

theorem length_toList_holders (s : Store) : s.holders.toList.length = s.count :=
  List.length_map _

/-- There are as many occupied blocks as holders. -/
theorem Packed.length_kept (h : s.Packed) (hfixed : s.layout.hasFixedStorage = true) :
    (s.occupiedRange.filter Block.isOccupied).length = s.count := by
  have hwalk := congrArg List.length h.blockOrder_eq
  unfold blockOrder at hwalk
  rw [if_pos hfixed, List.length_map, length_toList_holders] at hwalk
  exact hwalk

/-- There are no more holders than blocks. -/
theorem Packed.count_le_capacity (h : s.Packed) (hfixed : s.layout.hasFixedStorage = true) :
    s.count ≤ s.capacity := by
  rw [← h.length_kept hfixed, filter_occupiedRange h.highest]
  exact List.length_filter_le _ _

/-! ## Reachable stores -/

/-- The states of a store under any operations, those that are refused included. -/
inductive Arises (machine : Machine) : Store → Prop where
  | fresh (name : String) (config : StoreConfig)
      (hconfig : config.validate machine.rounding = .ok ()) : Arises machine (empty name config)
  | addField {s : Store} (h : Arises machine s) (name : String) (type : ValueType)
      (default : type.Carrier) : Arises machine (s.addField name type default).1
  | insert {s : Store} (h : Arises machine s) (e : EntityId) : Arises machine (s.insert machine e).1
  | remove {s : Store} (h : Arises machine s) (e : EntityId) : Arises machine (s.remove machine e).1
  | writePacked {s : Store} (h : Arises machine s) (type : ValueType) (e : EntityId)
      (offset : Nat) (x : type.Carrier) (property : String) :
      Arises machine (s.writePacked type e offset x property).1
  | writeSide {s : Store} (h : Arises machine s) (type : ValueType) (e : EntityId)
      (side : Nat) (x : type.Carrier) (property : String) :
      Arises machine (s.writeSide type e side x property).1

theorem Arises.packed {machine : Machine} (h : Arises machine s) : s.Packed := by
  induction h with
  | fresh name config => exact packed_empty name config
  | addField _ name type default ih => exact packed_addField ih name type default
  | insert _ e ih => exact packed_insert ih machine e
  | remove _ e ih => exact packed_remove ih machine e
  | writePacked _ type e offset x property ih =>
      exact (rewritten_writePacked ih type e offset x property).packed ih
  | writeSide _ type e side x property ih =>
      exact (rewritten_writeSide _ type e side x property).packed ih

/-- The states of a store: it starts empty under an accepted configuration, and any operations
follow, but no declaration is refused for its default. -/
inductive Reached (machine : Machine) : Store → Prop where
  | fresh (name : String) (config : StoreConfig)
      (hconfig : config.validate machine.rounding = .ok ()) : Reached machine (empty name config)
  | addField {s : Store} (h : Reached machine s) (name : String) (type : ValueType)
      (default : type.Carrier)
      (hencodes : ∀ property expected,
        (s.addField name type default).2 ≠ .error (.valueTypeMismatch property expected)) :
      Reached machine (s.addField name type default).1
  | insert {s : Store} (h : Reached machine s) (e : EntityId) :
      Reached machine (s.insert machine e).1
  | remove {s : Store} (h : Reached machine s) (e : EntityId) :
      Reached machine (s.remove machine e).1
  | writePacked {s : Store} (h : Reached machine s) (type : ValueType) (e : EntityId)
      (offset : Nat) (x : type.Carrier) (property : String) :
      Reached machine (s.writePacked type e offset x property).1
  | writeSide {s : Store} (h : Reached machine s) (type : ValueType) (e : EntityId)
      (side : Nat) (x : type.Carrier) (property : String) :
      Reached machine (s.writeSide type e side x property).1

theorem Reached.arises {machine : Machine} (h : Reached machine s) : Arises machine s := by
  induction h with
  | fresh name config hconfig => exact .fresh name config hconfig
  | addField _ name type default _ ih => exact .addField ih name type default
  | insert _ e ih => exact .insert ih e
  | remove _ e ih => exact .remove ih e
  | writePacked _ type e offset x property ih => exact .writePacked ih type e offset x property
  | writeSide _ type e side x property ih => exact .writeSide ih type e side x property

theorem Reached.packed {machine : Machine} (h : Reached machine s) : s.Packed := h.arises.packed

/-- How the parts of a store with blocks hang together. -/
structure BlocksRepresent (s : Store) : Prop where
  /-- The buffer has the bytes of its blocks and no others. -/
  buffer_length : s.buffer.length = s.capacity * s.layout.blockSize
  /-- The index and the tags of the blocks are inverse to each other. -/
  inverse : ∀ e i, s.blockIndex e = .ok i ↔ s.blockAt i = .occupied e
  /-- Every holder has a block, and nobody else has one. -/
  housed : ∀ e, e ∈ s.holders ↔ ∃ i, s.blockAt i = .occupied e
  /-- No holder has two blocks. -/
  single : ∀ e i j, s.blockAt i = .occupied e → s.blockAt j = .occupied e → i = j
  /-- The occupied blocks carry ascending ids. -/
  ascending : ∀ i j x y, i < j → s.blockAt i = .occupied x → s.blockAt j = .occupied y → x < y
  /-- A walk over the blocks meets the holders in ascending order. -/
  walk : s.blockOrder = s.holders.toList
  /-- The highest occupied place is the largest one. -/
  highest : ∀ i, s.highest = some i ↔
    (∃ e, s.blockAt i = .occupied e) ∧ ∀ j e, s.blockAt j = .occupied e → j ≤ i
  /-- There is no highest occupied place exactly when no block is occupied. -/
  unoccupied : s.highest = none ↔ ∀ i e, s.blockAt i ≠ .occupied e
  /-- Free blocks are zeros. -/
  zeros : ∀ i, s.blockAt i = .free →
    (s.buffer.drop (i * s.layout.blockSize)).take s.layout.blockSize =
      List.replicate s.layout.blockSize 0
  /-- There are no more holders than blocks. -/
  count_le : s.count ≤ s.capacity
  /-- The buffer is at least as large as expected, once there is one. -/
  expected : s.capacity = 0 ∨ s.config.expectedCapacity ≤ s.capacity

/-- How the parts of a store hang together. -/
structure Representation (s : Store) : Prop where
  /-- In a kind with properties of fixed width. -/
  fixed : s.layout.hasFixedStorage = true → s.BlocksRepresent
  /-- In a kind without: there is no buffer, and no holder has a block. -/
  unfixed : s.layout.hasFixedStorage = false →
    s.capacity = 0 ∧ s.buffer = [] ∧ ∀ e ∈ s.holders, s.index.lookup e = some none
  /-- Side maps have values for holders only. -/
  sided : ∀ side ∈ s.sides, ∀ e, (side.lookup e).isSome = true → e ∈ s.holders

theorem Packed.highest_eq_some (h : s.Packed) (i : Nat) : s.highest = some i ↔
    (∃ e, s.blockAt i = .occupied e) ∧ ∀ j e, s.blockAt j = .occupied e → j ≤ i := by
  simp only [blockAt_eq_occupied]
  have hhigh := h.highest
  constructor
  · intro htop
    rw [htop] at hhigh
    refine ⟨Option.ne_none_iff_exists'.1 hhigh.1, fun j e hj => ?_⟩
    rcases Nat.lt_or_ge i j with hlt | hge
    · rw [hhigh.2 j hlt] at hj
      cases hj
    · exact hge
  · rintro ⟨⟨e, he⟩, hlargest⟩
    cases htop : s.highest with
    | none =>
        rw [htop] at hhigh
        rw [hhigh i] at he
        cases he
    | some top =>
        rw [htop] at hhigh
        obtain ⟨x, hx⟩ := Option.ne_none_iff_exists'.1 hhigh.1
        have hle := hlargest top x hx
        rcases Nat.lt_or_ge top i with hlt | hge
        · rw [hhigh.2 i hlt] at he
          cases he
        · rw [Nat.le_antisymm hle hge]

theorem Packed.highest_eq_none (h : s.Packed) :
    s.highest = none ↔ ∀ i e, s.blockAt i ≠ .occupied e := by
  simp only [ne_eq, blockAt_eq_occupied]
  have hhigh := h.highest
  constructor
  · intro htop i e hi
    rw [htop] at hhigh
    rw [hhigh i] at hi
    cases hi
  · intro hfree
    cases htop : s.highest with
    | none => rfl
    | some top =>
        rw [htop] at hhigh
        obtain ⟨x, hx⟩ := Option.ne_none_iff_exists'.1 hhigh.1
        exact absurd hx (hfree top x)

theorem Packed.blocksRepresent (h : s.Packed) (hfixed : s.layout.hasFixedStorage = true) :
    s.BlocksRepresent where
  buffer_length := length_flatMap_bytes fun _ hb => length_bytes h hb
  inverse e i := by
    rw [blockIndex_eq_ok, blockAt_eq_occupied]
    exact h.agrees e i
  housed e := by
    simp only [blockAt_eq_occupied]
    exact ⟨h.exists_holderIn hfixed, fun ⟨_, hi⟩ => h.mem_holders_of_holderIn hi⟩
  single e i j hi hj :=
    h.ascending.place_unique (blockAt_eq_occupied.1 hi) (blockAt_eq_occupied.1 hj)
  ascending i j x y hij hx hy :=
    h.ascending i j x y hij (blockAt_eq_occupied.1 hx) (blockAt_eq_occupied.1 hy)
  walk := h.blockOrder_eq
  highest := h.highest_eq_some
  unoccupied := h.highest_eq_none
  zeros _ hi := h.free_bytes hi
  count_le := h.count_le_capacity hfixed
  expected := h.expected

/-- Whatever has been done to a store, its parts hang together. -/
theorem representation_of_reached {machine : Machine} (h : Reached machine s) :
    s.Representation where
  fixed hfixed := h.packed.blocksRepresent hfixed
  unfixed hunfixed := by
    have hempty := h.packed.unblocked hunfixed
    refine ⟨by simp [capacity, hempty], by simp [buffer, hempty], fun e he => ?_⟩
    obtain ⟨place, hplace⟩ := Option.isSome_iff_exists.1 (mem_holders.1 he)
    cases place with
    | none => exact hplace
    | some i =>
        have hfixed := h.packed.hasFixedStorage_of_lookup hplace
        exact absurd (hunfixed.symm.trans hfixed) Bool.false_ne_true
  sided := h.packed.sided

omit [CustomTypes] in
theorem validate_of_violation? {r : Rounding} {config : StoreConfig}
    (h : config.violation? r = none) : config.validate r = .ok () := by
  unfold StoreConfig.validate
  rw [h]

omit [CustomTypes] in
theorem violation?_of_validate {r : Rounding} {config : StoreConfig}
    (h : config.validate r = .ok ()) : config.violation? r = none := by
  unfold StoreConfig.validate at h
  split at h
  · cases h
  · assumption

/-- A store of one number, with a configuration, after some insertions. -/
def filled (machine : Machine) (config : StoreConfig) (ids : List EntityId) : Store :=
  ids.foldl (fun s e => (s.insert machine e).1)
    ((empty "Level" config).addField "value" (.word (.signed .w32)) (0 : BitVec 32)).1

theorem arises_filled {machine : Machine} {config : StoreConfig}
    (h : config.violation? machine.rounding = none) (ids : List EntityId) :
    (filled machine config ids).Arises machine := by
  have hinserts : ∀ s : Store, s.Arises machine →
      (ids.foldl (fun s e => (s.insert machine e).1) s).Arises machine := by
    induction ids with
    | nil => exact fun s hs => hs
    | cons e rest ih => exact fun s hs => ih _ (.insert hs e)
  exact hinserts _ (.addField (.fresh "Level" config (validate_of_violation? h)) _ _ _)

end Store

end EntityStore

namespace EntityStore.Store

attribute [local instance] CustomTypes.none

/-- Two holders come out of order, and the first of them goes. -/
theorem representation_after_removal :
    let declared := ((empty "Health" .default).addField "points" (.word (.signed .w32)) (7 : BitVec 32)).1
    let occupied := ((declared.insert .standard 5).1.insert .standard 3).1
    (occupied.remove .standard 5).1.Representation ∧
      (occupied.remove .standard 5).1.blockOrder = [3] := by
  intro declared occupied
  have hfresh : Reached .standard (empty "Health" .default) :=
    .fresh "Health" .default (validate_of_violation? (by decide +kernel))
  have hslot : ((empty "Health" .default).addField "points" (.word (.signed .w32))
      (7 : BitVec 32)).2 = .ok (.packed 0) := rfl
  have hdeclared : Reached .standard declared :=
    .addField hfresh "points" _ _ fun property expected => by rw [hslot]; exact nofun
  exact ⟨representation_of_reached (.remove (.insert (.insert hdeclared 5) 3) 5), by decide +kernel⟩

end EntityStore.Store
