import EntityStore.Id.Map
import EntityStore.Store.Config
import EntityStore.Store.Layout

/-!
# The packed store of one kind

A store holds the components of one kind: a buffer of equally sized blocks, in which the holders
stand in ascending order of their ids with free blocks between them, the block of each holder
(`index`), and one side map for each property without fixed width.

* `Store.insert` finds the place that keeps the order and opens a gap there, by moving the run of
  blocks between that place and the nearest free block by one.
* `Store.remove` frees the block, and compacts and shrinks the buffer when it has become sparse.
* `Store.blockAt` and `Store.holders` are the two views: what stands at a block, and who holds the
  kind.

The blocks and the index are kept apart on purpose: that they agree is a law about the operations
and not a way of writing them.  What is stored for a holder is the business of
`EntityStore.Store.Values`.
-/

namespace EntityStore

/-- One block: its tag, zero when it is free, and the bytes behind the tag. -/
structure Block where
  /-- The holder, or zero. -/
  tag : EntityId
  /-- The bytes behind the tag. -/
  data : List UInt8
  deriving DecidableEq, Repr

namespace Block

/-- A free block of zeros. -/
def blank (dataSize : Nat) : Block := ⟨EntityId.absent, List.replicate dataSize 0⟩

/-- Is the block free? -/
def isFree (b : Block) : Bool := b.tag == EntityId.absent

/-- Does a holder stand in the block? -/
def isOccupied (b : Block) : Bool := !b.isFree

/-- The block as it stands in the buffer. -/
def bytes (b : Block) : List UInt8 := littleEndian headerSize b.tag ++ b.data

end Block

/-- What stands at a block index. -/
inductive BlockState where
  /-- The block of a holder. -/
  | occupied (e : EntityId)
  /-- A block without holder. -/
  | free
  /-- The index is past the last block. -/
  | outOfRange
  deriving DecidableEq, Repr

/-- The number of blocks up to and with the last one that passes a test: zero if none does. -/
def countThroughLast (test : Block → Bool) : List Block → Nat
  | [] => 0
  | b :: rest =>
    match countThroughLast test rest with
    | 0 => if test b then 1 else 0
    | n + 1 => n + 2

variable [CustomTypes]

/-- The storage of one kind. -/
structure Store where
  /-- The name of the kind. -/
  name : String
  /-- The sizing of the buffer. -/
  config : StoreConfig
  /-- The shape of a block. -/
  layout : Layout
  /-- The buffer, block by block. -/
  blocks : List Block
  /-- The block of each holder; none when the kind has no blocks. -/
  index : IdMap (Option Nat)
  /-- The highest occupied block. -/
  highest : Option Nat
  /-- Is the list of properties closed? -/
  frozen : Bool
  /-- The values of each property without fixed width. -/
  sides : List (IdMap TypedValue)

namespace Store

/-- A store without properties and holders. -/
def empty (name : String) (config : StoreConfig) : Store :=
  ⟨name, config, Layout.empty, [], ∅, none, false, []⟩

variable (s : Store)

/-! ## Views -/

/-- The holders. -/
def holders : IdSet := s.index.keys

/-- The number of holders. -/
def count : Nat := s.index.size

/-- The number of blocks. -/
def capacity : Nat := s.blocks.length

/-- The bytes of the buffer. -/
def buffer : List UInt8 := s.blocks.flatMap Block.bytes

/-- Does an entity hold the kind? -/
def contains (e : EntityId) : Bool := s.index.contains e

/-- What stands at a block index. -/
def blockAt (i : Nat) : BlockState :=
  match s.blocks[i]? with
  | none => .outOfRange
  | some block => if block.isFree then .free else .occupied block.tag

/-- The error for an entity that does not hold the kind. -/
def missing (e : EntityId) : StoreError := .missingComponent s.name e

/-- The block of a holder. -/
def blockIndex (e : EntityId) : Except StoreError Nat :=
  match s.index.lookup e with
  | some (some i) => .ok i
  | some none => .error (.noFixedStorage s.name)
  | none => .error (s.missing e)

/-- The place of a packed value in the buffer. -/
def valueOffset (e : EntityId) (offset : Nat) : Except StoreError Nat :=
  (s.blockIndex e).map fun i => i * s.layout.blockSize + headerSize + offset

/-- The blocks up to the highest occupied one. -/
def occupiedRange : List Block :=
  match s.highest with
  | none => []
  | some h => s.blocks.take (h + 1)

/-- The holders in the order in which a walk visits them: block by block, or ascending when the
kind has no blocks. -/
def blockOrder : List EntityId :=
  if s.layout.hasFixedStorage then (s.occupiedRange.filter Block.isOccupied).map Block.tag
  else s.holders.toList

/-! ## Properties -/

/-- Declare a property, unless the list of properties is closed. -/
def addField (name : String) (type : ValueType) (default : type.Carrier) :
    Store × Except StoreError Slot :=
  if s.frozen then (s, .error (.frozenSchema s.name))
  else
    let (layout, result) := s.layout.push s.name name type default
    match result with
    | .ok (.side i) => ({ s with layout := layout, sides := s.sides ++ [∅] }, .ok (.side i))
    | result => ({ s with layout := layout }, result)

/-! ## Insertion -/

/-- The capacity that one more block asks for, none when there is room. -/
def wantedCapacity? (machine : Machine) : Option Nat :=
  if s.capacity = 0 then some (max s.config.expectedCapacity 1)
  else if s.config.isFull machine.rounding s.count s.capacity then
    some (s.config.grown machine.rounding s.capacity)
  else none

/-- Make room for one more block, if the memory suffices for the whole buffer. -/
def reserve (machine : Machine) : Except StoreError Store :=
  match s.wantedCapacity? machine with
  | none => .ok s
  | some wanted =>
    if wanted * s.layout.blockSize ≤ machine.memory then
      let added := List.replicate (wanted - s.capacity) (Block.blank s.layout.dataSize)
      .ok { s with blocks := s.blocks ++ added }
    else .error (.capacityOverflow s.name wanted)

/-- The index just past the last block of a smaller id. -/
def preferredIndex (e : EntityId) : Nat :=
  countThroughLast (fun b => b.isOccupied && decide (b.tag < e)) s.occupiedRange

/-- Is there a free block at an index? -/
def isFreeAt (i : Nat) : Bool := s.blockAt i == .free

/-- The free block nearest to an index, the lower one of two equally near.  The index itself may
be the one past the last block. -/
def nearestFree (target : Nat) : Option Nat :=
  if s.isFreeAt target then some target
  else
    (List.range' 1 s.capacity).findSome? fun distance =>
      if distance ≤ target && s.isFreeAt (target - distance) then some (target - distance)
      else if s.isFreeAt (target + distance) then some (target + distance)
      else none

/-- The index with the occupied blocks of a run that starts at a place entered anew. -/
def reindex : List Block → Nat → IdMap (Option Nat) → IdMap (Option Nat)
  | [], _, index => index
  | b :: rest, i, index =>
    reindex rest (i + 1) (if b.isFree then index else index.insert b.tag (some i))

/-- Put the block of a new holder before the blocks of greater ids.  The free block gives way, the
run between it and the target moves by one toward it, and the new block takes the gap. -/
def place (e : EntityId) (target free : Nat) : Store :=
  let placed := if target ≤ free then target else target - 1
  let block : Block := ⟨e, s.layout.template.drop headerSize⟩
  let blocks := (s.blocks.eraseIdx free).insertIdx placed block
  let (start, moved) := if target ≤ free then (target + 1, free - target) else (free, target - 1 - free)
  let touched := max placed free
  { s with
    blocks := blocks
    index := (reindex ((blocks.drop start).take moved) start s.index).insert e (some placed)
    highest := some (max (s.highest.getD 0) touched) }

/-- The store with its list of properties closed. -/
def freeze : Store := { s with frozen := true }

/-- Give a block to a new holder, once there is room.  A block cannot take a copy of a template of
another length: no call ever returns from that, and the store is left with a gap that nobody fills.
The error `templateMisfit` stands for it, and the store is given as it was before the gap was opened. -/
def occupy (e : EntityId) : Store × Except StoreError Unit :=
  let target := s.preferredIndex e
  match s.nearestFree target with
  | none => (s, .error (.capacityOverflow s.name (min (s.capacity + 1) maxCount)))
  | some free =>
    if s.layout.template.length = s.layout.blockSize then (s.place e target free, .ok ())
    else (s, .error (.templateMisfit s.name))

/-- Give the kind to an entity, with every property at its default: the store as it stands
afterwards, and the cause if the call was refused. -/
def insert (machine : Machine) (e : EntityId) : Store × Except StoreError Unit :=
  if ¬ e.IsValid then (s, .error (.invalidEntity e))
  else if s.contains e then (s, .error (.duplicateComponent s.name e))
  else if s.layout.hasFixedStorage then
    match s.reserve machine with
    | .error cause => (s, .error cause)
    | .ok roomy => roomy.freeze.occupy e
  else ({ s.freeze with index := s.index.insert e none }, .ok ())

/-! ## Removal -/

/-- Slide the occupied blocks to the front and cut the buffer to a smaller capacity. -/
def compactTo (capacity : Nat) : Store :=
  let kept := s.occupiedRange.filter Block.isOccupied
  let blank := Block.blank s.layout.dataSize
  { s with
    blocks := kept ++ List.replicate (capacity - kept.length) blank
    index := reindex kept 0 s.index
    highest := if kept.isEmpty then none else some (kept.length - 1) }

/-- Compact when the buffer is sparse, unless that would go below the expected capacity or leave
no free block. -/
def compactIfSparse (machine : Machine) : Store :=
  let capacity := s.config.shrunk machine.rounding s.capacity
  if s.config.isSparse machine.rounding s.count s.capacity ∧
      s.config.expectedCapacity ≤ capacity ∧ s.count < capacity then
    s.compactTo capacity
  else s

/-- Free one block.  The highest occupied block is looked for again only if it was this one. -/
def vacate (i : Nat) : Store :=
  { s with
    blocks := s.blocks.set i (Block.blank s.layout.dataSize)
    highest :=
      if s.highest = some i then
        match countThroughLast Block.isOccupied (s.blocks.take i) with
        | 0 => none
        | n + 1 => some n
      else s.highest }

/-- The store without anything known of an entity but its block. -/
def forget (e : EntityId) : Store :=
  { s with index := s.index.erase e, sides := s.sides.map (·.erase e) }

/-- Take the kind from an entity; the answer is whether it held it. -/
def remove (machine : Machine) (e : EntityId) : Store × Bool :=
  match s.index.lookup e with
  | none => (s, false)
  | some none => (s.forget e, true)
  | some (some i) => (((s.forget e).vacate i).compactIfSparse machine, true)

end Store

end EntityStore
