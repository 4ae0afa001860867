import EntityStore.Number.Decimal
import EntityStore.Number.Limits
import EntityStore.Store.Error

/-!
# Store configurations

When the buffer of a kind grows and shrinks, and by how much.  A configuration holds a capacity
and three doubles; `StoreConfig.validate` says which are accepted, so that growth and shrinking
cannot chase each other.

The arithmetic on capacities and thresholds takes a `Rounding`, which is applied after every
product, quotient and conversion: `Rounding.binary64` is how stores compute, and `Rounding.exact`
reads the same formulas over the rationals.  Together with the size of the memory, which decides
what buffers can be had at all, a rounding makes a `Machine`.
-/

namespace EntityStore

/-- The sizing of one kind's buffer. -/
structure StoreConfig where
  /-- The blocks of the first allocation; the buffer never shrinks below. -/
  expectedCapacity : Nat
  /-- The factor of growth, and the divisor of shrinking. -/
  growthFactor : Binary64
  /-- The fill ratio at which an insertion first grows the buffer. -/
  expansionThreshold : Binary64
  /-- The fill ratio below which a removal compacts and shrinks the buffer. -/
  compactingThreshold : Binary64
  deriving DecidableEq, Repr

/-- How the result of an arithmetic step is rounded. -/
abbrev Rounding := Rat → Rat

/-- To the nearest double. -/
def Rounding.binary64 : Rounding := BinaryFormat.binary64.nearest

/-- Not at all. -/
def Rounding.exact : Rounding := id

/-- The most bytes that one buffer can have where every byte has an address. -/
def maxBufferBytes : Nat := Nat.pow 2 63 - 1

/-- What stores run on. -/
structure Machine where
  /-- How the result of an arithmetic step is rounded. -/
  rounding : Rounding
  /-- The bytes of memory: a buffer that needs more cannot be had. -/
  memory : Nat

/-- A machine that computes with doubles and has 64 gibibytes of memory. -/
def Machine.standard : Machine := ⟨Rounding.binary64, Nat.pow 2 36⟩

/-- A machine that computes exactly and has memory for every buffer. -/
def Machine.ideal : Machine := ⟨Rounding.exact, maxBufferBytes⟩

/-- A rational cut to the counts a machine word holds. -/
def saturate (x : Int) : Nat := min x.toNat maxCount

namespace StoreConfig

/-- A thousand blocks, doubled at four fifths and compacted below a quarter. -/
def default : StoreConfig where
  expectedCapacity := 1000
  growthFactor := 0x4000000000000000
  expansionThreshold := 0x3FE999999999999A
  compactingThreshold := 0x3FD0000000000000

instance : Inhabited StoreConfig := ⟨default⟩

variable (r : Rounding) (c : StoreConfig)

/-- The exact value of the growth factor. -/
def growth : Rat := c.growthFactor.value?.getD 1

/-- The exact value of the expansion threshold. -/
def expansion : Rat := c.expansionThreshold.value?.getD 1

/-- The exact value of the compacting threshold. -/
def compacting : Rat := c.compactingThreshold.value?.getD 0

/-- Is the buffer so full that an insertion grows it? -/
def isFull (count capacity : Nat) : Bool :=
  capacity ≤ count || decide (r (c.expansion * r capacity) ≤ r count)

/-- The capacity after growth: by the factor, and by one block at least. -/
def grown (capacity : Nat) : Nat :=
  max (saturate (r (r capacity * c.growth)).ceil) (min (capacity + 1) maxCount)

/-- Is the buffer so empty that a removal compacts it? -/
def isSparse (count capacity : Nat) : Bool :=
  decide (r count < r (c.compacting * r capacity))

/-- The capacity that compaction would leave. -/
def shrunk (capacity : Nat) : Nat := saturate (r (r capacity / c.growth)).floor

/-- Does the product of the compacting threshold and the growth factor reach the expansion
threshold?  An infinite compacting threshold reaches every one. -/
def chases : Bool :=
  match c.compactingThreshold.value? with
  | none => true
  | some compacting => decide (c.expansion ≤ r (compacting * c.growth))

/-- The first constraint that a configuration breaks. -/
def violation? : Option String :=
  let one := Binary64.ofRat 1
  let zero := Binary64.ofRat 0
  let growth := c.growthFactor.text
  let expansion := c.expansionThreshold.text
  let compacting := c.compactingThreshold.text
  if c.expectedCapacity = 0 then
    some "expected_capacity must be greater than zero"
  else if !(one.less c.growthFactor && c.growthFactor.isFinite) then
    some s!"growth_factor must be a finite value above 1.0, got {growth}"
  else if !(zero.less c.expansionThreshold && c.expansionThreshold.lessOrEqual one) then
    some s!"expansion_threshold must be in (0, 1], got {expansion}"
  else if !(zero.lessOrEqual c.compactingThreshold) then
    some s!"compacting_threshold must not be negative, got {compacting}"
  else if c.chases r then
    some s!"compacting_threshold ({compacting}) x growth_factor ({growth}) must stay below expansion_threshold ({expansion})"
  else none

/-- Accept a configuration or name the first constraint it breaks. -/
def validate : Except StoreError Unit :=
  match c.violation? r with
  | some detail => .error (.invalidConfig detail)
  | none => .ok ()

end StoreConfig

end EntityStore
