/-!
# Values as bytes

How values of fixed width stand in a buffer.  A `Codec` says what a write makes of the bytes of its
span and how they are read again; `Codec.read?` and `Codec.write` check bounds: nothing is read or
written unless the whole span lies in the buffer.

A codec may refuse a value, and it may refuse bytes.  When it refuses a value it may have changed
bytes of the span by then, so a write that is refused need not leave the buffer as it was.  All that
a codec knows and touches is its span.
-/

namespace EntityStore

/-! ## Bytes of numbers -/

/-- The lowest `width` bytes of a number, lowest byte first. -/
def littleEndian : Nat → Nat → List UInt8
  | 0, _ => []
  | width + 1, n => UInt8.ofNat (n % 256) :: littleEndian width (n / 256)

/-- The number whose bytes are given, lowest byte first. -/
def ofLittleEndian : List UInt8 → Nat
  | [] => 0
  | byte :: rest => byte.toNat + 256 * ofLittleEndian rest

theorem length_littleEndian (width n : Nat) : (littleEndian width n).length = width := by
  induction width generalizing n with
  | zero => rfl
  | succ width ih => simp [littleEndian, ih]

/-! ## Spans -/

/-- The bytes of a span, if the span lies in the buffer. -/
def spanAt? (buffer : List UInt8) (offset width : Nat) : Option (List UInt8) :=
  if offset + width ≤ buffer.length then some ((buffer.drop offset).take width) else none

/-- The buffer with other bytes in a span, if the span lies in the buffer. -/
def overwrite? (buffer : List UInt8) (offset : Nat) (bytes : List UInt8) : Option (List UInt8) :=
  if offset + bytes.length ≤ buffer.length then
    some (buffer.take offset ++ bytes ++ buffer.drop (offset + bytes.length))
  else none

/-- The buffer with other bytes in a span; it is as it was if the span does not lie in it. -/
def overwritten (buffer : List UInt8) (offset : Nat) (bytes : List UInt8) : List UInt8 :=
  (overwrite? buffer offset bytes).getD buffer

/-! ## Codecs -/

/-- How the values of a type stand in a span of bytes. -/
structure Codec (α : Type) where
  /-- The number of bytes in the span. -/
  width : Nat
  /-- What a write makes of the bytes of the span, and whether the value was accepted. -/
  encode : α → List UInt8 → List UInt8 × Bool
  /-- The value that the bytes of the span are read as, none if they are refused. -/
  decode? : List UInt8 → Option α
  /-- A write keeps to the span. -/
  length_encode : ∀ x span, span.length = width → (encode x span).1.length = width

namespace Codec

variable {α : Type} (c : Codec α)

/-- The value at an offset of a buffer. -/
def read? (buffer : List UInt8) (offset : Nat) : Option α :=
  (spanAt? buffer offset c.width).bind c.decode?

/-- Write a value at an offset of a buffer: the buffer as it stands afterwards, and whether the
value was written. -/
def write (x : α) (buffer : List UInt8) (offset : Nat) : List UInt8 × Bool :=
  match spanAt? buffer offset c.width with
  | none => (buffer, false)
  | some span =>
    let (bytes, accepted) := c.encode x span
    (overwritten buffer offset bytes, accepted)

end Codec

end EntityStore
