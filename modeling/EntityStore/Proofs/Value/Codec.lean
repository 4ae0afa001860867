import EntityStore.Value.Basic

/-!
# Values survive their bytes

The laws of spans in a buffer, of any codec, and of the codecs of the built-in types.

* `Codec.length_write`, `Codec.spanAt?_write`, `Codec.spanAt?_write_of_disjoint`: whatever a codec
  does, a write keeps to its span.
* `Codec.Faithful`: a codec that refuses nothing and reads back what it wrote.
* `ValueType.faithful_of_isBuiltIn`: the codecs of the built-in types are so.
* `ValueType.read?_write_of_disjoint`: a write changes nothing that is read from a span apart from it.
-/

namespace EntityStore

/-! ## Words -/

/-- A number that fits its bytes is read back from them. -/
theorem ofLittleEndian_littleEndian {width n : Nat} (h : n < Nat.pow 256 width) :
    ofLittleEndian (littleEndian width n) = n := by
  induction width generalizing n with
  | zero =>
      have hn : n = 0 := Nat.lt_one_iff.1 h
      rw [hn]
      rfl
  | succ width ih =>
      have hbyte : (UInt8.ofNat (n % 256)).toNat = n % 256 := by
        rw [UInt8.toNat_ofNat']
        omega
      have hrest : n / 256 < Nat.pow 256 width :=
        Nat.div_lt_of_lt_mul (by rw [Nat.mul_comm]; exact h)
      show (UInt8.ofNat (n % 256)).toNat + 256 * ofLittleEndian (littleEndian width (n / 256)) = n
      rw [ih hrest, hbyte]
      exact Nat.mod_add_div n 256

/-- A word fits the bytes of its type. -/
theorem WordType.toNat_lt (type : WordType) (x : BitVec type.bits) :
    x.toNat < Nat.pow 256 type.bytes := by
  have hword := x.isLt
  have hpow : ∀ width : Width, Nat.pow 2 (8 * width.bytes) = Nat.pow 256 width.bytes := by
    intro width
    cases width <;> rfl
  cases type with
  | signed width => exact Nat.lt_of_lt_of_eq hword (hpow width)
  | unsigned width => exact Nat.lt_of_lt_of_eq hword (hpow width)
  | binary32 => exact hword
  | binary64 => exact hword

theorem WordType.bytes_pos (type : WordType) : 0 < type.bytes := by
  have hwidth : ∀ width : Width, 0 < width.bytes := by
    intro width
    cases width <;> decide
  cases type with
  | signed width => exact hwidth width
  | unsigned width => exact hwidth width
  | binary32 => decide
  | binary64 => decide

/-! ## Spans -/

section Spans

variable {buffer out bytes : List UInt8} {offset width : Nat}

theorem length_of_spanAt? {bytes : List UInt8} (h : spanAt? buffer offset width = some bytes) :
    offset + width ≤ buffer.length ∧ bytes = (buffer.drop offset).take width ∧
      bytes.length = width := by
  unfold spanAt? at h
  split at h
  · rename_i hfits
    obtain rfl := Option.some.inj h
    refine ⟨hfits, rfl, ?_⟩
    rw [List.length_take, List.length_drop]
    omega
  · cases h

/-- A span that lies in the buffer has bytes. -/
theorem exists_spanAt? (h : offset + width ≤ buffer.length) :
    ∃ bytes, spanAt? buffer offset width = some bytes :=
  ⟨_, if_pos h⟩

theorem overwrite?_eq_some (h : overwrite? buffer offset bytes = some out) :
    offset + bytes.length ≤ buffer.length ∧
      out = buffer.take offset ++ bytes ++ buffer.drop (offset + bytes.length) := by
  unfold overwrite? at h
  split at h
  · rename_i hfits
    exact ⟨hfits, (Option.some.inj h).symm⟩
  · cases h

theorem length_overwrite? (h : overwrite? buffer offset bytes = some out) :
    out.length = buffer.length := by
  obtain ⟨hfits, rfl⟩ := overwrite?_eq_some h
  simp only [List.length_append, List.length_take, List.length_drop]
  omega

/-- The bytes of a span that was overwritten are the new ones. -/
theorem spanAt?_overwrite? (h : overwrite? buffer offset bytes = some out) :
    spanAt? out offset bytes.length = some bytes := by
  have hlength := length_overwrite? h
  obtain ⟨hfits, rfl⟩ := overwrite?_eq_some h
  have htake : (buffer.take offset).length = offset := by
    rw [List.length_take]
    omega
  unfold spanAt?
  rw [hlength, if_pos hfits, List.append_assoc]
  conv => lhs; rw [← htake]
  simp

/-- The bytes of a span apart from one that was overwritten are as they were. -/
theorem spanAt?_overwrite?_of_disjoint (h : overwrite? buffer offset bytes = some out)
    {other : Nat} (hapart : other + width ≤ offset ∨ offset + bytes.length ≤ other) :
    spanAt? out other width = spanAt? buffer other width := by
  have hlength := length_overwrite? h
  obtain ⟨hfits, rfl⟩ := overwrite?_eq_some h
  unfold spanAt?
  rw [hlength]
  split
  · rename_i hin
    congr 1
    apply List.ext_getElem?
    intro i
    simp only [List.getElem?_take, List.getElem?_drop]
    split
    · rename_i hi
      -- the span lies in the part that is taken over from the front, or in that from the back
      rcases hapart with hbefore | hafter
      · rw [List.append_assoc, List.getElem?_append_left (by rw [List.length_take]; omega),
          List.getElem?_take_of_lt (by omega)]
      · have hleft : (buffer.take offset ++ bytes).length = offset + bytes.length := by
          rw [List.length_append, List.length_take]
          omega
        rw [List.getElem?_append_right (by omega), List.getElem?_drop, hleft]
        congr 1
        omega
    · rfl
  · rfl

theorem length_overwritten (buffer : List UInt8) (offset : Nat) (bytes : List UInt8) :
    (overwritten buffer offset bytes).length = buffer.length := by
  unfold overwritten
  cases h : overwrite? buffer offset bytes with
  | none => rfl
  | some out => exact length_overwrite? h

end Spans

/-! ## Codecs -/

namespace Codec

variable {α : Type} {c : Codec α} {x : α} {buffer span : List UInt8} {offset : Nat}

/-- A value whose span does not lie in the buffer is not written. -/
theorem write_of_spanAt?_eq_none (h : spanAt? buffer offset c.width = none) :
    c.write x buffer offset = (buffer, false) := by
  unfold write
  rw [h]

/-- The write of a value whose span lies in the buffer. -/
theorem write_of_spanAt? (h : spanAt? buffer offset c.width = some span) :
    c.write x buffer offset =
      (overwritten buffer offset (c.encode x span).1, (c.encode x span).2) := by
  unfold write
  rw [h]

/-- The span of a write, once it is there. -/
theorem overwrite?_encode (h : spanAt? buffer offset c.width = some span) :
    (c.encode x span).1.length = c.width ∧
      overwrite? buffer offset (c.encode x span).1 = some (c.write x buffer offset).1 := by
  obtain ⟨hfits, -, hspan⟩ := length_of_spanAt? h
  have hlength := c.length_encode x span hspan
  refine ⟨hlength, ?_⟩
  rw [write_of_spanAt? h, overwritten, overwrite?, if_pos (by rw [hlength]; exact hfits)]
  rfl

theorem length_write (c : Codec α) (x : α) (buffer : List UInt8) (offset : Nat) :
    (c.write x buffer offset).1.length = buffer.length := by
  cases h : spanAt? buffer offset c.width with
  | none => rw [write_of_spanAt?_eq_none h]
  | some span =>
      rw [write_of_spanAt? h]
      exact length_overwritten buffer offset _

/-- The bytes that a write leaves in its span. -/
theorem spanAt?_write (h : spanAt? buffer offset c.width = some span) :
    spanAt? (c.write x buffer offset).1 offset c.width = some (c.encode x span).1 := by
  obtain ⟨hlength, hover⟩ := overwrite?_encode h (x := x)
  rw [← hlength]
  exact spanAt?_overwrite? hover

/-- The bytes of a span apart from that of a write are as they were, even if the value is refused. -/
theorem spanAt?_write_of_disjoint {other width : Nat}
    (hapart : other + width ≤ offset ∨ offset + c.width ≤ other) :
    spanAt? (c.write x buffer offset).1 other width = spanAt? buffer other width := by
  cases h : spanAt? buffer offset c.width with
  | none => rw [write_of_spanAt?_eq_none h]
  | some span =>
      obtain ⟨hlength, hover⟩ := overwrite?_encode h (x := x)
      exact spanAt?_overwrite?_of_disjoint hover (by rw [hlength]; exact hapart)

/-- A codec that refuses no value and reads back what it wrote. -/
structure Faithful (c : Codec α) : Prop where
  /-- Every value is accepted, whatever stands in its span. -/
  accepts : ∀ x span, span.length = c.width → (c.encode x span).2 = true
  /-- A value is read back from its bytes as it was. -/
  decodes : ∀ x span, span.length = c.width → c.decode? (c.encode x span).1 = some x

/-- A value is written wherever its span lies in the buffer. -/
theorem Faithful.write_accepted (hc : c.Faithful) (hfits : offset + c.width ≤ buffer.length) (x : α) :
    (c.write x buffer offset).2 = true := by
  obtain ⟨span, hspan⟩ := exists_spanAt? hfits
  rw [write_of_spanAt? hspan]
  exact hc.accepts x span (length_of_spanAt? hspan).2.2

/-- A value that was written is read back as it was. -/
theorem Faithful.read?_write (hc : c.Faithful) (hfits : offset + c.width ≤ buffer.length) (x : α) :
    c.read? (c.write x buffer offset).1 offset = some x := by
  obtain ⟨span, hspan⟩ := exists_spanAt? hfits
  unfold read?
  rw [spanAt?_write hspan, Option.bind_some]
  exact hc.decodes x span (length_of_spanAt? hspan).2.2

end Codec

/-- A word is read back from its bytes as it was. -/
theorem WordType.faithful_codec (type : WordType) : type.codec.Faithful where
  accepts _ _ _ := rfl
  decodes x _ _ := by
    show some (BitVec.ofNat type.bits (ofLittleEndian (littleEndian type.bytes x.toNat))) = some x
    -- the word fits its bytes, so nothing is cut off
    rw [ofLittleEndian_littleEndian (type.toNat_lt x)]
    exact congrArg some (by simp)

theorem truthCodec_faithful : truthCodec.Faithful where
  accepts _ _ _ := rfl
  decodes x _ _ := by cases x <;> rfl

/-! ## Types -/

namespace ValueType

variable [CustomTypes] {t : ValueType} {buffer : List UInt8} {offset width : Nat}

/-- The codecs of the built-in types refuse nothing and read back what they wrote. -/
theorem faithful_of_isBuiltIn (ht : t.isBuiltIn = true) {codec : Codec t.Carrier}
    (hcodec : t.codec? = some codec) : codec.Faithful := by
  cases t with
  | word type =>
      obtain rfl := Option.some.inj hcodec
      exact type.faithful_codec
  | bool =>
      obtain rfl := Option.some.inj hcodec
      exact truthCodec_faithful
  | text => cases hcodec
  | list element => cases hcodec
  | custom key => cases ht

theorem width?_of_codec? {codec : Codec t.Carrier} (h : t.codec? = some codec) :
    t.width? = some codec.width := by
  rw [width?, h, Option.map_some]

theorem exists_codec_of_width? (h : t.width? = some width) :
    ∃ codec, t.codec? = some codec ∧ codec.width = width := by
  cases hcodec : t.codec? with
  | none =>
      rw [width?, hcodec] at h
      cases h
  | some codec =>
      rw [width?_of_codec? hcodec] at h
      exact ⟨codec, rfl, Option.some.inj h⟩

theorem codec?_eq_none_iff : t.codec? = none ↔ t.width? = none := by
  rw [width?, Option.map_eq_none_iff]

theorem write_of_codec? {codec : Codec t.Carrier} (h : t.codec? = some codec) (x : t.Carrier)
    (buffer : List UInt8) (offset : Nat) :
    t.write x buffer offset = codec.write x buffer offset := by
  unfold write
  rw [h]

theorem read?_of_codec? {codec : Codec t.Carrier} (h : t.codec? = some codec) (buffer : List UInt8)
    (offset : Nat) : t.read? buffer offset = codec.read? buffer offset := by
  rw [read?, h, Option.bind_some]

/-- A value of a built-in type takes at least one byte. -/
theorem width?_pos (ht : t.isBuiltIn = true) (h : t.width? = some width) : 0 < width := by
  cases t with
  | word type =>
      obtain rfl := Option.some.inj h
      exact type.bytes_pos
  | bool =>
      obtain rfl := Option.some.inj h
      exact Nat.zero_lt_one
  | text => cases h
  | list element => cases h
  | custom key => cases ht

/-- A write leaves the length of the buffer as it was. -/
theorem length_write (t : ValueType) (x : t.Carrier) (buffer : List UInt8) (offset : Nat) :
    (t.write x buffer offset).1.length = buffer.length := by
  cases h : t.codec? with
  | none =>
      unfold write
      rw [h]
  | some codec =>
      rw [write_of_codec? h]
      exact codec.length_write x buffer offset

/-- A value of a built-in type is written wherever its span lies in the buffer. -/
theorem write_accepted (ht : t.isBuiltIn = true) (hwidth : t.width? = some width)
    (hfits : offset + width ≤ buffer.length) (x : t.Carrier) :
    (t.write x buffer offset).2 = true := by
  obtain ⟨codec, hcodec, rfl⟩ := exists_codec_of_width? hwidth
  rw [write_of_codec? hcodec]
  exact (faithful_of_isBuiltIn ht hcodec).write_accepted hfits x

/-- A value of a built-in type that was written is read back as it was. -/
theorem read?_write (ht : t.isBuiltIn = true) (hwidth : t.width? = some width)
    (hfits : offset + width ≤ buffer.length) (x : t.Carrier) :
    t.read? (t.write x buffer offset).1 offset = some x := by
  obtain ⟨codec, hcodec, rfl⟩ := exists_codec_of_width? hwidth
  rw [write_of_codec? hcodec, read?_of_codec? hcodec]
  exact (faithful_of_isBuiltIn ht hcodec).read?_write hfits x

/-- A write changes nothing that is read from a span apart from it, even if the value is refused. -/
theorem read?_write_of_disjoint {x : t.Carrier} (hwidth : t.width? = some width)
    {other : ValueType} {place size : Nat} (hsize : other.width? = some size)
    (hapart : place + size ≤ offset ∨ offset + width ≤ place) :
    other.read? (t.write x buffer offset).1 place = other.read? buffer place := by
  obtain ⟨codec, hcodec, rfl⟩ := exists_codec_of_width? hwidth
  obtain ⟨reader, hreader, rfl⟩ := exists_codec_of_width? hsize
  rw [write_of_codec? hcodec, read?_of_codec? hreader, read?_of_codec? hreader, Codec.read?,
    Codec.read?, Codec.spanAt?_write_of_disjoint hapart]

end ValueType

end EntityStore
