import EntityStore.Number.Limits
import EntityStore.Proofs.Value.Codec

/-!
# Values keep to their spans

What a buffer is after a value was written into it, for the types whose codecs refuse nothing.

* `WordType.encode_decode?`, `truthCodec_decode?`: the bytes of a word are restored from the value
  that they are read as.  A truth value restores zero and one only, as every other byte is read as
  true.
* `getElem?_overwrite?`: every byte of a buffer of which a span was overwritten.
* `overwritten_comm`, `Codec.write_comm`: spans that lie apart are written in either order.
* `fits_iff_wordEnd?`: whether a span fits is the same when its end is computed with sixty-four bits
  and found not to overflow.
* `ValueType.framed_of_isBuiltIn`: the law of the codecs of built-in types.
-/

namespace EntityStore

/-! ## Bytes that are read and written again -/

theorem ofLittleEndian_lt (bytes : List UInt8) :
    ofLittleEndian bytes < Nat.pow 256 bytes.length := by
  induction bytes with
  | nil => exact Nat.zero_lt_one
  | cons byte rest ih =>
      have hbyte := byte.toNat_lt
      have hpow : Nat.pow 256 (byte :: rest).length = Nat.pow 256 rest.length * 256 := rfl
      rw [hpow]
      show byte.toNat + 256 * ofLittleEndian rest < Nat.pow 256 rest.length * 256
      omega

/-- Bytes are those of the number that they are read as. -/
theorem littleEndian_ofLittleEndian (bytes : List UInt8) :
    littleEndian bytes.length (ofLittleEndian bytes) = bytes := by
  induction bytes with
  | nil => rfl
  | cons byte rest ih =>
      have hbyte := byte.toNat_lt
      have hlow : (byte.toNat + 256 * ofLittleEndian rest) % 256 = byte.toNat := by omega
      have hhigh : (byte.toNat + 256 * ofLittleEndian rest) / 256 = ofLittleEndian rest := by omega
      show UInt8.ofNat ((byte.toNat + 256 * ofLittleEndian rest) % 256) ::
        littleEndian rest.length ((byte.toNat + 256 * ofLittleEndian rest) / 256) = byte :: rest
      rw [hlow, hhigh, ih, UInt8.ofNat_toNat]

/-- The bits of a word are those of its bytes. -/
theorem WordType.two_pow_bits (type : WordType) : Nat.pow 2 type.bits = Nat.pow 256 type.bytes := by
  have hwidth : ∀ width : Width, Nat.pow 2 (8 * width.bytes) = Nat.pow 256 width.bytes := by
    intro width
    cases width <;> rfl
  cases type with
  | signed width => exact hwidth width
  | unsigned width => exact hwidth width
  | binary32 => rfl
  | binary64 => rfl

/-- No word is wider than eight bytes. -/
theorem WordType.bytes_le (type : WordType) : type.bytes ≤ 8 := by
  have hwidth : ∀ width : Width, width.bytes ≤ 8 := by
    intro width
    cases width <;> decide
  cases type with
  | signed width => exact hwidth width
  | unsigned width => exact hwidth width
  | binary32 => decide
  | binary64 => decide

/-- The bytes of a word are restored from the value that they are read as. -/
theorem WordType.encode_decode? (type : WordType) {bytes : List UInt8}
    (hlength : bytes.length = type.codec.width) :
    ∃ x, type.codec.decode? bytes = some x ∧ ∀ span, type.codec.encode x span = (bytes, true) := by
  have hfits : ofLittleEndian bytes < Nat.pow 2 type.bits := by
    rw [type.two_pow_bits, ← show bytes.length = type.bytes from hlength]
    exact ofLittleEndian_lt bytes
  -- the bytes fit the word, so nothing is cut off
  have hnat : (BitVec.ofNat type.bits (ofLittleEndian bytes)).toNat = ofLittleEndian bytes :=
    (BitVec.toNat_ofNat _ _).trans (Nat.mod_eq_of_lt hfits)
  have hbytes : littleEndian type.bytes (BitVec.ofNat type.bits (ofLittleEndian bytes)).toNat =
      bytes := by
    rw [hnat, ← show bytes.length = type.bytes from hlength, littleEndian_ofLittleEndian]
  exact ⟨_, rfl, fun _ => congrArg (·, true) hbytes⟩

/-- A byte is read as a truth value, and restored from it if it is zero or one. -/
theorem truthCodec_decode? (byte : UInt8) :
    ∃ x, truthCodec.decode? [byte] = some x ∧
      ∀ span, (truthCodec.encode x span).1 = [byte] ↔ byte = 0 ∨ byte = 1 := by
  have hvalue : ofLittleEndian [byte] = byte.toNat := by
    show byte.toNat + 256 * 0 = byte.toNat
    omega
  refine ⟨decide (ofLittleEndian [byte] ≠ 0), rfl, fun span => ?_⟩
  rw [hvalue]
  by_cases hzero : byte = 0
  · subst hzero
    exact ⟨fun _ => Or.inl rfl, fun _ => rfl⟩
  · have htrue : decide (byte.toNat ≠ 0) = true :=
      decide_eq_true fun heq => hzero (UInt8.toNat_inj.1 heq)
    rw [htrue]
    constructor
    · intro h
      exact Or.inr (List.singleton_inj.1 h).symm
    · intro h
      rw [h.resolve_left hzero]
      rfl

/-! ## A buffer of which a span was overwritten -/

section Spans

variable {buffer out bytes : List UInt8} {offset : Nat}

/-- The bytes of the span are the new ones, and all others are as they were. -/
theorem getElem?_overwrite? (h : overwrite? buffer offset bytes = some out) (i : Nat) :
    out[i]? = if offset ≤ i ∧ i < offset + bytes.length then bytes[i - offset]? else buffer[i]? := by
  obtain ⟨hfits, rfl⟩ := overwrite?_eq_some h
  have htake : (buffer.take offset).length = offset := by
    rw [List.length_take]
    omega
  have hfront : (buffer.take offset ++ bytes).length = offset + bytes.length := by
    rw [List.length_append, htake]
  rcases Nat.lt_or_ge i (offset + bytes.length) with hi | hi
  · rw [List.getElem?_append_left (by omega)]
    rcases Nat.lt_or_ge i offset with hbefore | hwithin
    · rw [List.getElem?_append_left (by omega), List.getElem?_take_of_lt hbefore,
        if_neg (by omega)]
    · rw [List.getElem?_append_right (by omega), htake, if_pos ⟨hwithin, hi⟩]
  · rw [List.getElem?_append_right (by omega), hfront, List.getElem?_drop, if_neg (by omega)]
    congr 1
    omega

theorem getElem?_overwritten (buffer : List UInt8) (offset : Nat) (bytes : List UInt8) (i : Nat) :
    (overwritten buffer offset bytes)[i]? =
      if offset + bytes.length ≤ buffer.length ∧ offset ≤ i ∧ i < offset + bytes.length
      then bytes[i - offset]? else buffer[i]? := by
  unfold overwritten
  cases h : overwrite? buffer offset bytes with
  | none =>
      have hout : ¬ offset + bytes.length ≤ buffer.length := by
        intro hfits
        rw [overwrite?, if_pos hfits] at h
        cases h
      rw [if_neg fun hin => hout hin.1]
      rfl
  | some out =>
      have hfits := (overwrite?_eq_some h).1
      simp only [hfits, true_and]
      exact getElem?_overwrite? h i

/-- Spans that lie apart are overwritten in either order, whether they fit or not. -/
theorem overwritten_comm (buffer : List UInt8) {offset place : Nat} {bytes others : List UInt8}
    (hapart : place + others.length ≤ offset ∨ offset + bytes.length ≤ place) :
    overwritten (overwritten buffer offset bytes) place others =
      overwritten (overwritten buffer place others) offset bytes := by
  apply List.ext_getElem?
  intro i
  simp only [getElem?_overwritten, length_overwritten]
  split
  · -- a byte of the one span is no byte of the other
    rw [if_neg (by omega)]
  · rfl

end Spans

/-! ## Ends of spans in machine words -/

/-- The end of a span, none when it is past the largest word. -/
def wordEnd? (offset : BitVec 64) (width : Nat) : Option (BitVec 64) :=
  if BitVec.uaddOverflow offset (BitVec.ofNat 64 width) then none
  else some (offset + BitVec.ofNat 64 width)

/-- A span lies in a buffer if and only if its end is a word that is not past the end of the buffer.
No buffer has more bytes than a word can count. -/
theorem fits_iff_wordEnd? (offset : BitVec 64) {width length : Nat} (hwidth : width ≤ 8)
    (hlength : length ≤ maxCount) :
    offset.toNat + width ≤ length ↔
      ∃ stop, wordEnd? offset width = some stop ∧ stop.toNat ≤ length := by
  have hmax : maxCount = 18446744073709551615 := rfl
  have hoffset : offset.toNat < 18446744073709551616 := offset.isLt
  have hnat : (BitVec.ofNat 64 width).toNat = width := by
    rw [BitVec.toNat_ofNat]
    exact Nat.mod_eq_of_lt (by omega)
  have hoverflow : BitVec.uaddOverflow offset (BitVec.ofNat 64 width) = true ↔
      18446744073709551616 ≤ offset.toNat + width := by
    unfold BitVec.uaddOverflow
    rw [hnat]
    exact decide_eq_true_iff
  unfold wordEnd?
  split
  · rename_i hpast
    have hge := hoverflow.1 hpast
    constructor
    · intro hfits
      omega
    · rintro ⟨stop, hstop, -⟩
      cases hstop
  · rename_i hwithin
    have hlt : offset.toNat + width < 18446744073709551616 :=
      Nat.lt_of_not_le fun hge => hwithin (hoverflow.2 hge)
    have hsum : (offset + BitVec.ofNat 64 width).toNat = offset.toNat + width := by
      rw [BitVec.toNat_add, hnat]
      exact Nat.mod_eq_of_lt hlt
    constructor
    · intro hfits
      exact ⟨_, rfl, by rw [hsum]; exact hfits⟩
    · rintro ⟨stop, hstop, hle⟩
      obtain rfl := Option.some.inj hstop
      rw [hsum] at hle
      exact hle

/-! ## The law -/

namespace ValueType

section Law

variable [CustomTypes]

/-- What is left of a buffer when a value is to be written at an offset. -/
def written (t : ValueType) (x : t.Carrier) (buffer : List UInt8) (offset : Nat) : List UInt8 :=
  (t.write x buffer offset).1

/-- A codec that reads and writes in a span of one width, and nowhere else. -/
structure Framed (t : ValueType) (width : Nat) : Prop where
  /-- A value is written if and only if the span lies in the buffer. -/
  write_iff : ∀ x buffer offset,
    (t.write x buffer offset).2 = true ↔ offset + width ≤ buffer.length
  /-- It is the same with reading. -/
  read_iff : ∀ buffer offset,
    (t.read? buffer offset).isSome = true ↔ offset + width ≤ buffer.length
  /-- The end of the span may be computed with words, as long as an overflow is noticed. -/
  word_iff : ∀ (offset : BitVec 64) (buffer : List UInt8), buffer.length ≤ maxCount →
    (offset.toNat + width ≤ buffer.length ↔
      ∃ stop, wordEnd? offset width = some stop ∧ stop.toNat ≤ buffer.length)
  /-- The buffer is as long as before. -/
  length : ∀ x buffer offset, (t.written x buffer offset).length = buffer.length
  /-- Outside of the span nothing has changed, and nowhere if the value was not written. -/
  frame : ∀ x buffer offset i,
    (i < offset ∨ offset + width ≤ i) ∨ (t.write x buffer offset).2 = false →
      (t.written x buffer offset)[i]? = buffer[i]?
  /-- A value that was written is read back bit for bit. -/
  read_back : ∀ x buffer offset, offset + width ≤ buffer.length →
    t.read? (t.written x buffer offset) offset = some x
  /-- What is read from a span apart from it is read as before, whatever its type. -/
  apart : ∀ x buffer offset (other : ValueType) place,
    (∀ size, other.width? = some size → place + size ≤ offset ∨ offset + width ≤ place) →
      other.read? (t.written x buffer offset) place = other.read? buffer place
  /-- Values in spans that lie apart are written in either order, whatever the other type. -/
  comm : ∀ x buffer offset (other : ValueType) y place size, other.width? = some size →
    place + size ≤ offset ∨ offset + width ≤ place →
      other.written y (t.written x buffer offset) place =
        t.written x (other.written y buffer place) offset
  /-- Writing back what was read leaves the buffer as it was; for a truth value only if the byte is
  zero or one. -/
  restore : ∀ buffer offset x, t.read? buffer offset = some x →
    (t.write x buffer offset = (buffer, true) ↔
      (t = bool → buffer[offset]? = some 0 ∨ buffer[offset]? = some 1))

end Law

end ValueType

/-- The bytes of a span put back into it. -/
theorem overwritten_spanAt? {buffer bytes : List UInt8} {offset width : Nat}
    (h : spanAt? buffer offset width = some bytes) : overwritten buffer offset bytes = buffer := by
  obtain ⟨hfits, hbytes, hlength⟩ := length_of_spanAt? h
  rw [overwritten, overwrite?, hlength, if_pos hfits, Option.getD_some, hbytes, List.append_assoc,
    ← List.drop_drop, List.take_append_drop, List.take_append_drop]

/-- What is put into a span leaves the buffer as it was only if it is what stood there. -/
theorem overwritten_eq_self_iff {buffer bytes new : List UInt8} {offset width : Nat}
    (h : spanAt? buffer offset width = some bytes) (hlength : new.length = width) :
    overwritten buffer offset new = buffer ↔ new = bytes := by
  constructor
  · intro hself
    have hfits := (length_of_spanAt? h).1
    have hover : overwrite? buffer offset new = some (overwritten buffer offset new) := by
      rw [overwritten, overwrite?, if_pos (by rw [hlength]; exact hfits)]
      rfl
    have hnew := spanAt?_overwrite? hover
    rw [hself, hlength, h] at hnew
    exact (Option.some.inj hnew).symm
  · rintro rfl
    exact overwritten_spanAt? h

namespace Codec

variable {α β : Type} {buffer : List UInt8} {offset place : Nat}

/-- A faithful codec writes a value if and only if its span lies in the buffer. -/
theorem Faithful.write_accepted_iff {c : Codec α} (hc : c.Faithful) (x : α) :
    (c.write x buffer offset).2 = true ↔ offset + c.width ≤ buffer.length := by
  constructor
  · intro haccepted
    cases hspan : spanAt? buffer offset c.width with
    | none =>
        rw [write_of_spanAt?_eq_none hspan] at haccepted
        cases haccepted
    | some span => exact (length_of_spanAt? hspan).1
  · intro hfits
    exact hc.write_accepted hfits x

/-- Outside of its span a write changes nothing. -/
theorem getElem?_write (c : Codec α) (x : α) {i : Nat} (hi : i < offset ∨ offset + c.width ≤ i) :
    (c.write x buffer offset).1[i]? = buffer[i]? := by
  cases hspan : spanAt? buffer offset c.width with
  | none => rw [write_of_spanAt?_eq_none hspan]
  | some span =>
      have hlength := (overwrite?_encode hspan (x := x)).1
      rw [write_of_spanAt? hspan, getElem?_overwritten, if_neg (by omega)]

/-- Writes in spans that lie apart can be made in either order, whether the values are refused or
not. -/
theorem write_comm (c : Codec α) (d : Codec β) (x : α) (y : β)
    (hapart : place + d.width ≤ offset ∨ offset + c.width ≤ place) :
    (d.write y (c.write x buffer offset).1 place).1 =
      (c.write x (d.write y buffer place).1 offset).1 := by
  have hother : spanAt? (c.write x buffer offset).1 place d.width = spanAt? buffer place d.width :=
    spanAt?_write_of_disjoint hapart
  have hown : spanAt? (d.write y buffer place).1 offset c.width = spanAt? buffer offset c.width :=
    spanAt?_write_of_disjoint (Or.symm hapart)
  cases hspan : spanAt? buffer offset c.width with
  | none => rw [write_of_spanAt?_eq_none hspan, write_of_spanAt?_eq_none (hown.trans hspan)]
  | some span =>
      cases hplace : spanAt? buffer place d.width with
      | none => rw [write_of_spanAt?_eq_none hplace, write_of_spanAt?_eq_none (hother.trans hplace)]
      | some room =>
          have hbytes := (overwrite?_encode hspan (x := x)).1
          have hothers := (overwrite?_encode hplace (x := y)).1
          rw [write_of_spanAt? (hother.trans hplace), write_of_spanAt? (hown.trans hspan),
            write_of_spanAt? hspan, write_of_spanAt? hplace]
          exact overwritten_comm buffer (by rw [hbytes, hothers]; exact hapart)

end Codec

namespace ValueType

section Law

variable [CustomTypes] {t : ValueType} {buffer : List UInt8} {offset width : Nat}

/-- A value of a built-in type is read wherever its span lies in the buffer. -/
theorem read?_isSome_iff (ht : t.isBuiltIn = true) (hwidth : t.width? = some width) :
    (t.read? buffer offset).isSome = true ↔ offset + width ≤ buffer.length := by
  obtain ⟨codec, hcodec, rfl⟩ := exists_codec_of_width? hwidth
  have hdecode : ∀ span, span.length = codec.width → (codec.decode? span).isSome = true := by
    intro span hlength
    cases t with
    | word type =>
        obtain rfl := Option.some.inj hcodec
        rfl
    | bool =>
        obtain rfl := Option.some.inj hcodec
        rfl
    | text => cases hcodec
    | list element => cases hcodec
    | custom key => cases ht
  rw [read?_of_codec? hcodec, Codec.read?]
  constructor
  · intro hsome
    cases hspan : spanAt? buffer offset codec.width with
    | none =>
        rw [hspan] at hsome
        cases hsome
    | some span => exact (length_of_spanAt? hspan).1
  · intro hfits
    obtain ⟨span, hspan⟩ := exists_spanAt? hfits
    rw [hspan, Option.bind_some]
    exact hdecode span (length_of_spanAt? hspan).2.2

/-- When a value that was read restores the bytes that it was read from. -/
theorem write_of_read? (ht : t.isBuiltIn = true) {x : t.Carrier}
    (h : t.read? buffer offset = some x) :
    t.write x buffer offset = (buffer, true) ↔
      (t = bool → buffer[offset]? = some 0 ∨ buffer[offset]? = some 1) := by
  obtain ⟨codec, hcodec, hread⟩ := Option.bind_eq_some_iff.1 h
  obtain ⟨bytes, hspan, hdecode⟩ := Option.bind_eq_some_iff.1 hread
  obtain ⟨-, hbytes, hlength⟩ := length_of_spanAt? hspan
  rw [write_of_codec? hcodec, Codec.write_of_spanAt? hspan]
  cases t with
  | word type =>
      obtain rfl := Option.some.inj hcodec
      obtain ⟨y, hy, hencode⟩ := type.encode_decode? hlength
      obtain rfl := Option.some.inj (hy.symm.trans hdecode)
      refine iff_of_true ?_ nofun
      rw [hencode, overwritten_spanAt? hspan]
  | bool =>
      obtain rfl := Option.some.inj hcodec
      obtain ⟨byte, rfl⟩ := List.length_eq_one_iff.1 hlength
      have hbyte : buffer[offset]? = some byte := by
        have hfirst := congrArg (fun l : List UInt8 => l[0]?) hbytes
        rw [show truthCodec.width = 1 from rfl] at hfirst
        simpa [List.getElem?_take] using hfirst.symm
      obtain ⟨y, hy, hencode⟩ := truthCodec_decode? byte
      obtain rfl := Option.some.inj (hy.symm.trans hdecode)
      have hself : overwritten buffer offset (truthCodec.encode y [byte]).1 = buffer ↔ _ :=
        overwritten_eq_self_iff hspan rfl
      rw [Prod.mk.injEq, hself, hencode, hbyte]
      have haccepted : (truthCodec.encode y [byte]).2 = true := rfl
      simp [haccepted]
  | text => cases hcodec
  | list element => cases hcodec
  | custom key => cases ht

/-- No value of a built-in type is wider than eight bytes. -/
theorem width?_le (ht : t.isBuiltIn = true) (hwidth : t.width? = some width) : width ≤ 8 := by
  cases t with
  | word type =>
      obtain rfl := Option.some.inj hwidth
      exact type.bytes_le
  | bool =>
      obtain rfl := Option.some.inj hwidth
      show 1 ≤ 8
      decide
  | text => cases hwidth
  | list element => cases hwidth
  | custom key => cases ht

/-- Every built-in type of a fixed width is written where its span lies in the buffer and nowhere
else, and read back as it was. -/
theorem framed_of_isBuiltIn (ht : t.isBuiltIn = true) (hwidth : t.width? = some width) :
    t.Framed width := by
  obtain ⟨codec, hcodec, rfl⟩ := exists_codec_of_width? hwidth
  have hfaithful := faithful_of_isBuiltIn ht hcodec
  have hwrite : ∀ x buffer offset, t.write x buffer offset = codec.write x buffer offset :=
    write_of_codec? hcodec
  constructor
  case write_iff =>
    intro x buffer offset
    rw [hwrite]
    exact hfaithful.write_accepted_iff x
  case read_iff => exact fun buffer offset => read?_isSome_iff ht hwidth
  case word_iff =>
    exact fun offset buffer hlength => fits_iff_wordEnd? offset (width?_le ht hwidth) hlength
  case length => exact fun x buffer offset => length_write t x buffer offset
  case frame =>
    intro x buffer offset i hi
    rw [written, hwrite]
    rcases hi with houtside | hrefused
    · exact codec.getElem?_write x houtside
    · -- a refusal can only be for want of room
      rw [hwrite] at hrefused
      have hout : ¬ offset + codec.width ≤ buffer.length := by
        intro hfits
        rw [hfaithful.write_accepted hfits] at hrefused
        cases hrefused
      rw [Codec.write_of_spanAt?_eq_none (if_neg hout)]
  case read_back => exact fun x buffer offset hfits => read?_write ht hwidth hfits x
  case apart =>
    intro x buffer offset other place hapart
    cases hsize : other.width? with
    | none =>
        -- a type without a width is read from no buffer
        unfold read?
        rw [codec?_eq_none_iff.2 hsize]
        rfl
    | some size => exact read?_write_of_disjoint hwidth hsize (hapart size hsize)
  case comm =>
    intro x buffer offset other y place size hsize hapart
    obtain ⟨reader, hreader, rfl⟩ := exists_codec_of_width? hsize
    have hother : ∀ buffer offset, other.write y buffer offset = reader.write y buffer offset :=
      write_of_codec? hreader y
    simp only [written, hwrite, hother]
    exact codec.write_comm reader x y hapart
  case restore => exact fun buffer offset x h => write_of_read? ht h

end Law

section

attribute [local instance] CustomTypes.none

/-- A pattern that is not a number, written at an odd offset, is read back from there, and its write
commutes with that of a truth value next to it.  An offset at the top of the words is refused.  A
truth value that is read from a byte two is not written back as that byte. -/
theorem binary32_and_bool_framed :
    (word .binary32).read? ((word .binary32).written (0x7fc00001 : BitVec 32)
        (List.replicate 8 9) 3) 3 = some (0x7fc00001 : BitVec 32) ∧
      bool.written true ((word .binary32).written (0x7fc00001 : BitVec 32)
        (List.replicate 8 9) 3) 7 =
        (word .binary32).written (0x7fc00001 : BitVec 32)
          (bool.written true (List.replicate 8 9) 7) 3 ∧
      (bool.read? (List.replicate 8 9) 18446744073709551615).isSome = false ∧
      ¬ bool.write true [2] 0 = ([2], true) := by
  have hword : (word .binary32).Framed 4 := framed_of_isBuiltIn rfl rfl
  have htruth : bool.Framed 1 := framed_of_isBuiltIn rfl rfl
  refine ⟨hword.read_back _ _ 3 (by decide), ?_, ?_, ?_⟩
  · exact hword.comm _ _ 3 bool true 7 1 rfl (by decide)
  · have hout := mt (htruth.read_iff (List.replicate 8 9) 18446744073709551615).1 (by decide)
    exact Bool.eq_false_iff.2 hout
  · intro h
    have hbyte := (htruth.restore [2] 0 true rfl).1 h rfl
    exact absurd hbyte (by decide)

end

end ValueType

end EntityStore
