import EntityStore.Proofs.Store.Bytes
import EntityStore.Proofs.Store.Stored

/-!
# What a new holder reads

The block of a new holder is a copy of the template, so a new holder reads what stands there.  A
layout is *stocked* when its template has, at the offset of every packed property, the bytes that the
codec of the property wrote for the default.  Unlike soundness this asks nothing of the types, and no
refusal of a declaration gets in its way.

* `Layout.Stocked.pushed`, `Store.retains_addField`: every declaration keeps a layout stocked.
* `Store.Retains`: what all operations on a store keep of its properties.
* `Store.get_eq_buffer`, `Store.set_eq_buffer`: the values of a packed property are read from the
  buffer, and written to it, at the place that the property names.
* `Store.get_of_inserted`: a property reads its default for a new holder if and only if it lives in a
  side map, or the kind has blocks and its codec reads the default back from the bytes that it wrote
  for it (`Property.Legible`).  The codecs of the built-in types always do
  (`Property.legible_of_isBuiltIn`), and so does every other one that reads its default back, if
  anything at all lives in the blocks (`Property.legible_of_reads_back`).
-/

namespace EntityStore

/-! ## Spans of the template -/

theorem length_resizeBytes (length : Nat) (bytes : List UInt8) :
    (resizeBytes length bytes).length = length := by
  unfold resizeBytes
  rw [List.length_append, List.length_take, List.length_replicate]
  omega

/-- A span that lies in the bytes before and after is not touched. -/
theorem spanAt?_resizeBytes {bytes : List UInt8} {length offset width : Nat}
    (hold : offset + width ≤ bytes.length) (hnew : offset + width ≤ length) :
    spanAt? (resizeBytes length bytes) offset width = spanAt? bytes offset width := by
  have htake : (bytes.take length).length = min length bytes.length := List.length_take
  unfold resizeBytes
  rw [spanAt?_append (by omega)]
  unfold spanAt?
  rw [if_pos (by omega), if_pos hold, List.drop_take, List.take_take, Nat.min_eq_left (by omega)]

variable [CustomTypes]

/-! ## Layouts -/

/-- The bytes behind the template that the default of one more property is written over. -/
def Layout.roomFor (l : Layout) (type : ValueType) : List UInt8 :=
  (l.room (type.width?.getD 0)).drop l.blockSize

/-- A property whose default is at hand: the template has the bytes that the codec made of some room
when it accepted the default, or there is a side map. -/
inductive Field.Kept (l : Layout) (f : Field) (room : List UInt8) : Prop where
  | packed (offset : Nat) (codec : Codec f.type.Carrier) (hslot : f.slot = .packed offset)
      (hcodec : f.type.codec? = some codec) (hroom : room.length = codec.width)
      (haccepted : (codec.encode f.default room).2 = true)
      (hfits : offset + codec.width ≤ l.dataSize)
      (htemplate : spanAt? l.template (headerSize + offset) codec.width =
        some (codec.encode f.default room).1)
  | side (i : Nat) (hslot : f.slot = .side i) (hwidth : f.type.width? = none) (hi : i < l.sideMaps)

/-- A layout in which every default is at hand. -/
structure Layout.Stocked (l : Layout) : Prop where
  /-- The template covers a block. -/
  covers : l.blockSize ≤ l.template.length
  /-- Every default is at hand. -/
  kept : ∀ f ∈ l.fields, ∃ room, f.Kept l room

/-- A default stays at hand in a layout that grows and leaves the old part of the template. -/
theorem Field.Kept.mono {l next : Layout} {f : Field} {room : List UInt8} (h : f.Kept l room)
    (hdata : l.dataSize ≤ next.dataSize) (hsides : l.sideMaps ≤ next.sideMaps)
    (htemplate : ∀ place width, place + width ≤ l.blockSize →
      spanAt? next.template place width = spanAt? l.template place width) : f.Kept next room := by
  cases h with
  | packed offset codec hslot hcodec hroom haccepted hfits hat =>
      refine .packed offset codec hslot hcodec hroom haccepted (Nat.le_trans hfits hdata) ?_
      rw [htemplate _ _ (by unfold Layout.blockSize; omega)]
      exact hat
  | side i hslot hwidth hi => exact .side i hslot hwidth (Nat.lt_of_lt_of_le hi hsides)

namespace Layout

variable {l next : Layout} {kind name : String} {type : ValueType} {default : type.Carrier}
  {answer : Except StoreError Slot}

theorem stocked_empty : Layout.empty.Stocked where
  covers := Nat.le_refl _
  kept _ hf := absurd hf List.not_mem_nil

theorem spanAt?_room (h : l.Stocked) (size : Nat) {place width : Nat}
    (hplace : place + width ≤ l.blockSize) :
    spanAt? (l.room size) place width = spanAt? l.template place width := by
  have hlong := h.covers
  unfold blockSize at hlong hplace
  exact spanAt?_resizeBytes (by omega) (by omega)

/-- Behind the template there is just the room for the value. -/
theorem spanAt?_roomFor {width : Nat} (hwidth : type.width? = some width) :
    spanAt? (l.room width) (headerSize + l.dataSize) width = some (l.roomFor type) := by
  have hlength : (l.room width).length = headerSize + l.dataSize + width := length_resizeBytes _ _
  have hwhole : ((l.room width).drop (headerSize + l.dataSize)).length ≤ width := by
    rw [List.length_drop]
    omega
  rw [spanAt?, if_pos (Nat.le_of_eq hlength.symm), List.take_of_length_le hwhole, roomFor, hwidth]
  rfl

/-- A declaration leaves the template as far as the blocks reach, even if its default is refused. -/
theorem spanAt?_write_room (h : l.Stocked) {width : Nat} (hwidth : type.width? = some width)
    (default : type.Carrier) {place size : Nat} (hplace : place + size ≤ l.blockSize) :
    spanAt? (type.write default (l.room width) (headerSize + l.dataSize)).1 place size =
      spanAt? l.template place size := by
  obtain ⟨codec, hcodec, rfl⟩ := ValueType.exists_codec_of_width? hwidth
  rw [ValueType.write_of_codec? hcodec]
  exact (Codec.spanAt?_write_of_disjoint (Or.inl hplace)).trans (spanAt?_room h _ hplace)

theorem length_write_room (width : Nat) (default : type.Carrier) :
    (type.write default (l.room width) (headerSize + l.dataSize)).1.length =
      l.blockSize + width := by
  rw [ValueType.length_write, room, length_resizeBytes]
  rfl

/-- The property that a granted declaration adds has its default at hand. -/
theorem kept_pushPacked {width : Nat} (hwidth : type.width? = some width) {template : List UInt8}
    (hwrite : type.write default (l.room width) (headerSize + l.dataSize) = (template, true)) :
    (⟨name, type, default, .packed l.dataSize⟩ : Field).Kept
      { l.declare name type default (.packed l.dataSize) with
        dataSize := l.dataSize + width, template := template } (l.roomFor type) := by
  obtain ⟨codec, hcodec, rfl⟩ := ValueType.exists_codec_of_width? hwidth
  have hspan := spanAt?_roomFor (l := l) hwidth
  rw [ValueType.write_of_codec? hcodec] at hwrite
  have htemplate := Codec.spanAt?_write hspan (x := default)
  rw [Codec.write_of_spanAt? hspan] at hwrite
  rw [Codec.write_of_spanAt? hspan, congrArg Prod.fst hwrite] at htemplate
  exact .packed l.dataSize codec rfl hcodec (length_of_spanAt? hspan).2.2 (congrArg Prod.snd hwrite)
    (Nat.le_refl _) htemplate

/-- The properties that are there keep their defaults at hand, whatever a declaration comes to. -/
theorem Pushed.kept (hpush : Pushed l kind name type default next answer) (h : l.Stocked)
    {f : Field} {room : List UInt8} (hkept : f.Kept l room) : f.Kept next room := by
  cases hpush with
  | taken => exact hkept
  | packed hnew width hwidth template hwrite =>
      refine hkept.mono (Nat.le_add_right _ _) (Nat.le_refl _) fun place size hplace => ?_
      have hsame := spanAt?_write_room h hwidth default hplace
      rwa [hwrite] at hsame
  | refused hnew width hwidth template hwrite =>
      refine hkept.mono (Nat.le_refl _) (Nat.le_refl _) fun place size hplace => ?_
      have hsame := spanAt?_write_room h hwidth default hplace
      rwa [hwrite] at hsame
  | side hnew hwidth => exact hkept.mono (Nat.le_refl _) (Nat.le_succ _) fun _ _ _ => rfl

/-- The property that a granted declaration adds has its default at hand. -/
theorem Pushed.kept_of_granted {slot : Slot}
    (hpush : Pushed l kind name type default next (.ok slot)) :
    (⟨name, type, default, slot⟩ : Field).Kept next (l.roomFor type) := by
  cases hpush with
  | packed hnew width hwidth template hwrite => exact kept_pushPacked hwidth hwrite
  | side hnew hwidth => exact .side l.sideMaps rfl hwidth (Nat.lt_succ_self _)

/-- Only a granted declaration adds a property. -/
theorem Pushed.mem_fields_iff (hpush : Pushed l kind name type default next answer) {f : Field} :
    f ∈ next.fields ↔
      f ∈ l.fields ∨ ∃ slot, answer = .ok slot ∧ f = ⟨name, type, default, slot⟩ := by
  cases hpush with
  | taken => simp
  | refused => simp
  | packed => simp [declare]
  | side => simp [declare]

/-- Whatever a declaration comes to, every default is at hand. -/
theorem Stocked.pushed (h : l.Stocked) (hpush : Pushed l kind name type default next answer) :
    next.Stocked := by
  refine ⟨?_, fun f hf => ?_⟩
  · cases hpush with
    | taken => exact h.covers
    | side => exact h.covers
    | packed hnew width hwidth template hwrite =>
        have hlength := length_write_room (l := l) width default
        rw [hwrite] at hlength
        exact Nat.le_of_eq ((Nat.add_assoc _ _ _).symm.trans hlength.symm)
    | refused hnew width hwidth template hwrite =>
        have hlength := length_write_room (l := l) width default
        rw [hwrite] at hlength
        exact Nat.le_trans (Nat.le_add_right _ _) (Nat.le_of_eq hlength.symm)
  · rcases hpush.mem_fields_iff.1 hf with hold | ⟨slot, rfl, rfl⟩
    · obtain ⟨room, hkept⟩ := h.kept f hold
      exact ⟨room, hpush.kept h hkept⟩
    · exact ⟨_, hpush.kept_of_granted⟩

end Layout

/-- A property reads its default where nothing has been set: it lives in a side map, or the kind has
blocks and the codec reads the default in the template. -/
def Property.Legible (l : Layout) (p : Property) : Prop :=
  ∀ offset, p.slot = .packed offset → l.hasFixedStorage = true ∧
    p.type.read? (l.template.drop headerSize) offset = some p.default

/-- Nothing is encoded in a side map. -/
theorem Property.legible_of_side {l : Layout} {p : Property} {i : Nat} (hslot : p.slot = .side i) :
    p.Legible l := by
  intro offset hpacked
  rw [hslot] at hpacked
  cases hpacked

theorem Property.legible_iff_of_packed {l : Layout} {p : Property} {offset : Nat}
    (hslot : p.slot = .packed offset) : p.Legible l ↔ l.hasFixedStorage = true ∧
      p.type.read? (l.template.drop headerSize) offset = some p.default := by
  constructor
  · exact fun h => h offset hslot
  · intro h place hplace
    obtain rfl := Slot.packed.inj (hslot.symm.trans hplace)
    exact h

namespace Layout.Stocked

variable {l : Layout} {p : Property}

/-- What a codec reads in the template is what it reads in the bytes that it wrote there. -/
theorem read?_template (h : l.Stocked) {codec : Codec p.type.Carrier}
    (hcodec : p.type.codec? = some codec) {offset : Nat} {bytes : List UInt8}
    (htemplate : spanAt? l.template (headerSize + offset) codec.width = some bytes) :
    p.type.read? (l.template.drop headerSize) offset = codec.decode? bytes := by
  have hcovers : headerSize ≤ l.template.length :=
    Nat.le_trans (Nat.le_add_right _ _) h.covers
  rw [ValueType.read?_of_codec? hcodec, Codec.read?, spanAt?_drop hcovers, htemplate,
    Option.bind_some]

end Layout.Stocked

/-- A property is legible in a kind with blocks if its codec reads the default back, whatever it was
written over. -/
theorem Property.legible_of_reads_back {l : Layout} {p : Property} (h : l.Stocked)
    (hp : p.field ∈ l.fields) (hfixed : l.hasFixedStorage = true)
    (hreads : ∀ codec, p.type.codec? = some codec → ∀ room, room.length = codec.width →
      codec.decode? (codec.encode p.default room).1 = some p.default) : p.Legible l := by
  obtain ⟨room, hkept⟩ := h.kept p.field hp
  cases hkept with
  | side i hslot => exact Property.legible_of_side hslot
  | packed offset codec hslot hcodec hroom haccepted hfits htemplate =>
      rw [Property.legible_iff_of_packed hslot, h.read?_template hcodec htemplate]
      exact ⟨hfixed, hreads codec hcodec room hroom⟩

/-- A property of a built-in type is legible. -/
theorem Property.legible_of_isBuiltIn {l : Layout} {p : Property} (h : l.Stocked)
    (hp : p.field ∈ l.fields) (ht : p.type.isBuiltIn = true) : p.Legible l := by
  obtain ⟨room, hkept⟩ := h.kept p.field hp
  cases hkept with
  | side i hslot => exact Property.legible_of_side hslot
  | packed offset codec hslot hcodec hroom haccepted hfits htemplate =>
      have hpositive := ValueType.width?_pos ht (ValueType.width?_of_codec? hcodec)
      have hfixed : l.hasFixedStorage = true := by
        simp only [Layout.hasFixedStorage, decide_eq_true_eq]
        omega
      refine Property.legible_of_reads_back h hp hfixed fun other hother room hroom => ?_
      exact (ValueType.faithful_of_isBuiltIn ht hother).decodes p.default room hroom

namespace Store

variable {s t : Store}

/-! ## Stores -/

/-- A store in which every default is at hand, with a side map for each property that needs one. -/
structure Stocked (s : Store) : Prop where
  /-- Every default is at hand. -/
  layout : s.layout.Stocked
  /-- There is a side map for every property that needs one. -/
  sides_length : s.sides.length = s.layout.sideMaps

theorem stocked_empty (name : String) (config : StoreConfig) : (empty name config).Stocked :=
  ⟨Layout.stocked_empty, rfl⟩

/-- What every operation keeps of the properties of a store. -/
structure Retains (s t : Store) : Prop where
  /-- Every default stays at hand. -/
  stocked : s.Stocked → t.Stocked
  /-- No property is taken away. -/
  fields : ∀ f ∈ s.layout.fields, f ∈ t.layout.fields

theorem Retains.refl (s : Store) : Retains s s := ⟨id, fun _ => id⟩

theorem Retains.trans {u : Store} (h : Retains s t) (g : Retains t u) : Retains s u :=
  ⟨g.stocked ∘ h.stocked, fun f hf => g.fields f (h.fields f hf)⟩

theorem SameShape.retains (h : SameShape s t) : Retains s t where
  stocked hs := by
    refine ⟨?_, ?_⟩
    · rw [h.layout]
      exact hs.layout
    · rw [h.layout, h.sides]
      exact hs.sides_length
  fields f hf := by
    rw [h.layout]
    exact hf

/-- A declaration changes nothing if the list of properties is closed.  Otherwise it does to the
layout what a declaration can do, and adds a side map if the property needs one. -/
theorem addField_pushed (s : Store) (name : String) (type : ValueType) (default : type.Carrier) :
    s.addField name type default = (s, .error (.frozenSchema s.name)) ∨
      ∃ next answer sides, Layout.Pushed s.layout s.name name type default next answer ∧
        s.addField name type default = ({ s with layout := next, sides := sides }, answer) ∧
        (s.sides.length = s.layout.sideMaps → sides.length = next.sideMaps) := by
  have hpush := Layout.push_pushed s.layout s.name name type default
  unfold addField
  split
  · exact Or.inl rfl
  · generalize s.layout.push s.name name type default = pushed at hpush ⊢
    obtain ⟨next, answer⟩ := pushed
    dsimp only at hpush ⊢
    refine Or.inr ⟨next, answer, ?_⟩
    cases hpush with
    | taken htaken => exact ⟨s.sides, .taken htaken, rfl, id⟩
    | packed hnew width hwidth template hwrite =>
        exact ⟨s.sides, .packed hnew width hwidth template hwrite, rfl, id⟩
    | refused hnew width hwidth template hwrite =>
        exact ⟨s.sides, .refused hnew width hwidth template hwrite, rfl, id⟩
    | side hnew hwidth =>
        refine ⟨s.sides ++ [∅], .side hnew hwidth, rfl, fun hlength => ?_⟩
        rw [List.length_append, hlength]
        rfl

theorem retains_addField (s : Store) (name : String) (type : ValueType) (default : type.Carrier) :
    Retains s (s.addField name type default).1 := by
  rcases addField_pushed s name type default with hclosed | ⟨next, answer, sides, hpush, hadd, hsides⟩
  · rw [hclosed]
    exact .refl s
  · rw [hadd]
    refine ⟨fun hs => ⟨hs.layout.pushed hpush, hsides hs.sides_length⟩, fun f hf => ?_⟩
    exact hpush.mem_fields_iff.2 (Or.inl hf)

/-- A property that was declared is one of the store. -/
theorem mem_fields_of_declare {name : String} {type : ValueType} {default : type.Carrier}
    {bounds : Option (Bounds type.Carrier)} {p : Property}
    (h : Property.declare s name type default bounds = (t, .ok p)) :
    p.field ∈ t.layout.fields := by
  unfold Property.declare at h
  dsimp only at h
  rcases addField_pushed s name type (Property.clampTo bounds default) with
    hclosed | ⟨next, answer, sides, hpush, hadd, -⟩
  · rw [hclosed] at h
    cases h
  · rw [hadd] at h
    cases answer with
    | error cause => cases h
    | ok slot =>
        cases h
        exact hpush.mem_fields_iff.2 (Or.inr ⟨slot, rfl, rfl⟩)

/-! ## Declared properties in the buffer -/

/-- Where the values of a declared property have a place in the buffer, they lie within the data. -/
theorem Stocked.packed_of_bufferOffset (h : s.Stocked) {p : Property}
    (hp : p.field ∈ s.layout.fields) {e : EntityId} {place : Nat}
    (hplace : p.bufferOffset s e = .ok place) : ∃ offset width, p.slot = .packed offset ∧
      s.valueOffset e offset = .ok place ∧ p.type.width? = some width ∧
        offset + width ≤ s.layout.dataSize := by
  obtain ⟨room, hkept⟩ := h.layout.kept p.field hp
  unfold Property.bufferOffset at hplace
  cases hkept with
  | side i hslot =>
      rw [show p.slot = .side i from hslot] at hplace
      cases hplace
  | packed offset codec hslot hcodec hroom haccepted hfits =>
      replace hslot : p.slot = .packed offset := hslot
      rw [hslot] at hplace
      exact ⟨offset, _, hslot, hplace, ValueType.width?_of_codec? hcodec, hfits⟩

/-- The value of a holder is what the codec reads in the buffer at the place of the value. -/
theorem get_eq_buffer (h : s.Packed) (hstocked : s.Stocked) {p : Property}
    (hp : p.field ∈ s.layout.fields) {e : EntityId} {place : Nat}
    (hplace : p.bufferOffset s e = .ok place) :
    p.get s e =
      (p.type.read? s.buffer place).elim (.error (.valueTypeMismatch p.name p.type.name)) .ok := by
  obtain ⟨offset, width, hslot, hvalue, hwidth, hfits⟩ := hstocked.packed_of_bufferOffset hp hplace
  unfold Property.get
  rw [hslot]
  exact readPacked_eq_buffer h hvalue hwidth hfits p.name

/-- To set it is to let the codec write to the buffer at that place. -/
theorem set_eq_buffer (h : s.Packed) (hstocked : s.Stocked) {p : Property}
    (hp : p.field ∈ s.layout.fields) {e : EntityId} {place : Nat}
    (hplace : p.bufferOffset s e = .ok place) (x : p.type.Carrier) :
    let written := p.type.write (Property.clampTo p.bounds x) s.buffer place
    (p.set s e x).1.buffer = written.1 ∧ (p.set s e x).2 =
      if written.2 then .ok () else .error (.valueTypeMismatch p.name p.type.name) := by
  obtain ⟨offset, width, hslot, hvalue, hwidth, hfits⟩ := hstocked.packed_of_bufferOffset hp hplace
  unfold Property.set
  rw [hslot]
  exact writePacked_eq_buffer h hvalue hwidth hfits _ p.name

/-! ## New holders -/

/-- In a kind without blocks nobody has one. -/
theorem Packed.home_eq_none (h : s.Packed) (hunfixed : s.layout.hasFixedStorage = false)
    (e : EntityId) : s.home e = none := by
  cases hhome : s.home e with
  | none => rfl
  | some b =>
      have hmem := (h.home_eq_some.1 hhome).1
      rw [h.unblocked hunfixed] at hmem
      cases hmem

/-- A property reads its default for a new holder if and only if it is legible. -/
theorem get_of_inserted (h : s.Packed) (hstocked : s.Stocked) {machine : Machine} {e : EntityId}
    (hstep : Inserted machine s e t (.ok ())) {p : Property}
    (hp : p.field ∈ s.layout.fields) : p.get t e = .ok p.default ↔ p.Legible s.layout := by
  have hheld : e ∈ t.holders := (hstep.mem_holders h e).2 (Or.inr ⟨rfl, rfl⟩)
  obtain ⟨room, hkept⟩ := hstocked.layout.kept p.field hp
  cases hkept with
  | side i hslot hwidth hi =>
      rw [← hstocked.sides_length] at hi
      obtain ⟨values, hside, hvalue⟩ := unset_of_inserted h hstep hi
      have hstores : t.Stores p.field e p.default := .unset i values hslot hheld hside hvalue rfl
      exact iff_of_true hstores.get (Property.legible_of_side hslot)
  | packed offset codec hslot hcodec =>
      replace hslot : p.slot = .packed offset := hslot
      have hget : p.get t e = t.readPacked p.type e offset p.name := by
        unfold Property.get
        rw [hslot]
      rw [Property.legible_iff_of_packed hslot, hget]
      cases hfixed : s.layout.hasFixedStorage with
      | true =>
          -- the new block is a copy of the template
          rw [readPacked_of_home (home_of_inserted h hstep hfixed), elim_eq_ok]
          exact (and_iff_right rfl).symm
      | false =>
          -- without blocks there is nothing to read
          have hunfixed : t.layout.hasFixedStorage = false := by
            rw [hstep.sameShape.layout]
            exact hfixed
          have hpacked := hstep.packed h
          rw [readPacked_of_no_home hpacked hheld (hpacked.home_eq_none hunfixed e)]
          exact iff_of_false nofun nofun

end Store

end EntityStore
