import EntityStore.Proofs.Value.Codec
import EntityStore.Store.Layout

/-!
# Layouts without overlap

`Layout.Pushed` lists what a declaration can do to a layout.  A layout is *sound* when its names
are distinct, its packed values have spans of their own within a block, its other values have side
maps of their own, and its template is as long as a block and holds every default.

* `Layout.push_pushed`: a declaration does one of the listed things.
* `Layout.Sound.pushed`: a declaration of a built-in type keeps a sound layout sound.
* `Layout.Sound.write_room`: it is not refused for its default.
-/

namespace EntityStore

/-! ## Spans in parts of a buffer -/

theorem spanAt?_drop {buffer : List UInt8} {skipped : Nat} (h : skipped ≤ buffer.length)
    (offset width : Nat) :
    spanAt? (buffer.drop skipped) offset width = spanAt? buffer (skipped + offset) width := by
  unfold spanAt?
  rw [List.length_drop, List.drop_drop]
  by_cases hfits : skipped + offset + width ≤ buffer.length
  · rw [if_pos hfits, if_pos (by omega)]
  · rw [if_neg hfits, if_neg (by omega)]

theorem spanAt?_append {buffer : List UInt8} {offset width : Nat}
    (h : offset + width ≤ buffer.length) (more : List UInt8) :
    spanAt? (buffer ++ more) offset width = spanAt? buffer offset width := by
  unfold spanAt?
  rw [if_pos h, if_pos (by rw [List.length_append]; omega),
    List.drop_append_of_le_length (by omega),
    List.take_append_of_le_length (by rw [List.length_drop]; omega)]

theorem resizeBytes_of_le {length : Nat} {bytes : List UInt8} (h : bytes.length ≤ length) :
    resizeBytes length bytes = bytes ++ List.replicate (length - bytes.length) 0 := by
  unfold resizeBytes
  rw [List.take_of_length_le h]

variable [CustomTypes]

theorem ValueType.read?_drop (t : ValueType) {buffer : List UInt8} {skipped : Nat}
    (h : skipped ≤ buffer.length) (offset : Nat) :
    t.read? (buffer.drop skipped) offset = t.read? buffer (skipped + offset) := by
  unfold ValueType.read? Codec.read?
  simp only [spanAt?_drop h]

theorem ValueType.read?_append {t : ValueType} {width : Nat} (hwidth : t.width? = some width)
    {buffer : List UInt8} {offset : Nat} (h : offset + width ≤ buffer.length)
    (more : List UInt8) : t.read? (buffer ++ more) offset = t.read? buffer offset := by
  obtain ⟨codec, hcodec, rfl⟩ := ValueType.exists_codec_of_width? hwidth
  rw [ValueType.read?_of_codec? hcodec, ValueType.read?_of_codec? hcodec, Codec.read?, Codec.read?,
    spanAt?_append h]

namespace Layout

variable {l : Layout} {kind name : String} {type : ValueType} {default : type.Carrier}

/-- The template with room for one more packed value. -/
def room (l : Layout) (width : Nat) : List UInt8 :=
  resizeBytes (headerSize + l.dataSize + width) l.template

/-- What a declaration can do to a layout, and what it answers. -/
inductive Pushed (l : Layout) (kind name : String) (type : ValueType) (default : type.Carrier) :
    Layout → Except StoreError Slot → Prop where
  /-- The name is taken. -/
  | taken (htaken : name ∈ l.names) :
      Pushed l kind name type default l (.error (.duplicateProperty kind name))
  /-- The values get a span at the end of the block. -/
  | packed (hnew : name ∉ l.names) (width : Nat) (hwidth : type.width? = some width)
      (template : List UInt8)
      (hwrite : type.write default (l.room width) (headerSize + l.dataSize) = (template, true)) :
      Pushed l kind name type default
        { l.declare name type default (.packed l.dataSize) with
          dataSize := l.dataSize + width, template := template }
        (.ok (.packed l.dataSize))
  /-- The codec refuses the default, whatever it has written by then. -/
  | refused (hnew : name ∉ l.names) (width : Nat) (hwidth : type.width? = some width)
      (template : List UInt8)
      (hwrite : type.write default (l.room width) (headerSize + l.dataSize) = (template, false)) :
      Pushed l kind name type default { l with template := template }
        (.error (.valueTypeMismatch name type.name))
  /-- The values get a side map. -/
  | side (hnew : name ∉ l.names) (hwidth : type.width? = none) :
      Pushed l kind name type default
        { l.declare name type default (.side l.sideMaps) with sideMaps := l.sideMaps + 1 }
        (.ok (.side l.sideMaps))

theorem slotOf_isSome : (l.slotOf name).isSome = true ↔ name ∈ l.names := by
  unfold slotOf field? names
  rw [Option.isSome_map, List.find?_isSome, List.mem_map]
  simp

/-- A declaration does one of the listed things. -/
theorem push_pushed (l : Layout) (kind name : String) (type : ValueType) (default : type.Carrier) :
    Pushed l kind name type default (l.push kind name type default).1
      (l.push kind name type default).2 := by
  unfold push
  by_cases htaken : name ∈ l.names
  · rw [if_pos (slotOf_isSome.2 htaken)]
    exact .taken htaken
  · rw [if_neg fun hsome => htaken (slotOf_isSome.1 hsome)]
    split
    · rename_i codec hcodec
      have hwidth := ValueType.width?_of_codec? hcodec
      have hwrites := ValueType.write_of_codec? hcodec default (l.room codec.width)
        (headerSize + l.dataSize)
      unfold pushPacked
      dsimp only
      split
      · rename_i template hwrite
        exact .refused htaken codec.width hwidth template (hwrites.trans hwrite)
      · rename_i template hwrite
        exact .packed htaken codec.width hwidth template (hwrites.trans hwrite)
    · rename_i hcodec
      exact .side htaken (ValueType.codec?_eq_none_iff.1 hcodec)

end Layout

/-! ## Sound layouts -/

/-- Two properties whose values have nothing in common. -/
structure Field.Apart (f g : Field) : Prop where
  /-- Their spans are disjoint. -/
  spans : ∀ p q width size, f.slot = .packed p → g.slot = .packed q →
    f.type.width? = some width → g.type.width? = some size → p + width ≤ q ∨ q + size ≤ p
  /-- Their side maps differ. -/
  maps : ∀ i j, f.slot = .side i → g.slot = .side j → i ≠ j

theorem Field.Apart.symm {f g : Field} (h : f.Apart g) : g.Apart f where
  spans p q width size hp hq hwidth hsize := (h.spans q p size width hq hp hsize hwidth).symm
  maps i j hi hj := (h.maps j i hj hi).symm

/-- A property whose values have a place: a span of the block, in which the template holds the
default, or a side map. -/
inductive Field.Housed (l : Layout) (f : Field) : Prop where
  | packed (offset width : Nat) (hslot : f.slot = .packed offset) (hbuiltIn : f.type.isBuiltIn = true)
      (hwidth : f.type.width? = some width) (hfits : offset + width ≤ l.dataSize)
      (hdefault : f.type.read? (l.template.drop headerSize) offset = some f.default)
  | side (i : Nat) (hslot : f.slot = .side i) (hi : i < l.sideMaps)

/-- A layout whose values do not get in each other's way. -/
structure Layout.Sound (l : Layout) : Prop where
  /-- No name is declared twice. -/
  named : l.names.Nodup
  /-- The template is a block. -/
  template_length : l.template.length = l.blockSize
  /-- Every property has a place for its values. -/
  housed : ∀ f ∈ l.fields, f.Housed l
  /-- No two properties share a place. -/
  apart : ∀ f ∈ l.fields, ∀ g ∈ l.fields, f.name ≠ g.name → f.Apart g

namespace Layout

variable {l : Layout} {kind name : String} {type : ValueType} {default : type.Carrier}

theorem sound_empty : Layout.empty.Sound where
  named := List.nodup_nil
  template_length := rfl
  housed f hf := by cases hf
  apart f hf := by cases hf

/-- A declared property is known by its name. -/
theorem eq_of_name (hnamed : l.names.Nodup) {f g : Field} (hf : f ∈ l.fields) (hg : g ∈ l.fields)
    (hname : f.name = g.name) : f = g := by
  unfold names at hnamed
  -- by induction on the fields: two of one name cannot stand at different places
  generalize l.fields = fields at hf hg hnamed
  induction fields with
  | nil => cases hf
  | cons first rest ih =>
      rw [List.map_cons, List.nodup_cons] at hnamed
      rcases List.mem_cons.1 hf with rfl | hfRest
      · rcases List.mem_cons.1 hg with rfl | hgRest
        · rfl
        · exact absurd (hname ▸ List.mem_map_of_mem hgRest) hnamed.1
      · rcases List.mem_cons.1 hg with rfl | hgRest
        · exact absurd (hname ▸ List.mem_map_of_mem hfRest) hnamed.1
        · exact ih hfRest hgRest hnamed.2

theorem Sound.width?_of_packed (h : l.Sound) {f : Field} (hf : f ∈ l.fields) {offset : Nat}
    (hslot : f.slot = .packed offset) : ∃ width, f.type.width? = some width := by
  cases h.housed f hf with
  | packed _ width _ _ hwidth => exact ⟨width, hwidth⟩
  | side i hside =>
      rw [hside] at hslot
      cases hslot

/-- A sound layout gets room for a value behind its template. -/
theorem Sound.room_eq (h : l.Sound) (width : Nat) :
    l.room width = l.template ++ List.replicate width 0 := by
  have hlength := h.template_length
  unfold blockSize at hlength
  unfold room
  rw [resizeBytes_of_le (by omega), hlength, Nat.add_sub_cancel_left]

theorem Sound.length_room (h : l.Sound) (width : Nat) :
    (l.room width).length = headerSize + l.dataSize + width := by
  have hlength := h.template_length
  unfold blockSize at hlength
  rw [h.room_eq, List.length_append, List.length_replicate, hlength]

theorem nodup_names_append (hnamed : l.names.Nodup) {new : Field} (hnew : new.name ∉ l.names) :
    ((l.fields ++ [new]).map Field.name).Nodup := by
  rw [List.map_append, List.nodup_append]
  refine ⟨hnamed, by simp, ?_⟩
  intro x hx y hy
  obtain rfl := List.mem_singleton.1 hy
  rintro rfl
  exact hnew hx

/-- Properties stay apart when a property is added that is apart from all of them. -/
theorem Sound.apart_append (h : l.Sound) {new : Field} (hnew : ∀ f ∈ l.fields, f.Apart new) :
    ∀ f ∈ l.fields ++ [new], ∀ g ∈ l.fields ++ [new], f.name ≠ g.name → f.Apart g := by
  intro f hf g hg hname
  rcases List.mem_append.1 hf with hold | hlast
  · rcases List.mem_append.1 hg with hgOld | hgLast
    · exact h.apart f hold g hgOld hname
    · obtain rfl := List.mem_singleton.1 hgLast
      exact hnew f hold
  · obtain rfl := List.mem_singleton.1 hlast
    rcases List.mem_append.1 hg with hgOld | hgLast
    · exact (hnew g hgOld).symm
    · obtain rfl := List.mem_singleton.1 hgLast
      exact absurd rfl hname

theorem Sound.pushPacked (h : l.Sound) (htype : type.isBuiltIn = true) (hnew : name ∉ l.names)
    {width : Nat} (hwidth : type.width? = some width) {template : List UInt8}
    (hwrite : type.write default (l.room width) (headerSize + l.dataSize) = (template, true)) :
    ({ l.declare name type default (.packed l.dataSize) with
      dataSize := l.dataSize + width, template := template } : Layout).Sound := by
  have hroom := h.length_room width
  have hout : template = (type.write default (l.room width) (headerSize + l.dataSize)).1 :=
    (congrArg Prod.fst hwrite).symm
  have hlength : template.length = headerSize + l.dataSize + width := by
    rw [hout, ValueType.length_write, hroom]
  have htemplate := h.template_length
  unfold blockSize at htemplate
  refine
    { named := ?_, template_length := ?_, housed := ?_, apart := ?_ }
  · exact nodup_names_append h.named hnew
  · exact hlength.trans (Nat.add_assoc _ _ _)
  · intro f hf
    rcases List.mem_append.1 hf with hold | hlast
    · cases h.housed f hold with
      | side i hslot hi => exact .side i hslot hi
      | packed offset size hslot hbuiltIn hsize hfits hdefault =>
          refine .packed offset size hslot hbuiltIn hsize (Nat.le_add_right_of_le hfits) ?_
          -- the old defaults stand before the new one
          show f.type.read? (template.drop headerSize) offset = some f.default
          rw [ValueType.read?_drop f.type (by omega), hout,
            ValueType.read?_write_of_disjoint hwidth hsize (Or.inl (by omega)), h.room_eq,
            ValueType.read?_append hsize (by omega), ← ValueType.read?_drop f.type (by omega)]
          exact hdefault
    · obtain rfl := List.mem_singleton.1 hlast
      refine .packed l.dataSize width rfl htype hwidth (Nat.le_refl _) ?_
      show type.read? (template.drop headerSize) l.dataSize = some default
      rw [ValueType.read?_drop type (by omega), hout]
      exact ValueType.read?_write htype hwidth (by omega) default
  · refine h.apart_append fun f hf => ?_
    refine { spans := ?_, maps := ?_ }
    · intro p q size _ hp hq hsize _
      -- the new span starts where the old data ends
      obtain rfl := Slot.packed.inj hq
      cases h.housed f hf with
      | side i hslot hi =>
          rw [hslot] at hp
          cases hp
      | packed offset size' hslot _ hsize' hfits _ =>
          obtain rfl := Slot.packed.inj (hslot.symm.trans hp)
          obtain rfl := Option.some.inj (hsize'.symm.trans hsize)
          exact Or.inl hfits
    · intro i j _ hj
      cases hj

theorem Sound.pushSide (h : l.Sound) (hnew : name ∉ l.names) :
    ({ l.declare name type default (.side l.sideMaps) with
      sideMaps := l.sideMaps + 1 } : Layout).Sound := by
  refine
    { named := nodup_names_append h.named hnew, template_length := h.template_length, housed := ?_,
      apart := ?_ }
  · intro f hf
    rcases List.mem_append.1 hf with hold | hlast
    · cases h.housed f hold with
      | side i hslot hi => exact .side i hslot (Nat.lt_succ_of_lt hi)
      | packed offset size hslot hbuiltIn hsize hfits hdefault =>
          exact .packed offset size hslot hbuiltIn hsize hfits hdefault
    · obtain rfl := List.mem_singleton.1 hlast
      exact .side l.sideMaps rfl (Nat.lt_succ_self _)
  · refine h.apart_append fun f hf => ?_
    refine { spans := ?_, maps := ?_ }
    · intro p q width size _ hq
      cases hq
    · intro i j hi hj
      obtain rfl := Slot.side.inj hj
      cases h.housed f hf with
      | side i' hslot hlt =>
          obtain rfl := Slot.side.inj (hslot.symm.trans hi)
          exact Nat.ne_of_lt hlt
      | packed offset size hslot =>
          rw [hslot] at hi
          cases hi

/-- A built-in type is never refused by a sound layout. -/
theorem Sound.write_room (h : l.Sound) (htype : type.isBuiltIn = true) {width : Nat}
    (hwidth : type.width? = some width) (default : type.Carrier) :
    (type.write default (l.room width) (headerSize + l.dataSize)).2 = true :=
  ValueType.write_accepted htype hwidth (Nat.le_of_eq (h.length_room width).symm) default

/-- A declaration that is not refused for its default either finds the name taken, or adds the
property and keeps the layout sound, provided that its type is built in. -/
theorem Sound.pushed (h : l.Sound) {next : Layout} {answer : Except StoreError Slot}
    (hpush : Pushed l kind name type default next answer)
    (hbuiltIn : ∀ slot, answer = .ok slot → type.isBuiltIn = true)
    (hencodes : ∀ property expected, answer ≠ .error (.valueTypeMismatch property expected)) :
    (name ∈ l.names ∧ next = l ∧ answer = .error (.duplicateProperty kind name)) ∨
      name ∉ l.names ∧ next.Sound ∧ ∃ slot, answer = .ok slot ∧
        next.fields = l.fields ++ [⟨name, type, default, slot⟩] ∧
        (∀ i, slot = .side i → next.sideMaps = l.sideMaps + 1) ∧
        (∀ offset, slot = .packed offset → next.sideMaps = l.sideMaps) := by
  cases hpush with
  | taken htaken => exact Or.inl ⟨htaken, rfl, rfl⟩
  | packed hnew width hwidth template hwrite =>
      have hsound := h.pushPacked (hbuiltIn _ rfl) hnew hwidth hwrite
      exact Or.inr ⟨hnew, hsound, _, rfl, rfl, nofun, fun _ _ => rfl⟩
  | refused hnew width hwidth template hwrite => exact absurd rfl (hencodes name type.name)
  | side hnew hwidth =>
      exact Or.inr ⟨hnew, h.pushSide hnew, _, rfl, rfl, fun _ _ => rfl, nofun⟩

end Layout

end EntityStore
