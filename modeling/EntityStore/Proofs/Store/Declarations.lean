import EntityStore.Proofs.Store.Defaults

/-!
# Layouts as tilings

A layout comes about by declarations, of which any may be refused.  The granted ones make up its
list of properties, and the spans of the packed ones lie end to end: each begins where the one
before it ends, and the last ends where the block does.

* `Tiles`: spans that lie end to end are disjoint, stand in order and cover what they tile.
* `Layout.Declared`: the layouts that declarations bring about, with the answers that were given.
* `Layout.Laid`: the invariant of such a layout.  `Laid.pushed` keeps it.
* `Layout.tiling_of_declared`: what it says of slots, names, side maps and the template.
-/

namespace EntityStore

/-! ## Spans that lie end to end -/

/-- Spans, each given by its start and its width, that lie end to end from one place to another. -/
inductive Tiles : Nat → List (Nat × Nat) → Nat → Prop where
  | nil (place : Nat) : Tiles place [] place
  | cons (start width : Nat) {rest : List (Nat × Nat)} {stop : Nat}
      (h : Tiles (start + width) rest stop) : Tiles start ((start, width) :: rest) stop

namespace Tiles

variable {start middle stop : Nat} {spans : List (Nat × Nat)}

theorem snoc (h : Tiles start spans stop) (width : Nat) :
    Tiles start (spans ++ [(stop, width)]) (stop + width) := by
  induction h with
  | nil place => exact .cons place width (.nil (place + width))
  | cons first size _ ih => exact .cons first size ih

theorem le (h : Tiles start spans stop) : start ≤ stop := by
  induction h with
  | nil => exact Nat.le_refl _
  | cons => omega

theorem start_le (h : Tiles start spans stop) : ∀ span ∈ spans, start ≤ span.1 := by
  induction h with
  | nil => exact nofun
  | cons first size _ ih =>
      intro span hspan
      rcases List.mem_cons.1 hspan with rfl | hrest
      · exact Nat.le_refl _
      · have hlater := ih span hrest
        omega

/-- No span begins before an earlier one has ended. -/
theorem pairwise (h : Tiles start spans stop) :
    spans.Pairwise fun p q => p.1 + p.2 ≤ q.1 := by
  induction h with
  | nil => exact .nil
  | cons first size hrest ih => exact .cons hrest.start_le ih

/-- Every place that is tiled lies in a span, and no other place does. -/
theorem covers (h : Tiles start spans stop) (i : Nat) :
    start ≤ i ∧ i < stop ↔ ∃ span ∈ spans, span.1 ≤ i ∧ i < span.1 + span.2 := by
  induction h with
  | nil place =>
      refine iff_of_false (by omega) ?_
      rintro ⟨span, hspan, -⟩
      cases hspan
  | cons first size hrest ih =>
      have hend := hrest.le
      simp only [List.mem_cons, or_and_right, exists_or, exists_eq_left, ← ih]
      omega

end Tiles

theorem take_of_spanAt? {buffer bytes : List UInt8} {offset width : Nat}
    (h : spanAt? buffer offset width = some bytes) : (buffer.drop offset).take width = bytes := by
  unfold spanAt? at h
  split at h
  · exact Option.some.inj h
  · cases h

/-! ## Declarations -/

variable [CustomTypes]

/-- A declaration that was made, with its answer. -/
structure Declaration where
  /-- The kind it was made for. -/
  kind : String
  /-- The name of the property. -/
  name : String
  /-- The type of its values. -/
  type : ValueType
  /-- The value for new holders. -/
  default : type.Carrier
  /-- The bytes behind the template that the value was to be written over. -/
  room : List UInt8
  /-- The slot, or the cause of the refusal. -/
  answer : Except StoreError Slot

/-- The property that a declaration has added, none if it was refused. -/
def Declaration.field? (d : Declaration) : Option Field :=
  d.answer.toOption.map fun slot => ⟨d.name, d.type, d.default, slot⟩

/-- The bytes of the block, behind the tag, that a property takes: none if it has a side map. -/
def Field.span? (f : Field) : Option (Nat × Nat) :=
  match f.slot with
  | .packed offset => f.type.width?.map fun width => (offset, width)
  | .side _ => none

/-- The side map of a property, none if it lives in the blocks. -/
def Field.sideMap? (f : Field) : Option Nat :=
  match f.slot with
  | .packed _ => none
  | .side i => some i

namespace Layout

/-- The layouts that come about by declarations, whatever they answer. -/
inductive Declared : List Declaration → Layout → Prop where
  | empty : Declared [] Layout.empty
  | push {log : List Declaration} {l : Layout} (h : Declared log l) (kind name : String)
      (type : ValueType) (default : type.Carrier) :
      Declared
        (log ++ [⟨kind, name, type, default, l.roomFor type, (l.push kind name type default).2⟩])
        (l.push kind name type default).1

/-- The spans of the packed properties, in the order of their declaration. -/
def spans (l : Layout) : List (Nat × Nat) := l.fields.filterMap Field.span?

/-- The side maps of the other properties, in the order of their declaration. -/
def sideNumbers (l : Layout) : List Nat := l.fields.filterMap Field.sideMap?

/-- What holds of a layout and the declarations that have brought it about. -/
structure Laid (log : List Declaration) (l : Layout) : Prop where
  /-- The properties are those that were granted. -/
  fields : l.fields = log.filterMap Declaration.field?
  /-- No name is granted twice. -/
  named : l.names.Nodup
  /-- The packed properties lie end to end behind the tag. -/
  tiled : Tiles 0 l.spans l.dataSize
  /-- The side maps are numbered in their order. -/
  numbered : l.sideNumbers = List.range l.sideMaps
  /-- The template has a zero tag. -/
  tagged : spanAt? l.template 0 headerSize = some (List.replicate headerSize 0)
  /-- The template covers a block. -/
  covers : l.blockSize ≤ l.template.length
  /-- Every default is at hand: it stands as it was written when it was declared. -/
  kept : ∀ f ∈ l.fields, ∃ d ∈ log, d.field? = some f ∧ f.Kept l d.room

variable {l next : Layout} {log : List Declaration} {kind name : String} {type : ValueType}
  {default : type.Carrier} {answer : Except StoreError Slot}

theorem laid_empty : Laid [] Layout.empty where
  fields := rfl
  named := List.nodup_nil
  tiled := .nil 0
  numbered := rfl
  tagged := rfl
  covers := Nat.le_refl _
  kept _ hf := absurd hf List.not_mem_nil

theorem Laid.stocked (h : l.Laid log) : l.Stocked where
  covers := h.covers
  kept f hf := by
    obtain ⟨d, -, -, hkept⟩ := h.kept f hf
    exact ⟨d.room, hkept⟩

/-- The span of a declaration that was made last: behind all others, if it was granted. -/
theorem Pushed.spans (hpush : Pushed l kind name type default next answer)
    (htiled : Tiles 0 l.spans l.dataSize) : Tiles 0 next.spans next.dataSize := by
  cases hpush with
  | taken => exact htiled
  | refused => exact htiled
  | packed hnew width hwidth template hwrite =>
      have hlast : Field.span? ⟨name, type, default, .packed l.dataSize⟩ =
          some (l.dataSize, width) := by
        simp only [Field.span?, hwidth, Option.map_some]
      show Tiles 0 ((l.fields ++ [_]).filterMap Field.span?) (l.dataSize + width)
      rw [List.filterMap_append, List.filterMap_cons_some hlast, List.filterMap_nil]
      exact htiled.snoc width
  | side hnew hwidth =>
      show Tiles 0 ((l.fields ++ [_]).filterMap Field.span?) l.dataSize
      rw [List.filterMap_append, List.filterMap_cons_none rfl, List.filterMap_nil, List.append_nil]
      exact htiled

/-- The side map of a declaration that was made last: the next number, if it needs one. -/
theorem Pushed.sideNumbers (hpush : Pushed l kind name type default next answer)
    (hnumbered : l.sideNumbers = List.range l.sideMaps) :
    next.sideNumbers = List.range next.sideMaps := by
  cases hpush with
  | taken => exact hnumbered
  | refused => exact hnumbered
  | packed =>
      show (l.fields ++ [_]).filterMap Field.sideMap? = _
      rw [List.filterMap_append, List.filterMap_cons_none rfl, List.filterMap_nil, List.append_nil]
      exact hnumbered
  | side =>
      have hlast : Field.sideMap? ⟨name, type, default, .side l.sideMaps⟩ = some l.sideMaps := rfl
      show (l.fields ++ [_]).filterMap Field.sideMap? = List.range (l.sideMaps + 1)
      rw [List.filterMap_append, List.filterMap_cons_some hlast, List.filterMap_nil,
        List.range_succ]
      exact congrArg (· ++ [l.sideMaps]) hnumbered

/-- No declaration touches the tag of the template. -/
theorem Pushed.tagged (hpush : Pushed l kind name type default next answer) (hstocked : l.Stocked)
    (htagged : spanAt? l.template 0 headerSize = some (List.replicate headerSize 0)) :
    spanAt? next.template 0 headerSize = some (List.replicate headerSize 0) := by
  have hinside : 0 + headerSize ≤ l.blockSize := by
    unfold blockSize
    omega
  cases hpush with
  | taken => exact htagged
  | side => exact htagged
  | refused _ width hwidth template hwrite =>
      have hsame := spanAt?_write_room hstocked hwidth default hinside
      rw [hwrite] at hsame
      exact hsame.trans htagged
  | packed _ width hwidth template hwrite =>
      have hsame := spanAt?_write_room hstocked hwidth default hinside
      rw [hwrite] at hsame
      exact hsame.trans htagged

/-- Only a granted declaration adds a property, and it adds itself. -/
theorem Pushed.fields_eq (hpush : Pushed l kind name type default next answer)
    (room : List UInt8) : next.fields = l.fields ++
      (Declaration.field? ⟨kind, name, type, default, room, answer⟩).toList := by
  cases hpush with
  | taken => exact (List.append_nil _).symm
  | refused => exact (List.append_nil _).symm
  | packed => rfl
  | side => rfl

/-- The names stay distinct, since a name that is taken is refused. -/
theorem Pushed.named (hpush : Pushed l kind name type default next answer)
    (hnamed : l.names.Nodup) : next.names.Nodup := by
  cases hpush with
  | taken => exact hnamed
  | refused => exact hnamed
  | packed hnew => exact nodup_names_append hnamed hnew
  | side hnew => exact nodup_names_append hnamed hnew

/-- The defaults stay at hand, and that of a granted declaration is as it was just written. -/
theorem Laid.kept_pushed (h : l.Laid log) (hpush : Pushed l kind name type default next answer) :
    ∀ f ∈ next.fields, ∃ d ∈ log ++ [⟨kind, name, type, default, l.roomFor type, answer⟩],
      d.field? = some f ∧ f.Kept next d.room := by
  intro f hf
  rcases hpush.mem_fields_iff.1 hf with hold | ⟨slot, rfl, rfl⟩
  · obtain ⟨d, hd, hfield, hkept⟩ := h.kept f hold
    exact ⟨d, List.mem_append_left _ hd, hfield, hpush.kept h.stocked hkept⟩
  · exact ⟨_, List.mem_append_right _ (List.mem_singleton.2 rfl), rfl, hpush.kept_of_granted⟩

/-- One more declaration keeps all of this. -/
theorem Laid.pushed (h : l.Laid log) (hpush : Pushed l kind name type default next answer) :
    next.Laid (log ++ [⟨kind, name, type, default, l.roomFor type, answer⟩]) where
  fields := by
    rw [hpush.fields_eq (l.roomFor type), h.fields, List.filterMap_append]
    generalize (⟨kind, name, type, default, l.roomFor type, answer⟩ : Declaration) = last
    refine congrArg (_ ++ ·) ?_
    cases hfield : last.field? with
    | none =>
        rw [List.filterMap_cons_none hfield]
        rfl
    | some f =>
        rw [List.filterMap_cons_some hfield]
        rfl
  named := hpush.named h.named
  tiled := hpush.spans h.tiled
  numbered := hpush.sideNumbers h.numbered
  tagged := hpush.tagged h.stocked h.tagged
  covers := (h.stocked.pushed hpush).covers
  kept := h.kept_pushed hpush

theorem Declared.laid (h : Declared log l) : l.Laid log := by
  induction h with
  | empty => exact laid_empty
  | push _ kind name type default ih => exact ih.pushed (push_pushed _ kind name type default)

/-! ## What a layout looks like -/

/-- How the properties of a layout share a block. -/
structure Tiling (log : List Declaration) (l : Layout) : Prop where
  /-- The properties are the granted declarations, in their order. -/
  fields : l.fields = log.filterMap Declaration.field?
  /-- Their names are distinct. -/
  distinct : l.names.Nodup
  /-- A property of fixed width lives in the blocks, any other one in a side map. -/
  placed : ∀ f ∈ l.fields, ∀ width, f.type.width? = some width ↔
    ∃ offset, f.slot = .packed offset ∧ f.span? = some (offset, width)
  /-- The spans in the block are disjoint and in the order of declaration. -/
  ordered : l.spans.Pairwise fun p q => p.1 + p.2 ≤ q.1
  /-- They cover the block behind the tag, and nothing else. -/
  covered : ∀ i, i < l.dataSize ↔ ∃ span ∈ l.spans, span.1 ≤ i ∧ i < span.1 + span.2
  /-- The side maps are numbered from zero on, without gaps. -/
  numbered : l.sideNumbers = List.range l.sideMaps
  /-- A granted declaration is found under its name, in the slot that it was given. -/
  found : ∀ d ∈ log, ∀ slot, d.answer = .ok slot → l.slotOf d.name = some slot
  /-- No other name is found. -/
  unknown : ∀ name, (∀ d ∈ log, d.name = name → ∃ cause, d.answer = .error cause) →
    l.slotOf name = none
  /-- The template has a zero tag. -/
  tagged : l.template.take headerSize = [0, 0, 0, 0]
  /-- At the place of every packed property it has the bytes that the codec made of the default, and
  of the bytes that stood there, when the property was declared. -/
  defaults : ∀ f ∈ l.fields, ∀ offset width, f.span? = some (offset, width) →
    ∃ d ∈ log, d.field? = some f ∧ d.room.length = width ∧
      ∃ codec, f.type.codec? = some codec ∧ codec.width = width ∧
        codec.encode f.default d.room =
          ((l.template.drop (headerSize + offset)).take width, true)

theorem slotOf_of_mem (hnamed : l.names.Nodup) {f : Field} (hf : f ∈ l.fields) :
    l.slotOf f.name = some f.slot := by
  obtain ⟨slot, hslot⟩ := Option.isSome_iff_exists.1
    (slotOf_isSome.2 (List.mem_map_of_mem hf : f.name ∈ l.names))
  obtain ⟨g, hg, rfl⟩ := Option.map_eq_some_iff.1 hslot
  have hname : g.name = f.name := by simpa using List.find?_some hg
  rw [hslot, eq_of_name hnamed (List.mem_of_find?_eq_some hg) hf hname]

theorem slotOf_eq_none : l.slotOf name = none ↔ name ∉ l.names := by
  rw [← slotOf_isSome, Bool.not_eq_true, Option.isSome_eq_false_iff, Option.isNone_iff_eq_none]

theorem Laid.mem_fields (h : l.Laid log) {f : Field} :
    f ∈ l.fields ↔ ∃ d ∈ log, ∃ slot, d.answer = .ok slot ∧ ⟨d.name, d.type, d.default, slot⟩ = f := by
  rw [h.fields, List.mem_filterMap]
  refine exists_congr fun d => and_congr_right fun _ => ?_
  unfold Declaration.field?
  cases d.answer with
  | ok slot => simp [Except.toOption]
  | error cause => simp [Except.toOption]

/-- A property of fixed width has a span in the blocks. -/
theorem Laid.span?_eq_some (h : l.Laid log) {f : Field} (hf : f ∈ l.fields) (width : Nat) :
    f.type.width? = some width ↔
      ∃ offset, f.slot = .packed offset ∧ f.span? = some (offset, width) := by
  unfold Field.span?
  obtain ⟨room, hkept⟩ := h.stocked.kept f hf
  cases hkept with
  | side i hslot hwidth =>
      rw [hslot, hwidth]
      exact iff_of_false nofun nofun
  | packed offset codec hslot =>
      rw [hslot]
      constructor
      · intro hwidth
        exact ⟨offset, rfl, by rw [hwidth]; rfl⟩
      · rintro ⟨other, -, hspan⟩
        obtain ⟨size, hsize, hpair⟩ := Option.map_eq_some_iff.1 hspan
        cases hpair
        exact hsize

theorem Laid.default_at (h : l.Laid log) {f : Field} (hf : f ∈ l.fields) {offset width : Nat}
    (hspan : f.span? = some (offset, width)) :
    ∃ d ∈ log, d.field? = some f ∧ d.room.length = width ∧
      ∃ codec, f.type.codec? = some codec ∧ codec.width = width ∧
        codec.encode f.default d.room =
          ((l.template.drop (headerSize + offset)).take width, true) := by
  obtain ⟨d, hd, hfield, hkept⟩ := h.kept f hf
  unfold Field.span? at hspan
  cases hkept with
  | side i hslot =>
      rw [hslot] at hspan
      cases hspan
  | packed place codec hslot hcodec hroom haccepted hfits htemplate =>
      rw [hslot, ValueType.width?_of_codec? hcodec] at hspan
      cases hspan
      exact ⟨d, hd, hfield, hroom, codec, hcodec, rfl,
        Prod.ext (take_of_spanAt? htemplate).symm haccepted⟩

/-- Whatever has been declared, and whatever was refused, the packed properties tile the block, the
others have side maps of their own, and the template holds every default. -/
theorem tiling_of_declared (h : Declared log l) : l.Tiling log := by
  have hlaid := h.laid
  refine
    { fields := hlaid.fields, distinct := hlaid.named,
      placed := fun f hf width => hlaid.span?_eq_some hf width,
      ordered := hlaid.tiled.pairwise, covered := ?_, numbered := hlaid.numbered,
      found := ?_, unknown := ?_, tagged := take_of_spanAt? hlaid.tagged,
      defaults := fun f hf offset width hspan => hlaid.default_at hf hspan }
  · intro i
    rw [← hlaid.tiled.covers i]
    omega
  · intro d hd slot hslot
    exact slotOf_of_mem hlaid.named (hlaid.mem_fields.2 ⟨d, hd, slot, hslot, rfl⟩)
  · intro name hrefused
    refine slotOf_eq_none.2 fun hname => ?_
    obtain ⟨f, hf, rfl⟩ := List.mem_map.1 hname
    obtain ⟨d, hd, slot, hslot, rfl⟩ := hlaid.mem_fields.1 hf
    obtain ⟨cause, hcause⟩ := hrefused d hd rfl
    rw [hslot] at hcause
    cases hcause

end Layout

/-! ## Types of an application -/

/-- A grade takes two bytes.  There is one that is not written, and one that is not read. -/
def gradeCodec : Codec (BitVec 16) where
  width := 2
  encode x span := if x = 65535 then (span, false) else (littleEndian 2 x.toNat, true)
  decode? bytes :=
    let x := BitVec.ofNat 16 (ofLittleEndian bytes)
    if x = 57005 then none else some x
  length_encode x span hspan := by
    split
    · exact hspan
    · exact length_littleEndian _ _

/-- A mark takes no bytes. -/
def markCodec : Codec Unit where
  width := 0
  encode _ span := (span, true)
  decode? _ := some ()
  length_encode _ _ hspan := hspan

/-- The types of an application with grades and marks. -/
@[reducible] def CustomTypes.grading : CustomTypes where
  Key := Bool
  decEq := inferInstance
  type
    | false =>
      { Carrier := BitVec 16, name := "grade", codec? := some gradeCodec,
        compare? := fun x y => some (compare x.toNat y.toNat),
        compare?_swap := fun _ _ => congrArg some Std.OrientedCmp.eq_swap,
        describe := fun x => toString x.toNat }
    | true =>
      { Carrier := Unit, name := "mark", codec? := some markCodec,
        compare? := fun _ _ => some .eq, compare?_swap := fun _ _ => rfl, describe := fun _ => "mark" }

end EntityStore

namespace EntityStore.Layout

attribute [local instance] CustomTypes.grading

/-- A name that is taken and a default that is refused leave no gap between the properties around
them, and neither does a property without bytes. -/
theorem tiling_of_seven_declarations :
    ∃ log l, Declared log l ∧ l.Tiling log ∧
      log.map (·.answer.toOption) = [some (.packed 0), none, some (.side 0), none,
        some (.packed 4), some (.packed 4), some (.side 1)] ∧
      log.map Declaration.type = [.word (.unsigned .w32), .custom false, .text, .bool, .custom true,
        .custom false, .text] ∧
      l.template = [0, 0, 0, 0, 7, 0, 0, 0, 1, 2] := by
  have first := Declared.empty.push "Mass" "kg" (.word (.unsigned .w32)) (7 : BitVec 32)
  have second := first.push "Mass" "grade" (.custom false) (65535 : BitVec 16)
  have third := second.push "Mass" "unit" .text ""
  have fourth := third.push "Mass" "kg" .bool true
  have fifth := fourth.push "Mass" "heavy" (.custom true) ()
  have sixth := fifth.push "Mass" "grade" (.custom false) (513 : BitVec 16)
  have seventh := sixth.push "Mass" "label" .text ""
  exact ⟨_, _, seventh, tiling_of_declared seventh, rfl, rfl, rfl⟩

end EntityStore.Layout
