import EntityStore.Proofs.Store.Layout
import EntityStore.Proofs.Store.Writing
import EntityStore.Store.Property

/-!
# What is stored for a holder

`Store.Stores s f e x` says that the value of the property `f` for the holder `e` is `x`: it stands
in the block of `e` or in a side map, or it is the default that nobody has changed.

* `Stores.get`: such a value is what a property reads.
* `Stores.undisturbed`: it stays as long as the block and the side entries of its holder stay.
* `stores_default`: a new holder has every property at its default.
* `stores_written`, `stores_of_other_field`: a write changes one property and no other.
-/

namespace EntityStore

theorem eq_ok_of_toOption {ε α : Type} {result : Except ε α} {x : α}
    (h : result.toOption = some x) : result = .ok x := by
  cases result with
  | error cause => cases h
  | ok y =>
      cases h
      rfl

/-- A read that may be refused gives a value if and only if the codec does. -/
theorem elim_eq_ok {ε α : Type} {read : Option α} {cause : ε} {x : α} :
    read.elim (.error cause) .ok = (.ok x : Except ε α) ↔ read = some x := by
  cases read with
  | none => exact iff_of_false nofun nofun
  | some y => exact ⟨fun h => congrArg some (Except.ok.inj h), fun h => congrArg _ (Option.some.inj h)⟩

variable [CustomTypes]

/-- The declared field that a property speaks of. -/
def Property.field (p : Property) : Field := ⟨p.name, p.type, p.default, p.slot⟩

namespace Store

variable {s t : Store}

/-- The value of a property for a holder. -/
inductive Stores (s : Store) (f : Field) (e : EntityId) (x : f.type.Carrier) : Prop where
  /-- It stands in the block of the holder. -/
  | packed (offset : Nat) (b : Block) (hslot : f.slot = .packed offset) (hhome : s.home e = some b)
      (hread : f.type.read? b.data offset = some x)
  /-- It has not been set and lives in a side map. -/
  | unset (i : Nat) (values : IdMap TypedValue) (hslot : f.slot = .side i) (he : e ∈ s.holders)
      (hside : s.sides[i]? = some values) (hvalue : values.lookup e = none) (hx : x = f.default)
  /-- It has been set and lives in a side map. -/
  | set (i : Nat) (values : IdMap TypedValue) (hslot : f.slot = .side i) (he : e ∈ s.holders)
      (hside : s.sides[i]? = some values) (hvalue : values.lookup e = some ⟨f.type, x⟩)

theorem blockIndex_eq_error {e : EntityId} (he : e ∉ s.holders) :
    s.blockIndex e = .error (s.missing e) := by
  unfold blockIndex
  have hnone : s.index.lookup e = none := by
    cases hplace : s.index.lookup e with
    | none => rfl
    | some place => exact absurd (mem_holders.2 (by rw [hplace]; rfl)) he
  rw [hnone]

/-- What is stored is what a property reads. -/
theorem Stores.get {p : Property} {e : EntityId} {x : p.type.Carrier}
    (h : s.Stores p.field e x) : p.get s e = .ok x := by
  obtain ⟨name, type, slot, default, bounds⟩ := p
  unfold Property.get
  cases h with
  | packed offset b hslot hhome hread =>
      replace hslot : slot = .packed offset := hslot
      subst hslot
      obtain ⟨place, hplace, hat⟩ := Option.bind_eq_some_iff.1 hhome
      obtain ⟨i, rfl, hget⟩ := Option.bind_eq_some_iff.1 hat
      show s.readPacked type e offset name = .ok x
      unfold readPacked
      replace hread : type.read? b.data offset = some x := hread
      rw [blockIndex_eq_ok.2 hplace]
      simp only [Except.bind, hget, Option.bind_some, hread]
  | unset i values hslot he hside hvalue hx =>
      replace hslot : slot = .side i := hslot
      subst hslot
      show (s.readSide type e i name).map (fun stored => stored.getD default) = .ok x
      unfold readSide
      rw [if_pos (contains_eq_true.2 he), hside]
      dsimp only
      rw [hvalue, hx]
      rfl
  | set i values hslot he hside hvalue =>
      replace hslot : slot = .side i := hslot
      subst hslot
      show (s.readSide type e i name).map (fun stored => stored.getD default) = .ok x
      unfold readSide
      rw [if_pos (contains_eq_true.2 he), hside]
      dsimp only
      rw [hvalue]
      have hread : (⟨type, x⟩ : TypedValue).as? type = some x := by simp [TypedValue.as?]
      dsimp only [Property.field]
      rw [hread]
      rfl

/-- A property has no value for an entity that does not hold the kind. -/
theorem get_missing (p : Property) {e : EntityId} (he : e ∉ s.holders) :
    p.get s e = .error (s.missing e) := by
  unfold Property.get
  split
  · unfold readPacked
    rw [blockIndex_eq_error he]
    rfl
  · unfold readSide
    rw [if_neg fun hcontains => he (contains_eq_true.1 hcontains)]
    rfl

/-- A property cannot be set for an entity that does not hold the kind. -/
theorem set_missing (p : Property) {e : EntityId} (he : e ∉ s.holders) (x : p.type.Carrier) :
    p.set s e x = (s, .error (s.missing e)) := by
  unfold Property.set
  split
  · exact writePacked_of_error (blockIndex_eq_error he) _ _ _
  · unfold writeSide
    rw [if_neg fun hcontains => he (contains_eq_true.1 hcontains)]

/-! ## What leaves a value alone -/

/-- Nothing that is kept for an entity has changed. -/
structure Undisturbed (s t : Store) (e : EntityId) : Prop where
  /-- It holds the kind as before. -/
  held : e ∈ t.holders ↔ e ∈ s.holders
  /-- Its block is the same. -/
  home : t.home e = s.home e
  /-- So are its entries in the side maps. -/
  sides : ∀ (i : Nat) values, s.sides[i]? = some values →
    ∃ others, t.sides[i]? = some others ∧ others.lookup e = values.lookup e

theorem Stores.undisturbed {e : EntityId} (hsame : Undisturbed s t e) {f : Field}
    {x : f.type.Carrier} (h : s.Stores f e x) : t.Stores f e x := by
  cases h with
  | packed offset b hslot hhome hread => exact .packed offset b hslot (hsame.home.trans hhome) hread
  | unset i values hslot he hside hvalue hx =>
      obtain ⟨others, hothers, hlookup⟩ := hsame.sides i values hside
      exact .unset i others hslot (hsame.held.2 he) hothers (hlookup.trans hvalue) hx
  | set i values hslot he hside hvalue =>
      obtain ⟨others, hothers, hlookup⟩ := hsame.sides i values hside
      exact .set i others hslot (hsame.held.2 he) hothers (hlookup.trans hvalue)

theorem Undisturbed.refl (s : Store) (e : EntityId) : Undisturbed s s e :=
  ⟨Iff.rfl, rfl, fun _ values hvalues => ⟨values, hvalues, rfl⟩⟩

theorem Undisturbed.trans {u : Store} {e : EntityId} (h : Undisturbed s t e)
    (g : Undisturbed t u e) : Undisturbed s u e where
  held := g.held.trans h.held
  home := g.home.trans h.home
  sides i values hvalues := by
    obtain ⟨others, hothers, hlookup⟩ := h.sides i values hvalues
    obtain ⟨last, hlast, hlookup'⟩ := g.sides i others hothers
    exact ⟨last, hlast, hlookup'.trans hlookup⟩

/-- Two stores with the same properties. -/
structure SameShape (s t : Store) : Prop where
  name : t.name = s.name
  layout : t.layout = s.layout
  sides : t.sides.length = s.sides.length

theorem SameShape.refl (s : Store) : SameShape s s := ⟨rfl, rfl, rfl⟩

theorem SameShape.trans {u : Store} (h : SameShape s t) (g : SameShape t u) : SameShape s u :=
  ⟨g.name.trans h.name, g.layout.trans h.layout, g.sides.trans h.sides⟩

theorem readPacked_of_home {e : EntityId} {b : Block} (hs : s.home e = some b)
    (type : ValueType) (offset : Nat) (property : String) :
    s.readPacked type e offset property =
      (type.read? b.data offset).elim (.error (.valueTypeMismatch property type.name)) .ok := by
  obtain ⟨place, hplace, hat⟩ := Option.bind_eq_some_iff.1 hs
  obtain ⟨i, rfl, hget⟩ := Option.bind_eq_some_iff.1 hat
  unfold readPacked
  rw [blockIndex_eq_ok.2 hplace]
  simp only [Except.bind, hget, Option.bind_some]
  cases type.read? b.data offset <;> rfl

/-- A holder without a block has no packed values. -/
theorem readPacked_of_no_home (h : s.Packed) {e : EntityId} (he : e ∈ s.holders)
    (hs : s.home e = none) (type : ValueType) (offset : Nat) (property : String) :
    s.readPacked type e offset property = .error (.noFixedStorage s.name) := by
  obtain ⟨place, hplace⟩ := Option.isSome_iff_exists.1 (mem_holders.1 he)
  cases place with
  | none =>
      unfold readPacked blockIndex
      rw [hplace]
      rfl
  | some i =>
      obtain ⟨b, hb⟩ := exists_holderIn_iff.1 ⟨i, (h.agrees e i).1 hplace⟩
      rw [h.home_eq_some.2 hb] at hs
      cases hs

/-- An entity for which nothing has changed has its values. -/
theorem Undisturbed.get_eq {e : EntityId} (hsame : Undisturbed s t e) (hs : s.Packed) (ht : t.Packed)
    (hshape : SameShape s t) (p : Property) : p.get t e = p.get s e := by
  have hmissing : t.missing e = s.missing e := by
    unfold missing
    rw [hshape.name]
  by_cases he : e ∈ s.holders
  · have ht' := hsame.held.2 he
    unfold Property.get
    split
    · rename_i offset hslot
      cases hhome : s.home e with
      | none =>
          rw [readPacked_of_no_home hs he hhome,
            readPacked_of_no_home ht ht' (hsame.home.trans hhome), hshape.name]
      | some b =>
          rw [readPacked_of_home hhome, readPacked_of_home (hsame.home.trans hhome)]
    · rename_i i hslot
      unfold readSide
      rw [if_pos (contains_eq_true.2 he), if_pos (contains_eq_true.2 ht')]
      cases hside : s.sides[i]? with
      | none =>
          have hnone : t.sides[i]? = none := by
            rw [List.getElem?_eq_none_iff] at hside ⊢
            rw [hshape.sides]
            exact hside
          rw [hnone]
      | some values =>
          obtain ⟨others, hothers, hlookup⟩ := hsame.sides i values hside
          rw [hothers]
          dsimp only
          rw [hlookup]
  · rw [get_missing p he, get_missing p fun hmem => he (hsame.held.1 hmem), hmissing]

/-- More room leaves the blocks of the holders. -/
theorem home_reserve (h : s.Packed) (hfixed : s.layout.hasFixedStorage = true) {machine : Machine}
    {roomy : Store} (hroomy : s.reserve machine = .ok roomy) (x : EntityId) :
    roomy.freeze.home x = s.home x := by
  have hroom := packed_reserve h hfixed hroomy
  obtain ⟨n, rfl, -⟩ := reserve_eq_ok hroomy
  apply Option.ext
  intro b
  rw [hroom.home_eq_some, h.home_eq_some]
  constructor
  · rintro ⟨hb, hholder⟩
    rcases List.mem_append.1 hb with hold | hblank
    · exact ⟨hold, hholder⟩
    · rw [List.eq_of_mem_replicate hblank, Block.holder?_eq_none.2 (Block.isFree_blank _)] at hholder
      cases hholder
  · rintro ⟨hold, hholder⟩
    exact ⟨List.mem_append_left _ hold, hholder⟩

/-- An insertion changes the block of the new holder only. -/
theorem home_insert (h : s.Packed) {machine : Machine} {e : EntityId}
    {answer : Except StoreError Unit} (hstep : Inserted machine s e t answer) {x : EntityId}
    (hx : x ≠ e) : t.home x = s.home x := by
  cases hstep with
  | invalid => rfl
  | held => rfl
  | full => rfl
  | misfit _ _ hfixed roomy hroomy => exact home_reserve h hfixed hroomy x
  | noted =>
      show ((s.index.insert e none).lookup x).bind _ = _
      rw [IdMap.lookup_insert, if_neg hx]
      rfl
  | placed hvalid _ hfixed htemplate roomy target free hroomy hfit =>
      rw [← home_reserve h hfixed hroomy]
      have hroom := packed_reserve h hfixed hroomy
      obtain ⟨n, rfl, -⟩ := reserve_eq_ok hroomy
      rw [home_place hroom hfixed rfl htemplate hvalid.1 hfit, if_neg hx]

/-- What an insertion leaves. -/
theorem Inserted.frame {machine : Machine} {e : EntityId} {answer : Except StoreError Unit}
    (hstep : Inserted machine s e t answer) :
    t.layout = s.layout ∧ t.name = s.name ∧ t.sides = s.sides ∧
      (t.frozen = true ∨ t.frozen = s.frozen) ∧ (answer = .ok () → t.frozen = true) := by
  cases hstep with
  | invalid => exact ⟨rfl, rfl, rfl, Or.inr rfl, nofun⟩
  | held => exact ⟨rfl, rfl, rfl, Or.inr rfl, nofun⟩
  | full => exact ⟨rfl, rfl, rfl, Or.inr rfl, nofun⟩
  | misfit _ _ _ roomy hroomy =>
      obtain ⟨n, rfl, -⟩ := reserve_eq_ok hroomy
      exact ⟨rfl, rfl, rfl, Or.inl rfl, nofun⟩
  | noted => exact ⟨rfl, rfl, rfl, Or.inl rfl, fun _ => rfl⟩
  | placed _ _ _ _ roomy target free hroomy =>
      obtain ⟨n, rfl, -⟩ := reserve_eq_ok hroomy
      rw [place_eq]
      exact ⟨rfl, rfl, rfl, Or.inl rfl, fun _ => rfl⟩

/-- No insertion, refused or not, changes the properties. -/
theorem Inserted.sameShape {machine : Machine} {e : EntityId} {answer : Except StoreError Unit}
    (hstep : Inserted machine s e t answer) : SameShape s t := by
  obtain ⟨hlayout, hname, hsides, -⟩ := hstep.frame
  exact ⟨hname, hlayout, by rw [hsides]⟩

/-- No removal does. -/
theorem sameShape_remove (s : Store) (machine : Machine) (e : EntityId) :
    SameShape s (s.remove machine e).1 := by
  obtain ⟨hlayout, hname, -, hsides⟩ := remove_frame (s := s) machine e
  refine ⟨hname, hlayout, ?_⟩
  rcases hsides with ⟨hsame, -⟩ | herased
  · rw [hsame]
  · rw [herased, List.length_map]

/-- A new holder has a valid id and did not hold the kind. -/
theorem Inserted.valid_and_new {machine : Machine} {e : EntityId}
    (hstep : Inserted machine s e t (.ok ())) : e.IsValid ∧ e ∉ s.holders := by
  cases hstep with
  | noted hvalid hnew => exact ⟨hvalid, hnew⟩
  | placed hvalid hnew => exact ⟨hvalid, hnew⟩

/-- A valid id that does not hold the kind is refused for want of room only, or because a property
that was refused has spoilt the template. -/
theorem Inserted.refusal {machine : Machine} {e : EntityId} {cause : StoreError}
    (hstep : Inserted machine s e t (.error cause)) (hvalid : e.IsValid) (hnew : e ∉ s.holders) :
    (∃ requested, cause = .capacityOverflow s.name requested) ∨ cause = .templateMisfit s.name := by
  cases hstep with
  | invalid hinvalid => exact absurd hvalid hinvalid
  | held _ hheld => exact absurd hheld hnew
  | full _ _ requested => exact Or.inl ⟨requested, rfl⟩
  | misfit => exact Or.inr rfl

theorem undisturbed_insert (h : s.Packed) (machine : Machine) {e x : EntityId} (hx : x ≠ e) :
    Undisturbed s (s.insert machine e).1 x where
  held := by
    rw [mem_holders_insert h]
    simp [hx]
  home := home_insert h (insert_inserted h machine e) hx
  sides i values hvalues :=
    ⟨values, by rw [(insert_inserted h machine e).frame.2.2.1]; exact hvalues, rfl⟩

/-- A refused insertion changes nothing that is kept for anybody. -/
theorem undisturbed_refused (h : s.Packed) {machine : Machine} {e : EntityId} {cause : StoreError}
    (hstep : Inserted machine s e t (.error cause)) (x : EntityId) : Undisturbed s t x where
  held := by
    rw [hstep.mem_holders h]
    simp
  home := by
    cases hstep with
    | invalid => rfl
    | held => rfl
    | full => rfl
    | misfit _ _ hfixed roomy hroomy => exact home_reserve h hfixed hroomy x
  sides i values hvalues := ⟨values, by rw [hstep.frame.2.2.1]; exact hvalues, rfl⟩

theorem undisturbed_remove (h : s.Packed) (machine : Machine) {e x : EntityId} (hx : x ≠ e) :
    Undisturbed s (s.remove machine e).1 x where
  held := by
    rw [mem_holders_remove h]
    simp [hx]
  home := by rw [home_remove h, if_neg hx]
  sides i values hvalues := by
    rcases (remove_frame (s := s) machine e).2.2.2 with ⟨hsides, -⟩ | hsides
    · rw [hsides]
      exact ⟨values, hvalues, rfl⟩
    · rw [hsides]
      refine ⟨values.erase e, by rw [List.getElem?_map, hvalues]; rfl, ?_⟩
      rw [IdMap.lookup_erase, if_neg hx]

/-! ## Defaults -/

/-- A store whose layout and side maps fit together. -/
structure Consistent (s : Store) : Prop where
  /-- The blocks and the index hang together. -/
  packed : s.Packed
  /-- The values do not get in each other's way. -/
  sound : s.layout.Sound
  /-- There is a side map for every property that needs one. -/
  sides_length : s.sides.length = s.layout.sideMaps

theorem consistent_empty (name : String) (config : StoreConfig) : (empty name config).Consistent :=
  ⟨packed_empty name config, Layout.sound_empty, rfl⟩

theorem Consistent.hasFixedStorage (h : s.Consistent) {f : Field} (hf : f ∈ s.layout.fields)
    {offset : Nat} (hslot : f.slot = .packed offset) : s.layout.hasFixedStorage = true := by
  cases h.sound.housed f hf with
  | packed offset width _ hbuiltIn hwidth hfits _ =>
      have hpositive := ValueType.width?_pos hbuiltIn hwidth
      simp only [Layout.hasFixedStorage, decide_eq_true_eq]
      omega
  | side i hside =>
      rw [hside] at hslot
      cases hslot

/-- A new holder of a kind with blocks gets a copy of the template. -/
theorem home_of_inserted (h : s.Packed) {machine : Machine} {e : EntityId}
    (hstep : Inserted machine s e t (.ok ())) (hfixed : s.layout.hasFixedStorage = true) :
    t.home e = some (s.freshBlock e) := by
  cases hstep with
  | noted _ _ hunfixed => exact absurd (hunfixed.symm.trans hfixed) Bool.false_ne_true
  | placed hvalid _ _ htemplate roomy target free hroomy hfit =>
      have hroom := packed_reserve h hfixed hroomy
      obtain ⟨n, rfl, -⟩ := reserve_eq_ok hroomy
      have hhome := home_place hroom hfixed rfl htemplate hvalid.1 hfit e
      rw [if_pos rfl] at hhome
      exact hhome

/-- No side map has anything for a new holder. -/
theorem unset_of_inserted (h : s.Packed) {machine : Machine} {e : EntityId}
    (hstep : Inserted machine s e t (.ok ())) {i : Nat} (hi : i < s.sides.length) :
    ∃ values, t.sides[i]? = some values ∧ values.lookup e = none := by
  obtain ⟨-, hnew⟩ := hstep.valid_and_new
  refine ⟨s.sides[i], ?_, ?_⟩
  · rw [hstep.frame.2.2.1]
    exact List.getElem?_eq_getElem hi
  · cases hvalue : s.sides[i].lookup e with
    | none => rfl
    | some v =>
        -- a left-over entry would belong to a holder
        have hsided := h.sided s.sides[i] (List.getElem_mem hi) e (by rw [hvalue]; rfl)
        exact absurd hsided hnew

/-- A new holder has every property at its default. -/
theorem stores_default (h : s.Consistent) {machine : Machine} {e : EntityId}
    (hstep : Inserted machine s e t (.ok ())) {f : Field} (hf : f ∈ s.layout.fields) :
    t.Stores f e f.default := by
  have hheld : e ∈ t.holders := (hstep.mem_holders h.packed e).2 (Or.inr ⟨rfl, rfl⟩)
  cases h.sound.housed f hf with
  | side i hslot hi =>
      rw [← h.sides_length] at hi
      obtain ⟨values, hside, hvalue⟩ := unset_of_inserted h.packed hstep hi
      exact .unset i values hslot hheld hside hvalue rfl
  | packed offset width hslot hbuiltIn hwidth hfits hdefault =>
      have hfixed := h.hasFixedStorage hf hslot
      exact .packed offset _ hslot (home_of_inserted h.packed hstep hfixed) hdefault

/-! ## Declarations -/

/-- A declaration that is not refused for its default is refused because the list of properties is
closed or the name is taken, and changes nothing then; else it adds the property. -/
theorem addField_cases (h : s.Consistent) (name : String) (type : ValueType) (default : type.Carrier)
    (hbuiltIn : ∀ slot, (s.addField name type default).2 = .ok slot → type.isBuiltIn = true)
    (hencodes : ∀ property expected,
      (s.addField name type default).2 ≠ .error (.valueTypeMismatch property expected)) :
    (s.frozen = true ∧ s.addField name type default = (s, .error (.frozenSchema s.name))) ∨
      (s.frozen = false ∧ name ∈ s.layout.names ∧
        s.addField name type default = (s, .error (.duplicateProperty s.name name))) ∨
      s.frozen = false ∧ name ∉ s.layout.names ∧ ∃ t slot,
        s.addField name type default = (t, .ok slot) ∧ t.Consistent ∧ t.name = s.name ∧
          t.frozen = false ∧ t.holders = s.holders ∧
          t.layout.fields = s.layout.fields ++ [⟨name, type, default, slot⟩] := by
  have hpacked := packed_addField h.packed name type default
  have hpush := Layout.push_pushed s.layout s.name name type default
  generalize hresult : s.addField name type default = result at hbuiltIn hencodes hpacked ⊢
  cases hclosed : s.frozen with
  | true =>
      refine Or.inl ⟨rfl, ?_⟩
      rw [← hresult, addField, if_pos hclosed]
  | false =>
      unfold addField at hresult
      rw [if_neg (by rw [hclosed]; exact Bool.false_ne_true)] at hresult
      generalize s.layout.push s.name name type default = pushed at hpush hresult
      obtain ⟨next, answer⟩ := pushed
      dsimp only at hpush hresult
      have hanswer : result.2 = answer := by
        rw [← hresult]
        split <;> simp_all
      rw [hanswer] at hbuiltIn hencodes
      refine Or.inr ?_
      rcases h.sound.pushed hpush hbuiltIn hencodes with
        ⟨htaken, rfl, rfl⟩ | ⟨hnew, hsound, slot, rfl, hfields, hside, hpackedSlot⟩
      · exact Or.inl ⟨rfl, htaken, hresult.symm⟩
      · refine Or.inr ⟨rfl, hnew, ?_⟩
        cases slot with
        | packed offset =>
            replace hresult : ({ s with layout := next }, .ok (.packed offset)) = result := hresult
            rw [← hresult] at hpacked ⊢
            have hsides := h.sides_length.trans (hpackedSlot offset rfl).symm
            exact ⟨_, _, rfl, ⟨hpacked, hsound, hsides⟩, rfl, hclosed, rfl, hfields⟩
        | side i =>
            replace hresult : ({ s with layout := next, sides := s.sides ++ [∅] },
              .ok (.side i)) = result := hresult
            rw [← hresult] at hpacked ⊢
            refine ⟨_, _, rfl, ⟨hpacked, hsound, ?_⟩, rfl, hclosed, rfl, hfields⟩
            show (s.sides ++ [∅]).length = next.sideMaps
            rw [List.length_append, h.sides_length, hside i rfl]
            rfl

/-! ## Writes -/

/-- What the write of a property does, and what it answers. -/
inductive Written (s : Store) (p : Property) (e : EntityId) (x : p.type.Carrier) :
    Store → Except StoreError Unit → Prop where
  /-- It is refused before it touches anything. -/
  | refused (cause : StoreError) : Written s p e x s (.error cause)
  /-- The bytes of one block change. -/
  | packed (offset i : Nat) (old new : List UInt8) (hslot : p.slot = .packed offset)
      (hplace : s.index.lookup e = some (some i)) (hold : s.blocks[i]? = some ⟨e, old⟩)
      (hwrite : p.type.write (Property.clampTo p.bounds x) old offset = (new, true)) :
      Written s p e x { s with blocks := s.blocks.set i ⟨e, new⟩ } (.ok ())
  /-- The codec refuses the value, whatever it has written by then. -/
  | spoilt (offset i : Nat) (old new : List UInt8) (hslot : p.slot = .packed offset)
      (hplace : s.index.lookup e = some (some i)) (hold : s.blocks[i]? = some ⟨e, old⟩)
      (hwrite : p.type.write (Property.clampTo p.bounds x) old offset = (new, false)) :
      Written s p e x { s with blocks := s.blocks.set i ⟨e, new⟩ }
        (.error (.valueTypeMismatch p.name p.type.name))
  /-- One entry of a side map changes. -/
  | side (i : Nat) (hslot : p.slot = .side i) (he : e ∈ s.holders) (hi : i < s.sides.length) :
      Written s p e x { s with
        sides := s.sides.modify i fun values =>
          values.insert e ⟨p.type, Property.clampTo p.bounds x⟩ } (.ok ())

theorem set_written (h : s.Packed) (p : Property) (e : EntityId) (x : p.type.Carrier) :
    Written s p e x (p.set s e x).1 (p.set s e x).2 := by
  unfold Property.set
  split
  · rename_i offset hslot
    cases hindex : s.blockIndex e with
    | error cause =>
        rw [writePacked_of_error hindex]
        exact .refused cause
    | ok i =>
        have hplace := blockIndex_eq_ok.1 hindex
        obtain ⟨old, hold⟩ := h.exists_block_of_lookup hplace
        rw [writePacked_of_lookup hplace hold]
        generalize hwrite : p.type.write (Property.clampTo p.bounds x) old offset = result
        obtain ⟨new, accepted⟩ := result
        cases accepted with
        | true => exact .packed offset i old new hslot hplace hold hwrite
        | false => exact .spoilt offset i old new hslot hplace hold hwrite
  · rename_i i hslot
    unfold writeSide
    split
    · rename_i hheld
      split
      · rename_i hi
        exact .side i hslot (contains_eq_true.1 hheld) hi
      · exact .refused _
    · exact .refused _

/-- Whatever a write answers, it has moved nothing. -/
theorem rewritten_set (h : s.Packed) (p : Property) (e : EntityId) (x : p.type.Carrier) :
    Rewritten s (p.set s e x).1 := by
  unfold Property.set
  split
  · exact rewritten_writePacked h _ _ _ _ _
  · exact rewritten_writeSide s _ _ _ _ _

theorem Rewritten.sameShape (hstep : Rewritten s t) : SameShape s t := by
  obtain ⟨hname, -, hlayout, -, -, hsides, -⟩ := hstep.frame
  exact ⟨hname, hlayout, hsides⟩

theorem Rewritten.holders (hstep : Rewritten s t) : t.holders = s.holders := by
  obtain ⟨-, -, -, hindex, -, -, -⟩ := hstep.frame
  unfold Store.holders
  rw [hindex]

theorem Rewritten.consistent (hstep : Rewritten s t) (h : s.Consistent) : t.Consistent := by
  have hshape := hstep.sameShape
  refine ⟨hstep.packed h.packed, ?_, ?_⟩
  · rw [hshape.layout]
    exact h.sound
  · rw [hshape.sides, hshape.layout]
    exact h.sides_length

/-- A property of the kind can be set for every holder. -/
theorem set_succeeds (h : s.Consistent) {p : Property} (hp : p.field ∈ s.layout.fields)
    {e : EntityId} (he : e ∈ s.holders) (x : p.type.Carrier) :
    ∃ t, p.set s e x = (t, .ok ()) := by
  unfold Property.set
  cases h.sound.housed p.field hp with
  | packed offset width hslot hbuiltIn hwidth hfits _ =>
      replace hslot : p.slot = .packed offset := hslot
      rw [hslot]
      dsimp only
      obtain ⟨b, hb⟩ := Option.isSome_iff_exists.1
        ((h.packed.home_isSome (h.hasFixedStorage hp hslot) e).2 he)
      obtain ⟨place, hplace, hat⟩ := Option.bind_eq_some_iff.1 hb
      obtain ⟨i, rfl, -⟩ := Option.bind_eq_some_iff.1 hat
      obtain ⟨data, hget⟩ := h.packed.exists_block_of_lookup hplace
      -- every block is as long as the layout says, so the value has room in it
      have hroom : offset + width ≤ data.length := by
        rw [h.packed.shaped _ (List.mem_of_getElem? hget)]
        exact hfits
      have haccepted := ValueType.write_accepted hbuiltIn hwidth hroom (Property.clampTo p.bounds x)
      rw [writePacked_of_lookup hplace hget]
      exact ⟨_, Prod.ext rfl (if_pos haccepted)⟩
  | side i hslot hi =>
      replace hslot : p.slot = .side i := hslot
      rw [hslot]
      dsimp only
      unfold writeSide
      rw [if_pos (contains_eq_true.2 he), if_pos (by rw [h.sides_length]; exact hi)]
      exact ⟨_, rfl⟩

/-- A write leaves what is kept for other holders. -/
theorem undisturbed_written (h : s.Packed) {p : Property} {e y : EntityId} {x : p.type.Carrier}
    {answer : Except StoreError Unit} (hstep : Written s p e x t answer) (hy : y ≠ e) :
    Undisturbed s t y := by
  cases hstep with
  | refused => exact .refl s y
  | packed offset i old new hslot hplace hold hwrite =>
      exact ⟨Iff.rfl, by rw [home_rewrite h hplace hold, if_neg hy],
        fun _ values hvalues => ⟨values, hvalues, rfl⟩⟩
  | spoilt offset i old new hslot hplace hold hwrite =>
      exact ⟨Iff.rfl, by rw [home_rewrite h hplace hold, if_neg hy],
        fun _ values hvalues => ⟨values, hvalues, rfl⟩⟩
  | side i hslot he hi =>
      refine ⟨Iff.rfl, rfl, fun j values hvalues => ?_⟩
      refine ⟨_, by rw [List.getElem?_modify, hvalues]; rfl, ?_⟩
      split
      · rw [IdMap.lookup_insert, if_neg hy]
      · rfl

/-- A write is read back. -/
theorem stores_written (h : s.Consistent) {p : Property} (hp : p.field ∈ s.layout.fields)
    {e : EntityId} {x : p.type.Carrier} (hstep : Written s p e x t (.ok ())) :
    t.Stores p.field e (Property.clampTo p.bounds x) := by
  cases hstep with
  | packed offset i old new hslot hplace hold hwrite =>
      cases h.sound.housed p.field hp with
      | side j hside =>
          rw [show p.slot = .side j from hside] at hslot
          cases hslot
      | packed place width hplaced hbuiltIn hwidth hfits =>
          obtain rfl := Slot.packed.inj (hplaced.symm.trans hslot)
          have hroom : place + width ≤ old.length := by
            rw [h.packed.shaped _ (List.mem_of_getElem? hold)]
            exact hfits
          obtain rfl := (congrArg Prod.fst hwrite).symm
          refine .packed place ⟨e, _⟩ hslot ?_ (ValueType.read?_write hbuiltIn hwidth hroom _)
          rw [home_rewrite h.packed hplace hold, if_pos rfl]
          rfl
  | side i hslot he hi =>
      refine .set i (s.sides[i].insert e ⟨p.type, Property.clampTo p.bounds x⟩) hslot he ?_ ?_
      · rw [List.getElem?_modify, List.getElem?_eq_getElem hi]
        simp
      · rw [IdMap.lookup_insert, if_pos rfl]
        rfl

/-- A write to the block of a holder leaves every other property of the holder. -/
theorem stores_of_other_span (h : s.Consistent) {p : Property} (hp : p.field ∈ s.layout.fields)
    {e : EntityId} {offset i : Nat} {old : List UInt8} (hslot : p.slot = .packed offset)
    (hplace : s.index.lookup e = some (some i)) (hget : s.blocks[i]? = some ⟨e, old⟩)
    (x : p.type.Carrier) {f : Field} (hf : f ∈ s.layout.fields) (hname : f.name ≠ p.name)
    {v : f.type.Carrier} (hold : s.Stores f e v) :
    ({ s with blocks := s.blocks.set i ⟨e, (p.type.write x old offset).1⟩ } : Store).Stores f e v := by
  have hapart := h.sound.apart f hf p.field hp hname
  cases hold with
  | packed place b hplaced hhome hread =>
      rw [home_of_lookup hplace, hget] at hhome
      obtain rfl := Option.some.inj hhome
      refine .packed place ⟨e, (p.type.write x old offset).1⟩ hplaced ?_ ?_
      · rw [home_rewrite h.packed hplace hget, if_pos rfl]
      · obtain ⟨size, hsize⟩ := h.sound.width?_of_packed hf hplaced
        obtain ⟨width, hwidth⟩ := h.sound.width?_of_packed hp hslot
        exact (ValueType.read?_write_of_disjoint hwidth hsize
          (hapart.spans place offset size width hplaced hslot hsize hwidth)).trans hread
  | unset j values hside he hvalues hvalue hx => exact .unset j values hside he hvalues hvalue hx
  | set j values hside he hvalues hvalue => exact .set j values hside he hvalues hvalue

/-- A write leaves every other property of the holder. -/
theorem stores_of_other_field (h : s.Consistent) {p : Property} (hp : p.field ∈ s.layout.fields)
    {e : EntityId} {x : p.type.Carrier} {answer : Except StoreError Unit}
    (hstep : Written s p e x t answer) {f : Field} (hf : f ∈ s.layout.fields)
    (hname : f.name ≠ p.name) {v : f.type.Carrier} (hold : s.Stores f e v) : t.Stores f e v := by
  have hapart := h.sound.apart f hf p.field hp hname
  cases hstep with
  | refused => exact hold
  | packed offset i old new hslot hplace hget hwrite =>
      obtain rfl := (congrArg Prod.fst hwrite).symm
      exact stores_of_other_span h hp hslot hplace hget _ hf hname hold
  | spoilt offset i old new hslot hplace hget hwrite =>
      obtain rfl := (congrArg Prod.fst hwrite).symm
      exact stores_of_other_span h hp hslot hplace hget _ hf hname hold
  | side i hslot he hi =>
      cases hold with
      | packed place b hplaced hhome hread => exact .packed place b hplaced hhome hread
      | unset j values hside he hvalues hvalue hx =>
          have hne := hapart.maps j i hside hslot
          refine .unset j values hside he ?_ hvalue hx
          rw [List.getElem?_modify, hvalues]
          simp [Ne.symm hne]
      | set j values hside he hvalues hvalue =>
          have hne := hapart.maps j i hside hslot
          refine .set j values hside he ?_ hvalue
          rw [List.getElem?_modify, hvalues]
          simp [Ne.symm hne]

end Store

end EntityStore
