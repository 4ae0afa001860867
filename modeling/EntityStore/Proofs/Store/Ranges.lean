import EntityStore.Proofs.Store.Defaults
import EntityStore.Proofs.Store.Table
import EntityStore.Proofs.Value.Bounds

/-!
# Ranged properties

A value comes to be read in three ways: a new holder has the default, which was brought into the
bounds when the property was declared; a value that is set is brought into them too; and what is
neither new nor set is what was read before, wherever its block has moved.

* `Client.Asks`, `Client.Came`: the users of a kind declare properties of built-in types, whose bounds
  are made of two ends in any order, and use the properties that they have.
* `Table.Bounded`: every value in a table was brought into the bounds of its property.
  `Table.Bounded.serve`, `Client.Came.bounded`: so it stays, whatever is asked for.
* `Client.ranged_values_stay_in_bounds`: what this means for one property.
-/

namespace EntityStore

variable [CustomTypes]

namespace Client

variable {machine : Machine} {c d : Client} {call : Call}

/-! ## Calls -/

/-- What the users of a kind may ask for.  Bounds are given by their ends, in any order. -/
inductive Asks (c : Client) : Call → Prop where
  | declare (name : String) (type : ValueType) (default : type.Carrier)
      (ends : Option (type.Carrier × type.Carrier)) (htype : type.isBuiltIn = true) :
      Asks c (.declare name type default (ends.map fun ends => .between ends.1 ends.2))
  | add (e : EntityId) : Asks c (.add e)
  | remove (e : EntityId) : Asks c (.remove e)
  | set (p : Property) (e : EntityId) (x : p.type.Carrier) (hp : p ∈ c.properties) :
      Asks c (.set p e x)
  | get (p : Property) (e : EntityId) (hp : p ∈ c.properties) : Asks c (.get p e)

/-- A kind that came about by such calls. -/
inductive Came (machine : Machine) (name : String) (config : StoreConfig) : Client → Prop where
  | fresh : Came machine name config (Client.fresh name config)
  | serve {c : Client} {call : Call} (h : Came machine name config c) (hasks : c.Asks call) :
      Came machine name config (c.serve machine call).1

/-- A declaration of a built-in type is refused for a closed list or a taken name only. -/
theorem Asks.permits (h : c.store.Consistent) (hasks : c.Asks call) : c.Permits call := by
  cases hasks with
  | add e => trivial
  | remove e => trivial
  | set p e x hp => exact hp
  | get p e hp => exact hp
  | declare name type default ends htype =>
      rcases Store.addField_pushed c.store name type
          (Property.clampTo (ends.map fun ends => .between ends.1 ends.2) default) with
        hclosed | ⟨next, answer, sides, hpush, hadd, -⟩
      · simp only [Permits, Property.declare, hclosed, Except.map]
        exact Or.inl ⟨_, rfl⟩
      · simp only [Permits, Property.declare, hadd]
        cases hpush with
        | taken => exact Or.inr ⟨_, _, rfl⟩
        | packed => exact htype
        | side => exact htype
        | refused _ width hwidth template hwrite =>
            have haccepted := h.sound.write_room htype hwidth
              (Property.clampTo (ends.map fun ends => .between ends.1 ends.2) default)
            rw [hwrite] at haccepted
            cases haccepted

/-- A call adds a property or leaves the properties as they are. -/
theorem properties_serve (machine : Machine) (c : Client) (call : Call) :
    (c.serve machine call).1.properties = c.properties ∨
      ∃ name type default bounds slot, call = .declare name type default bounds ∧
        (c.serve machine call).2 = .done ∧ (c.serve machine call).1.properties =
          c.properties ++ [⟨name, type, slot, Property.clampTo bounds default, bounds⟩] := by
  cases call with
  | remove e => exact Or.inl rfl
  | get p e =>
      cases hget : p.get c.store e with
      | ok x =>
          rw [serve_get_ok hget]
          exact Or.inl rfl
      | error cause =>
          rw [serve_get_error hget]
          exact Or.inl rfl
  | set p e x =>
      cases hset : p.set c.store e x with
      | mk store answer =>
          cases answer with
          | ok done =>
              rw [serve_set_ok hset]
              exact Or.inl rfl
          | error cause =>
              rw [serve_set_error hset]
              exact Or.inl rfl
  | add e =>
      cases hresult : c.store.insert machine e with
      | mk store answer =>
          cases answer with
          | ok done =>
              rw [serve_add_ok hresult]
              exact Or.inl rfl
          | error cause =>
              rw [serve_add_error hresult]
              exact Or.inl rfl
  | declare name type default bounds =>
      cases hresult : c.store.addField name type (Property.clampTo bounds default) with
      | mk store answer =>
          cases answer with
          | error cause =>
              rw [serve_declare_error hresult]
              exact Or.inl rfl
          | ok slot =>
              rw [serve_declare_ok hresult]
              exact Or.inr ⟨name, type, default, bounds, slot, rfl, rfl, rfl⟩

end Client

/-! ## The invariant -/

namespace Table

variable {t : Table} {c : Client} {machine : Machine}

/-- What a property reads stands in the row of the entity. -/
theorem Describes.get_eq_ok (h : t.Describes c) {p : Property} (hp : p ∈ c.properties)
    {e : EntityId} {x : p.type.Carrier} :
    p.get c.store e = .ok x ↔ ∃ row, t.rows e = some row ∧ row p.name = some ⟨p.type, x⟩ := by
  constructor
  · intro hget
    cases hrow : t.rows e with
    | none =>
        rw [Store.get_missing p (h.row_eq_none.1 hrow)] at hget
        cases hget
    | some row =>
        obtain ⟨y, hy, hstores⟩ := h.stored e row hrow p.field (h.declared p hp)
        obtain rfl := Except.ok.inj (hstores.get.symm.trans hget)
        exact ⟨row, rfl, hy⟩
  · rintro ⟨row, hrow, hx⟩
    obtain ⟨y, hy, hstores⟩ := h.stored e row hrow p.field (h.declared p hp)
    have hsame : (⟨p.type, y⟩ : TypedValue) = ⟨p.type, x⟩ := Option.some.inj (hy.symm.trans hx)
    obtain rfl : y = x := eq_of_heq (TypedValue.mk.inj hsame).2
    exact hstores.get

/-- A table in which every value of some properties was brought into their bounds. -/
structure Bounded (t : Table) (properties : List Property) : Prop where
  /-- The properties are known by their names. -/
  named : ∀ p ∈ properties, ∀ q ∈ properties, p.name = q.name → p = q
  /-- Bounds are made of two ends. -/
  ended : ∀ p ∈ properties, ∀ bounds, p.bounds = some bounds →
    ∃ low high, bounds = .between low high
  /-- A default was brought into the bounds. -/
  default : ∀ p ∈ properties, ∃ x, p.default = Property.clampTo p.bounds x
  /-- So was every value. -/
  rows : ∀ p ∈ properties, ∀ e row v, t.rows e = some row → row p.name = some v →
    ∃ x, v = ⟨p.type, Property.clampTo p.bounds x⟩

/-- A column that is added to a table without rows. -/
theorem Bounded.declare {properties : List Property} (h : t.Bounded properties) {name : String}
    {type : ValueType} {default : type.Carrier} (slot : Slot)
    {ends : Option (type.Carrier × type.Carrier)}
    (hnew : ∀ p ∈ properties, p.name ≠ name) (hempty : ∀ e, t.rows e = none)
    (column : String × TypedValue) :
    ({ t with columns := t.columns ++ [column] } : Table).Bounded (properties ++ [⟨name, type, slot,
      Property.clampTo (ends.map fun ends => .between ends.1 ends.2) default,
      ends.map fun ends => .between ends.1 ends.2⟩]) := by
  refine { named := ?_, ended := ?_, default := ?_, rows := ?_ }
  · intro p hp q hq hname
    rcases List.mem_append.1 hp with hpOld | hpNew
    · rcases List.mem_append.1 hq with hqOld | hqNew
      · exact h.named p hpOld q hqOld hname
      · obtain rfl := List.mem_singleton.1 hqNew
        exact absurd hname (hnew p hpOld)
    · obtain rfl := List.mem_singleton.1 hpNew
      rcases List.mem_append.1 hq with hqOld | hqNew
      · exact absurd hname.symm (hnew q hqOld)
      · exact (List.mem_singleton.1 hqNew).symm
  · intro p hp bounds hbounds
    rcases List.mem_append.1 hp with hpOld | hpNew
    · exact h.ended p hpOld bounds hbounds
    · obtain rfl := List.mem_singleton.1 hpNew
      obtain ⟨given, -, hgiven⟩ := Option.map_eq_some_iff.1 hbounds
      exact ⟨given.1, given.2, hgiven.symm⟩
  · intro p hp
    rcases List.mem_append.1 hp with hpOld | hpNew
    · exact h.default p hpOld
    · obtain rfl := List.mem_singleton.1 hpNew
      exact ⟨default, rfl⟩
  · intro p hp e row v hrow
    rw [show t.rows e = none from hempty e] at hrow
    cases hrow

/-- A row that is replaced by one with values within the bounds, or by none. -/
theorem Bounded.withRow {properties : List Property} (h : t.Bounded properties) {e : EntityId}
    {row : Option (String → Option TypedValue)}
    (hrow : ∀ p ∈ properties, ∀ new v, row = some new → new p.name = some v →
      ∃ x, v = ⟨p.type, Property.clampTo p.bounds x⟩) : (t.withRow e row).Bounded properties := by
  refine { named := h.named, ended := h.ended, default := h.default, rows := ?_ }
  intro p hp y new v hnew hv
  replace hnew : (if y = e then row else t.rows y) = some new := hnew
  split at hnew
  · exact hrow p hp new v hnew hv
  · exact h.rows p hp y new v hnew hv

/-- No call lets in a value that was not brought into the bounds. -/
theorem Bounded.serve (h : t.Bounded c.properties) (hdescribes : t.Describes c) {call : Call}
    (hasks : c.Asks call) : ∃ u : Table, u.Describes (c.serve machine call).1 ∧
      u.Bounded (c.serve machine call).1.properties := by
  obtain ⟨u, hstep, hnext⟩ := hdescribes.follows (hasks.permits hdescribes.consistent)
  refine ⟨u, hnext, ?_⟩
  have hproperties := Client.properties_serve machine c call
  generalize (c.serve machine call).2 = answer at hstep hproperties
  rcases hproperties with hsame | ⟨name, type, default, bounds, slot, rfl, rfl, hadded⟩
  · rw [hsame]
    cases hstep with
    | declare => exact ⟨h.named, h.ended, h.default, h.rows⟩
    | declareClosed => exact h
    | declareTaken => exact h
    | addFull => exact h
    | addInvalid => exact h
    | addHeld => exact h
    | setMissing => exact h
    | get => exact h
    | getMissing => exact h
    | remove e => exact h.withRow fun p _ new v hnone => by cases hnone
    | add e =>
        -- a new holder has the defaults
        have hrow : (t.withRow e (some t.defaults)).Bounded c.properties := by
          refine h.withRow fun p hp new v hnew hv => ?_
          obtain rfl := Option.some.inj hnew
          obtain ⟨x, hx⟩ := h.default p hp
          have hdefault := hdescribes.defaults_eq (hdescribes.declared p hp)
          obtain rfl := Option.some.inj (hdefault.symm.trans hv)
          exact ⟨x, congrArg (TypedValue.mk p.type) hx⟩
        exact ⟨hrow.named, hrow.ended, hrow.default, hrow.rows⟩
    | set q e x row hrow =>
        refine h.withRow fun p hp new v hnew hv => ?_
        obtain rfl := Option.some.inj hnew
        replace hv : (if p.name = q.name then _ else row p.name) = some v := hv
        split at hv
        · rename_i hname
          have hq : q ∈ c.properties := by
            cases hasks with
            | set _ _ _ hq => exact hq
          obtain rfl := h.named p hp q hq hname
          exact ⟨x, (Option.some.inj hv).symm⟩
        · exact h.rows p hp e row v hrow hv
  · cases hasks with
    | declare _ _ _ ends htype =>
        cases hstep with
        | declare _ _ _ _ hopen hnew =>
            rw [hadded]
            refine h.declare slot (fun p hp hname => hnew ?_) (fun e => ?_) _
            · rw [hdescribes.names, ← hname]
              exact List.mem_map_of_mem (hdescribes.declared p hp)
            · -- the list of properties is open, so there is no holder
              rw [hdescribes.row_eq_none]
              intro he
              have hclosed := hdescribes.consistent.packed.frozen_of_holder he
              rw [← hdescribes.closed, hopen] at hclosed
              cases hclosed

end Table

/-! ## Ranged properties -/

namespace Client

variable {machine : Machine} {name : String} {config : StoreConfig} {c : Client}

theorem Came.bounded (h : c.Came machine name config) :
    ∃ t : Table, t.Describes c ∧ t.Bounded c.properties := by
  induction h with
  | fresh =>
      refine ⟨_, Table.describes_fresh name config, ?_⟩
      exact ⟨fun p hp => absurd hp List.not_mem_nil, fun p hp => absurd hp List.not_mem_nil,
        fun p hp => absurd hp List.not_mem_nil, fun p hp => absurd hp List.not_mem_nil⟩
  | serve _ hasks ih =>
      obtain ⟨t, hdescribes, hbounded⟩ := ih
      exact hbounded.serve hdescribes hasks

/-- What holds of a property with bounds. -/
structure KeepsRange (machine : Machine) (c : Client) (p : Property)
    (range : Bounds p.type.Carrier) : Prop where
  /-- The bounds are two ends, brought into order as far as they have one. -/
  ends : ∃ low high, range = .between low high
  /-- Every holder has a value. -/
  total : ∀ e, e ∈ c.store.holders → ∃ x, p.get c.store e = .ok x
  /-- No value is below the lower bound or above the upper one. -/
  within : ∀ e x, p.get c.store e = .ok x →
    p.type.compare? x range.min ≠ some .lt ∧ p.type.compare? x range.max ≠ some .gt
  /-- Every holder can be given another value. -/
  settable : ∀ e, e ∈ c.store.holders → ∀ x, ∃ store, p.set c.store e x = (store, .ok ())
  /-- What is set is brought into the bounds and then read. -/
  read_back : ∀ e x store, p.set c.store e x = (store, .ok ()) →
    p.get store e = .ok (range.clamp x)
  /-- A new holder reads the default. -/
  fresh : ∀ e store, c.store.insert machine e = (store, .ok ()) → p.get store e = .ok p.default

/-- Whatever is declared, added, removed and set: a property with bounds never has a value outside
of them. -/
theorem ranged_values_stay_in_bounds (h : c.Came machine name config) {p : Property}
    (hp : p ∈ c.properties) {range : Bounds p.type.Carrier} (hrange : p.bounds = some range) :
    KeepsRange machine c p range := by
  obtain ⟨t, hdescribes, hbounded⟩ := h.bounded
  have hconsistent := hdescribes.consistent
  have hfield := hdescribes.declared p hp
  refine
    { ends := hbounded.ended p hp range hrange, total := ?_, within := ?_, settable := ?_,
      read_back := ?_, fresh := ?_ }
  · intro e he
    obtain ⟨row, hrow⟩ := Option.isSome_iff_exists.1 ((hdescribes.held e).2 he)
    obtain ⟨x, -, hstores⟩ := hdescribes.stored e row hrow p.field hfield
    exact ⟨x, hstores.get⟩
  · intro e x hget
    obtain ⟨row, hrow, hx⟩ := (hdescribes.get_eq_ok hp).1 hget
    obtain ⟨y, hy⟩ := hbounded.rows p hp e row _ hrow hx
    obtain rfl : x = Property.clampTo p.bounds y := eq_of_heq (TypedValue.mk.inj hy).2
    obtain ⟨low, high, rfl⟩ := hbounded.ended p hp range hrange
    rw [hrange]
    have hallows := Bounds.allows_clamp (Bounds.not_max_lt_min low high) y
    exact ⟨hallows.min, fun hgt => hallows.max (ValueType.compare?_eq_gt.1 hgt)⟩
  · exact fun e he x => Store.set_succeeds hconsistent hfield he x
  · intro e x store hset
    have hwritten := Store.set_written hconsistent.packed p e x
    rw [hset] at hwritten
    rw [(Store.stores_written hconsistent hfield hwritten).get, hrange]
    rfl
  · intro e store hinsert
    have hstep := Store.insert_inserted hconsistent.packed machine e
    rw [hinsert] at hstep
    exact (Store.stores_default hconsistent hstep hfield).get (p := p)

end Client

end EntityStore

namespace EntityStore.Client

attribute [local instance] CustomTypes.none

/-- Bounds of which the lower one is no number, so that only the upper one, the number one, can be
passed. -/
def oneSided : Bounds (ValueType.word .binary32).Carrier :=
  .between (0x7FC00000 : BitVec 32) (0x3F800000 : BitVec 32)

/-- A property with these bounds, whose default was given as five. -/
def glow : Property := ⟨"glow", .word .binary32, .packed 0, (0x3F800000 : BitVec 32), some oneSided⟩

/-- A kind with this property and one holder. -/
def glowing : Client :=
  (((fresh "Lamp" { StoreConfig.default with expectedCapacity := 2 }).serve .standard
    (.declare "glow" (.word .binary32) (0x40A00000 : BitVec 32) (some oneSided))).1.serve .standard
    (.add 1)).1

/-- Seven is set, and one is read. -/
theorem bounds_hold_on_one_side : ∃ store,
    glow.set glowing.store 1 (0x40E00000 : BitVec 32) = (store, .ok ()) ∧
      glow.get store 1 = .ok (0x3F800000 : BitVec 32) := by
  have hcame : glowing.Came .standard "Lamp" { StoreConfig.default with expectedCapacity := 2 } :=
    .serve (.serve .fresh (.declare _ _ _ (some (_, _)) rfl)) (.add 1)
  have hglow : glow ∈ glowing.properties := List.mem_singleton.2 rfl
  have hkeeps := ranged_values_stay_in_bounds hcame hglow rfl
  obtain ⟨store, hset⟩ := hkeeps.settable 1 (by decide +kernel) (0x40E00000 : BitVec 32)
  have hclamp : oneSided.clamp (0x40E00000 : BitVec 32) = (0x3F800000 : BitVec 32) := by
    with_unfolding_all rfl
  exact ⟨store, hset, (hkeeps.read_back 1 _ store hset).trans (congrArg Except.ok hclamp)⟩

end EntityStore.Client
