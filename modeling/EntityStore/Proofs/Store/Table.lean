import EntityStore.Proofs.Store.Stored

/-!
# A store is a plain map

A `Table` is what a kind is to its users: a list of columns with their defaults, and for every
holder a row with one value for each column.  `Table.Step` says what each call answers and how the
table changes.  Nothing in a table has a place, so nothing in it moves.

`store_refines_table`: whatever calls a store is given, and however its buffer grows, shifts and
shrinks on the way, its answers are those of a table.  The one answer that a table cannot foresee
is that a buffer is too large to be had; it comes in place of an addition, and the table stays as
it is.

Calls may be made with every property that the kind has declared.  The types that are declared are
built in: types with a codec of their own are left out, as is a declaration that is refused for its
default.
-/

namespace EntityStore

variable [CustomTypes]

/-! ## Calls -/

/-- The calls that the users of a kind make. -/
inductive Call where
  /-- Declare a property. -/
  | declare (name : String) (type : ValueType) (default : type.Carrier)
      (bounds : Option (Bounds type.Carrier))
  /-- Give the kind to an entity. -/
  | add (e : EntityId)
  /-- Take it away. -/
  | remove (e : EntityId)
  /-- Set a property of an entity. -/
  | set (p : Property) (e : EntityId) (x : p.type.Carrier)
  /-- Read a property of an entity. -/
  | get (p : Property) (e : EntityId)

/-- The answers to calls. -/
inductive Answer where
  /-- The call was done. -/
  | done
  /-- The entity held the kind, or did not. -/
  | flag (held : Bool)
  /-- The value of a property. -/
  | value (v : TypedValue)
  /-- The call was refused. -/
  | refused (cause : StoreError)

/-! ## Tables -/

/-- A kind as its users see it. -/
structure Table where
  /-- The name of the kind. -/
  kind : String
  /-- Is the list of columns closed? -/
  closed : Bool
  /-- The columns in the order of declaration, with their defaults. -/
  columns : List (String × TypedValue)
  /-- The row of every holder: a value under the name of each column. -/
  rows : EntityId → Option (String → Option TypedValue)

namespace Table

/-- The table without columns and rows. -/
def empty (kind : String) : Table := ⟨kind, false, [], fun _ => none⟩

/-- The table with another row for one entity, or with none. -/
def withRow (t : Table) (e : EntityId) (row : Option (String → Option TypedValue)) : Table :=
  { t with rows := fun x => if x = e then row else t.rows x }

/-- A row with another value under one name. -/
def update (row : String → Option TypedValue) (name : String) (v : TypedValue) :
    String → Option TypedValue :=
  fun other => if other = name then some v else row other

/-- The row of a new holder. -/
def defaults (t : Table) : String → Option TypedValue := fun name => t.columns.lookup name

/-- What a table answers to a call, and what it is afterwards. -/
inductive Step (t : Table) : Call → Answer → Table → Prop where
  /-- A new column has the default, brought into the bounds. -/
  | declare (name : String) (type : ValueType) (default : type.Carrier)
      (bounds : Option (Bounds type.Carrier)) (hopen : t.closed = false)
      (hnew : name ∉ t.columns.map Prod.fst) :
      Step t (.declare name type default bounds) .done
        { t with columns := t.columns ++ [(name, ⟨type, Property.clampTo bounds default⟩)] }
  /-- After the first holder there are no new columns. -/
  | declareClosed (name : String) (type : ValueType) (default : type.Carrier)
      (bounds : Option (Bounds type.Carrier)) (hclosed : t.closed = true) :
      Step t (.declare name type default bounds) (.refused (.frozenSchema t.kind)) t
  /-- No name is taken twice. -/
  | declareTaken (name : String) (type : ValueType) (default : type.Carrier)
      (bounds : Option (Bounds type.Carrier)) (hopen : t.closed = false)
      (htaken : name ∈ t.columns.map Prod.fst) :
      Step t (.declare name type default bounds) (.refused (.duplicateProperty t.kind name)) t
  /-- A new holder has the default in every column. -/
  | add (e : EntityId) (hvalid : e.IsValid) (hnew : t.rows e = none) :
      Step t (.add e) .done { t.withRow e (some t.defaults) with closed := true }
  /-- There may be no room for a new holder. -/
  | addFull (e : EntityId) (hvalid : e.IsValid) (hnew : t.rows e = none) (requested : Nat) :
      Step t (.add e) (.refused (.capacityOverflow t.kind requested)) t
  /-- Only ids can hold a kind. -/
  | addInvalid (e : EntityId) (hinvalid : ¬ e.IsValid) :
      Step t (.add e) (.refused (.invalidEntity e)) t
  /-- No entity holds a kind twice. -/
  | addHeld (e : EntityId) (hvalid : e.IsValid) (hheld : (t.rows e).isSome = true) :
      Step t (.add e) (.refused (.duplicateComponent t.kind e)) t
  /-- A row that is removed is forgotten. -/
  | remove (e : EntityId) : Step t (.remove e) (.flag (t.rows e).isSome) (t.withRow e none)
  /-- A value that is set is brought into the bounds, and nothing else changes. -/
  | set (p : Property) (e : EntityId) (x : p.type.Carrier) (row : String → Option TypedValue)
      (hrow : t.rows e = some row) :
      Step t (.set p e x) .done
        (t.withRow e (some (update row p.name ⟨p.type, Property.clampTo p.bounds x⟩)))
  /-- Only holders have values. -/
  | setMissing (p : Property) (e : EntityId) (x : p.type.Carrier) (hnone : t.rows e = none) :
      Step t (.set p e x) (.refused (.missingComponent t.kind e)) t
  /-- A value is read as it was stored. -/
  | get (p : Property) (e : EntityId) (row : String → Option TypedValue) (v : TypedValue)
      (hrow : t.rows e = some row) (hvalue : row p.name = some v) :
      Step t (.get p e) (.value v) t
  /-- Only holders have values. -/
  | getMissing (p : Property) (e : EntityId) (hnone : t.rows e = none) :
      Step t (.get p e) (.refused (.missingComponent t.kind e)) t

/-- A table has no choice, except that an addition may find no room. -/
theorem Step.deterministic {t u v : Table} {call : Call} {first second : Answer}
    (h : Step t call first u) (g : Step t call second v)
    (hroom : ∀ requested, first ≠ .refused (.capacityOverflow t.kind requested) ∧
      second ≠ .refused (.capacityOverflow t.kind requested)) : first = second ∧ u = v := by
  cases h with
  | declare => cases g <;> simp_all
  | declareClosed => cases g <;> simp_all
  | declareTaken => cases g <;> simp_all
  | add => cases g <;> simp_all
  | addFull _ _ _ requested => exact absurd rfl (hroom requested).1
  | addInvalid => cases g <;> simp_all
  | addHeld => cases g <;> simp_all
  | remove =>
      cases g
      exact ⟨rfl, rfl⟩
  | set => cases g <;> simp_all
  | setMissing => cases g <;> simp_all
  | get => cases g <;> simp_all
  | getMissing => cases g <;> simp_all

/-- A table that answers one call after the other. -/
inductive Runs : Table → List (Call × Answer) → Table → Prop where
  | nil (t : Table) : Runs t [] t
  | cons {t u v : Table} {call : Call} {answer : Answer} {trace : List (Call × Answer)}
      (hstep : Step t call answer u) (hruns : Runs u trace v) : Runs t ((call, answer) :: trace) v

end Table

/-! ## Clients -/

/-- A store together with the properties that it has declared. -/
structure Client where
  /-- The store. -/
  store : Store
  /-- The properties in the order of their declaration. -/
  properties : List Property

namespace Client

/-- Nothing has been declared yet. -/
def fresh (name : String) (config : StoreConfig) : Client := ⟨Store.empty name config, []⟩

/-- The store after a call, and its answer. -/
def serve (machine : Machine) (c : Client) : Call → Client × Answer
  | .declare name type default bounds =>
    match Property.declare c.store name type default bounds with
    | (store, .ok p) => (⟨store, c.properties ++ [p]⟩, .done)
    | (store, .error cause) => ({ c with store := store }, .refused cause)
  | .add e =>
    match c.store.insert machine e with
    | (store, .ok _) => ({ c with store := store }, .done)
    | (store, .error cause) => ({ c with store := store }, .refused cause)
  | .remove e =>
    let (store, held) := c.store.remove machine e
    ({ c with store := store }, .flag held)
  | .set p e x =>
    match p.set c.store e x with
    | (store, .ok _) => ({ c with store := store }, .done)
    | (store, .error cause) => ({ c with store := store }, .refused cause)
  | .get p e =>
    match p.get c.store e with
    | .ok x => (c, .value ⟨p.type, x⟩)
    | .error cause => (c, .refused cause)

variable {machine : Machine} {c : Client}

theorem serve_get_ok {p : Property} {e : EntityId} {x : p.type.Carrier}
    (h : p.get c.store e = .ok x) : c.serve machine (.get p e) = (c, .value ⟨p.type, x⟩) := by
  simp only [serve, h]

theorem serve_get_error {p : Property} {e : EntityId} {cause : StoreError}
    (h : p.get c.store e = .error cause) : c.serve machine (.get p e) = (c, .refused cause) := by
  simp only [serve, h]

theorem serve_set_ok {p : Property} {e : EntityId} {x : p.type.Carrier} {store : Store}
    (h : p.set c.store e x = (store, .ok ())) :
    c.serve machine (.set p e x) = ({ c with store := store }, .done) := by
  simp only [serve, h]

theorem serve_set_error {p : Property} {e : EntityId} {x : p.type.Carrier} {store : Store}
    {cause : StoreError} (h : p.set c.store e x = (store, .error cause)) :
    c.serve machine (.set p e x) = ({ c with store := store }, .refused cause) := by
  simp only [serve, h]

theorem serve_declare_ok {name : String} {type : ValueType} {default : type.Carrier}
    {bounds : Option (Bounds type.Carrier)} {store : Store} {slot : Slot}
    (h : c.store.addField name type (Property.clampTo bounds default) = (store, .ok slot)) :
    c.serve machine (.declare name type default bounds) =
      (⟨store, c.properties ++ [⟨name, type, slot, Property.clampTo bounds default, bounds⟩]⟩,
        .done) := by
  simp only [serve, Property.declare, h]
  rfl

theorem serve_declare_error {name : String} {type : ValueType} {default : type.Carrier}
    {bounds : Option (Bounds type.Carrier)} {store : Store} {cause : StoreError}
    (h : c.store.addField name type (Property.clampTo bounds default) = (store, .error cause)) :
    c.serve machine (.declare name type default bounds) =
      ({ c with store := store }, .refused cause) := by
  simp only [serve, Property.declare, h]
  rfl

theorem serve_remove (e : EntityId) :
    c.serve machine (.remove e) =
      ({ c with store := (c.store.remove machine e).1 }, .flag (c.store.contains e)) := by
  rw [← Store.remove_answer machine e]
  rfl

theorem serve_add_ok {e : EntityId} {store : Store} (h : c.store.insert machine e = (store, .ok ())) :
    c.serve machine (.add e) = ({ c with store := store }, .done) := by
  simp only [serve, h]

theorem serve_add_error {e : EntityId} {store : Store} {cause : StoreError}
    (h : c.store.insert machine e = (store, .error cause)) :
    c.serve machine (.add e) = ({ c with store := store }, .refused cause) := by
  simp only [serve, h]

/-- The calls that a client may make: it uses its own properties, and it declares properties of
built-in types, which are refused for a closed list or a taken name only. -/
def Permits (c : Client) : Call → Prop
  | .declare name type default bounds =>
    match (Property.declare c.store name type default bounds).2 with
    | .ok _ => type.isBuiltIn = true
    | .error cause =>
      (∃ kind, cause = .frozenSchema kind) ∨ ∃ kind taken, cause = .duplicateProperty kind taken
  | .add _ => True
  | .remove _ => True
  | .set p _ _ => p ∈ c.properties
  | .get p _ => p ∈ c.properties

/-- A client that makes one call after the other. -/
inductive Runs (machine : Machine) : Client → List (Call × Answer) → Client → Prop where
  | nil (c : Client) : Runs machine c [] c
  | cons {c next d : Client} {call : Call} {answer : Answer} {trace : List (Call × Answer)}
      (hpermits : c.Permits call) (hserve : c.serve machine call = (next, answer))
      (hruns : Runs machine next trace d) : Runs machine c ((call, answer) :: trace) d

end Client

/-! ## The relation -/

/-- A table describes a client: it has the columns that were declared, and a row for every holder
with the values that are stored for it. -/
structure Table.Describes (t : Table) (c : Client) : Prop where
  /-- The store hangs together. -/
  consistent : c.store.Consistent
  /-- The names are the same. -/
  kind : t.kind = c.store.name
  /-- So is whether the list of properties is closed. -/
  closed : t.closed = c.store.frozen
  /-- The columns are the declared properties. -/
  columns : t.columns = c.store.layout.fields.map fun f => (f.name, ⟨f.type, f.default⟩)
  /-- The properties of the client are declared. -/
  declared : ∀ p ∈ c.properties, p.field ∈ c.store.layout.fields
  /-- The holders have rows. -/
  held : ∀ e, (t.rows e).isSome = true ↔ e ∈ c.store.holders
  /-- A row has what is stored. -/
  stored : ∀ e row, t.rows e = some row → ∀ f ∈ c.store.layout.fields,
    ∃ x, row f.name = some ⟨f.type, x⟩ ∧ c.store.Stores f e x

namespace Table

variable {t : Table} {c : Client} {machine : Machine}

theorem describes_fresh (name : String) (config : StoreConfig) :
    (empty name).Describes (Client.fresh name config) where
  consistent := Store.consistent_empty name config
  kind := rfl
  closed := rfl
  columns := rfl
  declared p hp := by cases hp
  held e := by simp [empty, Client.fresh, Store.empty, Store.holders, IdMap.mem_keys]
  stored e row hrow := by cases hrow

theorem Describes.row_eq_none (h : t.Describes c) {e : EntityId} :
    t.rows e = none ↔ e ∉ c.store.holders := by
  rw [← h.held e]
  cases t.rows e <;> simp

theorem Describes.names (h : t.Describes c) :
    t.columns.map Prod.fst = c.store.layout.names := by
  rw [h.columns, List.map_map]
  rfl

/-- The default of a declared property stands in its column. -/
theorem Describes.defaults_eq (h : t.Describes c) {f : Field}
    (hf : f ∈ c.store.layout.fields) : t.defaults f.name = some ⟨f.type, f.default⟩ := by
  have hnamed := h.consistent.sound.named
  unfold defaults Layout.names at *
  rw [h.columns]
  -- the names are distinct, so the search by name comes to this field and no other
  generalize c.store.layout.fields = fields at hf hnamed
  induction fields with
  | nil => cases hf
  | cons first rest ih =>
      rw [List.map_cons, List.nodup_cons] at hnamed
      rw [List.map_cons, List.lookup_cons]
      rcases List.mem_cons.1 hf with rfl | hrest
      · simp
      · have hne : f.name ≠ first.name := by
          intro heq
          exact hnamed.1 (heq ▸ List.mem_map_of_mem hrest)
        rw [beq_eq_false_iff_ne.2 hne]
        exact ih hrest hnamed.2

/-- A table follows a client through a call. -/
def Follows (t : Table) (call : Call) (served : Client × Answer) : Prop :=
  ∃ u, Step t call served.2 u ∧ u.Describes served.1

theorem Describes.follows_get (h : t.Describes c) {p : Property} (hp : p ∈ c.properties)
    (e : EntityId) : t.Follows (.get p e) (c.serve machine (.get p e)) := by
  cases hrow : t.rows e with
  | none =>
      have hmissing := Store.get_missing p (h.row_eq_none.1 hrow)
      rw [Client.serve_get_error hmissing, Store.missing, ← h.kind]
      exact ⟨t, .getMissing p e hrow, h⟩
  | some row =>
      obtain ⟨x, hx, hstores⟩ := h.stored e row hrow p.field (h.declared p hp)
      rw [Client.serve_get_ok hstores.get]
      exact ⟨t, .get p e row _ hrow hx, h⟩

theorem Describes.follows_set (h : t.Describes c) {p : Property} (hp : p ∈ c.properties)
    (e : EntityId) (x : p.type.Carrier) :
    t.Follows (.set p e x) (c.serve machine (.set p e x)) := by
  cases hrow : t.rows e with
  | none =>
      have hmissing := Store.set_missing p (h.row_eq_none.1 hrow) x
      rw [Client.serve_set_error hmissing, Store.missing, ← h.kind]
      exact ⟨t, .setMissing p e x hrow, h⟩
  | some row =>
      have hfield := h.declared p hp
      have he : e ∈ c.store.holders := (h.held e).1 (by rw [hrow]; rfl)
      obtain ⟨store, hset⟩ := Store.set_succeeds h.consistent hfield he x
      have hwritten := Store.set_written h.consistent.packed p e x
      have hrewritten := Store.rewritten_set h.consistent.packed p e x
      rw [hset] at hwritten hrewritten
      obtain ⟨hname, -, hlayout, -, hfrozen, -, -⟩ := hrewritten.frame
      rw [Client.serve_set_ok hset]
      refine ⟨_, .set p e x row hrow, ?_⟩
      refine
        { consistent := hrewritten.consistent h.consistent, kind := ?_, closed := ?_,
          columns := ?_, declared := ?_, held := ?_, stored := ?_ }
      · exact h.kind.trans hname.symm
      · exact h.closed.trans hfrozen.symm
      · exact h.columns.trans (by rw [hlayout])
      · intro q hq
        rw [hlayout]
        exact h.declared q hq
      · intro y
        rw [hrewritten.holders, ← h.held y]
        show (if y = e then _ else t.rows y).isSome = true ↔ _
        split
        · rename_i hy
          rw [hy, hrow]
          exact Iff.rfl
        · exact Iff.rfl
      · intro y yrow hyrow f hf
        rw [hlayout] at hf
        replace hyrow : (if y = e then some (update row p.name ⟨p.type, Property.clampTo p.bounds x⟩)
          else t.rows y) = some yrow := hyrow
        split at hyrow
        · rename_i hy
          obtain rfl := Option.some.inj hyrow
          rw [hy]
          -- in the row of the entity itself only the cell that was set is new
          by_cases hfp : f.name = p.name
          · have hsame : f = p.field := Layout.eq_of_name h.consistent.sound.named hf hfield hfp
            subst hsame
            refine ⟨Property.clampTo p.bounds x, ?_, Store.stores_written h.consistent hfield hwritten⟩
            exact if_pos hfp
          · obtain ⟨v, hv, hstores⟩ := h.stored e row hrow f hf
            refine ⟨v, ?_, Store.stores_of_other_field h.consistent hfield hwritten hf hfp hstores⟩
            rw [update, if_neg hfp, hv]
        · rename_i hy
          obtain ⟨v, hv, hstores⟩ := h.stored y yrow hyrow f hf
          -- the rows of others are kept in blocks and entries of their own
          have hsame := Store.undisturbed_written h.consistent.packed hwritten hy
          exact ⟨v, hv, hstores.undisturbed hsame⟩

theorem Describes.follows_remove (h : t.Describes c) (e : EntityId) :
    t.Follows (.remove e) (c.serve machine (.remove e)) := by
  have hpacked := h.consistent.packed
  obtain ⟨hlayout, hname, hfrozen, hsides⟩ := Store.remove_frame (s := c.store) machine e
  have hflag : c.store.contains e = (t.rows e).isSome := by
    rw [Bool.eq_iff_iff, h.held e, Store.contains_eq_true]
  rw [Client.serve_remove, hflag]
  refine ⟨_, .remove e, ?_⟩
  refine
    { consistent := ⟨Store.packed_remove hpacked machine e, ?_, ?_⟩, kind := ?_, closed := ?_,
      columns := ?_, declared := ?_, held := ?_, stored := ?_ }
  · rw [hlayout]
    exact h.consistent.sound
  · rw [hlayout, ← h.consistent.sides_length]
    rcases hsides with ⟨hsame, -⟩ | herased
    · rw [hsame]
    · rw [herased, List.length_map]
  · exact h.kind.trans hname.symm
  · exact h.closed.trans hfrozen.symm
  · exact h.columns.trans (by rw [hlayout])
  · intro q hq
    rw [hlayout]
    exact h.declared q hq
  · intro y
    rw [Store.mem_holders_remove hpacked, ← h.held y]
    show (if y = e then none else t.rows y).isSome = true ↔ _
    split
    · rename_i hy
      simp [hy]
    · rename_i hy
      simp [hy]
  · intro y yrow hyrow f hf
    rw [hlayout] at hf
    replace hyrow : (if y = e then none else t.rows y) = some yrow := hyrow
    split at hyrow
    · cases hyrow
    · rename_i hy
      obtain ⟨v, hv, hstores⟩ := h.stored y yrow hyrow f hf
      exact ⟨v, hv, hstores.undisturbed (Store.undisturbed_remove hpacked machine hy)⟩

/-- A refused insertion has changed nothing: a sound layout has the right template. -/
theorem Describes.insert_refused (h : t.Describes c) {e : EntityId} {store : Store}
    {cause : StoreError} (hstep : Store.Inserted machine c.store e store (.error cause)) :
    store = c.store := by
  cases hstep with
  | invalid => rfl
  | held => rfl
  | full => rfl
  | misfit _ _ _ _ _ htemplate => exact absurd h.consistent.sound.template_length htemplate

theorem Describes.follows_add (h : t.Describes c) (e : EntityId) :
    t.Follows (.add e) (c.serve machine (.add e)) := by
  have hpacked := h.consistent.packed
  have hstep := Store.insert_inserted hpacked machine e
  have hothers := fun x (hx : x ≠ e) => Store.undisturbed_insert hpacked machine hx
  cases hresult : c.store.insert machine e with
  | mk store answer =>
      rw [hresult] at hstep hothers
      cases answer with
      | error cause =>
          have hunchanged : store = c.store := h.insert_refused hstep
          have hanswer : Step t (.add e) (.refused cause) t := by
            cases hstep with
            | invalid hinvalid => exact .addInvalid e hinvalid
            | held hvalid hheld =>
                rw [← h.kind]
                exact .addHeld e hvalid ((h.held e).2 hheld)
            | full hvalid hnew requested =>
                rw [← h.kind]
                exact .addFull e hvalid (h.row_eq_none.2 hnew) requested
            -- a template of the wrong length, which no sound layout has
            | misfit _ _ _ _ _ htemplate =>
                exact absurd h.consistent.sound.template_length htemplate
          rw [Client.serve_add_error hresult, hunchanged]
          exact ⟨t, hanswer, h⟩
      | ok done =>
          obtain ⟨hlayout, hname, hsides, -, hclosed⟩ := hstep.frame
          have hmem := hstep.mem_holders hpacked
          obtain ⟨hvalid, hnew⟩ := hstep.valid_and_new
          rw [Client.serve_add_ok hresult]
          refine ⟨_, .add e hvalid (h.row_eq_none.2 hnew), ?_⟩
          refine
            { consistent := ⟨hstep.packed hpacked, ?_, ?_⟩, kind := ?_, closed := ?_,
              columns := ?_, declared := ?_, held := ?_, stored := ?_ }
          · rw [hlayout]
            exact h.consistent.sound
          · rw [hlayout, hsides]
            exact h.consistent.sides_length
          · exact h.kind.trans hname.symm
          · exact (hclosed rfl).symm
          · exact h.columns.trans (by rw [hlayout])
          · intro q hq
            rw [hlayout]
            exact h.declared q hq
          · intro y
            rw [hmem y, ← h.held y]
            show (if y = e then some t.defaults else t.rows y).isSome = true ↔ _
            split
            · rename_i hy
              simp [hy]
            · rename_i hy
              simp [hy]
          · intro y yrow hyrow f hf
            rw [hlayout] at hf
            replace hyrow : (if y = e then some t.defaults else t.rows y) = some yrow := hyrow
            split at hyrow
            · rename_i hy
              obtain rfl := Option.some.inj hyrow
              rw [hy]
              exact ⟨f.default, h.defaults_eq hf, Store.stores_default h.consistent hstep hf⟩
            · rename_i hy
              obtain ⟨v, hv, hstores⟩ := h.stored y yrow hyrow f hf
              exact ⟨v, hv, hstores.undisturbed (hothers y hy)⟩

theorem Describes.follows_declare (h : t.Describes c) (name : String) (type : ValueType)
    (default : type.Carrier) (bounds : Option (Bounds type.Carrier))
    (hpermits : c.Permits (.declare name type default bounds)) :
    t.Follows (.declare name type default bounds)
      (c.serve machine (.declare name type default bounds)) := by
  have hslots : (Property.declare c.store name type default bounds).2 =
      (c.store.addField name type (Property.clampTo bounds default)).2.map fun slot =>
        ⟨name, type, slot, Property.clampTo bounds default, bounds⟩ := rfl
  have hbuiltIn : ∀ slot,
      (c.store.addField name type (Property.clampTo bounds default)).2 = .ok slot →
      type.isBuiltIn = true := by
    intro slot hslot
    simp only [Client.Permits, hslots, hslot, Except.map] at hpermits
    exact hpermits
  have hencodes : ∀ property expected,
      (c.store.addField name type (Property.clampTo bounds default)).2 ≠
        .error (.valueTypeMismatch property expected) := by
    intro property expected herror
    simp only [Client.Permits, hslots, herror, Except.map] at hpermits
    rcases hpermits with ⟨kind, hcause⟩ | ⟨kind, taken, hcause⟩ <;> cases hcause
  rcases Store.addField_cases h.consistent name type _ hbuiltIn hencodes with
    ⟨hclosed, hresult⟩ | ⟨hopen, htaken, hresult⟩ |
      ⟨hopen, hnew, store, slot, hresult, hconsistent, hname, hstillOpen, hholders, hfields⟩
  · rw [Client.serve_declare_error hresult, ← h.kind]
    exact ⟨t, .declareClosed name type default bounds (h.closed.trans hclosed), h⟩
  · rw [Client.serve_declare_error hresult, ← h.kind]
    refine ⟨t, .declareTaken name type default bounds (h.closed.trans hopen) ?_, h⟩
    rw [h.names]
    exact htaken
  · rw [Client.serve_declare_ok hresult]
    have hnewTable : name ∉ t.columns.map Prod.fst := by
      rw [h.names]
      exact hnew
    refine ⟨_, .declare name type default bounds (h.closed.trans hopen) hnewTable, ?_⟩
    -- the list is open, so there is no row yet that would lack the new column
    have hnobody : ∀ e, e ∉ c.store.holders := fun e he =>
      absurd (h.consistent.packed.frozen_of_holder he) (by rw [hopen]; exact Bool.false_ne_true)
    refine
      { consistent := hconsistent, kind := h.kind.trans hname.symm,
        closed := (h.closed.trans hopen).trans hstillOpen.symm, columns := ?_, declared := ?_,
        held := ?_, stored := ?_ }
    · show t.columns ++ [_] = _
      rw [hfields, h.columns, List.map_append]
      rfl
    · intro p hp
      rw [hfields]
      rcases List.mem_append.1 hp with hold | hlast
      · exact List.mem_append_left _ (h.declared p hold)
      · obtain rfl := List.mem_singleton.1 hlast
        exact List.mem_append_right _ List.mem_cons_self
    · intro e
      rw [hholders]
      exact h.held e
    · intro e row hrow
      exact absurd ((h.held e).1 (by rw [hrow]; rfl)) (hnobody e)

/-- A table follows a client through every call that the client may make. -/
theorem Describes.follows (h : t.Describes c) {call : Call} (hpermits : c.Permits call) :
    t.Follows call (c.serve machine call) := by
  cases call with
  | declare name type default bounds => exact h.follows_declare name type default bounds hpermits
  | add e => exact h.follows_add e
  | remove e => exact h.follows_remove e
  | set p e x => exact h.follows_set hpermits e x
  | get p e => exact h.follows_get hpermits e

theorem Describes.runs (h : t.Describes c) {trace : List (Call × Answer)} {d : Client}
    (hruns : Client.Runs machine c trace d) : ∃ u, Runs t trace u ∧ u.Describes d := by
  induction hruns generalizing t with
  | nil c => exact ⟨t, .nil t, h⟩
  | @cons first _ _ call _ _ hpermits hserve _ ih =>
      have hfollows : t.Follows call (first.serve machine call) := h.follows hpermits
      rw [hserve] at hfollows
      obtain ⟨u, hstep, hdescribes⟩ := hfollows
      obtain ⟨v, hruns, hlast⟩ := ih hdescribes
      exact ⟨v, .cons hstep hruns, hlast⟩

end Table

/-- Whatever calls a store is given, its answers are those of a table, and the table describes
what it holds in the end. -/
theorem store_refines_table (machine : Machine) (name : String) (config : StoreConfig)
    {trace : List (Call × Answer)} {c : Client}
    (hruns : Client.Runs machine (Client.fresh name config) trace c) :
    ∃ t, Table.Runs (Table.empty name) trace t ∧ t.Describes c :=
  (Table.describes_fresh name config).runs hruns

end EntityStore

namespace EntityStore

attribute [local instance] CustomTypes.none

/-- A value is read, set and read again, and then the holder goes. -/
theorem store_refines_table_one_holder :
    let points : Property := ⟨"points", .word (.signed .w32), .packed 0, (7 : BitVec 32), none⟩
    ∃ t, Table.Runs (.empty "Health")
      [(.declare "points" points.type (7 : BitVec 32) none, .done), (.add 5, .done),
        (.get points 5, .value ⟨points.type, (7 : BitVec 32)⟩), (.set points 5 (9 : BitVec 32), .done),
        (.get points 5, .value ⟨points.type, (9 : BitVec 32)⟩), (.remove 5, .flag true)] t := by
  intro points
  let small : StoreConfig := { StoreConfig.default with expectedCapacity := 2 }
  have hruns : ∃ c, Client.Runs .standard (Client.fresh "Health" small)
      [(.declare "points" points.type (7 : BitVec 32) none, .done), (.add 5, .done),
        (.get points 5, .value ⟨points.type, (7 : BitVec 32)⟩), (.set points 5 (9 : BitVec 32), .done),
        (.get points 5, .value ⟨points.type, (9 : BitVec 32)⟩), (.remove 5, .flag true)] c := by
    refine ⟨?last, ?run⟩
    case run =>
      refine .cons rfl rfl ?_
      refine .cons trivial rfl ?_
      refine .cons (List.mem_singleton.2 rfl) (by with_unfolding_all rfl) ?_
      refine .cons (List.mem_singleton.2 rfl) (by with_unfolding_all rfl) ?_
      refine .cons (List.mem_singleton.2 rfl) (by with_unfolding_all rfl) ?_
      refine .cons trivial (Client.serve_remove 5) ?_
      exact .nil _
  obtain ⟨c, hruns⟩ := hruns
  obtain ⟨t, htable, -⟩ := store_refines_table .standard "Health" small hruns
  exact ⟨t, htable⟩

end EntityStore
