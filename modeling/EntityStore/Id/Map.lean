import EntityStore.Id.Set

/-!
# Finite maps from ids

A map from ids keeps its entries in ascending order of their ids, each id once.  As for `IdSet`
the order is part of the type.  `IdMap.lookup_insert` and `IdMap.lookup_erase` say all there is
to say about the two operations.
-/

namespace EntityStore

/-- A finite map from ids: its entries in ascending order of their ids. -/
structure IdMap (β : Type) where
  /-- The entries, ascending. -/
  entries : List (EntityId × β)
  /-- No id is repeated and none is out of order. -/
  ascending : (entries.map Prod.fst).Pairwise (· < ·)

namespace IdMap

variable {β : Type}

/-- Put an entry at its place in an ascending list, instead of an entry with the same id. -/
def placeEntry (e : EntityId) (b : β) : List (EntityId × β) → List (EntityId × β)
  | [] => [(e, b)]
  | x :: xs =>
    if e < x.1 then (e, b) :: x :: xs
    else if e = x.1 then (e, b) :: xs
    else x :: placeEntry e b xs

theorem map_fst_placeEntry (e : EntityId) (b : β) (l : List (EntityId × β)) :
    (placeEntry e b l).map Prod.fst = IdSet.placeId e (l.map Prod.fst) := by
  induction l with
  | nil => rfl
  | cons x xs ih =>
    simp only [placeEntry, List.map_cons, IdSet.placeId]
    split
    · rfl
    · split
      · rename_i h
        simp [h]
      · simp [ih]

/-- The map without entries. -/
def empty : IdMap β := ⟨[], IdSet.pairwise_nil⟩

instance : EmptyCollection (IdMap β) := ⟨empty⟩

instance : Inhabited (IdMap β) := ⟨empty⟩

/-- The ids that have an entry. -/
def keys (m : IdMap β) : IdSet := ⟨m.entries.map Prod.fst, m.ascending⟩

/-- What stands under an id, if anything. -/
def lookup (m : IdMap β) (e : EntityId) : Option β := m.entries.lookup e

/-- Does an id have an entry? -/
def contains (m : IdMap β) (e : EntityId) : Bool := (m.lookup e).isSome

/-- The map with one entry set. -/
def insert (m : IdMap β) (e : EntityId) (b : β) : IdMap β where
  entries := placeEntry e b m.entries
  ascending := by
    rw [map_fst_placeEntry]
    exact IdSet.pairwise_placeId m.ascending

/-- The map without the entry of one id. -/
def erase (m : IdMap β) (e : EntityId) : IdMap β where
  entries := m.entries.filter (·.1 != e)
  ascending := m.ascending.sublist (List.filter_sublist.map Prod.fst)

/-- The number of entries. -/
def size (m : IdMap β) : Nat := m.entries.length

theorem lookup_placeEntry (e x : EntityId) (b : β) {l : List (EntityId × β)}
    (h : (l.map Prod.fst).Pairwise (· < ·)) :
    (placeEntry e b l).lookup x = if x = e then some b else l.lookup x := by
  induction l with
  | nil =>
    by_cases hx : x = e
    · simp [placeEntry, hx]
    · simp [placeEntry, List.lookup_cons, beq_eq_false_iff_ne.2 hx, hx]
  | cons y ys ih =>
    obtain ⟨key, c⟩ := y
    have htail := ih (List.pairwise_cons.1 h).2
    unfold placeEntry
    split
    · by_cases hx : x = e
      · simp [hx]
      · simp [List.lookup_cons, beq_eq_false_iff_ne.2 hx, hx]
    · split
      · rename_i heq
        by_cases hx : x = e
        · simp [hx]
        · have hkey : x ≠ key := fun hxk => hx (hxk.trans heq.symm)
          simp [List.lookup_cons, beq_eq_false_iff_ne.2 hx, beq_eq_false_iff_ne.2 hkey, hx]
      · rename_i hlt hne
        by_cases hxk : x = key
        · have hx : x ≠ e := fun hxe => hne (hxe.symm.trans hxk)
          simp [hxk, hxk ▸ hx]
        · simp [List.lookup_cons, beq_eq_false_iff_ne.2 hxk, htail]

/-- An insertion sets one entry and leaves all others. -/
theorem lookup_insert (m : IdMap β) (e x : EntityId) (b : β) :
    (m.insert e b).lookup x = if x = e then some b else m.lookup x :=
  lookup_placeEntry e x b m.ascending

/-- An erasure takes one entry away and leaves all others. -/
theorem lookup_erase (m : IdMap β) (e x : EntityId) :
    (m.erase e).lookup x = if x = e then none else m.lookup x := by
  show (m.entries.filter (·.1 != e)).lookup x = if x = e then none else m.entries.lookup x
  induction m.entries with
  | nil => simp
  | cons y ys ih =>
    obtain ⟨key, c⟩ := y
    by_cases hkey : key = e
    · have hdropped : ((key, c) :: ys).filter (·.1 != e) = ys.filter (·.1 != e) := by simp [hkey]
      rw [hdropped, ih]
      by_cases hx : x = e
      · simp [hx]
      · have hxk : x ≠ key := fun h => hx (h.trans hkey)
        simp [List.lookup_cons, beq_eq_false_iff_ne.2 hxk, hx]
    · by_cases hxk : x = key
      · simp [hkey, hxk]
      · simp [hkey, List.lookup_cons, beq_eq_false_iff_ne.2 hxk, ih]

@[simp] theorem lookup_empty (x : EntityId) : (∅ : IdMap β).lookup x = none := rfl

/-- The ids with an entry are those under which something stands. -/
theorem mem_keys {m : IdMap β} {x : EntityId} : x ∈ m.keys ↔ (m.lookup x).isSome = true := by
  show x ∈ m.entries.map Prod.fst ↔ (m.entries.lookup x).isSome = true
  induction m.entries with
  | nil => simp
  | cons y ys ih =>
    obtain ⟨key, c⟩ := y
    by_cases hxk : x = key
    · simp [hxk]
    · rw [List.map_cons, List.mem_cons, List.lookup_cons, beq_eq_false_iff_ne.2 hxk, ih]
      simp [hxk]

theorem contains_iff {m : IdMap β} {x : EntityId} : m.contains x = true ↔ x ∈ m.keys :=
  mem_keys.symm

end IdMap

end EntityStore
