import EntityStore.Id.Basic

/-!
# Finite sets of ids

A set of ids is kept as its ascending list.  The list is part of the type together with the proof
that it is strictly ascending, so a set has one representation: two sets with the same members are
equal (`IdSet.ext`), and every walk over a set visits its members in ascending order.
-/

namespace EntityStore

/-- A finite set of ids: the strictly ascending list of its members. -/
structure IdSet where
  /-- The members, ascending. -/
  toList : List EntityId
  /-- No member is repeated and none is out of order. -/
  ascending : toList.Pairwise (· < ·)
  deriving DecidableEq

namespace IdSet

instance : Membership EntityId IdSet where
  mem s e := e ∈ s.toList

instance (e : EntityId) (s : IdSet) : Decidable (e ∈ s) :=
  inferInstanceAs (Decidable (e ∈ s.toList))

theorem mem_toList {e : EntityId} {s : IdSet} : e ∈ s.toList ↔ e ∈ s := Iff.rfl

/-- Put an id at its place in an ascending list, once. -/
def placeId (e : EntityId) : List EntityId → List EntityId
  | [] => [e]
  | x :: xs => if e < x then e :: x :: xs else if e = x then x :: xs else x :: placeId e xs

theorem mem_placeId {x e : EntityId} {l : List EntityId} : x ∈ placeId e l ↔ x = e ∨ x ∈ l := by
  induction l with
  | nil => simp [placeId]
  | cons y ys ih =>
    unfold placeId
    split
    · simp
    · split
      · subst_vars
        simp
      · simp only [List.mem_cons, ih]
        constructor
        · rintro (h | h | h) <;> simp [h]
        · rintro (h | h | h) <;> simp [h]

theorem pairwise_placeId {e : EntityId} {l : List EntityId} (h : l.Pairwise (· < ·)) :
    (placeId e l).Pairwise (· < ·) := by
  induction l with
  | nil => simp [placeId]
  | cons y ys ih =>
    rw [List.pairwise_cons] at h
    obtain ⟨hhead, htail⟩ := h
    unfold placeId
    split
    · rename_i hlt
      refine List.pairwise_cons.2 ⟨?_, List.pairwise_cons.2 ⟨hhead, htail⟩⟩
      intro z hz
      rcases List.mem_cons.1 hz with rfl | hz
      · exact hlt
      · exact Nat.lt_trans hlt (hhead z hz)
    · split
      · exact List.pairwise_cons.2 ⟨hhead, htail⟩
      · rename_i hge hne
        refine List.pairwise_cons.2 ⟨?_, ih htail⟩
        intro z hz
        rcases mem_placeId.1 hz with rfl | hz
        · exact Nat.lt_of_le_of_ne (Nat.le_of_not_lt hge) (Ne.symm hne)
        · exact hhead z hz

theorem pairwise_nil : ([] : List EntityId).Pairwise (· < ·) := List.Pairwise.nil

/-- The set without members. -/
def empty : IdSet := ⟨[], pairwise_nil⟩

instance : EmptyCollection IdSet := ⟨empty⟩

instance : Inhabited IdSet := ⟨empty⟩

/-- The set with one more member. -/
def insert (s : IdSet) (e : EntityId) : IdSet := ⟨placeId e s.toList, pairwise_placeId s.ascending⟩

/-- The members that pass a test. -/
def filter (s : IdSet) (keep : EntityId → Bool) : IdSet :=
  ⟨s.toList.filter keep, s.ascending.filter keep⟩

/-- The set without one id. -/
def erase (s : IdSet) (e : EntityId) : IdSet := s.filter (· != e)

/-- The number of members. -/
def size (s : IdSet) : Nat := s.toList.length

/-- Is there no member? -/
def isEmpty (s : IdSet) : Bool := s.toList.isEmpty

/-- The set of the ids in a list. -/
def ofList (l : List EntityId) : IdSet := l.foldl insert empty

@[simp] theorem not_mem_empty (e : EntityId) : ¬ e ∈ (∅ : IdSet) := by
  rw [← mem_toList]
  exact List.not_mem_nil

@[simp] theorem mem_insert {s : IdSet} {x e : EntityId} : x ∈ s.insert e ↔ x = e ∨ x ∈ s :=
  mem_placeId

@[simp] theorem mem_filter {s : IdSet} {keep : EntityId → Bool} {x : EntityId} :
    x ∈ s.filter keep ↔ x ∈ s ∧ keep x = true :=
  List.mem_filter

@[simp] theorem mem_erase {s : IdSet} {x e : EntityId} : x ∈ s.erase e ↔ x ∈ s ∧ x ≠ e := by
  simp [erase]

/-- A set is known by its members. -/
@[ext] theorem ext {s t : IdSet} (h : ∀ e, e ∈ s ↔ e ∈ t) : s = t := by
  obtain ⟨l, hl⟩ := s
  obtain ⟨r, hr⟩ := t
  have hlists : l = r := by
    replace h : ∀ e, e ∈ l ↔ e ∈ r := h
    induction l generalizing r with
    | nil =>
      cases r with
      | nil => rfl
      | cons b bs => exact absurd ((h b).2 (by simp)) (by simp)
    | cons a as ih =>
      cases r with
      | nil => exact absurd ((h a).1 (by simp)) (by simp)
      | cons b bs =>
        rw [List.pairwise_cons] at hl hr
        have hab : a = b := by
          rcases List.mem_cons.1 ((h a).1 (by simp)) with hab | ha
          · exact hab
          · rcases List.mem_cons.1 ((h b).2 (by simp)) with hba | hb
            · exact hba.symm
            · exact absurd (Nat.lt_trans (hl.1 b hb) (hr.1 a ha)) (Nat.lt_irrefl a)
        subst hab
        have htails : as = bs := ih hl.2 bs hr.2 fun e => by
          constructor
          · intro he
            rcases List.mem_cons.1 ((h e).1 (List.mem_cons_of_mem a he)) with rfl | hb
            · exact absurd (hl.1 e he) (Nat.lt_irrefl e)
            · exact hb
          · intro he
            rcases List.mem_cons.1 ((h e).2 (List.mem_cons_of_mem a he)) with rfl | hb
            · exact absurd (hr.1 e he) (Nat.lt_irrefl e)
            · exact hb
        rw [htails]
  subst hlists
  rfl

end IdSet

end EntityStore
