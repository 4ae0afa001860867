import EntityStore.Proofs.Store.Removal
import EntityStore.Proofs.Value.Codec
import EntityStore.Store.Values

/-!
# Writes keep the store packed

A write changes the bytes of one block, or one entry of a side map, and moves nothing.  A write that
its codec refuses may have changed bytes as well.

* `Store.Rewritten`: what a write makes of a store, whatever it answers.
* `Store.writePacked_of_lookup`: what a write does to the block of a holder.
* `Store.rewritten_writePacked`, `Store.rewritten_writeSide`: all writes do what is listed.
* `Store.Rewritten.packed`: and so they keep the invariant.
-/

namespace EntityStore

variable [CustomTypes]

namespace Store

variable {s t : Store}

/-- Only the bytes of blocks have changed: every block keeps its tag and its length. -/
theorem Packed.rewrite (h : s.Packed) {e : EntityId} {i : Nat} {old new : List UInt8}
    (hplace : s.index.lookup e = some (some i)) (hold : s.blocks[i]? = some ⟨e, old⟩)
    (hlength : new.length = old.length) :
    ({ s with blocks := s.blocks.set i ⟨e, new⟩ } : Store).Packed := by
  have hholder := (h.agrees e i).1 hplace
  have hi := lt_length_of_holderIn hholder
  rw [holderIn_of_getElem? hold] at hholder
  have htag : (⟨e, new⟩ : Block).holder? = some e := hholder
  have hplaces : ∀ j, holderIn (s.blocks.set i ⟨e, new⟩) j = holderIn s.blocks j := by
    intro j
    rw [holderIn_set hi]
    split
    · rename_i hji
      rw [hji, holderIn_of_getElem? hold, htag, hholder]
    · rfl
  refine
    { shaped := ?_, blank := ?_, ascending := h.ascending.congr hplaces, agrees := ?_,
      housed := h.housed, highest := ?_, expected := ?_, unblocked := ?_, unused := ?_,
      sided := h.sided }
  · intro b hb
    rcases List.mem_or_eq_of_mem_set hb with hmem | rfl
    · exact h.shaped b hmem
    · exact hlength.trans (h.shaped _ (List.mem_of_getElem? hold))
  · intro b hb hfree
    rcases List.mem_or_eq_of_mem_set hb with hmem | rfl
    · exact h.blank b hmem hfree
    · exact absurd hfree (by simp [(Block.holder?_eq_some.1 htag).1])
  · intro x j
    exact (h.agrees x j).trans (by rw [hplaces])
  · have hhigh := h.highest
    dsimp only
    cases htop : s.highest with
    | none =>
        rw [htop] at hhigh
        exact fun j => (hplaces j).trans (hhigh j)
    | some top =>
        rw [htop] at hhigh
        exact ⟨by rw [hplaces]; exact hhigh.1, fun j hj => (hplaces j).trans (hhigh.2 j hj)⟩
  · simpa [capacity] using h.expected
  · intro hunfixed
    rw [h.unblocked hunfixed] at hi
    exact absurd hi (Nat.not_lt_zero i)
  · intro hopen
    exact absurd ((h.unused hopen).2 e) (by simp [hplace])

/-- What a write makes of a store, whatever it answers. -/
inductive Rewritten (s : Store) : Store → Prop where
  /-- The write was refused before it touched anything. -/
  | untouched : Rewritten s s
  /-- The bytes of one block may have changed. -/
  | block (e : EntityId) (i : Nat) (old new : List UInt8)
      (hplace : s.index.lookup e = some (some i)) (hold : s.blocks[i]? = some ⟨e, old⟩)
      (hlength : new.length = old.length) :
      Rewritten s { s with blocks := s.blocks.set i ⟨e, new⟩ }
  /-- One entry of a side map has been made. -/
  | side (e : EntityId) (i : Nat) (v : TypedValue) (he : e ∈ s.holders)
      (hi : i < s.sides.length) :
      Rewritten s { s with sides := s.sides.modify i fun values => values.insert e v }

/-- The block that the index leads to is the one with the tag of the holder. -/
theorem Packed.exists_block_of_lookup (h : s.Packed) {e : EntityId} {i : Nat}
    (hplace : s.index.lookup e = some (some i)) : ∃ data, s.blocks[i]? = some ⟨e, data⟩ := by
  have hholder := (h.agrees e i).1 hplace
  have hi := lt_length_of_holderIn hholder
  have hget := List.getElem?_eq_getElem hi
  rw [holderIn_of_getElem? hget] at hholder
  refine ⟨s.blocks[i].data, hget.trans (congrArg some ?_)⟩
  rw [← (Block.holder?_eq_some.1 hholder).2]

/-- What a write does to the block of a holder: the bytes are those that the codec leaves, whether it
accepts the value or not. -/
theorem writePacked_of_lookup {type : ValueType} {e : EntityId} {i : Nat} {old : List UInt8}
    (hplace : s.index.lookup e = some (some i)) (hold : s.blocks[i]? = some ⟨e, old⟩) (offset : Nat)
    (x : type.Carrier) (property : String) :
    s.writePacked type e offset x property =
      ({ s with blocks := s.blocks.set i ⟨e, (type.write x old offset).1⟩ },
        if (type.write x old offset).2 then .ok ()
        else .error (.valueTypeMismatch property type.name)) := by
  unfold writePacked
  rw [blockIndex_eq_ok.2 hplace]
  simp only [hold]

/-- An entity without a block is refused, and nothing is touched. -/
theorem writePacked_of_error {type : ValueType} {e : EntityId} {cause : StoreError}
    (hcause : s.blockIndex e = .error cause) (offset : Nat) (x : type.Carrier) (property : String) :
    s.writePacked type e offset x property = (s, .error cause) := by
  unfold writePacked
  rw [hcause]

theorem rewritten_writePacked (h : s.Packed) (type : ValueType) (e : EntityId) (offset : Nat)
    (x : type.Carrier) (property : String) :
    Rewritten s (s.writePacked type e offset x property).1 := by
  cases hindex : s.blockIndex e with
  | error cause =>
      rw [writePacked_of_error hindex]
      exact .untouched
  | ok i =>
      have hplace := blockIndex_eq_ok.1 hindex
      obtain ⟨old, hold⟩ := h.exists_block_of_lookup hplace
      rw [writePacked_of_lookup hplace hold]
      exact .block e i old _ hplace hold (type.length_write x old offset)

theorem rewritten_writeSide (s : Store) (type : ValueType) (e : EntityId) (side : Nat)
    (x : type.Carrier) (property : String) :
    Rewritten s (s.writeSide type e side x property).1 := by
  unfold writeSide
  split
  · rename_i hheld
    split
    · rename_i hside
      exact .side e side ⟨type, x⟩ (contains_eq_true.1 hheld) hside
    · exact .untouched
  · exact .untouched

/-- What a write leaves. -/
theorem Rewritten.frame (hstep : Rewritten s t) :
    t.name = s.name ∧ t.config = s.config ∧ t.layout = s.layout ∧ t.index = s.index ∧
      t.frozen = s.frozen ∧ t.sides.length = s.sides.length ∧ t.capacity = s.capacity := by
  cases hstep with
  | untouched => exact ⟨rfl, rfl, rfl, rfl, rfl, rfl, rfl⟩
  | block => exact ⟨rfl, rfl, rfl, rfl, rfl, rfl, List.length_set⟩
  | side => exact ⟨rfl, rfl, rfl, rfl, rfl, List.length_modify _ _ _, rfl⟩

theorem Rewritten.packed (hstep : Rewritten s t) (h : s.Packed) : t.Packed := by
  cases hstep with
  | untouched => exact h
  | block e i old new hplace hold hlength => exact h.rewrite hplace hold hlength
  | side e i v he hi =>
      refine
        { shaped := h.shaped, blank := h.blank, ascending := h.ascending, agrees := h.agrees,
          housed := h.housed, highest := h.highest, expected := h.expected,
          unblocked := h.unblocked, unused := h.unused, sided := ?_ }
      intro values hvalues y hy
      obtain ⟨j, hj⟩ := List.mem_iff_getElem?.1 hvalues
      rw [List.getElem?_modify] at hj
      obtain ⟨old, hold, hnew⟩ := Option.map_eq_some_iff.1 hj
      have hmem := List.mem_of_getElem? hold
      subst hnew
      split at hy
      · rw [IdMap.lookup_insert] at hy
        split at hy
        · rename_i hye
          rw [hye]
          exact he
        · exact h.sided old hmem y hy
      · exact h.sided old hmem y hy

/-- A write changes the bytes of one block. -/
theorem home_rewrite (h : s.Packed) {e : EntityId} {i : Nat} {old new : List UInt8}
    (hplace : s.index.lookup e = some (some i)) (hold : s.blocks[i]? = some ⟨e, old⟩)
    (x : EntityId) :
    ({ s with blocks := s.blocks.set i ⟨e, new⟩ } : Store).home x =
      if x = e then some ⟨e, new⟩ else s.home x := by
  have hi : i < s.blocks.length := lt_length_of_holderIn ((h.agrees e i).1 hplace)
  cases hlookup : s.index.lookup x with
  | none =>
      have hx : x ≠ e := by
        rintro rfl
        rw [hplace] at hlookup
        cases hlookup
      simp [home, hlookup, hx]
  | some place =>
      cases place with
      | none =>
          have hx : x ≠ e := by
            rintro rfl
            rw [hplace] at hlookup
            cases hlookup
          simp [home, hlookup, hx]
      | some j =>
          have hwritten : ({ s with blocks := s.blocks.set i ⟨e, new⟩ } : Store).index.lookup x =
              some (some j) := hlookup
          rw [home_of_lookup hwritten, home_of_lookup hlookup]
          have hsame : x = e ↔ i = j := by
            constructor
            · rintro rfl
              exact Option.some.inj (Option.some.inj (hplace.symm.trans hlookup))
            · rintro rfl
              have hx := (h.agrees x i).1 hlookup
              have he := (h.agrees e i).1 hplace
              exact Option.some.inj (hx.symm.trans he)
          show (s.blocks.set i _)[j]? = _
          rw [List.getElem?_set]
          by_cases hij : i = j
          · rw [if_pos hij, if_pos hi, if_pos (hsame.2 hij)]
          · rw [if_neg hij, if_neg fun hx => hij (hsame.1 hx)]

end Store

end EntityStore
