import EntityStore.Proofs.Store.Search

/-!
# Blocks that move

What happens to the holders of a buffer when a block is taken out, put in or cleared, and to the
index when the blocks of a run are entered anew.  An index *agrees* with a buffer when it leads
every holder to its block and leads nowhere else.

* `ascending_eraseIdx`, `ascending_insertIdx`: the order survives a block taken out, and a new
  block put in between the smaller and the greater holders.
* `lookup_reindex_iff`: entering a run anew brings the index in line for a holder whose block either
  stands in the run or has not moved.
-/

namespace EntityStore

/-- The index leads to the block of every holder, and nowhere else. -/
def Agrees (index : IdMap (Option Nat)) (blocks : List Block) : Prop :=
  ∀ e i, index.lookup e = some (some i) ↔ holderIn blocks i = some e

/-! ## Single places -/

theorem holderIn_eraseIdx (blocks : List Block) (free i : Nat) :
    holderIn (blocks.eraseIdx free) i =
      if i < free then holderIn blocks i else holderIn blocks (i + 1) := by
  unfold holderIn
  rw [List.getElem?_eraseIdx]
  split <;> rfl

theorem holderIn_insertIdx {blocks : List Block} {placed : Nat} (h : placed ≤ blocks.length)
    (b : Block) (i : Nat) :
    holderIn (blocks.insertIdx placed b) i =
      if i < placed then holderIn blocks i
      else if i = placed then b.holder? else holderIn blocks (i - 1) := by
  unfold holderIn
  rw [List.getElem?_insertIdx]
  split
  · rfl
  · split
    · rename_i heq
      simp [heq, h]
    · rfl

theorem holderIn_set {blocks : List Block} {i j : Nat} (h : i < blocks.length) (b : Block) :
    holderIn (blocks.set i b) j = if j = i then b.holder? else holderIn blocks j := by
  unfold holderIn
  rw [List.getElem?_set]
  by_cases hji : j = i
  · subst hji
    simp [h]
  · simp [hji, Ne.symm hji]

/-- Free blocks behind a buffer add no holder. -/
theorem holderIn_append_blank (blocks : List Block) (n dataSize i : Nat) :
    holderIn (blocks ++ List.replicate n (Block.blank dataSize)) i = holderIn blocks i := by
  by_cases hi : i < blocks.length
  · exact holderIn_congr (List.getElem?_append_left hi)
  · rw [holderIn_eq_none_of_length_le (Nat.le_of_not_lt hi)]
    unfold holderIn
    rw [List.getElem?_append_right (Nat.le_of_not_lt hi), List.getElem?_replicate]
    split <;> simp

/-- A holder stands somewhere exactly when one of the blocks is its own. -/
theorem exists_holderIn_iff {blocks : List Block} {e : EntityId} :
    (∃ i, holderIn blocks i = some e) ↔ ∃ b ∈ blocks, b.holder? = some e := by
  constructor
  · rintro ⟨i, hi⟩
    obtain ⟨b, hb, hholder⟩ := holderIn_eq_some.1 hi
    exact ⟨b, List.mem_of_getElem? hb, hholder⟩
  · rintro ⟨b, hb, hholder⟩
    obtain ⟨i, hi⟩ := List.mem_iff_getElem?.1 hb
    exact ⟨i, holderIn_eq_some.2 ⟨b, hi, hholder⟩⟩

/-! ## Order -/

theorem ascending_nil : Ascending [] := by
  intro i j x y _ hx
  simp [holderIn] at hx

theorem ascending_eraseIdx {blocks : List Block} (h : Ascending blocks) (free : Nat) :
    Ascending (blocks.eraseIdx free) := by
  intro i j x y hij hx hy
  rw [holderIn_eraseIdx] at hx hy
  split at hx <;> split at hy
  · exact h i j x y hij hx hy
  · exact h i (j + 1) x y (by omega) hx hy
  · omega
  · exact h (i + 1) (j + 1) x y (by omega) hx hy

theorem ascending_insertIdx {blocks : List Block} (h : Ascending blocks) {placed : Nat}
    (hplaced : placed ≤ blocks.length) {b : Block} {e : EntityId} (hb : b.holder? = some e)
    (hbelow : ∀ i x, i < placed → holderIn blocks i = some x → x < e)
    (habove : ∀ i x, placed ≤ i → holderIn blocks i = some x → e < x) :
    Ascending (blocks.insertIdx placed b) := by
  intro i j x y hij hx hy
  rw [holderIn_insertIdx hplaced] at hx hy
  -- each of the two places lies before, at or behind the new block
  rcases Nat.lt_trichotomy i placed with hi | hi | hi
  · rw [if_pos hi] at hx
    rcases Nat.lt_trichotomy j placed with hj | hj | hj
    · rw [if_pos hj] at hy
      exact h i j x y hij hx hy
    · rw [if_neg (by omega), if_pos hj, hb] at hy
      obtain rfl := Option.some.inj hy
      exact hbelow i x hi hx
    · rw [if_neg (by omega), if_neg (by omega)] at hy
      exact h i (j - 1) x y (by omega) hx hy
  · rw [if_neg (by omega), if_pos hi, hb] at hx
    rw [if_neg (by omega), if_neg (by omega)] at hy
    obtain rfl := Option.some.inj hx
    exact habove (j - 1) y (by omega) hy
  · rw [if_neg (by omega), if_neg (by omega)] at hx hy
    exact h (i - 1) (j - 1) x y (by omega) hx hy

/-- The occupied blocks alone, in their order. -/
theorem ascending_filter {blocks : List Block} (h : Ascending blocks) :
    Ascending (blocks.filter Block.isOccupied) := by
  have hpairs : blocks.Pairwise fun a b =>
      ∀ x y, a.holder? = some x → b.holder? = some y → x < y := by
    rw [List.pairwise_iff_getElem]
    intro i j hi hj hij x y hx hy
    refine h i j x y hij ?_ ?_
    · rw [holderIn_of_getElem? (List.getElem?_eq_getElem hi), hx]
    · rw [holderIn_of_getElem? (List.getElem?_eq_getElem hj), hy]
  have hkept := List.pairwise_iff_getElem.1 (hpairs.filter Block.isOccupied)
  intro i j x y hij hx hy
  have hi := lt_length_of_holderIn hx
  have hj := lt_length_of_holderIn hy
  rw [holderIn_of_getElem? (List.getElem?_eq_getElem hi)] at hx
  rw [holderIn_of_getElem? (List.getElem?_eq_getElem hj)] at hy
  exact hkept i j hi hj hij x y hx hy

/-- A buffer with the same holders at every place is in the same order. -/
theorem Ascending.congr {blocks others : List Block} (h : Ascending blocks)
    (hsame : ∀ i, holderIn others i = holderIn blocks i) : Ascending others := by
  intro i j x y hij hx hy
  exact h i j x y hij (hsame i ▸ hx) (hsame j ▸ hy)

/-! ## The index -/

/-- Entering a run anew sets the place of each holder in it and leaves all others. -/
theorem lookup_reindex {run : List Block} (hasc : Ascending run) (start : Nat)
    (index : IdMap (Option Nat)) (e : EntityId) :
    (∃ j, holderIn run j = some e ∧
        (Store.reindex run start index).lookup e = some (some (start + j))) ∨
      (∀ j, holderIn run j ≠ some e) ∧
        (Store.reindex run start index).lookup e = index.lookup e := by
  induction run generalizing start index with
  | nil => exact Or.inr ⟨fun j => by simp [holderIn], rfl⟩
  | cons b rest ih =>
      have hshift : ∀ j, holderIn (b :: rest) (j + 1) = holderIn rest j := fun j => by
        simp [holderIn]
      have hhead : holderIn (b :: rest) 0 = b.holder? := by simp [holderIn]
      have hrest : Ascending rest := by
        intro i j x y hij hx hy
        exact hasc (i + 1) (j + 1) x y (by omega) (by rw [hshift, hx]) (by rw [hshift, hy])
      -- a holder that comes later in the run was not entered here, as no holder comes twice
      unfold Store.reindex
      rcases ih hrest (start + 1) (if b.isFree then index else index.insert b.tag (some start)) with
        ⟨j, hj, hlookup⟩ | ⟨hnone, hlookup⟩
      · refine Or.inl ⟨j + 1, by rw [hshift, hj], ?_⟩
        rw [hlookup]
        congr 2
        omega
      · by_cases hb : b.holder? = some e
        · obtain ⟨hoccupied, htag⟩ := Block.holder?_eq_some.1 hb
          refine Or.inl ⟨0, by rw [hhead, hb], ?_⟩
          rw [hlookup, hoccupied, if_neg Bool.false_ne_true, IdMap.lookup_insert, if_pos htag.symm]
          rfl
        · refine Or.inr ⟨fun j => ?_, ?_⟩
          · cases j with
            | zero => rw [hhead]; exact hb
            | succ j => rw [hshift]; exact hnone j
          · rw [hlookup]
            split
            · rfl
            · rename_i hoccupied
              rw [IdMap.lookup_insert, if_neg]
              rintro rfl
              exact hb (Block.holder?_eq_some.2 ⟨by simpa using hoccupied, rfl⟩)

/-- The holders of a run cut out of a buffer. -/
theorem holderIn_run (blocks : List Block) (start moved j : Nat) :
    holderIn ((blocks.drop start).take moved) j =
      if j < moved then holderIn blocks (start + j) else none := by
  unfold holderIn
  rw [List.getElem?_take, List.getElem?_drop]
  split <;> rfl

theorem ascending_run {blocks : List Block} (h : Ascending blocks) (start moved : Nat) :
    Ascending ((blocks.drop start).take moved) := by
  intro i j x y hij hx hy
  rw [holderIn_run] at hx hy
  split at hx
  · split at hy
    · exact h (start + i) (start + j) x y (by omega) hx hy
    · cases hy
  · cases hx

/-- After a run was entered anew, the index leads an entity to its block, provided that its block
either stands in the run or has not moved, and that no holder was lost. -/
theorem lookup_reindex_iff {index : IdMap (Option Nat)} {blocks others : List Block}
    (hagree : Agrees index blocks) (hasc : Ascending others) (start moved : Nat) {x : EntityId}
    (hstay : ∀ i, holderIn others i = some x →
      start ≤ i ∧ i < start + moved ∨ holderIn blocks i = some x)
    (hkeep : ∀ i, holderIn blocks i = some x → ∃ j, holderIn others j = some x) (i : Nat) :
    (Store.reindex ((others.drop start).take moved) start index).lookup x = some (some i) ↔
      holderIn others i = some x := by
  rcases lookup_reindex (ascending_run hasc start moved) start index x with
    ⟨j, hj, hlookup⟩ | ⟨hnone, hlookup⟩
  · rw [holderIn_run] at hj
    split at hj
    · rw [hlookup]
      constructor
      · intro h
        obtain rfl := Option.some.inj (Option.some.inj h)
        exact hj
      · intro h
        rw [hasc.place_unique hj h]
    · cases hj
  · -- the entity has no block in the run: the old entry is still there, and still right
    have hstill : ∀ i, holderIn others i = some x → holderIn blocks i = some x := by
      intro i hi
      rcases hstay i hi with ⟨hle, hlt⟩ | hsame
      · have hin := hnone (i - start)
        have hplace : start + (i - start) = i := by omega
        rw [holderIn_run, if_pos (by omega), hplace] at hin
        exact absurd hi hin
      · exact hsame
    rw [hlookup, hagree x i]
    constructor
    · intro hi
      obtain ⟨j, hj⟩ := hkeep i hi
      have hij : i = j := by
        have hlookups := ((hagree x i).2 hi).symm.trans ((hagree x j).2 (hstill j hj))
        exact Option.some.inj (Option.some.inj hlookups)
      exact hij ▸ hj
    · exact hstill i

end EntityStore
